import KeelGateway.Text

/-!
# The replicated session map

The Raft log decides which node owns the session of a client. A claim always wins and reports the
node that it displaced; a release only counts for the node that still owns the session.

-/

namespace KeelGateway.Raft

/-- The session part of the replicated state. -/
structure Sessions where
  sessions : GoMap Text Text := ∅
  sessionIdentity : GoMap Text Text := ∅

namespace Sessions

/-- `OpClaimSession`: the state afterwards and the node that lost the session, the empty text if
there is none. -/
def claimSession (s : Sessions) (clientID nodeID identity : Text) : Sessions × Text :=
  let evicted := match s.sessions.lookup clientID with
    | some owner => if owner ≠ nodeID then owner else []
    | none => []
  ({ sessions := s.sessions.insert clientID nodeID
     sessionIdentity :=
      if identity ≠ [] then s.sessionIdentity.insert clientID identity
      else s.sessionIdentity.erase clientID },
    evicted)

/-- `OpReleaseSession`. -/
def releaseSession (s : Sessions) (clientID nodeID : Text) : Sessions :=
  if s.sessions.lookup clientID = some nodeID then
    { sessions := s.sessions.erase clientID
      sessionIdentity := s.sessionIdentity.erase clientID }
  else s

/-- The claiming node owns the session. -/
theorem lookup_claimSession (s : Sessions) (clientID nodeID identity : Text) :
    (s.claimSession clientID nodeID identity).1.sessions.lookup clientID = some nodeID :=
  AList.lookup_insert _

end Sessions

end KeelGateway.Raft
