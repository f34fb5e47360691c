import KeelGateway.Raft.Sessions

/-!
# Claims of a session over an unreliable network

A node claims the session of a client with one call of its registry, but the call may hand several
copies of the claim to the Raft log. An edge node asks one core node after another until one
answers, and whatever the error of an RPC is, it goes on to the next. A core node hands the claim to
its own Raft instance, and if that is not the leader or loses the leadership, it asks the leader. A
claim whose answer is lost may have been committed, may be committed later, or never.

The events around a call are data here: what becomes of every RPC and of every `raft.Apply`, and
which commands the log commits in between.

-/

namespace KeelGateway.Raft

/-! ### The log -/

/-- The commands on the session part of the replicated state. -/
inductive Command where
  | claimSession (clientID nodeID identity : Text)
  | releaseSession (clientID nodeID : Text)
  deriving DecidableEq

/-- The client of a command. -/
def Command.clientID : Command → Text
  | claimSession clientID _ _ => clientID
  | releaseSession clientID _ => clientID

/-- `FSM.Apply`: the state afterwards and `evictedNode`. -/
def Sessions.apply (s : Sessions) : Command → Sessions × Text
  | .claimSession clientID nodeID identity => s.claimSession clientID nodeID identity
  | .releaseSession clientID nodeID => (s.releaseSession clientID nodeID, [])

/-- The state after the commands of a log. -/
def Sessions.ofLog (entries : List Command) : Sessions :=
  entries.foldl (fun s cmd => (s.apply cmd).1) {}

theorem Sessions.lookup_apply_of_ne (s : Sessions) {cmd : Command} {clientID : Text}
    (h : clientID ≠ cmd.clientID) :
    (s.apply cmd).1.sessions.lookup clientID = s.sessions.lookup clientID := by
  cases cmd with
  | claimSession c nodeID identity => exact AList.lookup_insert_ne h
  | releaseSession c nodeID =>
    simp only [apply, releaseSession]
    split_ifs
    · exact AList.lookup_erase_ne h
    · rfl

/-- The Raft log. -/
structure RaftLog where
  entries : List Command := []
  /-- Commands that a leader has taken over and that may still be committed. -/
  pending : List Command := []
  deriving DecidableEq

/-- What the log does besides answering. -/
inductive LogEvent where
  | foreign (cmd : Command)
  | commit (i : ℕ)

namespace RaftLog

/-- The owner of the session of a client. -/
def owner (l : RaftLog) (clientID : Text) : Option Text :=
  (Sessions.ofLog l.entries).sessions.lookup clientID

/-- A command is committed. -/
def append (l : RaftLog) (cmd : Command) : RaftLog := { l with entries := l.entries ++ [cmd] }

/-- One event of the log. -/
def step (l : RaftLog) : LogEvent → RaftLog
  | .foreign cmd => l.append cmd
  | .commit i =>
    match l.pending[i]? with
    | none => l
    | some cmd => { l.append cmd with pending := l.pending.eraseIdx i }

end RaftLog

/-! ### Calls -/

/-- What becomes of a command whose `raft.Apply` fails after a leader took it over. -/
inductive Fate where
  | dropped
  | committed
  | pending
  deriving DecidableEq, Repr

/-- The errors of `raft.Apply`. -/
inductive ApplyError where
  | notLeader
  | leadershipLost
  | other
  deriving DecidableEq, Repr

/-- `IsNotLeader`. -/
def ApplyError.isNotLeader : ApplyError → Bool
  | notLeader | leadershipLost => true
  | other => false

/-- How a `raft.Apply` ends. -/
inductive ApplyOutcome where
  | applied
  | notLeader
  /-- The node stops being the leader before the command is committed. -/
  | leadershipLost (fate : Fate)
  | failed (fate : Fate)

/-- One `raft.Apply`, and what the log does before it. -/
structure ApplyRun where
  before : List LogEvent := []
  outcome : ApplyOutcome

/-- The errors of an RPC, and of a registry that knows no core node. -/
inductive RpcError where
  | noPeers
  | failedPrecondition
  | internal
  | transport
  deriving DecidableEq, Repr

/-- The errors of `ClaimSession` on a core node. -/
inductive CoreError where
  | apply (e : ApplyError)
  | fallback (e : RpcError)
  deriving DecidableEq, Repr

/-- `notLeaderStatus`. -/
def notLeaderStatus : CoreError → RpcError
  | .apply e => if e.isNotLeader then .failedPrecondition else .internal
  | .fallback _ => .internal

/-- What becomes of an RPC `ClaimSession` to a core node. `answered`: its answer comes in time. -/
inductive Rpc where
  | unreachable
  /-- The core node serves the call. If its Raft instance is not the leader, it knows no leader. -/
  | served (run : ApplyRun) (answered : Bool)
  /-- The core node serves the call. If its Raft instance is not the leader, it asks the leader. -/
  | forwarded (run : ApplyRun) (leader : Rpc) (answered : Bool)

section Calls

variable (cmd : Command)

/-- A command that a leader has taken over and whose `raft.Apply` failed. -/
def RaftLog.handOver (l : RaftLog) : Fate → RaftLog
  | .dropped => l
  | .committed => l.append cmd
  | .pending => { l with pending := l.pending ++ [cmd] }

/-- `LocalRegistry.ClaimSession`. -/
def localClaimSession (run : ApplyRun) (l : RaftLog) : RaftLog × Except ApplyError Text :=
  let l := run.before.foldl RaftLog.step l
  match run.outcome with
  | .applied => (l.append cmd, .ok ((Sessions.ofLog l.entries).apply cmd).2)
  | .notLeader => (l, .error .notLeader)
  | .leadershipLost fate => (l.handOver cmd fate, .error .leadershipLost)
  | .failed fate => (l.handOver cmd fate, .error .other)

/-- `CoreRegistry.ClaimSession`; `fallback` is the call of the leader. -/
def coreClaimSession (run : ApplyRun) (fallback : RaftLog → RaftLog × Except RpcError Text)
    (l : RaftLog) : RaftLog × Except CoreError Text :=
  match localClaimSession cmd run l with
  | (l, .ok evicted) => (l, .ok evicted)
  | (l, .error e) =>
    if e.isNotLeader then
      match fallback l with
      | (l, .ok evicted) => (l, .ok evicted)
      | (l, .error e) => (l, .error (.fallback e))
    else (l, .error (.apply e))

/-- The answer of `RPCServer.ClaimSession`, as the caller sees it. -/
def rpcAnswer (answered : Bool) : RaftLog × Except CoreError Text → RaftLog × Except RpcError Text
  | (l, .ok evicted) => (l, if answered then .ok evicted else .error .transport)
  | (l, .error e) => (l, .error (if answered then notLeaderStatus e else .transport))

/-- An RPC `ClaimSession` to a core node. -/
def Rpc.run : Rpc → RaftLog → RaftLog × Except RpcError Text
  | unreachable, l => (l, .error .transport)
  | served run answered, l =>
    rpcAnswer answered (coreClaimSession cmd run (fun l => (l, .error .noPeers)) l)
  | forwarded run leader answered, l =>
    rpcAnswer answered (coreClaimSession cmd run leader.run l)

/-- `forEachPeer` for `ClaimSession`, with the RPC to every core node in turn. -/
def claimAtPeers : List Rpc → RpcError → RaftLog → RaftLog × Except RpcError Text
  | [], lastErr, l => (l, .error lastErr)
  | rpc :: rpcs, _, l =>
    match rpc.run cmd l with
    | (l, .ok evicted) => (l, .ok evicted)
    | (l, .error e) => claimAtPeers rpcs e l

/-- `RemoteRegistry.ClaimSession`. -/
def remoteClaimSession (rpcs : List Rpc) (l : RaftLog) : RaftLog × Except RpcError Text :=
  claimAtPeers cmd rpcs .noPeers l

end Calls

/-- A call of `ClaimSession`, with what becomes of its RPCs. -/
inductive ClaimCall where
  | edge (rpcs : List Rpc)
  /-- On a core node; `leader` is the RPC to the leader if its address is known. -/
  | core (run : ApplyRun) (leader : Option Rpc)

/-- The log after a call, and what the call returns; `none` is an error. -/
def ClaimCall.run (cmd : Command) (l : RaftLog) : ClaimCall → RaftLog × Option Text
  | edge rpcs =>
    let (l, result) := remoteClaimSession cmd rpcs l
    (l, result.toOption)
  | core run leader =>
    let (l, result) := coreClaimSession cmd run (remoteClaimSession cmd leader.toList) l
    (l, result.toOption)

/-! ### Commands of others -/

/-- The commands of others that the log commits before a `raft.Apply`. -/
def ApplyRun.foreign (run : ApplyRun) : List Command :=
  run.before.filterMap fun
    | .foreign cmd => some cmd
    | .commit _ => none

/-- The commands of others that the log commits during an RPC. -/
def Rpc.foreign : Rpc → List Command
  | unreachable => []
  | served run _ => run.foreign
  | forwarded run leader _ => run.foreign ++ leader.foreign

/-- The commands of others that the log commits during a call. -/
def ClaimCall.foreign : ClaimCall → List Command
  | edge rpcs => rpcs.flatMap Rpc.foreign
  | core run leader => run.foreign ++ leader.toList.flatMap Rpc.foreign

/-- The commands concern other clients, apart from copies of `cmd`. -/
def Undisturbed (cmd : Command) (cmds : List Command) : Prop :=
  ∀ c ∈ cmds, c.clientID = cmd.clientID → c = cmd

namespace Undisturbed

variable {cmd : Command} {cmds cmds' : List Command}

theorem append (h : Undisturbed cmd cmds) (h' : Undisturbed cmd cmds') :
    Undisturbed cmd (cmds ++ cmds') := by
  intro c hc
  rcases List.mem_append.1 hc with hc | hc
  · exact h c hc
  · exact h' c hc

theorem mono (h : Undisturbed cmd cmds) (hsub : ∀ c ∈ cmds', c ∈ cmds) : Undisturbed cmd cmds' :=
  fun c hc => h c (hsub c hc)

theorem of_ne (h : ∀ c ∈ cmds, c.clientID ≠ cmd.clientID) : Undisturbed cmd cmds :=
  fun c hc hclient => absurd hclient (h c hc)

theorem singleton : Undisturbed cmd [cmd] := by
  intro c hc _
  exact List.mem_singleton.1 hc

end Undisturbed

/-! ### What a call does to the log -/

/-- The log has grown by `cmds`, and nothing else of the client is under way. -/
structure Grows (cmd : Command) (l l' : RaftLog) (cmds : List Command) : Prop where
  entries : l'.entries = l.entries ++ cmds
  committed : Undisturbed cmd cmds
  pending : Undisturbed cmd l'.pending

namespace Grows

variable {cmd : Command} {l l' l'' : RaftLog} {cmds cmds' : List Command}

theorem refl (hpending : Undisturbed cmd l.pending) : Grows cmd l l [] :=
  ⟨(List.append_nil _).symm, nofun, hpending⟩

theorem trans (h : Grows cmd l l' cmds) (h' : Grows cmd l' l'' cmds') :
    Grows cmd l l'' (cmds ++ cmds') where
  entries := by rw [h'.entries, h.entries, List.append_assoc]
  committed := h.committed.append h'.committed
  pending := h'.pending

/-- A command that is committed. -/
theorem append (hpending : Undisturbed cmd l.pending) {c : Command} (hc : Undisturbed cmd [c]) :
    Grows cmd l (l.append c) [c] :=
  ⟨rfl, hc, hpending⟩

theorem step (hpending : Undisturbed cmd l.pending) (e : LogEvent)
    (he : ∀ c, e = .foreign c → Undisturbed cmd [c]) : ∃ cmds, Grows cmd l (l.step e) cmds := by
  cases e with
  | foreign c => exact ⟨[c], append hpending (he c rfl)⟩
  | commit i =>
    simp only [RaftLog.step]
    cases hi : l.pending[i]? with
    | none => exact ⟨[], refl hpending⟩
    | some c =>
      refine ⟨[c], rfl, ?_, hpending.mono fun d hd => List.mem_of_mem_eraseIdx hd⟩
      exact hpending.mono fun d hd => List.mem_singleton.1 hd ▸ List.mem_of_getElem? hi

theorem before (hpending : Undisturbed cmd l.pending) (run : ApplyRun)
    (hforeign : Undisturbed cmd run.foreign) :
    ∃ cmds, Grows cmd l (run.before.foldl RaftLog.step l) cmds := by
  obtain ⟨events, outcome⟩ := run
  induction events generalizing l with
  | nil => exact ⟨[], refl hpending⟩
  | cons e events ih =>
    have he (c : Command) (hc : e = .foreign c) : Undisturbed cmd [c] := by
      refine hforeign.mono fun d hd => ?_
      rw [List.mem_singleton.1 hd]
      simp [ApplyRun.foreign, hc]
    obtain ⟨cmds, hstep⟩ := step hpending e he
    obtain ⟨cmds', hrest⟩ := ih hstep.pending <| hforeign.mono fun d hd => by
      obtain ⟨e', he', hsome⟩ := List.mem_filterMap.1 hd
      exact List.mem_filterMap.2 ⟨e', List.mem_cons_of_mem _ he', hsome⟩
    exact ⟨cmds ++ cmds', hstep.trans hrest⟩

theorem handOver (hpending : Undisturbed cmd l.pending) (fate : Fate) :
    ∃ cmds, Grows cmd l (l.handOver cmd fate) cmds := by
  cases fate with
  | dropped => exact ⟨[], refl hpending⟩
  | committed => exact ⟨[cmd], append hpending .singleton⟩
  | pending => exact ⟨[], (List.append_nil _).symm, nofun, hpending.append .singleton⟩

end Grows

/-- What a call leaves: a log that has grown, and on success the claim as its last entry, with the
answer that the state before it gives. -/
def Answers {ε : Type} (cmd : Command) (l : RaftLog) (out : RaftLog × Except ε Text) : Prop :=
  ∃ cmds, Grows cmd l out.1 cmds ∧ ∀ evicted, out.2 = .ok evicted →
    ∃ before, cmds = before ++ [cmd] ∧
      evicted = ((Sessions.ofLog (l.entries ++ before)).apply cmd).2

namespace Answers

variable {ε ε' : Type} {cmd : Command} {l l' : RaftLog} {cmds : List Command}

/-- A failed call. -/
theorem of_grows {e : ε} (h : Grows cmd l l' cmds) : Answers cmd l (l', .error e) :=
  ⟨cmds, h, nofun⟩

theorem of_grows_of_answers {out : RaftLog × Except ε Text} (h : Grows cmd l l' cmds)
    (hout : Answers cmd l' out) : Answers cmd l out := by
  obtain ⟨cmds', hgrows, hok⟩ := hout
  refine ⟨cmds ++ cmds', h.trans hgrows, fun evicted hevicted => ?_⟩
  obtain ⟨before, rfl, rfl⟩ := hok evicted hevicted
  exact ⟨cmds ++ before, (List.append_assoc _ _ _).symm, by rw [h.entries, List.append_assoc]⟩

theorem of_ok_imp {out : RaftLog × Except ε Text} {r : Except ε' Text} (h : Answers cmd l out)
    (hr : ∀ evicted, r = .ok evicted → out.2 = .ok evicted) : Answers cmd l (out.1, r) := by
  obtain ⟨cmds, hgrows, hok⟩ := h
  exact ⟨cmds, hgrows, fun evicted hevicted => hok evicted (hr evicted hevicted)⟩

theorem localClaimSession (hpending : Undisturbed cmd l.pending) (run : ApplyRun)
    (hforeign : Undisturbed cmd run.foreign) :
    Answers cmd l (localClaimSession cmd run l) := by
  obtain ⟨cmds, hbefore⟩ := Grows.before hpending run hforeign
  refine of_grows_of_answers hbefore ?_
  unfold Raft.localClaimSession
  cases run.outcome with
  | applied =>
    refine ⟨[cmd], .append hbefore.pending .singleton, fun evicted hevicted => ?_⟩
    cases hevicted
    exact ⟨[], rfl, by rw [List.append_nil]⟩
  | notLeader => exact of_grows (.refl hbefore.pending)
  | leadershipLost fate | failed fate =>
    obtain ⟨cmds', hover⟩ := Grows.handOver hbefore.pending fate
    exact of_grows hover

theorem coreClaimSession (hpending : Undisturbed cmd l.pending) (run : ApplyRun)
    (hforeign : Undisturbed cmd run.foreign)
    {fallback : RaftLog → RaftLog × Except RpcError Text}
    (hfallback : ∀ l, Undisturbed cmd l.pending → Answers cmd l (fallback l)) :
    Answers cmd l (coreClaimSession cmd run fallback l) := by
  have hlocal := localClaimSession hpending run hforeign
  unfold Raft.coreClaimSession
  rcases hout : Raft.localClaimSession cmd run l with ⟨l', evicted | e⟩
  · rw [hout] at hlocal
    obtain ⟨cmds, hgrows, -⟩ := hlocal
    dsimp only
    split_ifs
    · have hrest := of_grows_of_answers hgrows (hfallback l' hgrows.pending)
      rcases hback : fallback l' with ⟨l'', e' | evicted⟩
      · rw [hback] at hrest
        exact hrest.of_ok_imp nofun
      · rw [hback] at hrest
        exact hrest.of_ok_imp fun _ h => by cases h; rfl
    · exact of_grows hgrows
  · rw [hout] at hlocal
    exact hlocal.of_ok_imp fun _ h => by cases h; rfl

theorem rpcAnswer {out : RaftLog × Except CoreError Text} (h : Answers cmd l out)
    (answered : Bool) : Answers cmd l (rpcAnswer answered out) := by
  obtain ⟨l', e | evicted⟩ := out
  · exact h.of_ok_imp nofun
  · refine h.of_ok_imp fun evicted' heq => ?_
    split_ifs at heq
    cases heq
    rfl

theorem rpc (hpending : Undisturbed cmd l.pending) (rpc : Rpc)
    (hforeign : Undisturbed cmd rpc.foreign) : Answers cmd l (rpc.run cmd l) := by
  induction rpc generalizing l with
  | unreachable => exact of_grows (.refl hpending)
  | served run answered =>
    refine rpcAnswer (coreClaimSession hpending run hforeign fun l hl => ?_) answered
    exact of_grows (.refl hl)
  | forwarded run leader answered ih =>
    refine rpcAnswer (coreClaimSession hpending run ?_ fun l hl => ih hl ?_) answered
    · exact hforeign.mono fun c hc => List.mem_append_left _ hc
    · exact hforeign.mono fun c hc => List.mem_append_right _ hc

theorem claimAtPeers (hpending : Undisturbed cmd l.pending) (rpcs : List Rpc) (lastErr : RpcError)
    (hforeign : Undisturbed cmd (rpcs.flatMap Rpc.foreign)) :
    Answers cmd l (claimAtPeers cmd rpcs lastErr l) := by
  induction rpcs generalizing l lastErr with
  | nil => exact of_grows (.refl hpending)
  | cons rpc rpcs ih =>
    have hfirst := Answers.rpc hpending rpc <| hforeign.mono fun c hc => by
      rw [List.flatMap_cons]
      exact List.mem_append_left _ hc
    unfold Raft.claimAtPeers
    rcases hout : rpc.run cmd l with ⟨l', e | evicted⟩
    · rw [hout] at hfirst
      obtain ⟨cmds, hgrows, -⟩ := hfirst
      refine of_grows_of_answers hgrows (ih hgrows.pending e ?_)
      refine hforeign.mono fun c hc => ?_
      rw [List.flatMap_cons]
      exact List.mem_append_right _ hc
    · rw [hout] at hfirst
      exact hfirst

end Answers

/-! ### The displaced owner -/

theorem owner_append {clientID nodeID identity : Text} (entries : List Command)
    {cmds : List Command}
    (h : Undisturbed (.claimSession clientID nodeID identity) cmds) :
    (Sessions.ofLog (entries ++ cmds)).sessions.lookup clientID =
      if .claimSession clientID nodeID identity ∈ cmds then some nodeID
      else (Sessions.ofLog entries).sessions.lookup clientID := by
  induction cmds using List.reverseRecOn with
  | nil => simp
  | append_singleton cmds c ih =>
    have hlog : Sessions.ofLog (entries ++ (cmds ++ [c])) =
        ((Sessions.ofLog (entries ++ cmds)).apply c).1 := by
      simp [Sessions.ofLog]
    have hrest := ih (h.mono fun d hd => List.mem_append_left _ hd)
    by_cases hc : c.clientID = clientID
    · obtain rfl := h c (by simp) hc
      rw [hlog, if_pos (by simp)]
      exact Sessions.lookup_claimSession _ _ _ _
    · have hne : c ≠ .claimSession clientID nodeID identity := by
        rintro rfl
        exact hc rfl
      rw [hlog]
      simp only [List.mem_append, List.mem_singleton, hne.symm, or_false]
      rw [← hrest]
      exact Sessions.lookup_apply_of_ne _ (Ne.symm hc)

namespace ClaimCall

variable {clientID nodeID identity : Text}

theorem answers {cmd : Command} {l : RaftLog} (call : ClaimCall)
    (hpending : Undisturbed cmd l.pending) (hforeign : Undisturbed cmd call.foreign) {l' : RaftLog}
    {evicted : Text} (hrun : call.run cmd l = (l', some evicted)) :
    Answers cmd l (l', (.ok evicted : Except Unit Text)) := by
  have hok {ε : Type} {out : RaftLog × Except ε Text} (hout : Answers cmd l out)
      (h : (out.1, out.2.toOption) = (l', some evicted)) :
      Answers cmd l (l', (.ok evicted : Except Unit Text)) := by
    obtain ⟨l'', e | evicted'⟩ := out
    · cases h
    · cases h
      exact hout.of_ok_imp fun _ h => by cases h; rfl
  cases call with
  | edge rpcs => exact hok (.claimAtPeers hpending rpcs .noPeers hforeign) hrun
  | core run leader =>
    refine hok (.coreClaimSession hpending run ?_ fun l hl => ?_) hrun
    · exact hforeign.mono fun c hc => List.mem_append_left _ hc
    · refine .claimAtPeers hl leader.toList .noPeers ?_
      exact hforeign.mono fun c hc => List.mem_append_right _ hc

/-- A call that succeeds, with no other command on the session of the client under way, reports the
owner that it found if the claim was committed once, and nobody if it was committed before. -/
theorem evicted_eq (call : ClaimCall) {l l' : RaftLog} {m evicted : Text}
    (hpending : ∀ cmd ∈ l.pending, cmd.clientID ≠ clientID)
    (hforeign : ∀ cmd ∈ call.foreign, cmd.clientID ≠ clientID)
    (howner : l.owner clientID = some m) (hm : m ≠ nodeID)
    (hrun : call.run (.claimSession clientID nodeID identity) l = (l', some evicted)) :
    evicted =
      if (l'.entries.drop l.entries.length).count (.claimSession clientID nodeID identity) = 1
      then m else [] := by
  have hclaim : (Command.claimSession clientID nodeID identity).clientID = clientID := rfl
  obtain ⟨cmds, hgrows, hok⟩ := call.answers (.of_ne (hclaim ▸ hpending))
    (.of_ne (hclaim ▸ hforeign)) hrun
  obtain ⟨before, rfl, rfl⟩ := hok evicted rfl
  have hundisturbed : Undisturbed (.claimSession clientID nodeID identity) before :=
    hgrows.committed.mono fun c hc => List.mem_append_left _ hc
  have hbefore := owner_append l.entries hundisturbed
  have honce : (l'.entries.drop l.entries.length).count
      (.claimSession clientID nodeID identity) = 1 ↔
        .claimSession clientID nodeID identity ∉ before := by
    rw [hgrows.entries, List.drop_left, List.count_append, List.count_singleton_self,
      Nat.add_eq_right, List.count_eq_zero]
  by_cases hmem : .claimSession clientID nodeID identity ∈ before
  · rw [if_pos hmem] at hbefore
    rw [if_neg fun h => honce.1 h hmem]
    simp [Sessions.apply, Sessions.claimSession, hbefore]
  · rw [if_neg hmem] at hbefore
    rw [RaftLog.owner] at howner
    rw [if_pos (honce.2 hmem)]
    simp [Sessions.apply, Sessions.claimSession, hbefore, howner, hm]

/-- Node `m` owns the session of the client `c`. -/
def owned : RaftLog where
  entries := [.claimSession ['c'] ['m'] []]

/-- Node `n` takes the session of the client `c` over. On an edge node the first core node commits
the claim and its answer is lost; the second one commits it again. On a core node the claim is
committed by the next leader, which the node then asks. Both calls succeed and report nobody. -/
theorem evicted_lost :
    owned.owner ['c'] = some ['m'] ∧
    ((edge [.served ⟨[], .applied⟩ false, .served ⟨[], .applied⟩ true]).run
      (.claimSession ['c'] ['n'] []) owned).2 = some [] ∧
    ((core ⟨[], .leadershipLost .committed⟩ (some (.served ⟨[], .applied⟩ true))).run
      (.claimSession ['c'] ['n'] []) owned).2 = some [] := by
  decide

/-- When the first core node is not the leader and knows no leader, and the answer of the second one
comes, the call reports `m`. -/
theorem evicted_eq_single :
    ∃ l', (edge [.served ⟨[], .notLeader⟩ true, .served ⟨[], .applied⟩ true]).run
        (.claimSession ['c'] ['n'] []) owned = (l', some ['m']) ∧
      ['m'] = if (l'.entries.drop owned.entries.length).count (.claimSession ['c'] ['n'] []) = 1
        then ['m'] else [] := by
  have hrun : (edge [.served ⟨[], .notLeader⟩ true, .served ⟨[], .applied⟩ true]).run
      (.claimSession ['c'] ['n'] []) owned =
        (⟨[.claimSession ['c'] ['m'] [], .claimSession ['c'] ['n'] []], []⟩, some ['m']) := by
    decide
  exact ⟨_, hrun, evicted_eq _ (by decide) (by decide) (by decide) (by decide) hrun⟩

end ClaimCall

end KeelGateway.Raft
