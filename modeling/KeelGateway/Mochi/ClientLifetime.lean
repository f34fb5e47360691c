import Mathlib.Data.Nat.Basic

/-!
# How long the broker keeps a session

A client states with its CONNECT, and may restate with its DISCONNECT, how long its session is to
outlive the connection. The broker acts on it in three places: when a connection ends, when a new
connection finds the client object of an older one, and in a periodic sweep over the client objects
whose connection has ended.

-/

namespace KeelGateway.Mochi

/-- What a client stated about the lifetime of its session. -/
structure ClientProperties where
  protocolVersion : ℕ := 5
  clean : Bool := false
  sessionExpiryInterval : ℕ := 0
  sessionExpiryIntervalFlag : Bool := false
  deriving DecidableEq

/-- Why a connection was stopped: `ErrSessionTakenOver`, or anything else. -/
inductive StopCause where
  | sessionTakenOver
  | other
  deriving DecidableEq

namespace ClientProperties

/-- `expire` in `attachClient`: the session ends with the connection. -/
def expire (p : ClientProperties) : Bool :=
  (p.protocolVersion = 5 && p.sessionExpiryInterval = 0) || (p.protocolVersion < 5 && p.clean)

/-- `inheritClientSession` drops the session of the existing client object. -/
def discards (new existing : ClientProperties) : Bool :=
  new.clean || (existing.clean && existing.protocolVersion < 5)

/-- `SendConnack` cuts the interval down to the maximum. -/
def connack (maximum : ℕ) (p : ClientProperties) : ClientProperties :=
  if p.sessionExpiryInterval > maximum then
    { p with sessionExpiryInterval := maximum, sessionExpiryIntervalFlag := true }
  else p

/-- `processDisconnect`: a DISCONNECT may restate the interval, but not raise it from zero. -/
def processDisconnect (p : ClientProperties) (interval : Option ℕ) : ClientProperties :=
  match interval with
  | none => p
  | some n =>
    if n > 0 ∧ p.sessionExpiryInterval = 0 then p
    else { p with sessionExpiryInterval := n, sessionExpiryIntervalFlag := true }

/-- The interval that `clearExpiredClients` goes by. -/
def expiryInterval (maximum : ℕ) (p : ClientProperties) : ℕ :=
  if p.protocolVersion = 5 && p.sessionExpiryIntervalFlag then p.sessionExpiryInterval else maximum

end ClientProperties

end KeelGateway.Mochi
