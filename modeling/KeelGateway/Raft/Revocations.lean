import KeelGateway.Raft.CommandHistory

/-!
# Revoked certificates

An external custodian reports a revoked certificate to a core node, which commits the identity of
the certificate to the Raft log. An identity is the text of a common name, a device and a tenant
with an `@` in between. A core node answers from its copy of the state whether an identity is
revoked, an edge node from a copy that it fetches from time to time.

-/

namespace KeelGateway.Raft

open FSM StepMachine

/-- The report of a custodian, as far as the handler reads it. -/
structure RevocationEvent where
  event : Text
  orgID : Text
  deviceID : Text

/-- `handleRevocationWebhook`, for a report with a valid signature: the identity that is revoked.
Other events are acknowledged and ignored, and a report without a device or a tenant is refused. -/
def RevocationEvent.identity (e : RevocationEvent) : Option Text :=
  if e.event ≠ "device.cert.revoked".toList then none
  else if e.deviceID = [] ∨ e.orgID = [] then none
  else some (e.deviceID ++ '@' :: e.orgID)

/-- `RevokeCertificate`: the command that is committed. -/
def revokeCertificate (identity : Text) : FSM.Command :=
  { op := .revokeCertificate, identity := identity }

/-- `revokedSnapshot`. -/
def FSM.revokedSnapshot (f : FSM) (order : List ℕ) : GoMap Text ℤ :=
  (f.revoked.copied order).content

/-- `RevocationCache`. -/
structure RevocationCache where
  revoked : GoMap Text ℤ := ∅
  ready : Bool := false

namespace RevocationCache

/-- `refresh` with the outcome of the fetch; `none` is a failed fetch. -/
def refresh (c : RevocationCache) : Option (GoMap Text ℤ) → RevocationCache
  | none => c
  | some revoked => { revoked := revoked, ready := true }

/-- `IsRevoked`: everything is revoked before the first successful fetch. -/
def isRevoked (c : RevocationCache) (identity : Text) : Bool :=
  if !c.ready then true else (c.revoked.lookup identity).isSome

theorem isRevoked_refresh (c : RevocationCache) (f : FSM) (order : List ℕ) (identity : Text) :
    (c.refresh (some (f.revokedSnapshot order))).isRevoked identity = f.isRevoked identity :=
  congrArg Option.isSome (congrFun (NilMap.get_copied f.revoked order) identity)

end RevocationCache

/-- What a node answers: a core node from the state, an edge node from a copy that it has refreshed
from it. -/
inductive SeesRevocations (f : FSM) : (Text → Bool) → Prop
  | core : SeesRevocations f f.isRevoked
  | edge (c : RevocationCache) (order : List ℕ) :
    SeesRevocations f (c.refresh (some (f.revokedSnapshot order))).isRevoked

theorem SeesRevocations.eq {f : FSM} {isRevoked : Text → Bool} (h : SeesRevocations f isRevoked) :
    isRevoked = f.isRevoked := by
  cases h with
  | core => rfl
  | edge c order => exact funext fun identity => c.isRevoked_refresh f order identity

end KeelGateway.Raft
