import KeelGateway.Acl.Evaluate
import KeelGateway.Lib.StepMachine

/-!
# The replicated ACL state and how an edge node reads it

Roles, bindings and the set of enabled rulesets are replicated on the core nodes. A core node
evaluates a request on that state (`ACLState.evaluateACL`). An edge node either asks a core node
for every request (`RemoteRegistry.evaluateACL`) or evaluates on a snapshot that it fetches from
time to time (`ACLCache`).

Go iterates over its maps in any order. An `AList` is a map together with one such order, so a
statement about all `AList`s is a statement about all orders, and `ACLState.SameContent` relates
two states that differ in nothing else.

-/

namespace KeelGateway.Raft

open Acl

/-- `StandardRulesets`: the rule bundles shipped with the program, by name. -/
def standardRulesets (name : Text) : Option Role :=
  let publish (filter : String) : ACLRule := ⟨filter.toList, ["publish".toList], .allow⟩
  let subscribe (filter : String) : ACLRule := ⟨filter.toList, ["subscribe".toList], .allow⟩
  if name = "keel-device-default".toList then
    some ⟨name,
      [publish "telemetry/%c/#", publish "event/%c/#", publish "t", publish "t/#", publish "e",
        publish "e/#", publish "telemetry", publish "event", publish "status/heartbeat",
        publish "status/ota", publish "status/ca", subscribe "cmd/%c", subscribe "command/%c",
        subscribe "command/%c/#"]⟩
  else none

/-- The ACL part of the replicated state, and of a snapshot of it. -/
structure ACLState where
  roles : GoMap Text Role := ∅
  bindings : GoMap Text (List Text) := ∅
  enabledRulesets : List Text := []

namespace ACLState

variable (st : ACLState)

/-- The rules of a role, if there is a role of that name. -/
def rulesOf (roleName : Text) : List ACLRule :=
  match st.roles.lookup roleName with
  | some role => role.rules
  | none => []

/-- The custom rules of the roles bound to the client ID or to the username. -/
def customRules (clientID username : Text) : List ACLRule :=
  st.bindings.entries.flatMap fun ⟨principal, roleNames⟩ =>
    if principal ≠ clientID ∧ principal ≠ username then [] else roleNames.flatMap st.rulesOf

/-- `FSM.evaluateACL`. -/
def evaluateACL (clientID username topic : Text) (action : Action) : Decision :=
  evaluate clientID username topic action (st.enabledRulesets.filterMap standardRulesets)
    (st.customRules clientID username)

/-- Two states hold the same roles, bindings and enabled rulesets. A role that went through a
snapshot carries its map key as its name, so only the rules are compared. -/
structure SameContent (s t : ACLState) : Prop where
  rulesOf : ∀ name, s.rulesOf name = t.rulesOf name
  bindings : ∀ principal, s.bindings.lookup principal = t.bindings.lookup principal
  enabled : ∀ name, name ∈ s.enabledRulesets ↔ name ∈ t.enabledRulesets

variable {st}

theorem mem_customRules {clientID username : Text} {r : ACLRule} :
    r ∈ st.customRules clientID username ↔
      ∃ principal roleNames, st.bindings.lookup principal = some roleNames ∧
        (principal = clientID ∨ principal = username) ∧
          ∃ rn ∈ roleNames, r ∈ st.rulesOf rn := by
  simp only [customRules, List.mem_flatMap, Sigma.exists, AList.mem_lookup_iff.symm]
  constructor
  · rintro ⟨principal, roleNames, hlookup, hr⟩
    split_ifs at hr with hp
    · cases hr
    · obtain ⟨rn, hrn, hr⟩ := List.mem_flatMap.1 hr
      refine ⟨principal, roleNames, hlookup, ?_, rn, hrn, hr⟩
      by_contra hne
      exact hp (not_or.1 hne)
  · rintro ⟨principal, roleNames, hlookup, hp, rn, hrn, hr⟩
    refine ⟨principal, roleNames, hlookup, ?_⟩
    rw [if_neg (by tauto)]
    exact List.mem_flatMap.2 ⟨rn, hrn, hr⟩

/-- The same rules are in play. -/
private theorem SameContent.mem_rules {s t : ACLState} (h : s.SameContent t)
    (clientID username : Text) (r : ACLRule) :
    r ∈ (s.enabledRulesets.filterMap standardRulesets).flatMap Role.rules ++
        s.customRules clientID username ↔
      r ∈ (t.enabledRulesets.filterMap standardRulesets).flatMap Role.rules ++
        t.customRules clientID username := by
  simp only [List.mem_append, List.mem_flatMap, List.mem_filterMap, mem_customRules, h.enabled,
    h.bindings, h.rulesOf]

theorem SameContent.explicitDeny_iff {s t : ACLState} (h : s.SameContent t)
    (clientID username topic : Text) (action : Action) :
    (s.evaluateACL clientID username topic action).ExplicitDeny ↔
      (t.evaluateACL clientID username topic action).ExplicitDeny := by
  simp only [evaluateACL, evaluate_deny_iff, h.mem_rules]

theorem SameContent.evaluateACL_congr {s t : ACLState} (h : s.SameContent t)
    (clientID username topic : Text) (action : Action) :
    (s.evaluateACL clientID username topic action).effect =
        (t.evaluateACL clientID username topic action).effect ∧
      ((s.evaluateACL clientID username topic action).rule = none ↔
        (t.evaluateACL clientID username topic action).rule = none) :=
  evaluate_congr clientID username topic action (h.mem_rules clientID username)

end ACLState

/-! ### The cache of an edge node -/

/-- `ACLCache`: the last snapshot and whether there was one. -/
structure ACLCache where
  snapshot : ACLState := {}
  ready : Bool := false

namespace ACLCache

/-- `ACLCache.refresh` with the outcome of the fetch; `none` is a failed fetch. -/
def refresh (c : ACLCache) : Option ACLState → ACLCache
  | none => c
  | some snapshot => { c with snapshot := snapshot, ready := true }

/-- `ACLCache.EvaluateACL`: a deny without a rule before the first successful fetch. -/
def evaluateACL (c : ACLCache) (clientID username topic : Text) (action : Action) : Decision :=
  if !c.ready then ⟨.deny, none⟩ else c.snapshot.evaluateACL clientID username topic action

/-- Failed refreshes leave the cache as it was. -/
theorem run_failed (c : ACLCache) (n : ℕ) :
    StepMachine.run refresh c (List.replicate n none) = c := by
  induction n with
  | zero => rfl
  | succ n ih => exact ih

theorem run_fetched (history : List (Option ACLState)) (c : ACLCache) (snap : ACLState) (n : ℕ) :
    StepMachine.run refresh c (history ++ some snap :: List.replicate n none) = ⟨snap, true⟩ := by
  rw [StepMachine.run_append, StepMachine.run_cons, run_failed]
  rfl

end ACLCache

/-! ### The answer over RPC -/

/-- The response of a core node to an evaluation request. -/
structure EvaluateACLResponse where
  allowed : Bool
  matchedFilter : Text

/-- `RemoteRegistry.forEachPeer`: the first peer that answers. `none` in the list is a peer that
fails, and the result is an error when all of them do or when no peer is known. -/
def forEachPeer {α : Type} (peers : List (Option α)) : Option α := peers.findSome? id

/-- `RemoteRegistry.EvaluateACL` with the answers of the core peers in turn. The rule of the
decision only carries the matched filter. -/
def RemoteRegistry.evaluateACL (peers : List (Option EvaluateACLResponse)) : Decision :=
  match forEachPeer peers with
  | none => ⟨.deny, none⟩
  | some resp =>
    let effect : Effect := if resp.allowed then .allow else .deny
    if resp.matchedFilter ≠ [] then ⟨effect, some ⟨resp.matchedFilter, [], .unknown []⟩⟩
    else ⟨effect, none⟩

theorem RemoteRegistry.evaluateACL_failed (n : ℕ) :
    RemoteRegistry.evaluateACL (List.replicate n none) = ⟨.deny, none⟩ := by
  have hnone : forEachPeer (List.replicate n (none : Option EvaluateACLResponse)) = none := by
    rw [forEachPeer, List.findSome?_eq_none_iff]
    intro x hx
    exact (List.mem_replicate.1 hx).2
  rw [evaluateACL, hnone]

end KeelGateway.Raft
