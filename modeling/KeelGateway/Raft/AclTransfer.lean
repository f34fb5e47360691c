import KeelGateway.Raft.CommandHistory

/-!
# The access rules on their way to an edge node

An edge node decides on a copy of the access rules. A core node takes snapshots of its roles,
bindings and enabled rulesets and sends them as lists of entries; the edge node rebuilds its maps
from the lists and evaluates on those. Every loop on the way runs over a map in an order that Go
picks, and the two sides gather the rules in different orders.

A core node counts a ruleset as enabled when its name is in the map, while a snapshot only names
those that are mapped to true. No log maps a name to false, so the two agree.

-/

namespace KeelGateway.Raft

open Acl FSM

/-! ### The messages -/

/-- `pb.ACLRule`. The effect of a rule is a string on both sides. -/
structure PbACLRule where
  topicFilter : Text
  actions : List Text
  effect : Effect

/-- `pb.RoleEntry`. -/
structure RoleEntry where
  name : Text
  rules : List PbACLRule

/-- `pb.BindingEntry`. -/
structure BindingEntry where
  principal : Text
  roleNames : List Text

/-- `pb.ACLSnapshotResponse`. -/
structure ACLSnapshotResponse where
  roles : List RoleEntry
  bindings : List BindingEntry
  enabledRulesets : List Text

/-- The orders of the loops on a core node: those that copy the maps, and those over the copies. -/
structure ResponseOrders where
  rolesCopy : List ℕ := []
  roles : List ℕ := []
  bindingsCopy : List ℕ := []
  bindings : List ℕ := []
  enabledRulesets : List ℕ := []

/-- `RPCServer.ACLSnapshot`. -/
def RPCServer.aclSnapshot (f : FSM) (order : ResponseOrders) : ACLSnapshotResponse where
  roles := ((f.rolesSnapshot order.rolesCopy).arranged order.roles).entries.map fun row =>
    ⟨row.1, row.2.rules.map fun ru => ⟨ru.topicFilter, ru.actions, ru.effect⟩⟩
  bindings := ((f.bindingsSnapshot order.bindingsCopy).arranged order.bindings).entries.map
    fun row =>
    ⟨row.1, row.2⟩
  enabledRulesets := f.enabledRulesetsSnapshot order.enabledRulesets

/-- The maps that an edge node rebuilds from a response. -/
def ACLSnapshotResponse.rebuild (resp : ACLSnapshotResponse) : ACLState where
  roles := resp.roles.foldl (fun roles re => roles.insert re.name
    ⟨re.name, re.rules.map fun ru => ⟨ru.topicFilter, ru.actions, ru.effect⟩⟩) ∅
  bindings := resp.bindings.foldl (fun bindings be => bindings.insert be.principal be.roleNames) ∅
  enabledRulesets := resp.enabledRulesets

/-- `RemoteRegistry.ACLSnapshot`, with the answers of the core peers in turn. -/
def RemoteRegistry.aclSnapshot (peers : List (Option ACLSnapshotResponse)) : Option ACLState :=
  (forEachPeer peers).map ACLSnapshotResponse.rebuild

/-- `ACLCache.EvaluateACL` with the order of its loop over the bindings. -/
def ACLCache.evaluateIn (c : ACLCache) (order : List ℕ) (clientID username topic : Text)
    (action : Action) : Decision :=
  { c with snapshot := { c.snapshot with bindings := c.snapshot.bindings.arranged order }
    }.evaluateACL
    clientID username topic action

/-! ### Nothing is lost -/

section Rebuild

variable (f : FSM) (order : ResponseOrders)

private theorem rulesOf_rebuild (name : Text) :
    (RPCServer.aclSnapshot f order).rebuild.rulesOf name =
      ((f.store.roles name).map Role.rules).getD [] := by
  have hlookup : (RPCServer.aclSnapshot f order).rebuild.roles.lookup name =
      (f.store.roles name).map fun role => ⟨name, role.rules⟩ := by
    simp only [ACLSnapshotResponse.rebuild, RPCServer.aclSnapshot, List.foldl_map, List.map_map,
      Function.comp_def, List.map_id']
    rw [GoMap.lookup_foldl_insert_map (fun name (role : Role) => (⟨name, role.rules⟩ : Role)),
      GoMap.lookup_arranged, lookup_rolesSnapshot]
  rw [ACLState.rulesOf, hlookup]
  cases f.store.roles name <;> rfl

private theorem lookup_bindings_rebuild (principal : Text) :
    (RPCServer.aclSnapshot f order).rebuild.bindings.lookup principal =
      f.store.bindings principal := by
  simp only [ACLSnapshotResponse.rebuild, RPCServer.aclSnapshot, List.foldl_map]
  rw [GoMap.lookup_foldl_insert_map (fun _ (roleNames : List Text) => roleNames),
    GoMap.lookup_arranged, lookup_bindingsSnapshot, Option.map_id']

theorem sameContent_rebuild (hf : f.store.Tidy) (order' order₁ order₂ : List ℕ) :
    ({ (RPCServer.aclSnapshot f order).rebuild with
        bindings := (RPCServer.aclSnapshot f order).rebuild.bindings.arranged order' } :
      ACLState).SameContent (f.aclState order₁ order₂) where
  rulesOf := fun name => by
    rw [rulesOf_aclState]
    exact rulesOf_rebuild f order name
  bindings := fun principal => by
    rw [lookup_bindings_aclState, ← lookup_bindings_rebuild f order principal]
    exact GoMap.lookup_arranged order' _ principal
  enabled := fun name => by
    rw [mem_enabledRulesets_aclState]
    refine mem_enabledRulesetsSnapshot.trans ⟨fun h => ⟨true, h⟩, ?_⟩
    rintro ⟨value, hvalue⟩
    cases value with
    | true => exact hvalue
    | false => exact absurd hvalue (hf.enabledRulesets name)

end Rebuild

theorem forEachPeer_skip {α : Type} (failed : ℕ) (answer : α) (others : List (Option α)) :
    forEachPeer (List.replicate failed none ++ some answer :: others) = some answer := by
  induction failed with
  | zero => rfl
  | succ failed ih => exact ih

/-- An edge node that has refreshed its copy from a core node decides as that core node does, after
any log and whatever the orders of the loops on both nodes: it reaches the same effect, and has no
rule to show for it exactly if the core node has none. -/
theorem ACLCache.evaluateIn_refresh (es : List (FSM.Command × Env)) (c : ACLCache)
    (order : ResponseOrders) (order' order₁ order₂ : List ℕ) (failed : ℕ)
    (others : List (Option ACLSnapshotResponse)) (clientID username topic : Text)
    (action : Action) :
    ∃ f results, newFSM.execCommands es = some (f, results) ∧
      let edge := (c.refresh (RemoteRegistry.aclSnapshot
        (List.replicate failed none ++ some (RPCServer.aclSnapshot f order) :: others))).evaluateIn
          order' clientID username topic action
      let core := f.evaluateACL order₁ order₂ clientID username topic action
      edge.effect = core.effect ∧ (edge.rule = none ↔ core.rule = none) := by
  obtain ⟨f, hexec, hf⟩ := exists_exec_newFSM es
  have htidy : f.store.Tidy := hf.store ▸ Store.tidy_ofLog (es.map timed)
  have hpeers : RemoteRegistry.aclSnapshot
      (List.replicate failed none ++ some (RPCServer.aclSnapshot f order) :: others) =
        some (RPCServer.aclSnapshot f order).rebuild := by
    rw [RemoteRegistry.aclSnapshot, forEachPeer_skip, Option.map_some]
  refine ⟨f, _, hexec, ?_⟩
  rw [hpeers]
  exact (sameContent_rebuild f order htidy order' order₁ order₂).evaluateACL_congr clientID username
    topic action

end KeelGateway.Raft
