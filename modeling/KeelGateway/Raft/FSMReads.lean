import Mathlib.Data.List.Perm.Basic
import KeelGateway.Raft.AclCache
import KeelGateway.Raft.FSM

/-!
# What the nodes read from the state machine

The registry of a core node answers from its copy of the replicated state: who owns a session, which
clients connected under a certificate, what an access rule says, which node has the Redis primary,
and whether a certificate is revoked. Several of these loop over a map, in an order that Go picks.

All of them only depend on the content of the state, up to the order of a list
(`SameReads.of_store`).

-/

namespace KeelGateway.Raft.FSM

open Acl Slices

section Reads

variable (f : FSM)

/-- `sessionOwner`. -/
def sessionOwner (clientID : Text) : Option Text := f.sessions.get clientID

/-- `clientIDsForIdentity`. -/
def clientIDsForIdentity (identity : Text) (order : List ℕ) : List Text :=
  (f.sessionIdentity.rows order).filterMap fun row => if row.2 = identity then some row.1 else none

/-- `currentRedisPrimary`: the node, and whether there is one. -/
def currentRedisPrimary : Text × Bool := (f.redisPrimary, f.redisPrimary ≠ [])

/-- `isRevoked`. -/
def isRevoked (identity : Text) : Bool := (f.revoked.get identity).isSome

/-- `rolesSnapshot`. -/
def rolesSnapshot (order : List ℕ) : GoMap Text Role := (f.roles.copied order).content

/-- `bindingsSnapshot`. -/
def bindingsSnapshot (order : List ℕ) : GoMap Text (List Text) :=
  (f.bindings.copied order).content.mapValues f.heap.read

/-- `enabledRulesetsSnapshot`: the names that are mapped to true. -/
def enabledRulesetsSnapshot (order : List ℕ) : List Text :=
  (f.enabledRulesets.rows order).filterMap fun row => if row.2 then some row.1 else none

/-- What an evaluation reads, with the orders of its loops over the rulesets and the bindings. A
ruleset counts as enabled if its name is in the map. -/
def aclState (order order' : List ℕ) : ACLState where
  roles := f.roles.content
  bindings := (f.bindings.content.arranged order').mapValues f.heap.read
  enabledRulesets := (f.enabledRulesets.rows order).map Sigma.fst

/-- `FSM.evaluateACL`. -/
def evaluateACL (order order' : List ℕ) (clientID username topic : Text) (action : Action) :
    Decision :=
  (f.aclState order order').evaluateACL clientID username topic action

end Reads

variable {f g : FSM}

/-! ### The reads in terms of the content -/

theorem mem_clientIDsForIdentity {identity : Text} {order : List ℕ} {clientID : Text} :
    clientID ∈ f.clientIDsForIdentity identity order ↔
      f.store.sessionIdentity clientID = some identity := by
  rw [clientIDsForIdentity, List.mem_filterMap]
  constructor
  · rintro ⟨⟨key, value⟩, hrow, hkeep⟩
    obtain ⟨rfl, rfl⟩ : value = identity ∧ key = clientID := by simpa using hkeep
    exact NilMap.mem_rows.1 hrow
  · intro hget
    exact ⟨⟨clientID, identity⟩, NilMap.mem_rows.2 hget, if_pos rfl⟩

theorem mem_enabledRulesetsSnapshot {order : List ℕ} {name : Text} :
    name ∈ f.enabledRulesetsSnapshot order ↔ f.store.enabledRulesets name = some true := by
  rw [enabledRulesetsSnapshot, List.mem_filterMap]
  constructor
  · rintro ⟨⟨key, value⟩, hrow, hkeep⟩
    obtain ⟨rfl, rfl⟩ : value = true ∧ key = name := by simpa using hkeep
    exact NilMap.mem_rows.1 hrow
  · intro hget
    exact ⟨⟨name, true⟩, NilMap.mem_rows.2 hget, if_pos rfl⟩

private theorem nodup_filterMap_rows {V : Type} {rows : List (Sigma fun _ : Text => V)}
    (hrows : rows.NodupKeys) (keep : V → Prop) [DecidablePred keep] :
    (rows.filterMap fun row => if keep row.2 then some row.1 else none).Nodup := by
  have hsublist : (rows.filterMap fun row => if keep row.2 then some row.1 else none).Sublist
      rows.keys := by
    induction rows with
    | nil => exact List.Sublist.slnil
    | cons row rows ih =>
      obtain ⟨-, hrest⟩ := List.nodupKeys_cons.1 hrows
      by_cases hkeep : keep row.2
      · simpa [hkeep] using (ih hrest).cons_cons row.1
      · simpa [hkeep] using (ih hrest).cons row.1
  exact hsublist.nodup hrows

theorem nodup_clientIDsForIdentity (identity : Text) (order : List ℕ) :
    (f.clientIDsForIdentity identity order).Nodup :=
  nodup_filterMap_rows (f.sessionIdentity.nodupKeys_rows order) (· = identity)

theorem nodup_enabledRulesetsSnapshot (order : List ℕ) :
    (f.enabledRulesetsSnapshot order).Nodup :=
  nodup_filterMap_rows (f.enabledRulesets.nodupKeys_rows order) (· = true)

theorem rulesOf_aclState (order order' : List ℕ) (roleName : Text) :
    (f.aclState order order').rulesOf roleName =
      ((f.store.roles roleName).map Role.rules).getD [] := by
  have hlookup : (f.aclState order order').roles.lookup roleName = f.store.roles roleName := rfl
  rw [ACLState.rulesOf, hlookup]
  cases f.store.roles roleName <;> rfl

theorem lookup_bindings_aclState (order order' : List ℕ) (principal : Text) :
    (f.aclState order order').bindings.lookup principal = f.store.bindings principal := by
  rw [aclState, GoMap.lookup_mapValues, GoMap.lookup_arranged]
  rfl

theorem mem_enabledRulesets_aclState {order order' : List ℕ} {name : Text} :
    name ∈ (f.aclState order order').enabledRulesets ↔
      ∃ value, f.store.enabledRulesets name = some value := by
  rw [aclState, List.mem_map]
  constructor
  · rintro ⟨⟨key, value⟩, hrow, rfl⟩
    exact ⟨value, NilMap.mem_rows.1 hrow⟩
  · rintro ⟨value, hget⟩
    exact ⟨⟨name, value⟩, NilMap.mem_rows.2 hget, rfl⟩

theorem mem_customRules_aclState {order order' : List ℕ} {clientID username : Text}
    {rule : ACLRule} :
    rule ∈ (f.aclState order order').customRules clientID username ↔
      ∃ principal roleName role, (principal = clientID ∨ principal = username) ∧
        roleName ∈ (f.store.bindings principal).getD [] ∧ f.store.roles roleName = some role ∧
          rule ∈ role.rules := by
  simp only [ACLState.mem_customRules, lookup_bindings_aclState, rulesOf_aclState]
  constructor
  · rintro ⟨principal, roleNames, hbindings, hprincipal, roleName, hroleName, hrule⟩
    cases hrole : f.store.roles roleName with
    | none => simp [hrole] at hrule
    | some role =>
      refine ⟨principal, roleName, role, hprincipal, ?_, hrole, ?_⟩
      · rwa [hbindings]
      · simpa [hrole] using hrule
  · rintro ⟨principal, roleName, role, hprincipal, hroleName, hrole, hrule⟩
    cases hbindings : f.store.bindings principal with
    | none => simp [hbindings] at hroleName
    | some roleNames =>
      refine ⟨principal, roleNames, hbindings, hprincipal, roleName, ?_, ?_⟩
      · simpa [hbindings] using hroleName
      · rwa [hrole]

theorem isRevoked_iff {identity : Text} :
    f.isRevoked identity = true ↔ f.store.revoked identity ≠ none :=
  Option.isSome_iff_ne_none

theorem lookup_rolesSnapshot (order : List ℕ) (roleName : Text) :
    (f.rolesSnapshot order).lookup roleName = f.store.roles roleName :=
  congrFun (NilMap.get_copied f.roles order) roleName

theorem lookup_bindingsSnapshot (order : List ℕ) (principal : Text) :
    (f.bindingsSnapshot order).lookup principal = f.store.bindings principal := by
  rw [bindingsSnapshot, GoMap.lookup_mapValues]
  exact congrArg (Option.map f.heap.read) (congrFun (NilMap.get_copied f.bindings order) principal)

theorem sameContent_aclState (h : f.store = g.store) (o₁ o₁' o₂ o₂' : List ℕ) :
    (f.aclState o₁ o₁').SameContent (g.aclState o₂ o₂') where
  rulesOf := fun roleName => by rw [rulesOf_aclState, rulesOf_aclState, h]
  bindings := fun principal => by rw [lookup_bindings_aclState, lookup_bindings_aclState, h]
  enabled := fun name => by rw [mem_enabledRulesets_aclState, mem_enabledRulesets_aclState, h]

/-! ### Equal answers -/

/-- Every read gives the same answer, a list possibly in another order and an evaluation possibly
with another rule as its explanation. -/
structure SameReads (f g : FSM) : Prop where
  sessionOwner : ∀ clientID, f.sessionOwner clientID = g.sessionOwner clientID
  clientIDs : ∀ identity order order',
    (f.clientIDsForIdentity identity order).Perm (g.clientIDsForIdentity identity order')
  effect : ∀ o₁ o₁' o₂ o₂' clientID username topic action,
    (f.evaluateACL o₁ o₁' clientID username topic action).effect =
      (g.evaluateACL o₂ o₂' clientID username topic action).effect
  enabled : ∀ order order',
    (f.enabledRulesetsSnapshot order).Perm (g.enabledRulesetsSnapshot order')
  redisPrimary : f.currentRedisPrimary = g.currentRedisPrimary
  revoked : ∀ identity, f.isRevoked identity = g.isRevoked identity

theorem SameReads.of_store (h : f.store = g.store) : SameReads f g where
  sessionOwner := fun clientID => congrFun (congrArg Store.sessions h) clientID
  clientIDs := fun identity order order' => by
    rw [List.perm_ext_iff_of_nodup (nodup_clientIDsForIdentity identity order)
      (nodup_clientIDsForIdentity identity order')]
    intro clientID
    rw [mem_clientIDsForIdentity, mem_clientIDsForIdentity, h]
  effect := fun o₁ o₁' o₂ o₂' clientID username topic action =>
    ((sameContent_aclState h o₁ o₁' o₂ o₂').evaluateACL_congr clientID username topic action).1
  enabled := fun order order' => by
    rw [List.perm_ext_iff_of_nodup (nodup_enabledRulesetsSnapshot order)
      (nodup_enabledRulesetsSnapshot order')]
    intro name
    rw [mem_enabledRulesetsSnapshot, mem_enabledRulesetsSnapshot, h]
  redisPrimary := by
    have hprimary : f.redisPrimary = g.redisPrimary := congrArg Store.redisPrimary h
    rw [currentRedisPrimary, currentRedisPrimary, hprimary]
  revoked := fun identity =>
    congrArg Option.isSome (congrFun (congrArg Store.revoked h) identity)

end KeelGateway.Raft.FSM
