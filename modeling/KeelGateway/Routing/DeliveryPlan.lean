import Mathlib.Data.Char
import Mathlib.Data.List.Lex
import Mathlib.Data.Prod.Lex
import Mathlib.Order.Bounds.Basic
import KeelGateway.Routing.Router

/-!
# Delivery plans

For a publish a node asks its routing cache three things: to which nodes the message goes and which
of them serves every shared filter, which nodes may own offline clients, and which offline clients
the node itself has to queue for. Every node answers from its own cache, so what one node leaves to
another is only served if the two caches lead to the same choice.

-/

namespace KeelGateway.Routing

open Acl Mochi

/-! ### Queries -/

/-- One round of the loop that chooses an owner: the least node, and the least client of it. -/
def betterOwner (choice : Option (Text × Text)) (ownerKey : Text) : Option (Text × Text) :=
  match sharedOwnerNode ownerKey with
  | none => choice
  | some (nodeID, clientID) =>
    match choice with
    | none => some (nodeID, clientID)
    | some (n, c) =>
      if nodeID < n ∨ (nodeID = n ∧ clientID < c) then some (nodeID, clientID) else some (n, c)

/-- The loop over the owner keys that match a topic. -/
def selectOwner (ownerKeys : List Text) : Option (Text × Text) := ownerKeys.foldl betterOwner none

namespace RouteTables

variable (r : RouteTables TopicsIndex)

/-- `LiveDeliveryPlan`: the nodes, and the node of every shared filter. -/
def liveDeliveryPlan (topic localNodeID : Text) : List Text × GoMap Text Text :=
  r.index.subscriberRoutingPlan topic localNodeID

/-- `offlineSharedSelectionsLocked`: the node and the client of every shared filter that matches and
has no live member. -/
def offlineSharedSelections (topic : Text) : GoMap Text (Text × Text) :=
  r.offlineShared.filterMap fun filter idx =>
    if filter ∈ (r.index.subscribers topic).shared then none
    else selectOwner (idx.subscribers topic).subscriptions.keys

/-- The owner keys among which the selection for a filter is made. -/
def matchedOwners (topic filter : Text) : List Text :=
  ((r.ownerIndex filter).subscribers topic).subscriptions.keys

/-- `OfflineNodesFor`. -/
def offlineNodesFor (topic : Text) : List Text :=
  ((r.index.subscribers (offlineRouteKey topic)).subscriptions.keys ++
    (r.offlineSharedSelections topic).entries.map fun row => row.2.1).dedup

/-- The clients whose ordinary filters match, by the ownership keys of the node. -/
def ordinaryCandidates (topic nodeID : Text) : List Text :=
  (r.topicsForNode nodeID).filterMap fun key =>
    (ownershipKeyParts key).bind fun (clientID, filter) =>
      if (sharedFilter filter).isSome then none
      else if matchTopic filter topic then some clientID
      else none

/-- `OfflineDeliveryCandidates`: the clients, and the client of every shared filter. -/
def offlineDeliveryCandidates (topic nodeID : Text) : List Text × GoMap Text Text :=
  let sharedSelected := (r.offlineSharedSelections topic).filterMap fun _ selected =>
    if selected.1 = nodeID then some selected.2 else none
  ((r.ordinaryCandidates topic nodeID ++ sharedSelected.entries.map Sigma.snd).dedup,
    sharedSelected)

/-- `fanOutPlan` of the broker hook, on the node `self`. -/
def fanOutPlan (self topic : Text) : List Text × GoMap Text Text :=
  let (live, sharedNodes) := r.liveDeliveryPlan topic self
  ((live ++ r.offlineNodesFor topic).dedup, sharedNodes)

/-- The nodes that `forwardClusterTargets` sends to. -/
def forwardTargets (self topic : Text) : List Text :=
  (r.fanOutPlan self topic).1.filter (· ≠ self)

end RouteTables

/-- `sharedFiltersForNode`. -/
def sharedFiltersForNode (selected : GoMap Text Text) (nodeID : Text) : List Text :=
  selected.entries.filterMap fun row => if row.2 = nodeID then some row.1 else none

theorem mem_sharedFiltersForNode {selected : GoMap Text Text} {nodeID filter : Text} :
    filter ∈ sharedFiltersForNode selected nodeID ↔ selected.lookup filter = some nodeID := by
  rw [← GoMap.mem_entries, sharedFiltersForNode, List.mem_filterMap]
  constructor
  · rintro ⟨⟨f, n⟩, hrow, hsome⟩
    split_ifs at hsome with hn
    cases hsome
    rwa [← hn]
  · intro hrow
    exact ⟨⟨filter, nodeID⟩, hrow, if_pos rfl⟩

/-! ### The choice of an owner -/

/-- The owners that the keys stand for, in the order in which they are compared. -/
def ownersOf (ownerKeys : List Text) : Set (Text ×ₗ Text) :=
  {o | ∃ k ∈ ownerKeys, sharedOwnerNode k = some (ofLex o)}

private theorem ownersOf_concat (ownerKeys : List Text) (k : Text) :
    ownersOf (ownerKeys ++ [k]) =
      ownersOf ownerKeys ∪ {o | sharedOwnerNode k = some (ofLex o)} := by
  ext o
  simp only [ownersOf, List.mem_append, List.mem_singleton, or_and_right, exists_or,
    exists_eq_left, Set.mem_ofPred_eq, Set.mem_union]

theorem selectOwner_spec (ownerKeys : List Text) :
    (selectOwner ownerKeys = none ∧ ownersOf ownerKeys = ∅) ∨
      ∃ o, selectOwner ownerKeys = some o ∧ IsLeast (ownersOf ownerKeys) (toLex o) := by
  induction ownerKeys using List.reverseRecOn with
  | nil => exact Or.inl ⟨rfl, by simp [ownersOf]⟩
  | append_singleton ownerKeys k ih =>
    have hfold : selectOwner (ownerKeys ++ [k]) = betterOwner (selectOwner ownerKeys) k := by
      simp [selectOwner]
    rw [hfold, ownersOf_concat, betterOwner]
    cases hk : sharedOwnerNode k with
    | none => simpa using ih
    | some new =>
      have hset : {o : Text ×ₗ Text | some new = some (ofLex o)} = {toLex new} := by
        ext o
        simp only [Option.some.injEq]
        exact ⟨fun h => h ▸ rfl, fun h => h ▸ rfl⟩
      rw [hset]
      right
      rcases ih with ⟨hnone, hempty⟩ | ⟨o, hsome, hleast⟩
      · rw [hnone, hempty, Set.empty_union]
        exact ⟨new, rfl, isLeast_singleton⟩
      · rw [hsome]
        have hless : (new.1 < o.1 ∨ new.1 = o.1 ∧ new.2 < o.2) ↔ toLex new < toLex o :=
          Prod.Lex.toLex_lt_toLex.symm
        have hmin := hleast.union (isLeast_singleton (a := toLex new))
        simp only [hless]
        split_ifs with hlt
        · exact ⟨new, rfl, by rwa [min_eq_right hlt.le] at hmin⟩
        · exact ⟨o, rfl, by rwa [min_eq_left (not_lt.1 hlt)] at hmin⟩

theorem selectOwner_congr {ks ks' : List Text} (h : ∀ k, k ∈ ks ↔ k ∈ ks') :
    selectOwner ks = selectOwner ks' := by
  have hset : ownersOf ks = ownersOf ks' := by
    simp only [ownersOf, h]
  rcases selectOwner_spec ks with ⟨hs, hempty⟩ | ⟨o, hs, hleast⟩ <;>
    rcases selectOwner_spec ks' with ⟨hs', hempty'⟩ | ⟨o', hs', hleast'⟩
  · rw [hs, hs']
  · rw [← hset, hempty] at hleast'
    exact absurd hleast'.1 (Set.notMem_empty _)
  · rw [hset, hempty'] at hleast
    exact absurd hleast.1 (Set.notMem_empty _)
  · rw [← hset] at hleast'
    rw [hs, hs', toLex.injective (hleast.unique hleast')]

/-! ### Answers of a cache that is in order -/

namespace RouteTables

variable {r : RouteTables TopicsIndex} {topic self nodeID : Text}

theorem mem_forwardTargets :
    nodeID ∈ r.forwardTargets self topic ↔
      nodeID ≠ self ∧ (nodeID ∈ (r.liveDeliveryPlan topic self).1 ∨
        nodeID ∈ r.offlineNodesFor topic) := by
  simp [forwardTargets, fanOutPlan, and_comm]

/-- An empty index finds nobody. -/
theorem keys_subscribers_empty (topic : Text) :
    ((SubscriberIndex.empty : TopicsIndex).subscribers topic).subscriptions.keys = [] := by
  refine List.eq_nil_iff_forall_not_mem.2 fun k hk => ?_
  rw [← AList.mem_keys, TopicsIndex.mem_subscriptions_subscribers] at hk
  simp [TopicsIndex.ordinaryEntries, SubscriberIndex.empty, TopicsIndex.empty] at hk

theorem lookup_offlineSharedSelections (filter : Text) :
    (r.offlineSharedSelections topic).lookup filter =
      if filter ∈ (r.index.subscribers topic).shared then none
      else selectOwner (r.matchedOwners topic filter) := by
  rw [offlineSharedSelections, GoMap.lookup_filterMap, matchedOwners, ownerIndex]
  cases r.offlineShared.lookup filter with
  | none =>
    rw [Option.getD_none, keys_subscribers_empty]
    split_ifs <;> rfl
  | some idx => rfl

theorem lookup_offlineDeliveryCandidates {filter clientID : Text} :
    (r.offlineDeliveryCandidates topic nodeID).2.lookup filter = some clientID ↔
      (r.offlineSharedSelections topic).lookup filter = some (nodeID, clientID) := by
  simp only [offlineDeliveryCandidates, GoMap.lookup_filterMap, Option.bind_eq_some_iff,
    Option.ite_none_right_eq_some, Option.some.injEq, Prod.exists]
  constructor
  · rintro ⟨n, c, hselected, rfl, rfl⟩
    exact hselected
  · intro hselected
    exact ⟨nodeID, clientID, hselected, rfl, rfl⟩

theorem mem_offlineDeliveryCandidates {clientID : Text} :
    clientID ∈ (r.offlineDeliveryCandidates topic nodeID).1 ↔
      (∃ key filter, r.HasRoute key nodeID ∧ ownershipKeyParts key = some (clientID, filter) ∧
        sharedFilter filter = none ∧ matchTopic filter topic = true) ∨
      ∃ filter, (r.offlineDeliveryCandidates topic nodeID).2.lookup filter = some clientID := by
  have hordinary : clientID ∈ r.ordinaryCandidates topic nodeID ↔
      ∃ key filter, r.HasRoute key nodeID ∧ ownershipKeyParts key = some (clientID, filter) ∧
        sharedFilter filter = none ∧ matchTopic filter topic = true := by
    simp only [ordinaryCandidates, List.mem_filterMap, Option.bind_eq_some_iff,
      Prod.exists]
    constructor
    · rintro ⟨key, hroute, c, filter, hparts, hsome⟩
      split_ifs at hsome with hshared hmatch
      cases hsome
      exact ⟨key, filter, hroute, hparts, by simpa using hshared, hmatch⟩
    · rintro ⟨key, filter, hroute, hparts, hshared, hmatch⟩
      exact ⟨key, hroute, clientID, filter, hparts, by simp [hshared, hmatch]⟩
  have hselected : clientID ∈
      (r.offlineDeliveryCandidates topic nodeID).2.entries.map Sigma.snd ↔
        ∃ filter, (r.offlineDeliveryCandidates topic nodeID).2.lookup filter = some clientID := by
    simp only [List.mem_map, Sigma.exists, ← GoMap.mem_entries]
    constructor
    · rintro ⟨filter, c, hrow, rfl⟩
      exact ⟨filter, hrow⟩
    · rintro ⟨filter, hrow⟩
      exact ⟨filter, clientID, hrow, rfl⟩
  rw [← hordinary, ← hselected]
  exact List.mem_dedup.trans List.mem_append

end RouteTables

namespace Router

variable (r : Router) {topic : Text}

theorem mem_ordinary_iff (ht : topic ≠ []) (nodeID : Text) :
    (∃ sub, (nodeID, sub) ∈ r.index.ordinaryEntries topic) ↔
      ∃ filter, isSharedFilter filter = false ∧ r.HasRoute filter nodeID ∧
        IndexMatch filter topic := by
  rw [TopicsIndex.exists_mem_ordinaryEntries ht]
  constructor
  · rintro ⟨filter, hmem, hmatch⟩
    obtain ⟨filter', hplain, hlevels, hroute⟩ := (r.ok.ordinary _ _).1 hmem
    obtain rfl := levels_injective hlevels
    exact ⟨filter, hplain, hroute, hmatch⟩
  · rintro ⟨filter, hplain, hroute, hmatch⟩
    exact ⟨filter, (r.ok.ordinary _ _).2 ⟨filter, hplain, rfl, hroute⟩, hmatch⟩

variable {filter : Text}

theorem mem_matchedOwners (ht : topic ≠ []) {group underlying : Text}
    (hshared : sharedFilter filter = some (group, underlying)) (ownerKey : Text) :
    ownerKey ∈ r.matchedOwners topic filter ↔
      (isSharedFilter underlying = false ∧ IndexMatch underlying topic) ∧
        r.offlineSharedOwners.Holds filter ownerKey := by
  have hok := r.ok.ownerIndex hshared
  rw [RouteTables.matchedOwners, ← AList.mem_keys, TopicsIndex.mem_subscriptions_subscribers,
    TopicsIndex.exists_mem_ordinaryEntries ht]
  constructor
  · rintro ⟨filter', hmem, hmatch⟩
    obtain ⟨hplain, hlevels, hholds⟩ := (hok _ _).1 hmem
    rw [levels_injective hlevels] at hmatch
    exact ⟨⟨hplain, hmatch⟩, hholds⟩
  · rintro ⟨⟨hplain, hmatch⟩, hholds⟩
    exact ⟨underlying, (hok _ _).2 ⟨hplain, rfl, hholds⟩, hmatch⟩

theorem matchedOwners_eq_nil (ht : topic ≠ [])
    (hnone : ∀ ownerKey, ¬ r.offlineSharedOwners.Holds filter ownerKey) :
    r.matchedOwners topic filter = [] := by
  cases hidx : r.offlineShared.lookup filter with
  | none =>
    rw [RouteTables.matchedOwners, RouteTables.ownerIndex, hidx]
    exact RouteTables.keys_subscribers_empty topic
  | some idx =>
    obtain ⟨group, underlying, hshared, -⟩ := r.ok.offline filter idx hidx
    refine List.eq_nil_iff_forall_not_mem.2 fun k hk => ?_
    exact hnone k ((r.mem_matchedOwners ht hshared k).1 hk).2

theorem selectOwner_matchedOwners_congr {r' : Router} (ht : topic ≠ [])
    (howners : ∀ ownerKey, r.offlineSharedOwners.Holds filter ownerKey ↔
      r'.offlineSharedOwners.Holds filter ownerKey) :
    selectOwner (r.matchedOwners topic filter) = selectOwner (r'.matchedOwners topic filter) := by
  by_cases hnone : ∀ ownerKey, ¬ r.offlineSharedOwners.Holds filter ownerKey
  · rw [r.matchedOwners_eq_nil ht hnone,
      r'.matchedOwners_eq_nil ht fun k hk => hnone k ((howners k).2 hk)]
  · obtain ⟨k, hk⟩ := not_forall_not.1 hnone
    obtain ⟨key, nodeID, underlying, clientID, -, howner, -⟩ := r.ok.owner filter k hk
    obtain ⟨-, group, hshared⟩ := RouteTables.sharedOwnership_eq_some.1 howner
    refine selectOwner_congr fun k => ?_
    rw [r.mem_matchedOwners ht hshared, r'.mem_matchedOwners ht hshared, howners]

theorem exists_hasRoute_of_shared (h : filter ∈ (r.index.subscribers topic).shared) :
    isSharedFilter filter = true ∧ ∃ nodeID, r.HasRoute filter nodeID := by
  obtain ⟨⟨nodeID, sub⟩, hsub, rfl⟩ := (TopicsIndex.mem_shared_subscribers filter).1 h
  have ht : topic ≠ [] := by
    rintro rfl
    cases hsub
  have hlookup := ((TopicsIndex.mem_sharedEntries ht).1 hsub).1
  exact ⟨(r.index.shared_path _ _ _ _ hlookup).1, nodeID, r.ok.shared _ _ _ _ hlookup⟩

theorem mem_offlineNodesFor (topic nodeID : Text) :
    nodeID ∈ r.offlineNodesFor topic ↔
      (∃ filter, isSharedFilter filter = false ∧ r.HasRoute filter nodeID ∧
        IndexMatch filter (offlineRouteKey topic)) ∨
      ∃ filter clientID,
        (r.offlineSharedSelections topic).lookup filter = some (nodeID, clientID) := by
  have hkey : offlineRouteKey topic ≠ [] := by
    unfold offlineRouteKey offlineRoutePrefix
    simp
  simp only [RouteTables.offlineNodesFor, List.mem_dedup, List.mem_append, ← AList.mem_keys,
    TopicsIndex.mem_subscriptions_subscribers, r.mem_ordinary_iff hkey, List.mem_map, Sigma.exists,
    ← GoMap.mem_entries]
  refine or_congr_right ⟨?_, ?_⟩
  · rintro ⟨filter, ⟨n, c⟩, hrow, rfl⟩
    exact ⟨filter, c, hrow⟩
  · rintro ⟨filter, c, hrow⟩
    exact ⟨filter, (nodeID, c), hrow, rfl⟩

end Router

/-! ### Caches without shared subscriptions -/

/-- No route is shared, and no ownership key names a shared filter. -/
def RouteTables.Plain (r : RouteTables TopicsIndex) : Prop :=
  ∀ filter nodeID, r.HasRoute filter nodeID →
    isSharedFilter filter = false ∧ RouteTables.sharedOwnership filter = none

namespace Router

variable {r : Router} {topic : Text}

private theorem sharedEntries_eq_nil (h : r.Plain) (ht : topic ≠ []) :
    r.index.sharedEntries topic = [] := by
  refine List.eq_nil_iff_forall_not_mem.2 fun ⟨nodeID, sub⟩ hsub => ?_
  obtain ⟨hlookup, -⟩ := (TopicsIndex.mem_sharedEntries ht).1 hsub
  have hshared := (r.index.shared_path _ _ _ _ hlookup).1
  rw [(h _ _ (r.ok.shared _ _ _ _ hlookup)).1] at hshared
  cases hshared

variable {nodeID : Text}

theorem mem_liveDeliveryPlan (h : r.Plain) (ht : topic ≠ []) {self : Text} :
    nodeID ∈ (r.liveDeliveryPlan topic self).1 ↔
      ∃ filter, r.HasRoute filter nodeID ∧ IndexMatch filter topic := by
  have hchoices : r.index.sharedChoices topic self = ∅ := by
    rw [TopicsIndex.sharedChoices, sharedEntries_eq_nil h ht]
    rfl
  have hplan : nodeID ∈ (r.liveDeliveryPlan topic self).1 ↔
      ∃ sub, (nodeID, sub) ∈ r.index.ordinaryEntries topic := by
    rw [RouteTables.liveDeliveryPlan, TopicsIndex.mem_nodes_subscriberRoutingPlan, hchoices]
    simp
  rw [hplan, r.mem_ordinary_iff ht]
  constructor
  · rintro ⟨filter, -, hroute, hmatch⟩
    exact ⟨filter, hroute, hmatch⟩
  · rintro ⟨filter, hroute, hmatch⟩
    exact ⟨filter, (h filter nodeID hroute).1, hroute, hmatch⟩

theorem lookup_offlineSharedSelections_eq_none (h : r.Plain) (ht : topic ≠ []) (filter : Text) :
    (r.offlineSharedSelections topic).lookup filter = none := by
  have hnone (ownerKey : Text) : ¬ r.offlineSharedOwners.Holds filter ownerKey := by
    intro hholds
    obtain ⟨key, nodeID, underlying, clientID, hroute, howner, -⟩ := r.ok.owner _ _ hholds
    rw [(h key nodeID hroute).2] at howner
    cases howner
  rw [RouteTables.lookup_offlineSharedSelections]
  split_ifs
  · rfl
  · rw [r.matchedOwners_eq_nil ht hnone]
    rfl

private theorem lookup_sharedSelected_eq_none (h : r.Plain) (ht : topic ≠ [])
    (nodeID filter : Text) :
    (r.offlineDeliveryCandidates topic nodeID).2.lookup filter = none := by
  refine Option.eq_none_iff_forall_ne_some.2 fun clientID hselected => ?_
  rw [RouteTables.lookup_offlineDeliveryCandidates,
    lookup_offlineSharedSelections_eq_none h ht] at hselected
  cases hselected

theorem mem_forwardTargets_of_plain (h : r.Plain) (ht : topic ≠ []) {self : Text} :
    nodeID ∈ r.forwardTargets self topic ↔
      nodeID ≠ self ∧ ∃ filter, r.HasRoute filter nodeID ∧
        (IndexMatch filter topic ∨ IndexMatch filter (offlineRouteKey topic)) := by
  rw [RouteTables.mem_forwardTargets, mem_liveDeliveryPlan h ht, r.mem_offlineNodesFor]
  simp only [lookup_offlineSharedSelections_eq_none h ht, reduceCtorEq, exists_false, or_false]
  refine and_congr_right fun _ => ?_
  constructor
  · rintro (⟨filter, hroute, hmatch⟩ | ⟨filter, -, hroute, hmatch⟩)
    · exact ⟨filter, hroute, Or.inl hmatch⟩
    · exact ⟨filter, hroute, Or.inr hmatch⟩
  · rintro ⟨filter, hroute, hmatch | hmatch⟩
    · exact Or.inl ⟨filter, hroute, hmatch⟩
    · exact Or.inr ⟨filter, (h filter nodeID hroute).1, hroute, hmatch⟩

theorem mem_offlineDeliveryCandidates_of_plain (h : r.Plain) (ht : topic ≠ []) {clientID : Text} :
    clientID ∈ (r.offlineDeliveryCandidates topic nodeID).1 ↔
      ∃ key filter, r.HasRoute key nodeID ∧ ownershipKeyParts key = some (clientID, filter) ∧
        matchTopic filter topic = true := by
  simp only [RouteTables.mem_offlineDeliveryCandidates, lookup_sharedSelected_eq_none h ht,
    reduceCtorEq, exists_false, or_false]
  constructor
  · rintro ⟨key, filter, hroute, hparts, -, hmatch⟩
    exact ⟨key, filter, hroute, hparts, hmatch⟩
  · rintro ⟨key, filter, hroute, hparts, hmatch⟩
    have hplain := (h key nodeID hroute).2
    rw [RouteTables.sharedOwnership, hparts] at hplain
    exact ⟨key, filter, hroute, hparts, by simpa using hplain, hmatch⟩

end Router

end KeelGateway.Routing
