import Mathlib.Data.Finset.Basic
import KeelGateway.Routing.Store

/-!
# The incremental cache against a rebuilt one

The cache of a node is rebuilt from a scan of the store now and then, and follows the events of the
other nodes in between. Here the topics index is an exact finite map from pairs of a filter and a
subscriber, and the two ways to get a cache are compared: the events applied to an empty cache, and
a rebuild from the keys that the same events leave in the store.

The offline owner of a shared filter is read off the text of an ownership key. The encoding of that
text is not unique: the decoder passes over line breaks and over the bits after the last whole byte.
So a node may have two routes that stand for one owner, and a removal of one of them takes the owner
away although the other one is left. This is the only way in which the two caches get apart.

-/

namespace KeelGateway.Routing

open Acl Mochi StepMachine

/-! ### Indexes -/

/-- An index that is an exact finite map from pairs of a filter and a subscriber. -/
class ExactIndex (I : Type) extends SubscriberIndex I where
  pairs : I → Finset (Text × Text)
  pairs_empty : pairs empty = ∅
  pairs_subscribe : ∀ idx subscriber filter,
    pairs (subscribe idx subscriber filter) = insert (filter, subscriber) (pairs idx)
  pairs_unsubscribe : ∀ idx filter subscriber,
    pairs (unsubscribe idx filter subscriber) = (pairs idx).erase (filter, subscriber)

attribute [simp] ExactIndex.pairs_empty ExactIndex.pairs_subscribe ExactIndex.pairs_unsubscribe

/-- The pairs themselves. -/
instance : ExactIndex (Finset (Text × Text)) where
  empty := ∅
  subscribe idx subscriber filter := insert (filter, subscriber) idx
  unsubscribe idx filter subscriber := idx.erase (filter, subscriber)
  pairs idx := idx
  pairs_empty := rfl
  pairs_subscribe _ _ _ := rfl
  pairs_unsubscribe _ _ _ := rfl

/-! ### Routes -/

namespace RouteEvent

/-- The node whose routes the event is about. -/
def nodeID : RouteEvent → Text
  | subscribe _ nodeID | unsubscribe _ nodeID | unsubscribeBatch _ nodeID | purgeNode nodeID =>
    nodeID

/-- The event registers the route. -/
def Adds (topic node : Text) : RouteEvent → Prop
  | subscribe t n => topic = t ∧ node = n
  | _ => False

/-- The event removes the route, if it is there. -/
def Removes (topic node : Text) : RouteEvent → Prop
  | subscribe _ _ => False
  | unsubscribe t n => topic = t ∧ node = n
  | unsubscribeBatch ts n => topic ∈ ts ∧ node = n
  | purgeNode n => node = n

end RouteEvent

namespace RouteTables

section Routes

variable {I : Type} [SubscriberIndex I] {r : RouteTables I} {topic nodeID filter n : Text}

theorem byNode_addOfflineSharedOwnership :
    (r.addOfflineSharedOwnership topic nodeID).byNode = r.byNode := by
  unfold addOfflineSharedOwnership
  split
  · rfl
  · dsimp only
    split_ifs <;> rfl

private theorem byNode_removeOfflineSharedOwnership :
    (r.removeOfflineSharedOwnership topic nodeID).byNode = r.byNode := by
  unfold removeOfflineSharedOwnership
  split
  · rfl
  · split <;> rfl

theorem hasRoute_addLocal : (r.addLocal topic nodeID).HasRoute filter n ↔
    r.HasRoute filter n ∨ (filter = topic ∧ n = nodeID) := by
  rw [HasRoute, addLocal, byNode_addOfflineSharedOwnership]
  exact hasRoute_register

theorem hasRoute_removeLocal : (r.removeLocal topic nodeID).HasRoute filter n ↔
    r.HasRoute filter n ∧ ¬ (filter = topic ∧ n = nodeID) := by
  rw [HasRoute, removeLocal, byNode_removeOfflineSharedOwnership]
  exact hasRoute_deregister

theorem hasRoute_removeAll (topics : List Text) :
    (r.removeAll topics nodeID).HasRoute filter n ↔
      r.HasRoute filter n ∧ ∀ topic ∈ topics, ¬ (filter = topic ∧ n = nodeID) := by
  have hstep : ∀ topic ∈ topics, ∀ r : RouteTables I,
      (r.removeLocal topic nodeID).HasRoute filter n ↔
        r.HasRoute filter n ∧ ¬ (filter = topic ∧ n = nodeID) := fun _ _ _ => hasRoute_removeLocal
  exact run_iff_forall (P := fun r : RouteTables I => r.HasRoute filter n) hstep r

/-- The routes after an event. -/
theorem hasRoute_applyEvent (r : RouteTables I) (e : RouteEvent) (filter n : Text) :
    (r.applyEvent e).HasRoute filter n ↔
      e.Adds filter n ∨ (r.HasRoute filter n ∧ ¬ e.Removes filter n) := by
  cases e with
  | subscribe topic nodeID =>
    refine hasRoute_addLocal.trans ?_
    simp only [RouteEvent.Removes, not_false_iff, and_true]
    exact or_comm
  | unsubscribe topic nodeID =>
    refine hasRoute_removeLocal.trans ?_
    simp [RouteEvent.Adds, RouteEvent.Removes]
  | unsubscribeBatch topics nodeID =>
    refine (hasRoute_removeAll topics).trans ?_
    simp only [RouteEvent.Adds, false_or]
    exact and_congr_right fun _ => ⟨fun h hr => h _ hr.1 ⟨rfl, hr.2⟩,
      fun h t ht heq => h ⟨heq.1 ▸ ht, heq.2⟩⟩
  | purgeNode nodeID =>
    refine (hasRoute_removeAll _).trans ?_
    simp only [RouteEvent.Adds, false_or]
    refine and_congr_right fun hroute => ⟨fun h hn => ?_, fun h t _ heq => h heq.2⟩
    subst hn
    exact h filter (mem_topicsForNode.2 hroute) ⟨rfl, rfl⟩

end Routes

/-! ### Owners -/

/-- The route stands for the owner of a shared filter. -/
def OwnerOf (topic nodeID filter ownerKey : Text) : Prop :=
  ∃ underlying clientID, sharedOwnership topic = some (filter, underlying, clientID) ∧
    ownerKey = sharedOwnerKey nodeID clientID

theorem ownerOf_iff {topic nodeID filter underlying clientID f k : Text}
    (howner : sharedOwnership topic = some (filter, underlying, clientID)) :
    OwnerOf topic nodeID f k ↔ f = filter ∧ k = sharedOwnerKey nodeID clientID := by
  unfold OwnerOf
  rw [howner]
  constructor
  · rintro ⟨u, c, hsome, rfl⟩
    cases hsome
    exact ⟨rfl, rfl⟩
  · rintro ⟨rfl, rfl⟩
    exact ⟨underlying, clientID, rfl, rfl⟩

theorem not_ownerOf {topic nodeID f k : Text} (hnone : sharedOwnership topic = none) :
    ¬ OwnerOf topic nodeID f k := by
  rintro ⟨u, c, hsome, -⟩
  rw [hnone] at hsome
  cases hsome

theorem OwnerOf.unique {topic nodeID topic' nodeID' filter ownerKey : Text}
    (h : OwnerOf topic nodeID filter ownerKey) (h' : OwnerOf topic' nodeID' filter ownerKey) :
    nodeID = nodeID' ∧ sharedOwnership topic = sharedOwnership topic' := by
  obtain ⟨u, c, howner, hkey⟩ := h
  obtain ⟨u', c', howner', hkey'⟩ := h'
  obtain ⟨hparts, g, hshared⟩ := sharedOwnership_eq_some.1 howner
  obtain ⟨hparts', g', hshared'⟩ := sharedOwnership_eq_some.1 howner'
  have heq : routeKey nodeID c = routeKey nodeID' c' := hkey.symm.trans hkey'
  have hroute := parseRouteKey_routeKey (notMem_of_ownershipKeyParts hparts) nodeID
  rw [heq, parseRouteKey_routeKey (notMem_of_ownershipKeyParts hparts'), Option.some.injEq,
    Prod.mk.injEq] at hroute
  rw [hshared', Option.some.injEq, Prod.mk.injEq] at hshared
  rw [howner, howner', hroute.1, hroute.2, hshared.2]
  exact ⟨rfl, rfl⟩

section Kept

variable {I : Type} [ExactIndex I]

open ExactIndex (pairs)

/-- What the maps have to do with each other. -/
structure Kept (r : RouteTables I) : Prop where
  index : ∀ filter nodeID, (filter, nodeID) ∈ pairs r.index ↔ r.HasRoute filter nodeID
  byNode : r.byNode.NoEmptySet
  owners : r.offlineSharedOwners.NoEmptySet
  indexed : ∀ filter, filter ∈ r.offlineShared ↔ filter ∈ r.offlineSharedOwners
  offline : ∀ filter idx, r.offlineShared.lookup filter = some idx →
    ∃ group underlying, sharedFilter filter = some (group, underlying) ∧
      ∀ f ownerKey, (f, ownerKey) ∈ pairs idx ↔
        f = underlying ∧ r.offlineSharedOwners.Holds filter ownerKey

/-- The owners are those that the routes stand for. -/
def OwnersOfRoutes (r : RouteTables I) : Prop :=
  ∀ filter ownerKey, r.offlineSharedOwners.Holds filter ownerKey ↔
    ∃ topic nodeID, r.HasRoute topic nodeID ∧ OwnerOf topic nodeID filter ownerKey

theorem kept_empty : (empty : RouteTables I).Kept where
  index filter nodeID := by simp [empty, HasRoute, GoMap.Holds]
  byNode := GoMap.noEmptySet_empty
  owners := GoMap.noEmptySet_empty
  indexed filter := by simp [empty]
  offline filter idx h := by simp [empty] at h

theorem ownersOfRoutes_empty : (empty : RouteTables I).OwnersOfRoutes := by
  intro filter ownerKey
  simp [empty, HasRoute, GoMap.Holds]

variable {r : RouteTables I} {topic nodeID filter group underlying ownerKey : Text}

theorem Kept.register (h : r.Kept) (topic nodeID : Text) : (r.register topic nodeID).Kept where
  index filter n := by
    rw [hasRoute_register, ← h.index]
    simp only [RouteTables.register, ExactIndex.pairs_subscribe, Finset.mem_insert, Prod.mk.injEq]
    exact or_comm
  byNode := h.byNode.addTo nodeID topic
  owners := h.owners
  indexed := h.indexed
  offline := h.offline

theorem Kept.deregister (h : r.Kept) (topic nodeID : Text) :
    (r.deregister topic nodeID).Kept where
  index filter n := by
    rw [hasRoute_deregister, ← h.index]
    simp only [RouteTables.deregister, ExactIndex.pairs_unsubscribe, Finset.mem_erase, ne_eq,
      Prod.mk.injEq]
    exact and_comm
  byNode := h.byNode.removeFrom nodeID topic
  owners := h.owners
  indexed := h.indexed
  offline := h.offline

theorem Kept.mem_ownerIndex (h : r.Kept) (hshared : sharedFilter filter = some (group, underlying))
    {f k : Text} : (f, k) ∈ pairs (r.ownerIndex filter) ↔
      f = underlying ∧ r.offlineSharedOwners.Holds filter k := by
  unfold RouteTables.ownerIndex
  cases hidx : r.offlineShared.lookup filter with
  | none =>
    have hnone : ¬ r.offlineSharedOwners.Holds filter k := fun hk =>
      AList.lookup_eq_none.1 hidx ((h.indexed filter).2 (GoMap.mem_of_holds hk))
    simp [hnone]
  | some idx =>
    obtain ⟨g, u, hu, hpairs⟩ := h.offline filter idx hidx
    rw [hshared] at hu
    cases hu
    exact hpairs f k

theorem Kept.putOwner (h : r.Kept) (hshared : sharedFilter filter = some (group, underlying))
    (ownerKey : Text) : (r.putOwner filter underlying ownerKey).Kept where
  index := h.index
  byNode := h.byNode
  owners := h.owners.addTo filter ownerKey
  indexed f := by
    refine (AList.mem_insert _).trans (Iff.trans ?_ (AList.mem_insert _).symm)
    rw [h.indexed]
  offline f idx hidx := by
    rw [RouteTables.putOwner, GoMap.lookup_insert] at hidx
    split_ifs at hidx with hf
    · cases hidx
      subst hf
      refine ⟨group, underlying, hshared, fun f' k => ?_⟩
      rw [ExactIndex.pairs_subscribe, Finset.mem_insert, h.mem_ownerIndex hshared, Prod.mk.injEq,
        RouteTables.putOwner, GoMap.holds_addTo]
      tauto
    · obtain ⟨g, u, hu, hpairs⟩ := h.offline f idx hidx
      refine ⟨g, u, hu, fun f' k => (hpairs f' k).trans (and_congr_right fun _ => ?_)⟩
      exact (GoMap.holds_addTo.trans (or_iff_left fun hk => hf hk.1)).symm

theorem Kept.dropOwner (h : r.Kept) {idx : I} (hidx : r.offlineShared.lookup filter = some idx)
    (hshared : sharedFilter filter = some (group, underlying)) (ownerKey : Text) :
    (r.dropOwner idx filter underlying ownerKey).Kept := by
  have hmem : filter ∈ r.offlineSharedOwners :=
    (h.indexed filter).1 (GoMap.mem_iff_exists_lookup.2 ⟨idx, hidx⟩)
  have hother (f : Text) (hf : f ≠ filter) :
      f ∈ r.offlineSharedOwners.removeFrom filter ownerKey ↔ f ∈ r.offlineSharedOwners := by
    rw [(h.owners.removeFrom filter ownerKey).mem_iff, h.owners.mem_iff]
    exact exists_congr fun k => GoMap.holds_removeFrom.trans (and_iff_left fun hk => hf hk.1)
  refine ⟨h.index, h.byNode, h.owners.removeFrom filter ownerKey, fun f => ?_, fun f idx' h' => ?_⟩
  · unfold RouteTables.dropOwner
    dsimp only
    by_cases hf : f = filter
    · subst hf
      split_ifs with hlast
      · exact iff_of_false (fun hmem' => (AList.mem_erase.1 hmem').1 rfl) hlast.2
      · exact iff_of_true ((AList.mem_insert _).2 (Or.inl rfl)) (by tauto)
    · refine Iff.trans ?_ ((h.indexed f).trans (hother f hf).symm)
      split_ifs with hlast
      · exact AList.mem_erase.trans (and_iff_right hf)
      · exact (AList.mem_insert _).trans (or_iff_right hf)
  · unfold RouteTables.dropOwner at h' ⊢
    dsimp only at h' ⊢
    by_cases hf : f = filter
    · subst hf
      split_ifs at h' with hlast
      · rw [AList.lookup_erase] at h'
        cases h'
      · rw [AList.lookup_insert, Option.some.injEq] at h'
        subst h'
        obtain ⟨g, u, hu, hpairs⟩ := h.offline f idx hidx
        rw [hshared] at hu
        obtain ⟨rfl, rfl⟩ := hu
        refine ⟨group, underlying, hshared, fun f' k => ?_⟩
        rw [ExactIndex.pairs_unsubscribe, Finset.mem_erase, hpairs, GoMap.holds_removeFrom, ne_eq,
          Prod.mk.injEq]
        tauto
    · have hold : r.offlineShared.lookup f = some idx' := by
        split_ifs at h' with hlast
        · rwa [AList.lookup_erase_ne hf] at h'
        · rwa [AList.lookup_insert_ne hf] at h'
      obtain ⟨g, u, hu, hpairs⟩ := h.offline f idx' hold
      refine ⟨g, u, hu, fun f' k => (hpairs f' k).trans (and_congr_right fun _ => ?_)⟩
      exact (GoMap.holds_removeFrom.trans (and_iff_left fun hk => hf hk.1)).symm

theorem Kept.addOfflineSharedOwnership (h : r.Kept) (topic nodeID : Text) :
    (r.addOfflineSharedOwnership topic nodeID).Kept := by
  unfold RouteTables.addOfflineSharedOwnership
  split
  · exact h
  · next filter underlying clientID howner =>
    obtain ⟨-, group, hshared⟩ := sharedOwnership_eq_some.1 howner
    dsimp only
    split_ifs with hk
    · -- the owner is known, and its index is written back
      have hmem : filter ∈ r.offlineShared := (h.indexed filter).2 (GoMap.mem_of_holds hk)
      have hlookup (f : Text) : (r.offlineShared.insert filter (r.ownerIndex filter)).lookup f =
          r.offlineShared.lookup f := by
        rw [GoMap.lookup_insert]
        split_ifs with hf
        · obtain ⟨idx, hidx⟩ := GoMap.mem_iff_exists_lookup.1 hmem
          rw [hf, RouteTables.ownerIndex, hidx, Option.getD_some]
        · rfl
      refine ⟨h.index, h.byNode, h.owners, fun f => ?_, fun f idx hidx => ?_⟩
      · refine Iff.trans ?_ (h.indexed f)
        simp only [GoMap.mem_iff_exists_lookup, hlookup]
      · rw [hlookup] at hidx
        exact h.offline f idx hidx
    · exact h.putOwner hshared _

theorem Kept.removeOfflineSharedOwnership (h : r.Kept) (topic nodeID : Text) :
    (r.removeOfflineSharedOwnership topic nodeID).Kept := by
  unfold RouteTables.removeOfflineSharedOwnership
  split
  · exact h
  · next filter underlying clientID howner =>
    obtain ⟨-, group, hshared⟩ := sharedOwnership_eq_some.1 howner
    split
    · exact h
    · next idx hidx => exact h.dropOwner hidx hshared _

theorem Kept.removeLocal (h : r.Kept) (topic nodeID : Text) : (r.removeLocal topic nodeID).Kept :=
  (h.deregister topic nodeID).removeOfflineSharedOwnership topic nodeID

theorem Kept.removeAll (h : r.Kept) (topics : List Text) (nodeID : Text) :
    (r.removeAll topics nodeID).Kept :=
  run_of_step (fun _ topic h => h.removeLocal topic nodeID) h topics

theorem Kept.applyEvent (h : r.Kept) (e : RouteEvent) : (r.applyEvent e).Kept := by
  cases e with
  | subscribe topic nodeID =>
    exact (h.register topic nodeID).addOfflineSharedOwnership topic nodeID
  | unsubscribe topic nodeID => exact h.removeLocal topic nodeID
  | unsubscribeBatch topics nodeID => exact h.removeAll topics nodeID
  | purgeNode nodeID => exact h.removeAll _ nodeID

theorem Kept.reconcileKey (h : r.Kept) (key : Text) : (r.reconcileKey key).Kept := by
  unfold RouteTables.reconcileKey
  split
  · exact h
  · next topic nodeID _ =>
    split
    · exact h.register topic nodeID
    · next howner =>
      obtain ⟨-, group, hshared⟩ := sharedOwnership_eq_some.1 howner
      exact (h.register topic nodeID).putOwner hshared _

private theorem kept_reconcile (scan : List Text) : (reconcile scan : RouteTables I).Kept :=
  run_of_step (fun _ key h => h.reconcileKey key) kept_empty scan

/-! ### Owners of the routes -/

private theorem holds_addLocal {f k : Text} :
    (r.addLocal topic nodeID).offlineSharedOwners.Holds f k ↔
      r.offlineSharedOwners.Holds f k ∨ OwnerOf topic nodeID f k := by
  unfold RouteTables.addLocal RouteTables.addOfflineSharedOwnership
  cases howner : sharedOwnership topic with
  | none => exact (or_iff_left (not_ownerOf howner)).symm
  | some owner =>
    rw [ownerOf_iff howner]
    dsimp only
    split_ifs with hk
    · refine (or_iff_left_of_imp ?_).symm
      rintro ⟨rfl, rfl⟩
      exact hk
    · exact GoMap.holds_addTo

theorem Kept.holds_removeLocal (h : r.Kept) {f k : Text} :
    (r.removeLocal topic nodeID).offlineSharedOwners.Holds f k ↔
      r.offlineSharedOwners.Holds f k ∧ ¬ OwnerOf topic nodeID f k := by
  unfold RouteTables.removeLocal RouteTables.removeOfflineSharedOwnership
  cases howner : sharedOwnership topic with
  | none => exact (and_iff_left (not_ownerOf howner)).symm
  | some owner =>
    rw [ownerOf_iff howner]
    dsimp only
    split
    · next hidx =>
      refine (and_iff_left_of_imp ?_).symm
      rintro hk ⟨rfl, rfl⟩
      exact AList.lookup_eq_none.1 hidx ((h.indexed _).2 (GoMap.mem_of_holds hk))
    · exact GoMap.holds_removeFrom

theorem Kept.holds_removeAll (h : r.Kept) (topics : List Text) {f k : Text} :
    (r.removeAll topics nodeID).offlineSharedOwners.Holds f k ↔
      r.offlineSharedOwners.Holds f k ∧ ∀ topic ∈ topics, ¬ OwnerOf topic nodeID f k := by
  induction topics generalizing r with
  | nil => simp [RouteTables.removeAll]
  | cons topic topics ih =>
    refine (ih (h.removeLocal topic nodeID)).trans ?_
    rw [h.holds_removeLocal, List.forall_mem_cons, and_assoc]

omit [ExactIndex I] in
theorem OwnersOfRoutes.of_added {r' : RouteTables I} (h : r.OwnersOfRoutes)
    (hroutes : ∀ f n, r'.HasRoute f n ↔ r.HasRoute f n ∨ (f = topic ∧ n = nodeID))
    (howners : ∀ f k, r'.offlineSharedOwners.Holds f k ↔
      r.offlineSharedOwners.Holds f k ∨ OwnerOf topic nodeID f k) : r'.OwnersOfRoutes := by
  intro f k
  rw [howners, h f k]
  simp only [hroutes]
  constructor
  · rintro (⟨t, n, hroute, howner⟩ | howner)
    · exact ⟨t, n, Or.inl hroute, howner⟩
    · exact ⟨topic, nodeID, Or.inr ⟨rfl, rfl⟩, howner⟩
  · rintro ⟨t, n, hroute | ⟨rfl, rfl⟩, howner⟩
    · exact Or.inl ⟨t, n, hroute, howner⟩
    · exact Or.inr howner

theorem OwnersOfRoutes.removeAll_iff (h : r.OwnersOfRoutes) (hkept : r.Kept) (topics : List Text)
    (nodeID : Text) : (r.removeAll topics nodeID).OwnersOfRoutes ↔
      ∀ topic ∈ topics, ∀ topic', (r.removeAll topics nodeID).HasRoute topic' nodeID →
        ∀ owner, sharedOwnership topic = some owner → sharedOwnership topic' ≠ some owner := by
  constructor
  · rintro hafter topic htopic topic' hroute ⟨f, u, c⟩ howner howner'
    have hk : (r.removeAll topics nodeID).offlineSharedOwners.Holds f (sharedOwnerKey nodeID c) :=
      (hafter f _).2 ⟨topic', nodeID, hroute, u, c, howner', rfl⟩
    exact ((hkept.holds_removeAll topics).1 hk).2 topic htopic ⟨u, c, howner, rfl⟩
  · intro hclean f k
    rw [hkept.holds_removeAll, h f k]
    constructor
    · rintro ⟨⟨t, n, hroute, howner⟩, hleft⟩
      refine ⟨t, n, (hasRoute_removeAll topics).2 ⟨hroute, ?_⟩, howner⟩
      rintro topic htopic ⟨rfl, rfl⟩
      exact hleft t htopic howner
    · rintro ⟨t, n, hroute, howner⟩
      refine ⟨⟨t, n, ((hasRoute_removeAll topics).1 hroute).1, howner⟩, ?_⟩
      intro topic htopic hremoved
      obtain ⟨rfl, hread⟩ := howner.unique hremoved
      obtain ⟨u, c, hsome, -⟩ := howner
      exact hclean topic htopic t hroute _ (hread ▸ hsome) hsome

theorem OwnersOfRoutes.reconcileKey (h : r.OwnersOfRoutes) (key : Text) :
    (r.reconcileKey key).OwnersOfRoutes := by
  unfold RouteTables.reconcileKey
  cases parseRouteKey key with
  | none => exact h
  | some route =>
    obtain ⟨topic, nodeID⟩ := route
    dsimp only
    cases howner : sharedOwnership topic with
    | none =>
      exact h.of_added (fun _ _ => hasRoute_register)
        fun f k => (or_iff_left (not_ownerOf howner)).symm
    | some owner =>
      exact h.of_added (fun _ _ => hasRoute_register)
        fun f k => GoMap.holds_addTo.trans (or_congr Iff.rfl (ownerOf_iff howner).symm)

theorem ownersOfRoutes_reconcile (scan : List Text) :
    (reconcile scan : RouteTables I).OwnersOfRoutes :=
  run_of_step (fun _ key h => h.reconcileKey key)
    ownersOfRoutes_empty scan

theorem OwnersOfRoutes.applyEvent_iff (h : r.OwnersOfRoutes) (hkept : r.Kept) (e : RouteEvent) :
    (r.applyEvent e).OwnersOfRoutes ↔
      ∀ topic topic' nodeID owner, e.Removes topic nodeID →
        (r.applyEvent e).HasRoute topic' nodeID → sharedOwnership topic = some owner →
          sharedOwnership topic' ≠ some owner := by
  cases e with
  | subscribe topic nodeID =>
    refine iff_of_true ?_ fun _ _ _ _ hremoves => absurd hremoves not_false
    exact h.of_added (fun _ _ => hasRoute_addLocal) fun _ _ => holds_addLocal
  | unsubscribe topic nodeID =>
    refine (h.removeAll_iff hkept [topic] nodeID).trans ⟨?_, ?_⟩
    · rintro hclean t t' n owner ⟨rfl, rfl⟩ hroute
      exact hclean t List.mem_cons_self t' hroute owner
    · rintro hclean t ht t' hroute owner
      exact hclean t t' nodeID owner ⟨List.mem_singleton.1 ht, rfl⟩ hroute
  | unsubscribeBatch topics nodeID =>
    refine (h.removeAll_iff hkept topics nodeID).trans ⟨?_, ?_⟩
    · rintro hclean t t' n owner ⟨ht, rfl⟩ hroute
      exact hclean t ht t' hroute owner
    · rintro hclean t ht t' hroute owner
      exact hclean t t' nodeID owner ⟨ht, rfl⟩ hroute
  | purgeNode nodeID =>
    -- nothing is left of the node
    have hnone (topic : Text) : ¬ (r.applyEvent (.purgeNode nodeID)).HasRoute topic nodeID :=
      fun hroute => ((hasRoute_applyEvent _ _ _ _).1 hroute).elim not_false fun hleft => hleft.2 rfl
    refine iff_of_true ?_ fun t t' n owner hn hroute => ?_
    · refine (h.removeAll_iff hkept _ nodeID).2 fun t ht t' hroute => ?_
      exact absurd hroute (hnone t')
    · obtain rfl : n = nodeID := hn
      exact absurd hroute (hnone t')

/-! ### Equal caches -/

/-- The four maps have the same content. -/
structure Same (r r' : RouteTables I) : Prop where
  index : pairs r.index = pairs r'.index
  byNode : r.byNode.SameSets r'.byNode
  offlineShared : ∀ filter,
    (r.offlineShared.lookup filter).map pairs = (r'.offlineShared.lookup filter).map pairs
  offlineSharedOwners : r.offlineSharedOwners.SameSets r'.offlineSharedOwners

theorem Kept.same {r' : RouteTables I} (h : r.Kept) (h' : r'.Kept)
    (hroutes : ∀ filter n, r.HasRoute filter n ↔ r'.HasRoute filter n)
    (howners : ∀ filter k,
      r.offlineSharedOwners.Holds filter k ↔ r'.offlineSharedOwners.Holds filter k) :
    r.Same r' where
  index := by
    ext ⟨filter, n⟩
    rw [h.index, h'.index, hroutes]
  byNode := h.byNode.sameSets h'.byNode fun n filter => hroutes filter n
  offlineSharedOwners := h.owners.sameSets h'.owners howners
  offlineShared filter := by
    have hmem : filter ∈ r.offlineShared ↔ filter ∈ r'.offlineShared := by
      rw [h.indexed, h'.indexed, h.owners.mem_iff, h'.owners.mem_iff]
      simp only [howners]
    cases hidx : r.offlineShared.lookup filter with
    | none =>
      rw [AList.lookup_eq_none.2 (mt hmem.2 (AList.lookup_eq_none.1 hidx))]
    | some idx =>
      obtain ⟨idx', hidx'⟩ := GoMap.mem_iff_exists_lookup.1
        (hmem.1 (GoMap.mem_iff_exists_lookup.2 ⟨idx, hidx⟩))
      obtain ⟨g, u, hu, hpairs⟩ := h.offline filter idx hidx
      obtain ⟨g', u', hu', hpairs'⟩ := h'.offline filter idx' hidx'
      rw [hu, Option.some.injEq, Prod.mk.injEq] at hu'
      rw [hidx', Option.map_some, Option.map_some, Option.some.injEq]
      ext ⟨f, k⟩
      rw [hpairs, hpairs', howners, hu'.2]

/-- An index of owners is not empty. -/
theorem Kept.nonempty_of_lookup (h : r.Kept) {idx : I}
    (hidx : r.offlineShared.lookup filter = some idx) : (pairs idx).Nonempty := by
  obtain ⟨g, u, -, hpairs⟩ := h.offline filter idx hidx
  obtain ⟨k, hk⟩ := h.owners filter
    ((h.indexed filter).1 (GoMap.mem_iff_exists_lookup.2 ⟨idx, hidx⟩))
  exact ⟨(u, k), (hpairs u k).2 ⟨rfl, hk⟩⟩

end Kept

end RouteTables

/-! ### Keys -/

/-- The keys of the store. -/
abbrev KeyStore := GoMap Text Unit

namespace KeyStore

/-- A key is read as the route. -/
def HasRoute (s : KeyStore) (topic nodeID : Text) : Prop :=
  ∃ key ∈ s, parseRouteKey key = some (topic, nodeID)

/-- The keys of several filters of a node leave the store. -/
def deleteRoutes (s : KeyStore) (topics : List Text) (nodeID : Text) : KeyStore :=
  (topics.map fun topic => routeKey topic nodeID).foldl (fun s key => s.erase key) s

/-- What an event means for the keys. -/
def applyEvent (s : KeyStore) : RouteEvent → KeyStore
  | .subscribe topic nodeID => s.insert (routeKey topic nodeID) ()
  | .unsubscribe topic nodeID => s.erase (routeKey topic nodeID)
  | .unsubscribeBatch topics nodeID => s.deleteRoutes topics nodeID
  | .purgeNode nodeID =>
    (s.keys.filter fun key => (parseRouteKey key).map Prod.snd = some nodeID).foldl
      (fun s key => s.erase key) s

variable {s : KeyStore} {filter n : Text}

theorem hasRoute_iff : s.HasRoute filter n ↔ routeKey filter n ∈ s ∧ keySep ∉ n := by
  unfold HasRoute
  simp only [parseRouteKey_eq_some]
  exact ⟨fun ⟨_, hkey, heq, hsep⟩ => ⟨heq ▸ hkey, hsep⟩, fun ⟨hkey, hsep⟩ => ⟨_, hkey, rfl, hsep⟩⟩

theorem hasRoute_applyEvent {e : RouteEvent} (hsep : keySep ∉ e.nodeID) :
    (s.applyEvent e).HasRoute filter n ↔
      e.Adds filter n ∨ (s.HasRoute filter n ∧ ¬ e.Removes filter n) := by
  have hinj (topic nodeID : Text) (hn : keySep ∉ n) (hnode : keySep ∉ nodeID) :
      routeKey filter n = routeKey topic nodeID ↔ filter = topic ∧ n = nodeID :=
    ⟨routeKey_injective hn hnode, fun h => by rw [h.1, h.2]⟩
  rw [hasRoute_iff, hasRoute_iff]
  by_cases hn : keySep ∈ n
  · -- such a node has no key, and no event is about it
    have hadds : ¬ e.Adds filter n := by
      cases e with
      | subscribe topic nodeID => exact fun h => hsep (h.2 ▸ hn)
      | _ => exact not_false
    simp [hn, hadds]
  · cases e with
    | subscribe topic nodeID =>
      have hkey := hinj topic nodeID hn hsep
      simp only [applyEvent, AList.mem_insert, RouteEvent.Adds]
      tauto
    | unsubscribe topic nodeID =>
      have hkey := hinj topic nodeID hn hsep
      simp only [applyEvent, AList.mem_erase, RouteEvent.Removes]
      tauto
    | unsubscribeBatch topics nodeID =>
      have hkey (topic : Text) := hinj topic nodeID hn hsep
      have hmem : routeKey filter n ∈ topics.map (fun topic => routeKey topic nodeID) ↔
          filter ∈ topics ∧ n = nodeID := by
        simp only [List.mem_map, eq_comm, hkey]
        exact ⟨fun ⟨t, ht, heq⟩ => ⟨heq.1 ▸ ht, heq.2⟩, fun ⟨ht, heq⟩ => ⟨_, ht, rfl, heq⟩⟩
      simp only [applyEvent, deleteRoutes, GoMap.mem_foldl_erase, hmem]
      tauto
    | purgeNode nodeID =>
      simp only [applyEvent, GoMap.mem_foldl_erase, List.mem_filter,
        parseRouteKey_routeKey hn, Option.map_some,
        Option.some.injEq, decide_eq_true_eq]
      tauto

end KeyStore

/-! ### Runs -/

/-- A cache and the keys of the store, both after the same events. -/
structure Replica (I : Type) where
  cache : RouteTables I
  keys : KeyStore

namespace Replica

open RouteTables
open ExactIndex (pairs)

variable {I : Type} [ExactIndex I]

/-- Nothing has happened yet. -/
def start : Replica I := ⟨RouteTables.empty, ∅⟩

/-- The event reaches the cache, and the keys are those that it leaves. -/
def step (s : Replica I) (e : RouteEvent) : Replica I := ⟨s.cache.applyEvent e, s.keys.applyEvent e⟩

/-- The cache is the one that a rebuild from the keys gives, in whatever order they are scanned. -/
def Rebuilt (s : Replica I) : Prop :=
  ∀ scan : List Text, (∀ key, key ∈ scan ↔ key ∈ s.keys) → s.cache.Same (reconcile scan)

/-- No node has an empty set of filters, and no shared filter an empty set or index of owners. -/
structure NoEmpty (s : Replica I) : Prop where
  byNode : s.cache.byNode.NoEmptySet
  offlineSharedOwners : s.cache.offlineSharedOwners.NoEmptySet
  offlineShared : ∀ filter idx, s.cache.offlineShared.lookup filter = some idx →
    (pairs idx).Nonempty

/-- No route is left that is read as the owner of a removed one. -/
def Clean (s : Replica I) (e : RouteEvent) : Prop :=
  ∀ topic topic' nodeID owner, e.Removes topic nodeID →
    (s.cache.applyEvent e).HasRoute topic' nodeID → sharedOwnership topic = some owner →
      sharedOwnership topic' ≠ some owner

/-- The cache is in order, and its routes are those of the keys. -/
structure InStep (s : Replica I) : Prop where
  kept : s.cache.Kept
  routes : ∀ filter n, s.cache.HasRoute filter n ↔ s.keys.HasRoute filter n

private theorem inStep_start : (start : Replica I).InStep where
  kept := kept_empty
  routes filter n := iff_of_false (by simp [start, HasRoute, empty, GoMap.Holds])
    (by simp [start, KeyStore.HasRoute])

theorem InStep.step {s : Replica I} {e : RouteEvent} (h : s.InStep) (hsep : keySep ∉ e.nodeID) :
    (s.step e).InStep where
  kept := h.kept.applyEvent e
  routes filter n := by
    refine (RouteTables.hasRoute_applyEvent _ e filter n).trans ?_
    rw [h.routes]
    exact (KeyStore.hasRoute_applyEvent hsep).symm

theorem InStep.rebuilt_iff {s : Replica I} (h : s.InStep) :
    s.Rebuilt ↔ s.cache.OwnersOfRoutes := by
  have hroutes {scan : List Text} (hscan : ∀ key, key ∈ scan ↔ key ∈ s.keys) (filter n : Text) :
      s.cache.HasRoute filter n ↔ (reconcile scan : RouteTables I).HasRoute filter n := by
    rw [h.routes, hasRoute_reconcile, KeyStore.HasRoute]
    simp only [hscan]
  constructor
  · intro hrebuilt filter k
    have hscan (key : Text) : key ∈ s.keys.keys ↔ key ∈ s.keys := AList.mem_keys.symm
    rw [((hrebuilt _ hscan).offlineSharedOwners filter).2 k, ownersOfRoutes_reconcile _ filter k]
    simp only [hroutes hscan]
  · intro howners scan hscan
    refine h.kept.same (kept_reconcile scan) (hroutes hscan) fun filter k => ?_
    rw [howners filter k, ownersOfRoutes_reconcile scan filter k]
    simp only [hroutes hscan]

/-- The last character of an ownership key carries bits that the decoder passes over. -/
def respelledKey : Text := (ownershipKey ['a', 'b'] "$share/g/t".toList).dropLast ++ ['B']

end Replica

end KeelGateway.Routing
