import KeelGateway.Routing.Store

/-!
# Ownership entries among client subscriptions

The owners of offline sessions and the hints for publishers are routes like those of the clients,
and are told apart by their first level only. Nothing keeps a client from subscribing to a filter
with such a level. What the queries about offline sessions answer is compared here with what they
would answer if the clients had never made a call: the same calls of `Place` and `Clear` are applied
to a second store that no client writes.

Filters below `$share/<group>/` need more care. The topics index does not hold back their wildcards
from topics that begin with a dollar sign, so `$share/g/#` leads to every ownership key. And a live
shared filter is meant to take the place of its offline members.

-/

namespace KeelGateway.Routing

open Acl Mochi StepMachine

/-! ### Copies of the store -/

/-- A cache has the routes of the store and the owners of shared filters that they stand for. -/
structure Router.Copies (r : Router) (s : RouteStore) : Prop where
  routes : r.Mirrors s
  owners : ∀ filter ownerKey, r.offlineSharedOwners.Holds filter ownerKey ↔
    ∃ topic nodeID underlying clientID, (topic, nodeID) ∈ s ∧
      RouteTables.sharedOwnership topic = some (filter, underlying, clientID) ∧
      ownerKey = sharedOwnerKey nodeID clientID

namespace RouteTables

/-- `OwnedClientIDs`. -/
def ownedClientIDs (r : RouteTables TopicsIndex) (nodeID : Text) : List Text :=
  ((r.topicsForNode nodeID).filterMap fun topic => (ownershipKeyParts topic).map Prod.fst).dedup

private theorem mem_ownedClientIDs {r : RouteTables TopicsIndex} {nodeID clientID : Text} :
    clientID ∈ r.ownedClientIDs nodeID ↔
      ∃ topic filter, r.HasRoute topic nodeID ∧
        ownershipKeyParts topic = some (clientID, filter) := by
  simp [ownedClientIDs, mem_topicsForNode]

private theorem holds_reconcileKey {r : RouteTables TopicsIndex} {key filter ownerKey : Text} :
    (r.reconcileKey key).offlineSharedOwners.Holds filter ownerKey ↔
      r.offlineSharedOwners.Holds filter ownerKey ∨
        ∃ topic nodeID underlying clientID, parseRouteKey key = some (topic, nodeID) ∧
          sharedOwnership topic = some (filter, underlying, clientID) ∧
          ownerKey = sharedOwnerKey nodeID clientID := by
  unfold reconcileKey
  cases hkey : parseRouteKey key with
  | none => simp
  | some route =>
    obtain ⟨topic, nodeID⟩ := route
    dsimp only
    cases howner : sharedOwnership topic with
    | none =>
      refine (or_iff_left ?_).symm
      rintro ⟨topic', nodeID', underlying, clientID, heq, howner', -⟩
      cases heq
      rw [howner] at howner'
      cases howner'
    | some o =>
      obtain ⟨f, u, c⟩ := o
      dsimp only [putOwner]
      rw [GoMap.holds_addTo]
      refine or_congr_right ⟨?_, ?_⟩
      · rintro ⟨rfl, rfl⟩
        exact ⟨topic, nodeID, u, c, rfl, howner, rfl⟩
      · rintro ⟨topic', nodeID', underlying, clientID, heq, howner', rfl⟩
        cases heq
        rw [howner] at howner'
        cases howner'
        exact ⟨rfl, rfl⟩

theorem holds_reconcile (scan : List Text) (filter ownerKey : Text) :
    (reconcile scan : RouteTables TopicsIndex).offlineSharedOwners.Holds filter ownerKey ↔
      ∃ key ∈ scan, ∃ topic nodeID underlying clientID, parseRouteKey key = some (topic, nodeID) ∧
        sharedOwnership topic = some (filter, underlying, clientID) ∧
        ownerKey = sharedOwnerKey nodeID clientID := by
  have hempty : ¬ (empty : RouteTables TopicsIndex).offlineSharedOwners.Holds filter ownerKey := by
    simp [empty, GoMap.Holds]
  refine Iff.trans ?_ (or_iff_right hempty)
  refine run_iff_exists
    (P := fun r : RouteTables TopicsIndex => r.offlineSharedOwners.Holds filter ownerKey) ?_ empty
  intro key _ r
  exact holds_reconcileKey

end RouteTables

/-- A scan of the store gives a copy of it. -/
theorem RouteStore.copies_scanned {s : RouteStore} (hs : ∀ row ∈ s.keys, keySep ∉ row.2) :
    s.scanned.Copies s where
  routes := mirrors_scanned hs
  owners filter ownerKey := by
    refine (RouteTables.holds_reconcile _ filter ownerKey).trans ?_
    simp only [List.mem_map]
    constructor
    · rintro ⟨key, ⟨row, hrow, rfl⟩, topic, nodeID, underlying, clientID, hparse, howner⟩
      rw [parseRouteKey_routeKey (hs row hrow)] at hparse
      cases hparse
      exact ⟨row.1, row.2, underlying, clientID, AList.mem_keys.2 hrow, howner⟩
    · rintro ⟨topic, nodeID, underlying, clientID, hrow, howner⟩
      have hkey := AList.mem_keys.1 hrow
      exact ⟨_, ⟨_, hkey, rfl⟩, topic, nodeID, underlying, clientID,
        parseRouteKey_routeKey (hs _ hkey) topic, howner⟩

/-! ### The store with and without clients -/

/-- The routing store, and what it would be without the calls of clients. -/
structure Twin where
  actual : RouteStore := ∅
  alone : RouteStore := ∅

/-- A call for a client, or one that places or clears an offline session. `old` is what
`CurrentOwner` has answered; it is an answer of both stores as long as their answers are the same.
-/
inductive NamespaceEvent where
  | subscribe (filter nodeID : Text)
  | unsubscribe (filter nodeID : Text)
  | place (clientID filter newOwner : Text) (old : Option Text)
  | clear (clientID filter : Text) (old : Option Text)

namespace Twin

/-- One call. -/
def step (t : Twin) : NamespaceEvent → Twin
  | .subscribe filter nodeID => { t with actual := t.actual.subscribe filter nodeID .ok }
  | .unsubscribe filter nodeID => { t with actual := t.actual.unsubscribe filter nodeID .ok }
  | .place clientID filter newOwner old =>
    ⟨(t.actual.place clientID filter newOwner old {}).1,
      (t.alone.place clientID filter newOwner old {}).1⟩
  | .clear clientID filter old =>
    ⟨(t.actual.clear clientID filter old .ok).1, (t.alone.clear clientID filter old .ok).1⟩

/-- Caches of the two stores give the same answers about offline sessions. -/
structure SameAnswers (t : Twin) : Prop where
  currentOwner : ∀ r r₀ : Router, r.Copies t.actual → r₀.Copies t.alone → ∀ clientID filter,
    keySep ∉ clientID → filter ≠ [] → ∀ nodeID,
      nodeID ∈ r.nodesFor (ownershipKey clientID filter) ↔
        nodeID ∈ r₀.nodesFor (ownershipKey clientID filter)
  ownedClientIDs : ∀ r r₀ : Router, r.Copies t.actual → r₀.Copies t.alone → ∀ nodeID clientID,
    clientID ∈ r.ownedClientIDs nodeID ↔ clientID ∈ r₀.ownedClientIDs nodeID
  offlineNodesFor : ∀ r r₀ : Router, r.Copies t.actual → r₀.Copies t.alone → ∀ topic : TopicName,
    topic.text.head? ≠ some '$' → ∀ nodeID,
      nodeID ∈ r.offlineNodesFor topic.text ↔ nodeID ∈ r₀.offlineNodesFor topic.text

end Twin

/-- A filter that keeps away from the reserved names: neither of their first levels for an ordinary
filter; for a shared one no way to an ownership key, and no offline session that is placed with it.
-/
structure Apart (placed : Text → Prop) (filter : Text) : Prop where
  ordinary : isSharedFilter filter = false →
    (levels filter).head? ≠ some "$offline".toList ∧
      (levels filter).head? ≠ some "$offlineroute".toList
  shared : isSharedFilter filter = true →
    ¬ placed filter ∧ ∀ clientID f, ¬ Leads filter (ownershipKey clientID f)

/-- The calls of clients keep apart, and only filters that count as placed are placed. -/
def Respects (placed : Text → Prop) : NamespaceEvent → Prop
  | .subscribe filter _ | .unsubscribe filter _ => Apart placed filter
  | .place clientID filter _ _ => ∀ c f,
    ownershipKeyParts (ownershipKey clientID filter) = some (c, f) → placed f
  | .clear _ _ _ => True

/-! ### Filters that keep apart -/

section Apart

variable {placed : Text → Prop} {clientID filter : Text}

theorem not_apart_ownershipKey : ¬ Apart placed (ownershipKey clientID filter) := by
  intro h
  have hhead := (h.ordinary (isSharedFilter_ownershipKey _ _)).1
  exact hhead rfl

private theorem not_apart_offlineRouteKey : ¬ Apart placed (offlineRouteKey filter) := by
  intro h
  have hhead := (h.ordinary (isSharedFilter_offlineRouteKey _)).2
  exact hhead rfl

theorem Apart.not_leads (h : Apart placed filter) (c f : Text) :
    ¬ Leads filter (ownershipKey c f) := by
  cases hshared : isSharedFilter filter with
  | true => exact (h.shared hshared).2 c f
  | false =>
    intro hleads
    have hhead := ((leads_iff_indexMatch hshared).1 hleads).head?_eq rfl
    exact (h.ordinary hshared).1 hhead

theorem Apart.not_indexMatch (h : Apart placed filter) (hplain : isSharedFilter filter = false)
    (topic : Text) : ¬ IndexMatch filter (offlineRouteKey topic) := by
  intro hmatch
  have hhead := hmatch.head?_eq rfl
  exact (h.ordinary hplain).2 hhead

theorem Apart.ownershipKeyParts_eq_none (h : Apart placed filter) :
    ownershipKeyParts filter = none := by
  rw [ownershipKeyParts, if_neg]
  intro hprefix
  obtain ⟨rest, rfl⟩ := List.isPrefixOf_iff_prefix.1 hprefix
  have hlevels : levels (ownershipKeyPrefix ++ rest) = "$offline".toList :: levels rest := by
    rfl
  have hplain : isSharedFilter (ownershipKeyPrefix ++ rest) = false := by
    rw [isSharedFilter_of_levels hlevels]
    decide
  have hhead := (h.ordinary hplain).1
  exact hhead rfl

end Apart

namespace Twin

variable {placed : Text → Prop} {t : Twin}

/-- Without clients there are reserved keys only, of sessions that count as placed. The store has
them too, and besides only filters that keep apart. -/
structure Inv (placed : Text → Prop) (t : Twin) : Prop where
  reserved : ∀ row ∈ t.alone, (∃ c f, row.1 = ownershipKey c f) ∨ ∃ f, row.1 = offlineRouteKey f
  counted : ∀ row ∈ t.alone, ∀ c f, ownershipKeyParts row.1 = some (c, f) → placed f
  kept : ∀ row ∈ t.alone, row ∈ t.actual
  foreign : ∀ row ∈ t.actual, row ∈ t.alone ∨ Apart placed row.1

theorem inv_empty : Inv placed {} where
  reserved _ hrow := absurd hrow (AList.notMem_empty _)
  counted _ hrow := absurd hrow (AList.notMem_empty _)
  kept _ hrow := absurd hrow (AList.notMem_empty _)
  foreign _ hrow := absurd hrow (AList.notMem_empty _)

variable {row : Text × Text}

theorem Inv.not_apart (h : Inv placed t) (hrow : row ∈ t.alone) : ¬ Apart placed row.1 := by
  rcases h.reserved row hrow with ⟨c, f, hkey⟩ | ⟨f, hkey⟩
  · rw [hkey]
    exact not_apart_ownershipKey
  · rw [hkey]
    exact not_apart_offlineRouteKey

theorem Inv.not_shared (h : Inv placed t) (hrow : row ∈ t.alone) :
    ¬ isSharedFilter row.1 = true := by
  rcases h.reserved row hrow with ⟨c, f, hkey⟩ | ⟨f, hkey⟩
  · rw [hkey, isSharedFilter_ownershipKey]
    decide
  · rw [hkey, isSharedFilter_offlineRouteKey]
    decide

theorem Inv.place (h : Inv placed t) {clientID filter : Text} (newOwner : Text) (old : Option Text)
    (hplaced : ∀ c f, ownershipKeyParts (ownershipKey clientID filter) = some (c, f) → placed f) :
    Inv placed (t.step (.place clientID filter newOwner old)) where
  reserved row hrow := by
    rcases (RouteStore.mem_place.1 hrow).1 with hrow | ⟨-, rfl⟩ | ⟨-, -, rfl⟩
    · exact h.reserved row hrow
    · exact Or.inl ⟨clientID, filter, rfl⟩
    · exact Or.inr ⟨filter, rfl⟩
  counted row hrow c f hparts := by
    rcases (RouteStore.mem_place.1 hrow).1 with hrow | ⟨-, rfl⟩ | ⟨-, -, rfl⟩
    · exact h.counted row hrow c f hparts
    · exact hplaced c f hparts
    · cases hparts
  kept row hrow := by
    obtain ⟨hmem, hkept⟩ := RouteStore.mem_place.1 hrow
    exact RouteStore.mem_place.2 ⟨hmem.imp_left (h.kept row), hkept⟩
  foreign row hrow := by
    obtain ⟨hmem | hnew, hkept⟩ := RouteStore.mem_place.1 hrow
    · exact (h.foreign row hmem).imp_left fun hmem => RouteStore.mem_place.2 ⟨Or.inl hmem, hkept⟩
    · exact Or.inl (RouteStore.mem_place.2 ⟨Or.inr hnew, hkept⟩)

theorem Inv.clear (h : Inv placed t) (clientID filter : Text) (old : Option Text) :
    Inv placed (t.step (.clear clientID filter old)) where
  reserved row hrow := h.reserved row (RouteStore.mem_clear.1 hrow).1
  counted row hrow := h.counted row (RouteStore.mem_clear.1 hrow).1
  kept row hrow := by
    obtain ⟨hmem, hkept⟩ := RouteStore.mem_clear.1 hrow
    exact RouteStore.mem_clear.2 ⟨h.kept row hmem, hkept⟩
  foreign row hrow := by
    obtain ⟨hmem, hkept⟩ := RouteStore.mem_clear.1 hrow
    exact (h.foreign row hmem).imp_left fun hmem => RouteStore.mem_clear.2 ⟨hmem, hkept⟩

theorem Inv.step (h : Inv placed t) {e : NamespaceEvent} (he : Respects placed e) :
    Inv placed (t.step e) := by
  cases e with
  | subscribe filter nodeID =>
    refine ⟨h.reserved, h.counted, fun row hrow => ?_, fun row hrow => ?_⟩
    · exact RouteStore.mem_subscribe.2 (Or.inl (h.kept row hrow))
    · rcases RouteStore.mem_subscribe.1 hrow with hrow | ⟨-, rfl⟩
      · exact h.foreign row hrow
      · exact Or.inr he
  | unsubscribe filter nodeID =>
    refine ⟨h.reserved, h.counted, fun row hrow => ?_, fun row hrow => ?_⟩
    · refine RouteStore.mem_unsubscribe.2 ⟨h.kept row hrow, ?_⟩
      rintro ⟨-, rfl⟩
      exact h.not_apart hrow he
    · exact h.foreign row (RouteStore.mem_unsubscribe.1 hrow).1
  | place clientID filter newOwner old => exact h.place newOwner old he
  | clear clientID filter old => exact h.clear clientID filter old

theorem Inv.mem_iff (h : Inv placed t) (hrow : ¬ Apart placed row.1) :
    row ∈ t.actual ↔ row ∈ t.alone :=
  ⟨fun hmem => (h.foreign row hmem).resolve_right hrow, h.kept row⟩

theorem Inv.isolated_alone (h : Inv placed t) : t.alone.Isolated :=
  RouteStore.isolated_of_reserved RouteStore.isolated_empty fun row hrow =>
    Or.inr (h.reserved row hrow)

theorem Inv.isolated_actual (h : Inv placed t) : t.actual.Isolated := by
  intro row hrow clientID filter hleads
  rcases h.foreign row hrow with halone | hapart
  · exact h.isolated_alone row halone clientID filter hleads
  · exact absurd hleads (hapart.not_leads clientID filter)

section Answers

variable (h : Inv placed t) {r r₀ : Router} (hr : r.Copies t.actual) (hr₀ : r₀.Copies t.alone)

include h hr hr₀

private theorem mem_nodesFor_iff (clientID filter nodeID : Text) :
    nodeID ∈ r.nodesFor (ownershipKey clientID filter) ↔
      nodeID ∈ r₀.nodesFor (ownershipKey clientID filter) := by
  rw [hr.routes.mem_nodesFor_ownershipKey h.isolated_actual,
    hr₀.routes.mem_nodesFor_ownershipKey h.isolated_alone]
  exact h.mem_iff not_apart_ownershipKey

private theorem mem_ownedClientIDs_iff (nodeID clientID : Text) :
    clientID ∈ r.ownedClientIDs nodeID ↔ clientID ∈ r₀.ownedClientIDs nodeID := by
  simp only [RouteTables.mem_ownedClientIDs, hr.routes _ _, hr₀.routes _ _]
  refine exists_congr fun topic => exists_congr fun filter => and_congr_left fun hparts => ?_
  refine h.mem_iff fun hapart => ?_
  rw [hapart.ownershipKeyParts_eq_none] at hparts
  cases hparts

theorem holds_owners_iff (filter ownerKey : Text) :
    r.offlineSharedOwners.Holds filter ownerKey ↔ r₀.offlineSharedOwners.Holds filter ownerKey := by
  rw [hr.owners, hr₀.owners]
  refine exists_congr fun topic => exists_congr fun nodeID => exists_congr fun underlying =>
    exists_congr fun clientID => and_congr_left fun howner => ?_
  refine h.mem_iff fun hapart => ?_
  have hparts := (RouteTables.sharedOwnership_eq_some.1 howner.1).1
  rw [hapart.ownershipKeyParts_eq_none] at hparts
  cases hparts

omit hr in
private theorem placed_of_holds {filter ownerKey : Text}
    (hholds : r₀.offlineSharedOwners.Holds filter ownerKey) :
    placed filter := by
  obtain ⟨topic, nodeID, underlying, clientID, hrow, howner, -⟩ := (hr₀.owners _ _).1 hholds
  exact h.counted _ hrow clientID filter (RouteTables.sharedOwnership_eq_some.1 howner).1

theorem lookup_selections_eq (topic : TopicName) (filter : Text) :
    (r.offlineSharedSelections topic.text).lookup filter =
      (r₀.offlineSharedSelections topic.text).lookup filter := by
  have howners := r.selectOwner_matchedOwners_congr topic.ne_nil (holds_owners_iff h hr hr₀ filter)
  have hfree : filter ∉ (r₀.index.subscribers topic.text).shared := by
    intro hlive
    obtain ⟨hshared, nodeID, hroute⟩ := r₀.exists_hasRoute_of_shared hlive
    exact h.not_shared ((hr₀.routes _ _).1 hroute) hshared
  rw [RouteTables.lookup_offlineSharedSelections,
    RouteTables.lookup_offlineSharedSelections, howners]
  split_ifs with hlive
  · obtain ⟨hshared, nodeID, hroute⟩ := r.exists_hasRoute_of_shared hlive
    have hapart : Apart placed filter :=
      (h.foreign _ ((hr.routes _ _).1 hroute)).resolve_left fun halone =>
        h.not_shared halone hshared
    have hnone : ∀ ownerKey, ¬ r₀.offlineSharedOwners.Holds filter ownerKey :=
      fun k hk => (hapart.shared hshared).1 (placed_of_holds h hr₀ hk)
    rw [r₀.matchedOwners_eq_nil topic.ne_nil hnone]
    rfl
  · rfl

private theorem mem_offlineNodesFor_iff (topic : TopicName) (nodeID : Text) :
    nodeID ∈ r.offlineNodesFor topic.text ↔ nodeID ∈ r₀.offlineNodesFor topic.text := by
  rw [r.mem_offlineNodesFor, r₀.mem_offlineNodesFor]
  simp only [hr.routes _ _, hr₀.routes _ _, lookup_selections_eq h hr hr₀ topic]
  refine or_congr_left (exists_congr fun filter => and_congr_right fun hplain =>
    and_congr_left fun hmatch => h.mem_iff fun hapart => ?_)
  exact hapart.not_indexMatch hplain topic.text hmatch

end Answers

theorem Inv.sameAnswers (h : Inv placed t) : t.SameAnswers where
  currentOwner _ _ hr hr₀ clientID filter _ _ := mem_nodesFor_iff h hr hr₀ clientID filter
  ownedClientIDs _ _ hr hr₀ := mem_ownedClientIDs_iff h hr hr₀
  offlineNodesFor _ _ hr hr₀ topic _ := mem_offlineNodesFor_iff h hr hr₀ topic

/-- As long as the filters of clients keep apart from the reserved names and from the shared filters
of placed sessions, the answers about offline sessions are the same as without any client. -/
theorem always_sameAnswers (placed : Text → Prop) {es : List NamespaceEvent}
    (h : ∀ e ∈ es, Respects placed e) : Always step SameAnswers {} es := by
  have hinv : Always step (Inv placed) {} es :=
    always_of_along (fun _ _ ht he => ht.step he) inv_empty
      (along_of_forall h _)
  exact hinv.imp fun t ht => ht.sameAnswers

/-! ### Filters with reserved names -/

/-- Clients subscribe to `x/#` and `$share/g/x/y` while a session with the filter `t` is placed and
cleared. -/
theorem always_sameAnswers_apart :
    Always step SameAnswers {}
      [.subscribe "x/#".toList ['B'], .place ['c'] ['t'] ['A'] none,
        .subscribe "$share/g/x/y".toList ['B'], .clear ['c'] ['t'] (some ['A'])] := by
  refine always_sameAnswers (· = ['t']) ?_
  simp only [List.forall_mem_cons, List.not_mem_nil, false_implies, implies_true, and_true]
  refine ⟨⟨fun _ => by decide, fun hshared => absurd hshared (by decide)⟩, fun c f hparts => ?_,
    ⟨fun hplain => absurd hplain (by decide), fun _ => ⟨by decide, fun c f hleads => ?_⟩⟩, trivial⟩
  · rw [ownershipKeyParts_ownershipKey (by decide) (by decide)] at hparts
    cases hparts
    rfl
  · have hpath := hleads.1
    exact absurd (head_of_mem_visit hpath) (by decide)

/-- The two stores after a run. -/
def after (es : List NamespaceEvent) : Twin := run step {} es

/-- `$share/g/t`. -/
def offlineGroup : Text := "$share/g/t".toList

/-- A client that subscribes to `$offline/#` passes for the owner of every session, with
`$share/g/#` as well. With `$offlineroute/#` its node gets every publish for offline sessions. With
the very key of a session its node owns the session, and the owner is lost when it unsubscribes
there. A live member of a shared group takes the place of the offline one. -/
theorem not_sameAnswers_reserved :
    ¬ (after [.subscribe "$offline/#".toList ['B']]).SameAnswers ∧
    ¬ (after [.subscribe "$share/g/#".toList ['B']]).SameAnswers ∧
    ¬ (after [.subscribe "$offlineroute/#".toList ['B']]).SameAnswers ∧
    ¬ (after [.subscribe (ownershipKey ['c'] ['t']) ['B']]).SameAnswers ∧
    ¬ (after [.place ['c'] ['t'] ['A'] none,
        .unsubscribe (ownershipKey ['c'] ['t']) ['A']]).SameAnswers ∧
    ¬ (after
      [.place ['c'] offlineGroup ['A'] none, .subscribe offlineGroup ['B']]).SameAnswers := by
  have hcopies {s : RouteStore} (hs : ∀ row ∈ s.keys, keySep ∉ row.2) : s.scanned.Copies s :=
    RouteStore.copies_scanned hs
  refine ⟨fun h => ?_, fun h => ?_, fun h => ?_, fun h => ?_, fun h => ?_, fun h => ?_⟩
  · exact absurd (h.currentOwner _ _ (hcopies (by decide +kernel)) (hcopies (by decide +kernel))
      ['c'] ['t'] (by decide) (by decide) ['B']) (by decide +kernel)
  · exact absurd (h.currentOwner _ _ (hcopies (by decide +kernel)) (hcopies (by decide +kernel))
      ['c'] ['t'] (by decide) (by decide) ['B']) (by decide +kernel)
  · exact absurd (h.offlineNodesFor _ _ (hcopies (by decide +kernel)) (hcopies (by decide +kernel))
      ⟨['t'], by decide, by decide⟩ (by decide) ['B']) (by decide +kernel)
  · exact absurd (h.ownedClientIDs _ _ (hcopies (by decide +kernel)) (hcopies (by decide +kernel))
      ['B'] ['c']) (by decide +kernel)
  · exact absurd (h.currentOwner _ _ (hcopies (by decide +kernel)) (hcopies (by decide +kernel))
      ['c'] ['t'] (by decide) (by decide) ['A']) (by decide +kernel)
  · exact absurd (h.offlineNodesFor _ _ (hcopies (by decide +kernel)) (hcopies (by decide +kernel))
      ⟨['t'], by decide, by decide⟩ (by decide) ['A']) (by decide +kernel)

end Twin

end KeelGateway.Routing
