import KeelGateway.Routing.DeliveryPlan

/-!
# Shared groups across the cluster

A message has to reach one member of every shared group, wherever in the cluster the members are. If
some node has a live member, the publisher names one node for the group and no offline member may be
served; otherwise the owners of offline members have to agree on one of them, each from its own
cache.

The live side and the offline side both find a shared filter through the topics index, while a
filter matches a topic by the matcher of the ACL engine. The two differ on filters that end in
`/+/#`. The index also keeps one place for all spellings of `$share`, and an underlying filter that
is spelled like a shared one is never found among the owners.

-/

namespace KeelGateway.Routing

open Acl Mochi

/-- Two caches have the same content, up to the order of their maps. -/
structure Router.Agree (r s : Router) : Prop where
  subscriptions : ∀ k, r.index.subscriptions.lookup k = s.index.subscriptions.lookup k
  shared : ∀ k, r.index.shared.lookup k = s.index.shared.lookup k
  routes : ∀ filter nodeID, r.HasRoute filter nodeID ↔ s.HasRoute filter nodeID
  owners : ∀ filter ownerKey,
    r.offlineSharedOwners.Holds filter ownerKey ↔ s.offlineSharedOwners.Holds filter ownerKey

/-- The shared filters that a node is to serve for a publish on the node `self`, which has the cache
`r`: the ones of the publisher itself, and the ones that a forward carries. -/
def receivedFilters (r : Router) (self topic nodeID : Text) : List Text :=
  if nodeID = self ∨ nodeID ∈ r.forwardTargets self topic then
    sharedFiltersForNode (r.fanOutPlan self topic).2 nodeID
  else []

section Cluster

variable (caches : Text → Router)

/-- A node selects an offline client for a shared filter. -/
def Selects (topic filter nodeID clientID : Text) : Prop :=
  ((caches nodeID).offlineDeliveryCandidates topic nodeID).2.lookup filter = some clientID

/-- Some node has a live route for the filter. -/
def Router.Live (r : Router) (filter : Text) : Prop := ∃ nodeID, r.HasRoute filter nodeID

instance (r : Router) (filter : Text) : Decidable (r.Live filter) :=
  decidable_of_iff (∃ nodeID ∈ r.byNode.keys, r.HasRoute filter nodeID)
    ⟨fun ⟨nodeID, _, h⟩ => ⟨nodeID, h⟩, fun ⟨nodeID, h⟩ =>
      ⟨nodeID, AList.mem_keys.1 (RouteTables.mem_byNode_of_hasRoute h), h⟩⟩

/-- Some offline client with the filter is owned by a node. -/
def Router.Owned (r : Router) (filter : Text) : Prop :=
  ∃ nodeID clientID, r.offlineSharedOwners.Holds filter (sharedOwnerKey nodeID clientID)

/-- The group of a shared filter is served once in the whole cluster. With a live route, one node
gets the filter and no node selects an offline client; without one, one node selects one offline
client, and the publish reaches that node. -/
def ServedOnce (self topic filter : Text) : Prop :=
  ((caches self).Live filter →
    (∃! nodeID, filter ∈ receivedFilters (caches self) self topic nodeID) ∧
      ∀ nodeID clientID, ¬ Selects caches topic filter nodeID clientID) ∧
  (¬ (caches self).Live filter → (caches self).Owned filter →
    (∃! owner : Text × Text, Selects caches topic filter owner.1 owner.2) ∧
      ∀ nodeID clientID, Selects caches topic filter nodeID clientID →
        nodeID = self ∨ nodeID ∈ (caches self).forwardTargets self topic)

end Cluster

/-- The place of a shared filter in the index holds this spelling of it, for some node. -/
def Router.Kept (r : Router) (filter : Text) : Prop :=
  ∃ nodeID sub, r.index.shared.lookup (filterPath filter, shareGroup filter, nodeID) = some sub ∧
    sub.filter = filter

/-- The index finds the shared filter wherever it has to: the underlying filter does not cover the
topic as a parent level only, a live route has kept its place, and an underlying filter that owners
are looked up by is no shared filter itself. -/
structure Router.Routable (r : Router) (topic filter underlying : Text) : Prop where
  notParent : r.Live filter ∨ r.Owned filter → ¬ ParentMatch underlying topic
  kept : r.Live filter → r.Kept filter
  plain : ¬ r.Live filter → r.Owned filter → isSharedFilter underlying = false

/-! ### Live members -/

section Members

variable {r s : Router} {topic filter : Text}

theorem exists_isMember_iff (ht : topic ≠ []) :
    (∃ nodeID, TopicsIndex.IsMember (r.index.sharedEntries topic) filter nodeID) ↔
      r.Kept filter ∧ filterPath filter ∈ visit (levels topic) := by
  constructor
  · rintro ⟨_, ⟨nodeID, sub⟩, hsub, rfl, rfl⟩
    obtain ⟨hlookup, hvisit⟩ := (TopicsIndex.mem_sharedEntries ht).1 hsub
    exact ⟨⟨nodeID, sub, hlookup, rfl⟩, hvisit⟩
  · rintro ⟨⟨nodeID, sub, hlookup, rfl⟩, hvisit⟩
    exact ⟨nodeID, (nodeID, sub), (TopicsIndex.mem_sharedEntries ht).2 ⟨hlookup, hvisit⟩, rfl, rfl⟩

theorem mem_shared_subscribers_iff (ht : topic ≠ []) :
    filter ∈ (r.index.subscribers topic).shared ↔
      r.Kept filter ∧ filterPath filter ∈ visit (levels topic) := by
  rw [TopicsIndex.mem_shared_subscribers, ← exists_isMember_iff ht]
  constructor
  · rintro ⟨e, he, hfilter⟩
    exact ⟨e.1, e, he, rfl, hfilter⟩
  · rintro ⟨nodeID, e, he, -, hfilter⟩
    exact ⟨e, he, hfilter⟩

theorem Router.Kept.live (h : r.Kept filter) : r.Live filter := by
  obtain ⟨nodeID, sub, hlookup, rfl⟩ := h
  exact ⟨nodeID, r.ok.shared _ _ _ _ hlookup⟩

theorem Router.Agree.refl (r : Router) : r.Agree r :=
  ⟨fun _ => rfl, fun _ => rfl, fun _ _ => Iff.rfl, fun _ _ => Iff.rfl⟩

theorem Router.Agree.kept_iff (h : r.Agree s) : r.Kept filter ↔ s.Kept filter := by
  simp only [Router.Kept, h.shared]

theorem mem_receivedFilters {self nodeID : Text} :
    filter ∈ receivedFilters r self topic nodeID ↔
      (r.liveDeliveryPlan topic self).2.lookup filter = some nodeID := by
  have hplan : (r.fanOutPlan self topic).2 = (r.liveDeliveryPlan topic self).2 := rfl
  unfold receivedFilters
  constructor
  · intro hmem
    split_ifs at hmem with hreached
    · exact mem_sharedFiltersForNode.1 hmem
    · cases hmem
  · intro hlookup
    have hreached : nodeID = self ∨ nodeID ∈ r.forwardTargets self topic := by
      rcases r.index.subscriberRoutingPlan_cases topic self filter with
        ⟨hnone, -⟩ | ⟨node, hnode, -, hin, -⟩
      · cases hnone.symm.trans hlookup
      · cases hnode.symm.trans hlookup
        by_cases hself : nodeID = self
        · exact Or.inl hself
        · exact Or.inr (RouteTables.mem_forwardTargets.2 ⟨hself, Or.inl (hin.resolve_left hself)⟩)
    rw [if_pos hreached]
    exact mem_sharedFiltersForNode.2 hlookup

theorem existsUnique_received_iff (ht : topic ≠ []) (self : Text) :
    (∃! nodeID, filter ∈ receivedFilters r self topic nodeID) ↔
      r.Kept filter ∧ filterPath filter ∈ visit (levels topic) := by
  rw [← exists_isMember_iff ht]
  simp only [mem_receivedFilters]
  rcases r.index.subscriberRoutingPlan_cases topic self filter with
    ⟨hnone, hno⟩ | ⟨node, hnode, hmem, -⟩
  · refine iff_of_false ?_ fun ⟨nodeID, h⟩ => hno nodeID h
    rintro ⟨nodeID, hlookup, -⟩
    cases hnone.symm.trans hlookup
  · refine iff_of_true ⟨node, hnode, fun nodeID hlookup => ?_⟩ ⟨node, hmem⟩
    exact (Option.some.inj (hnode.symm.trans hlookup)).symm

end Members

/-! ### Offline members -/

section Offline

variable {r s : Router} {topic filter group underlying : Text}

theorem Router.Agree.lookup_offlineSharedSelections (h : r.Agree s) (ht : topic ≠ []) :
    (r.offlineSharedSelections topic).lookup filter =
      (s.offlineSharedSelections topic).lookup filter := by
  have howners := r.selectOwner_matchedOwners_congr ht (h.owners filter)
  have hlive : filter ∈ (r.index.subscribers topic).shared ↔
      filter ∈ (s.index.subscribers topic).shared := by
    rw [mem_shared_subscribers_iff ht, mem_shared_subscribers_iff ht, h.kept_iff]
  simp only [RouteTables.lookup_offlineSharedSelections, hlive, howners]

theorem Router.Owned.exists_sharedOwnerNode (hnodes : ∀ nodeID filter, r.HasRoute filter nodeID →
      nodeID ≠ [] ∧ keySep ∉ nodeID) (howned : r.Owned filter) :
    ∃ ownerKey owner, r.offlineSharedOwners.Holds filter ownerKey ∧
      sharedOwnerNode ownerKey = some owner := by
  obtain ⟨n, c, hholds⟩ := howned
  obtain ⟨t, nodeID, u, clientID, hroute, -, hkey⟩ := r.ok.owner _ _ hholds
  obtain ⟨hne, hsep⟩ := hnodes nodeID t hroute
  exact ⟨_, (nodeID, clientID), hholds, hkey ▸ sharedOwnerNode_sharedOwnerKey hne hsep clientID⟩

theorem exists_selectOwner_iff (ht : topic ≠ [])
    (hshared : sharedFilter filter = some (group, underlying))
    (hnodes : ∀ nodeID filter, r.HasRoute filter nodeID → nodeID ≠ [] ∧ keySep ∉ nodeID)
    (howned : r.Owned filter) :
    (∃ owner, selectOwner (r.matchedOwners topic filter) = some owner) ↔
      isSharedFilter underlying = false ∧ IndexMatch underlying topic := by
  constructor
  · rintro ⟨owner, howner⟩
    rcases selectOwner_spec (r.matchedOwners topic filter) with ⟨hnone, -⟩ | ⟨o, -, hleast⟩
    · cases hnone.symm.trans howner
    · obtain ⟨k, hk, -⟩ := hleast.1
      exact ((r.mem_matchedOwners ht hshared k).1 hk).1
  · intro hfound
    obtain ⟨k, owner, hholds, hparse⟩ := howned.exists_sharedOwnerNode hnodes
    have hk := (r.mem_matchedOwners ht hshared k).2 ⟨hfound, hholds⟩
    rcases selectOwner_spec (r.matchedOwners topic filter) with ⟨-, hempty⟩ | ⟨o, ho, -⟩
    · exact absurd (show toLex owner ∈ ownersOf _ from ⟨k, hk, hparse⟩)
        (hempty ▸ Set.notMem_empty _)
    · exact ⟨o, ho⟩

end Offline

/-! ### The cluster -/

section Cluster

variable {caches : Text → Router} {self filter group underlying : Text}

theorem selects_iff (hagree : ∀ n, (caches self).Agree (caches n)) {topic : Text} (ht : topic ≠ [])
    (nodeID clientID : Text) :
    Selects caches topic filter nodeID clientID ↔
      ((caches self).offlineSharedSelections topic).lookup filter = some (nodeID, clientID) := by
  rw [Selects, RouteTables.lookup_offlineDeliveryCandidates,
    (hagree nodeID).lookup_offlineSharedSelections ht]

theorem filterPath_mem_visit_iff (hshared : sharedFilter filter = some (group, underlying))
    {topic : TopicName} (hmatch : matchTopic underlying topic.text = true) :
    filterPath filter ∈ visit (levels topic.text) ↔ ¬ ParentMatch underlying topic.text := by
  rw [filterPath_of_sharedFilter hshared, ← indexMatch_iff_not_parentMatch hmatch]
  refine ⟨fun hvisit => ?_, And.left⟩
  rcases (matchTopic_iff topic).1 hmatch with hindex | hparent
  · exact hindex
  · exact absurd hparent.1 (not_parentOnly_of_mem_visit (noWildcard_levels topic.concrete) hvisit)

section Served

variable (hagree : ∀ n, (caches self).Agree (caches n))
  (hnodes : ∀ nodeID filter, (caches self).HasRoute filter nodeID → nodeID ≠ [] ∧ keySep ∉ nodeID)
  (hshared : sharedFilter filter = some (group, underlying)) {topic : TopicName}
  (hmatch : matchTopic underlying topic.text = true)

include hagree hshared hmatch

theorem servedLive_iff :
    ((∃! nodeID, filter ∈ receivedFilters (caches self) self topic.text nodeID) ∧
      ∀ nodeID clientID, ¬ Selects caches topic.text filter nodeID clientID) ↔
      (caches self).Kept filter ∧ ¬ ParentMatch underlying topic.text := by
  rw [existsUnique_received_iff topic.ne_nil self, filterPath_mem_visit_iff hshared hmatch]
  refine and_iff_left_of_imp fun hfound nodeID clientID hselects => ?_
  -- a live member suppresses the selection
  rw [selects_iff hagree topic.ne_nil, RouteTables.lookup_offlineSharedSelections, if_pos]
    at hselects
  · cases hselects
  · rw [mem_shared_subscribers_iff topic.ne_nil, filterPath_mem_visit_iff hshared hmatch]
    exact hfound

include hnodes

theorem servedOffline_iff (hlive : ¬ (caches self).Live filter)
    (howned : (caches self).Owned filter) :
    ((∃! owner : Text × Text, Selects caches topic.text filter owner.1 owner.2) ∧
      ∀ nodeID clientID, Selects caches topic.text filter nodeID clientID →
        nodeID = self ∨ nodeID ∈ (caches self).forwardTargets self topic.text) ↔
      isSharedFilter underlying = false ∧ ¬ ParentMatch underlying topic.text := by
  have hnotKept : filter ∉ ((caches self).index.subscribers topic.text).shared := by
    rw [mem_shared_subscribers_iff topic.ne_nil]
    exact fun h => hlive h.1.live
  have hlookup : ((caches self).offlineSharedSelections topic.text).lookup filter =
      selectOwner ((caches self).matchedOwners topic.text filter) := by
    rw [RouteTables.lookup_offlineSharedSelections, if_neg hnotKept]
  have hreached (nodeID clientID : Text)
      (h : Selects caches topic.text filter nodeID clientID) :
      nodeID = self ∨ nodeID ∈ (caches self).forwardTargets self topic.text := by
    rw [selects_iff hagree topic.ne_nil] at h
    by_cases hself : nodeID = self
    · exact Or.inl hself
    · refine Or.inr (RouteTables.mem_forwardTargets.2 ⟨hself, Or.inr ?_⟩)
      exact ((caches self).mem_offlineNodesFor _ _).2 (Or.inr ⟨filter, clientID, h⟩)
  rw [and_iff_left hreached, ← indexMatch_iff_not_parentMatch hmatch,
    ← exists_selectOwner_iff topic.ne_nil hshared hnodes howned, ← hlookup]
  simp only [selects_iff hagree topic.ne_nil]
  constructor
  · rintro ⟨owner, howner, -⟩
    exact ⟨owner, howner⟩
  · rintro ⟨owner, howner⟩
    exact ⟨owner, howner, fun owner' h => Option.some.inj (h.symm.trans howner)⟩

/-- A shared filter whose underlying filter matches the topic is served once in the whole cluster
exactly if it is routable. -/
theorem servedOnce_iff :
    ServedOnce caches self topic.text filter ↔
      (caches self).Routable topic.text filter underlying := by
  have hliveServed := servedLive_iff hagree hshared hmatch
  have hofflineServed := servedOffline_iff hagree hnodes hshared hmatch
  constructor
  · rintro ⟨hlive, hoffline⟩
    refine ⟨fun hany => ?_, fun h => (hliveServed.1 (hlive h)).1, fun h howned =>
      ((hofflineServed h howned).1 (hoffline h howned)).1⟩
    by_cases h : (caches self).Live filter
    · exact (hliveServed.1 (hlive h)).2
    · have howned := hany.resolve_left h
      exact ((hofflineServed h howned).1 (hoffline h howned)).2
  · intro hroutable
    refine ⟨fun h => hliveServed.2 ⟨hroutable.kept h, hroutable.notParent (Or.inl h)⟩,
      fun h howned => ?_⟩
    exact (hofflineServed h howned).2
      ⟨hroutable.plain h howned, hroutable.notParent (Or.inr howned)⟩

end Served

end Cluster

/-! ### Groups that nobody serves -/

section Unserved

variable {r : Router} {self topic filter : Text}

theorem not_servedOnce_of_live (hlive : r.Live filter)
    (hnone : (r.liveDeliveryPlan topic self).2.lookup filter = none) :
    ¬ ServedOnce (fun _ => r) self topic filter := by
  rintro ⟨hserved, -⟩
  obtain ⟨nodeID, hreceived, -⟩ := (hserved hlive).1
  cases hnone.symm.trans (mem_receivedFilters.1 hreceived)

theorem not_servedOnce_of_owned (nodeID clientID : Text)
    (h : ¬ r.Live filter ∧ r.offlineSharedOwners.Holds filter (sharedOwnerKey nodeID clientID) ∧
      (r.offlineSharedSelections topic).lookup filter = none) :
    ¬ ServedOnce (fun _ => r) self topic filter := by
  obtain ⟨hlive, howned, hnone⟩ := h
  rintro ⟨-, hserved⟩
  obtain ⟨⟨n, c⟩, hselects, -⟩ := (hserved hlive ⟨nodeID, clientID, howned⟩).1
  cases hnone.symm.trans (RouteTables.lookup_offlineDeliveryCandidates.1 hselects)

end Unserved

/-- A cache with live routes and offline owners of shared filters on the node `B`. -/
def cacheOf (live owned : List Text) : Router :=
  .reconcile ((live ++ owned.map (ownershipKey ['c'])).map (routeKey · ['B']))

/-- On node `A`, a publish on `a/b` serves no member of a group with the filter `a/+/#`, live or
offline, although the filter matches. A live group with the filter `a` is lost when the same node
registers it in another spelling of `$share`, and an offline one whose underlying filter is spelled
like a shared filter is not found. -/
theorem not_servedOnce :
    (matchTopic "a/+/#".toList "a/b".toList = true ∧
      ¬ ServedOnce (fun _ => cacheOf ["$share/g/a/+/#".toList] []) ['A'] "a/b".toList
        "$share/g/a/+/#".toList ∧
      ¬ ServedOnce (fun _ => cacheOf [] ["$share/g/a/+/#".toList]) ['A'] "a/b".toList
        "$share/g/a/+/#".toList) ∧
    ¬ ServedOnce (fun _ => cacheOf ["$share/g/a".toList, "$SHARE/g/a".toList] []) ['A'] ['a']
      "$share/g/a".toList ∧
    ¬ ServedOnce (fun _ => cacheOf [] ["$share/g/$share/h/a".toList]) ['A'] "$share/h/a".toList
      "$share/g/$share/h/a".toList := by
  refine ⟨⟨by decide +kernel, ?_, ?_⟩, ?_, ?_⟩
  · exact not_servedOnce_of_live (by decide +kernel) (by decide +kernel)
  · exact not_servedOnce_of_owned ['B'] ['c'] (by decide +kernel)
  · exact not_servedOnce_of_live (by decide +kernel) (by decide +kernel)
  · exact not_servedOnce_of_owned ['B'] ['c'] (by decide +kernel)

/-- A live group with the filter `a/+` is served once, and so is an offline one. -/
theorem servedOnce_plus :
    ServedOnce (fun _ => cacheOf ["$share/g/a/+".toList] ["$share/g/a/+".toList]) ['A']
        "a/b".toList "$share/g/a/+".toList ∧
      ServedOnce (fun _ => cacheOf [] ["$share/g/a/+".toList]) ['A'] "a/b".toList
        "$share/g/a/+".toList := by
  have hnodes {r : Router} (h : ∀ nodeID ∈ r.byNode.keys, nodeID ≠ [] ∧ keySep ∉ nodeID)
      (nodeID filter : Text) (hroute : r.HasRoute filter nodeID) : nodeID ≠ [] ∧ keySep ∉ nodeID :=
    h nodeID (AList.mem_keys.1 (RouteTables.mem_byNode_of_hasRoute hroute))
  have hshared : sharedFilter "$share/g/a/+".toList = some (['g'], "a/+".toList) := by
    decide +kernel
  let topic : TopicName := ⟨"a/b".toList, by decide, by decide⟩
  have hmatch : matchTopic "a/+".toList topic.text = true := by decide +kernel
  have hparent : ¬ ParentMatch "a/+".toList topic.text :=
    not_parentMatch_of_indexMatch (by decide +kernel)
  constructor
  · have hkept : (cacheOf ["$share/g/a/+".toList] ["$share/g/a/+".toList]).Kept
        "$share/g/a/+".toList :=
      ⟨['B'], { filter := "$share/g/a/+".toList }, by decide +kernel, rfl⟩
    exact (servedOnce_iff (fun _ => .refl _) (hnodes (by decide +kernel)) hshared hmatch).2
      ⟨fun _ => hparent, fun _ => hkept, fun h => absurd hkept.live h⟩
  · have hoffline : (∀ nodeID ∈ (cacheOf [] ["$share/g/a/+".toList]).byNode.keys,
        nodeID ≠ [] ∧ keySep ∉ nodeID) ∧
          ¬ (cacheOf [] ["$share/g/a/+".toList]).Live "$share/g/a/+".toList := by
      decide +kernel
    exact (servedOnce_iff (fun _ => .refl _) (hnodes hoffline.1) hshared hmatch).2
      ⟨fun _ => hparent, fun h => absurd h hoffline.2, fun _ _ => by decide +kernel⟩

end KeelGateway.Routing
