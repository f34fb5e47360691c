import KeelGateway.Routing.DeliveryPlan

/-!
# The topics index and the matcher of the ACL engine

Live routes and offline routes are found by the topics index. Which of its owned clients a node
queues for is decided by `MatchTopic` on the filters of the ownership keys. A publisher therefore
reaches an owner only as far as the two agree. They differ on the parent level of a final `/+/#`:
`MatchTopic` lets the `#` match no level there, and the scan of the index does not look for a `#`
below a `+` at the last level of a topic.

-/

namespace KeelGateway.Routing

open Acl Mochi

/-- The index reports a subscriber of the filter for the topic. -/
def IndexReports (x : TopicsIndex) (filter client topic : Text) : Prop :=
  ∃ sub : Subscription, sub.filter = filter ∧ (client, sub) ∈ x.ordinaryEntries topic

/-- Every index reports its subscribers of the filter for the topic exactly if the matcher of the
ACL engine accepts the filter. -/
def IndexAgrees (filter topic : Text) : Prop :=
  ∀ (x : TopicsIndex) (client : Text), (levels filter, client) ∈ x.subscriptions →
    (IndexReports x filter client topic ↔ matchTopic filter topic = true)

/-- Every node with an ownership key for the filter that makes its client a candidate, and with the
offline route that `Place` registers beside it, is among the offline nodes of the topic. -/
def OfflineAgrees (filter topic : Text) : Prop :=
  ∀ (r : Router) (key nodeID clientID : Text), r.HasRoute key nodeID →
    ownershipKeyParts key = some (clientID, filter) → r.HasRoute (offlineRouteKey filter) nodeID →
    matchTopic filter topic = true →
    clientID ∈ (r.offlineDeliveryCandidates topic nodeID).1 ∧ nodeID ∈ r.offlineNodesFor topic

variable {filter : Text}

theorem indexReports_iff_indexMatch {x : TopicsIndex} {client topic : Text}
    (ht : topic ≠ []) (hmem : (levels filter, client) ∈ x.subscriptions) :
    IndexReports x filter client topic ↔ IndexMatch filter topic := by
  constructor
  · rintro ⟨sub, rfl, hsub⟩
    exact ((TopicsIndex.mem_ordinaryEntries ht).1 hsub).2
  · intro hmatch
    obtain ⟨sub, hlookup⟩ := GoMap.mem_iff_exists_lookup.1 hmem
    obtain ⟨hplain, hpath⟩ := x.subscriptions_path _ _ _ hlookup
    rw [filterPath_of_isSharedFilter_eq_false hplain] at hpath
    obtain rfl := levels_injective hpath
    exact ⟨sub, rfl, (TopicsIndex.mem_ordinaryEntries ht).2 ⟨hlookup, hmatch⟩⟩

private theorem indexAgrees_of_indexMatch_iff {topic : Text} (ht : topic ≠ [])
    (h : IndexMatch filter topic ↔ matchTopic filter topic = true) : IndexAgrees filter topic :=
  fun _ _ hmem => (indexReports_iff_indexMatch ht hmem).trans h

theorem offlineAgrees_of_indexMatch {topic : Text} (hplain : isSharedFilter filter = false)
    (h : matchTopic filter topic = true → IndexMatch filter topic) :
    OfflineAgrees filter topic := by
  intro r key nodeID clientID hkey hparts hhint hmatch
  have hshared : sharedFilter filter = none := by
    by_contra hsome
    obtain ⟨⟨group, underlying⟩, hsome⟩ := Option.ne_none_iff_exists'.1 hsome
    rw [isSharedFilter_of_sharedFilter hsome] at hplain
    cases hplain
  have hroute : isSharedFilter (offlineRouteKey filter) = false := by
    rw [isSharedFilter_of_levels (levels_offlineRouteKey _)]
    decide
  refine ⟨RouteTables.mem_offlineDeliveryCandidates.2
    (Or.inl ⟨key, filter, hkey, hparts, hshared, hmatch⟩), ?_⟩
  exact (r.mem_offlineNodesFor topic nodeID).2
    (Or.inl ⟨_, hroute, hhint, indexMatch_offlineRouteKey (h hmatch)⟩)

/-- The two matchers agree on a filter exactly if the topic is not the parent level of its final
`/+/#`. Then a publisher finds every node that has a candidate. -/
theorem agrees_iff_not_parentMatch (hplain : isSharedFilter filter = false) (topic : TopicName) :
    (IndexAgrees filter topic.text ↔ ¬ ParentMatch filter topic.text) ∧
      (¬ ParentMatch filter topic.text → OfflineAgrees filter topic.text) := by
  have hiff (hparent : ¬ ParentMatch filter topic.text) :
      IndexMatch filter topic.text ↔ matchTopic filter topic.text = true := by
    rw [matchTopic_iff topic]
    exact (or_iff_left hparent).symm
  refine ⟨⟨fun hagrees hparent => ?_, fun hparent => ?_⟩, fun hparent => ?_⟩
  · -- an index with a single subscriber of the filter does not report it
    have hmem : (levels filter, ['c']) ∈
        (TopicsIndex.empty.subscribe ['c'] { filter := filter }).subscriptions := by
      rw [TopicsIndex.mem_subscriptions_subscribe, filterPath_of_isSharedFilter_eq_false hplain]
      exact Or.inr ⟨hplain, rfl⟩
    have hmatch : matchTopic filter topic.text = true := (matchTopic_iff topic).2 (Or.inr hparent)
    have hreports := (hagrees _ ['c'] hmem).2 hmatch
    exact not_parentMatch_of_indexMatch
      ((indexReports_iff_indexMatch topic.ne_nil hmem).1 hreports) hparent
  · exact indexAgrees_of_indexMatch_iff topic.ne_nil (hiff hparent)
  · exact offlineAgrees_of_indexMatch hplain (hiff hparent).2

private theorem twoLevel_ne_nil : "a/b".toList ≠ [] := by decide

private theorem concrete_twoLevel : Concrete "a/b".toList := by decide

/-- The topic `a/b`. -/
def twoLevelTopic : TopicName := ⟨"a/b".toList, twoLevel_ne_nil, concrete_twoLevel⟩

/-- The filter `a/#` is found for `a/b` by both. -/
theorem agrees_subtree :
    isSharedFilter "a/#".toList = false ∧ IndexAgrees "a/#".toList twoLevelTopic.text ∧
      OfflineAgrees "a/#".toList twoLevelTopic.text := by
  have hplain : isSharedFilter "a/#".toList = false := by decide
  have hparent : ¬ ParentMatch "a/#".toList twoLevelTopic.text :=
    not_parentMatch_of_indexMatch (by decide)
  have h := agrees_iff_not_parentMatch hplain twoLevelTopic
  exact ⟨hplain, h.1.2 hparent, h.2 hparent⟩

/-- A cache with the two routes that `Place` registers for a client, a filter and an owner. -/
def placedCache (clientID filter nodeID : Text) : Router :=
  .reconcile [routeKey (ownershipKey clientID filter) nodeID,
    routeKey (offlineRouteKey filter) nodeID]

/-- For `a/b` the matcher accepts `a/+/#`, and its subscriber is not reported. The client is a
candidate of its owner, and a publisher does not find the owner. -/
theorem not_agrees_parent_level :
    isSharedFilter "a/+/#".toList = false ∧
      matchTopic "a/+/#".toList twoLevelTopic.text = true ∧
      ((TopicsIndex.empty.subscribe ['c'] { filter := "a/+/#".toList }).subscribers
        twoLevelTopic.text).subscriptions.keys = [] ∧
      ['c'] ∈ ((placedCache ['c'] "a/+/#".toList ['n']).offlineDeliveryCandidates
        twoLevelTopic.text ['n']).1 ∧
      (placedCache ['c'] "a/+/#".toList ['n']).offlineNodesFor twoLevelTopic.text = [] := by
  decide +kernel

end KeelGateway.Routing
