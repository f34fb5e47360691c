import KeelGateway.Lib.Base64
import KeelGateway.Mochi.Subscribers

/-!
# The routing cache of a node

The cluster keeps its routes in a store, one key for every pair of a filter and a node. Every node
holds a cache of them: a topics index with node IDs in the place of clients, the filters of every
node, and an index of the offline owners of every shared filter. The cache is rebuilt from a scan of
the store, and in between it follows the events of the other nodes.

Three kinds of routes share the table. A live route is a filter that a client of the node
subscribes to. An ownership key names a client and one of its filters, and says that the node keeps
messages for the client while it is offline. An offline route is a hint for publishers that some
client with the filter is owned by the node.

-/

namespace KeelGateway.Routing

open Acl Mochi

/-! ### Keys -/

/-- `keySep`. -/
def keySep : Char := '\x00'

/-- `ownershipKeyPrefix`. -/
def ownershipKeyPrefix : Text := "$offline/".toList

/-- `OwnershipKey`. -/
def ownershipKey (clientID filter : Text) : Text :=
  ownershipKeyPrefix ++ Base64.encode (Base64.utf8 (clientID ++ keySep :: filter))

/-- `ownershipKeyParts`: the client and the filter of an ownership key. -/
def ownershipKeyParts (key : Text) : Option (Text × Text) :=
  if ownershipKeyPrefix.isPrefixOf key then
    match Base64.decode (key.drop ownershipKeyPrefix.length) with
    | none => none
    | some raw =>
      match (Base64.text raw).span (· != keySep) with
      | (_, []) => none
      | (_, [_]) => none
      | (clientID, _ :: filter) => some (clientID, filter)
  else none

/-- `offlineRoutePrefix`. -/
def offlineRoutePrefix : Text := "$offlineroute/".toList

/-- `OfflineRouteKey`. -/
def offlineRouteKey (filter : Text) : Text := offlineRoutePrefix ++ filter

/-- `routeKey`: the key of a route in the store. -/
def routeKey (topic nodeID : Text) : Text := topic ++ keySep :: nodeID

/-- `parseRouteKey`: the filter and the node of a key, which is cut at its last separator. -/
def parseRouteKey (key : Text) : Option (Text × Text) :=
  match key.reverse.span (· != keySep) with
  | (_, []) => none
  | (nodeID, _ :: topic) => some (topic.reverse, nodeID.reverse)

/-- `sharedOwnerKey`. -/
def sharedOwnerKey (nodeID clientID : Text) : Text := nodeID ++ keySep :: clientID

/-- `sharedOwnerNode`, with the client that the caller cuts out of the key. -/
def sharedOwnerNode (key : Text) : Option (Text × Text) :=
  match key.span (· != keySep) with
  | (_, []) => none
  | ([], _ :: _) => none
  | (nodeID, _ :: clientID) => some (nodeID, clientID)

theorem span_keySep {a : Text} (ha : keySep ∉ a) (b : Text) :
    (a ++ keySep :: b).span (· != keySep) = (a, keySep :: b) :=
  span_ne ha b

theorem eq_of_span_keySep {raw a b : Text} {c : Char}
    (h : raw.span (· != keySep) = (a, c :: b)) : raw = a ++ keySep :: b ∧ keySep ∉ a := by
  rw [List.span_eq_takeWhile_dropWhile, Prod.mk.injEq] at h
  obtain ⟨rfl, hdrop⟩ := h
  have hhead := List.head?_dropWhile_not (· != keySep) raw
  rw [hdrop] at hhead
  have hc : c = keySep := by simpa using hhead
  have happend := List.takeWhile_append_dropWhile (p := (· != keySep)) (l := raw)
  rw [hdrop, hc] at happend
  exact ⟨happend.symm, fun hmem => by simpa using List.mem_takeWhile_imp hmem⟩

theorem ownershipKeyParts_ownershipKey {clientID filter : Text} (hclient : keySep ∉ clientID)
    (hfilter : filter ≠ []) :
    ownershipKeyParts (ownershipKey clientID filter) = some (clientID, filter) := by
  have hdrop : (ownershipKey clientID filter).drop ownershipKeyPrefix.length =
      Base64.encode (Base64.utf8 (clientID ++ keySep :: filter)) := List.drop_left
  have hprefix : ownershipKeyPrefix.isPrefixOf (ownershipKey clientID filter) = true :=
    List.isPrefixOf_iff_prefix.2 (List.prefix_append _ _)
  rw [ownershipKeyParts, if_pos hprefix, hdrop, Base64.decode_encode]
  simp only [Base64.text_utf8, span_keySep hclient]

theorem sharedOwnerNode_sharedOwnerKey {nodeID : Text} (hne : nodeID ≠ []) (hsep : keySep ∉ nodeID)
    (clientID : Text) :
    sharedOwnerNode (sharedOwnerKey nodeID clientID) = some (nodeID, clientID) := by
  obtain ⟨c, rest, rfl⟩ := List.exists_cons_of_ne_nil hne
  rw [sharedOwnerNode, sharedOwnerKey, span_keySep hsep]

theorem parseRouteKey_routeKey {nodeID : Text} (hsep : keySep ∉ nodeID) (topic : Text) :
    parseRouteKey (routeKey topic nodeID) = some (topic, nodeID) := by
  have hreverse : (routeKey topic nodeID).reverse =
      nodeID.reverse ++ keySep :: topic.reverse := by
    simp [routeKey]
  rw [parseRouteKey, hreverse, span_keySep (by simpa using hsep)]
  simp

theorem parseRouteKey_eq_some {key topic nodeID : Text} :
    parseRouteKey key = some (topic, nodeID) ↔ key = routeKey topic nodeID ∧ keySep ∉ nodeID := by
  constructor
  · intro h
    unfold parseRouteKey at h
    split at h
    · cases h
    · next node sep front hspan =>
      cases h
      obtain ⟨hkey, hsep⟩ := eq_of_span_keySep hspan
      exact ⟨by simpa [routeKey] using congrArg List.reverse hkey, by simpa using hsep⟩
  · rintro ⟨rfl, hsep⟩
    exact parseRouteKey_routeKey hsep topic

theorem notMem_of_ownershipKeyParts {key clientID filter : Text}
    (h : ownershipKeyParts key = some (clientID, filter)) : keySep ∉ clientID := by
  unfold ownershipKeyParts at h
  split_ifs at h
  split at h
  · cases h
  · split at h
    · cases h
    · cases h
    · next hspan =>
      cases h
      exact (eq_of_span_keySep hspan).2

theorem levels_ownershipKey (clientID filter : Text) :
    levels (ownershipKey clientID filter) = "$offline".toList ::
      levels (Base64.encode (Base64.utf8 (clientID ++ keySep :: filter))) := by
  rfl

theorem levels_offlineRouteKey (filter : Text) :
    levels (offlineRouteKey filter) = "$offlineroute".toList :: levels filter := by
  rfl

theorem indexMatch_offlineRouteKey {filter topic : Text} (h : IndexMatch filter topic) :
    IndexMatch (offlineRouteKey filter) (offlineRouteKey topic) := by
  refine ⟨?_, ?_⟩
  · rw [levels_offlineRouteKey, mem_visit_cons (levels_ne_nil topic)]
    exact Or.inl ⟨levels filter, rfl, h.1⟩
  · have hhead : (offlineRouteKey filter).head? = some '$' := rfl
    simp [Mochi.hidden, hhead]

/-! ### Tables -/

/-- What the tables do with a topics index. -/
class SubscriberIndex (I : Type) where
  empty : I
  subscribe : I → (subscriber filter : Text) → I
  unsubscribe : I → (filter subscriber : Text) → I

/-- The topics index of the broker. -/
instance : SubscriberIndex TopicsIndex where
  empty := .empty
  subscribe idx subscriber filter := idx.subscribe subscriber { filter := filter }
  unsubscribe idx filter subscriber := idx.unsubscribe filter subscriber

/-- The maps of `Router`, over any index. The router has the topics index of the broker. -/
structure RouteTables (I : Type) where
  index : I
  byNode : GoMap Text (GoMap Text Unit)
  offlineShared : GoMap Text I
  offlineSharedOwners : GoMap Text (GoMap Text Unit)

namespace RouteTables

variable {I : Type} [SubscriberIndex I]

/-- The empty cache. -/
def empty : RouteTables I := ⟨SubscriberIndex.empty, ∅, ∅, ∅⟩

variable (r : RouteTables I)

/-- The node has registered the filter. -/
def HasRoute (topic nodeID : Text) : Prop := r.byNode.Holds nodeID topic

instance (topic nodeID : Text) : Decidable (r.HasRoute topic nodeID) :=
  inferInstanceAs (Decidable (r.byNode.Holds nodeID topic))

omit [SubscriberIndex I] in
theorem mem_byNode_of_hasRoute {r : RouteTables I} {topic nodeID : Text}
    (h : r.HasRoute topic nodeID) : nodeID ∈ r.byNode :=
  GoMap.mem_of_holds h

/-- `topicsForNodeLocked`. -/
def topicsForNode (nodeID : Text) : List Text := ((r.byNode.lookup nodeID).getD ∅).keys

/-- The owner that an ownership key of a shared filter stands for: the filter, what is below
`$share/<group>/`, and the client. -/
def sharedOwnership (topic : Text) : Option (Text × Text × Text) :=
  (ownershipKeyParts topic).bind fun (clientID, filter) =>
    (sharedFilter filter).map fun (_, underlying) => (filter, underlying, clientID)

/-- The part of an update that concerns every route. -/
def register (topic nodeID : Text) : RouteTables I :=
  { r with
    byNode := r.byNode.addTo nodeID topic
    index := SubscriberIndex.subscribe r.index nodeID topic }

/-- The index of the owners of a shared filter; a missing one is created. -/
def ownerIndex (filter : Text) : I := (r.offlineShared.lookup filter).getD SubscriberIndex.empty

/-- An owner enters the set and the index of a shared filter. -/
def putOwner (filter underlying ownerKey : Text) : RouteTables I :=
  { r with
    offlineShared := r.offlineShared.insert filter
      (SubscriberIndex.subscribe (r.ownerIndex filter) ownerKey underlying)
    offlineSharedOwners := r.offlineSharedOwners.addTo filter ownerKey }

/-- `addOfflineSharedOwnershipLocked`. -/
def addOfflineSharedOwnership (topic nodeID : Text) : RouteTables I :=
  match sharedOwnership topic with
  | none => r
  | some (filter, underlying, clientID) =>
    let ownerKey := sharedOwnerKey nodeID clientID
    if r.offlineSharedOwners.Holds filter ownerKey then
      { r with offlineShared := r.offlineShared.insert filter (r.ownerIndex filter) }
    else r.putOwner filter underlying ownerKey

/-- `addLocalLocked`. -/
def addLocal (topic nodeID : Text) : RouteTables I :=
  (r.register topic nodeID).addOfflineSharedOwnership topic nodeID

/-- An owner leaves the set and the index of a shared filter. When the last owner goes, both go. -/
def dropOwner (idx : I) (filter underlying ownerKey : Text) : RouteTables I :=
  let owners := r.offlineSharedOwners.removeFrom filter ownerKey
  { r with
    offlineShared :=
      if filter ∈ r.offlineSharedOwners ∧ filter ∉ owners then r.offlineShared.erase filter
      else r.offlineShared.insert filter (SubscriberIndex.unsubscribe idx underlying ownerKey)
    offlineSharedOwners := owners }

/-- `removeOfflineSharedOwnershipLocked`. -/
def removeOfflineSharedOwnership (topic nodeID : Text) : RouteTables I :=
  match sharedOwnership topic with
  | none => r
  | some (filter, underlying, clientID) =>
    match r.offlineShared.lookup filter with
    | none => r
    | some idx => r.dropOwner idx filter underlying (sharedOwnerKey nodeID clientID)

/-- The part of a removal that concerns every route. -/
def deregister (topic nodeID : Text) : RouteTables I :=
  { r with
    byNode := r.byNode.removeFrom nodeID topic
    index := SubscriberIndex.unsubscribe r.index topic nodeID }

/-- `removeLocalLocked`. -/
def removeLocal (topic nodeID : Text) : RouteTables I :=
  (r.deregister topic nodeID).removeOfflineSharedOwnership topic nodeID

/-- The removals of a batch. -/
def removeAll (topics : List Text) (nodeID : Text) : RouteTables I :=
  topics.foldl (fun r topic => r.removeLocal topic nodeID) r

/-- One key of the scan of `reconcile`. -/
def reconcileKey (key : Text) : RouteTables I :=
  match parseRouteKey key with
  | none => r
  | some (topic, nodeID) =>
    match sharedOwnership topic with
    | none => r.register topic nodeID
    | some (filter, underlying, clientID) =>
      (r.register topic nodeID).putOwner filter underlying (sharedOwnerKey nodeID clientID)

/-- `reconcile`: the tables that a scan of the store gives, whatever was there before. -/
def reconcile (scan : List Text) : RouteTables I := scan.foldl reconcileKey empty

end RouteTables

/-- `routeEvent`. -/
inductive RouteEvent where
  | subscribe (topic nodeID : Text)
  | unsubscribe (topic nodeID : Text)
  | unsubscribeBatch (topics : List Text) (nodeID : Text)
  | purgeNode (nodeID : Text)

/-- `applyEvent`. -/
def RouteTables.applyEvent {I : Type} [SubscriberIndex I] (r : RouteTables I) :
    RouteEvent → RouteTables I
  | .subscribe topic nodeID => r.addLocal topic nodeID
  | .unsubscribe topic nodeID => r.removeLocal topic nodeID
  | .unsubscribeBatch topics nodeID => r.removeAll topics nodeID
  | .purgeNode nodeID => r.removeAll (r.topicsForNode nodeID) nodeID

/-! ### Routes -/

namespace RouteTables

section Routes

variable {I : Type} [SubscriberIndex I] {r : RouteTables I} {topic nodeID filter n : Text}

omit [SubscriberIndex I] in
theorem mem_topicsForNode : topic ∈ r.topicsForNode nodeID ↔ r.HasRoute topic nodeID :=
  AList.mem_keys.symm

theorem hasRoute_register :
    (r.register topic nodeID).HasRoute filter n ↔
      r.HasRoute filter n ∨ (filter = topic ∧ n = nodeID) := by
  rw [HasRoute, register, GoMap.holds_addTo, and_comm]
  rfl

theorem hasRoute_deregister :
    (r.deregister topic nodeID).HasRoute filter n ↔
      r.HasRoute filter n ∧ ¬ (filter = topic ∧ n = nodeID) := by
  rw [HasRoute, deregister, GoMap.holds_removeFrom, and_comm (a := filter = topic)]
  rfl

private theorem hasRoute_reconcileKey {key : Text} :
    (r.reconcileKey key).HasRoute filter n ↔
      r.HasRoute filter n ∨ parseRouteKey key = some (filter, n) := by
  unfold reconcileKey
  cases hkey : parseRouteKey key with
  | none => simp
  | some route =>
    obtain ⟨topic, nodeID⟩ := route
    have hroute : (r.register topic nodeID).HasRoute filter n ↔
        r.HasRoute filter n ∨ some (topic, nodeID) = some (filter, n) := by
      rw [hasRoute_register, Option.some.injEq, Prod.mk.injEq, eq_comm,
        eq_comm (a := n)]
    dsimp only
    split
    · exact hroute
    · exact hroute

theorem hasRoute_reconcile (scan : List Text) (filter n : Text) :
    (reconcile scan : RouteTables I).HasRoute filter n ↔
      ∃ key ∈ scan, parseRouteKey key = some (filter, n) := by
  unfold reconcile
  induction scan using List.reverseRecOn with
  | nil => simp [HasRoute, empty, GoMap.Holds]
  | append_singleton scan key ih =>
    rw [List.foldl_append, List.foldl_cons, List.foldl_nil, hasRoute_reconcileKey, ih]
    simp only [List.mem_append, List.mem_singleton, or_and_right, exists_or, exists_eq_left]

end Routes

end RouteTables

/-! ### Order of the tables -/

/-- An index holds the owners of a shared filter, under its underlying filter. An underlying filter
that is itself spelled like a shared one is never found among the ordinary subscriptions. -/
def OwnerIndex (owners : GoMap Text (GoMap Text Unit)) (filter underlying : Text)
    (idx : TopicsIndex) : Prop :=
  ∀ path ownerKey, (path, ownerKey) ∈ idx.subscriptions ↔
    isSharedFilter underlying = false ∧ path = levels underlying ∧ owners.Holds filter ownerKey

namespace OwnerIndex

variable {owners : GoMap Text (GoMap Text Unit)} {filter underlying : Text} {idx : TopicsIndex}

theorem empty (h : ∀ ownerKey, ¬ owners.Holds filter ownerKey) :
    OwnerIndex owners filter underlying .empty := by
  intro path ownerKey
  simp [TopicsIndex.empty, h]

theorem subscribe (h : OwnerIndex owners filter underlying idx) (ownerKey : Text) :
    OwnerIndex (owners.addTo filter ownerKey) filter underlying
      (idx.subscribe ownerKey { filter := underlying }) := by
  intro path k
  rw [TopicsIndex.mem_subscriptions_subscribe, h path k, GoMap.holds_addTo]
  cases hu : isSharedFilter underlying with
  | true => simp
  | false =>
    rw [filterPath_of_isSharedFilter_eq_false hu]
    simp
    tauto

theorem unsubscribe (h : OwnerIndex owners filter underlying idx) (ownerKey : Text) :
    OwnerIndex (owners.removeFrom filter ownerKey) filter underlying
      (idx.unsubscribe underlying ownerKey) := by
  intro path k
  rw [TopicsIndex.mem_subscriptions_unsubscribe, h path k, GoMap.holds_removeFrom]
  cases hu : isSharedFilter underlying with
  | true => simp
  | false =>
    rw [filterPath_of_isSharedFilter_eq_false hu]
    simp
    tauto

theorem congr {owners' : GoMap Text (GoMap Text Unit)} (h : OwnerIndex owners filter underlying idx)
    (howners : ∀ ownerKey, owners'.Holds filter ownerKey ↔ owners.Holds filter ownerKey) :
    OwnerIndex owners' filter underlying idx := by
  intro path k
  rw [h path k, howners]

end OwnerIndex

namespace RouteTables

/-- What the tables have to do with each other. The index holds every ordinary route. Of shared
routes it may lack some: two spellings of `$share` have one place in it. -/
structure Ok (r : RouteTables TopicsIndex) : Prop where
  ordinary : ∀ path nodeID, (path, nodeID) ∈ r.index.subscriptions ↔
    ∃ filter, isSharedFilter filter = false ∧ path = levels filter ∧ r.HasRoute filter nodeID
  shared : ∀ path group nodeID sub, r.index.shared.lookup (path, group, nodeID) = some sub →
    r.HasRoute sub.filter nodeID
  owner : ∀ filter ownerKey, r.offlineSharedOwners.Holds filter ownerKey →
    ∃ topic nodeID underlying clientID, r.HasRoute topic nodeID ∧
      sharedOwnership topic = some (filter, underlying, clientID) ∧
      ownerKey = sharedOwnerKey nodeID clientID
  indexed : ∀ filter ownerKey, r.offlineSharedOwners.Holds filter ownerKey →
    filter ∈ r.offlineShared
  offline : ∀ filter idx, r.offlineShared.lookup filter = some idx →
    ∃ group underlying, sharedFilter filter = some (group, underlying) ∧
      OwnerIndex r.offlineSharedOwners filter underlying idx

theorem ok_empty : Ok empty where
  ordinary path nodeID := by
    simp [empty, SubscriberIndex.empty, TopicsIndex.empty, HasRoute, GoMap.Holds]
  shared path group nodeID sub h := by
    simp [empty, SubscriberIndex.empty, TopicsIndex.empty] at h
  owner filter ownerKey h := by simp [empty, GoMap.Holds] at h
  indexed filter ownerKey h := by simp [empty, GoMap.Holds] at h
  offline filter idx h := by simp [empty] at h

theorem sharedOwnership_eq_some {topic filter underlying clientID : Text} :
    sharedOwnership topic = some (filter, underlying, clientID) ↔
      ownershipKeyParts topic = some (clientID, filter) ∧
        ∃ group, sharedFilter filter = some (group, underlying) := by
  simp only [sharedOwnership, Option.bind_eq_some_iff, Option.map_eq_some_iff, Prod.exists,
    Prod.mk.injEq]
  constructor
  · rintro ⟨c, f, hparts, g, u, hshared, rfl, rfl, rfl⟩
    exact ⟨hparts, g, hshared⟩
  · rintro ⟨hparts, g, hshared⟩
    exact ⟨clientID, filter, hparts, g, underlying, hshared, rfl, rfl, rfl⟩

theorem Ok.ownerIndex {r : RouteTables TopicsIndex} (h : r.Ok) {filter group underlying : Text}
    (hshared : sharedFilter filter = some (group, underlying)) :
    OwnerIndex r.offlineSharedOwners filter underlying (r.ownerIndex filter) := by
  unfold RouteTables.ownerIndex
  cases hidx : r.offlineShared.lookup filter with
  | none =>
    exact OwnerIndex.empty fun k hk => AList.lookup_eq_none.1 hidx (h.indexed filter k hk)
  | some idx =>
    obtain ⟨g, u, hu, hok⟩ := h.offline filter idx hidx
    rw [hshared] at hu
    cases hu
    exact hok

section Updates

variable {r : RouteTables TopicsIndex} {topic nodeID filter : Text}

theorem Ok.register (h : r.Ok) (topic nodeID : Text) : (r.register topic nodeID).Ok where
  ordinary path n := by
    simp only [hasRoute_register]
    have hindex : (r.register topic nodeID).index =
        r.index.subscribe nodeID { filter := topic } := rfl
    rw [hindex, TopicsIndex.mem_subscriptions_subscribe, h.ordinary, Prod.mk.injEq]
    constructor
    · rintro (⟨f, hf, hpath, hroute⟩ | ⟨hf, rfl, rfl⟩)
      · exact ⟨f, hf, hpath, Or.inl hroute⟩
      · exact ⟨topic, hf, filterPath_of_isSharedFilter_eq_false hf, Or.inr ⟨rfl, rfl⟩⟩
    · rintro ⟨f, hf, hpath, hroute | ⟨rfl, rfl⟩⟩
      · exact Or.inl ⟨f, hf, hpath, hroute⟩
      · exact Or.inr ⟨hf, hpath.trans (filterPath_of_isSharedFilter_eq_false hf).symm, rfl⟩
  shared path group n sub hsub := by
    have hindex : (r.register topic nodeID).index =
        r.index.subscribe nodeID { filter := topic } := rfl
    rw [hindex, TopicsIndex.lookup_shared_subscribe] at hsub
    rw [hasRoute_register]
    split_ifs at hsub with hnew
    · cases hsub
      exact Or.inr ⟨rfl, (Prod.mk.inj (Prod.mk.inj hnew.2).2).2⟩
    · exact Or.inl (h.shared path group n sub hsub)
  owner filter ownerKey hk := by
    obtain ⟨t, n, u, c, hroute, ht, hkey⟩ := h.owner filter ownerKey hk
    exact ⟨t, n, u, c, hasRoute_register.2 (Or.inl hroute), ht, hkey⟩
  indexed := h.indexed
  offline := h.offline

theorem Ok.putOwner (h : r.Ok) (hroute : r.HasRoute topic nodeID) {underlying clientID : Text}
    (howner : sharedOwnership topic = some (filter, underlying, clientID)) :
    (r.putOwner filter underlying (sharedOwnerKey nodeID clientID)).Ok where
  ordinary := h.ordinary
  shared := h.shared
  owner f k hk := by
    rcases GoMap.holds_addTo.1 hk with hk | ⟨rfl, rfl⟩
    · exact h.owner f k hk
    · exact ⟨topic, nodeID, underlying, clientID, hroute, howner, rfl⟩
  indexed f k hk := by
    rcases GoMap.holds_addTo.1 hk with hk | ⟨rfl, rfl⟩
    · exact (AList.mem_insert _).2 (Or.inr (h.indexed f k hk))
    · exact (AList.mem_insert _).2 (Or.inl rfl)
  offline f idx hidx := by
    obtain ⟨-, group, hshared⟩ := sharedOwnership_eq_some.1 howner
    have hlookup : (r.putOwner filter underlying (sharedOwnerKey nodeID clientID)).offlineShared =
        r.offlineShared.insert filter ((r.ownerIndex filter).subscribe
          (sharedOwnerKey nodeID clientID) { filter := underlying }) := rfl
    rw [hlookup, GoMap.lookup_insert] at hidx
    split_ifs at hidx with hf
    · cases hidx
      subst hf
      exact ⟨group, underlying, hshared, (h.ownerIndex hshared).subscribe _⟩
    · obtain ⟨g, u, hu, hok⟩ := h.offline f idx hidx
      refine ⟨g, u, hu, hok.congr fun k => ?_⟩
      exact GoMap.holds_addTo.trans (or_iff_left fun hk => hf hk.1)

theorem Ok.addOfflineSharedOwnership (h : r.Ok) (hroute : r.HasRoute topic nodeID) :
    (r.addOfflineSharedOwnership topic nodeID).Ok := by
  unfold RouteTables.addOfflineSharedOwnership
  split
  · exact h
  · next filter underlying clientID howner =>
    obtain ⟨-, group, hshared⟩ := sharedOwnership_eq_some.1 howner
    dsimp only
    split_ifs with hk
    · -- the owner is known, and nothing changes but the order of the map
      refine ⟨h.ordinary, h.shared, h.owner, fun f k hk => ?_, fun f idx hidx => ?_⟩
      · exact (AList.mem_insert _).2 (Or.inr (h.indexed f k hk))
      · rw [GoMap.lookup_insert] at hidx
        split_ifs at hidx with hf
        · cases hidx
          subst hf
          exact ⟨group, underlying, hshared, h.ownerIndex hshared⟩
        · exact h.offline f idx hidx
    · exact h.putOwner hroute howner

theorem Ok.addLocal (h : r.Ok) (topic nodeID : Text) : (r.addLocal topic nodeID).Ok :=
  (h.register topic nodeID).addOfflineSharedOwnership (hasRoute_register.2 (Or.inr ⟨rfl, rfl⟩))

theorem holds_removeOfflineSharedOwnership (h : r.Ok) {ownerKey : Text} :
    (r.removeOfflineSharedOwnership topic nodeID).offlineSharedOwners.Holds filter ownerKey ↔
      r.offlineSharedOwners.Holds filter ownerKey ∧
        ∀ underlying clientID, sharedOwnership topic = some (filter, underlying, clientID) →
          ownerKey ≠ sharedOwnerKey nodeID clientID := by
  unfold RouteTables.removeOfflineSharedOwnership
  cases howner : sharedOwnership topic with
  | none => simp
  | some owner =>
    obtain ⟨f, u, c⟩ := owner
    dsimp only
    cases hidx : r.offlineShared.lookup f with
    | none =>
      refine (and_iff_left_of_imp fun hk u' c' heq => ?_).symm
      cases heq
      exact absurd (h.indexed filter ownerKey hk) (AList.lookup_eq_none.1 hidx)
    | some idx =>
      dsimp only [RouteTables.dropOwner]
      rw [GoMap.holds_removeFrom]
      refine and_congr_right fun _ => ⟨?_, ?_⟩
      · rintro hne u' c' heq rfl
        cases heq
        exact hne ⟨rfl, rfl⟩
      · rintro hne ⟨rfl, rfl⟩
        exact hne u c rfl rfl

theorem Ok.dropOwner (h : r.Ok) {group underlying : Text} {idx : TopicsIndex}
    (hidx : r.offlineShared.lookup filter = some idx)
    (hshared : sharedFilter filter = some (group, underlying)) (ownerKey : Text) :
    (r.dropOwner idx filter underlying ownerKey).Ok where
  ordinary := h.ordinary
  shared := h.shared
  owner f k hk := h.owner f k (GoMap.holds_removeFrom.1 hk).1
  indexed f k hk := by
    have hold := h.indexed f k (GoMap.holds_removeFrom.1 hk).1
    unfold RouteTables.dropOwner
    dsimp only
    split_ifs with hlast
    · -- a filter that still has an owner is not the one whose last owner went
      refine AList.mem_erase.2 ⟨?_, hold⟩
      rintro rfl
      exact hlast.2 (GoMap.mem_of_holds hk)
    · exact (AList.mem_insert _).2 (Or.inr hold)
  offline f idx' hidx' := by
    unfold RouteTables.dropOwner at hidx'
    dsimp only at hidx'
    have hother (hf : f ≠ filter) (hold : r.offlineShared.lookup f = some idx') :
        ∃ g u, sharedFilter f = some (g, u) ∧
          OwnerIndex (r.offlineSharedOwners.removeFrom filter ownerKey) f u idx' := by
      obtain ⟨g, u, hu, hok⟩ := h.offline f idx' hold
      refine ⟨g, u, hu, hok.congr fun k => ?_⟩
      exact GoMap.holds_removeFrom.trans (and_iff_left fun hk => hf hk.1)
    split_ifs at hidx' with hlast
    · rw [GoMap.lookup_erase] at hidx'
      split_ifs at hidx' with hf
      exact hother hf hidx'
    · rw [GoMap.lookup_insert] at hidx'
      split_ifs at hidx' with hf
      · cases hidx'
        subst hf
        obtain ⟨g, u, hu, hok⟩ := h.offline f idx hidx
        rw [hshared] at hu
        cases hu
        exact ⟨group, underlying, hshared, hok.unsubscribe ownerKey⟩
      · exact hother hf hidx'

theorem Ok.removeOfflineSharedOwnership (h : r.Ok) (topic nodeID : Text) :
    (r.removeOfflineSharedOwnership topic nodeID).Ok := by
  unfold RouteTables.removeOfflineSharedOwnership
  split
  · exact h
  · next filter underlying clientID howner =>
    obtain ⟨-, group, hshared⟩ := sharedOwnership_eq_some.1 howner
    split
    · exact h
    · next idx hidx => exact h.dropOwner hidx hshared _

theorem Ok.deregister (h : r.Ok) (hfree : ∀ filter underlying clientID,
      sharedOwnership topic = some (filter, underlying, clientID) →
      ¬ r.offlineSharedOwners.Holds filter (sharedOwnerKey nodeID clientID)) :
    (r.deregister topic nodeID).Ok where
  ordinary path n := by
    simp only [hasRoute_deregister]
    have hindex : (r.deregister topic nodeID).index = r.index.unsubscribe topic nodeID := rfl
    rw [hindex, TopicsIndex.mem_subscriptions_unsubscribe, h.ordinary, Prod.mk.injEq]
    constructor
    · rintro ⟨⟨f, hf, rfl, hroute⟩, hno⟩
      refine ⟨f, hf, rfl, hroute, ?_⟩
      rintro ⟨rfl, rfl⟩
      exact hno ⟨hf, (filterPath_of_isSharedFilter_eq_false hf).symm, rfl⟩
    · rintro ⟨f, hf, rfl, hroute, hno⟩
      refine ⟨⟨f, hf, rfl, hroute⟩, ?_⟩
      rintro ⟨htopic, hpath, rfl⟩
      rw [filterPath_of_isSharedFilter_eq_false htopic] at hpath
      exact hno ⟨levels_injective hpath, rfl⟩
  shared path group n sub hsub := by
    have hindex : (r.deregister topic nodeID).index = r.index.unsubscribe topic nodeID := rfl
    rw [hindex, TopicsIndex.lookup_shared_unsubscribe] at hsub
    split_ifs at hsub with hgone
    rw [hasRoute_deregister]
    refine ⟨h.shared path group n sub hsub, ?_⟩
    rintro ⟨rfl, rfl⟩
    obtain ⟨hs, hpath, hgroup⟩ := r.index.shared_path path group n sub hsub
    exact hgone ⟨hs, by rw [hpath, hgroup]⟩
  owner f k hk := by
    obtain ⟨t, n, u, c, hroute, ht, rfl⟩ := h.owner f k hk
    refine ⟨t, n, u, c, hasRoute_deregister.2 ⟨hroute, ?_⟩, ht, rfl⟩
    rintro ⟨rfl, rfl⟩
    exact hfree f u c ht hk
  indexed := h.indexed
  offline := h.offline

theorem Ok.removeLocal (h : r.Ok) (topic nodeID : Text) : (r.removeLocal topic nodeID).Ok := by
  -- the two parts of a removal work on different maps, so the owner may be taken out first
  have hswap : r.removeLocal topic nodeID =
      (r.removeOfflineSharedOwnership topic nodeID).deregister topic nodeID := by
    unfold RouteTables.removeLocal RouteTables.removeOfflineSharedOwnership
    cases sharedOwnership topic with
    | none => rfl
    | some owner =>
      obtain ⟨f, u, c⟩ := owner
      dsimp only [RouteTables.deregister]
      cases r.offlineShared.lookup f <;> rfl
  rw [hswap]
  refine (h.removeOfflineSharedOwnership topic nodeID).deregister fun f u c howner hk => ?_
  exact ((holds_removeOfflineSharedOwnership h).1 hk).2 u c howner rfl

theorem Ok.applyEvent (h : r.Ok) (e : RouteEvent) : (r.applyEvent e).Ok := by
  have hremove (topics : List Text) (nodeID : Text) :
      (r.removeAll topics nodeID).Ok := by
    induction topics generalizing r with
    | nil => exact h
    | cons topic topics ih => exact ih (h.removeLocal topic nodeID)
  cases e with
  | subscribe topic nodeID => exact h.addLocal topic nodeID
  | unsubscribe topic nodeID => exact h.removeLocal topic nodeID
  | unsubscribeBatch topics nodeID => exact hremove topics nodeID
  | purgeNode nodeID => exact hremove _ nodeID

theorem Ok.reconcileKey (h : r.Ok) (key : Text) : (r.reconcileKey key).Ok := by
  unfold RouteTables.reconcileKey
  split
  · exact h
  · next topic nodeID _ =>
    split
    · exact h.register topic nodeID
    · next owner =>
      exact (h.register topic nodeID).putOwner (hasRoute_register.2 (Or.inr ⟨rfl, rfl⟩)) owner

end Updates

private theorem ok_reconcile (scan : List Text) : (reconcile scan).Ok := by
  unfold reconcile
  induction scan using List.reverseRecOn with
  | nil => exact ok_empty
  | append_singleton scan key ih =>
    rw [List.foldl_append]
    exact ih.reconcileKey key

end RouteTables

/-- `Router`: tables that are in order. -/
structure Router extends RouteTables TopicsIndex where
  ok : toRouteTables.Ok

namespace Router

/-- The empty cache. -/
def empty : Router := ⟨RouteTables.empty, RouteTables.ok_empty⟩

/-- An event of another node. -/
def applyEvent (r : Router) (e : RouteEvent) : Router :=
  ⟨r.toRouteTables.applyEvent e, r.ok.applyEvent e⟩

/-- The cache that a scan of the store gives. -/
def reconcile (scan : List Text) : Router :=
  ⟨RouteTables.reconcile scan, RouteTables.ok_reconcile scan⟩

end Router

end KeelGateway.Routing
