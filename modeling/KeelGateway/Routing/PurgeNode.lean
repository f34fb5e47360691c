import KeelGateway.Routing.CacheRebuild

/-!
# Purging a node

When a node is gone for good, another node takes its routes out of the store and tells every cache
to drop them. The caller takes the filters of the node from its own cache, which may lag behind the
store: it deletes the keys of the filters it knows of, and nothing at all if it knows of none. A key
it does not know of stays in the store, and the next rebuild of any cache brings the route back.

-/

namespace KeelGateway.Routing

/-- How `PurgeNode` leaves the store, the event it has published, and whether it returns nil. -/
structure PurgeResult where
  store : KeyStore
  event : Option RouteEvent
  ok : Bool

/-- `PurgeNode`, for the cache of the caller. A deletion that fails may have got to some of the
keys. -/
def Router.purgeNode (cache : Router) (store : KeyStore) (nodeID : Text) (outcome : CallOutcome)
    (deleted : Text → Bool) : PurgeResult :=
  let topics := cache.topicsForNode nodeID
  if topics.isEmpty then ⟨store, none, true⟩
  else
    match outcome with
    | .writeFails => ⟨store.deleteRoutes (topics.filter deleted) nodeID, none, false⟩
    | .publishFails => ⟨store.deleteRoutes topics nodeID, none, false⟩
    | .ok => ⟨store.deleteRoutes topics nodeID, some (.purgeNode nodeID), true⟩

/-- Nothing is left of the node, and nothing comes back. -/
structure Purged (nodeID : Text) (result : PurgeResult) : Prop where
  store : ∀ topic, ¬ result.store.HasRoute topic nodeID
  /-- A cache that has got the event has a route of the node only if the store has. -/
  caches : ∀ e, result.event = some e → ∀ (cache : Router) (topic : Text),
    (cache.applyEvent e).HasRoute topic nodeID → result.store.HasRoute topic nodeID
  /-- No rebuild brings a route back, as long as the node itself writes nothing. -/
  rebuilds : ∀ later : KeyStore,
    (∀ topic, later.HasRoute topic nodeID → result.store.HasRoute topic nodeID) →
      ∀ scan : List Text, (∀ key, key ∈ scan ↔ key ∈ later) →
        ∀ topic, ¬ (Router.reconcile scan).HasRoute topic nodeID

theorem KeyStore.hasRoute_deleteRoutes {s : KeyStore} {topics : List Text} {nodeID topic : Text} :
    (s.deleteRoutes topics nodeID).HasRoute topic nodeID ↔
      s.HasRoute topic nodeID ∧ topic ∉ topics := by
  rw [hasRoute_iff, hasRoute_iff, deleteRoutes, GoMap.mem_foldl_erase, and_right_comm]
  refine and_congr_right fun hroute => not_congr ?_
  rw [List.mem_map]
  constructor
  · rintro ⟨t, ht, heq⟩
    rwa [← (routeKey_injective hroute.2 hroute.2 heq).1]
  · exact fun ht => ⟨topic, ht, rfl⟩

namespace Router

variable {cache : Router} {store : KeyStore} {nodeID : Text} {outcome : CallOutcome}
  {deleted : Text → Bool}

theorem hasRoute_purgeNode (hok : (cache.purgeNode store nodeID outcome deleted).ok = true)
    {topic : Text} :
    (cache.purgeNode store nodeID outcome deleted).store.HasRoute topic nodeID ↔
      store.HasRoute topic nodeID ∧ ¬ cache.HasRoute topic nodeID := by
  have hknown : topic ∈ cache.topicsForNode nodeID ↔ cache.HasRoute topic nodeID :=
    AList.mem_keys.symm
  unfold purgeNode at hok ⊢
  dsimp only at hok ⊢
  split_ifs at hok ⊢ with hempty
  · rw [← hknown, List.isEmpty_iff.1 hempty]
    simp
  · cases outcome with
    | writeFails => cases hok
    | publishFails => cases hok
    | ok => rw [← hknown]; exact KeyStore.hasRoute_deleteRoutes

theorem not_hasRoute_of_purgeNode {e : RouteEvent}
    (he : (cache.purgeNode store nodeID outcome deleted).event = some e) (r : Router)
    (topic : Text) : ¬ (r.applyEvent e).HasRoute topic nodeID := by
  have hevent : e = .purgeNode nodeID := by
    unfold purgeNode at he
    dsimp only at he
    split_ifs at he
    cases outcome with
    | writeFails => cases he
    | publishFails => cases he
    | ok => exact (Option.some.inj he).symm
  subst hevent
  intro hroute
  exact ((r.toRouteTables.hasRoute_applyEvent _ topic nodeID).1 hroute).elim not_false
    fun hleft => hleft.2 rfl

/-- A purge without an error is complete exactly if the cache of the caller knows every route that
the node has in the store. -/
theorem purgeNode_purged_iff (cache : Router) (store : KeyStore) (nodeID : Text)
    (outcome : CallOutcome) (deleted : Text → Bool)
    (hok : (cache.purgeNode store nodeID outcome deleted).ok = true) :
    Purged nodeID (cache.purgeNode store nodeID outcome deleted) ↔
      ∀ topic, store.HasRoute topic nodeID → cache.HasRoute topic nodeID := by
  constructor
  · intro h topic hroute
    by_contra hunknown
    exact h.store topic ((hasRoute_purgeNode hok).2 ⟨hroute, hunknown⟩)
  · intro hknown
    have hgone (topic : Text) :
        ¬ (cache.purgeNode store nodeID outcome deleted).store.HasRoute topic nodeID := by
      intro hleft
      obtain ⟨hroute, hunknown⟩ := (hasRoute_purgeNode hok).1 hleft
      exact hunknown (hknown topic hroute)
    refine ⟨hgone, fun e he r topic hroute => ?_, fun later hlater scan hscan topic hroute => ?_⟩
    · exact absurd hroute (not_hasRoute_of_purgeNode he r topic)
    · obtain ⟨key, hkey, hread⟩ := (RouteTables.hasRoute_reconcile scan topic nodeID).1 hroute
      exact hgone topic (hlater topic ⟨key, (hscan key).1 hkey, hread⟩)

/-- A cache that has followed a registration. -/
def oneRoute : Router := Router.empty.applyEvent (.subscribe ['a'] ['n'])

/-- A store with the key that such a cache knows. -/
def oneKey : KeyStore := KeyStore.applyEvent ∅ (.subscribe ['a'] ['n'])

/-- A caller that knows the only route of a node purges it. -/
theorem purged_known_route :
    (oneRoute.purgeNode oneKey ['n'] .ok fun _ => true).ok = true ∧
      Purged ['n'] (oneRoute.purgeNode oneKey ['n'] .ok fun _ => true) := by
  have hok : (oneRoute.purgeNode oneKey ['n'] .ok fun _ => true).ok = true := by decide +kernel
  refine ⟨hok, (purgeNode_purged_iff _ _ _ _ _ hok).2 fun topic hroute => ?_⟩
  obtain ⟨key, hkey, hread⟩ := hroute
  rcases (AList.mem_insert _).1 hkey with rfl | hnone
  · rw [parseRouteKey_routeKey (by decide)] at hread
    cases hread
    decide +kernel
  · exact absurd hnone (AList.notMem_empty _)

/-- A second route of the node has not reached the cache of the caller. The call returns nil, its
key stays in the store, and the next rebuild has the route again. -/
theorem not_purged_unknown_route :
    (oneRoute.purgeNode (oneKey.applyEvent (.subscribe ['b'] ['n'])) ['n'] .ok fun _ => true).ok =
        true ∧
      (Router.reconcile (oneRoute.purgeNode (oneKey.applyEvent (.subscribe ['b'] ['n'])) ['n'] .ok
        fun _ => true).store.keys).HasRoute ['b'] ['n'] ∧
      ¬ Purged ['n']
        (oneRoute.purgeNode (oneKey.applyEvent (.subscribe ['b'] ['n'])) ['n'] .ok
          fun _ => true) := by
  refine ⟨by decide +kernel, by decide +kernel, fun h => h.store ['b'] ?_⟩
  exact KeyStore.hasRoute_iff.2 (by decide +kernel)

end Router

end KeelGateway.Routing
