import KeelGateway.Lib.StepMachine
import KeelGateway.Routing.DeliveryPlan

/-!
# The routing store and the owners of offline sessions

A call of the registry writes the routing store and then publishes an event for the caches. Either
part may fail, and the caller gets an error in both cases. The offline owner of a client and one of
its filters is kept as a route of the owner under a key of its own. Who owns them is read from the
cache of the caller: the nodes that have a route for the key come in the order of a map, and the
first one is taken for the owner.

-/

namespace KeelGateway.Routing

open Mochi

/-! ### Calls of the registry -/

/-- How `Subscribe` or `Unsubscribe` ends. -/
inductive CallOutcome where
  | ok
  | writeFails
  | publishFails
  deriving DecidableEq

/-- The store has been written. -/
def CallOutcome.written : CallOutcome → Bool
  | ok | publishFails => true
  | writeFails => false

/-- The keys of the routing store, as pairs of a filter and a node. By `routeKey_injective` they are
as good as texts. -/
abbrev RouteStore := GoMap (Text × Text) Unit

variable {topic : Text}

theorem routeKey_injective {nodeID topic' nodeID' : Text} (hsep : keySep ∉ nodeID)
    (hsep' : keySep ∉ nodeID') (h : routeKey topic nodeID = routeKey topic' nodeID') :
    topic = topic' ∧ nodeID = nodeID' := by
  have hparse := congrArg parseRouteKey h
  rw [parseRouteKey_routeKey hsep, parseRouteKey_routeKey hsep', Option.some.injEq,
    Prod.mk.injEq] at hparse
  exact hparse

theorem ownershipKey_injective {clientID filter clientID' filter' : Text}
    (hsep : keySep ∉ clientID) (hsep' : keySep ∉ clientID')
    (h : ownershipKey clientID filter = ownershipKey clientID' filter') :
    clientID = clientID' ∧ filter = filter' := by
  have hraw : clientID ++ keySep :: filter = clientID' ++ keySep :: filter' :=
    Base64.utf8_injective (Base64.encode_injective (List.append_cancel_left h))
  have hspan := congrArg (List.span (· != keySep)) hraw
  rw [span_keySep hsep, span_keySep hsep', Prod.mk.injEq, List.cons.injEq] at hspan
  exact ⟨hspan.1, hspan.2.2⟩

theorem offlineRouteKey_ne_ownershipKey (filter clientID filter' : Text) :
    offlineRouteKey filter ≠ ownershipKey clientID filter' := by
  intro h
  have hlevels := congrArg levels h
  rw [levels_offlineRouteKey, levels_ownershipKey, List.cons.injEq] at hlevels
  exact absurd hlevels.1 (by decide)

namespace RouteStore

variable (s : RouteStore)

/-- `Router.Subscribe`. -/
def subscribe (topic nodeID : Text) (outcome : CallOutcome) : RouteStore :=
  if outcome.written then s.insert (topic, nodeID) () else s

/-- `Router.Unsubscribe`. -/
def unsubscribe (topic nodeID : Text) (outcome : CallOutcome) : RouteStore :=
  if outcome.written then s.erase (topic, nodeID) else s

/-- `Router.PurgeNode`: the keys of a node that the cache knows go, or those of them that the store
gets to before it fails. -/
def purgeNode (cache : Router) (nodeID : Text) (deleted : Text → Bool) : RouteStore :=
  (((cache.topicsForNode nodeID).filter deleted).map (·, nodeID)).foldl (fun s row => s.erase row) s

variable {s} {nodeID : Text} {row : Text × Text}

@[simp] theorem mem_subscribe {topic : Text} {outcome : CallOutcome} :
    row ∈ s.subscribe topic nodeID outcome ↔
      row ∈ s ∨ (outcome.written = true ∧ row = (topic, nodeID)) := by
  unfold subscribe
  split_ifs with h
  · rw [or_comm]
    simp [h]
  · simp [h]

theorem mem_foldl_subscribe {outcome : Text → CallOutcome} {filters : List Text} :
    row ∈ filters.foldl (fun s filter => s.subscribe filter nodeID (outcome filter)) s ↔
      row ∈ s ∨ ∃ filter ∈ filters, (outcome filter).written = true ∧ row = (filter, nodeID) := by
  have hstep : ∀ filter ∈ filters, ∀ s : RouteStore,
      row ∈ s.subscribe filter nodeID (outcome filter) ↔
        row ∈ s ∨ ((outcome filter).written = true ∧ row = (filter, nodeID)) :=
    fun _ _ _ => mem_subscribe
  exact StepMachine.run_iff_exists (P := (row ∈ ·)) hstep s

@[simp] theorem mem_unsubscribe {topic : Text} {outcome : CallOutcome} :
    row ∈ s.unsubscribe topic nodeID outcome ↔
      row ∈ s ∧ ¬ (outcome.written = true ∧ row = (topic, nodeID)) := by
  unfold unsubscribe
  split_ifs with h
  · rw [and_comm]
    simp [h]
  · simp [h]

theorem mem_of_mem_purgeNode {cache : Router} {deleted : Text → Bool}
    (h : row ∈ s.purgeNode cache nodeID deleted) : row ∈ s := by
  obtain ⟨u, hu⟩ := GoMap.mem_iff_exists_lookup.1 h
  rw [purgeNode, GoMap.lookup_foldl_erase] at hu
  split_ifs at hu
  exact GoMap.mem_iff_exists_lookup.2 ⟨u, hu⟩

end RouteStore

/-! ### Caches of the store -/

/-- A cache has the routes of the store. -/
def Router.Mirrors (r : Router) (s : RouteStore) : Prop :=
  ∀ topic nodeID, r.HasRoute topic nodeID ↔ (topic, nodeID) ∈ s

/-- The cache that a scan of the store gives. -/
def RouteStore.scanned (s : RouteStore) : Router :=
  .reconcile (s.keys.map fun row => routeKey row.1 row.2)

theorem RouteStore.mirrors_scanned {s : RouteStore} (hs : ∀ row ∈ s.keys, keySep ∉ row.2) :
    s.scanned.Mirrors s := by
  intro topic nodeID
  refine (RouteTables.hasRoute_reconcile _ topic nodeID).trans ?_
  simp only [List.mem_map]
  constructor
  · rintro ⟨key, ⟨row, hrow, rfl⟩, hparse⟩
    rw [parseRouteKey_routeKey (hs row hrow), Option.some.injEq] at hparse
    rwa [← hparse]
  · intro hrow
    exact ⟨_, ⟨_, hrow, rfl⟩, parseRouteKey_routeKey (hs _ hrow) topic⟩

/-- `NodesFor` without preference for a local node. -/
def Router.nodesFor (r : Router) (topic : Text) : List Text := (r.liveDeliveryPlan topic []).1

/-- The index finds a filter for a topic. Wildcards of shared filters are not held back. -/
def Leads (filter topic : Text) : Prop :=
  filterPath filter ∈ visit (levels topic) ∧
    (isSharedFilter filter = false → hidden topic filter = false)

theorem leads_iff_indexMatch {filter : Text} (hplain : isSharedFilter filter = false) :
    Leads filter topic ↔ IndexMatch filter topic := by
  rw [Leads, filterPath_of_isSharedFilter_eq_false hplain]
  exact and_congr_right fun _ => ⟨fun h => h hplain, fun h _ => h⟩

/-- Nothing but an ownership key leads to itself. -/
def RouteStore.Isolated (s : RouteStore) : Prop :=
  ∀ row ∈ s, ∀ clientID filter, Leads row.1 (ownershipKey clientID filter) →
    row.1 = ownershipKey clientID filter

theorem RouteStore.isolated_empty : RouteStore.Isolated ∅ :=
  fun _ hrow => absurd hrow (AList.notMem_empty _)

theorem Router.mirrors_empty : Router.empty.Mirrors ∅ :=
  fun _ _ => iff_of_false (AList.notMem_empty _) (AList.notMem_empty _)

theorem ownershipKey_ne_nil (clientID filter : Text) : ownershipKey clientID filter ≠ [] := by
  unfold ownershipKey ownershipKeyPrefix
  simp

theorem isSharedFilter_ownershipKey (clientID filter : Text) :
    isSharedFilter (ownershipKey clientID filter) = false := by
  rw [isSharedFilter_of_levels (levels_ownershipKey _ _)]
  decide

theorem isSharedFilter_offlineRouteKey (filter : Text) :
    isSharedFilter (offlineRouteKey filter) = false := by
  rw [isSharedFilter_of_levels (levels_offlineRouteKey _)]
  decide

private theorem concrete_ownershipKey (clientID filter : Text) :
    Concrete (ownershipKey clientID filter) := by
  have hchar {c : Char} (hkey : c ∉ ownershipKeyPrefix) (halphabet : c ∉ Base64.alphabet) :
      c ∉ ownershipKey clientID filter := by
    intro hmem
    rcases List.mem_append.1 hmem with hmem | hmem
    · exact hkey hmem
    · exact Base64.notMem_encode halphabet _ hmem
  exact ⟨hchar (by decide) (by decide), hchar (by decide) (by decide)⟩

private theorem indexMatch_self (h : hidden topic topic = false) : IndexMatch topic topic :=
  ⟨mem_visit_self (levels_ne_nil topic), h⟩

theorem RouteStore.isolated_of_reserved {s s' : RouteStore} (hs : s.Isolated)
    (h : ∀ row ∈ s', row ∈ s ∨ (∃ c f, row.1 = ownershipKey c f) ∨ ∃ f, row.1 = offlineRouteKey f) :
    s'.Isolated := by
  intro row hrow clientID filter hleads
  rcases h row hrow with hrow | ⟨c, f, hkey⟩ | ⟨f, hkey⟩
  · exact hs row hrow clientID filter hleads
  · have hpath := hleads.1
    rw [hkey] at hpath ⊢
    exact levels_injective
      (eq_of_mem_visit (noWildcard_levels (concrete_ownershipKey c f)) hpath)
  · have hpath := hleads.1
    rw [hkey] at hpath
    exact absurd (head_of_mem_visit hpath) (by decide)

namespace Router

variable {r : Router} {s : RouteStore} {clientID filter : Text}

theorem Mirrors.sharedEntries_ownershipKey (h : r.Mirrors s) (hs : s.Isolated) :
    r.index.sharedEntries (ownershipKey clientID filter) = [] := by
  refine List.eq_nil_iff_forall_not_mem.2 fun ⟨nodeID, sub⟩ hsub => ?_
  obtain ⟨hlookup, hpath⟩ := (TopicsIndex.mem_sharedEntries (ownershipKey_ne_nil _ _)).1 hsub
  have hshared := (r.index.shared_path _ _ _ _ hlookup).1
  have hkey : sub.filter = ownershipKey clientID filter :=
    hs _ ((h _ _).1 (r.ok.shared _ _ _ _ hlookup)) clientID filter
      ⟨hpath, fun hplain => absurd (hplain ▸ hshared) (by decide)⟩
  rw [hkey] at hshared
  cases hshared

theorem Mirrors.mem_nodesFor_ownershipKey (h : r.Mirrors s) (hs : s.Isolated) {nodeID : Text} :
    nodeID ∈ r.nodesFor (ownershipKey clientID filter) ↔
      (ownershipKey clientID filter, nodeID) ∈ s := by
  have hchoices : r.index.sharedChoices (ownershipKey clientID filter) [] = ∅ := by
    rw [TopicsIndex.sharedChoices, h.sharedEntries_ownershipKey hs]
    rfl
  rw [nodesFor, RouteTables.liveDeliveryPlan, TopicsIndex.mem_nodes_subscriberRoutingPlan, hchoices,
    r.mem_ordinary_iff (ownershipKey_ne_nil _ _)]
  simp only [AList.lookup_empty, reduceCtorEq, exists_false, or_false]
  constructor
  · rintro ⟨key, hplain, hroute, hmatch⟩
    have hrow := (h key nodeID).1 hroute
    have hkey : key = ownershipKey clientID filter :=
      hs _ hrow clientID filter ((leads_iff_indexMatch hplain).2 hmatch)
    rwa [hkey] at hrow
  · intro hrow
    exact ⟨_, isSharedFilter_ownershipKey _ _, (h _ _).2 hrow, indexMatch_self rfl⟩

end Router

/-! ### Owners of offline sessions -/

/-- `CurrentOwner` may answer so. -/
def Router.Answers (r : Router) (clientID filter : Text) : Option Text → Prop
  | none => r.nodesFor (ownershipKey clientID filter) = []
  | some nodeID => nodeID ∈ r.nodesFor (ownershipKey clientID filter)

instance (r : Router) (clientID filter : Text) (answer : Option Text) :
    Decidable (r.Answers clientID filter answer) :=
  match answer with
  | none => inferInstanceAs (Decidable (_ = _))
  | some _ => inferInstanceAs (Decidable (_ ∈ _))

/-- A call of `CurrentOwner`: the cache that is asked, and its answer. -/
structure OwnerRead (clientID filter : Text) where
  cache : Router
  owner : Option Text
  answers : cache.Answers clientID filter owner

namespace OwnerRead

/-- An empty cache answers that there is no owner. -/
def none (clientID filter : Text) : OwnerRead clientID filter where
  cache := .empty
  owner := Option.none
  answers := List.eq_nil_iff_forall_not_mem.2 fun _ hmem => absurd
    ((Router.mirrors_empty.mem_nodesFor_ownershipKey RouteStore.isolated_empty).1 hmem)
    (AList.notMem_empty _)

variable {clientID filter : Text} {s : RouteStore}

theorem mem_of_mirrors (read : OwnerRead clientID filter) (hs : s.Isolated)
    (h : read.cache.Mirrors s) {nodeID : Text} (hread : read.owner = some nodeID) :
    (ownershipKey clientID filter, nodeID) ∈ s := by
  have hanswers := read.answers
  rw [hread] at hanswers
  exact (h.mem_nodesFor_ownershipKey hs).1 hanswers

theorem exists_of_mem (read : OwnerRead clientID filter) (hs : s.Isolated)
    (h : read.cache.Mirrors s) {nodeID : Text} (hrow : (ownershipKey clientID filter, nodeID) ∈ s) :
    ∃ n, read.owner = some n := by
  have hanswers := read.answers
  cases hread : read.owner with
  | none =>
    rw [hread] at hanswers
    have hmem := (h.mem_nodesFor_ownershipKey hs).2 hrow
    rw [show read.cache.nodesFor (ownershipKey clientID filter) = [] from hanswers] at hmem
    cases hmem
  | some n => exact ⟨n, rfl⟩

end OwnerRead

/-- How the calls of `Place` end. -/
structure PlaceOutcome where
  key : CallOutcome := .ok
  hint : CallOutcome := .ok
  removal : CallOutcome := .ok
  deriving DecidableEq

namespace RouteStore

variable (s : RouteStore) (clientID filter : Text)

/-- `Place`: the store afterwards, and whether the call returns without an error. The error of the
last call is dropped. -/
def place (newOwner : Text) (old : Option Text) (outcome : PlaceOutcome) : RouteStore × Bool :=
  let key := ownershipKey clientID filter
  let s := s.subscribe key newOwner outcome.key
  if outcome.key ≠ .ok then (s, false)
  else
    let s := s.subscribe (offlineRouteKey filter) newOwner outcome.hint
    if outcome.hint ≠ .ok then (s, false)
    else
      match old with
      | none => (s, true)
      | some old =>
        if old ≠ newOwner then (s.unsubscribe key old outcome.removal, true) else (s, true)

/-- `Clear`. -/
def clear (old : Option Text) (outcome : CallOutcome) : RouteStore × Bool :=
  match old with
  | none => (s, true)
  | some old => (s.unsubscribe (ownershipKey clientID filter) old outcome, outcome = .ok)

variable {s clientID filter} {newOwner : Text} {old : Option Text}

theorem place_snd {outcome : PlaceOutcome} :
    (s.place clientID filter newOwner old outcome).2 = true ↔
      outcome.key = .ok ∧ outcome.hint = .ok := by
  unfold place
  by_cases hkey : outcome.key = .ok <;> by_cases hhint : outcome.hint = .ok <;>
    cases old <;> simp [apply_ite Prod.snd]

theorem mem_place {outcome : PlaceOutcome} {row : Text × Text} :
    row ∈ (s.place clientID filter newOwner old outcome).1 ↔
      (row ∈ s ∨ (outcome.key.written = true ∧ row = (ownershipKey clientID filter, newOwner)) ∨
        (outcome.key = .ok ∧ outcome.hint.written = true ∧
          row = (offlineRouteKey filter, newOwner))) ∧
      ¬ ∃ n, old = some n ∧ n ≠ newOwner ∧ outcome.key = .ok ∧ outcome.hint = .ok ∧
        outcome.removal.written = true ∧ row = (ownershipKey clientID filter, n) := by
  unfold place
  by_cases hkey : outcome.key = .ok
  · by_cases hhint : outcome.hint = .ok
    · cases old with
      | none => simp [hkey, hhint, or_assoc]
      | some n =>
        by_cases hn : n = newOwner
        · simp [hkey, hhint, hn, or_assoc]
        · simp [hkey, hhint, hn, or_assoc]
    · simp [hkey, hhint, or_assoc]
  · simp [hkey]

theorem clear_snd {outcome : CallOutcome} :
    (s.clear clientID filter old outcome).2 = true ↔ old = none ∨ outcome = .ok := by
  cases old <;> simp [clear]

theorem mem_clear {outcome : CallOutcome} {row : Text × Text} :
    row ∈ (s.clear clientID filter old outcome).1 ↔
      row ∈ s ∧ ¬ ∃ n, old = some n ∧ outcome.written = true ∧
        row = (ownershipKey clientID filter, n) := by
  cases old <;> simp [clear]

end RouteStore

end KeelGateway.Routing
