import KeelGateway.Lib.EventCache
import KeelGateway.Routing.CacheRebuild

/-!
# A rebuild of the cache among the calls of other nodes

A rebuild scans the store and then replaces the whole cache. Other nodes go on registering routes in
the meantime: a call writes its key and publishes an event, and the event is applied to the cache
that is there when it arrives. If that is the old cache, and the scan has missed the key, the route
is gone with the swap, and no event is left that would bring it back before the next rebuild.

-/

namespace KeelGateway.Routing

open StepMachine

/-! ### Calls -/

/-- A call of another node. -/
inductive RouteWrite where
  | subscribe (topic nodeID : Text)
  | unsubscribe (topic nodeID : Text)
  deriving DecidableEq

namespace RouteWrite

/-- The event that the call publishes. -/
def event : RouteWrite → RouteEvent
  | subscribe topic nodeID => .subscribe topic nodeID
  | unsubscribe topic nodeID => .unsubscribe topic nodeID

/-- The route that the call is about. -/
def route : RouteWrite → Text × Text
  | subscribe topic nodeID | unsubscribe topic nodeID => (topic, nodeID)

/-- The call registers its route. -/
def present : RouteWrite → Bool
  | subscribe _ _ => true
  | unsubscribe _ _ => false

/-- The call as a write of its route. -/
def view (w : RouteWrite) : EventCache.Write (Text × Text) := ⟨w.route, w.present⟩

theorem mem_apply {w : RouteWrite} {routes : Set (Text × Text)} {r : Text × Text} :
    r ∈ w.view.apply routes ↔
      w.event.Adds r.1 r.2 ∨ (r ∈ routes ∧ ¬ w.event.Removes r.1 r.2) := by
  by_cases hr : r = w.route
  · subst hr
    refine EventCache.Write.mem_apply_self.trans ?_
    cases w <;> simp [view, route, present, event, RouteEvent.Adds, RouteEvent.Removes]
  · refine (EventCache.Write.mem_apply_of_ne hr).trans ?_
    have hne : ¬ (r.1 = w.route.1 ∧ r.2 = w.route.2) := fun h => hr (Prod.ext h.1 h.2)
    cases w with
    | subscribe topic nodeID =>
      exact ⟨fun h => Or.inr ⟨h, not_false⟩, fun h => h.elim (fun h => absurd h hne) And.left⟩
    | unsubscribe topic nodeID =>
      exact ⟨fun h => Or.inr ⟨h, hne⟩, fun h => h.elim False.elim And.left⟩

end RouteWrite

/-- The routes that the keys are read as. -/
def KeyStore.routes (s : KeyStore) : Set (Text × Text) := {r | s.HasRoute r.1 r.2}

/-- The routes of a cache. -/
def Router.routes (r : Router) : Set (Text × Text) := {x | r.HasRoute x.1 x.2}

theorem KeyStore.mem_routes {s : KeyStore} {r : Text × Text} : r ∈ s.routes ↔ s.HasRoute r.1 r.2 :=
  Iff.rfl

theorem Router.mem_routes {r : Router} {x : Text × Text} : x ∈ r.routes ↔ r.HasRoute x.1 x.2 :=
  Iff.rfl

theorem KeyStore.routes_applyEvent {s : KeyStore} {w : RouteWrite} (hsep : keySep ∉ w.route.2) :
    KeyStore.routes (s.applyEvent w.event) = w.view.apply s.routes := by
  have hnode : keySep ∉ w.event.nodeID := by cases w <;> exact hsep
  ext r
  rw [mem_routes, KeyStore.hasRoute_applyEvent hnode, RouteWrite.mem_apply, mem_routes]

theorem Router.routes_applyEvent (r : Router) (w : RouteWrite) :
    (r.applyEvent w.event).routes = w.view.apply r.routes := by
  ext x
  rw [RouteWrite.mem_apply]
  exact r.toRouteTables.hasRoute_applyEvent _ _ _

/-! ### The machine -/

/-- A scan in progress: the keys that have been in the store all the time, those that have been in
it at some time, and the routes that have been written. -/
structure KeyScan where
  kept : KeyStore
  seen : KeyStore
  written : List (Text × Text)

/-- A scan goes on during a write. -/
def KeyScan.write (scan : KeyScan) (w : RouteWrite) : KeyScan where
  kept := if w.present then scan.kept else scan.kept.applyEvent w.event
  seen := if w.present then scan.seen.applyEvent w.event else scan.seen
  written := w.route :: scan.written

/-- The store and the cache of a node, the calls of other nodes that have written and not published
yet, the events that have not arrived yet, both with their senders, and the scan in progress. -/
structure RaceState where
  store : KeyStore
  cache : Router
  calls : List (Text × RouteWrite)
  channel : List (Text × RouteWrite)
  scan : Option KeyScan

/-- What happens. -/
inductive RaceEvent where
  | write (sender : Text) (w : RouteWrite)
  | publish (i : ℕ)
  | deliver (i : ℕ)
  | beginScan
  | swap (keys : List Text)

namespace RaceState

/-- A node that has just been started. -/
def start (store : KeyStore) : RaceState := ⟨store, .reconcile store.keys, [], [], none⟩

/-- The state after an event. -/
def step (s : RaceState) : RaceEvent → RaceState
  | .write sender w =>
    { s with
      store := s.store.applyEvent w.event
      calls := s.calls ++ [(sender, w)]
      scan := s.scan.map (·.write w) }
  | .publish i =>
    match s.calls[i]? with
    | none => s
    | some call => { s with calls := s.calls.eraseIdx i, channel := s.channel ++ [call] }
  | .deliver i =>
    match s.channel[i]? with
    | none => s
    | some (_, w) =>
      { s with channel := s.channel.eraseIdx i, cache := s.cache.applyEvent w.event }
  | .beginScan => { s with scan := some ⟨s.store, s.store, []⟩ }
  | .swap keys => { s with cache := .reconcile keys, scan := none }

/-- The cache once the events of all calls so far have been applied. -/
def drained (s : RaceState) : Router :=
  (s.channel ++ s.calls).foldl (fun r x => r.applyEvent x.2.event) s.cache

/-- After the events under way a route is in the cache exactly if its key is in the store. -/
def Settles (s : RaceState) : Prop :=
  ∀ topic nodeID, s.drained.HasRoute topic nodeID ↔ s.store.HasRoute topic nodeID

/-- A scan returns every key that is there all the time, and no key that never is. -/
def FaithfulScan (s : RaceState) : RaceEvent → Prop
  | .swap keys => ∃ scan, s.scan = some scan ∧ (∀ key ∈ scan.kept, key ∈ keys) ∧
      ∀ key ∈ keys, key ∈ scan.seen
  | _ => True

/-! ### The machine as a cache fed by events and snapshots -/

/-- A call with its sender, as a write of a route. -/
def viewCall (x : Text × RouteWrite) : Text × EventCache.Write (Text × Text) := (x.1, x.2.view)

end RaceState

/-- The scan in terms of routes. -/
def KeyScan.view (scan : KeyScan) : EventCache.Scan (Text × Text) :=
  ⟨scan.kept.routes, scan.seen.routes, {r | r ∈ scan.written}⟩

/-- The event in terms of routes. -/
def RaceEvent.view : RaceEvent → EventCache.Event Text (Text × Text)
  | write sender w => .write sender w.view
  | publish i => .publish i
  | deliver i => .deliver i
  | beginScan => .beginScan
  | swap keys => .swap {r | ∃ key ∈ keys, parseRouteKey key = some r}

/-- The node ID of a call has no separator. -/
def RaceEvent.Separated : RaceEvent → Prop
  | write _ w => keySep ∉ w.route.2
  | _ => True

theorem KeyScan.view_write {scan : KeyScan} {w : RouteWrite} (hsep : keySep ∉ w.route.2) :
    (scan.write w).view = scan.view.write w.view := by
  have hkept := KeyStore.routes_applyEvent (s := scan.kept) hsep
  have hseen := KeyStore.routes_applyEvent (s := scan.seen) hsep
  have hwritten : {r | r ∈ (scan.write w).written} = insert w.route {r | r ∈ scan.written} := by
    ext r
    exact List.mem_cons
  cases w with
  | subscribe topic nodeID =>
    refine EventCache.Scan.mk.injEq .. ▸ ⟨?_, ?_, hwritten⟩
    · ext r
      simp [KeyScan.write, KeyScan.view, RouteWrite.present, RouteWrite.view]
    · refine hseen.trans ?_
      ext r
      simp only [EventCache.Write.apply, Set.mem_ofPred_eq]
      tauto
  | unsubscribe topic nodeID =>
    refine EventCache.Scan.mk.injEq .. ▸ ⟨?_, ?_, hwritten⟩
    · refine hkept.trans ?_
      ext r
      simp only [EventCache.Write.apply, Set.mem_ofPred_eq]
      tauto
    · ext r
      simp [KeyScan.write, KeyScan.view, RouteWrite.present, RouteWrite.view]

namespace RaceState

/-- The state in terms of routes. -/
def view (s : RaceState) : EventCache.State Text (Text × Text) where
  store := s.store.routes
  cache := s.cache.routes
  calls := s.calls.map viewCall
  channel := s.channel.map viewCall
  scan := s.scan.map KeyScan.view

theorem view_step {e : RaceEvent} (hsep : e.Separated) (s : RaceState) :
    (s.step e).view = EventCache.step s.view e.view := by
  cases e with
  | write sender w =>
    have hstore := KeyStore.routes_applyEvent (s := s.store) hsep
    have hscan : (s.scan.map (·.write w)).map KeyScan.view =
        (s.scan.map KeyScan.view).map (·.write w.view) := by
      cases s.scan with
      | none => rfl
      | some scan => exact congrArg some (KeyScan.view_write hsep)
    simp only [view, step, RaceEvent.view, EventCache.step, hstore, hscan, List.map_append,
      List.map_cons, List.map_nil, viewCall]
  | publish i =>
    simp only [view, step, RaceEvent.view, EventCache.step, List.getElem?_map]
    cases s.calls[i]? with
    | none => rfl
    | some call => simp [List.eraseIdx_map]
  | deliver i =>
    simp only [view, step, RaceEvent.view, EventCache.step, List.getElem?_map]
    cases s.channel[i]? with
    | none => rfl
    | some x => simp [List.eraseIdx_map, Router.routes_applyEvent, viewCall]
  | beginScan => simp [view, step, RaceEvent.view, EventCache.step, KeyScan.view]
  | swap keys =>
    have hroutes : (Router.reconcile keys).routes =
        {r | ∃ key ∈ keys, parseRouteKey key = some r} := by
      ext ⟨topic, nodeID⟩
      exact RouteTables.hasRoute_reconcile keys topic nodeID
    simp [view, step, RaceEvent.view, EventCache.step, hroutes]

private theorem routes_foldl_applyEvent (xs : List (Text × RouteWrite)) (r : Router) :
    (xs.foldl (fun r x => r.applyEvent x.2.event) r).routes =
      EventCache.applyAll ((xs.map viewCall).map Prod.snd) r.routes := by
  induction xs generalizing r with
  | nil => rfl
  | cons x xs ih =>
    rw [List.foldl_cons, ih, Router.routes_applyEvent]
    rfl

theorem settles_iff {s : RaceState} : s.Settles ↔ EventCache.Settles s.view := by
  have hdrained : s.view.drained = s.drained.routes := by
    rw [drained, routes_foldl_applyEvent, List.map_append]
    rfl
  rw [EventCache.Settles, hdrained, Set.ext_iff]
  exact ⟨fun h r => h r.1 r.2, fun h topic nodeID => h (topic, nodeID)⟩

theorem FaithfulScan.view {s : RaceState} {e : RaceEvent} (h : s.FaithfulScan e) :
    EventCache.Faithful s.view e.view := by
  cases e with
  | swap keys =>
    obtain ⟨scan, hscan, hkept, hseen⟩ := h
    refine ⟨scan.view, by rw [RaceState.view, hscan]; rfl, ?_, ?_⟩
    · rintro r ⟨key, hkey, hread⟩
      exact ⟨key, hkept key hkey, hread⟩
    · rintro r ⟨key, hkey, hread⟩
      exact ⟨key, hseen key hkey, hread⟩
  | _ => trivial

/-! ### Runs -/

/-- The events of one node arrive in order, a scan is faithful, and nobody writes a route during
another call for it or while an event of another node for it is under way. -/
structure Admissible (s : RaceState) (e : RaceEvent) : Prop where
  fifo : EventCache.Fifo s.view e.view
  faithful : s.FaithfulScan e
  oneWriter : EventCache.OneWriter s.view e.view

/-- Every route on which the scan differs from the store has an event under way at the swap. -/
def Covered (s : RaceState) (e : RaceEvent) : Prop := EventCache.Covered s.view e.view

/-- Every route that was written during the scan has an event under way at the swap. -/
def Undelivered (s : RaceState) (e : RaceEvent) : Prop := EventCache.Undelivered s.view e.view

private theorem settles_start {store : KeyStore} : (start store).Settles := by
  intro topic nodeID
  refine (RouteTables.hasRoute_reconcile store.keys topic nodeID).trans ?_
  exact Iff.rfl

/-- The cache settles all along a run exactly if every swap is covered. It is if the routes that
were written during the scan all have events under way. -/
theorem reconcile_settles_iff (store : KeyStore) (events : List RaceEvent)
    (hsep : ∀ e ∈ events, e.Separated)
    (hrun : Along step Admissible (start store) events) :
    (Always step Settles (start store) events ↔
      Along step Covered (start store) events) ∧
    (Along step Undelivered (start store) events →
      Along step Covered (start store) events) := by
  have hview : ∀ e ∈ events, ∀ s : RaceState, (s.step e).view = EventCache.step s.view e.view :=
    fun e he s => view_step (hsep e he) s
  have hordered : EventCache.Ordered (start store).view := ⟨List.Pairwise.nil, by simp [start, view,
    EventCache.State.underWay]⟩
  have hpath : Along EventCache.step
      (fun s e => EventCache.Fifo s e ∧ EventCache.OneWriter s e) (start store).view
      (events.map RaceEvent.view) :=
    (along_view hview _ _).2 (hrun.imp fun _ _ h => ⟨h.fifo, h.oneWriter⟩)
  have hscans : Along EventCache.step EventCache.Faithful (start store).view
      (events.map RaceEvent.view) :=
    (along_view hview _ _).2 (hrun.imp fun _ _ h => h.faithful.view)
  constructor
  · have hsettles := EventCache.settles_always_iff hordered (settles_iff.1 settles_start) hpath
    rw [always_view hview, along_view hview] at hsettles
    simp only [← settles_iff] at hsettles
    exact hsettles
  · intro hundelivered
    refine (along_view hview _ _).1
      (EventCache.along_covered_of_undelivered (fun scan h => ?_) hscans ?_)
    · cases h
    · exact (along_view hview _ _).2 hundelivered

/-- A route is written before the scan, and its event arrives after the swap. -/
def lateEvent : List RaceEvent :=
  [.write ['m'] (.subscribe ['t'] ['n']), .beginScan, .publish 0, .swap [routeKey ['t'] ['n']],
    .deliver 0]

/-- Such a route is not lost. -/
theorem settles_lateEvent : Always step Settles (start ∅) lateEvent := by
  have hnode : keySep ∉ ['n'] := by decide
  have hsep : ∀ e ∈ lateEvent, e.Separated := by
    simp only [lateEvent, List.forall_mem_cons]
    exact ⟨hnode, trivial, trivial, trivial, trivial, nofun⟩
  have hrun : Along step Admissible (start ∅) lateEvent := by
    refine ⟨⟨trivial, trivial, ?_⟩, ⟨trivial, trivial, trivial⟩, ⟨trivial, trivial, trivial⟩,
      ⟨trivial, ?_, trivial⟩, ⟨?_, trivial, trivial⟩, trivial⟩
    · exact ⟨nofun, nofun⟩
    · exact ⟨_, rfl, by decide +kernel, by decide +kernel⟩
    · exact fun _ _ => nofun
  have hundelivered : Along step Undelivered (start ∅) lateEvent := by
    refine ⟨trivial, trivial, trivial, fun scan hscan k hk => ?_, trivial, trivial⟩
    cases hscan
    exact absurd hk List.not_mem_nil
  obtain ⟨hiff, hcovered⟩ := reconcile_settles_iff ∅ lateEvent hsep hrun
  exact hiff.2 (hcovered hundelivered)

/-- A route is written during the scan, and its event arrives before the swap. -/
def earlyEvent : List RaceEvent :=
  [.beginScan, .write ['m'] (.subscribe ['t'] ['n']), .publish 0, .deliver 0, .swap []]

/-- The scan has passed by the key of the route, and the swap drops what the event had brought. No
event is left, and the cache lacks a route that is in the store. -/
theorem not_settles_earlyEvent :
    Along step Admissible (start ∅) earlyEvent ∧
      (run step (start ∅) earlyEvent).calls = [] ∧
      (run step (start ∅) earlyEvent).channel = [] ∧
      (run step (start ∅) earlyEvent).store.HasRoute ['t'] ['n'] ∧
      ¬ (run step (start ∅) earlyEvent).cache.HasRoute ['t'] ['n'] := by
  refine ⟨?_, by decide +kernel, by decide +kernel, KeyStore.hasRoute_iff.2 (by decide +kernel),
    by decide +kernel⟩
  refine ⟨⟨trivial, trivial, trivial⟩, ⟨trivial, trivial, ?_⟩, ⟨trivial, trivial, trivial⟩,
    ⟨?_, trivial, trivial⟩, ⟨trivial, ?_, trivial⟩, trivial⟩
  · exact ⟨nofun, nofun⟩
  · exact fun _ _ => nofun
  · exact ⟨_, rfl, by decide +kernel, nofun⟩

end RaceState

end KeelGateway.Routing
