import KeelGateway.Broker.Subscriptions
import KeelGateway.Mochi.ClientLifetime
import KeelGateway.Raft.Sessions

/-!
# The claim and the routes of a live connection

On one node, the handlers of a CONNECT and of the end of an older connection of the same client run
side by side. Each consists of several calls: only the bookkeeping of the gateway hook is done under
its lock, the session map, the filter references and the routes are changed before and after it. The
end of a connection finds out under the lock whether a newer connection has replaced it; what it
does afterwards is addressed to the client ID alone.

-/

namespace KeelGateway.Broker

open Mochi Raft StepMachine

/-! ### The machine -/

/-- The calls that register a filter. -/
inductive RouteCall where
  | addRef (filter : Text)
  | subscribe (filter : Text)
  deriving DecidableEq

/-- How far the handler of a connection has come. -/
inductive HandlerPhase where
  /-- The bookkeeping of `OnConnectAuthenticate` is done, `ClaimSession` comes next. -/
  | booked
  | claimed
  /-- The routes are registered, then `inheritClientSession` comes. -/
  | registering (calls : List RouteCall)
  | connected
  /-- `OnDisconnect` has been called, the check under the lock comes next. -/
  | checking
  | placing
  | removing
  /-- `Unsubscribe` at the registry for each of the filters, then `ReleaseSession`. -/
  | unsubscribing (filters : List Text)
  /-- `OnDisconnect` has returned, and the broker drops the session if it ends. -/
  | cleaning
  | ended
  deriving DecidableEq

/-- A client object of the node. -/
structure LocalClient where
  properties : ClientProperties := {}
  identity : Text := []
  filters : List Text := []
  phase : HandlerPhase := .ended
  stop : Option StopCause := none
  takenOver : Bool := false

/-- The client ID and the node. -/
structure NodeConfig where
  clientID : Text
  node : Text

/-- The state of a node that concerns one client ID. -/
structure NodeState where
  /-- The entry in the table of the gateway hook: a client object and its generation. -/
  tracked : Option (ℕ × ℕ) := none
  generation : ℕ := 0
  sessions : Sessions := {}
  refs : FilterRefs := ∅
  routes : GoMap Text Unit := ∅
  ownership : GoMap Text Text := ∅
  clients : Option ℕ := none
  objects : ℕ → LocalClient := fun _ => {}
  count : ℕ := 0

/-- What happens on the node. -/
inductive NodeEvent where
  /-- A CONNECT, up to the end of the bookkeeping under the lock. -/
  | connect (properties : ClientProperties) (identity : Text)
  /-- The next call of a handler. `stored` is the session that Redis has for the client when the
  call reads it, `owner` the rendezvous owner among the live edge nodes. -/
  | advance (i : ℕ) (stored : Option (List Text)) (owner : Option Text)
  /-- A SUBSCRIBE of an established connection; the broker accepts some of the filters. -/
  | subscribe (i : ℕ) (filters : List Text) (accepted : Text → Bool)
  | stop (i : ℕ)
  | disconnect (i : ℕ)

/-- `removeClusterFilterRefs`: the table afterwards and the filters without a user. -/
def removeClusterFilterRefs (refs : FilterRefs) (clientID : Text) :
    List Text → FilterRefs × List Text
  | [] => (refs, [])
  | f :: filters =>
    let (refs, last) := removeClusterFilterRef refs clientID f
    let (refs, lastUsers) := removeClusterFilterRefs refs clientID filters
    (refs, if last then f :: lastUsers else lastUsers)

/-- `subscribeClusterFilters` without interruption: references and routes afterwards. -/
def subscribeClusterFilters (clientID : Text) (refs : FilterRefs) (routes : GoMap Text Unit) :
    List Text → FilterRefs × GoMap Text Unit
  | [] => (refs, routes)
  | f :: filters =>
    let (refs, first) := addClusterFilterRef refs clientID f
    subscribeClusterFilters clientID refs (if first then routes.insert f () else routes) filters

/-- `Client.Stop`: only the first call counts. -/
def LocalClient.stopped (l : LocalClient) (cause : StopCause) : LocalClient :=
  { l with stop := l.stop.or (some cause) }

/-- The existing client object after `inheritClientSession`. -/
def LocalClient.replaced (l : LocalClient) : LocalClient :=
  { l.stopped .sessionTakenOver with takenOver := true, filters := [] }

namespace NodeState

variable (cfg : NodeConfig)

/-- A client object is exchanged. -/
def put (s : NodeState) (i : ℕ) (l : LocalClient) : NodeState :=
  { s with objects := Function.update s.objects i l }

/-- A handler comes to its next call. -/
def goTo (s : NodeState) (i : ℕ) (phase : HandlerPhase) : NodeState :=
  s.put i { s.objects i with phase := phase }

/-- `Clients.Add` of a client object without a connection. -/
def withGhost (s : NodeState) (ghost : LocalClient) : NodeState :=
  { s.put s.count ghost with clients := some s.count, count := s.count + 1 }

/-- The bookkeeping of `OnConnectAuthenticate` under the lock of the hook. -/
def booked (s : NodeState) (properties : ClientProperties) (identity : Text) : NodeState :=
  { s.put s.count { properties := properties, identity := identity, phase := .booked } with
    tracked := some (s.count, s.generation + 1)
    generation := s.generation + 1
    count := s.count + 1 }

/-- `claimClusterSession`. -/
def claimed (s : NodeState) (i : ℕ) : NodeState :=
  { s.goTo i .claimed with
    sessions := (s.sessions.claimSession cfg.clientID cfg.node (s.objects i).identity).1 }

/-- `clearOfflineOwnership`. -/
def clearOfflineOwnership (s : NodeState) (stored : Option (List Text)) : NodeState :=
  { s with ownership := (stored.getD []).foldl (fun m f => m.erase f) s.ownership }

/-- The client object that a resuming connection is to inherit from, and the filters to register:
the one in the table, or one without a connection that is made from Redis. -/
def seeded (s : NodeState) (i : ℕ) (stored : Option (List Text)) : NodeState :=
  match s.clients with
  | some j => s.goTo i (.registering ((s.objects j).filters.map .addRef))
  | none =>
    match stored with
    | none => s.goTo i (.registering [])
    | some filters =>
      let ghost : LocalClient :=
        { properties := { protocolVersion := (s.objects i).properties.protocolVersion }
          filters := filters }
      (s.withGhost ghost).goTo i (.registering (filters.map .addRef))

/-- `OnSessionEstablish` up to the registration of the routes. -/
def established (s : NodeState) (i : ℕ) (stored : Option (List Text)) : NodeState :=
  if (s.objects i).properties.clean then s.goTo i (.registering [])
  else (s.clearOfflineOwnership stored).seeded i stored

/-- `OnUnsubscribed` of the gateway hook, for a client object that drops its subscriptions. -/
def unsubscribed (s : NodeState) (filters : List Text) : NodeState :=
  let (refs, lastUsers) := removeClusterFilterRefs s.refs cfg.clientID filters
  { s with refs := refs, routes := lastUsers.foldl (fun m f => m.erase f) s.routes }

/-- A connection replaces the client object in the table: `Clients.Add`. -/
def takeOver (s : NodeState) (i j : ℕ) (existing l : LocalClient) : NodeState :=
  { (s.put j existing.replaced).put i l with clients := some i }

/-- `inheritClientSession` from an existing client object, then `Clients.Add`. -/
def inherited (s : NodeState) (i j : ℕ) : NodeState :=
  let existing := s.objects j
  let l := s.objects i
  if l.properties.discards existing.properties then
    (s.unsubscribed cfg (if existing.takenOver then [] else existing.filters)).takeOver i j existing
      { l with phase := .connected }
  else s.takeOver i j existing { l with filters := existing.filters, phase := .connected }

/-- `inheritClientSession` and `Clients.Add`. -/
def attached (s : NodeState) (i : ℕ) : NodeState :=
  match s.clients with
  | none => { s.goTo i .connected with clients := some i }
  | some j => s.inherited cfg i j

/-- The registration of the routes, one call at a time. -/
def registered (s : NodeState) (i : ℕ) : List RouteCall → NodeState
  | [] => s.attached cfg i
  | .addRef f :: calls =>
    let r := addClusterFilterRef s.refs cfg.clientID f
    { s.goTo i (.registering (if r.2 then .subscribe f :: calls else calls)) with refs := r.1 }
  | .subscribe f :: calls =>
    { s.goTo i (.registering calls) with routes := s.routes.insert f () }

/-- The part of `OnDisconnect` under the lock of the hook. -/
def checked (s : NodeState) (i : ℕ) : NodeState :=
  if s.tracked = some (i, s.generation) then
    if (s.objects i).properties.expire || (s.objects i).stop = some .sessionTakenOver then
      { s.goTo i .removing with tracked := none, generation := 0 }
    else s.goTo i .placing
  else s.goTo i .cleaning

/-- `placeOfflineOwnership`. -/
def placed (s : NodeState) (i : ℕ) (owner : Option Text) : NodeState :=
  { s.goTo i .removing with ownership := match owner with
      | none => s.ownership
      | some owner => (s.objects i).filters.foldl (fun m f => m.insert f owner) s.ownership }

/-- `removeClusterFilterRefs` in `unsubscribeClusterFilters`. -/
def removed (s : NodeState) (i : ℕ) : NodeState :=
  let r := removeClusterFilterRefs s.refs cfg.clientID (s.objects i).filters
  { s.goTo i (.unsubscribing r.2) with refs := r.1 }

/-- The calls of `Unsubscribe` one by one, then `ReleaseSession`. -/
def released (s : NodeState) (i : ℕ) : List Text → NodeState
  | [] =>
    { s.goTo i .cleaning with sessions := s.sessions.releaseSession cfg.clientID cfg.node }
  | f :: filters => { s.goTo i (.unsubscribing filters) with routes := s.routes.erase f }

/-- What `attachClient` does after `OnDisconnect`. -/
def cleaned (s : NodeState) (i : ℕ) : NodeState :=
  if (s.objects i).properties.expire && !(s.objects i).takenOver then
    { (s.unsubscribed cfg (s.objects i).filters).put i
        { s.objects i with filters := [], phase := .ended } with
      clients := none }
  else s.goTo i .ended

/-- The next call of a handler. -/
def advanced (s : NodeState) (i : ℕ) (stored : Option (List Text)) (owner : Option Text) :
    NodeState :=
  match (s.objects i).phase with
  | .booked => s.claimed cfg i
  | .claimed => s.established i stored
  | .registering calls => s.registered cfg i calls
  | .checking => s.checked i
  | .placing => s.placed i owner
  | .removing => s.removed cfg i
  | .unsubscribing filters => s.released cfg i filters
  | .cleaning => s.cleaned cfg i
  | .connected | .ended => s

/-- `processSubscribe` with the gateway hook: the hook gets all filters of the packet. -/
def subscribed (s : NodeState) (i : ℕ) (filters : List Text) (accepted : Text → Bool) :
    NodeState :=
  let l := s.objects i
  if l.phase = .connected ∧ l.stop = none then
    let r := subscribeClusterFilters cfg.clientID s.refs s.routes filters
    { s.put i { l with filters := l.filters ++ filters.filter accepted } with
      refs := r.1
      routes := r.2 }
  else s

/-- One event. -/
def step (s : NodeState) : NodeEvent → NodeState
  | .connect properties identity => s.booked properties identity
  | .advance i stored owner => s.advanced cfg i stored owner
  | .subscribe i filters accepted => s.subscribed cfg i filters accepted
  | .stop i => s.put i ((s.objects i).stopped .other)
  | .disconnect i =>
    if (s.objects i).phase = .connected ∧ (s.objects i).stop.isSome then s.goTo i .checking else s

end NodeState

namespace HandlerPhase

/-- The handler of the CONNECT is running. -/
def connecting : HandlerPhase → Bool
  | booked | claimed | registering _ => true
  | _ => false

/-- The connection has been established, and its end is not complete. -/
def attached : HandlerPhase → Bool
  | connected | checking | placing | removing | unsubscribing _ | cleaning => true
  | _ => false

/-- The end of the connection has passed the check under the lock and has not released the session
yet. -/
def passed : HandlerPhase → Bool
  | placing | removing | unsubscribing _ => true
  | _ => false

/-- The connection has been established, and the check under the lock has not been made. -/
def holding : HandlerPhase → Bool
  | connected | checking => true
  | _ => false

/-- A handler of the connection is running. -/
def running : HandlerPhase → Bool
  | connected | ended => false
  | _ => true

variable {p : HandlerPhase}

theorem attached_of_holding (hp : p.holding = true) : p.attached = true := by
  cases p with
  | connected | checking => rfl
  | _ => cases hp

private theorem connecting_eq_false (hp : p.running = false) : p.connecting = false := by
  cases p with
  | connected | ended => rfl
  | _ => cases hp

private theorem passed_eq_false (hp : p.running = false) : p.passed = false := by
  cases p with
  | connected | ended => rfl
  | _ => cases hp

end HandlerPhase

namespace NodeState

variable (cfg : NodeConfig)

/-- No handler is running. -/
def Quiet (s : NodeState) : Prop := ∀ i, (s.objects i).phase.running = false

/-- When no handler is running, a live connection has its claim, and for each of its subscriptions a
filter reference and a route. -/
def Keeps (s : NodeState) : Prop :=
  s.Quiet → ∀ i, (s.objects i).phase = .connected → (s.objects i).stop = none →
    s.sessions.sessions.lookup cfg.clientID = some cfg.node ∧
      ∀ f ∈ (s.objects i).filters, HoldsRef s.refs cfg.clientID f ∧ f ∈ s.routes

/-- A CONNECT begins only when no handler is running. -/
def Serial (s : NodeState) : NodeEvent → Prop
  | .connect _ _ => s.Quiet
  | _ => True

/-- The node has no client object of the client yet, and the filters that other clients use are
registered. -/
structure Start (s : NodeState) : Prop where
  tracked : s.tracked = none
  clients : s.clients = none
  objects : ∀ i, (s.objects i).phase = .ended ∧ (s.objects i).takenOver = false
  routed : ∀ f c, HoldsRef s.refs c f → f ∈ s.routes

end NodeState

/-! ### Filter references of several clients -/

section Refs

variable (refs : FilterRefs) (clientID : Text)

theorem exists_holdsRef_of_not_first {filter : Text}
    (h : (addClusterFilterRef refs clientID filter).2 = false) : ∃ c, HoldsRef refs c filter := by
  unfold addClusterFilterRef at h
  cases hl : refs.lookup filter with
  | none => simp [hl] at h
  | some clients =>
    simp only [hl] at h
    split_ifs at h with hmem
    · exact ⟨clientID, clients, hl, hmem⟩
    · obtain ⟨row, hrow⟩ := List.exists_mem_of_ne_nil _ (List.isEmpty_eq_false_iff.1 h)
      exact ⟨row.1, clients, hl, AList.mem_keys.2 (List.mem_map_of_mem hrow)⟩

theorem not_holdsRef_of_last {filter : Text}
    (h : (removeClusterFilterRef refs clientID filter).2 = true) (c : Text) :
    ¬ HoldsRef (removeClusterFilterRef refs clientID filter).1 c filter := by
  unfold removeClusterFilterRef HoldsRef at *
  cases hl : refs.lookup filter with
  | none => simp [hl]
  | some clients =>
    simp only [hl] at h ⊢
    split_ifs at h ⊢ with hempty
    simp

variable {refs clientID} {f : Text} {filters : List Text}

theorem holdsRef_removeClusterFilterRefs {c : Text} :
    HoldsRef (removeClusterFilterRefs refs clientID filters).1 c f ↔
      HoldsRef refs c f ∧ ¬ (c = clientID ∧ f ∈ filters) := by
  induction filters generalizing refs with
  | nil => simp [removeClusterFilterRefs]
  | cons filter filters ih =>
    simp only [removeClusterFilterRefs, ih, holdsRef_removeClusterFilterRef, List.mem_cons]
    tauto

theorem HoldsRef.of_removeAll {c : Text}
    (h : HoldsRef (removeClusterFilterRefs refs clientID filters).1 c f) : HoldsRef refs c f :=
  (holdsRef_removeClusterFilterRefs.1 h).1

theorem not_holdsRef_of_mem_last (h : f ∈ (removeClusterFilterRefs refs clientID filters).2)
    (c : Text) : ¬ HoldsRef (removeClusterFilterRefs refs clientID filters).1 c f := by
  induction filters generalizing refs with
  | nil => simp [removeClusterFilterRefs] at h
  | cons filter filters ih =>
    simp only [removeClusterFilterRefs] at h
    split_ifs at h with hlast
    · rcases List.mem_cons.1 h with rfl | h
      · exact fun hc => not_holdsRef_of_last refs clientID hlast c (HoldsRef.of_removeAll hc)
      · exact ih h
    · exact ih h

theorem holdsRef_subscribeAll_iff (routes : GoMap Text Unit) (filters : List Text) (c f : Text) :
    HoldsRef (subscribeClusterFilters clientID refs routes filters).1 c f ↔
      HoldsRef refs c f ∨ (c = clientID ∧ f ∈ filters) := by
  induction filters generalizing refs routes with
  | nil => simp [subscribeClusterFilters]
  | cons filter filters ih =>
    simp only [subscribeClusterFilters, ih, holdsRef_addClusterFilterRef, List.mem_cons]
    tauto

theorem routed_subscribeAll {p : Text → Prop} {routes : GoMap Text Unit} (filters : List Text)
    (h : ∀ f c, HoldsRef refs c f → f ∈ routes ∨ p f) (f c : Text)
    (hf : HoldsRef (subscribeClusterFilters clientID refs routes filters).1 c f) :
    f ∈ (subscribeClusterFilters clientID refs routes filters).2 ∨ p f := by
  induction filters generalizing refs routes with
  | nil => exact h f c hf
  | cons filter filters ih =>
    refine ih (fun g d hg => ?_) hf
    rcases (holdsRef_addClusterFilterRef refs clientID filter d g).1 hg with hg | ⟨-, rfl⟩
    · refine (h g d hg).imp_left fun hroute => ?_
      split_ifs
      · exact (AList.mem_insert _).2 (Or.inr hroute)
      · exact hroute
    · split_ifs with hfirst
      · exact Or.inl ((AList.mem_insert _).2 (Or.inl rfl))
      · obtain ⟨d', hd'⟩ := exists_holdsRef_of_not_first refs clientID
          (eq_false_of_ne_true hfirst)
        exact h g d' hd'

end Refs

/-! ### The invariant -/

namespace NodeState

variable (cfg : NodeConfig)

/-- The filter will be registered by a handler that is running. -/
def Pending (s : NodeState) (f : Text) : Prop :=
  ∃ i calls, (s.objects i).phase = .registering calls ∧ .subscribe f ∈ calls

/-- The tables of the broker and of the hook in a serial run: both point to the newest
connection. -/
structure Tables (s : NodeState) : Prop where
  unborn : ∀ i, s.count ≤ i → (s.objects i).phase = .ended
  clients_lt : ∀ j ∈ s.clients, j < s.count
  table : ∀ i, (s.objects i).takenOver = false → (s.objects i).phase.attached = true →
    s.clients = some i
  table_attached : ∀ j ∈ s.clients, (s.objects j).phase.connecting = false
  tracked : ∀ i, (s.objects i).phase.connecting = true → ∃ g, s.tracked = some (i, g)
  tracked_open : ∀ i g, s.tracked = some (i, g) → (s.objects i).takenOver = false
  blank : ∀ i, (s.objects i).phase.connecting = true → (s.objects i).filters = []
  stopped : ∀ i, (s.objects i).takenOver = true → (s.objects i).stop ≠ none
  alone : ∀ i, (s.objects i).phase.passed = true → ∀ j,
    (s.objects j).phase.connecting = false ∧
      ((s.objects j).phase.holding = true → (s.objects j).takenOver = true)

/-- What a serial run preserves: the newest connection has its claim and its references, or will
find them when it inherits, and routes are only removed for filters that nobody uses. -/
structure Inv (s : NodeState) : Prop extends s.Tables where
  owner : ∀ i, (s.objects i).phase ≠ .booked →
    ((s.objects i).phase.connecting = true ∨
      ((s.objects i).phase.holding = true ∧ (s.objects i).takenOver = false)) →
    s.sessions.sessions.lookup cfg.clientID = some cfg.node
  held : ∀ i, (s.objects i).phase.holding = true → (s.objects i).takenOver = false →
    ∀ f ∈ (s.objects i).filters, HoldsRef s.refs cfg.clientID f
  inheritable : ∀ i calls, (s.objects i).phase = .registering calls →
    (s.objects i).properties.clean = false → ∀ j ∈ s.clients, ∀ f ∈ (s.objects j).filters,
      HoldsRef s.refs cfg.clientID f ∨ .addRef f ∈ calls
  routed : ∀ f c, HoldsRef s.refs c f → f ∈ s.routes ∨ s.Pending f
  unrouted : ∀ i filters, (s.objects i).phase = .unsubscribing filters → ∀ f ∈ filters, ∀ c,
    ¬ HoldsRef s.refs c f

variable {cfg}

theorem inv_start {s : NodeState} (h : s.Start) : s.Inv cfg where
  unborn i _ := (h.objects i).1
  clients_lt j hj := by simp [h.clients] at hj
  table i _ hi := by simp [(h.objects i).1, HandlerPhase.attached] at hi
  table_attached j hj := by simp [h.clients] at hj
  tracked i hi := by simp [(h.objects i).1, HandlerPhase.connecting] at hi
  tracked_open i _ _ := (h.objects i).2
  blank i hi := by simp [(h.objects i).1, HandlerPhase.connecting] at hi
  stopped i hi := by simp [(h.objects i).2] at hi
  alone i hi := by simp [(h.objects i).1, HandlerPhase.passed] at hi
  owner i _ hi := by simp [(h.objects i).1, HandlerPhase.connecting, HandlerPhase.holding] at hi
  held i hi := by simp [(h.objects i).1, HandlerPhase.holding] at hi
  inheritable i calls hi := by simp [(h.objects i).1] at hi
  routed f c hf := Or.inl (h.routed f c hf)
  unrouted i filters hi := by simp [(h.objects i).1] at hi

theorem Inv.keeps {s : NodeState} (h : s.Inv cfg) : s.Keeps cfg := by
  intro hquiet i hphase hstop
  have hopen : (s.objects i).takenOver = false := by
    by_contra htaken
    exact h.stopped i (by simpa using htaken) hstop
  have hhold : (s.objects i).phase.holding = true := by rw [hphase]; rfl
  refine ⟨h.owner i (by rw [hphase]; decide) (Or.inr ⟨hhold, hopen⟩), fun f hf => ?_⟩
  have href := h.held i hhold hopen f hf
  refine ⟨href, (h.routed f _ href).resolve_right ?_⟩
  rintro ⟨j, calls, hj, -⟩
  have hrun := hquiet j
  rw [hj] at hrun
  cases hrun

end NodeState

/-! ### A handler moves on -/

/-- The moves of a handler other than its entry into a table and the check under the lock. -/
inductive HandlerPhase.Next : HandlerPhase → HandlerPhase → Prop
  | claim : Next .booked .claimed
  | establish (calls : List RouteCall) : Next .claimed (.registering calls)
  | register (calls calls' : List RouteCall) : Next (.registering calls) (.registering calls')
  | disconnect : Next .connected .checking
  | supersede : Next .checking .cleaning
  | place : Next .placing .removing
  | remove (filters : List Text) : Next .removing (.unsubscribing filters)
  | unsubscribe (filters filters' : List Text) :
    Next (.unsubscribing filters) (.unsubscribing filters')
  | release (filters : List Text) : Next (.unsubscribing filters) .cleaning
  | finish : Next .cleaning .ended

namespace HandlerPhase.Next

variable {q p : HandlerPhase} (h : Next q p)

include h

theorem connecting (hp : p.connecting = true) : q.connecting = true := by
  cases h <;> first | rfl | cases hp

theorem attached (hp : p.attached = true) : q.attached = true := by
  cases h <;> first | rfl | cases hp

theorem holding (hp : p.holding = true) : q.holding = true := by
  cases h <;> first | rfl | cases hp

theorem passed (hp : p.passed = true) : q.passed = true := by
  cases h <;> first | rfl | cases hp

private theorem ne_ended : q ≠ .ended := by
  cases h <;> exact nofun

end HandlerPhase.Next

namespace NodeState

variable {cfg : NodeConfig} {s : NodeState} {i : ℕ}

theorem objects_put (s : NodeState) (i j : ℕ) (l : LocalClient) :
    (s.put i l).objects j = if j = i then l else s.objects j :=
  Function.update_apply ..

theorem field_put {α : Type} (a : LocalClient → α) {l : LocalClient} (hl : a l = a (s.objects i))
    (j : ℕ) : a ((s.put i l).objects j) = a (s.objects j) := by
  rw [objects_put]
  split_ifs with hj
  · rw [hj, hl]
  · rfl

theorem kind_put {b : HandlerPhase → Bool} {l : LocalClient} (hl : b l.phase = false) {j : ℕ}
    (hj : b ((s.put i l).objects j).phase = true) :
    j ≠ i ∧ (s.put i l).objects j = s.objects j ∧ b (s.objects j).phase = true := by
  rw [objects_put] at hj ⊢
  split_ifs at hj ⊢ with hji
  · exact absurd (hl.symm.trans hj) nofun
  · exact ⟨hji, rfl, hj⟩

theorem phase_put {p : HandlerPhase} {l : LocalClient} (hl : l.phase ≠ p) {j : ℕ}
    (hj : ((s.put i l).objects j).phase = p) : (s.objects j).phase = p := by
  rw [objects_put] at hj
  split_ifs at hj
  · exact absurd hj hl
  · exact hj

@[simp] theorem takenOver_goTo (s : NodeState) (i j : ℕ) (p : HandlerPhase) :
    ((s.goTo i p).objects j).takenOver = (s.objects j).takenOver := by
  refine field_put LocalClient.takenOver ?_ j
  rfl

@[simp] theorem filters_goTo (s : NodeState) (i j : ℕ) (p : HandlerPhase) :
    ((s.goTo i p).objects j).filters = (s.objects j).filters := by
  refine field_put LocalClient.filters ?_ j
  rfl

@[simp] theorem stop_goTo (s : NodeState) (i j : ℕ) (p : HandlerPhase) :
    ((s.goTo i p).objects j).stop = (s.objects j).stop := by
  refine field_put LocalClient.stop ?_ j
  rfl

@[simp] theorem properties_goTo (s : NodeState) (i j : ℕ) (p : HandlerPhase) :
    ((s.goTo i p).objects j).properties = (s.objects j).properties := by
  refine field_put LocalClient.properties ?_ j
  rfl

theorem phase_goTo (s : NodeState) (i j : ℕ) (p : HandlerPhase) :
    ((s.goTo i p).objects j).phase = if j = i then p else (s.objects j).phase := by
  rw [goTo, objects_put]
  split_ifs <;> rfl

variable {j : ℕ} {p q : HandlerPhase}

theorem kind_goTo {k : HandlerPhase → Bool} (hq : (s.objects i).phase = q)
    (hk : k p = true → k q = true) (hj : k ((s.goTo i p).objects j).phase = true) :
    k (s.objects j).phase = true := by
  rw [phase_goTo] at hj
  split_ifs at hj with hji
  · rw [hji, hq]
    exact hk hj
  · exact hj

theorem Tables.lt_count (h : s.Tables) (hi : (s.objects i).phase ≠ .ended) : i < s.count := by
  by_contra hle
  exact hi (h.unborn i (by omega))

theorem Tables.goTo (h : s.Tables) (hq : (s.objects i).phase = q) (hnext : q.Next p) :
    (s.goTo i p).Tables where
  unborn j hj := by
    rw [phase_goTo, if_neg (Nat.ne_of_gt (lt_of_lt_of_le (h.lt_count (hq ▸ hnext.ne_ended)) hj))]
    exact h.unborn j hj
  clients_lt := h.clients_lt
  table j htaken hj := h.table j (by simpa using htaken) (kind_goTo hq hnext.attached hj)
  table_attached j hj := by
    by_contra hconn
    have hold := kind_goTo hq hnext.connecting (by simpa using hconn)
    rw [h.table_attached j hj] at hold
    cases hold
  tracked j hj := h.tracked j (kind_goTo hq hnext.connecting hj)
  tracked_open j g hj := by simpa using h.tracked_open j g hj
  blank j hj := by simpa using h.blank j (kind_goTo hq hnext.connecting hj)
  stopped j hj := by simpa using h.stopped j (by simpa using hj)
  alone j hj j' := by
    obtain ⟨hconn, hhold⟩ := h.alone j (kind_goTo hq hnext.passed hj) j'
    refine ⟨?_, fun hj' => by simpa using hhold (kind_goTo hq hnext.holding hj')⟩
    by_contra hconn'
    have hold := kind_goTo hq hnext.connecting (by simpa using hconn')
    rw [hconn] at hold
    cases hold

theorem Inv.goTo (h : s.Inv cfg) (hq : (s.objects i).phase = q) (hnext : q.Next p)
    (hown : q = .booked → s.sessions.sessions.lookup cfg.clientID = some cfg.node)
    (hreg : ∀ calls, p = .registering calls → (s.objects i).properties.clean = false →
      ∀ j ∈ s.clients, ∀ f ∈ (s.objects j).filters,
        HoldsRef s.refs cfg.clientID f ∨ .addRef f ∈ calls)
    (hpend : ∀ calls f, q = .registering calls → .subscribe f ∈ calls →
      f ∈ s.routes ∨ ∃ calls', p = .registering calls' ∧ .subscribe f ∈ calls')
    (hunrouted : ∀ filters, p = .unsubscribing filters → ∀ f ∈ filters, ∀ c,
      ¬ HoldsRef s.refs c f) :
    (s.goTo i p).Inv cfg where
  toTables := h.toTables.goTo hq hnext
  owner j hbooked hj := by
    by_cases hji : j = i ∧ q = .booked
    · exact hown hji.2
    · refine h.owner j (fun hphase => ?_) (hj.imp (kind_goTo hq hnext.connecting) fun hj =>
        ⟨kind_goTo hq hnext.holding hj.1, by simpa using hj.2⟩)
      by_cases hj' : j = i
      · exact hji ⟨hj', hq.symm.trans (hj' ▸ hphase)⟩
      · exact hbooked (by rw [phase_goTo, if_neg hj']; exact hphase)
  held j hj htaken f hf :=
    h.held j (kind_goTo hq hnext.holding hj) (by simpa using htaken) f (by simpa using hf)
  inheritable j calls hj hclean k hk f hf := by
    rw [phase_goTo] at hj
    rw [properties_goTo] at hclean
    rw [filters_goTo] at hf
    split_ifs at hj with hji
    · subst hji
      exact hreg calls hj hclean k hk f hf
    · exact h.inheritable j calls hj hclean k hk f hf
  routed f c hf := by
    rcases h.routed f c hf with hroute | ⟨j, calls, hj, hmem⟩
    · exact Or.inl hroute
    · by_cases hji : j = i
      · subst hji
        refine (hpend calls f (hq.symm.trans hj) hmem).imp_right ?_
        rintro ⟨calls', rfl, hmem'⟩
        exact ⟨j, calls', by rw [phase_goTo, if_pos rfl], hmem'⟩
      · exact Or.inr ⟨j, calls, by rw [phase_goTo, if_neg hji]; exact hj, hmem⟩
  unrouted j filters hj := by
    rw [phase_goTo] at hj
    split_ifs at hj
    · exact hunrouted filters hj
    · exact h.unrouted j filters hj

/-! ### The calls of a CONNECT -/

theorem Tables.connecting_unique (h : s.Tables) (hi : (s.objects i).phase.connecting = true)
    (hj : (s.objects j).phase.connecting = true) : j = i := by
  obtain ⟨g, hg⟩ := h.tracked i hi
  obtain ⟨g', hg'⟩ := h.tracked j hj
  rw [hg] at hg'
  cases hg'
  rfl

theorem objects_booked (s : NodeState) (properties : ClientProperties) (identity : Text) (j : ℕ) :
    (s.booked properties identity).objects j =
      if j = s.count then { properties := properties, identity := identity, phase := .booked }
      else s.objects j :=
  objects_put s s.count j _

theorem Inv.booked (h : s.Inv cfg) (hquiet : s.Quiet) (properties : ClientProperties)
    (identity : Text) : (s.booked properties identity).Inv cfg := by
  have hconn (j : ℕ) : (s.objects j).phase.connecting = false :=
    HandlerPhase.connecting_eq_false (hquiet j)
  have hpassed (j : ℕ) : (s.objects j).phase.passed = false :=
    HandlerPhase.passed_eq_false (hquiet j)
  have hold {j : ℕ} (hj : j ≠ s.count) : (s.booked properties identity).objects j =
      s.objects j := by
    rw [objects_booked, if_neg hj]
  have hnew : (s.booked properties identity).objects s.count =
      { properties := properties, identity := identity, phase := .booked } := by
    rw [objects_booked, if_pos rfl]
  exact
    { unborn := fun j hj => by
        have hlt : s.count < j := hj
        rw [hold (Nat.ne_of_gt hlt)]
        exact h.unborn j (Nat.le_of_lt hlt)
      clients_lt := fun j hj => Nat.lt_succ_of_lt (h.clients_lt j hj)
      table := fun j htaken hj => by
        obtain ⟨hjc, -, hj⟩ := kind_put rfl hj
        rw [hold hjc] at htaken
        exact h.table j htaken hj
      table_attached := fun j hj => by
        rw [hold (Nat.ne_of_lt (h.clients_lt j hj))]
        exact hconn j
      tracked := fun j hj => by
        by_cases hjc : j = s.count
        · exact ⟨s.generation + 1, hjc ▸ rfl⟩
        · rw [hold hjc, hconn j] at hj
          cases hj
      tracked_open := fun j g hj => by
        cases hj
        rw [hnew]
      blank := fun j hj => by
        by_cases hjc : j = s.count
        · rw [hjc, hnew]
        · rw [hold hjc, hconn j] at hj
          cases hj
      stopped := fun j hj => by
        by_cases hjc : j = s.count
        · rw [hjc, hnew] at hj
          cases hj
        · rw [hold hjc] at hj ⊢
          exact h.stopped j hj
      alone := fun j hj => by
        obtain ⟨-, -, hj⟩ := kind_put rfl hj
        rw [hpassed j] at hj
        cases hj
      owner := fun j hbooked hj => by
        by_cases hjc : j = s.count
        · exact absurd (by rw [hjc, hnew]) hbooked
        · rw [hold hjc] at hbooked hj
          exact h.owner j hbooked hj
      held := fun j hj htaken f hf => by
        obtain ⟨hjc, -, hj⟩ := kind_put rfl hj
        rw [hold hjc] at htaken hf
        exact h.held j hj htaken f hf
      inheritable := fun j calls hj => by
        by_cases hjc : j = s.count
        · rw [hjc, hnew] at hj
          cases hj
        · have hno := hconn j
          rw [hold hjc] at hj
          rw [hj] at hno
          cases hno
      routed := fun f c hf => by
        refine Or.inl ((h.routed f c hf).resolve_right ?_)
        rintro ⟨j, calls, hj, -⟩
        have hno := hconn j
        rw [hj] at hno
        cases hno
      unrouted := fun j filters hj => by
        by_cases hjc : j = s.count
        · rw [hjc, hnew] at hj
          cases hj
        · rw [hold hjc] at hj
          exact h.unrouted j filters hj }

theorem Inv.withGhost (h : s.Inv cfg) (hclients : s.clients = none)
    (hreg : ∀ j calls, (s.objects j).phase ≠ .registering calls) (ghost : LocalClient)
    (hphase : ghost.phase = .ended) (hopen : ghost.takenOver = false) :
    (s.withGhost ghost).Inv cfg := by
  have hobj (j : ℕ) : (s.withGhost ghost).objects j = if j = s.count then ghost else s.objects j :=
    objects_put s s.count j ghost
  have hkind {b : HandlerPhase → Bool} (hb : b .ended = false) {j : ℕ}
      (hj : b ((s.withGhost ghost).objects j).phase = true) :
      (s.withGhost ghost).objects j = s.objects j ∧ b (s.objects j).phase = true :=
    (kind_put (by rw [hphase, hb]) hj).2
  exact
    { unborn := fun j hj => by
        have hlt : s.count < j := hj
        rw [hobj, if_neg (Nat.ne_of_gt hlt)]
        exact h.unborn j (Nat.le_of_lt hlt)
      clients_lt := fun j hj => by
        cases hj
        exact Nat.lt_succ_self _
      table := fun j htaken hj => by
        obtain ⟨heq, hj⟩ := hkind rfl hj
        have htable := h.table j (heq ▸ htaken) hj
        rw [hclients] at htable
        cases htable
      table_attached := fun j hj => by
        cases hj
        rw [hobj, if_pos rfl, hphase]
        rfl
      tracked := fun j hj => h.tracked j (hkind rfl hj).2
      tracked_open := fun j g hj => by
        rw [hobj]
        split_ifs
        · exact hopen
        · exact h.tracked_open j g hj
      blank := fun j hj => by
        obtain ⟨heq, hj⟩ := hkind rfl hj
        rw [heq]
        exact h.blank j hj
      stopped := fun j hj => by
        rw [hobj] at hj ⊢
        split_ifs at hj ⊢
        · rw [hopen] at hj
          cases hj
        · exact h.stopped j hj
      alone := fun j hj j' => by
        obtain ⟨hconn, hhold⟩ := h.alone j (hkind rfl hj).2 j'
        rw [hobj]
        split_ifs
        · rw [hphase]
          exact ⟨rfl, nofun⟩
        · exact ⟨hconn, hhold⟩
      owner := fun j hbooked hj => by
        have heq : (s.withGhost ghost).objects j = s.objects j := hj.elim
          (fun hj => (hkind rfl hj).1)
          fun hj => (hkind rfl hj.1).1
        rw [heq] at hbooked hj
        exact h.owner j hbooked hj
      held := fun j hj htaken f hf => by
        obtain ⟨heq, hj⟩ := hkind rfl hj
        rw [heq] at htaken hf
        exact h.held j hj htaken f hf
      inheritable := fun j calls hj =>
        absurd (phase_put (by rw [hphase]; exact nofun) hj) (hreg j calls)
      routed := fun f c hf => (h.routed f c hf).imp_right fun ⟨j, calls, hj, _⟩ =>
        absurd hj (hreg j calls)
      unrouted := fun j filters hj => h.unrouted j filters
        (phase_put (by rw [hphase]; exact nofun) hj) }

theorem Inv.seeded (h : s.Inv cfg) (hi : (s.objects i).phase = .claimed)
    (stored : Option (List Text)) : (s.seeded i stored).Inv cfg := by
  have hconn : (s.objects i).phase.connecting = true := by rw [hi]; rfl
  unfold NodeState.seeded
  split
  · rename_i j hj
    refine h.goTo hi (.establish _) nofun (fun calls hcalls _ k hk f hf => Or.inr ?_) nofun nofun
    cases hcalls
    obtain rfl : j = k := Option.some.inj (hj.symm.trans hk)
    exact List.mem_map_of_mem hf
  · rename_i hclients
    have hreg (j : ℕ) (calls : List RouteCall) : (s.objects j).phase ≠ .registering calls := by
      intro hj
      obtain rfl := h.connecting_unique hconn (by rw [hj]; rfl)
      rw [hi] at hj
      cases hj
    cases stored with
    | none =>
      refine h.goTo hi (.establish []) nofun (fun _ _ _ k hk => ?_) nofun nofun
      rw [hclients] at hk
      cases hk
    | some filters =>
      have hlt := h.lt_count (by rw [hi]; exact nofun)
      have hghost := h.withGhost hclients hreg
        { properties := { protocolVersion := (s.objects i).properties.protocolVersion }
          filters := filters } rfl rfl
      refine hghost.goTo ?_ (.establish _) nofun (fun calls hcalls _ k hk f hf => Or.inr ?_) nofun
        nofun
      · rw [NodeState.withGhost, objects_put, if_neg (Nat.ne_of_lt hlt)]
        exact hi
      · cases hcalls
        cases hk
        rw [NodeState.withGhost, objects_put, if_pos rfl] at hf
        exact List.mem_map_of_mem hf

theorem Inv.established (h : s.Inv cfg) (hi : (s.objects i).phase = .claimed)
    (stored : Option (List Text)) : (s.established i stored).Inv cfg := by
  unfold NodeState.established
  split_ifs with hclean
  · refine h.goTo hi (.establish []) nofun (fun calls _ hno => ?_) nofun nofun
    rw [hclean] at hno
    cases hno
  · exact Inv.seeded (s := s.clearOfflineOwnership stored) { h with } hi stored

theorem Inv.claimed (h : s.Inv cfg) (hi : (s.objects i).phase = .booked) :
    (s.claimed cfg i).Inv cfg := by
  have hs : Inv cfg { s with sessions :=
      (s.sessions.claimSession cfg.clientID cfg.node (s.objects i).identity).1 } :=
    { h with owner := fun _ _ _ => Sessions.lookup_claimSession .. }
  exact hs.goTo hi .claim (fun _ => Sessions.lookup_claimSession ..) nofun nofun nofun

theorem Tables.not_passed (h : s.Tables) (hi : (s.objects i).phase.connecting = true) (j : ℕ) :
    (s.objects j).phase.passed = false := by
  by_contra hj
  have hno := (h.alone j (by simpa using hj) i).1
  rw [hi] at hno
  cases hno

theorem Inv.addRef (h : s.Inv cfg) {f : Text} {calls : List RouteCall}
    (hi : (s.objects i).phase = .registering (.addRef f :: calls)) :
    (s.registered cfg i (.addRef f :: calls)).Inv cfg := by
  have hconn : (s.objects i).phase.connecting = true := by rw [hi]; rfl
  have hgrow {c g : Text} (hg : HoldsRef s.refs c g) :
      HoldsRef (addClusterFilterRef s.refs cfg.clientID f).1 c g :=
    (holdsRef_addClusterFilterRef _ _ _ _ _).2 (Or.inl hg)
  have hown : HoldsRef (addClusterFilterRef s.refs cfg.clientID f).1 cfg.clientID f :=
    (holdsRef_addClusterFilterRef _ _ _ _ _).2 (Or.inr ⟨rfl, rfl⟩)
  -- what is pending in the handler after the call
  have hpending {g : Text} (hg : s.Pending g) : RouteCall.subscribe g ∈ calls := by
    obtain ⟨j, calls', hj, hmem⟩ := hg
    obtain rfl := h.connecting_unique hconn (by rw [hj]; rfl)
    rw [hi] at hj
    cases hj
    exact (List.mem_cons.1 hmem).resolve_left nofun
  have hafter {g : Text} (hg : RouteCall.subscribe g ∈
      (if (addClusterFilterRef s.refs cfg.clientID f).2 then RouteCall.subscribe f :: calls
        else calls)) : (s.registered cfg i (.addRef f :: calls)).Pending g :=
    ⟨i, _, (phase_goTo s i i _).trans (if_pos rfl), hg⟩
  have hkeep {g : Text} (hg : RouteCall.subscribe g ∈ calls) :
      (s.registered cfg i (.addRef f :: calls)).Pending g := by
    refine hafter ?_
    split_ifs
    · exact List.mem_cons_of_mem _ hg
    · exact hg
  have hnext := HandlerPhase.Next.register (.addRef f :: calls)
    (if (addClusterFilterRef s.refs cfg.clientID f).2 then .subscribe f :: calls else calls)
  exact
    { h.toTables.goTo hi hnext with
      owner := fun _ _ _ => h.owner i (by rw [hi]; exact nofun) (Or.inl hconn)
      held := fun j hj htaken g hg => by
        have hheld := h.held j (kind_goTo hi hnext.holding hj)
          ((takenOver_goTo s i j _).symm.trans htaken) g (filters_goTo s i j _ ▸ hg)
        exact hgrow hheld
      inheritable := fun j calls' hj hclean k hk g hg => by
        have hj' : (s.objects j).phase.connecting = true :=
          kind_goTo hi hnext.connecting (congrArg HandlerPhase.connecting hj)
        obtain rfl := h.connecting_unique hconn hj'
        have hcalls := (phase_goTo s j j _).symm.trans hj
        rw [if_pos rfl] at hcalls
        cases hcalls
        rcases h.inheritable j _ hi (properties_goTo s j j _ ▸ hclean) k hk g
          (filters_goTo s j k _ ▸ hg) with hheld | hmem
        · exact Or.inl (hgrow hheld)
        · rcases List.mem_cons.1 hmem with heq | hmem
          · cases heq
            exact Or.inl hown
          · refine Or.inr ?_
            split_ifs
            · exact List.mem_cons_of_mem _ hmem
            · exact hmem
      routed := fun g c hg => by
        rcases (holdsRef_addClusterFilterRef s.refs cfg.clientID f c g).1 hg with hg | ⟨-, rfl⟩
        · exact (h.routed g c hg).imp_right fun hp => hkeep (hpending hp)
        · cases hfirst : (addClusterFilterRef s.refs cfg.clientID g).2 with
          | true => exact Or.inr (hafter (by rw [hfirst]; exact List.mem_cons_self))
          | false =>
            obtain ⟨d, hd⟩ := exists_holdsRef_of_not_first s.refs cfg.clientID hfirst
            exact (h.routed g d hd).imp_right fun hp => hkeep (hpending hp)
      unrouted := fun j filters hj => by
        have hno := h.not_passed hconn j
        have hpassed : (s.objects j).phase.passed = true :=
          kind_goTo hi hnext.passed (congrArg HandlerPhase.passed hj)
        rw [hno] at hpassed
        cases hpassed }

/-- `Subscribe` at the registry. -/
theorem Inv.subscribeRoute (h : s.Inv cfg) {f : Text} {calls : List RouteCall}
    (hi : (s.objects i).phase = .registering (.subscribe f :: calls)) :
    (s.registered cfg i (.subscribe f :: calls)).Inv cfg := by
  have hs : Inv cfg { s with routes := s.routes.insert f () } :=
    { h with routed := fun g c hg =>
        (h.routed g c hg).imp_left fun hroute => (AList.mem_insert _).2 (Or.inr hroute) }
  refine hs.goTo hi (.register _ calls) nofun (fun calls' hcalls hclean k hk g hg => ?_)
    (fun calls' g hcalls hmem => ?_) nofun
  · cases hcalls
    refine (h.inheritable i _ hi hclean k hk g hg).imp_right fun hmem => ?_
    exact (List.mem_cons.1 hmem).resolve_left nofun
  · cases hcalls
    rcases List.mem_cons.1 hmem with heq | hmem
    · cases heq
      exact Or.inl ((AList.mem_insert _).2 (Or.inl rfl))
    · exact Or.inr ⟨calls, rfl, hmem⟩

/-- A new connection enters the table of clients: it takes over the client object it finds there,
has a reference for each filter it inherits, and leaves every filter in use registered. -/
structure Attaches (cfg : NodeConfig) (s t : NodeState) (i : ℕ) : Prop where
  tracked : t.tracked = s.tracked
  sessions : t.sessions = s.sessions
  count : t.count = s.count
  clients : t.clients = some i
  connected : (t.objects i).phase = .connected
  open_self : (t.objects i).takenOver = (s.objects i).takenOver
  phase : ∀ k ≠ i, (t.objects k).phase = (s.objects k).phase
  taken : ∀ k ≠ i, s.clients = some k → (t.objects k).takenOver = true
  kept : ∀ k ≠ i, (t.objects k).takenOver = false → (s.objects k).takenOver = false
  stopped : ∀ k, (t.objects k).takenOver = true → (t.objects k).stop ≠ none
  held : ∀ f ∈ (t.objects i).filters, HoldsRef t.refs cfg.clientID f
  routed : ∀ f c, HoldsRef t.refs c f → f ∈ t.routes

theorem Inv.attach (h : s.Inv cfg) (hi : (s.objects i).phase = .registering []) {t : NodeState}
    (ht : Attaches cfg s t i) : t.Inv cfg := by
  have hconn : (s.objects i).phase.connecting = true := by rw [hi]; rfl
  have hother {k : ℕ} {b : HandlerPhase → Bool} (hb : b .connected = false)
      (hk : b (t.objects k).phase = true) : k ≠ i ∧ b (s.objects k).phase = true := by
    have hki : k ≠ i := by
      rintro rfl
      rw [ht.connected, hb] at hk
      cases hk
    exact ⟨hki, ht.phase k hki ▸ hk⟩
  -- the new connection was the only one, and it is not connecting any more
  have hnone (k : ℕ) : (t.objects k).phase.connecting = false := by
    by_contra hk
    obtain ⟨hki, hk⟩ := hother rfl (by simpa using hk)
    exact hki (h.connecting_unique hconn hk)
  have hpassed (k : ℕ) : (t.objects k).phase.passed = false := by
    by_contra hk
    obtain ⟨-, hk⟩ := hother rfl (by simpa using hk)
    rw [h.not_passed hconn k] at hk
    cases hk
  have hopen {k : ℕ} (hk : (t.objects k).phase.attached = true)
      (htaken : (t.objects k).takenOver = false) : k = i := by
    by_contra hki
    have hclients := h.table k (ht.kept k hki htaken) (ht.phase k hki ▸ hk)
    rw [ht.taken k hki hclients] at htaken
    cases htaken
  exact
    { unborn := fun k hk => by
        have hlt := h.lt_count (by rw [hi]; exact nofun)
        rw [ht.count] at hk
        rw [ht.phase k (Nat.ne_of_gt (lt_of_lt_of_le hlt hk))]
        exact h.unborn k hk
      clients_lt := fun k hk => by
        rw [ht.clients] at hk
        cases hk
        rw [ht.count]
        exact h.lt_count (by rw [hi]; exact nofun)
      table := fun k htaken hk => by rw [ht.clients, hopen hk htaken]
      table_attached := fun k _ => hnone k
      tracked := fun k hk => by
        rw [hnone k] at hk
        cases hk
      tracked_open := fun k g hk => by
        obtain ⟨g', hg'⟩ := h.tracked i hconn
        rw [ht.tracked, hg'] at hk
        cases hk
        rw [ht.open_self]
        exact h.tracked_open i _ hg'
      blank := fun k hk => by
        rw [hnone k] at hk
        cases hk
      stopped := ht.stopped
      alone := fun k hk => by
        rw [hpassed k] at hk
        cases hk
      owner := fun _ _ _ => by
        rw [ht.sessions]
        exact h.owner i (by rw [hi]; exact nofun) (Or.inl hconn)
      held := fun k hk htaken => by
        obtain rfl := hopen (HandlerPhase.attached_of_holding hk) htaken
        exact ht.held
      inheritable := fun k calls hk => by
        have hno := hnone k
        rw [hk] at hno
        cases hno
      routed := fun f c hf => Or.inl (ht.routed f c hf)
      unrouted := fun k filters hk => by
        have hno := hpassed k
        rw [hk] at hno
        cases hno }

theorem Inv.routed_of_registering (h : s.Inv cfg) (hi : (s.objects i).phase = .registering [])
    (f c : Text) (hf : HoldsRef s.refs c f) : f ∈ s.routes := by
  refine (h.routed f c hf).resolve_right ?_
  rintro ⟨j, calls, hj, hmem⟩
  obtain rfl := h.connecting_unique (by rw [hi]; rfl) (by rw [hj]; rfl)
  rw [hi] at hj
  cases hj
  cases hmem

theorem routed_unsubscribed (h : ∀ f c, HoldsRef s.refs c f → f ∈ s.routes) (filters : List Text)
    (f c : Text) (hf : HoldsRef (s.unsubscribed cfg filters).refs c f) :
    f ∈ (s.unsubscribed cfg filters).routes := by
  refine (mem_foldl_erase _ _ f).2 ⟨fun hlast => ?_, h f c hf.of_removeAll⟩
  exact not_holdsRef_of_mem_last hlast c hf

theorem attaches_put (h : s.Inv cfg) (hi : (s.objects i).phase = .registering [])
    (hclients : s.clients = some j) {u : NodeState} (hobjects : u.objects = s.objects)
    (htracked : u.tracked = s.tracked) (hsessions : u.sessions = s.sessions)
    (hcount : u.count = s.count) {l : LocalClient} (hphase : l.phase = .connected)
    (hopen : l.takenOver = (s.objects i).takenOver) (hstop : l.stop = (s.objects i).stop)
    (hheld : ∀ f ∈ l.filters, HoldsRef u.refs cfg.clientID f)
    (hrouted : ∀ f c, HoldsRef u.refs c f → f ∈ u.routes) :
    Attaches cfg s (u.takeOver i j (s.objects j) l) i := by
  have hself : ((u.put j (s.objects j).replaced).put i l).objects i = l := by
    rw [objects_put, if_pos rfl]
  have hold : ((u.put j (s.objects j).replaced).put i l).objects j = (s.objects j).replaced := by
    have hij : j ≠ i := by
      rintro rfl
      have hno := h.table_attached j hclients
      rw [hi] at hno
      cases hno
    rw [objects_put, if_neg hij, objects_put, if_pos rfl]
  have hother {k : ℕ} (hki : k ≠ i) (hkj : k ≠ j) :
      ((u.put j (s.objects j).replaced).put i l).objects k = s.objects k := by
    rw [objects_put, if_neg hki, objects_put, if_neg hkj, hobjects]
  exact
    { tracked := htracked
      sessions := hsessions
      count := hcount
      clients := rfl
      connected := (congrArg _ hself).trans hphase
      open_self := (congrArg _ hself).trans hopen
      phase := fun k hki => by
        by_cases hkj : k = j
        · subst hkj
          exact (congrArg LocalClient.phase hold).trans rfl
        · exact congrArg LocalClient.phase (hother hki hkj)
      taken := fun k hki hk => by
        obtain rfl : k = j := Option.some.inj (hk.symm.trans hclients)
        exact congrArg LocalClient.takenOver hold
      kept := fun k hki hk => by
        by_cases hkj : k = j
        · subst hkj
          have htaken := congrArg LocalClient.takenOver hold
          exact absurd (htaken.symm.trans hk) nofun
        · exact (congrArg LocalClient.takenOver (hother hki hkj)).symm.trans hk
      stopped := fun k hk hno => by
        by_cases hki : k = i
        · subst hki
          exact h.stopped k (hopen.symm.trans
            ((congrArg LocalClient.takenOver hself).symm.trans hk))
            (hstop.symm.trans ((congrArg LocalClient.stop hself).symm.trans hno))
        · by_cases hkj : k = j
          · subst hkj
            have hreplaced := (congrArg LocalClient.stop hold).symm.trans hno
            simp [LocalClient.replaced, LocalClient.stopped] at hreplaced
          · have heq := hother hki hkj
            exact h.stopped k ((congrArg LocalClient.takenOver heq).symm.trans hk)
              ((congrArg LocalClient.stop heq).symm.trans hno)
      held := fun f hf => hheld f ((congrArg LocalClient.filters hself) ▸ hf)
      routed := hrouted }

theorem Inv.attached (h : s.Inv cfg) (hi : (s.objects i).phase = .registering []) :
    (s.attached cfg i).Inv cfg := by
  have hrouted := h.routed_of_registering hi
  have hblank : (s.objects i).filters = [] := h.blank i (by rw [hi]; rfl)
  refine h.attach hi ?_
  unfold NodeState.attached
  split
  · rename_i hclients
    exact
      { tracked := rfl
        sessions := rfl
        count := rfl
        clients := rfl
        connected := (phase_goTo s i i _).trans (if_pos rfl)
        open_self := takenOver_goTo s i i _
        phase := fun k hk => (phase_goTo s i k _).trans (if_neg hk)
        taken := fun k _ hk => by rw [hclients] at hk; cases hk
        kept := fun k _ hk => (takenOver_goTo s i k _).symm.trans hk
        stopped := fun k hk => by
          have hstop := h.stopped k ((takenOver_goTo s i k _).symm.trans hk)
          exact fun hno => hstop ((stop_goTo s i k _).symm.trans hno)
        held := fun f hf => by
          have hf : f ∈ (s.objects i).filters := filters_goTo s i i _ ▸ hf
          rw [hblank] at hf
          cases hf
        routed := hrouted }
  · rename_i j hclients
    unfold inherited
    by_cases hdiscards : (s.objects i).properties.discards (s.objects j).properties = true
    · rw [if_pos hdiscards]
      refine attaches_put h hi hclients
        (u := s.unsubscribed cfg _) rfl rfl rfl rfl rfl rfl rfl (fun f hf => ?_)
        (routed_unsubscribed hrouted _)
      rw [hblank] at hf
      cases hf
    · rw [if_neg hdiscards]
      refine attaches_put h hi hclients
        rfl rfl rfl rfl rfl rfl rfl (fun f hf => ?_) hrouted
      have hclean : (s.objects i).properties.clean = false := by
        by_contra hclean
        exact hdiscards (by simp [ClientProperties.discards, hclean])
      exact (h.inheritable i [] hi hclean j hclients f hf).resolve_right nofun

/-! ### The calls at the end of a connection -/

theorem Inv.pass (h : s.Inv cfg) (hi : (s.objects i).phase = .checking) {g : ℕ}
    (htracked : s.tracked = some (i, g)) (hp : p = .placing ∨ p = .removing)
    {tracked : Option (ℕ × ℕ)} {generation : ℕ}
    (htracked' : ∀ k g, tracked = some (k, g) → s.tracked = some (k, g)) :
    Inv cfg { s.goTo i p with tracked := tracked, generation := generation } := by
  have hkind {b : HandlerPhase → Bool} (hb : b .placing = true → b .checking = true)
      (hb' : b .removing = true → b .checking = true) {k : ℕ}
      (hk : b ((s.goTo i p).objects k).phase = true) : b (s.objects k).phase = true :=
    kind_goTo hi (hp.elim (fun hp => hp ▸ hb) fun hp => hp ▸ hb') hk
  have hopen : (s.objects i).takenOver = false := h.tracked_open i g htracked
  have htable : s.clients = some i := h.table i hopen (by rw [hi]; rfl)
  have hconn (k : ℕ) : ((s.goTo i p).objects k).phase.connecting = false := by
    by_contra hk
    have hold := hkind (b := HandlerPhase.connecting) nofun nofun (by simpa using hk)
    obtain ⟨g', hg'⟩ := h.tracked k hold
    rw [htracked] at hg'
    cases hg'
    rw [hi] at hold
    cases hold
  have hhold (k : ℕ) (hk : ((s.goTo i p).objects k).phase.holding = true) :
      (s.objects k).takenOver = true := by
    by_contra htaken
    have hki : k ≠ i := by
      rintro rfl
      rw [phase_goTo, if_pos rfl] at hk
      rcases hp with rfl | rfl <;> cases hk
    rw [phase_goTo, if_neg hki] at hk
    have hclients := h.table k (by simpa using htaken) (HandlerPhase.attached_of_holding hk)
    rw [htable] at hclients
    exact hki (Option.some.inj hclients).symm
  exact
    { unborn := fun k hk => by
        have hlt := h.lt_count (by rw [hi]; exact nofun)
        refine (phase_goTo s i k p).trans ?_
        rw [if_neg (Nat.ne_of_gt (lt_of_lt_of_le hlt hk))]
        exact h.unborn k hk
      clients_lt := h.clients_lt
      table := fun k htaken hk => h.table k ((takenOver_goTo s i k p).symm.trans htaken)
        (hkind (fun _ => rfl) (fun _ => rfl) hk)
      table_attached := fun k _ => hconn k
      tracked := fun k hk => absurd ((hconn k).symm.trans hk) nofun
      tracked_open := fun k g hk =>
        (takenOver_goTo s i k p).trans (h.tracked_open k g (htracked' k g hk))
      blank := fun k hk => absurd ((hconn k).symm.trans hk) nofun
      stopped := fun k hk hno => h.stopped k ((takenOver_goTo s i k p).symm.trans hk)
        ((stop_goTo s i k p).symm.trans hno)
      alone := fun _ _ k => ⟨hconn k, fun hk => (takenOver_goTo s i k p).trans (hhold k hk)⟩
      owner := fun k _ hk => by
        rcases hk with hk | ⟨hk, htaken⟩
        · exact absurd ((hconn k).symm.trans hk) nofun
        · exact absurd ((hhold k hk).symm.trans ((takenOver_goTo s i k p).symm.trans htaken)) nofun
      held := fun k hk htaken =>
        absurd ((hhold k hk).symm.trans ((takenOver_goTo s i k p).symm.trans htaken)) nofun
      inheritable := fun k calls hk =>
        absurd ((hconn k).symm.trans (congrArg HandlerPhase.connecting hk)) nofun
      routed := fun f c hf => by
        refine Or.inl ((h.routed f c hf).resolve_right ?_)
        rintro ⟨k, calls, hk, -⟩
        obtain ⟨g', hg'⟩ := h.tracked k (by rw [hk]; rfl)
        rw [htracked] at hg'
        cases hg'
        rw [hi] at hk
        cases hk
      unrouted := fun k filters hk => by
        have hk := (phase_goTo s i k p).symm.trans hk
        split_ifs at hk
        · rcases hp with rfl | rfl <;> cases hk
        · exact h.unrouted k filters hk }

theorem Inv.checked (h : s.Inv cfg) (hi : (s.objects i).phase = .checking) :
    (s.checked i).Inv cfg := by
  unfold NodeState.checked
  split_ifs with htracked hcleanup
  · exact h.pass hi htracked (Or.inr rfl) nofun
  · exact h.pass hi htracked (Or.inl rfl) fun _ _ hk => hk
  · exact h.goTo hi .supersede nofun nofun nofun nofun

theorem Inv.placed (h : s.Inv cfg) (hi : (s.objects i).phase = .placing) (owner : Option Text) :
    (s.placed i owner).Inv cfg := by
  have hs : Inv cfg { s with ownership := match owner with
      | none => s.ownership
      | some owner => (s.objects i).filters.foldl (fun m f => m.insert f owner) s.ownership } :=
    { h with }
  exact hs.goTo hi .place nofun nofun nofun nofun

theorem Inv.removed (h : s.Inv cfg) (hi : (s.objects i).phase = .removing) :
    (s.removed cfg i).Inv cfg := by
  have halone := h.alone i (by rw [hi]; rfl)
  have hs : Inv cfg { s with
      refs := (removeClusterFilterRefs s.refs cfg.clientID (s.objects i).filters).1 } :=
    { h with
      held := fun k hk htaken => absurd (((halone k).2 hk).symm.trans htaken) nofun
      inheritable := fun k calls hk =>
        absurd ((halone k).1.symm.trans (congrArg HandlerPhase.connecting hk)) nofun
      routed := fun f c hf => h.routed f c hf.of_removeAll
      unrouted := fun k filters hk f hf c hc => h.unrouted k filters hk f hf c hc.of_removeAll }
  refine hs.goTo hi (.remove _) nofun nofun nofun fun filters hfilters f hf => ?_
  cases hfilters
  exact not_holdsRef_of_mem_last hf

theorem Inv.released (h : s.Inv cfg) {filters : List Text}
    (hi : (s.objects i).phase = .unsubscribing filters) : (s.released cfg i filters).Inv cfg := by
  have halone := h.alone i (by rw [hi]; rfl)
  cases filters with
  | nil =>
    have hs : Inv cfg { s with
        sessions := s.sessions.releaseSession cfg.clientID cfg.node } :=
      { h with
        owner := fun k _ hk => hk.elim (fun hk => absurd ((halone k).1.symm.trans hk) nofun)
          fun hk => absurd (((halone k).2 hk.1).symm.trans hk.2) nofun }
    exact hs.goTo hi (.release []) nofun nofun nofun nofun
  | cons f filters =>
    have hs : Inv cfg { s with routes := s.routes.erase f } :=
      { h with
        routed := fun g c hg => by
          refine (h.routed g c hg).imp_left fun hroute => AList.mem_erase.2 ⟨?_, hroute⟩
          rintro rfl
          exact h.unrouted i _ hi g List.mem_cons_self c hg }
    refine hs.goTo hi (.unsubscribe _ filters) nofun nofun nofun fun filters' heq g hg => ?_
    cases heq
    exact h.unrouted i _ hi g (List.mem_cons_of_mem _ hg)

theorem Inv.cleaned (h : s.Inv cfg) (hi : (s.objects i).phase = .cleaning) :
    (s.cleaned cfg i).Inv cfg := by
  unfold NodeState.cleaned
  split_ifs with hdrop
  · have hopen : (s.objects i).takenOver = false := by
      simp only [Bool.and_eq_true, Bool.not_eq_true'] at hdrop
      exact hdrop.2
    have htable : s.clients = some i := h.table i hopen (by rw [hi]; rfl)
    set l : LocalClient := { s.objects i with filters := [], phase := .ended } with hl
    have hobj (k : ℕ) : ((s.unsubscribed cfg (s.objects i).filters).put i l).objects k =
        if k = i then l else s.objects k := objects_put _ i k l
    have htaken := field_put (l := l)
      LocalClient.takenOver rfl
    have hstop := field_put (l := l)
      LocalClient.stop rfl
    exact
      { unborn := fun k hk => by
          rw [hobj]
          split_ifs
          · rfl
          · exact h.unborn k hk
        clients_lt := nofun
        table := fun k hopen' hk => by
          obtain ⟨hki, -, hk⟩ := kind_put rfl hk
          have hclients := h.table k ((htaken k).symm.trans hopen') hk
          rw [htable] at hclients
          exact absurd (Option.some.inj hclients).symm hki
        table_attached := nofun
        tracked := fun k hk => h.tracked k (kind_put rfl hk).2.2
        tracked_open := fun k g hk => (htaken k).trans (h.tracked_open k g hk)
        blank := fun k hk => by
          obtain ⟨-, heq, hk⟩ := kind_put rfl hk
          rw [heq]
          exact h.blank k hk
        stopped := fun k hk hno =>
          h.stopped k ((htaken k).symm.trans hk) ((hstop k).symm.trans hno)
        alone := fun k hk k' => by
          obtain ⟨hconn, hhold⟩ := h.alone k (kind_put rfl hk).2.2 k'
          rw [hobj]
          split_ifs
          · exact ⟨rfl, nofun⟩
          · exact ⟨hconn, hhold⟩
        owner := fun k hbooked hk => by
          have heq : ((s.unsubscribed cfg (s.objects i).filters).put i l).objects k =
              s.objects k := hk.elim
            (fun hk => (kind_put rfl hk).2.1)
            fun hk => (kind_put rfl hk.1).2.1
          rw [heq] at hbooked hk
          exact h.owner k hbooked hk
        held := fun k hk hopen' => by
          obtain ⟨hki, -, hk⟩ := kind_put rfl hk
          have hclients := h.table k ((htaken k).symm.trans hopen')
            (HandlerPhase.attached_of_holding hk)
          rw [htable] at hclients
          exact absurd (Option.some.inj hclients).symm hki
        inheritable := fun _ _ _ _ => nofun
        routed := fun f c hf => by
          rcases h.routed f c hf.of_removeAll with hroute | ⟨k, calls, hk, hmem⟩
          · exact Or.inl ((mem_foldl_erase _ _ f).2
              ⟨fun hlast => not_holdsRef_of_mem_last hlast c hf, hroute⟩)
          · refine Or.inr ⟨k, calls, ?_, hmem⟩
            rw [hobj, if_neg (by rintro rfl; rw [hi] at hk; cases hk)]
            exact hk
        unrouted := fun k filters hk f hf c hc =>
          h.unrouted k filters (phase_put (p := .unsubscribing filters) (l := l) nofun hk) f hf c
            hc.of_removeAll }
  · exact h.goTo hi .finish nofun nofun nofun nofun

/-! ### Packets and ends of connections -/

theorem Tables.congr (h : s.Tables) {t : NodeState} (hclients : t.clients = s.clients)
    (htracked : t.tracked = s.tracked) (hcount : t.count = s.count)
    (hphase : ∀ k, (t.objects k).phase = (s.objects k).phase)
    (htaken : ∀ k, (t.objects k).takenOver = (s.objects k).takenOver)
    (hstop : ∀ k, (t.objects k).stop = none → (s.objects k).stop = none)
    (hblank : ∀ k, (s.objects k).phase.connecting = true →
      (t.objects k).filters = (s.objects k).filters) : t.Tables where
  unborn k hk := (hphase k).trans (h.unborn k (hcount ▸ hk))
  clients_lt k hk := hcount ▸ h.clients_lt k (hclients ▸ hk)
  table k hk hk' := hclients.trans (h.table k (htaken k ▸ hk) (hphase k ▸ hk'))
  table_attached k hk := (congrArg _ (hphase k)).trans (h.table_attached k (hclients ▸ hk))
  tracked k hk := htracked ▸ h.tracked k (hphase k ▸ hk)
  tracked_open k g hk := (htaken k).trans (h.tracked_open k g (htracked ▸ hk))
  blank k hk := (hblank k (hphase k ▸ hk)).trans (h.blank k (hphase k ▸ hk))
  stopped k hk hno := h.stopped k (htaken k ▸ hk) (hstop k hno)
  alone k hk k' := by
    rw [hphase k', htaken k']
    exact h.alone k (hphase k ▸ hk) k'

theorem Inv.stop (h : s.Inv cfg) (i : ℕ) (cause : StopCause) :
    (s.put i ((s.objects i).stopped cause)).Inv cfg := by
  have hobj (k : ℕ) : (s.put i ((s.objects i).stopped cause)).objects k =
      if k = i then (s.objects i).stopped cause else s.objects k := objects_put s i k _
  have hsame {α : Type} (a : LocalClient → α) := field_put (s := s) (i := i) a
    (l := (s.objects i).stopped cause)
  have hphase := hsame LocalClient.phase rfl
  have htaken := hsame LocalClient.takenOver rfl
  have hfilters := hsame LocalClient.filters rfl
  have hproperties := hsame LocalClient.properties rfl
  have hstop (k : ℕ) (hk : ((s.put i ((s.objects i).stopped cause)).objects k).stop = none) :
      (s.objects k).stop = none := by
    rw [hobj] at hk
    split_ifs at hk with hki
    · simp [LocalClient.stopped] at hk
    · exact hk
  exact
    { toTables := h.toTables.congr rfl rfl rfl hphase htaken hstop fun k _ => hfilters k
      owner := fun k hbooked hk => by
        rw [hphase, htaken] at hk
        rw [hphase] at hbooked
        exact h.owner k hbooked hk
      held := fun k hk hk' f hf => by
        rw [hphase] at hk
        rw [htaken] at hk'
        rw [hfilters] at hf
        exact h.held k hk hk' f hf
      inheritable := fun k calls hk hclean j hj f hf => by
        rw [hphase] at hk
        rw [hproperties] at hclean
        rw [hfilters] at hf
        exact h.inheritable k calls hk hclean j hj f hf
      routed := fun f c hf => (h.routed f c hf).imp_right fun ⟨k, calls, hk, hmem⟩ =>
        ⟨k, calls, (hphase k).trans hk, hmem⟩
      unrouted := fun k filters hk => h.unrouted k filters ((hphase k).symm.trans hk) }

theorem Inv.subscribed (h : s.Inv cfg) (i : ℕ) (filters : List Text) (accepted : Text → Bool) :
    (s.subscribed cfg i filters accepted).Inv cfg := by
  unfold NodeState.subscribed
  dsimp only
  split_ifs with hlive
  · obtain ⟨hi, hstop⟩ := hlive
    have hopen : (s.objects i).takenOver = false := by
      by_contra htaken
      exact h.stopped i (by simpa using htaken) hstop
    set l : LocalClient :=
      { s.objects i with filters := (s.objects i).filters ++ filters.filter accepted }
    have hobj (k : ℕ) : (s.put i l).objects k = if k = i then l else s.objects k :=
      objects_put s i k l
    have hsame {α : Type} (a : LocalClient → α) := field_put (s := s) (i := i) a (l := l)
    have hphase := hsame LocalClient.phase rfl
    have htaken := hsame LocalClient.takenOver rfl
    have hstop := hsame LocalClient.stop rfl
    have hproperties := hsame LocalClient.properties rfl
    have hgrow {c f : Text} (hf : HoldsRef s.refs c f) : HoldsRef
        (subscribeClusterFilters cfg.clientID s.refs s.routes filters).1 c f :=
      (holdsRef_subscribeAll_iff _ _ _ _).2 (Or.inl hf)
    have hfilters {k : ℕ} {f : Text} (hf : f ∈ ((s.put i l).objects k).filters) :
        f ∈ (s.objects k).filters ∨ HoldsRef
          (subscribeClusterFilters cfg.clientID s.refs s.routes filters).1 cfg.clientID f := by
      rw [hobj] at hf
      split_ifs at hf with hki
      · rcases List.mem_append.1 hf with hf | hf
        · exact Or.inl (hki ▸ hf)
        · exact Or.inr ((holdsRef_subscribeAll_iff _ _ _ _).2
            (Or.inr ⟨rfl, List.mem_of_mem_filter hf⟩))
      · exact Or.inl hf
    exact
      { toTables := h.toTables.congr rfl rfl rfl hphase htaken (fun k hk => (hstop k).symm.trans hk)
          fun k hk => by
            refine congrArg LocalClient.filters ((hobj k).trans (if_neg ?_))
            rintro rfl
            rw [hi] at hk
            cases hk
        owner := fun k hbooked hk => by
          refine h.owner k (hphase k ▸ hbooked) ?_
          rw [← hphase k, ← htaken k]
          exact hk
        held := fun k hk hk' f hf => (hfilters hf).elim
          (fun hf => hgrow (h.held k (hphase k ▸ hk) (htaken k ▸ hk') f hf)) id
        inheritable := fun k calls hk hclean j hj f hf => (hfilters hf).elim
          (fun hf => (h.inheritable k calls (hphase k ▸ hk) (hproperties k ▸ hclean) j hj f
            hf).imp_left hgrow) Or.inl
        routed := routed_subscribeAll filters fun f c hf =>
          (h.routed f c hf).imp_right fun ⟨k, calls, hk, hmem⟩ =>
            ⟨k, calls, (hphase k).trans hk, hmem⟩
        unrouted := fun k filters' hk => by
          have hk : (s.objects k).phase = .unsubscribing filters' := (hphase k).symm.trans hk
          have htaken := (h.alone k (by rw [hk]; rfl) i).2 (by rw [hi]; rfl)
          exact absurd (hopen.symm.trans htaken) nofun }
  · exact h

theorem Inv.advanced (h : s.Inv cfg) (i : ℕ) (stored : Option (List Text)) (owner : Option Text) :
    (s.advanced cfg i stored owner).Inv cfg := by
  unfold NodeState.advanced
  cases hi : (s.objects i).phase with
  | booked => exact h.claimed hi
  | claimed => exact h.established hi stored
  | registering calls =>
    match calls, hi with
    | [], hi => exact h.attached hi
    | .addRef f :: calls, hi => exact h.addRef hi
    | .subscribe f :: calls, hi => exact h.subscribeRoute hi
  | connected => exact h
  | checking => exact h.checked hi
  | placing => exact h.placed hi owner
  | removing => exact h.removed hi
  | unsubscribing filters => exact h.released hi
  | cleaning => exact h.cleaned hi
  | ended => exact h

/-! ### Runs -/

/-- A step of a serial run keeps the invariant. -/
theorem inv_step (s : NodeState) (e : NodeEvent) (h : s.Inv cfg) (he : s.Serial e) :
    (s.step cfg e).Inv cfg := by
  cases e with
  | connect properties identity => exact h.booked he properties identity
  | advance i stored owner => exact h.advanced i stored owner
  | subscribe i filters accepted => exact h.subscribed i filters accepted
  | stop i => exact h.stop i .other
  | disconnect i =>
    unfold step
    dsimp only
    split_ifs with hi
    · exact h.goTo hi.1 .disconnect nofun nofun nofun nofun
    · exact h

/-- In a run in which every CONNECT begins when no handler of the client is running, a live
connection has its claim, its filter references and its routes whenever no handler is running. -/
theorem always_keeps (s : NodeState) (hs : s.Start) (es : List NodeEvent)
    (hserial : Along (step cfg) Serial s es) :
    Always (step cfg) (Keeps cfg) s es :=
  (always_of_along inv_step (inv_start hs) hserial).imp fun _ h => h.keeps

/-! ### A CONNECT during the end of the last connection -/

/-- A client on a node. -/
def sensorNode : NodeConfig where
  clientID := "d".toList
  node := "n".toList

/-- The client connects and subscribes. -/
def session : List NodeEvent :=
  [.connect { sessionExpiryInterval := 100 } [], .advance 0 none none, .advance 0 none none,
    .advance 0 none none, .subscribe 0 ["t".toList] fun _ => true]

/-- The connection ends. When the end has passed its check under the lock, the client connects again
and claims the session; then the end goes on, and the new connection inherits. -/
def reconnect : List NodeEvent :=
  [.stop 0, .disconnect 0, .advance 0 none none,
    .connect { sessionExpiryInterval := 100 } [], .advance 1 none none, .advance 1 none none,
    .advance 1 none none,
    .advance 0 none none, .advance 0 none none, .advance 0 none none,
    .advance 1 none none,
    .advance 0 none none, .advance 0 none none]

/-- The end of the old connection takes the claim from the new one. -/
theorem not_always_keeps :
    ¬ Always (step sensorNode) (Keeps sensorNode) {} (session ++ reconnect) := by
  intro h
  have hquiet : (run (step sensorNode) {} (session ++ reconnect)).Quiet
    | 0 => rfl
    | 1 => rfl
    | _ + 2 => rfl
  obtain ⟨howner, -⟩ := h.last hquiet 1 rfl rfl
  revert howner
  decide +kernel

/-- The client connects again while it is connected. The new connection inherits the subscription,
and then the handler of the old one comes to its end. -/
def takeover : List NodeEvent :=
  [.connect { sessionExpiryInterval := 100 } [], .advance 1 none none, .advance 1 none none,
    .advance 1 none none, .advance 1 none none,
    .disconnect 0, .advance 0 none none, .advance 0 none none]

/-- After the takeover the new connection has the session and the route of the inherited
subscription. -/
theorem always_keeps_takeover :
    let s := run (step sensorNode) {} (session ++ takeover)
    ({} : NodeState).Start ∧
    (s.Quiet ∧ (s.objects 1).phase = .connected ∧ (s.objects 1).stop = none ∧
      (s.objects 1).filters = ["t".toList]) ∧
    Always (step sensorNode) (Keeps sensorNode) {} (session ++ takeover) := by
  have hstart : ({} : NodeState).Start :=
    { tracked := rfl
      clients := rfl
      objects := fun _ => ⟨rfl, rfl⟩
      routed := fun f c ⟨clients, hclients, _⟩ => by cases hclients }
  have hbefore : (run (step sensorNode) {} session).Quiet
    | 0 => rfl
    | _ + 1 => rfl
  have hafter : (run (step sensorNode) {} (session ++ takeover)).Quiet
    | 0 => rfl
    | 1 => rfl
    | _ + 2 => rfl
  have hserial : Along (step sensorNode) Serial {} (session ++ takeover) :=
    along_append.2 ⟨⟨fun _ => rfl, trivial, trivial, trivial, trivial, trivial⟩,
      ⟨hbefore, trivial, trivial, trivial, trivial, trivial, trivial, trivial, trivial⟩⟩
  exact ⟨hstart, ⟨hafter, rfl, rfl, rfl⟩, always_keeps {} hstart _ hserial⟩

end NodeState

end KeelGateway.Broker
