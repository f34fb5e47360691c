import KeelGateway.Broker.SessionIsolation
import KeelGateway.Mochi.ClientLifetime

/-!
# The life of a session over several nodes

A client moves between nodes, and its session ends when a connection ends that was not meant to be
outlived, or when the sweep of a node finds a client object whose time is over. Each node judges by
its own client object. What is deleted is the session in Redis, which all nodes share.

-/

namespace KeelGateway.Broker

open Redis Mochi StepMachine

/-! ### The machine -/

/-- A client object of a node. -/
structure ClientObject where
  node : Text
  properties : ClientProperties
  copy : Copy := {}
  stop : Option (StopCause × ℤ) := none
  takenOver : Bool := false
  ended : Bool := false

/-- `Client.Stop`: only the first call counts. -/
def ClientObject.stopped (o : ClientObject) (cause : StopCause) (now : ℤ) : ClientObject :=
  { o with stop := o.stop.or (some (cause, now)) }

/-- The client object has been without a connection for longer than its interval. -/
def ClientObject.Overdue (o : ClientObject) (maximum : ℕ) (dt : ℤ) : Prop :=
  ∃ stop ∈ o.stop, stop.2 + o.properties.expiryInterval maximum < dt

instance (o : ClientObject) (maximum : ℕ) (dt : ℤ) : Decidable (o.Overdue maximum dt) :=
  inferInstanceAs (Decidable (∃ stop ∈ o.stop, _))

/-- The filters of a client object, as `UnsubscribeClient` hands them to the hooks. -/
def Copy.filters (c : Copy) : List Text := c.subs.entries.map fun row => row.2.filter

/-- The settings of the session store and of the sweep. -/
structure LifetimeConfig extends SessionConfig where
  maximumSessionExpiryInterval : ℕ

/-- One client ID: its keys in Redis, its offline-ownership entries and its client objects. -/
structure Lifetime where
  record : Option ClientProperties := none
  sub : SubHash := ∅
  keys : Keys
  ownership : GoMap Text Text := ∅
  objects : List ClientObject := []
  clients : Text → Option ℕ := fun _ => none
  tracked : Text → Option ℕ := fun _ => none

/-- What happens to the client ID. -/
inductive LifetimeEvent where
  | connect (node : Text) (properties : ClientProperties) (now : ℤ)
  | subscribe (i : ℕ) (pk : SubscribePacket) (aclCheck : Text → Bool)
  | unsubscribe (i : ℕ) (pk : UnsubscribePacket)
  | ack (i : ℕ) (a : Ack)
  | deliver (i : ℕ) (pk : Packet) (last : ℕ) (outcome : SendOutcome)
  | receive (i : ℕ) (packetID : ℕ) (now : ℤ)
  | enqueue (args : CallArgs) (now : ℤ)
  /-- The reconciler places or clears an ownership entry. -/
  | reconcile (filter : Text) (owner : Option Text)
  /-- A network error, or a DISCONNECT that may restate the interval. -/
  | stop (i : ℕ) (interval : Option ℕ) (now : ℤ)
  | evict (node : Text) (now : ℤ)
  /-- The read loop of a stopped connection returns; `owner` is the rendezvous owner of the client
  among the live edge nodes. -/
  | ended (i : ℕ) (owner : Option Text)
  | sweep (node : Text) (dt : ℤ)

namespace Lifetime

variable (cfg : LifetimeConfig)

/-- The client object in the table of a node. -/
def object (s : Lifetime) (node : Text) : Option ClientObject :=
  (s.clients node).bind fun i => s.objects[i]?

/-- The session as a CONNECT on the node finds it. -/
def session (s : Lifetime) (node : Text) : SessionState where
  sub := s.sub
  keys := s.keys
  copies := fun n => (s.object n).map (·.copy)
  here := if (s.object node).any fun o => o.stop.isNone then some node else none

/-- `inheritClientSession` takes the existing client object over. An object in the table has not
been taken over before. -/
def takeOver (s : Lifetime) (node : Text) (now : ℤ) : List ClientObject :=
  match s.clients node with
  | none => s.objects
  | some i => s.objects.modify i fun o =>
    { o.stopped .sessionTakenOver now with copy := {}, takenOver := true }

/-- `clearOfflineOwnership`: the entries of the stored filters go. -/
def clearOfflineOwnership (s : Lifetime) : GoMap Text Text :=
  (s.sub.entries.map Sigma.fst).foldl (fun m f => m.erase f) s.ownership

/-- A CONNECT, from `OnConnectAuthenticate` to `OnSessionEstablished`. -/
def connected (s : Lifetime) (node : Text) (properties : ClientProperties) (now : ℤ) : Lifetime :=
  let session := s.session node
  let next :=
    if properties.clean || (s.object node).any fun o => properties.discards o.properties then
      session.abandoned cfg.toSessionConfig node properties.clean
    else session.connected cfg.toSessionConfig node
  let properties' := properties.connack cfg.maximumSessionExpiryInterval
  { record := some properties'
    sub := next.sub
    keys := next.keys
    ownership := if properties.clean then s.ownership else s.clearOfflineOwnership
    objects := s.takeOver node now ++
      [{ node := node, properties := properties', copy := (next.copies node).getD {} }]
    clients := Function.update s.clients node (some s.objects.length)
    tracked := Function.update s.tracked node (some s.objects.length) }

/-- A packet of an open connection. -/
def onObject (s : Lifetime) (i : ℕ) (f : SessionState → Copy → Copy × SubHash × Keys) : Lifetime :=
  match s.objects[i]? with
  | none => s
  | some o =>
    if o.stop.isSome then s
    else
      let r := f (s.session o.node) o.copy
      { s with
        sub := r.2.1
        keys := r.2.2
        objects := s.objects.modify i fun o => { o with copy := r.1 } }

/-- `deleteSessionState`. -/
def deleteSessionState (s : Lifetime) : Lifetime :=
  { s with
    record := none
    sub := ∅
    keys := { s.keys with hash := s.keys.hash.write ∅, counter := s.keys.counter.write none } }

/-- `RedisSessionHook.OnDisconnect`. -/
def redisOnDisconnect (s : Lifetime) (o : ClientObject) : Lifetime :=
  match o.stop with
  | some (.sessionTakenOver, _) => s
  | _ => if o.properties.expire then s.deleteSessionState else s

/-- `keelHook.OnDisconnect`, on the entries that it tracks and places. -/
def keelOnDisconnect (s : Lifetime) (i : ℕ) (o : ClientObject) (owner : Option Text) : Lifetime :=
  if s.tracked o.node = some i then
    match o.properties.expire, o.stop with
    | false, some (.other, _) =>
      match owner with
      | none => s
      | some owner =>
        { s with
          ownership := (o.copy.subs.entries.map Sigma.fst).foldl
            (fun m f => m.insert f owner) s.ownership }
    | _, _ => { s with tracked := Function.update s.tracked o.node none }
  else s

/-- What `attachClient` does itself when the session ends with the connection. -/
def dropped (s : Lifetime) (i : ℕ) (o : ClientObject) : Lifetime :=
  if o.properties.expire && !o.takenOver then
    { s with
      sub := redisOnUnsubscribed s.sub o.copy.filters
      keys := SessionState.cleared cfg.toSessionConfig s.keys o.copy.inflight.getAll
      objects := s.objects.modify i fun o => { o with copy := {} }
      clients := Function.update s.clients o.node none }
  else s

/-- `OnDisconnect` is called once for a client object. -/
def markEnded (s : Lifetime) (i : ℕ) : Lifetime :=
  { s with objects := s.objects.modify i fun o => { o with ended := true } }

/-- The end of a connection in `attachClient`. -/
def ended (s : Lifetime) (i : ℕ) (owner : Option Text) : Lifetime :=
  match s.objects[i]? with
  | none => s
  | some o =>
    if o.stop.isSome && !o.ended then
      dropped cfg (((s.markEnded i).redisOnDisconnect o).keelOnDisconnect i o owner) i o
    else s

/-- `keelHook.OnClientExpired`. -/
def keelOnClientExpired (s : Lifetime) (node : Text) (i : ℕ) : Text → Option ℕ :=
  if s.tracked node = some i then Function.update s.tracked node none else s.tracked

/-- `clearExpiredClients` for the client ID: both hooks for `OnClientExpired`, then
`Clients.Delete`. The hook of the session store does not ask whose client object it is. -/
def swept (s : Lifetime) (node : Text) (dt : ℤ) : Lifetime :=
  match s.clients node with
  | none => s
  | some i =>
    if ∃ o ∈ s.objects[i]?, o.Overdue cfg.maximumSessionExpiryInterval dt then
      { s.deleteSessionState with
        tracked := s.keelOnClientExpired node i
        clients := Function.update s.clients node none }
    else s

/-- One event. -/
def step (s : Lifetime) : LifetimeEvent → Lifetime
  | .connect node properties now => s.connected cfg node properties now
  | .subscribe i pk aclCheck =>
    s.onObject i fun t => t.onSubscribe cfg.toSessionConfig pk aclCheck
  | .unsubscribe i pk => s.onObject i fun t => t.onUnsubscribe pk
  | .ack i a => s.onObject i fun t => t.onAck cfg.toSessionConfig a
  | .deliver i pk last outcome =>
    s.onObject i fun t => t.onDeliver cfg.toSessionConfig pk last outcome
  | .receive i packetID now => s.onObject i fun t => t.onReceive cfg.toSessionConfig packetID now
  | .enqueue args now => { s with keys := (s.keys.queueOfflineInflight cfg.clientID args now).1 }
  | .reconcile filter owner =>
    { s with ownership := match owner with
        | none => s.ownership.erase filter
        | some owner => s.ownership.insert filter owner }
  | .stop i interval now =>
    { s with objects := s.objects.modify i fun o =>
        if o.stop.isSome then o
        else { o.stopped .other now with
          properties := o.properties.processDisconnect interval } }
  | .evict node now =>
    { s with objects := match s.clients node with
        | none => s.objects
        | some i => s.objects.modify i fun o => o.stopped .sessionTakenOver now }
  | .ended i owner => s.ended cfg i owner
  | .sweep node dt => s.swept cfg node dt

/-! ### The sweep -/

/-- The session itself is over: its most recent connection has ended, and with it the session, or
the interval since then. -/
def SessionOver (s : Lifetime) (dt : ℤ) : Prop :=
  ∃ o ∈ s.objects.getLast?, o.stop.isSome ∧
    (o.properties.expire = true ∨ o.Overdue cfg.maximumSessionExpiryInterval dt)

/-- Record, subscriptions, in-flight messages and counter are the same. -/
structure SameRedis (s t : Lifetime) : Prop where
  record : t.record = s.record
  sub : t.sub = s.sub
  hash : t.keys.hash.value = s.keys.hash.value
  counter : t.keys.counter.value = s.keys.counter.value

/-- Redis holds nothing for the client. -/
structure Vacant (s : Lifetime) : Prop where
  record : s.record = none
  sub : s.sub = ∅
  hash : s.keys.hash.value = ∅
  counter : s.keys.counter.value = none

/-- A sweep leaves a session alone that is not over. -/
def Spares (s : Lifetime) : LifetimeEvent → Prop
  | .sweep node dt => ¬ s.SessionOver cfg dt → SameRedis s (s.swept cfg node dt)
  | _ => True

/-- A sweep finds no client object of an older connection that is overdue, or the session is over,
or there is nothing to delete. -/
def StaleInTime (s : Lifetime) : LifetimeEvent → Prop
  | .sweep node dt => s.SessionOver cfg dt ∨ s.Vacant ∨
    ∀ i ∈ s.clients node, i + 1 ≠ s.objects.length →
      ∀ o ∈ s.objects[i]?, ¬ o.Overdue cfg.maximumSessionExpiryInterval dt
  | _ => True

/-- The client leaves no client object behind: when it connects, no other node has one. -/
def LeavesNone (s : Lifetime) : LifetimeEvent → Prop
  | .connect node _ _ => ∀ n ≠ node, s.clients n = none
  | _ => True

variable {cfg} {dt : ℤ} {i : ℕ} {node : Text} {o : ClientObject} {s t : Lifetime}

private theorem swept_of_overdue (hi : s.clients node = some i) (ho : s.objects[i]? = some o)
    (hdue : o.Overdue cfg.maximumSessionExpiryInterval dt) :
    (s.swept cfg node dt).record = none ∧ (s.swept cfg node dt).sub = ∅ ∧
      (s.swept cfg node dt).keys = s.deleteSessionState.keys := by
  have hex : ∃ o ∈ s.objects[i]?, o.Overdue cfg.maximumSessionExpiryInterval dt := ⟨o, ho, hdue⟩
  unfold swept
  rw [hi]
  dsimp only
  rw [if_pos hex]
  exact ⟨rfl, rfl, rfl⟩

private theorem swept_of_not_overdue
    (h : ∀ i ∈ s.clients node, ∀ o ∈ s.objects[i]?,
      ¬ o.Overdue cfg.maximumSessionExpiryInterval dt) : s.swept cfg node dt = s := by
  unfold swept
  split
  · rfl
  · rename_i i hi
    exact if_neg fun ⟨o, ho, hdue⟩ => h i hi o ho hdue

theorem SameRedis.refl (s : Lifetime) : SameRedis s s := ⟨rfl, rfl, rfl, rfl⟩

theorem sameRedis_swept_iff (hi : s.clients node = some i) (ho : s.objects[i]? = some o)
    (hdue : o.Overdue cfg.maximumSessionExpiryInterval dt) :
    SameRedis s (s.swept cfg node dt) ↔ s.Vacant := by
  obtain ⟨hrecord, hsub, hkeys⟩ := swept_of_overdue hi ho hdue
  have hhash : (s.swept cfg node dt).keys.hash.value = ∅ := by rw [hkeys]; rfl
  have hcounter : (s.swept cfg node dt).keys.counter.value = none := by rw [hkeys]; rfl
  constructor
  · intro h
    exact ⟨h.record.symm.trans hrecord, h.sub.symm.trans hsub, h.hash.symm.trans hhash,
      h.counter.symm.trans hcounter⟩
  · intro h
    exact ⟨hrecord.trans h.record.symm, hsub.trans h.sub.symm, hhash.trans h.hash.symm,
      hcounter.trans h.counter.symm⟩

theorem sessionOver_of_last (hlast : i + 1 = s.objects.length) (ho : s.objects[i]? = some o)
    (hdue : o.Overdue cfg.maximumSessionExpiryInterval dt) : s.SessionOver cfg dt := by
  have hget : s.objects.getLast? = some o := by
    rw [List.getLast?_eq_getElem?, ← hlast, Nat.add_sub_cancel, ho]
  obtain ⟨stop, hstop, hlt⟩ := hdue
  exact ⟨o, hget, by rw [hstop]; rfl, Or.inr ⟨stop, hstop, hlt⟩⟩

theorem spares_iff (s : Lifetime) (e : LifetimeEvent) : s.Spares cfg e ↔ s.StaleInTime cfg e := by
  cases e with
  | sweep node dt =>
    constructor
    · intro h
      by_contra hno
      simp only [StaleInTime, not_or, not_forall, not_not] at hno
      obtain ⟨hover, hvacant, i, hi, -, o, ho, hdue⟩ := hno
      exact hvacant ((sameRedis_swept_iff hi ho hdue).1 (h hover))
    · intro h hover
      by_cases hdue : ∃ i ∈ s.clients node, ∃ o ∈ s.objects[i]?,
          o.Overdue cfg.maximumSessionExpiryInterval dt
      · obtain ⟨i, hi, o, ho, hdue⟩ := hdue
        rcases h with h | h | h
        · exact absurd h hover
        · exact (sameRedis_swept_iff hi ho hdue).2 h
        · by_cases hlast : i + 1 = s.objects.length
          · exact absurd (sessionOver_of_last hlast ho hdue) hover
          · exact absurd hdue (h i hi hlast o ho)
      · have hsame : s.swept cfg node dt = s :=
          swept_of_not_overdue fun i hi o ho hd => hdue ⟨i, hi, o, ho, hd⟩
        rw [hsame]
        exact SameRedis.refl s
  | connect | subscribe | unsubscribe | ack | deliver | receive | enqueue | reconcile | stop
  | evict | ended => exact Iff.rfl

/-- In every run, from any state, the sweeps spare the session exactly as long as none of them finds
an overdue client object that an older connection has left on its node, unless the session is over
or there is nothing to delete. -/
theorem along_spares_iff (cfg : LifetimeConfig) (s : Lifetime) (es : List LifetimeEvent) :
    Along (step cfg) (Spares cfg) s es ↔
      Along (step cfg) (StaleInTime cfg) s es :=
  along_iff_of_invariant (I := fun _ => True) (fun _ _ _ => trivial)
    (fun s e _ => spares_iff s e) trivial es

/-! ### Clients that leave no client object behind -/

/-- The only client object in the tables is the one of the most recent connection. -/
def Single (s : Lifetime) : Prop := ∀ n i, s.clients n = some i → i + 1 = s.objects.length

/-- The objects of a state and no more entries in the tables. -/
structure Fewer (s t : Lifetime) : Prop where
  length : t.objects.length = s.objects.length
  clients : ∀ n i, t.clients n = some i → s.clients n = some i

theorem Fewer.trans {u : Lifetime} (h : Fewer s t) (h' : Fewer t u) : Fewer s u :=
  ⟨h'.length.trans h.length, fun n i hi => h.clients n i (h'.clients n i hi)⟩

theorem fewer_of_eq (hlength : t.objects.length = s.objects.length)
    (hclients : t.clients = s.clients) : Fewer s t :=
  ⟨hlength, fun _ _ hi => hclients ▸ hi⟩

theorem fewer_of_update (hlength : t.objects.length = s.objects.length)
    (hclients : t.clients = Function.update s.clients node none) : Fewer s t := by
  refine ⟨hlength, fun n i hi => ?_⟩
  rw [hclients, Function.update_apply] at hi
  split_ifs at hi
  exact hi

theorem fewer_onObject (s : Lifetime) (i : ℕ) (f : SessionState → Copy → Copy × SubHash × Keys) :
    Fewer s (s.onObject i f) := by
  unfold onObject
  split
  · exact fewer_of_eq rfl rfl
  · split_ifs
    · exact fewer_of_eq rfl rfl
    · exact fewer_of_eq (List.length_modify ..) rfl

private theorem fewer_markEnded (s : Lifetime) (i : ℕ) : Fewer s (s.markEnded i) :=
  fewer_of_eq (List.length_modify ..) rfl

private theorem fewer_redisOnDisconnect (s : Lifetime) (o : ClientObject) :
    Fewer s (s.redisOnDisconnect o) := by
  unfold redisOnDisconnect
  split
  · exact fewer_of_eq rfl rfl
  · split_ifs <;> exact fewer_of_eq rfl rfl

private theorem fewer_keelOnDisconnect (s : Lifetime) (i : ℕ) (o : ClientObject)
    (owner : Option Text) :
    Fewer s (s.keelOnDisconnect i o owner) := by
  unfold keelOnDisconnect
  split_ifs
  · split
    · split <;> exact fewer_of_eq rfl rfl
    · exact fewer_of_eq rfl rfl
  · exact fewer_of_eq rfl rfl

private theorem fewer_dropped (s : Lifetime) (i : ℕ) (o : ClientObject) :
    Fewer s (dropped cfg s i o) := by
  unfold dropped
  split_ifs
  · exact fewer_of_update (List.length_modify ..) rfl
  · exact fewer_of_eq rfl rfl

private theorem fewer_ended (s : Lifetime) (i : ℕ) (owner : Option Text) :
    Fewer s (s.ended cfg i owner) := by
  unfold ended
  split
  · exact fewer_of_eq rfl rfl
  · rename_i o _
    split_ifs
    · exact (fewer_markEnded s i).trans ((fewer_redisOnDisconnect _ o).trans
        ((fewer_keelOnDisconnect _ i o owner).trans (fewer_dropped _ i o)))
    · exact fewer_of_eq rfl rfl

private theorem fewer_swept (s : Lifetime) (node : Text) (dt : ℤ) :
    Fewer s (s.swept cfg node dt) := by
  unfold swept
  split
  · exact fewer_of_eq rfl rfl
  · split_ifs
    · exact fewer_of_update rfl rfl
    · exact fewer_of_eq rfl rfl

private theorem length_takeOver (s : Lifetime) (node : Text) (now : ℤ) :
    (s.takeOver node now).length = s.objects.length := by
  unfold takeOver
  split
  · rfl
  · exact List.length_modify ..

theorem single_step (s : Lifetime) (e : LifetimeEvent) (hs : s.Single) (he : s.LeavesNone e) :
    (s.step cfg e).Single := by
  have hfewer {t : Lifetime} (h : Fewer s t) : t.Single :=
    fun n i hi => (hs n i (h.clients n i hi)).trans h.length.symm
  cases e with
  | connect node properties now =>
    intro n i hi
    change Function.update s.clients node (some s.objects.length) n = some i at hi
    change i + 1 = (s.takeOver node now ++ [_]).length
    rw [List.length_append, length_takeOver]
    rw [Function.update_apply] at hi
    split_ifs at hi with hn
    · cases hi
      rfl
    · rw [he n hn] at hi
      cases hi
  | subscribe i pk aclCheck =>
    exact hfewer (fewer_onObject s i fun t => t.onSubscribe cfg.toSessionConfig pk aclCheck)
  | unsubscribe i pk =>
    exact hfewer (fewer_onObject s i fun t => t.onUnsubscribe pk)
  | ack i a =>
    exact hfewer (fewer_onObject s i fun t => t.onAck cfg.toSessionConfig a)
  | deliver i pk last outcome =>
    exact hfewer (fewer_onObject s i fun t => t.onDeliver cfg.toSessionConfig pk last outcome)
  | receive i packetID now =>
    exact hfewer (fewer_onObject s i fun t => t.onReceive cfg.toSessionConfig packetID now)
  | enqueue args now => exact hfewer (fewer_of_eq rfl rfl)
  | reconcile filter owner => exact hfewer (fewer_of_eq rfl rfl)
  | stop i interval now => exact hfewer (fewer_of_eq (List.length_modify ..) rfl)
  | evict node now =>
    refine hfewer (fewer_of_eq ?_ rfl)
    unfold step
    dsimp only
    split
    · rfl
    · exact List.length_modify ..
  | ended i owner => exact hfewer (fewer_ended s i owner)
  | sweep node dt => exact hfewer (fewer_swept s node dt)

theorem along_staleInTime (s : Lifetime) (es : List LifetimeEvent) (hs : s.Single)
    (hes : Along (step cfg) LeavesNone s es) :
    Along (step cfg) (StaleInTime cfg) s es := by
  refine along_of_invariant (fun s e => single_step s e) (fun s e hs _ => ?_) hs hes
  cases e with
  | sweep node dt => exact Or.inr (Or.inr fun i hi hlast => absurd (hs node i hi) hlast)
  | connect | subscribe | unsubscribe | ack | deliver | receive | enqueue | reconcile | stop
  | evict | ended => trivial

/-- A client that leaves no client object behind never loses a session that is not over to a
sweep. -/
theorem along_spares_of_leavesNone (s : Lifetime) (es : List LifetimeEvent) (hs : s.Single)
    (hes : StepMachine.Along (step cfg) LeavesNone s es) :
    StepMachine.Along (step cfg) (Spares cfg) s es :=
  (along_staleInTime s es hs hes).imp fun s e h => (spares_iff s e).2 h

/-! ### A stale client object -/

/-- A client that keeps its session for 100 seconds. -/
def persistent : ClientProperties where
  sessionExpiryInterval := 100
  sessionExpiryIntervalFlag := true

/-- Schema 2, and sessions of at most an hour. -/
def hourly : LifetimeConfig where
  clientID := QueueState.sensor
  schema := .v2
  maximumSessionExpiryInterval := 3600

/-- Nothing is known about the client. -/
def unknown : Lifetime where
  keys := QueueState.fresh.keys

/-- A client that comes back to the same node. -/
theorem along_spares_back :
    StepMachine.Along (step hourly) (Spares hourly) unknown
      [.connect ['x'] persistent 0, .stop 0 none 10, .ended 0 (some ['x']),
        .connect ['x'] persistent 20, .sweep ['x'] 200] := by
  refine along_spares_of_leavesNone _ _ (fun n i hi => by cases hi)
    ⟨fun _ _ => rfl, trivial, trivial, fun n hn => Function.update_of_ne hn _ _, trivial, trivial⟩

/-- The client is connected for a while on one node, then connects on another and subscribes. -/
def moved : List LifetimeEvent :=
  [.connect "x".toList persistent 0, .stop 0 none 10, .ended 0 (some "x".toList),
    .connect "y".toList persistent 20,
    .subscribe 1 (SubState.subscribeTo 1 "t".toList) fun _ => true]

/-- The sweep of the first node deletes the session while the client is connected to the second. -/
theorem not_along_spares_moved :
    ¬ Along (step hourly) (Spares hourly) unknown (moved ++ [.sweep "x".toList 200]) := by
  rw [along_append]
  rintro ⟨-, hsweep, -⟩
  have hopen : ¬ (run (step hourly) unknown moved).SessionOver hourly 200 := by
    rintro ⟨o, ho, hstop, -⟩
    cases ho
    cases hstop
  have hrecord := (hsweep hopen).record
  revert hrecord
  decide +kernel

end Lifetime

end KeelGateway.Broker
