import KeelGateway.Broker.Authenticate
import KeelGateway.Broker.SessionResume
import KeelGateway.Redis.KeyNames

/-!
# Sessions of several clients

The sessions of all clients live in one Redis, under keys that are spelled from the client ID, and
in the client tables of the nodes, under the client ID itself. A CONNECT authenticates a device of
some tenant, but the session it resumes is the one of the client ID it chose: nothing compares the
tenant with the one that created the session.

Isolation is stated by removal: a connection inherits nothing of the sessions of a tenant if it
inherits the same when all events of those sessions are left out of the run.

-/

namespace KeelGateway.Broker

open Redis Mochi Optimistic StepMachine

/-! ### One client -/

/-- A session with the facts that only matter among several clients. -/
structure ClientSession extends SessionState where
  /-- The nodes whose client object belongs to a clean session of MQTT 3. -/
  clean : Text → Bool := fun _ => false
  /-- The tenant of the connection that created the session. No code looks at it. -/
  creator : Option UUID := none

/-- The settings of the cluster. -/
structure ClusterConfig where
  schema : Schema
  subscribe : SubscribeConfig := {}
  maximumInflight : ℕ := 1024 * 8
  defaultTenantID : Text := []

/-- The settings as the session of a client sees them. -/
def ClusterConfig.session (cfg : ClusterConfig) (clientID : Text) : SessionConfig where
  clientID := clientID
  schema := cfg.schema
  subscribe := cfg.subscribe
  maximumInflight := cfg.maximumInflight

/-- The event is a CONNECT. -/
def SessionEvent.isConnect : SessionEvent → Bool
  | connect _ => true
  | _ => false

@[simp] theorem SessionEvent.isConnect_disconnect (expire : Bool) :
    (SessionEvent.disconnect expire).isConnect = false := rfl

/-- What happens in the cluster. -/
inductive ClusterEvent where
  /-- A CONNECT on a node. `admitted`: the rate limiter, the connection limit of the tenant and the
  claim of the cluster session let it through. -/
  | connect (b : Backend) (conn : Connection) (node : Text) (admitted : Bool)
  /-- Any other event of `SessionState.step`. -/
  | client (clientID : Text) (e : SessionEvent) (he : e.isConnect = false)
  /-- A live publish goes out to the connected client; `last` is its last packet ID. -/
  | deliver (clientID : Text) (pk : Packet) (last : ℕ) (outcome : SendOutcome)
  | receive (clientID : Text) (packetID : ℕ) (now : ℤ)

namespace ClusterEvent

/-- The client ID of the session that an event concerns. -/
def clientID : ClusterEvent → Text
  | connect _ conn _ _ => conn.clientID
  | client clientID _ _ => clientID
  | deliver clientID _ _ _ => clientID
  | receive clientID _ _ => clientID

/-- The tenant of the device that a CONNECT authenticates. -/
def tenant? (cfg : ClusterConfig) : ClusterEvent → Option UUID
  | connect b conn _ true => (b.authenticate cfg.defaultTenantID conn).map (·.1.tenantID)
  | _ => none

end ClusterEvent

namespace SessionState

variable (cfg : SessionConfig)

/-- The branch of `inheritClientSession` that abandons the old client object: its filters are
unsubscribed and its packets in flight dropped, with the hooks. `OnSessionEstablish` has run before
unless the CONNECT is clean. -/
def abandoned (s : SessionState) (node : Text) (clean : Bool) : SessionState :=
  let existing := if clean then s.copies node else some (s.established cfg node)
  let keys := if clean then s.keys else s.readKeys cfg node
  { s with
    sub := match existing with
      | none => s.sub
      | some copy => redisOnUnsubscribed s.sub (copy.subs.entries.map fun row => row.2.filter)
    keys := match existing with
      | none => keys
      | some copy => cleared cfg keys copy.inflight.getAll
    copies := Function.update s.copies node (some {})
    here := some node
    last := some node }

/-- `publishToClientMode` at QoS 1 or 2. -/
def onDeliver (s : SessionState) (pk : Packet) (last : ℕ) (outcome : SendOutcome) (copy : Copy) :
    Copy × SubHash × Keys :=
  match copy.inflight.outgoing cfg.maximumInflight last pk with
  | none => (copy, s.sub, s.keys)
  | some out =>
    let after := copy.inflight.sent (fun k pk => k.liveWrite cfg.clientID cfg.schema pk pk.created)
      (fun k pk => k.liveDelete cfg.schema pk true) s.keys out outcome
    ({ copy with inflight := after.1 }, s.sub, after.2)

/-- `processPublish` at QoS 2, unless the packet ID is in use: the PUBREC is stored. -/
def onReceive (s : SessionState) (packetID : ℕ) (now : ℤ) (copy : Copy) : Copy × SubHash × Keys :=
  match copy.inflight.acceptInbound packetID with
  | none => (copy, s.sub, s.keys)
  | some inflight =>
    let ack := { buildAck packetID .pubrec 0 now with inboundFlow := true }
    ({ copy with inflight := inflight.setInbound ack }, s.sub,
      s.keys.liveWrite cfg.clientID cfg.schema ack now)

end SessionState

namespace ClientSession

variable (cfg : ClusterConfig)

/-- The CONNECT abandons the client object of its node. -/
def abandons (s : ClientSession) (conn : Connection) (node : Text) : Bool :=
  conn.clean || (s.clean node && (s.copies node).isSome)

/-- A CONNECT that authenticated a device of the tenant. -/
def connect (s : ClientSession) (conn : Connection) (node : Text) (tenant : UUID) :
    ClientSession :=
  if s.abandons conn node then
    { toSessionState := s.abandoned (cfg.session conn.clientID) node conn.clean
      clean := Function.update s.clean node (conn.clean && decide (conn.protocolVersion < 5))
      creator := some tenant }
  else
    { toSessionState := s.connected (cfg.session conn.clientID) node
      clean := Function.update s.clean node false
      creator := some (s.creator.getD tenant) }

/-- What the new connection inherits. -/
def inherited (s : ClientSession) (conn : Connection) (node : Text) : Copy :=
  if s.abandons conn node then {} else s.toSessionState.inherited (cfg.session conn.clientID) node

/-- The session ends with the event. -/
def ends : SessionEvent → Bool
  | .disconnect expire => expire
  | _ => false

/-- What an event does to the session of its client. -/
def step (s : ClientSession) (e : ClusterEvent) : ClientSession :=
  match e with
  | .connect _ conn node _ =>
    match e.tenant? cfg with
    | none => s
    | some tenant => s.connect cfg conn node tenant
  | .client clientID e _ =>
    { s with
      toSessionState := s.toSessionState.step (cfg.session clientID) e
      creator := if ends e ∧ s.here ≠ none then none else s.creator }
  | .deliver clientID pk last outcome =>
    { s with
      toSessionState := s.onClient (s.onDeliver (cfg.session clientID) pk last outcome) }
  | .receive clientID packetID now =>
    { s with
      toSessionState := s.onClient (s.onReceive (cfg.session clientID) packetID now) }

end ClientSession

/-! ### All clients -/

/-- Redis and the client tables of the nodes. -/
structure Cluster where
  marker : Cell Marker
  sub : Text → SubHash := fun _ => ∅
  ifm : Text → Cell InflightHash := fun _ => ⟨∅, 0⟩
  counter : Text → Cell (Option ℤ) := fun _ => ⟨none, 0⟩
  dedup : UUID → Text → Cell Bool := fun _ _ => ⟨false, 0⟩
  clients : Text → Text → Option Copy := fun _ _ => none
  clean : Text → Text → Bool := fun _ _ => false
  here : Text → Option Text := fun _ => none
  last : Text → Option Text := fun _ => none
  creator : Text → Option UUID := fun _ => none

namespace Cluster

/-- The session of a client: what stands under its keys and in the client tables. -/
def session (s : Cluster) (clientID : Text) : ClientSession where
  sub := s.sub (redisSubKey clientID)
  keys :=
    { marker := s.marker
      hash := s.ifm (redisInflightKey clientID)
      counter := s.counter (redisPacketIDKey clientID)
      dedup := fun p => s.dedup p (redisDedupKey p clientID) }
  copies := fun node => s.clients node clientID
  here := s.here clientID
  last := s.last clientID
  clean := fun node => s.clean node clientID
  creator := s.creator clientID

/-- The session of a client is replaced. The schema marker belongs to no client. -/
def put (s : Cluster) (clientID : Text) (t : ClientSession) : Cluster where
  marker := s.marker
  sub := Function.update s.sub (redisSubKey clientID) t.sub
  ifm := Function.update s.ifm (redisInflightKey clientID) t.keys.hash
  counter := Function.update s.counter (redisPacketIDKey clientID) t.keys.counter
  dedup := fun p => Function.update (s.dedup p) (redisDedupKey p clientID) (t.keys.dedup p)
  clients := fun node => Function.update (s.clients node) clientID (t.copies node)
  clean := fun node => Function.update (s.clean node) clientID (t.clean node)
  here := Function.update s.here clientID t.here
  last := Function.update s.last clientID t.last
  creator := Function.update s.creator clientID t.creator

variable (cfg : ClusterConfig)

/-- One event. -/
def step (s : Cluster) (e : ClusterEvent) : Cluster :=
  s.put e.clientID ((s.session e.clientID).step cfg e)

/-- What a connection inherits. -/
def inherited (s : Cluster) (conn : Connection) (node : Text) : Copy :=
  (s.session conn.clientID).inherited cfg conn node

/-- The tenant that created the session an event belongs to. -/
def owner (s : Cluster) (e : ClusterEvent) : Option UUID :=
  ((s.step cfg e).creator e.clientID).or (s.creator e.clientID)

/-- The run without the events of the sessions that a tenant created. -/
def purge (tenant : UUID) : Cluster → List ClusterEvent → List ClusterEvent
  | _, [] => []
  | s, e :: es =>
    if s.owner cfg e = some tenant then purge tenant (s.step cfg e) es
    else e :: purge tenant (s.step cfg e) es

end Cluster

/-! ### The schema marker -/

namespace SessionState

variable {cfg : SessionConfig}

theorem marker_readKeys (s : SessionState) (node : Text) :
    (s.readKeys cfg node).marker = s.keys.marker := by
  unfold readKeys
  split_ifs <;> rfl

theorem marker_onClient (s : SessionState) {f : Copy → Copy × SubHash × Keys}
    (hf : ∀ copy, (f copy).2.2.marker = s.keys.marker) :
    (s.onClient f).keys.marker = s.keys.marker := by
  rcases s.onClient_cases f with heq | ⟨node, copy, -, -, heq⟩
  · rw [heq]
  · rw [heq]
    exact hf copy

theorem marker_connected (s : SessionState) (node : Text) :
    (s.connected cfg node).keys.marker = s.keys.marker :=
  (marker_resendAll _ _ _).trans ((marker_cleared _ _).trans (s.marker_readKeys node))

theorem marker_abandoned (s : SessionState) (node : Text) (clean : Bool) :
    (s.abandoned cfg node clean).keys.marker = s.keys.marker := by
  unfold abandoned
  dsimp only
  split <;> split_ifs <;> simp [marker_cleared, marker_readKeys]

theorem marker_onAck (s : SessionState) (a : Ack) (copy : Copy) :
    (s.onAck cfg a copy).2.2.marker = s.keys.marker := by
  unfold onAck
  dsimp only
  split
  · rfl
  · exact Keys.marker_liveDelete _ _ _

theorem marker_onDeliver (s : SessionState) (pk : Packet) (last : ℕ) (outcome : SendOutcome)
    (copy : Copy) : (s.onDeliver cfg pk last outcome copy).2.2.marker = s.keys.marker := by
  unfold onDeliver
  split
  · rfl
  · cases outcome with
    | waits | taken => exact Keys.marker_liveWrite _ _ _ _
    | undone => exact (Keys.marker_liveDelete _ _ _).trans (Keys.marker_liveWrite _ _ _ _)

theorem marker_onReceive (s : SessionState) (packetID : ℕ) (now : ℤ) (copy : Copy) :
    (s.onReceive cfg packetID now copy).2.2.marker = s.keys.marker := by
  unfold onReceive
  split
  · rfl
  · exact Keys.marker_liveWrite _ _ _ _

theorem marker_step (s : SessionState) (e : SessionEvent) :
    (s.step cfg e).keys.marker = s.keys.marker := by
  cases e with
  | connect node => exact s.marker_connected node
  | disconnect expire =>
    unfold step disconnected
    dsimp only
    split
    · rfl
    · split_ifs <;> rfl
  | subscribe pk aclCheck | unsubscribe pk => exact s.marker_onClient fun copy => rfl
  | ack a => exact s.marker_onClient fun copy => s.marker_onAck a copy
  | enqueue args now => exact s.keys.marker_queueOfflineInflight cfg.clientID args now

end SessionState

theorem ClientSession.marker_step (cfg : ClusterConfig) (s : ClientSession) (e : ClusterEvent) :
    (s.step cfg e).keys.marker = s.keys.marker := by
  cases e with
  | connect b conn node admitted =>
    unfold step
    dsimp only
    split
    · rfl
    · unfold connect
      split_ifs
      · exact s.toSessionState.marker_abandoned node conn.clean
      · exact s.toSessionState.marker_connected node
  | client clientID e he => exact SessionState.marker_step s.toSessionState e
  | deliver clientID pk last outcome =>
    exact s.toSessionState.marker_onClient fun copy =>
      s.toSessionState.marker_onDeliver pk last outcome copy
  | receive clientID packetID now =>
    exact s.toSessionState.marker_onClient fun copy =>
      s.toSessionState.marker_onReceive packetID now copy

/-! ### Independence of client IDs -/

namespace Cluster

private theorem session_put_self (s : Cluster) (clientID : Text) {t : ClientSession}
    (h : t.keys.marker = s.marker) : (s.put clientID t).session clientID = t := by
  obtain ⟨⟨sub, ⟨marker, hash, counter, dedup⟩, copies, here, last⟩, clean, creator⟩ := t
  subst h
  simp [session, put]

theorem session_put_of_ne (s : Cluster) {clientID other : Text} (h : other ≠ clientID)
    (t : ClientSession) : (s.put clientID t).session other = s.session other := by
  have hkey (name : Text) : clientKey name other ≠ clientKey name clientID :=
    fun heq => h (clientKey_injective name heq)
  simp [session, put, Function.update_of_ne h, redisSubKey, redisInflightKey, redisPacketIDKey,
    redisDedupKey, Function.update_of_ne (hkey _)]

variable {cfg : ClusterConfig}

theorem componentwise_step :
    Componentwise (step cfg) ClusterEvent.clientID session (ClientSession.step cfg) where
  own s e := s.session_put_self e.clientID ((s.session e.clientID).marker_step cfg e)
  other s _ _ h := s.session_put_of_ne h _

/-! ### Isolation -/

variable {es : List ClusterEvent} {e : ClusterEvent}

theorem creator_clientStep {s : ClientSession} {t : UUID} (h : (s.step cfg e).creator = some t) :
    s.creator = some t ∨ e.tenant? cfg = some t := by
  cases e with
  | connect b conn node admitted =>
    unfold ClientSession.step at h
    dsimp only at h
    split at h
    · exact Or.inl h
    · next tenant htenant =>
      unfold ClientSession.connect at h
      split_ifs at h
      · exact Or.inr (htenant.trans h)
      · cases hc : s.creator with
        | none =>
          simp only [hc] at h
          exact Or.inr (htenant.trans h)
        | some t' =>
          simp only [hc] at h
          exact Or.inl h
  | client clientID e he =>
    simp only [ClientSession.step] at h
    split_ifs at h
    exact Or.inl h
  | deliver clientID pk last outcome => exact Or.inl h
  | receive clientID packetID now => exact Or.inl h

variable {s : Cluster} {clientID : Text} {t : UUID}

theorem creator_step (hs : s.creator clientID ≠ some t)
    (he : e.clientID = clientID → e.tenant? cfg ≠ some t) :
    (s.step cfg e).creator clientID ≠ some t := by
  intro ht
  have hcomponent : Componentwise (step cfg) ClusterEvent.clientID session
      (ClientSession.step cfg) := componentwise_step
  by_cases hid : clientID = e.clientID
  · subst hid
    have hown := congrArg ClientSession.creator (hcomponent.own s e)
    rcases creator_clientStep (hown.symm.trans ht) with hold | hnew
    · exact hs hold
    · exact he rfl hnew
  · have hother := congrArg ClientSession.creator (hcomponent.other s e clientID hid)
    exact hs (hother.symm.trans ht)

theorem filter_purge (hs : s.creator clientID ≠ some t)
    (hes : ∀ e ∈ es, e.clientID = clientID → e.tenant? cfg ≠ some t) :
    (purge cfg t s es).filter (·.clientID = clientID) = es.filter (·.clientID = clientID) := by
  induction es generalizing s with
  | nil => rfl
  | cons e es ih =>
    have hstep := creator_step hs (hes e List.mem_cons_self)
    have htail := ih hstep fun e' he' => hes e' (List.mem_cons_of_mem _ he')
    unfold purge
    split_ifs with howner
    · -- the event belongs to another client ID
      have hid : e.clientID ≠ clientID := by
        rintro rfl
        rcases Option.or_eq_some_iff.1 howner with hnew | ⟨-, hold⟩
        · exact hstep hnew
        · exact hs hold
      rw [htail, List.filter_cons, if_neg (by simpa using hid)]
    · rw [List.filter_cons, List.filter_cons, htail]

/-- What a connection inherits is a matter of the events of its client ID alone. Leaving out the
sessions that a tenant created changes nothing for it, unless the tenant has used that client ID. -/
theorem inherited_purge (s : Cluster) (es : List ClusterEvent) (conn : Connection) (node : Text) :
    (run (step cfg) s es).inherited cfg conn node =
        (run (step cfg) s (es.filter (·.clientID = conn.clientID))).inherited cfg conn node ∧
      ∀ t₁, s.creator conn.clientID ≠ some t₁ →
        (∀ e ∈ es, e.clientID = conn.clientID → e.tenant? cfg ≠ some t₁) →
        (run (step cfg) s es).inherited cfg conn node =
          (run (step cfg) s (purge cfg t₁ s es)).inherited cfg conn node := by
  have hown (es es' : List ClusterEvent)
      (h : es.filter (·.clientID = conn.clientID) = es'.filter (·.clientID = conn.clientID)) :
      (run (step cfg) s es).inherited cfg conn node =
        (run (step cfg) s es').inherited cfg conn node := by
    unfold inherited
    rw [componentwise_step.get_run s es, componentwise_step.get_run s es', h]
  exact ⟨hown _ _ (by rw [List.filter_filter]; simp), fun t₁ hs hes =>
    hown _ _ (filter_purge hs hes).symm⟩

/-! ### A client ID of two tenants -/

/-- A device and its tenant, told apart by one byte. -/
def device (n : UInt8) : DeviceInfo where
  id := ⟨List.replicate 16 n, List.length_replicate⟩
  tenantID := ⟨List.replicate 16 n, List.length_replicate⟩

/-- Password authentication, with one device in each of two tenants. -/
def twoTenants : Backend where
  tenantConfig _ :=
    some { passwordAuthEnabled := true, jwtAuthEnabled := false, certAuthEnabled := false }
  lookupByCN _ _ := none
  validatePassword name _ :=
    if name = "d1".toList then some (device 1)
    else if name = "d2".toList then some (device 2)
    else none
  validateJWT _ _ _ := false
  validateJWTFromClientID _ _ _ := false

/-- The device of tenant 1 connects with a client ID. -/
def first (clientID : Text) : Connection where
  clientID := clientID
  username := "d1@t1".toList
  password := [0]

/-- So does the device of tenant 2. -/
def second (clientID : Text) : Connection where
  clientID := clientID
  username := "d2@t2".toList
  password := [0]

/-- Schema 2. -/
def schema2 : ClusterConfig where
  schema := .v2

/-- No session exists. -/
def fresh : Cluster where
  marker := ⟨.valid .v2, 0⟩

/-- A device creates a session, subscribes, leaves, and a message is queued for it. -/
def sessionOf (conn : Connection) : List ClusterEvent :=
  [.connect twoTenants conn ['A'] true,
    .client conn.clientID (.subscribe (SubState.subscribeTo 1 ['a']) fun _ => true) rfl,
    .client conn.clientID (.disconnect false) rfl,
    .client conn.clientID (.enqueue QueueState.reading 0) rfl]

/-- The cluster after a run. -/
def after (es : List ClusterEvent) : Cluster := run (step schema2) fresh es

/-- The cluster after a run without the sessions of tenant 1. -/
def without (es : List ClusterEvent) : Cluster :=
  run (step schema2) fresh (purge schema2 (device 1).tenantID fresh es)

/-- A session of tenant 1. -/
def oneSession : List ClusterEvent := sessionOf (first ['c'])

/-- The device of tenant 2 connects on another node with the client ID of the device of tenant 1 and
gets its subscription and its queued message. -/
theorem inherited_of_other_tenant :
    (ClusterEvent.connect twoTenants (second ['c']) ['B'] true).tenant? schema2 =
        some (device 2).tenantID ∧
      (device 1).tenantID ≠ (device 2).tenantID ∧
      ['a'] ∈ ((after oneSession).inherited schema2 (second ['c']) ['B']).subs ∧
      ['a'] ∉ ((without oneSession).inherited schema2 (second ['c']) ['B']).subs ∧
      ((after oneSession).inherited schema2 (second ['c']) ['B']).inflight.getAll.length = 1 ∧
      ((without oneSession).inherited schema2 (second ['c']) ['B']).inflight.getAll.length = 0 := by
  decide +kernel

/-- A session of each tenant, with client IDs of their own. -/
def bothSessions : List ClusterEvent := sessionOf (first ['c']) ++ sessionOf (second ['d'])

/-- With a client ID of its own the device of tenant 2 gets its own session and nothing of tenant
1. -/
theorem inherited_purge_own :
    ['a'] ∈ ((after bothSessions).inherited schema2 (second ['d']) ['B']).subs ∧
      (after bothSessions).inherited schema2 (second ['d']) ['B'] =
        (without bothSessions).inherited schema2 (second ['d']) ['B'] :=
  ⟨by decide +kernel, (inherited_purge fresh bothSessions (second ['d']) ['B']).2 _ (by decide)
    (by decide +kernel)⟩

end Cluster

end KeelGateway.Broker
