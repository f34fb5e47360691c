import KeelGateway.Broker.Subscriptions
import KeelGateway.Redis.OfflineQueue
import KeelGateway.Redis.StoredSession

/-!
# Resuming a persistent session

A persistent session lives in Redis, in the SUB hash and in the in-flight hash of its client, and
each node on which the client has connected keeps the client object of the last connection. A
CONNECT on a node that has such a copy resumes from the copy, refreshed with the in-flight hash; on
any other node it resumes from Redis alone. The copy of a node that the client has left is never
told what happens on other nodes.

-/

namespace KeelGateway.Broker

open Redis Mochi StepMachine

/-! ### The machine -/

/-- A client object: its subscriptions and its packets in flight. -/
structure Copy where
  subs : ClientSubscriptions := ∅
  inflight : Inflight := {}

/-- `Subscriptions.Add` for one subscription after the other. -/
def byFilter (subs : List Subscription) : ClientSubscriptions :=
  subs.foldl (fun m sub => m.insert sub.filter sub) ∅

/-- The subscription that a record of the SUB hash stands for. -/
def StoredSubscription.toSubscription (r : StoredSubscription) : Subscription where
  filter := r.filter
  identifier := r.identifier
  retainHandling := r.retainHandling
  qos := r.qos
  retainAsPublished := r.retainAsPublished
  noLocal := r.noLocal

/-- The client, the schema in force, and the broker's settings. -/
structure SessionConfig where
  clientID : Text
  schema : Schema
  subscribe : SubscribeConfig := {}
  maximumInflight : ℕ := 1024 * 8

/-- A session: its part of Redis, and the client objects on the nodes. -/
structure SessionState where
  sub : SubHash := ∅
  keys : Keys
  copies : Text → Option Copy := fun _ => none
  here : Option Text := none
  last : Option Text := none

/-- What happens to the session. -/
inductive SessionEvent where
  | connect (node : Text)
  | disconnect (expire : Bool)
  | subscribe (pk : SubscribePacket) (aclCheck : Text → Bool)
  | unsubscribe (pk : UnsubscribePacket)
  | ack (a : Ack)
  | enqueue (args : CallArgs) (now : ℤ)

theorem mem_byFilter (subs : List Subscription) (f : Text) :
    f ∈ byFilter subs ↔ ∃ sub ∈ subs, sub.filter = f := by
  unfold byFilter
  induction subs using List.reverseRecOn with
  | nil => simp
  | append_singleton subs sub ih =>
    rw [List.foldl_append, List.foldl_cons, List.foldl_nil, AList.mem_insert, ih]
    simp only [List.mem_append, List.mem_singleton, or_and_right, exists_or, exists_eq_left,
      eq_comm (a := f)]
    exact or_comm

/-- The client object that a new one inherits from hands over its subscriptions one by one and a
clone of its packets in flight. -/
def Copy.inherit (c : Copy) : Copy where
  subs := byFilter (c.subs.entries.map Sigma.snd)
  inflight := c.inflight

namespace SessionState

variable (cfg : SessionConfig)

/-- The in-flight hash. -/
def ifm (s : SessionState) : InflightHash := s.keys.hash.value

/-- `OnSessionEstablish`: the client object that the broker finds afterwards. A copy on the node
whose connection is closed gets the messages of the hash on top of its own; without a copy, one is
made from Redis. Nothing is left when the hash cannot be read. -/
def established (s : SessionState) (node : Text) : Copy :=
  let messages := (storedInflightForClient cfg.schema s.ifm).2
  match s.copies node with
  | some copy =>
    if s.here = some node then copy
    else { copy with inflight := copy.inflight.setAll ((messages.getD []).map Message.toPacket) }
  | none =>
    match messages with
    | none => {}
    | some messages =>
      { subs := byFilter (s.sub.entries.map fun row => row.2.toSubscription)
        inflight := Inflight.setAll {} (messages.map Message.toPacket) }

/-- The keys after the read of `OnSessionEstablish`. -/
def readKeys (s : SessionState) (node : Text) : Keys :=
  if s.here = some node then s.keys
  else { s.keys with hash := s.keys.hash.write (storedInflightForClient cfg.schema s.ifm).1 }

/-- `ClearInflights` on the old client object. -/
def cleared (keys : Keys) (pks : List Packet) : Keys :=
  pks.foldl (fun keys pk => keys.liveDelete cfg.schema pk true) keys

/-- One round of `ResendInflightMessages`. -/
def resendOne (inflight : Inflight) (keys : Keys) (pk : Packet) : Inflight × Keys :=
  let keys := keys.liveWrite cfg.clientID cfg.schema (resent pk) pk.created
  if pk.type = .puback ∨ pk.type = .pubcomp then
    (inflight.deleteInbound pk.packetID, keys.liveDelete cfg.schema pk false)
  else (inflight, keys)

/-- `ResendInflightMessages`. -/
def resendAll (inflight : Inflight) (keys : Keys) (pks : List Packet) : Inflight × Keys :=
  pks.foldl (fun acc pk => resendOne cfg acc.1 acc.2 pk) (inflight, keys)

/-- The client object of the new connection after `inheritClientSession`. -/
def inherited (s : SessionState) (node : Text) : Copy := (s.established cfg node).inherit

/-- A CONNECT: the session is inherited, the old client object cleared, and the packets in flight
are sent again. -/
def connected (s : SessionState) (node : Text) : SessionState :=
  let client := s.inherited cfg node
  let pks := client.inflight.getAll
  let (inflight, keys) := resendAll cfg client.inflight (cleared cfg (s.readKeys cfg node) pks) pks
  { s with
    keys := keys
    copies := Function.update s.copies node (some { client with inflight := inflight })
    here := some node
    last := some node }

/-- A packet of the connected client changes its client object and Redis. -/
def onClient (s : SessionState) (f : Copy → Copy × SubHash × Keys) : SessionState :=
  match s.here with
  | none => s
  | some node =>
    match s.copies node with
    | none => s
    | some copy =>
      let (copy, sub, keys) := f copy
      { s with
        sub := sub
        keys := keys
        copies := Function.update s.copies node (some copy) }

/-- `processSubscribe` with the hook of the session store. -/
def onSubscribe (s : SessionState) (pk : SubscribePacket) (aclCheck : Text → Bool) (copy : Copy) :
    Copy × SubHash × Keys :=
  let (subs, codes) := processSubscribe cfg.subscribe aclCheck (pk.packetID ∈ copy.inflight.receive)
    copy.subs pk.filters
  ({ copy with subs := subs }, redisOnSubscribed cfg.clientID s.sub pk.filters codes, s.keys)

/-- `processUnsubscribe` with the hook of the session store. -/
def onUnsubscribe (s : SessionState) (pk : UnsubscribePacket) (copy : Copy) :
    Copy × SubHash × Keys :=
  ({ copy with
      subs := processUnsubscribe (pk.packetID ∈ copy.inflight.receive) copy.subs pk.filters },
    redisOnUnsubscribed s.sub pk.filters, s.keys)

/-- The acknowledgements with the hooks of the session store. -/
def onAck (s : SessionState) (a : Ack) (copy : Copy) : Copy × SubHash × Keys :=
  let (inflight, call) := copy.inflight.processAck a
  ({ copy with inflight := inflight }, s.sub,
    match call with
    | none => s.keys
    | some call => s.keys.liveDelete cfg.schema call.pk call.dropped)

/-- The end of a connection. When the session expires, `deleteSessionState` removes its keys and the
broker drops the client object. -/
def disconnected (s : SessionState) (expire : Bool) : SessionState :=
  match s.here with
  | none => s
  | some node =>
    if expire then
      { s with
        sub := ∅
        keys := { s.keys with hash := s.keys.hash.write ∅, counter := s.keys.counter.write none }
        copies := Function.update s.copies node none
        here := none }
    else { s with here := none }

/-- One event. -/
def step (s : SessionState) : SessionEvent → SessionState
  | .connect node => s.connected cfg node
  | .disconnect expire => s.disconnected expire
  | .subscribe pk aclCheck => s.onClient (s.onSubscribe cfg pk aclCheck)
  | .unsubscribe pk => s.onClient (s.onUnsubscribe pk)
  | .ack a => s.onClient (s.onAck cfg a)
  | .enqueue args now =>
    { s with keys := (s.keys.queueOfflineInflight cfg.clientID args now).1 }

/-- The new connection has the filters of the SUB hash and the messages of the in-flight hash, and
nothing else. -/
def Restored (s : SessionState) (node : Text) : Prop :=
  (∀ f, f ∈ (s.inherited cfg node).subs ↔ f ∈ s.sub) ∧
  ∀ pk, pk ∈ (s.inherited cfg node).inflight.getAll ↔
    ∃ f m, s.ifm.lookup f = some m ∧ m.toPacket = pk

/-- Every CONNECT restores the session. -/
def RestoredAt (s : SessionState) : SessionEvent → Prop
  | .connect node => s.Restored cfg node
  | _ => True

/-- A condition on the client object of the connected client. -/
def OnCopy (s : SessionState) (p : Copy → Prop) : Prop :=
  ∀ node ∈ s.here, ∀ copy ∈ s.copies node, p copy

instance (s : SessionState) (p : Copy → Prop) [DecidablePred p] : Decidable (s.OnCopy p) :=
  inferInstanceAs (Decidable (∀ node ∈ s.here, ∀ copy ∈ s.copies node, p copy))

/-- The filters of a SUBSCRIBE with the reason codes of the broker. -/
def outcome (copy : Copy) (pk : SubscribePacket) (aclCheck : Text → Bool) : Outcome :=
  pk.filters.zip (processSubscribe cfg.subscribe aclCheck (pk.packetID ∈ copy.inflight.receive)
    copy.subs pk.filters).2

/-- The steps that keep the copy of the last node in step with Redis: a CONNECT after the end of
the connection before, on a node without a copy or on the node of the last connection; a SUBSCRIBE
or UNSUBSCRIBE whose refusals change nothing; no PUBREC that refuses a delivery for which the PUBREL
is out while a flow of the client has the same ID; an enqueue with the counter in range. -/
def Orderly (s : SessionState) : SessionEvent → Prop
  | .connect node => s.here = none ∧ (s.copies node = none ∨ s.last = some node)
  | .disconnect _ => True
  | .subscribe pk aclCheck => s.OnCopy fun copy =>
    ∀ p ∈ outcome cfg copy pk aclCheck, errUnspecifiedError ≤ p.2 →
      p.1.filter ∈ copy.subs ∨
        ∃ q ∈ outcome cfg copy pk aclCheck, q.1.filter = p.1.filter ∧ q.2 < errUnspecifiedError
  | .unsubscribe pk => s.OnCopy fun copy =>
    pk.packetID ∈ copy.inflight.receive → ∀ f ∈ pk.filters, f ∉ copy.subs
  | .ack a => s.OnCopy fun copy => copy.inflight.DropsOwnFlow a
  | .enqueue _ _ => CounterInRange s.keys.counterValue

instance (s : SessionState) : (e : SessionEvent) → Decidable (s.Orderly cfg e)
  | .connect node =>
    have : Decidable (s.copies node = none) := decidable_of_iff _ Option.isNone_iff_eq_none
    inferInstanceAs (Decidable (s.here = none ∧ (s.copies node = none ∨ s.last = some node)))
  | .disconnect _ => isTrue trivial
  | .subscribe _ _ => inferInstanceAs (Decidable (s.OnCopy _))
  | .unsubscribe _ => inferInstanceAs (Decidable (s.OnCopy _))
  | .ack _ => inferInstanceAs (Decidable (s.OnCopy _))
  | .enqueue _ _ => inferInstanceAs (Decidable (CounterInRange s.keys.counterValue))

/-! ### Redis -/

/-- The in-flight hash as the hooks keep it: every message in its own field, deliveries of the
broker and flows of the client that wait for the PUBREL. -/
structure KeysOk (k : Keys) : Prop where
  schema : k.marker.value.fence? = some cfg.schema
  own : OwnField cfg.schema k.hash.value
  types : ∀ f m, k.hash.value.lookup f = some m → m.type = .publish ∨ m.type = .pubrec

variable {cfg} {k : Keys} {subs : ClientSubscriptions}

theorem KeysOk.liveDelete (h : KeysOk cfg k) (pk : Packet) (dropped : Bool) :
    KeysOk cfg (k.liveDelete cfg.schema pk dropped) := by
  have hlook (f : Field) (m : Message)
      (hm : (k.liveDelete cfg.schema pk dropped).hash.value.lookup f = some m) :
      k.hash.value.lookup f = some m := by
    rw [Keys.lookup_liveDelete h.schema] at hm
    split_ifs at hm
    exact hm
  exact ⟨(congrArg (·.value.fence?) (Keys.marker_liveDelete _ _ _)).trans h.schema,
    fun f m hm => h.own f m (hlook f m hm), fun f m hm => h.types f m (hlook f m hm)⟩

theorem KeysOk.liveWrite (h : KeysOk cfg k) {pk : Packet}
    (hpk : pk.type = .publish ∨ pk.type = .pubrec) (sent : ℤ) :
    KeysOk cfg (k.liveWrite cfg.clientID cfg.schema pk sent) where
  schema := (congrArg (·.value.fence?) (Keys.marker_liveWrite _ _ _ _)).trans h.schema
  own f m hm := by
    rw [Keys.lookup_liveWrite h.schema] at hm
    split_ifs at hm with hf
    · cases hm
      rw [hf]
      cases cfg.schema <;> rfl
    · exact h.own f m hm
  types f m hm := by
    rw [Keys.lookup_liveWrite h.schema] at hm
    split_ifs at hm
    · cases hm
      exact hpk
    · exact h.types f m hm

theorem KeysOk.cleared (h : KeysOk cfg k) (pks : List Packet) : KeysOk cfg (cleared cfg k pks) := by
  unfold SessionState.cleared
  induction pks generalizing k with
  | nil => exact h
  | cons pk pks ih => exact ih (h.liveDelete pk true)

theorem marker_cleared (k : Keys) (pks : List Packet) : (cleared cfg k pks).marker = k.marker := by
  induction pks generalizing k with
  | nil => rfl
  | cons pk pks ih => exact (ih _).trans (Keys.marker_liveDelete _ _ _)

private theorem marker_resendOne (i : Inflight) (k : Keys) (pk : Packet) :
    (resendOne cfg i k pk).2.marker = k.marker := by
  unfold resendOne
  split_ifs
  · exact (Keys.marker_liveDelete _ _ _).trans (Keys.marker_liveWrite _ _ _ _)
  · exact Keys.marker_liveWrite _ _ _ _

theorem marker_resendAll (i : Inflight) (k : Keys) (pks : List Packet) :
    (resendAll cfg i k pks).2.marker = k.marker := by
  induction pks generalizing i k with
  | nil => rfl
  | cons pk pks ih => exact (ih _ _).trans (marker_resendOne i k pk)

theorem lookup_cleared (h : k.marker.value.fence? = some cfg.schema) (pks : List Packet)
    (f : Field) : (cleared cfg k pks).hash.value.lookup f =
      if ∃ pk ∈ pks, f ∈ deleteFields cfg.schema pk true then none else k.hash.value.lookup f := by
  induction pks generalizing k with
  | nil => simp [cleared]
  | cons pk pks ih =>
    have hmarker : (k.liveDelete cfg.schema pk true).marker.value.fence? = some cfg.schema :=
      (congrArg (·.value.fence?) (Keys.marker_liveDelete _ _ _)).trans h
    have hstep : cleared cfg k (pk :: pks) =
        cleared cfg (k.liveDelete cfg.schema pk true) pks := rfl
    rw [hstep, ih hmarker, Keys.lookup_liveDelete h]
    by_cases hpk : f ∈ deleteFields cfg.schema pk true
    · simp [hpk]
    · simp [hpk]

/-- A hash to which a packet was written has a message of its flow. -/
def HasFlow (hash : InflightHash) (f : Field) : Prop :=
  ∃ g m, hash.lookup g = some m ∧ inflightFieldKey m.toPacket = f

theorem resendAll_spec (h : KeysOk cfg k) (inflight : Inflight) {pks : List Packet}
    (htypes : ∀ pk ∈ pks, pk.type = .publish ∨ pk.type = .pubrec)
    (huniq : ∀ p ∈ pks, ∀ q ∈ pks, writeField cfg.schema p = writeField cfg.schema q →
      inflightFieldKey p = inflightFieldKey q) :
    (resendAll cfg inflight k pks).1 = inflight ∧ KeysOk cfg (resendAll cfg inflight k pks).2 ∧
      ∀ pk ∈ pks, ∃ m, (resendAll cfg inflight k pks).2.hash.value.lookup
        (writeField cfg.schema pk) = some m ∧
          inflightFieldKey m.toPacket = inflightFieldKey pk := by
  induction pks using List.reverseRecOn with
  | nil => exact ⟨rfl, h, by simp⟩
  | append_singleton pks q ih =>
    obtain ⟨hmem, hok, hall⟩ := ih (fun pk hpk => htypes pk (List.mem_append_left _ hpk))
      fun p hp q hq => huniq p (List.mem_append_left _ hp) q (List.mem_append_left _ hq)
    have hq : q.type = .publish ∨ q.type = .pubrec := htypes q (by simp)
    have hif : ¬ (q.type = .puback ∨ q.type = .pubcomp) := by
      rcases hq with hq | hq <;> simp [hq]
    have hlast : resendAll cfg inflight k (pks ++ [q]) =
        ((resendAll cfg inflight k pks).1, (resendAll cfg inflight k pks).2.liveWrite cfg.clientID
          cfg.schema (resent q) q.created) := by
      simp only [resendAll, List.foldl_append, List.foldl_cons, List.foldl_nil]
      rw [resendOne, if_neg hif]
    rw [hlast]
    refine ⟨hmem, hok.liveWrite ((type_resent q).symm ▸ hq) _, fun pk hpk => ?_⟩
    rw [Keys.lookup_liveWrite hok.schema, writeField_resent]
    split_ifs with hfield
    · -- the last packet wrote this field
      refine ⟨_, rfl, ?_⟩
      rw [huniq pk hpk q (by simp) hfield]
      exact inflightFieldKey_resent q
    · rcases List.mem_append.1 hpk with hpk | hpk
      · exact hall pk hpk
      · exact absurd (List.mem_singleton.1 hpk ▸ rfl) hfield

/-! ### The invariant -/

/-- Every subscription is stored under its own filter. -/
def Keyed (subs : ClientSubscriptions) : Prop := ∀ f sub, subs.lookup f = some sub → sub.filter = f

theorem Keyed.insert (h : Keyed subs) (sub : Subscription) :
    Keyed (subs.insert sub.filter sub) := by
  intro f sub' hsub
  rw [GoMap.lookup_insert] at hsub
  split_ifs at hsub with hf
  · cases hsub
    exact hf.symm
  · exact h f sub' hsub

theorem keyed_byFilter (subs : List Subscription) : Keyed (byFilter subs) := by
  unfold byFilter
  induction subs using List.reverseRecOn with
  | nil => intro f sub h; simp at h
  | append_singleton subs sub ih =>
    rw [List.foldl_append]
    exact ih.insert sub

theorem mem_byFilter_entries (h : Keyed subs) (f : Text) :
    f ∈ byFilter (subs.entries.map Sigma.snd) ↔ f ∈ subs := by
  rw [mem_byFilter, GoMap.mem_iff_exists_lookup]
  constructor
  · rintro ⟨sub, hsub, rfl⟩
    obtain ⟨⟨g, sub⟩, hmem, rfl⟩ := List.mem_map.1 hsub
    have hlook : subs.lookup g = some sub := AList.mem_lookup_iff.2 hmem
    rw [h g sub hlook]
    exact ⟨sub, hlook⟩
  · rintro ⟨sub, hsub⟩
    exact ⟨sub, List.mem_map.2 ⟨⟨f, sub⟩, AList.mem_lookup_iff.1 hsub, rfl⟩, h f sub hsub⟩

/-- The client object has the filters of the SUB hash, and no flow that the in-flight hash does not
have. -/
structure InSync (s : SessionState) (copy : Copy) : Prop where
  subs : ∀ f, f ∈ copy.subs ↔ f ∈ s.sub
  keyed : Keyed copy.subs
  directed : copy.inflight.Directed
  covered : ∀ f pk, copy.inflight.flow f = some pk → HasFlow s.ifm f

/-- The invariant of orderly runs. -/
structure Inv (cfg : SessionConfig) (s : SessionState) : Prop where
  keys : KeysOk cfg s.keys
  records : ∀ f r, s.sub.lookup f = some r → r.filter = f
  here : ∀ node, s.here = some node → s.last = some node
  copy : ∀ node copy, s.last = some node → s.copies node = some copy → s.InSync copy

theorem getD_stored_eq {s : SessionState} (hown : OwnField cfg.schema s.ifm) :
    (storedInflightForClient cfg.schema s.ifm).1 = s.ifm ∧
      (storedInflightForClient cfg.schema s.ifm).2 = storedInflight cfg.schema s.ifm := by
  unfold storedInflightForClient
  cases hschema : cfg.schema with
  | legacy => exact ⟨rfl, rfl⟩
  | v2 =>
    rw [hschema] at hown
    simp only [if_true, migrateLegacyInflightFields_of_ownField hown, and_self]

/-- What a node has of the session in memory before a CONNECT. -/
def base (s : SessionState) (node : Text) : Inflight :=
  ((s.copies node).map Copy.inflight).getD {}

theorem inflight_established {s : SessionState} (hown : OwnField cfg.schema s.ifm)
    (hhere : s.here = none) (node : Text) :
    (s.established cfg node).inflight =
      (s.base node).setAll (((storedInflight cfg.schema s.ifm).getD []).map Message.toPacket) := by
  obtain ⟨ms, hread, -⟩ := storedInflight_of_ownField hown
  unfold established base
  rw [(getD_stored_eq hown).2, hread]
  cases s.copies node <;> simp [hhere]

theorem toPacket_mem_inherited {s : SessionState} (hown : OwnField cfg.schema s.ifm)
    (hhere : s.here = none) (node : Text) {f : Field} {m : Message}
    (hm : s.ifm.lookup f = some m) : m.toPacket ∈ (s.inherited cfg node).inflight.getAll := by
  have hinflight : (s.inherited cfg node).inflight = (s.established cfg node).inflight := rfl
  rw [hinflight, inflight_established hown hhere, Inflight.mem_getAll]
  exact ⟨inflightFieldKey m.toPacket, flow_setAll_storedInflight hown _ hm⟩

section Established

variable {s : SessionState} {node : Text}

private theorem base_spec (h : Inv cfg s) (hnode : s.copies node = none ∨ s.last = some node) :
    (s.base node).Directed ∧ ∀ f pk, (s.base node).flow f = some pk → HasFlow s.ifm f := by
  unfold base
  cases hcopy : s.copies node with
  | none =>
    refine ⟨.empty, fun f pk hpk => ?_⟩
    cases f <;> simp [Inflight.flow] at hpk
  | some copy =>
    have hlast : s.last = some node := by
      rcases hnode with hnode | hnode
      · rw [hcopy] at hnode
        cases hnode
      · exact hnode
    have hsync := h.copy node copy hlast hcopy
    exact ⟨hsync.directed, hsync.covered⟩

theorem flow_established (h : Inv cfg s) (hhere : s.here = none)
    (hnode : s.copies node = none ∨ s.last = some node) {f : Field} {pk : Packet} :
    (s.established cfg node).inflight.flow f = some pk ↔
      ∃ g m, s.ifm.lookup g = some m ∧ m.toPacket = pk ∧ f = inflightFieldKey pk := by
  rw [inflight_established h.keys.own hhere]
  constructor
  · intro hpk
    rcases flow_setAll_storedInflight_cases h.keys.own _ hpk with hread | hbase
    · exact hread
    · -- the copy has the flow as well, so the hash has it and was read over it
      obtain ⟨g, m, hm, rfl⟩ := (base_spec h hnode).2 f pk hbase
      have hflow := flow_setAll_storedInflight h.keys.own (s.base node) hm
      have heq : m.toPacket = pk := Option.some.inj (hflow.symm.trans hpk)
      exact ⟨g, m, hm, heq, by rw [heq]⟩
  · rintro ⟨g, m, hm, rfl, rfl⟩
    exact flow_setAll_storedInflight h.keys.own _ hm

theorem mem_getAll_established (h : Inv cfg s) (hhere : s.here = none)
    (hnode : s.copies node = none ∨ s.last = some node) (pk : Packet) :
    pk ∈ (s.established cfg node).inflight.getAll ↔
      ∃ f m, s.ifm.lookup f = some m ∧ m.toPacket = pk := by
  rw [Inflight.mem_getAll]
  constructor
  · rintro ⟨f, hf⟩
    obtain ⟨g, m, hm, heq, -⟩ := (flow_established h hhere hnode).1 hf
    exact ⟨g, m, hm, heq⟩
  · rintro ⟨g, m, hm, rfl⟩
    exact ⟨_, (flow_established h hhere hnode).2 ⟨g, m, hm, rfl, rfl⟩⟩

theorem subs_established (h : Inv cfg s) (hhere : s.here = none)
    (hnode : s.copies node = none ∨ s.last = some node) :
    Keyed (s.established cfg node).subs ∧
      ∀ f, f ∈ (s.established cfg node).subs ↔ f ∈ s.sub := by
  obtain ⟨ms, hms, -⟩ := storedInflight_of_ownField h.keys.own
  have hread : storedInflight cfg.schema s.ifm = some ms := hms
  unfold established
  rw [(getD_stored_eq h.keys.own).2, hread]
  cases hcopy : s.copies node with
  | none =>
    refine ⟨keyed_byFilter _, fun f => ?_⟩
    rw [mem_byFilter, GoMap.mem_iff_exists_lookup]
    constructor
    · rintro ⟨sub, hsub, rfl⟩
      obtain ⟨⟨g, r⟩, hmem, rfl⟩ := List.mem_map.1 hsub
      have hlook : s.sub.lookup g = some r := AList.mem_lookup_iff.2 hmem
      have hfilter : r.toSubscription.filter = g := h.records g r hlook
      rw [hfilter]
      exact ⟨r, hlook⟩
    · rintro ⟨r, hr⟩
      exact ⟨r.toSubscription, List.mem_map.2 ⟨⟨f, r⟩, AList.mem_lookup_iff.1 hr, rfl⟩,
        h.records f r hr⟩
  | some copy =>
    have hlast : s.last = some node := by
      rcases hnode with hnode | hnode
      · rw [hcopy] at hnode
        cases hnode
      · exact hnode
    have hsync := h.copy node copy hlast hcopy
    simp only [hhere]
    exact ⟨hsync.keyed, hsync.subs⟩

theorem restored_of_inv (h : Inv cfg s) (hhere : s.here = none)
    (hnode : s.copies node = none ∨ s.last = some node) : s.Restored cfg node := by
  obtain ⟨hkeyed, hsubs⟩ := subs_established h hhere hnode
  refine ⟨fun f => ?_, fun pk => mem_getAll_established h hhere hnode pk⟩
  exact (mem_byFilter_entries hkeyed f).trans (hsubs f)

theorem inv_connected (h : Inv cfg s) (hhere : s.here = none)
    (hnode : s.copies node = none ∨ s.last = some node) : Inv cfg (s.connected cfg node) := by
  have hflow {f : Field} {pk : Packet} : (s.established cfg node).inflight.flow f = some pk ↔
      ∃ g m, s.ifm.lookup g = some m ∧ m.toPacket = pk ∧ f = inflightFieldKey pk :=
    flow_established h hhere hnode
  have hmem (pk : Packet) := mem_getAll_established h hhere hnode pk
  have htypes : ∀ pk ∈ (s.inherited cfg node).inflight.getAll,
      pk.type = .publish ∨ pk.type = .pubrec := by
    intro pk hpk
    obtain ⟨g, m, hm, rfl⟩ := (hmem pk).1 hpk
    exact h.keys.types g m hm
  have huniq : ∀ p ∈ (s.inherited cfg node).inflight.getAll,
      ∀ q ∈ (s.inherited cfg node).inflight.getAll,
      writeField cfg.schema p = writeField cfg.schema q →
        inflightFieldKey p = inflightFieldKey q := by
    intro p hp q hq hfield
    obtain ⟨f, m, hm, rfl⟩ := (hmem p).1 hp
    obtain ⟨g, n, hn, rfl⟩ := (hmem q).1 hq
    rw [h.keys.own.eq_of_writeField_eq hm hn hfield]
  have hkeys : KeysOk cfg (s.readKeys cfg node) := by
    unfold readKeys
    simp only [hhere, (getD_stored_eq h.keys.own).1]
    exact ⟨h.keys.schema, h.keys.own, h.keys.types⟩
  obtain ⟨hmemory, hok, hstored⟩ := resendAll_spec
    (hkeys.cleared (s.inherited cfg node).inflight.getAll) (s.inherited cfg node).inflight htypes
    huniq
  refine ⟨hok, h.records, fun n hn => hn, fun n copy hlast hcopy => ?_⟩
  obtain rfl : node = n := Option.some.inj hlast
  have hcopy : copy = { s.inherited cfg node with
      inflight := (resendAll cfg (s.inherited cfg node).inflight
        (cleared cfg (s.readKeys cfg node) (s.inherited cfg node).inflight.getAll)
        (s.inherited cfg node).inflight.getAll).1 } := by
    simp only [connected, Function.update_self] at hcopy
    exact (Option.some.inj hcopy).symm
  rw [hcopy, hmemory]
  have hrestored := restored_of_inv h hhere hnode
  refine ⟨hrestored.1, keyed_byFilter _, ?_, fun f pk hpk => ?_⟩
  · intro f pk hpk
    obtain ⟨-, -, -, -, hf⟩ := hflow.1 hpk
    exact hf
  · obtain ⟨g, m, hm, heq, rfl⟩ := hflow.1 hpk
    obtain ⟨n, hn, hkey⟩ := hstored pk ((hmem pk).2 ⟨g, m, hm, heq⟩)
    exact ⟨_, n, hn, hkey⟩

end Established

/-! ### The other events -/

private theorem keyed_processSubscribe {aclCheck : Text → Bool} {inUse : Bool}
    {filters : List Subscription}
    (h : Keyed subs) : Keyed (processSubscribe cfg.subscribe aclCheck inUse subs filters).1 := by
  unfold processSubscribe
  split_ifs
  · exact h
  · induction filters generalizing subs with
    | nil => exact h
    | cons sub filters ih =>
      have hhead : Keyed (subscribeFilter cfg.subscribe aclCheck subs sub).1 := by
        unfold subscribeFilter
        split_ifs <;> first | exact h | exact h.insert sub
      exact ih hhead

private theorem filter_redisOnSubscribed {clientID : Text} {hash : SubHash}
    {filters : List Subscription}
    {codes : List ℕ} (h : ∀ f r, hash.lookup f = some r → r.filter = f) :
    ∀ f r, (redisOnSubscribed clientID hash filters codes).lookup f = some r → r.filter = f := by
  unfold redisOnSubscribed
  generalize filters.zip codes = ps
  induction ps generalizing hash with
  | nil => exact h
  | cons p ps ih =>
    refine ih fun f r hr => ?_
    rw [GoMap.lookup_insert] at hr
    split_ifs at hr with hf
    · cases hr
      exact hf.symm
    · exact h f r hr

section Packets

variable {s : SessionState}

theorem onClient_cases (s : SessionState) (f : Copy → Copy × SubHash × Keys) :
    s.onClient f = s ∨ ∃ node copy, s.here = some node ∧ s.copies node = some copy ∧
      s.onClient f =
        { s with
          sub := (f copy).2.1
          keys := (f copy).2.2
          copies := Function.update s.copies node (some (f copy).1) } := by
  unfold onClient
  split
  · exact Or.inl rfl
  · next node hhere =>
    split
    · exact Or.inl rfl
    · next copy hcopy => exact Or.inr ⟨node, copy, hhere, hcopy, rfl⟩

theorem inv_onClient (h : Inv cfg s) {f : Copy → Copy × SubHash × Keys}
    (hf : ∀ node copy, s.here = some node → s.copies node = some copy → s.InSync copy →
      KeysOk cfg (f copy).2.2 ∧ (∀ g r, (f copy).2.1.lookup g = some r → r.filter = g) ∧
        ({ s with sub := (f copy).2.1, keys := (f copy).2.2 } : SessionState).InSync (f copy).1) :
    Inv cfg (s.onClient f) := by
  rcases s.onClient_cases f with heq | ⟨node, copy, hhere, hcopy, heq⟩
  · rw [heq]
    exact h
  rw [heq]
  have hlast := h.here node hhere
  obtain ⟨hkeys, hrecords, hsync⟩ := hf node copy hhere hcopy (h.copy node copy hlast hcopy)
  refine ⟨hkeys, hrecords, h.here, fun n c hn hc => ?_⟩
  obtain rfl : node = n := Option.some.inj (hlast.symm.trans hn)
  obtain rfl : (f copy).1 = c := by
    have hc : Function.update s.copies node (some (f copy).1) node = some c := hc
    rw [Function.update_self] at hc
    exact Option.some.inj hc
  exact ⟨hsync.subs, hsync.keyed, hsync.directed, hsync.covered⟩

private theorem inv_subscribe (h : Inv cfg s) {pk : SubscribePacket} {aclCheck : Text → Bool}
    (hok : s.Orderly cfg (.subscribe pk aclCheck)) :
    Inv cfg (s.step cfg (.subscribe pk aclCheck)) := by
  refine inv_onClient (f := s.onSubscribe cfg pk aclCheck) h fun node copy hhere hcopy hsync =>
    ⟨h.keys, ?_, fun f => ?_, ?_, hsync.directed, hsync.covered⟩
  · exact filter_redisOnSubscribed h.records
  · have hmemory : f ∈ (s.onSubscribe cfg pk aclCheck copy).1.subs ↔
        f ∈ copy.subs ∨ Granted (outcome cfg copy pk aclCheck) f :=
      mem_processSubscribe cfg.subscribe aclCheck _ pk.qos_le copy.subs f
    have hredis : f ∈ (s.onSubscribe cfg pk aclCheck copy).2.1 ↔
        f ∈ s.sub ∨ ∃ p ∈ outcome cfg copy pk aclCheck, p.1.filter = f :=
      mem_redisOnSubscribed cfg.clientID s.sub pk.filters _ f
    rw [hmemory, hredis, SubState.exists_outcome_iff, ← hsync.subs f]
    constructor
    · rintro (hf | hf)
      · exact Or.inl hf
      · exact Or.inr (Or.inl hf)
    · rintro (hf | hf | hf)
      · exact Or.inl hf
      · exact Or.inr hf
      · obtain ⟨p, hp, rfl, hcode⟩ := hf
        exact hok node hhere copy hcopy p hp hcode
  · exact keyed_processSubscribe hsync.keyed

private theorem inv_unsubscribe (h : Inv cfg s) {pk : UnsubscribePacket}
    (hok : s.Orderly cfg (.unsubscribe pk)) : Inv cfg (s.step cfg (.unsubscribe pk)) := by
  refine inv_onClient (f := s.onUnsubscribe pk) h fun node copy hhere hcopy hsync =>
    ⟨h.keys, fun g r hr => ?_, fun f => ?_, ?_, hsync.directed, hsync.covered⟩
  · have hr : (redisOnUnsubscribed s.sub pk.filters).lookup g = some r := hr
    rw [redisOnUnsubscribed, GoMap.lookup_foldl_erase] at hr
    split_ifs at hr
    exact h.records g r hr
  · have hok := hok node hhere copy hcopy
    simp only [onUnsubscribe, processUnsubscribe, redisOnUnsubscribed, decide_eq_true_eq]
    split_ifs with hused
    · -- nothing happens in memory, and Redis has none of the filters
      rw [mem_foldl_erase, ← hsync.subs f]
      exact ⟨fun hf => ⟨fun hin => hok hused f hin hf, hf⟩, And.right⟩
    · rw [mem_foldl_erase, mem_foldl_erase, hsync.subs f]
  · intro g sub hsub
    simp only [onUnsubscribe, processUnsubscribe] at hsub
    split_ifs at hsub
    · exact hsync.keyed g sub hsub
    · rw [GoMap.lookup_foldl_erase] at hsub
      split_ifs at hsub
      exact hsync.keyed g sub hsub

theorem inv_ack (h : Inv cfg s) {a : Ack} (hok : s.Orderly cfg (.ack a)) :
    Inv cfg (s.step cfg (.ack a)) := by
  refine inv_onClient (f := s.onAck cfg a) h fun node copy hhere hcopy hsync => ?_
  have heffect := copy.inflight.ackEffect_processAck a
  have hdir := hsync.directed.ackEffect heffect
  have hcovered (f : Field) (q : Packet) (hq : (copy.inflight.processAck a).1.flow f = some q) :
      HasFlow s.ifm f := by
    obtain ⟨old, hold⟩ := heffect.flow_of_flow hq
    exact hsync.covered f old hold
  cases hcall : (copy.inflight.processAck a).2 with
  | none =>
    have hdone : s.onAck cfg a copy =
        ({ copy with inflight := (copy.inflight.processAck a).1 }, s.sub, s.keys) := by
      simp only [onAck, hcall]
    rw [hdone]
    exact ⟨h.keys, h.records, hsync.subs, hsync.keyed, hdir, hcovered⟩
  | some call =>
    have hdone : s.onAck cfg a copy =
        ({ copy with inflight := (copy.inflight.processAck a).1 }, s.sub,
          s.keys.liveDelete cfg.schema call.pk call.dropped) := by
      simp only [onAck, hcall]
    rw [hdone]
    refine ⟨h.keys.liveDelete _ _, h.records, hsync.subs, hsync.keyed, hdir, fun f q hq => ?_⟩
    obtain ⟨g, m, hm, hkey⟩ := hcovered f q hq
    refine ⟨g, m, ?_, hkey⟩
    have hown : g = writeField cfg.schema m.toPacket := h.keys.own g m hm
    have hkeep : g ∉ deleteFields cfg.schema call.pk call.dropped := by
      intro hdel
      cases hschema : cfg.schema with
      | v2 =>
        rw [hschema] at hown hdel
        have hnone := Inflight.flow_of_mem_deleteFields hsync.directed (hok node hhere copy hcopy)
          hcall hdel
        have hgf : g = f := hown.trans hkey
        rw [hgf, hq] at hnone
        cases hnone
      | legacy =>
        -- the ended flow and this one would be one message under one numeric field
        rw [hcall] at heffect
        obtain ⟨e, old, hold, hended, hid⟩ := heffect.exists_ended hsync.directed
        obtain ⟨g', m', hm', hkey'⟩ := hsync.covered e old hold
        have hids : m'.toPacket.packetID = m.toPacket.packetID := by
          rw [← id_inflightFieldKey m'.toPacket, hkey', hid, ← id_of_mem_deleteFields hdel, hown,
            id_writeField]
        have hsame : m' = m := h.keys.own.eq_of_writeField_eq hm' hm (by
          rw [hschema]
          exact congrArg Field.numeric hids)
        rw [← hkey', hsame, hkey, hq] at hended
        cases hended
    show (s.keys.liveDelete cfg.schema call.pk call.dropped).hash.value.lookup g = some m
    rw [Keys.lookup_liveDelete h.keys.schema, if_neg hkeep]
    exact hm

private theorem inv_enqueue (h : Inv cfg s) {args : CallArgs} {now : ℤ}
    (hok : s.Orderly cfg (.enqueue args now)) : Inv cfg (s.step cfg (.enqueue args now)) := by
  simp only [step]
  rcases s.keys.queueOfflineInflight_cases cfg.clientID args now with
    ⟨heq, -⟩ | ⟨schema, next, hschema, hnext, hne, heq⟩
  · rw [heq]
    exact h
  obtain rfl : cfg.schema = schema :=
    Option.some.inj ((Marker.schema?_of_fence? h.keys.schema).symm.trans hschema)
  have hfree : queueField cfg.schema (packetIDOf next) ∉ s.keys.hash.value := by
    rcases nextOfflinePacketCounter_spec hok with hzero | ⟨-, -, -, hnum, hout⟩
    · exact absurd (hnext.trans hzero) hne
    · rw [← hnext] at hnum hout
      cases hv : cfg.schema with
      | legacy => exact hnum
      | v2 => exact hout hv
  have hhash : (s.keys.commit cfg.clientID args cfg.schema next now).hash.value =
      s.keys.hash.value.insert (queueField cfg.schema (packetIDOf next))
        (marshalOfflineInflight cfg.clientID (packetIDOf next) args.msg now) := rfl
  rw [heq]
  refine ⟨⟨h.keys.schema, fun f m hm => ?_, fun f m hm => ?_⟩, h.records, h.here,
    fun node copy hlast hcopy => ?_⟩
  · rw [hhash, GoMap.lookup_insert] at hm
    split_ifs at hm with hf
    · cases hm
      rw [hf]
      cases cfg.schema <;> rfl
    · exact h.keys.own f m hm
  · rw [hhash, GoMap.lookup_insert] at hm
    split_ifs at hm
    · cases hm
      exact Or.inl rfl
    · exact h.keys.types f m hm
  · have hsync := h.copy node copy hlast hcopy
    refine ⟨hsync.subs, hsync.keyed, hsync.directed, fun f pk hpk => ?_⟩
    obtain ⟨g, m, hm, hkey⟩ := hsync.covered f pk hpk
    refine ⟨g, m, ?_, hkey⟩
    have hg : g ≠ queueField cfg.schema (packetIDOf next) := by
      rintro rfl
      exact hfree (GoMap.mem_iff_exists_lookup.2 ⟨m, hm⟩)
    exact (congrArg (AList.lookup g) hhash).trans ((AList.lookup_insert_ne hg).trans hm)

theorem inv_disconnect (h : Inv cfg s) (expire : Bool) : Inv cfg (s.disconnected expire) := by
  unfold disconnected
  split
  · exact h
  · next node hhere =>
    cases expire with
    | false =>
      refine ⟨h.keys, h.records, fun _ hn => absurd hn (by simp), fun n copy hlast hcopy => ?_⟩
      have hsync := h.copy n copy hlast hcopy
      exact ⟨hsync.subs, hsync.keyed, hsync.directed, hsync.covered⟩
    | true =>
      have hempty (f : Field) (m : Message) : (∅ : InflightHash).lookup f ≠ some m := by simp
      refine ⟨⟨h.keys.schema, fun f m hm => absurd hm (hempty f m),
        fun f m hm => absurd hm (hempty f m)⟩, fun f r hr => absurd hr (by simp),
        fun _ hn => absurd hn (by simp), fun n copy hlast hcopy => ?_⟩
      obtain rfl : node = n := Option.some.inj ((h.here node hhere).symm.trans hlast)
      exact absurd hcopy (by simp)

theorem inv_step (h : Inv cfg s) (e : SessionEvent) (hok : s.Orderly cfg e) :
    Inv cfg (s.step cfg e) := by
  cases e with
  | connect node => exact inv_connected h hok.1 hok.2
  | disconnect expire => exact inv_disconnect h expire
  | subscribe pk aclCheck => exact inv_subscribe h hok
  | unsubscribe pk => exact inv_unsubscribe h hok
  | ack a => exact inv_ack h hok
  | enqueue args now => exact inv_enqueue h hok

end Packets

/-! ### Runs -/

/-- Start in any state of Redis that the hooks can leave, with no client object on any node. In a
run of orderly steps every CONNECT restores the session. -/
theorem along_restored {s : SessionState} (hkeys : KeysOk cfg s.keys)
    (hrecords : ∀ f r, s.sub.lookup f = some r → r.filter = f) (hhere : s.here = none)
    (hcopies : ∀ node, s.copies node = none) {es : List SessionEvent}
    (horderly : Along (step cfg) (Orderly cfg) s es) :
    Along (step cfg) (RestoredAt cfg) s es := by
  have hinv : Inv cfg s :=
    { keys := hkeys
      records := hrecords
      here := fun node hnode => absurd (hhere.symm.trans hnode) (by simp)
      copy := fun node copy _ hcopy => absurd ((hcopies node).symm.trans hcopy) (by simp) }
  have hrestored (t : SessionState) (e : SessionEvent) (h : Inv cfg t) (hok : t.Orderly cfg e) :
      t.RestoredAt cfg e := by
    cases e with
    | connect node => exact restored_of_inv h hok.1 hok.2
    | _ => trivial
  exact along_of_invariant (I := Inv cfg) (fun t e h hok => inv_step h e hok) hrestored
    hinv horderly

/-! ### A copy that another node has overtaken -/

/-- A client under schema 2. -/
def sensor : SessionConfig where
  clientID := QueueState.sensor
  schema := .v2

/-- Nothing is stored and no node knows the client. -/
def fresh : SessionState where
  keys := QueueState.fresh.keys

/-- The client subscribes on node A, unsubscribes on node B and is about to return to A. -/
def unsubscribedElsewhere : List SessionEvent :=
  [.connect ['A'], .subscribe (SubState.subscribeTo 1 ['a']) fun _ => true, .disconnect false,
    .connect ['B'], .unsubscribe ⟨2, [['a']]⟩, .disconnect false]

/-- The client gets a queued message on node A, acknowledges it on node B and is about to return
to A. -/
def acknowledgedElsewhere : List SessionEvent :=
  [.enqueue QueueState.reading 0, .connect ['A'], .disconnect false, .connect ['B'],
   .ack (.puback 1),
    .disconnect false]

/-- Back on node A the client has the filter again in the first run, and the message again in the
second. -/
theorem not_along_restored :
    ¬ Along (step sensor) (RestoredAt sensor) fresh
      (unsubscribedElsewhere ++ [.connect ['A']]) ∧
    ¬ Along (step sensor) (RestoredAt sensor) fresh
      (acknowledgedElsewhere ++ [.connect ['A']]) := by
  constructor
  · intro h
    obtain ⟨-, ⟨hsubs, -⟩, -⟩ := along_append.1 h
    have hback : ['a'] ∈ ((run (step sensor) fresh unsubscribedElsewhere).inherited
        sensor ['A']).subs := by decide +kernel
    exact absurd ((hsubs ['a']).1 hback) (by decide +kernel)
  · intro h
    obtain ⟨-, ⟨-, hflows⟩, -⟩ := along_append.1 h
    have hback : (marshalOfflineInflight QueueState.sensor 1 QueueState.reading.msg 0).toPacket ∈
        ((run (step sensor) fresh acknowledgedElsewhere).inherited sensor
          ['A']).inflight.getAll := by decide +kernel
    obtain ⟨f, m, hm, -⟩ := (hflows _).1 hback
    have hnone : (run (step sensor) fresh acknowledgedElsewhere).ifm.entries = [] := by
      decide +kernel
    have hmem := AList.mem_lookup_iff.1 hm
    rw [hnone] at hmem
    cases hmem

/-- The client moves once, to a node that does not know it, and then stays. -/
def roaming : List SessionEvent :=
  [.connect ['A'], .subscribe (SubState.subscribeTo 1 ['a']) fun _ => true, .disconnect false,
    .enqueue QueueState.reading 0, .connect ['B'], .ack (.puback 1), .unsubscribe ⟨2, [['a']]⟩,
    .disconnect false, .enqueue QueueState.reading 0, .connect ['B']]

theorem along_restored_roaming :
    Along (step sensor) (Orderly sensor) fresh roaming ∧
      Along (step sensor) (RestoredAt sensor) fresh roaming := by
  have horderly : Along (step sensor) (Orderly sensor) fresh roaming := by
    decide +kernel
  have hempty (f : Field) (m : Message) : fresh.keys.hash.value.lookup f ≠ some m := by
    simp [fresh, QueueState.fresh]
  exact ⟨horderly, along_restored
    ⟨rfl, fun f m hm => absurd hm (hempty f m), fun f m hm => absurd hm (hempty f m)⟩
    (fun f r hr => by simp [fresh] at hr) rfl (fun _ => rfl) horderly⟩

end SessionState

end KeelGateway.Broker
