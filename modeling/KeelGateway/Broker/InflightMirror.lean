import KeelGateway.Lib.StepMachine
import KeelGateway.Redis.StoredSession

/-!
# The in-flight hash as a mirror of memory

While a client is connected the broker keeps its QoS flows in memory, one map for each direction,
and tells the session store about every change through hooks. Under schema 2 the store keeps one
field per direction and packet ID. Which direction a hook call is about is read off the type of the
packet it passes, by three functions: one for writes, one for completed flows, one for dropped ones.

The machine below runs the flows of one client in both directions, with the hook calls that go with
every change, the send quota included. The question is whether the directional fields are exactly
the flows in memory after every step.

-/

namespace KeelGateway.Redis

/-! ### Hooks of the session store under schema 2 -/

/-- `OnQosPublishResult`. -/
def onQosPublish (clientID : Text) (hash : InflightHash) (pk : Packet) : InflightHash :=
  if pk.isInboundPuback then hash
  else hash.insert (inflightFieldKey pk) (pk.toMessage clientID pk.created)

/-- `OnQosCompleteResult`. -/
def onQosComplete (hash : InflightHash) (pk : Packet) : InflightHash :=
  if pk.isInboundPuback then hash else hdel hash (deleteFields .v2 pk false)

/-- `OnQosDroppedResult`. -/
def onQosDropped (hash : InflightHash) (pk : Packet) : InflightHash :=
  hdel hash (deleteFields .v2 pk true)

variable {f : Field} {hash : InflightHash} {pk : Packet}

theorem mem_hdel {fields : List Field} : f ∈ hdel hash fields ↔ f ∈ hash ∧ f ∉ fields := by
  rw [GoMap.mem_iff_exists_lookup, lookup_hdel, GoMap.mem_iff_exists_lookup]
  by_cases hf : f ∈ fields <;> simp [hf]

theorem mem_onQosPublish {clientID : Text} (hpk : pk.isInboundPuback = false) :
    f ∈ onQosPublish clientID hash pk ↔ f = inflightFieldKey pk ∨ f ∈ hash := by
  rw [onQosPublish, if_neg (by simp [hpk]), AList.mem_insert]

theorem mem_onQosComplete (hpk : pk.isInboundPuback = false) (hf : f.isDirectional = true) :
    f ∈ onQosComplete hash pk ↔ f ∈ hash ∧ f ≠ inflightCompletionFieldKey pk := by
  have hnumeric : f ≠ .numeric pk.packetID := Field.ne_numeric hf _
  rw [onQosComplete, if_neg (by simp [hpk]), mem_hdel]
  simp [deleteFields, hnumeric]

theorem mem_onQosDropped (hf : f.isDirectional = true) :
    f ∈ onQosDropped hash pk ↔ f ∈ hash ∧ f ≠ inflightDroppedFieldKey pk := by
  have hnumeric : f ≠ .numeric pk.packetID := Field.ne_numeric hf _
  rw [onQosDropped, mem_hdel]
  simp [deleteFields, hnumeric]

end KeelGateway.Redis

namespace KeelGateway.Broker

open Redis Mochi StepMachine

/-! ### The machine -/

/-- The client and the limits of the broker. -/
structure FlowConfig where
  clientID : Text
  maximumInflight : ℕ := 1024 * 8
  /-- The age at which a packet in flight expires; no limit if zero. -/
  maximumMessageExpiryInterval : ℤ := 60 * 60 * 24

/-- The flows of a client in memory and in Redis. -/
structure FlowState where
  inflight : Inflight := {}
  hash : InflightHash := ∅
  packetID : ℕ := 0
  sendQuota : ℕ := 0
  maximumSendQuota : ℕ := 0
  receiveQuota : ℕ := 1024
  maximumReceiveQuota : ℕ := 1024
  isOpen : Bool := true

/-- A step of a flow. -/
inductive FlowEvent where
  /-- A message of QoS 1 or 2 is delivered. `undone`: the writer has no room for it, or a shared
  delivery finds the connection closed. -/
  | publish (pk : Packet) (undone : Bool)
  /-- The client publishes. `allowed`: the topic passes `OnACLCheck`; `rejected`: `OnPublish` turns
  the message away; `fails`: the answer cannot be written, or the client is disconnected instead. -/
  | receive (qos id : ℕ) (now : ℤ) (allowed rejected fails : Bool)
  | puback (id : ℕ)
  | pubrec (id : ℕ) (refused fails : Bool) (now : ℤ)
  | pubrel (id : ℕ) (refused fails : Bool) (now : ℤ)
  | pubcomp (id : ℕ)
  | release
  | clear
  | expire (now : ℤ)

/-- The test of `ClearExpiredInflights`. -/
def FlowConfig.isExpired (cfg : FlowConfig) (now : ℤ) (pk : Packet) : Bool :=
  (pk.protocolVersion = 5 && 0 < pk.expiry && pk.expiry < now) ||
    (0 < cfg.maximumMessageExpiryInterval &&
      cfg.maximumMessageExpiryInterval < now - pk.created)

/-- The loop of `ClearInflights` and `ClearExpiredInflights` over the packets to delete: memory and
the hash afterwards, and the packet IDs. -/
def dropEach (i : Inflight) (hash : InflightHash) (pks : List Packet) :
    Inflight × InflightHash × List ℕ :=
  pks.foldl (fun acc pk =>
    if acc.1.hasPacket pk then
      (acc.1.deletePacket pk, onQosDropped acc.2.1 pk, acc.2.2 ++ [pk.packetID])
    else acc) (i, hash, [])

namespace FlowState

variable (cfg : FlowConfig) (s : FlowState)

/-- `IncreaseSendQuota`. -/
def increaseSendQuota : FlowState :=
  { s with
    sendQuota := if s.sendQuota < s.maximumSendQuota then s.sendQuota + 1 else s.sendQuota }

/-- `IncreaseReceiveQuota`. -/
def increaseReceiveQuota : FlowState :=
  { s with
    receiveQuota := if s.receiveQuota < s.maximumReceiveQuota then s.receiveQuota + 1
      else s.receiveQuota }

/-- A packet is stored and leaves `publishToClientMode` with an outcome. -/
def sent (out : Packet) (outcome : SendOutcome) : FlowState :=
  let after := s.inflight.sent (onQosPublish cfg.clientID) onQosDropped s.hash out outcome
  { s with
    inflight := after.1
    hash := after.2
    packetID := out.packetID
    sendQuota := s.sendQuota - 1 }

/-- `publishToClientMode` for a message of QoS 1 or 2, with the send quota. -/
def published (pk : Packet) (undone : Bool) : FlowState :=
  match s.inflight.outgoing cfg.maximumInflight s.packetID pk with
  | none => s
  | some out =>
    if s.sendQuota = 0 ∧ 0 < s.maximumSendQuota then s.sent cfg out .waits
    else if undone then (s.sent cfg out .undone).increaseSendQuota
    else s.sent cfg out .taken

/-- `processPublish` from the answer to the client on. -/
def answered (qos id : ℕ) (now : ℤ) (fails : Bool) : FlowState :=
  if qos = 0 then s
  else
    let t := { s with receiveQuota := s.receiveQuota - 1 }
    if qos = 2 then
      let ack := { buildAck id .pubrec 0 now with inboundFlow := true }
      { t with
        inflight := t.inflight.setInbound ack
        hash := if id ∈ t.inflight.receive then t.hash else onQosPublish cfg.clientID t.hash ack
        isOpen := !fails }
    else if fails then { t with isOpen := false }
    else
      let ack := { buildAck id .puback 0 now with inboundFlow := true }
      { t.increaseReceiveQuota with hash := onQosComplete t.hash ack }

/-- `processPublish`. -/
def received (qos id : ℕ) (now : ℤ) (allowed rejected fails : Bool) : FlowState :=
  if s.receiveQuota = 0 ∨ !allowed then { s with isOpen := !fails }
  else
    match s.inflight.acceptInbound id with
    | none => { s with isOpen := !fails }
    | some inflight =>
      let t := { s with inflight := inflight }
      if rejected then { t with isOpen := !fails } else t.answered cfg qos id now fails

/-- What an acknowledgement does to memory, with its hook call. -/
def acknowledged (a : Ack) : FlowState :=
  { s with
    inflight := (s.inflight.processAck a).1
    hash := match (s.inflight.processAck a).2 with
      | none => s.hash
      | some call =>
        if call.dropped then onQosDropped s.hash call.pk else onQosComplete s.hash call.pk }

/-- `processPuback`. -/
def pubacked (id : ℕ) : FlowState :=
  let t := s.acknowledged (.puback id)
  if id ∈ s.inflight.internal then t.increaseSendQuota else t

/-- `processPubrec`. -/
def pubreced (id : ℕ) (refused fails : Bool) (now : ℤ) : FlowState :=
  let t := s.acknowledged (.pubrec id refused now)
  if id ∈ s.inflight.internal then
    if refused then t else { t with receiveQuota := t.receiveQuota - 1, isOpen := !fails }
  else { t with isOpen := !fails }

/-- `processPubrel`. -/
def pubreled (id : ℕ) (refused fails : Bool) (now : ℤ) : FlowState :=
  let t := s.acknowledged (.pubrel id refused fails now)
  if id ∈ s.inflight.receive then
    if refused then t
    else if fails then { t with isOpen := false }
    else t.increaseReceiveQuota.increaseSendQuota
  else { t with isOpen := !fails }

/-- `processPubcomp`. -/
def pubcomped (id : ℕ) : FlowState :=
  (s.acknowledged (.pubcomp id)).increaseReceiveQuota.increaseSendQuota

/-- The end of `processPacket`. -/
def released : FlowState :=
  if 0 < s.sendQuota then
    match s.inflight.nextImmediate with
    | none => s
    | some pk =>
      { s with
        inflight := s.inflight.deleteOutbound pk.packetID
        sendQuota := s.sendQuota - 1 }
  else s

/-- `ClearInflights`. -/
def cleared : FlowState :=
  let dropped := dropEach s.inflight s.hash s.inflight.getAll
  { s with inflight := dropped.1, hash := dropped.2.1 }

/-- `clearExpiredInflights`: after the packets were dropped, the hook is called once more for every
packet ID. -/
def expired (now : ℤ) : FlowState :=
  let dropped := dropEach s.inflight s.hash (s.inflight.getAll.filter (cfg.isExpired now))
  { s with
    inflight := dropped.1
    hash := dropped.2.2.foldl
      (fun hash id => onQosDropped hash { type := .reserved, packetID := id }) dropped.2.1 }

/-- A packet of the client is handled while the connection is open. -/
def whenOpen (t : FlowState) : FlowState := if s.isOpen then t else s

/-- One step. -/
def step : FlowEvent → FlowState
  | .publish pk undone => s.published cfg pk undone
  | .receive qos id now allowed rejected fails =>
    s.whenOpen (s.received cfg qos id now allowed rejected fails)
  | .puback id => s.whenOpen (s.pubacked id)
  | .pubrec id refused fails now => s.whenOpen (s.pubreced id refused fails now)
  | .pubrel id refused fails now => s.whenOpen (s.pubreled id refused fails now)
  | .pubcomp id => s.whenOpen (s.pubcomped id)
  | .release => s.whenOpen s.released
  | .clear => s.cleared
  | .expire now => s.expired cfg now

/-- The directional fields of the hash are the flows in memory. -/
def Mirrors : Prop :=
  (∀ id, .outbound id ∈ s.hash ↔ id ∈ s.inflight.internal) ∧
    ∀ id, .inbound id ∈ s.hash ↔ id ∈ s.inflight.receive

/-- The steps that keep the mirror: no PUBREC refuses a delivery for which the PUBREL is out, no
message waits for quota when quota is free, the flows are cleared while no PUBREL is out, and of two
flows with one packet ID the delivery expires if the client's own flow does, and, if its PUBREL is
out, only then. -/
def Settled : FlowEvent → Prop
  | .pubrec id refused _ _ =>
    s.isOpen = true → refused = true → ∀ pk, s.inflight.internal.lookup id = some pk →
      pk.type ≠ .pubrel
  | .release =>
    s.isOpen = true → 0 < s.sendQuota → ∀ id pk, s.inflight.internal.lookup id = some pk →
      0 ≤ pk.expiry
  | .clear => ∀ id pk, s.inflight.internal.lookup id = some pk → pk.type ≠ .pubrel
  | .expire now => ∀ id out, s.inflight.internal.lookup id = some out →
      ∀ own, s.inflight.receive.lookup id = some own →
        (cfg.isExpired now own = true → cfg.isExpired now out = true) ∧
          (out.type = .pubrel → cfg.isExpired now out = true → cfg.isExpired now own = true)
  | _ => True

instance : (e : FlowEvent) → Decidable (s.Settled cfg e)
  | .pubrec id refused _ _ =>
    inferInstanceAs (Decidable (s.isOpen = true → refused = true →
      ∀ pk ∈ s.inflight.internal.lookup id, pk.type ≠ .pubrel))
  | .release => inferInstanceAs (Decidable (s.isOpen = true → 0 < s.sendQuota → _))
  | .clear => GoMap.decidableForallLookup s.inflight.internal fun _ pk => pk.type ≠ .pubrel
  | .expire now =>
    GoMap.decidableForallLookup s.inflight.internal fun id out =>
      ∀ own ∈ s.inflight.receive.lookup id,
        (cfg.isExpired now own = true → cfg.isExpired now out = true) ∧
          (out.type = .pubrel → cfg.isExpired now out = true → cfg.isExpired now own = true)
  | .publish _ _ | .receive _ _ _ _ _ _ | .puback _ | .pubrel _ _ _ _ | .pubcomp _ => isTrue trivial

end FlowState

/-! ### Fields and flows -/

/-- The directional fields of a hash are the flows of the maps. -/
def Mirror (hash : InflightHash) (i : Inflight) : Prop :=
  ∀ f, f.isDirectional = true → (f ∈ hash ↔ ∃ pk, i.flow f = some pk)

theorem FlowState.mirrors_iff {s : FlowState} : s.Mirrors ↔ Mirror s.hash s.inflight := by
  constructor
  · rintro ⟨hout, hin⟩ f hf
    cases f with
    | numeric id => cases hf
    | inbound id => exact (hin id).trans GoMap.mem_iff_exists_lookup
    | outbound id => exact (hout id).trans GoMap.mem_iff_exists_lookup
  · intro h
    exact ⟨fun id => (h (.outbound id) rfl).trans GoMap.mem_iff_exists_lookup.symm,
      fun id => (h (.inbound id) rfl).trans GoMap.mem_iff_exists_lookup.symm⟩

variable {pk : Packet}

theorem inflightDroppedFieldKey_of_ne (h : pk.type ≠ .pubrel) :
    inflightDroppedFieldKey pk = inflightFieldKey pk := by
  unfold inflightDroppedFieldKey isInboundInflightPacket inflightFieldKey
  cases htype : pk.type <;> simp_all

theorem inflightDroppedFieldKey_of_pubrel (h : pk.type = .pubrel) :
    inflightDroppedFieldKey pk = .inbound pk.packetID := by
  simp [inflightDroppedFieldKey, isInboundInflightPacket, h]

theorem inflightFieldKey_of_pubrel (h : pk.type = .pubrel) :
    inflightFieldKey pk = .outbound pk.packetID := by
  simp [inflightFieldKey, h]

private theorem id_inflightDroppedFieldKey (pk : Packet) :
    (inflightDroppedFieldKey pk).id = pk.packetID := by
  unfold inflightDroppedFieldKey
  split_ifs <;> rfl

namespace Mirror

variable {hash hash' : InflightHash} {i j : Inflight} {f : Field} {pk : Packet}

theorem write (h : Mirror hash i)
    (hhash : ∀ g, g.isDirectional = true → (g ∈ hash' ↔ g = f ∨ g ∈ hash))
    (hflow : ∀ g, j.flow g = if g = f then some pk else i.flow g) : Mirror hash' j := by
  intro g hg
  rw [hhash g hg, hflow, h g hg]
  by_cases hgf : g = f <;> simp [hgf]

theorem delete (h : Mirror hash i)
    (hhash : ∀ g, g.isDirectional = true → (g ∈ hash' ↔ g ∈ hash ∧ g ≠ f))
    (hflow : ∀ g, j.flow g = if g = f then none else i.flow g) : Mirror hash' j := by
  intro g hg
  rw [hhash g hg, hflow, h g hg]
  by_cases hgf : g = f <;> simp [hgf]

/-- A flow is completed. -/
theorem complete (h : Mirror hash i) (pk : Packet) (hpk : pk.isInboundPuback = false)
    (hflow : ∀ g, j.flow g = if g = inflightCompletionFieldKey pk then none else i.flow g) :
    Mirror (onQosComplete hash pk) j :=
  h.delete (fun _ hg => mem_onQosComplete hpk hg) hflow

theorem replace (h : Mirror hash i) (hold : ∃ old, i.flow f = some old)
    (hflow : ∀ g, j.flow g = if g = f then some pk else i.flow g) : Mirror hash j := by
  intro g hg
  rw [hflow, h g hg]
  by_cases hgf : g = f
  · simp [hgf, hold]
  · simp [hgf]

theorem not_of_ended (h : Mirror hash i) (hf : f.isDirectional = true) (hpk : i.flow f = some pk)
    (hkept : f ∈ hash → f ∈ hash') (hgone : j.flow f = none) : ¬ Mirror hash' j := by
  intro h'
  obtain ⟨q, hq⟩ := (h' f hf).1 (hkept ((h f hf).2 ⟨pk, hpk⟩))
  rw [hgone] at hq
  cases hq

end Mirror

/-! ### Dropping many packets -/

theorem pairwise_getAll {i : Inflight} (hdir : i.Directed) :
    i.getAll.Pairwise fun p q => inflightFieldKey p ≠ inflightFieldKey q := by
  have hmap (m : GoMap ℕ Packet) (side : ℕ → Field) (hside : Function.Injective side)
      (hkey : ∀ id pk, m.lookup id = some pk → inflightFieldKey pk = side id) :
      (m.entries.map Sigma.snd).Pairwise fun p q => inflightFieldKey p ≠ inflightFieldKey q := by
    rw [List.pairwise_map]
    refine (List.nodupKeys_iff_pairwise.1 m.nodupKeys).imp_of_mem fun {r t} hr ht hne heq => hne ?_
    rw [hkey r.1 r.2 (GoMap.mem_entries.1 hr), hkey t.1 t.2 (GoMap.mem_entries.1 ht)] at heq
    exact hside heq
  have hout (id : ℕ) (pk : Packet) (h : i.internal.lookup id = some pk) :
      inflightFieldKey pk = .outbound id := (hdir (.outbound id) pk h).symm
  have hin (id : ℕ) (pk : Packet) (h : i.receive.lookup id = some pk) :
      inflightFieldKey pk = .inbound id := (hdir (.inbound id) pk h).symm
  refine (List.mergeSort_perm _ _).pairwise_iff (fun h => h.symm) |>.2 ?_
  refine List.pairwise_append.2 ⟨hmap i.internal .outbound (fun _ _ h => by cases h; rfl) hout,
    hmap i.receive .inbound (fun _ _ h => by cases h; rfl) hin, ?_⟩
  intro p hp q hq
  obtain ⟨row, hrow, rfl⟩ := List.mem_map.1 hp
  obtain ⟨row', hrow', rfl⟩ := List.mem_map.1 hq
  rw [hout row.1 row.2 (GoMap.mem_entries.1 hrow), hin row'.1 row'.2 (GoMap.mem_entries.1 hrow')]
  exact fun h => by cases h

theorem dropEach_spec (i : Inflight) (hash : InflightHash) {pks : List Packet}
    (hpairwise : pks.Pairwise fun p q => inflightFieldKey p ≠ inflightFieldKey q)
    (hmem : ∀ pk ∈ pks, ∃ q, i.flow (inflightFieldKey pk) = some q) :
    (∀ f, (dropEach i hash pks).1.flow f =
      if ∃ pk ∈ pks, f = inflightFieldKey pk then none else i.flow f) ∧
    (∀ f, f.isDirectional = true → (f ∈ (dropEach i hash pks).2.1 ↔
      f ∈ hash ∧ ∀ pk ∈ pks, f ≠ inflightDroppedFieldKey pk)) ∧
    (dropEach i hash pks).2.2 = pks.map Packet.packetID := by
  induction pks using List.reverseRecOn with
  | nil => simp [dropEach]
  | append_singleton pks pk ih =>
    obtain ⟨hinit, -, hlast⟩ := List.pairwise_append.1 hpairwise
    obtain ⟨hflow, hhash, hids⟩ := ih hinit fun q hq => hmem q (List.mem_append_left _ hq)
    have hfresh : ¬ ∃ q ∈ pks, inflightFieldKey pk = inflightFieldKey q := by
      rintro ⟨q, hq, heq⟩
      exact hlast q hq pk (List.mem_singleton_self _) heq.symm
    have hhas : (dropEach i hash pks).1.hasPacket pk = true := by
      rw [Inflight.hasPacket_iff, hflow, if_neg hfresh]
      exact hmem pk (by simp)
    have hstep : dropEach i hash (pks ++ [pk]) =
        ((dropEach i hash pks).1.deletePacket pk, onQosDropped (dropEach i hash pks).2.1 pk,
          (dropEach i hash pks).2.2 ++ [pk.packetID]) := by
      rw [dropEach, List.foldl_append]
      exact if_pos hhas
    rw [hstep]
    refine ⟨fun f => ?_, fun f hf => ?_, by simp [hids]⟩
    · rw [Inflight.flow_deletePacket, hflow]
      by_cases hf : f = inflightFieldKey pk <;> simp [hf, or_and_right, exists_or]
    · rw [mem_onQosDropped hf, hhash f hf]
      simp [or_imp, forall_and, and_assoc]

/-! ### One step -/

namespace FlowState

/-- What every step keeps. -/
structure Inv (s : FlowState) : Prop where
  directed : s.inflight.Directed
  waiting : s.isOpen = true → ∀ id pk, s.inflight.receive.lookup id = some pk → pk.type = .pubrec

/-- The invariant with the mirror. -/
def Ok (s : FlowState) : Prop := s.Inv ∧ Mirror s.hash s.inflight

/-- The invariant, with the mirror under a condition. -/
def OkIff (s : FlowState) (p : Prop) : Prop := s.Inv ∧ (Mirror s.hash s.inflight ↔ p)

theorem Ok.okIff_true {s : FlowState} (h : s.Ok) : s.OkIff True := ⟨h.1, iff_true_intro h.2⟩

variable {cfg : FlowConfig} {s : FlowState}

theorem Ok.congr {t : FlowState} (h : s.Ok) (hinflight : t.inflight = s.inflight)
    (hhash : t.hash = s.hash) (hopen : t.isOpen = true → s.isOpen = true) : t.Ok := by
  refine ⟨⟨hinflight ▸ h.1.directed, fun ht id pk hpk => ?_⟩, hinflight ▸ hhash ▸ h.2⟩
  rw [hinflight] at hpk
  exact h.1.waiting (hopen ht) id pk hpk

theorem ok_sent (h : s.Ok) {out : Packet} (htype : out.type = .publish) (outcome : SendOutcome) :
    (s.sent cfg out outcome).Ok := by
  have hout : isInboundPacket out = false := by simp [isInboundPacket, htype]
  have hdir : (s.inflight.setOutbound out).Directed := h.1.directed.setOutbound hout
  have hkey : inflightFieldKey out = .outbound out.packetID := by simp [inflightFieldKey, htype]
  have hdropped : inflightDroppedFieldKey out = .outbound out.packetID := by
    rw [inflightDroppedFieldKey_of_ne (by simp [htype]), hkey]
  have hwrite : Mirror (onQosPublish cfg.clientID s.hash out) (s.inflight.setOutbound out) :=
    h.2.write (fun g _ => hkey ▸ mem_onQosPublish (by simp [Packet.isInboundPuback, htype]))
      (s.inflight.flow_setOutbound out)
  cases outcome with
  | waits =>
    refine ⟨⟨hdir.setOutbound hout, h.1.waiting⟩, ?_⟩
    refine hwrite.replace ⟨out, ?_⟩ (Inflight.flow_setOutbound _ _)
    rw [Inflight.flow_setOutbound, if_pos rfl]
  | undone =>
    exact ⟨⟨hdir.deleteOutbound _, h.1.waiting⟩,
      hwrite.delete (fun g hg => hdropped ▸ mem_onQosDropped hg)
        (Inflight.flow_deleteOutbound _ out.packetID)⟩
  | taken => exact ⟨⟨hdir, h.1.waiting⟩, hwrite⟩

private theorem ok_published (h : s.Ok) (pk : Packet) (undone : Bool) :
    (s.published cfg pk undone).Ok := by
  unfold published
  cases hout : s.inflight.outgoing cfg.maximumInflight s.packetID pk with
  | none => exact h
  | some out =>
    have htype := Inflight.type_of_outgoing hout
    dsimp only
    split_ifs
    · exact ok_sent h htype .waits
    · exact (ok_sent h htype .undone).congr rfl rfl fun hopen => hopen
    · exact ok_sent h htype .taken

private theorem ok_answered (h : s.Ok) {id : ℕ} (hfree : id ∉ s.inflight.receive) (qos : ℕ)
    (now : ℤ) (fails : Bool) (hopen : s.isOpen = true) : (s.answered cfg qos id now fails).Ok := by
  unfold answered
  dsimp only
  split_ifs
  · exact h
  · -- a new flow of the client
    let ack := { buildAck id .pubrec 0 now with inboundFlow := true }
    have hset : s.inflight.setInbound ack = s.inflight.set ack := rfl
    refine ⟨⟨hset ▸ h.1.directed.set ack, fun _ k pk hpk => ?_⟩,
      h.2.write (fun g _ => mem_onQosPublish rfl) (s.inflight.flow_setInbound ack)⟩
    have hcases := GoMap.lookup_insert s.inflight.receive id ack k
    rw [show (s.inflight.setInbound ack).receive.lookup k = _ from hcases] at hpk
    split_ifs at hpk with hk
    · cases hpk
      rfl
    · exact h.1.waiting hopen k pk hpk
  · exact h.congr rfl rfl fun hclosed => by cases hclosed
  · exact h.congr rfl rfl fun _ => hopen

private theorem ok_received (h : s.Ok) (hopen : s.isOpen = true) (qos id : ℕ) (now : ℤ)
    (allowed rejected fails : Bool) : (s.received cfg qos id now allowed rejected fails).Ok := by
  have hclose : ({ s with isOpen := !fails } : FlowState).Ok := h.congr rfl rfl fun _ => hopen
  unfold received Inflight.acceptInbound
  cases hpki : s.inflight.receive.lookup id with
  | some pki =>
    dsimp only
    rw [if_pos (h.1.waiting hopen id pki hpki)]
    split_ifs <;> exact hclose
  | none =>
    dsimp only
    split_ifs
    · exact hclose
    · exact hclose
    · exact ok_answered h (AList.lookup_eq_none.1 hpki) qos now fails hopen

variable {a : Ack}

theorem mirror_acknowledged (h : Mirror s.hash s.inflight)
    (ha : ∀ id now, a ≠ .pubrec id true now) :
    Mirror (s.acknowledged a).hash (s.acknowledged a).inflight := by
  unfold acknowledged
  cases a with
  | puback id =>
    dsimp only [Inflight.processAck, Inflight.processPuback]
    split_ifs
    · exact h.complete { type := .puback, packetID := id } rfl (s.inflight.flow_deleteOutbound id)
    · exact h
  | pubcomp id =>
    dsimp only [Inflight.processAck, Inflight.processPubcomp]
    split_ifs
    · exact h.complete { type := .pubcomp, packetID := id } rfl (s.inflight.flow_deleteOutbound id)
    · exact h
  | pubrec id refused now =>
    cases refused with
    | true => exact absurd rfl (ha id now)
    | false =>
      dsimp only [Inflight.processAck, Inflight.processPubrec]
      cases hflow : s.inflight.internal.lookup id with
      | none => exact h
      | some pki =>
        exact h.replace (f := .outbound id) ⟨pki, hflow⟩
          (s.inflight.flow_setOutbound (buildAck id .pubrel 1 now))
  | pubrel id refused fails now =>
    dsimp only [Inflight.processAck, Inflight.processPubrel]
    split_ifs with hmem
    · exact h.delete (fun g hg => mem_onQosDropped hg)
        (s.inflight.flow_deleteInbound id)
    · exact h.replace (f := .inbound id) (GoMap.mem_iff_exists_lookup.1 hmem)
        (s.inflight.flow_setInbound (buildAck id .pubcomp 0 now))
    · exact h.complete { type := .pubrel, packetID := id } rfl (s.inflight.flow_deleteInbound id)
    · exact h

theorem mirror_acknowledged_refused (hdir : s.inflight.Directed) (h : Mirror s.hash s.inflight)
    (id : ℕ) (now : ℤ) :
    Mirror (s.acknowledged (.pubrec id true now)).hash
        (s.acknowledged (.pubrec id true now)).inflight ↔
      ∀ pk, s.inflight.internal.lookup id = some pk → pk.type ≠ .pubrel := by
  unfold acknowledged
  dsimp only [Inflight.processAck, Inflight.processPubrec]
  cases hflow : s.inflight.internal.lookup id with
  | none => simpa using h
  | some pki =>
    have hkey : Field.outbound id = inflightFieldKey pki := hdir (.outbound id) pki hflow
    simp only [if_true, Option.some.injEq, forall_eq']
    constructor
    · intro h' htype
      have hkept : Field.outbound id ∈ s.hash → Field.outbound id ∈ onQosDropped s.hash pki := by
        intro hmem
        rw [mem_onQosDropped rfl, inflightDroppedFieldKey_of_pubrel htype]
        exact ⟨hmem, fun heq => by cases heq⟩
      exact h.not_of_ended (f := .outbound id) rfl hflow hkept
        (by simp [Inflight.flow_deleteOutbound]) h'
    · intro htype
      refine h.delete (fun g hg => ?_) (s.inflight.flow_deleteOutbound id)
      rw [mem_onQosDropped hg, inflightDroppedFieldKey_of_ne htype, hkey]

theorem lookup_receive_acknowledged (ha : ∀ id now, a ≠ .pubrel id false true now) {id : ℕ}
    {pk : Packet} (hpk : (s.acknowledged a).inflight.receive.lookup id = some pk) :
    s.inflight.receive.lookup id = some pk := by
  unfold acknowledged at hpk
  cases a with
  | puback k =>
    dsimp only [Inflight.processAck, Inflight.processPuback] at hpk
    split_ifs at hpk <;> exact hpk
  | pubcomp k =>
    dsimp only [Inflight.processAck, Inflight.processPubcomp] at hpk
    split_ifs at hpk <;> exact hpk
  | pubrec k refused now =>
    dsimp only [Inflight.processAck, Inflight.processPubrec] at hpk
    split at hpk
    · exact hpk
    · split_ifs at hpk <;> exact hpk
  | pubrel k refused fails now =>
    have herase (h : (s.inflight.deleteInbound k).receive.lookup id = some pk) :
        s.inflight.receive.lookup id = some pk := by
      rw [Inflight.deleteInbound, GoMap.lookup_erase] at h
      split_ifs at h
      exact h
    dsimp only [Inflight.processAck, Inflight.processPubrel] at hpk
    split_ifs at hpk with hmem hrefused hfails
    · exact herase hpk
    · rw [Bool.not_eq_true] at hrefused
      exact absurd (by rw [hrefused, hfails]) (ha k now)
    · exact herase hpk
    · exact hpk

theorem inv_acknowledged (h : s.Inv) (ha : ∀ id now, a ≠ .pubrel id false true now) :
    (s.acknowledged a).Inv where
  directed := h.directed.ackEffect (s.inflight.ackEffect_processAck a)
  waiting hopen id pk hpk := h.waiting hopen id pk (lookup_receive_acknowledged ha hpk)

theorem ok_acknowledged (h : s.Ok) (ha : ∀ id now, a ≠ .pubrec id true now)
    (ha' : ∀ id now, a ≠ .pubrel id false true now) : (s.acknowledged a).Ok :=
  ⟨inv_acknowledged h.1 ha', mirror_acknowledged h.2 ha⟩

private theorem ok_pubacked (h : s.Ok) (id : ℕ) : (s.pubacked id).Ok := by
  have hack : (s.acknowledged (.puback id)).Ok := ok_acknowledged h (by simp) (by simp)
  unfold pubacked
  split_ifs
  · exact hack.congr rfl rfl fun hopen => hopen
  · exact hack

private theorem ok_pubcomped (h : s.Ok) (id : ℕ) : (s.pubcomped id).Ok :=
  (ok_acknowledged h (by simp) (by simp) : (s.acknowledged (.pubcomp id)).Ok).congr rfl rfl
    fun hopen => hopen

private theorem ok_pubreled (h : s.Ok) (hopen : s.isOpen = true) (id : ℕ) (refused fails : Bool)
    (now : ℤ) :
    (s.pubreled id refused fails now).Ok := by
  -- a PUBCOMP that could not be written stays in memory, but the connection is closed then
  have hclosed {t : FlowState} (hinflight : t.inflight =
      (s.acknowledged (.pubrel id refused fails now)).inflight) (hhash : t.hash =
      (s.acknowledged (.pubrel id refused fails now)).hash) (hclosed : t.isOpen = false) :
    t.Ok := by
    refine ⟨⟨?_, fun htrue => ?_⟩, ?_⟩
    · rw [hinflight]
      exact h.1.directed.ackEffect (s.inflight.ackEffect_processAck _)
    · rw [hclosed] at htrue
      cases htrue
    · rw [hinflight, hhash]
      exact mirror_acknowledged h.2 (by simp)
  have hanswered (hno : refused = true ∨ fails = false) :
      (s.acknowledged (.pubrel id refused fails now)).Ok := by
    refine ok_acknowledged h (by simp) fun k t heq => ?_
    cases heq
    simp at hno
  unfold pubreled
  split_ifs with hmem hrefused hfails
  · exact hanswered (Or.inl hrefused)
  · exact hclosed rfl rfl rfl
  · exact (hanswered (Or.inr (by simpa using hfails))).congr rfl rfl fun hopen => hopen
  · cases fails with
    | true => exact hclosed rfl rfl rfl
    | false => exact (hanswered (Or.inr rfl)).congr rfl rfl fun _ => hopen

private theorem ok_pubreced_iff (h : s.Ok) (hopen : s.isOpen = true) (id : ℕ) (refused fails : Bool)
    (now : ℤ) : (s.pubreced id refused fails now).OkIff
      (refused = true → ∀ pk, s.inflight.internal.lookup id = some pk → pk.type ≠ .pubrel) := by
  have hinv : (s.acknowledged (.pubrec id refused now)).Inv := inv_acknowledged h.1 (by simp)
  have hmirror : Mirror (s.acknowledged (.pubrec id refused now)).hash
      (s.acknowledged (.pubrec id refused now)).inflight ↔
      (refused = true → ∀ pk, s.inflight.internal.lookup id = some pk → pk.type ≠ .pubrel) := by
    cases refused with
    | true => simpa using mirror_acknowledged_refused h.1.directed h.2 id now
    | false => simpa using mirror_acknowledged h.2 (by simp)
  unfold pubreced
  split_ifs
  · exact ⟨hinv, hmirror⟩
  · exact ⟨⟨hinv.directed, fun _ => hinv.waiting hopen⟩, hmirror⟩
  · exact ⟨⟨hinv.directed, fun _ => hinv.waiting hopen⟩, hmirror⟩

theorem ok_released_iff (h : s.Ok) :
    s.released.OkIff (0 < s.sendQuota → ∀ id pk, s.inflight.internal.lookup id = some pk →
      0 ≤ pk.expiry) := by
  unfold released
  by_cases hquota : 0 < s.sendQuota
  · simp only [hquota, true_imp_iff]
    cases hnext : s.inflight.nextImmediate with
    | none =>
      exact ⟨h.1, iff_of_true h.2 fun id pk hpk => Inflight.nextImmediate_eq_none hnext hpk⟩
    | some pk =>
      obtain ⟨⟨id, hpk⟩, hexpiry⟩ := Inflight.nextImmediate_eq_some hnext
      have hid : pk.packetID = id := by
        rw [← id_inflightFieldKey, ← h.1.directed (.outbound id) pk hpk]
        rfl
      refine ⟨⟨h.1.directed.deleteOutbound _, h.1.waiting⟩, iff_of_false ?_ fun h' =>
        absurd (h' id pk hpk) (not_le.2 hexpiry)⟩
      exact h.2.not_of_ended (f := .outbound id) rfl hpk (fun hmem => hmem)
        (by simp [Inflight.flow_deleteOutbound, hid])
  · simp only [hquota, false_imp_iff]
    exact h.okIff_true

section Drop

variable (p : Packet → Bool)

theorem dropEach_filter (hdir : s.inflight.Directed) :
    (∀ f pk, (dropEach s.inflight s.hash (s.inflight.getAll.filter p)).1.flow f = some pk ↔
      s.inflight.flow f = some pk ∧ p pk = false) ∧
    (∀ f, f.isDirectional = true →
      (f ∈ (dropEach s.inflight s.hash (s.inflight.getAll.filter p)).2.1 ↔
        f ∈ s.hash ∧ ∀ g pk, s.inflight.flow g = some pk → p pk = true →
          f ≠ inflightDroppedFieldKey pk)) ∧
    (dropEach s.inflight s.hash (s.inflight.getAll.filter p)).2.2 =
      (s.inflight.getAll.filter p).map Packet.packetID := by
  have hmem (pk : Packet) : pk ∈ s.inflight.getAll.filter p ↔
      (∃ g, s.inflight.flow g = some pk) ∧ p pk = true := by
    rw [List.mem_filter, Inflight.mem_getAll]
  obtain ⟨hflow, hhash, hids⟩ := dropEach_spec s.inflight s.hash
    ((pairwise_getAll hdir).filter p) fun pk hpk => by
      obtain ⟨⟨g, hg⟩, -⟩ := (hmem pk).1 hpk
      exact ⟨pk, hdir g pk hg ▸ hg⟩
  refine ⟨fun f pk => ?_, fun f hf => ?_, hids⟩
  · rw [hflow]
    constructor
    · intro h
      split_ifs at h with hdropped
      refine ⟨h, ?_⟩
      by_contra hp
      exact hdropped ⟨pk, (hmem pk).2 ⟨⟨f, h⟩, by simpa using hp⟩, hdir f pk h⟩
    · rintro ⟨hpk, hp⟩
      rw [if_neg, hpk]
      rintro ⟨q, hq, rfl⟩
      obtain ⟨⟨g, hg⟩, hpq⟩ := (hmem q).1 hq
      rw [hdir g q hg] at hg
      rw [hg] at hpk
      cases hpk
      rw [hp] at hpq
      cases hpq
  · rw [hhash f hf]
    refine and_congr_right fun _ => ⟨fun h g pk hg hp => h pk ((hmem pk).2 ⟨⟨g, hg⟩, hp⟩), ?_⟩
    intro h pk hpk
    obtain ⟨⟨g, hg⟩, hp⟩ := (hmem pk).1 hpk
    exact h g pk hg hp

theorem inv_of_flow (h : s.Inv) {t : FlowState} (hopen : t.isOpen = s.isOpen)
    (hflow : ∀ f pk, t.inflight.flow f = some pk → s.inflight.flow f = some pk) : t.Inv where
  directed f pk hpk := h.directed f pk (hflow f pk hpk)
  waiting ht id pk hpk := h.waiting (hopen ▸ ht) id pk (hflow (.inbound id) pk hpk)

end Drop

theorem ok_cleared_iff (h : s.Ok) :
    s.cleared.OkIff (∀ id pk, s.inflight.internal.lookup id = some pk → pk.type ≠ .pubrel) := by
  have hdir := h.1.directed
  obtain ⟨hflow, hhash, -⟩ := dropEach_filter (fun _ => true) hdir
  rw [List.filter_true] at hflow hhash
  have hnone (f : Field) (pk : Packet) : s.cleared.inflight.flow f ≠ some pk :=
    fun hpk => by simpa using (hflow f pk).1 hpk
  have hinv : s.cleared.Inv := inv_of_flow h.1 rfl fun f pk hpk => absurd hpk (hnone f pk)
  refine ⟨hinv, ?_⟩
  constructor
  · intro hmirror id pk hpk htype
    -- no packet in flight is dropped from the field of this delivery
    have hkept : Field.outbound id ∈ s.cleared.hash := by
      refine (hhash (.outbound id) rfl).2 ⟨(h.2 (.outbound id) rfl).2 ⟨pk, hpk⟩, ?_⟩
      intro g q hq _ heq
      by_cases hrel : q.type = .pubrel
      · rw [inflightDroppedFieldKey_of_pubrel hrel] at heq
        cases heq
      · rw [inflightDroppedFieldKey_of_ne hrel, ← hdir g q hq] at heq
        rw [← heq, show s.inflight.flow (.outbound id) = _ from hpk] at hq
        cases hq
        exact hrel htype
    obtain ⟨q, hq⟩ := (hmirror (.outbound id) rfl).1 hkept
    exact hnone _ q hq
  · intro hsettled f hf
    refine iff_of_false (fun hmem => ?_) fun ⟨pk, hpk⟩ => hnone f pk hpk
    obtain ⟨hold, hne⟩ := (hhash f hf).1 hmem
    obtain ⟨pk, hpk⟩ := (h.2 f hf).1 hold
    have hkey := hdir f pk hpk
    have htype : pk.type ≠ .pubrel := by
      intro hrel
      rw [hkey, inflightFieldKey_of_pubrel hrel] at hpk
      exact hsettled _ pk hpk hrel
    exact hne f pk hpk rfl (by rw [inflightDroppedFieldKey_of_ne htype, hkey])

theorem mem_foldl_onQosDropped {hash : InflightHash} {ids : List ℕ} {f : Field}
    (hf : f.isDirectional = true) :
    f ∈ ids.foldl (fun hash id => onQosDropped hash { type := .reserved, packetID := id }) hash ↔
      f ∈ hash ∧ ∀ id ∈ ids, f ≠ .outbound id := by
  induction ids generalizing hash with
  | nil => simp
  | cons id ids ih =>
    rw [List.foldl_cons, ih, mem_onQosDropped hf]
    simp only [List.forall_mem_cons, and_assoc]
    rfl

theorem ok_expired_iff (h : s.Ok) (now : ℤ) :
    (s.expired cfg now).OkIff (∀ id out, s.inflight.internal.lookup id = some out →
      ∀ own, s.inflight.receive.lookup id = some own →
        (cfg.isExpired now own = true → cfg.isExpired now out = true) ∧
          (out.type = .pubrel → cfg.isExpired now out = true → cfg.isExpired now own = true)) := by
  have hdir := h.1.directed
  obtain ⟨hflow, hdrop, hids⟩ := dropEach_filter (cfg.isExpired now) hdir
  have hhash (f : Field) (hf : f.isDirectional = true) : f ∈ (s.expired cfg now).hash ↔
      f ∈ s.hash ∧ ∀ g pk, s.inflight.flow g = some pk → cfg.isExpired now pk = true →
        f ≠ inflightDroppedFieldKey pk ∧ f ≠ .outbound pk.packetID := by
    rw [expired, mem_foldl_onQosDropped hf, hdrop f hf, hids]
    simp only [List.forall_mem_map, List.mem_filter, Inflight.mem_getAll]
    constructor
    · rintro ⟨⟨hmem, hfirst⟩, hlast⟩
      exact ⟨hmem, fun g pk hg hp => ⟨hfirst g pk hg hp, hlast pk ⟨⟨g, hg⟩, hp⟩⟩⟩
    · rintro ⟨hmem, hall⟩
      exact ⟨⟨hmem, fun g pk hg hp => (hall g pk hg hp).1⟩,
        fun pk ⟨⟨g, hg⟩, hp⟩ => (hall g pk hg hp).2⟩
  have hinv : (s.expired cfg now).Inv :=
    inv_of_flow h.1 rfl fun f pk hpk => ((hflow f pk).1 hpk).1
  refine ⟨hinv, ?_⟩
  constructor
  · intro hmirror id out hout own hown
    constructor
    · intro hexp
      by_contra hno
      -- the second callback for the client's flow deletes the field of the delivery
      have hkept := (hmirror (.outbound id) rfl).2
        ⟨out, (hflow (.outbound id) out).2 ⟨hout, by simpa using hno⟩⟩
      have hid : own.packetID = id := by
        rw [← id_inflightFieldKey, ← hdir (.inbound id) own hown]
        rfl
      exact (((hhash _ rfl).1 hkept).2 (.inbound id) own hown hexp).2 (by rw [hid])
    · intro htype hexp
      by_contra hno
      -- the drop of the PUBREL deletes the field of the client's flow
      have hkept := (hmirror (.inbound id) rfl).2
        ⟨own, (hflow (.inbound id) own).2 ⟨hown, by simpa using hno⟩⟩
      have hid : out.packetID = id := by
        rw [← id_inflightFieldKey, ← hdir (.outbound id) out hout]
        rfl
      refine (((hhash _ rfl).1 hkept).2 (.outbound id) out hout hexp).1 ?_
      rw [inflightDroppedFieldKey_of_pubrel htype, hid]
  · intro hsettled f hf
    rw [hhash f hf]
    constructor
    · rintro ⟨hmem, hall⟩
      obtain ⟨pk, hpk⟩ := (h.2 f hf).1 hmem
      refine ⟨pk, (hflow f pk).2 ⟨hpk, ?_⟩⟩
      by_contra hexp
      obtain ⟨hfirst, hlast⟩ := hall f pk hpk (by simpa using hexp)
      have hkey := hdir f pk hpk
      by_cases htype : pk.type = .pubrel
      · exact hlast (hkey.trans (inflightFieldKey_of_pubrel htype))
      · exact hfirst (hkey.trans (inflightDroppedFieldKey_of_ne htype).symm)
    · rintro ⟨pk, hpk⟩
      obtain ⟨hpk, hno⟩ := (hflow f pk).1 hpk
      refine ⟨(h.2 f hf).2 ⟨pk, hpk⟩, fun g q hq hexp => ?_⟩
      -- the packet itself stays, so the dropped one belongs to another flow
      have hother : g ≠ f := by
        rintro rfl
        rw [hpk] at hq
        cases hq
        rw [hno] at hexp
        cases hexp
      have hkey := hdir g q hq
      cases f with
      | numeric id => cases hf
      | outbound id =>
        have hid : q.packetID ≠ id := by
          rintro rfl
          cases g with
          | numeric k => cases hq
          | outbound k => exact hother (by rw [← id_inflightFieldKey, ← hkey]; rfl)
          | inbound k =>
            have hk : k = q.packetID := by rw [← id_inflightFieldKey, ← hkey]; rfl
            rw [(hsettled _ pk hpk q (hk ▸ hq)).1 hexp] at hno
            cases hno
        refine ⟨fun heq => hid ?_, fun heq => hid (Field.outbound.inj heq).symm⟩
        rw [← id_inflightDroppedFieldKey, ← heq]
        rfl
      | inbound id =>
        refine ⟨fun heq => ?_, fun heq => by cases heq⟩
        by_cases htype : q.type = .pubrel
        · rw [inflightDroppedFieldKey_of_pubrel htype] at heq
          rw [hkey, inflightFieldKey_of_pubrel htype] at hq
          cases heq
          rw [(hsettled _ q hq pk hpk).2 htype hexp] at hno
          cases hno
        · exact hother (hkey.trans ((inflightDroppedFieldKey_of_ne htype).symm.trans heq.symm))

/-! ### Whole runs -/

theorem step_okIff (h : s.Ok) (e : FlowEvent) : (s.step cfg e).OkIff (s.Settled cfg e) := by
  have hopen {t : FlowState} {p : Prop} (ht : s.isOpen = true → t.OkIff p) :
      (s.whenOpen t).OkIff (s.isOpen = true → p) := by
    unfold whenOpen
    by_cases ho : s.isOpen = true
    · rw [if_pos ho]
      exact ⟨(ht ho).1, (ht ho).2.trans ⟨fun hp _ => hp, fun hp => hp ho⟩⟩
    · rw [if_neg ho]
      exact ⟨h.1, iff_of_true h.2 fun h' => absurd h' ho⟩
  have hkeep {t : FlowState} (ht : s.isOpen = true → t.Ok) : (s.whenOpen t).OkIff True := by
    unfold whenOpen
    split_ifs with ho
    · exact (ht ho).okIff_true
    · exact h.okIff_true
  cases e with
  | publish pk undone => exact (ok_published h pk undone).okIff_true
  | receive qos id now allowed rejected fails =>
    exact hkeep fun ho => ok_received h ho qos id now allowed rejected fails
  | puback id => exact hkeep fun _ => ok_pubacked h id
  | pubrec id refused fails now => exact hopen fun ho => ok_pubreced_iff h ho id refused fails now
  | pubrel id refused fails now => exact hkeep fun ho => ok_pubreled h ho id refused fails now
  | pubcomp id => exact hkeep fun _ => ok_pubcomped h id
  | release => exact hopen fun _ => ok_released_iff h
  | clear => exact ok_cleared_iff h
  | expire now => exact ok_expired_iff h now

/-- The hash mirrors memory all along a run exactly if all steps of the run are settled. -/
theorem always_mirrors_iff (hinv : s.Inv) (hs : s.Mirrors) (es : List FlowEvent) :
    Always (step cfg) Mirrors s es ↔
      Along (step cfg) (Settled cfg) s es :=
  always_iff_along_of_invariant
    (fun _ e hinv hs => (step_okIff ⟨hinv, mirrors_iff.1 hs⟩ e).1)
    (fun _ e hinv hs => mirrors_iff.trans (step_okIff ⟨hinv, mirrors_iff.1 hs⟩ e).2) hinv hs

/-! ### Equal packet IDs in both directions -/

/-- A client for which messages expire after ten seconds. -/
def shortLived : FlowConfig where
  clientID := ['c']
  maximumMessageExpiryInterval := 10

/-- A delivery of QoS 2 at time ten. -/
def delivery : FlowEvent :=
  .publish { type := .publish, packetID := 0, qos := 2, created := 10 } false

theorem inv_fresh : ({} : FlowState).Inv := ⟨.empty, fun _ id pk hpk => by cases hpk⟩

/-- The client's own flow 1 expires, and with it the field of delivery 1 is deleted; a clearing
leaves the field of a delivery whose PUBREL is out, and a refusing PUBREC as well; a message that
waited for quota leaves memory when it is sent, but not the hash. -/
theorem not_always_mirrors :
    ¬ Always (step shortLived) Mirrors {}
        [.receive 2 1 0 true false false, delivery, .expire 11] ∧
    ¬ Always (step shortLived) Mirrors {} [delivery, .pubrec 1 false false 11, .clear] ∧
    ¬ Always (step shortLived) Mirrors {}
        [.receive 2 1 0 true false false, delivery, .pubrec 1 false false 11,
          .pubrec 1 true false 12] ∧
    ¬ Always (step shortLived) Mirrors { maximumSendQuota := 1, sendQuota := 1 }
        [delivery, delivery, .puback 1, .release] := by
  refine ⟨fun h => ?_, fun h => ?_, fun h => ?_, fun h => ?_⟩
  · have hfresh : ({} : FlowState).Ok := ⟨inv_fresh, mirrors_iff.1 h.head⟩
    have hfirst : (step shortLived {} (.receive 2 1 0 true false false)).OkIff True :=
      step_okIff hfresh _
    have hsecond : (step shortLived _ delivery).OkIff True :=
      step_okIff ⟨hfirst.1, hfirst.2.2 trivial⟩ delivery
    have hexpired := (ok_expired_iff ⟨hsecond.1, hsecond.2.2 trivial⟩ 11).2.1 (mirrors_iff.1 h.last)
    exact absurd hexpired (by decide +kernel)
  · exact absurd ((h.last.1 1).1 (by decide +kernel)) (by decide +kernel)
  · exact absurd ((h.last.1 1).1 (by decide +kernel)) (by decide +kernel)
  · exact absurd ((h.last.1 2).1 (by decide +kernel)) (by decide +kernel)

/-- Both directions use packet ID 1, one flow after the other ends, and the mirror holds. -/
theorem always_mirrors_bothWays :
    Always (step shortLived) Mirrors {}
      [.receive 2 1 0 true false false, delivery, .release, .pubrec 1 false false 1, .release,
        .pubrel 1 false false 1, .release, .expire 5, .pubcomp 1, .release, .clear] := by
  exact (always_mirrors_iff inv_fresh ⟨by simp, by simp⟩ _).2 (by decide +kernel)

end FlowState

end KeelGateway.Broker
