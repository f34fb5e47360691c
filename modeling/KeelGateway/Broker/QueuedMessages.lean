import KeelGateway.Redis.OfflineQueue
import KeelGateway.Redis.StoredSession

/-!
# Queued messages and the resumed session

Two parties give out packet IDs for one client. The offline queue takes one that is free in the
Redis hash, a resumed session takes one that is free in its own memory, and the session writes to
the hash without looking. The machine below runs both against each other, one Redis command at a
time: the queue as in `OfflineQueue`, and a session that reads the hash when it resumes, drops what
it has read, sends and stores it again, and then delivers live messages and handles
acknowledgements.

The state keeps track of the queued messages that the client has not acknowledged yet. The question
is whether such a message stays in the hash.

-/

namespace KeelGateway.Redis

/-! ### What the queue does to the hash -/

/-- Starting, running and ending calls, and the end of a dedup marker. -/
def QueueEvent.isQueue : QueueEvent → Bool
  | .call _ => true
  | .advance _ _ => true
  | .abandon _ => true
  | .expire _ => true
  | _ => false

namespace QueueState

variable (clientID : Text)

/-- The packet ID and the message that a step commits. -/
def committed (s : QueueState) : QueueEvent → Option (ℕ × Message)
  | .advance i now =>
    match s.calls[i]? with
    | none => none
    | some c =>
      match c.phase with
      | .planned w _ _ next =>
        if s.keys.versions c.args.publishID = w then
          some (packetIDOf next, marshalOfflineInflight clientID (packetIDOf next) c.args.msg now)
        else none
      | _ => none
  | _ => none

variable {clientID}

theorem keys_step_of_not_committed (s : QueueState) {e : QueueEvent} (he : e.isQueue = true)
    (hno : s.committed clientID e = none) :
    (s.step clientID e).keys.hash = s.keys.hash ∧
      (s.step clientID e).keys.marker = s.keys.marker := by
  cases e with
  | call args => exact ⟨rfl, rfl⟩
  | abandon i => exact ⟨rfl, rfl⟩
  | expire p =>
    simp only [step, Keys.expire]
    split_ifs <;> exact ⟨rfl, rfl⟩
  | advance i now =>
    simp only [step]
    cases hcall : s.calls[i]? with
    | none => exact ⟨rfl, rfl⟩
    | some c =>
      dsimp only
      rcases c.next_cases clientID s.keys now with
        ⟨hk, -⟩ | ⟨w, schema, counter, next, hphase, hw, -⟩
      · rw [hk]
        exact ⟨rfl, rfl⟩
      · simp only [committed, hcall, hphase, if_pos hw] at hno
        cases hno
  | _ => cases he

theorem keys_step_of_committed {s : QueueState} (hinv : s.Inv) {e : QueueEvent} {id : ℕ}
    {m : Message} {schema : Schema} (hschema : s.keys.marker.value.schema? = some schema)
    (hrange : s.InRange e) (hcom : s.committed clientID e = some (id, m)) :
    queueField schema id ∉ s.keys.hash.value ∧
      (s.step clientID e).keys.hash.value = s.keys.hash.value.insert (queueField schema id) m ∧
      (s.step clientID e).keys.marker = s.keys.marker ∧ m.packetID = id ∧ m.type = .publish := by
  cases e with
  | advance i now =>
    simp only [committed] at hcom
    cases hcall : s.calls[i]? with
    | none => simp [hcall] at hcom
    | some c =>
      simp only [hcall] at hcom
      cases hphase : c.phase with
      | planned w schema' counter next =>
        simp only [hphase] at hcom
        split_ifs at hcom with hw
        cases hcom
        have hcall' := hinv.calls c (List.mem_of_getElem? hcall)
        have hcommit : Commit clientID c.args now (packetIDOf next) s.keys _ :=
          commit_of_planned now hcall' hphase hw hinv.legacy hrange
        have hnext : c.next clientID s.keys now =
            (s.keys.commit clientID c.args schema' next now,
              { c with phase := .queued (packetIDOf next) }) := by
          simp only [Call.next, hphase, if_pos hw]
        have hsame : schema' = schema := by
          simp only [Call.Inv, hphase] at hcall'
          have hmarker : s.keys.marker.value.schema? = some schema' :=
            hcall'.2.marker.commit (hw ▸ rfl)
          exact Option.some.inj (hmarker.symm.trans hschema)
        subst hsame
        obtain ⟨schema, hs, hfree, -⟩ := hcommit.stored
        obtain rfl : schema = schema' := Option.some.inj (hs.symm.trans hschema)
        simp only [step, hcall, hnext]
        exact ⟨hfree, rfl, rfl, rfl, rfl⟩
      | _ => simp [hphase] at hcom
  | _ => cases hcom

end QueueState

end KeelGateway.Redis

namespace KeelGateway.Broker

open Redis Mochi StepMachine

/-! ### The machine -/

/-- The client, the schema in force, and the limit for deliveries in flight. -/
structure LiveConfig where
  clientID : Text
  schema : Schema
  maximumInflight : ℕ := 1024 * 8

/-- A live publish to the client, QoS 1 or 2, inside `publishToClientMode`. -/
inductive Delivery where
  /-- The packet has its ID and is in memory; `OnQosPublishResult` is next. -/
  | persist (pk : Packet)
  /-- The packet is stored; it is handed to the writer next. -/
  | enqueue (pk : Packet)
  /-- The writer refused the packet and memory dropped it; `OnQosDroppedResult` is next. -/
  | undo (pk : Packet)
  | done
  deriving DecidableEq

/-- The packet that a delivery still works on. -/
def Delivery.packet? : Delivery → Option Packet
  | persist pk => some pk
  | enqueue pk => some pk
  | undo pk => some pk
  | done => none

/-- How far the session has come. -/
inductive Stage where
  | offline
  /-- `inheritClientSession` clears the in-flight packets of the old client. -/
  | clearing (todo : List Packet)
  /-- `ResendInflightMessages`. -/
  | resending (todo : List Packet)
  | running
  deriving DecidableEq

/-- The Redis keys of the client with the calls of the queue, and the session. -/
structure LiveState where
  queue : QueueState
  stage : Stage := .offline
  memory : Inflight := {}
  packetID : ℕ := 0
  deliveries : List Delivery := []
  /-- The hook call that the handling of the last packet has still to make. -/
  completing : Option HookCall := none
  /-- The queued messages that the client has not acknowledged, by packet ID. -/
  outstanding : GoMap ℕ Message := ∅
  /-- The packet IDs under which this session has read outstanding messages. -/
  delivering : List ℕ := []

/-- One step of anybody. -/
inductive LiveEvent where
  | queue (e : QueueEvent) (he : e.isQueue = true)
  /-- `OnSessionEstablish` reads the hash on top of what an earlier connection has left on the
  node. -/
  | resume (copy : Inflight) (directed : copy.Directed)
  | clear
  | resend
  | publish (pk : Packet)
  /-- The next step of a delivery; `full` says that the writer has no room. -/
  | deliver (k : ℕ) (full : Bool)
  | ack (a : Ack)
  | complete
  | disconnect

/-- The packet carries the message, whatever its DUP flag. -/
def SameMessage (pk : Packet) (m : Message) : Prop :=
  { pk with dup := false } = { m.toPacket with dup := false }

instance (pk : Packet) (m : Message) : Decidable (SameMessage pk m) :=
  inferInstanceAs (Decidable (_ = _))

/-! ### Packets and messages -/

theorem id_queueField (schema : Schema) (id : ℕ) : (queueField schema id).id = id := by
  cases schema <;> rfl

variable {pk : Packet}

theorem SameMessage.fields {m : Message} (h : SameMessage pk m) :
    pk.type = m.type ∧ pk.packetID = m.packetID ∧ pk.inboundFlow = false :=
  ⟨congrArg Packet.type h, congrArg Packet.packetID h, congrArg Packet.inboundFlow h⟩

/-- A resend stores the same message. -/
theorem SameMessage.resent {m : Message} (h : SameMessage pk m) (clientID : Text) (sent : ℤ) :
    SameMessage ((Mochi.resent pk).toMessage clientID sent).toPacket m := by
  have hflow := h.fields.2.2
  have hversion : pk.protocolVersion = 0 := congrArg Packet.protocolVersion h
  have hexpiry : pk.expiry = 0 := congrArg Packet.expiry h
  unfold SameMessage at h ⊢
  rw [← h]
  unfold Mochi.resent
  split_ifs <;> simp [Packet.toMessage, Message.toPacket, hflow, hversion, hexpiry]

theorem writeField_of_publish (schema : Schema) (h : pk.type = .publish) :
    writeField schema pk = queueField schema pk.packetID := by
  cases schema with
  | legacy => rfl
  | v2 => simp [writeField, inflightFieldKey, h, queueField]

/-! ### Steps -/

namespace LiveState

variable (cfg : LiveConfig)

/-- The in-flight hash. -/
def hash (s : LiveState) : InflightHash := s.queue.keys.hash.value

/-- `OnQosPublishResult`. -/
def write (s : LiveState) (pk : Packet) : LiveState :=
  { s with queue := s.queue.step cfg.clientID (.liveWrite cfg.schema pk pk.created) }

/-- `OnQosCompleteResult` and `OnQosDroppedResult`. -/
def delete (s : LiveState) (call : HookCall) : LiveState :=
  { s with queue := s.queue.step cfg.clientID (.liveDelete cfg.schema call.pk call.dropped) }

/-- The session reads the hash. When that fails it goes on with the copy alone. -/
def resumed (s : LiveState) (copy : Inflight) : LiveState :=
  let memory := copy.setAll (((storedInflight cfg.schema s.hash).getD []).map Message.toPacket)
  { s with
    stage := .clearing memory.getAll
    memory := memory
    packetID := 0
    delivering := s.outstanding.keys.filter fun id =>
      match memory.flow (.outbound id), s.outstanding.lookup id with
      | some pk, some m => SameMessage pk m
      | _, _ => false }

/-- A publish gets its packet ID and its place in memory. -/
def published (s : LiveState) (pk : Packet) : LiveState :=
  match s.memory.outgoing cfg.maximumInflight s.packetID pk with
  | none => s
  | some out =>
    { s with
      memory := s.memory.setOutbound out
      packetID := out.packetID
      deliveries := s.deliveries ++ [.persist out] }

/-- The next step of a delivery. -/
def delivered (s : LiveState) (k : ℕ) (full : Bool) : LiveState :=
  match s.deliveries[k]? with
  | some (.persist pk) => { s.write cfg pk with deliveries := s.deliveries.set k (.enqueue pk) }
  | some (.enqueue pk) =>
    if full && pk.packetID ∈ s.memory.internal then
      { s with
        memory := s.memory.deleteOutbound pk.packetID
        deliveries := s.deliveries.set k (.undo pk) }
    else { s with deliveries := s.deliveries.set k .done }
  | some (.undo pk) => { s.delete cfg ⟨pk, true⟩ with deliveries := s.deliveries.set k .done }
  | _ => s

/-- The broker handles an acknowledgement. A queued message whose flow ends is acknowledged. -/
def acknowledged (s : LiveState) (a : Ack) : LiveState :=
  let (memory, call) := s.memory.processAck a
  { s with
    memory := memory
    completing := call
    outstanding := (s.delivering.filter (· ∉ memory.internal)).foldl
      (fun m id => m.erase id) s.outstanding
    delivering := s.delivering.filter (· ∈ memory.internal) }

/-- One step of anybody. -/
def step (s : LiveState) : LiveEvent → LiveState
  | .queue e _ =>
    { s with
      queue := s.queue.step cfg.clientID e
      outstanding :=
        match s.queue.committed cfg.clientID e with
        | none => s.outstanding
        | some (id, m) => s.outstanding.insert id m }
  | .resume copy _ => s.resumed cfg copy
  | .clear =>
    match s.stage with
    | .clearing [] => { s with stage := .resending s.memory.getAll }
    | .clearing (pk :: todo) => { s.delete cfg ⟨pk, true⟩ with stage := .clearing todo }
    | _ => s
  | .resend =>
    match s.stage, s.completing with
    | .resending [], none => { s with stage := .running }
    | .resending (pk :: todo), none =>
      let s := { s.write cfg (resent pk) with stage := .resending todo }
      if pk.type = .puback ∨ pk.type = .pubcomp then
        { s with
          memory := s.memory.deleteInbound pk.packetID
          completing := some ⟨pk, false⟩ }
      else s
    | _, _ => s
  | .publish pk =>
    match s.stage with
    | .clearing _ => s
    | _ => s.published cfg pk
  | .deliver k full => s.delivered cfg k full
  | .ack a =>
    match s.stage, s.completing with
    | .running, none => s.acknowledged a
    | _, _ => s
  | .complete =>
    match s.completing with
    | none => s
    | some call => { s.delete cfg call with completing := none }
  | .disconnect => { s with stage := .offline }

/-- The message is in its field of the hash. -/
def Stored (s : LiveState) (id : ℕ) (m : Message) : Prop :=
  ∃ n, s.hash.lookup (queueField cfg.schema id) = some n ∧ SameMessage n.toPacket m

/-- Every unacknowledged queued message is in the hash. -/
def Kept (s : LiveState) : Prop :=
  ∀ id m, s.outstanding.lookup id = some m → s.Stored cfg id m

/-- The session holds the message in memory. -/
def Carried (s : LiveState) (id : ℕ) (m : Message) : Prop :=
  ∃ pk, s.memory.flow (.outbound id) = some pk ∧ SameMessage pk m

/-- No session is at work. -/
def Idle (s : LiveState) : Prop :=
  s.stage = .offline ∧ (∀ d ∈ s.deliveries, d = .done) ∧ s.completing = none

instance (s : LiveState) : Decidable s.Idle := inferInstanceAs (Decidable (_ ∧ _))

/-- A resume has read the hash and not yet stored everything again. -/
def Resuming (s : LiveState) : Prop :=
  match s.stage with
  | .clearing _ => True
  | .resending _ => True
  | _ => False

instance (s : LiveState) : Decidable s.Resuming := by
  unfold Resuming
  cases s.stage <;> infer_instance

/-- The steps that leave the queued messages in peace: the queue commits while no session is at
work, with its counter in range; a session resumes after the one before has ended, on a node whose
copy holds no finished flow of the client and, under schema 1, no flow of the client with the ID of
a queued message; it takes packet IDs while it is connected, and it does not break off in the
middle of its resume. -/
def Quiet (s : LiveState) : LiveEvent → Prop
  | .queue e _ => s.queue.InRange e ∧ (s.queue.committed cfg.clientID e ≠ none → s.Idle)
  | .resume copy _ =>
    s.Idle ∧ ∀ flow ∈ copy.receive.entries,
      Resendable flow.2 ∧ (cfg.schema = .legacy → flow.1 ∉ s.outstanding)
  | .publish _ => s.stage ≠ .offline
  | .disconnect => ¬ s.Resuming
  | _ => True

instance (s : LiveState) (e : LiveEvent) : Decidable (s.Quiet cfg e) := by
  cases e <;> unfold Quiet <;> infer_instance

/-! ### The invariant -/

/-- The part of the invariant that is about Redis. -/
structure HashInv (q : QueueState) : Prop where
  queue : q.Inv
  schema : q.keys.marker.value.fence? = some cfg.schema
  own : OwnField cfg.schema q.keys.hash.value
  resendable : ∀ f m, q.keys.hash.value.lookup f = some m → Resendable m.toPacket

/-- What is known of a queued message in each stage of the session. -/
def Secured (s : LiveState) (id : ℕ) (m : Message) : Prop :=
  match s.stage with
  | .offline => s.Stored cfg id m
  | .clearing _ => id ∈ s.delivering ∧ s.Carried id m
  | .resending todo =>
    id ∈ s.delivering ∧ s.Carried id m ∧
      (∀ pk ∈ todo, writeField cfg.schema pk = queueField cfg.schema id → SameMessage pk m) ∧
      (s.Stored cfg id m ∨ ∃ pk ∈ todo, writeField cfg.schema pk = queueField cfg.schema id)
  | .running => id ∈ s.delivering ∧ id ∈ s.memory.internal ∧ s.Stored cfg id m

/-- The invariant of quiet runs. -/
structure Inv (s : LiveState) : Prop where
  redis : HashInv cfg s.queue
  directed : s.memory.Directed
  packetID_le : s.packetID ≤ 65535
  memoryResendable : ∀ todo, s.stage = .clearing todo → ∀ f pk, s.memory.flow f = some pk →
    Resendable pk
  todoResendable : ∀ todo, s.stage = .resending todo → ∀ pk ∈ todo, Resendable pk
  message : ∀ id m, s.outstanding.lookup id = some m → m.packetID = id ∧ m.type = .publish
  secured : ∀ id m, s.outstanding.lookup id = some m → s.Secured cfg id m
  receive : cfg.schema = .legacy → s.stage ≠ .offline → ∀ id ∈ s.outstanding, id ∉ s.memory.receive
  deliveries : ∀ d ∈ s.deliveries, ∀ pk, d.packet? = some pk →
    pk.type = .publish ∧ pk.packetID ∉ s.outstanding
  completing : ∀ call, s.completing = some call → ∀ id ∈ s.outstanding,
    queueField cfg.schema id ∉ deleteFields cfg.schema call.pk call.dropped

variable {cfg}

/-! ### Writes and deletes of the session -/

variable {s t : LiveState} {pk : Packet} {id : ℕ} {m : Message}

theorem lookup_write (h : HashInv cfg s.queue) (pk : Packet) (f : Field) :
    (s.write cfg pk).hash.lookup f =
      if f = writeField cfg.schema pk then some (pk.toMessage cfg.clientID pk.created)
      else s.hash.lookup f :=
  Keys.lookup_liveWrite h.schema _ _ _ _

theorem lookup_delete (h : HashInv cfg s.queue) (call : HookCall) (f : Field) :
    (s.delete cfg call).hash.lookup f =
      if f ∈ deleteFields cfg.schema call.pk call.dropped then none else s.hash.lookup f :=
  Keys.lookup_liveDelete h.schema _ _ _

theorem hashInv_write (h : HashInv cfg s.queue) (hpk : Resendable pk) :
    HashInv cfg (s.write cfg pk).queue where
  queue := QueueState.inv_step h.queue (.liveWrite cfg.schema pk pk.created)
  schema := (congrArg (·.value.fence?) (Keys.marker_liveWrite _ _ _ _)).trans h.schema
  own f m hm := by
    have hlook : (s.write cfg pk).hash.lookup f = some m := hm
    rw [lookup_write h] at hlook
    split_ifs at hlook with hf
    · cases hlook
      rw [hf]
      cases hschema : cfg.schema <;> rfl
    · exact h.own f m hlook
  resendable f m hm := by
    have hlook : (s.write cfg pk).hash.lookup f = some m := hm
    rw [lookup_write h] at hlook
    split_ifs at hlook
    · cases hlook
      exact hpk
    · exact h.resendable f m hlook

theorem hashInv_delete (h : HashInv cfg s.queue) (call : HookCall) :
    HashInv cfg (s.delete cfg call).queue := by
  have hlook (f : Field) (m : Message) (hm : (s.delete cfg call).hash.lookup f = some m) :
      s.hash.lookup f = some m := by
    rw [lookup_delete h] at hm
    split_ifs at hm
    exact hm
  have hqueue : (s.queue.step cfg.clientID (.liveDelete cfg.schema call.pk call.dropped)).Inv :=
    QueueState.inv_step h.queue _
  exact ⟨hqueue, (congrArg (·.value.fence?) (Keys.marker_liveDelete _ _ _)).trans h.schema,
    fun f m hm => h.own f m (hlook f m hm), fun f m hm => h.resendable f m (hlook f m hm)⟩

theorem Stored.of_lookup_eq (h : s.Stored cfg id m)
    (heq : t.hash.lookup (queueField cfg.schema id) = s.hash.lookup (queueField cfg.schema id)) :
    t.Stored cfg id m := by
  obtain ⟨n, hn, hsame⟩ := h
  exact ⟨n, heq.trans hn, hsame⟩

theorem Secured.of_eq (h : s.Secured cfg id m) (hstage : t.stage = s.stage)
    (hdel : t.delivering = s.delivering)
    (hflow : t.memory.flow (.outbound id) = s.memory.flow (.outbound id))
    (hlook : t.hash.lookup (queueField cfg.schema id) = s.hash.lookup (queueField cfg.schema id)) :
    t.Secured cfg id m := by
  have hstored : s.Stored cfg id m → t.Stored cfg id m := fun hs => hs.of_lookup_eq hlook
  have hcarried : s.Carried id m → t.Carried id m := by
    rintro ⟨pk, hpk, hsame⟩
    exact ⟨pk, hflow.trans hpk, hsame⟩
  have hmem : id ∈ s.memory.internal → id ∈ t.memory.internal := by
    intro hid
    obtain ⟨pk, hpk⟩ := GoMap.mem_iff_exists_lookup.1 hid
    exact GoMap.mem_iff_exists_lookup.2 ⟨pk, hflow.trans hpk⟩
  unfold Secured at h ⊢
  rw [hstage, hdel]
  cases hs : s.stage with
  | offline =>
    rw [hs] at h
    exact hstored h
  | clearing todo =>
    rw [hs] at h
    exact ⟨h.1, hcarried h.2⟩
  | resending todo =>
    rw [hs] at h
    exact ⟨h.1, hcarried h.2.1, h.2.2.1, h.2.2.2.imp_left hstored⟩
  | running =>
    rw [hs] at h
    exact ⟨h.1, hmem h.2.1, hstored h.2.2⟩

theorem Inv.mem_internal (h : s.Inv cfg) (hstage : s.stage ≠ .offline) (hid : id ∈ s.outstanding) :
    id ∈ s.memory.internal := by
  obtain ⟨m, hm⟩ := GoMap.mem_iff_exists_lookup.1 hid
  have hsec := h.secured id m hm
  unfold Secured at hsec
  cases hs : s.stage with
  | offline => exact absurd hs hstage
  | clearing todo =>
    rw [hs] at hsec
    obtain ⟨-, pk, hpk, -⟩ := hsec
    exact GoMap.mem_iff_exists_lookup.2 ⟨pk, hpk⟩
  | resending todo =>
    rw [hs] at hsec
    obtain ⟨-, ⟨pk, hpk, -⟩, -⟩ := hsec
    exact GoMap.mem_iff_exists_lookup.2 ⟨pk, hpk⟩
  | running =>
    rw [hs] at hsec
    exact hsec.2.1

/-! ### Quiet steps keep the invariant -/

private theorem inv_queue (h : s.Inv cfg) {e : QueueEvent} (he : e.isQueue = true)
    (hquiet : s.Quiet cfg (.queue e he)) : (s.step cfg (.queue e he)).Inv cfg := by
  obtain ⟨hrange, hidle⟩ := hquiet
  have hqueue : (s.queue.step cfg.clientID e).Inv := QueueState.inv_step h.redis.queue e
  cases hcom : s.queue.committed cfg.clientID e with
  | none =>
    obtain ⟨hhash, hmarker⟩ := QueueState.keys_step_of_not_committed s.queue he hcom
    simp only [step, hcom]
    refine ⟨⟨hqueue, ?_, ?_, ?_⟩, h.directed, h.packetID_le, h.memoryResendable, h.todoResendable,
      h.message, fun id m hm => ?_, h.receive, h.deliveries, h.completing⟩
    · exact hmarker ▸ h.redis.schema
    · exact hhash ▸ h.redis.own
    · exact hhash ▸ h.redis.resendable
    · refine (h.secured id m hm).of_eq rfl rfl rfl ?_
      simp only [hash, hhash]
  | some commit =>
    obtain ⟨id, m⟩ := commit
    obtain ⟨hstage, hdone, hcompl⟩ := hidle (by simp [hcom])
    obtain ⟨hfree, hhash, hmarker, hmid, hmtype⟩ :=
      QueueState.keys_step_of_committed h.redis.queue (Marker.schema?_of_fence? h.redis.schema)
        hrange hcom
    have hfield : queueField cfg.schema id = writeField cfg.schema m.toPacket := by
      rw [writeField_of_publish cfg.schema (show m.toPacket.type = .publish from hmtype)]
      exact congrArg _ hmid.symm
    simp only [step, hcom]
    refine ⟨⟨hqueue, ?_, ?_, ?_⟩, h.directed, h.packetID_le, h.memoryResendable, h.todoResendable,
      fun id' m' hm' => ?_, fun id' m' hm' => ?_, fun _ hs => absurd hstage hs,
      fun d hd pk hpk => ?_, fun call hcall => ?_⟩
    · exact hmarker ▸ h.redis.schema
    · rw [hhash, hfield]
      exact h.redis.own.insert m
    · intro f n hn
      rw [hhash, GoMap.lookup_insert] at hn
      split_ifs at hn
      · cases hn
        exact ⟨by simp [Message.toPacket, hmtype], by simp [Message.toPacket, hmtype]⟩
      · exact h.redis.resendable f n hn
    · rw [GoMap.lookup_insert] at hm'
      split_ifs at hm' with hid
      · cases hm'
        exact ⟨hmid.trans hid.symm, hmtype⟩
      · exact h.message id' m' hm'
    · have hlook (f : Field) : ({ s with queue := s.queue.step cfg.clientID e } :
        LiveState).hash.lookup
          f = if f = queueField cfg.schema id then some m else s.hash.lookup f := by
        simp only [hash, hhash, GoMap.lookup_insert]
      simp only [hstage]
      rw [GoMap.lookup_insert] at hm'
      split_ifs at hm' with hid
      · cases hm'
        exact ⟨m, (hlook _).trans (by rw [hid, if_pos rfl]), rfl⟩
      · have hold := h.secured id' m' hm'
        simp only [Secured, hstage] at hold
        refine hold.of_lookup_eq ((hlook _).trans (if_neg fun heq => hid ?_))
        simpa only [id_queueField] using congrArg Field.id heq
    · rw [hdone d hd] at hpk
      cases hpk
    · rw [hcompl] at hcall
      cases hcall

theorem flow_resumed (h : HashInv cfg s.queue) (copy : Inflight) {f : Field} {n : Message}
    (hn : s.hash.lookup f = some n) :
    (s.resumed cfg copy).memory.flow (inflightFieldKey n.toPacket) = some n.toPacket :=
  flow_setAll_storedInflight h.own copy hn

theorem flow_resumed_cases (h : HashInv cfg s.queue) (copy : Inflight) {f : Field}
    (hpk : (s.resumed cfg copy).memory.flow f = some pk) :
    (∃ g n, s.hash.lookup g = some n ∧ n.toPacket = pk ∧ f = inflightFieldKey pk) ∨
      copy.flow f = some pk :=
  flow_setAll_storedInflight_cases h.own copy hpk

private theorem inv_resume (h : s.Inv cfg) {copy : Inflight} (hdir : copy.Directed)
    (hquiet : s.Quiet cfg (.resume copy hdir)) : (s.step cfg (.resume copy hdir)).Inv cfg := by
  obtain ⟨⟨hstage, hdone, hcompl⟩, hrows⟩ := hquiet
  have hcopy (id : ℕ) (pk : Packet) (hpk : copy.flow (.inbound id) = some pk) :
      Resendable pk ∧ (cfg.schema = .legacy → id ∉ s.outstanding) :=
    hrows ⟨id, pk⟩ (AList.mem_lookup_iff.1 hpk)
  have hstored (id : ℕ) (m : Message) (hm : s.outstanding.lookup id = some m) :
      ∃ n, s.hash.lookup (queueField cfg.schema id) = some n ∧ SameMessage n.toPacket m ∧
        inflightFieldKey n.toPacket = .outbound id := by
    have hsec := h.secured id m hm
    obtain ⟨hid, htype⟩ := h.message id m hm
    simp only [Secured, hstage] at hsec
    obtain ⟨n, hn, hsame⟩ := hsec
    obtain ⟨hntype, hnid, -⟩ := hsame.fields
    exact ⟨n, hn, hsame, by simp [inflightFieldKey, hntype, htype, hnid, hid]⟩
  refine ⟨h.redis, hdir.setAll _, Nat.zero_le _, ?_, ?_, h.message, fun id m hm => ?_, ?_, ?_, ?_⟩
  · intro todo _ f pk hpk
    rcases flow_resumed_cases h.redis copy hpk with ⟨g, n, hn, rfl, -⟩ | hold
    · exact h.redis.resendable g n hn
    · cases f with
      | numeric id => cases hold
      | inbound id => exact (hcopy id pk hold).1
      | outbound id => exact resendable_of_outbound (hdir _ pk hold).symm
  · rintro todo ⟨⟩
  · have hm : s.outstanding.lookup id = some m := hm
    obtain ⟨n, hn, hsame, hkey⟩ := hstored id m hm
    have hflow := flow_resumed h.redis copy hn
    rw [hkey] at hflow
    refine ⟨List.mem_filter.2 ⟨GoMap.mem_iff_exists_lookup.2 ⟨m, hm⟩, ?_⟩, n.toPacket, hflow, hsame⟩
    have hflow : (copy.setAll (((storedInflight cfg.schema s.hash).getD []).map
        Message.toPacket)).flow (.outbound id) = some n.toPacket := hflow
    simp only [hflow, hm, hsame, decide_true]
  · intro hlegacy _ id hid hrecv
    obtain ⟨pk, hpk⟩ := GoMap.mem_iff_exists_lookup.1 hrecv
    rcases flow_resumed_cases (f := .inbound id) h.redis copy hpk with
      ⟨g, n, hn, rfl, hkey⟩ | hold
    · -- under schema 1 the one message with this ID is the queued one, a PUBLISH
      obtain ⟨m, hm⟩ := GoMap.mem_iff_exists_lookup.1 hid
      obtain ⟨n', hn', -, hkey'⟩ := hstored id m hm
      have hids : n.toPacket.packetID = n'.toPacket.packetID := by
        rw [← id_inflightFieldKey, ← hkey, ← id_inflightFieldKey n'.toPacket, hkey']
        rfl
      have heq : n = n' := by
        refine h.redis.own.eq_of_writeField_eq hn hn' ?_
        rw [hlegacy]
        exact congrArg Field.numeric hids
      rw [heq, hkey'] at hkey
      cases hkey
    · exact (hcopy id pk hold).2 hlegacy hid
  · intro d hd pk hpk
    rw [hdone d hd] at hpk
    cases hpk
  · intro call hcall
    have hnone : s.completing = some call := hcall
    rw [hcompl] at hnone
    cases hnone

theorem Inv.sameMessage_of_writeField_eq (h : s.Inv cfg) (hstage : s.stage ≠ .offline)
    (hm : s.outstanding.lookup id = some m) (hcarried : s.Carried id m) (hpk : pk ∈ s.memory.getAll)
    (hfield : writeField cfg.schema pk = queueField cfg.schema id) : SameMessage pk m := by
  obtain ⟨q, hq, hsame⟩ := hcarried
  obtain ⟨f, hf⟩ := (s.memory.mem_getAll pk).1 hpk
  have hkey : inflightFieldKey pk = .outbound id := by
    cases hschema : cfg.schema with
    | v2 => rwa [hschema] at hfield
    | legacy =>
      have hid : pk.packetID = id := by
        have := congrArg Field.id hfield
        rwa [id_writeField, id_queueField] at this
      have hnot : id ∉ s.memory.receive :=
        h.receive hschema hstage id (GoMap.mem_iff_exists_lookup.2 ⟨m, hm⟩)
      have hown : f = inflightFieldKey pk := h.directed f pk hf
      have hfid : f.id = id := by rw [hown, id_inflightFieldKey, hid]
      cases f with
      | numeric _ => cases hf
      | inbound i =>
        obtain rfl : i = id := hfid
        exact absurd (GoMap.mem_iff_exists_lookup.2 ⟨pk, hf⟩) hnot
      | outbound i =>
        obtain rfl : i = id := hfid
        exact hown.symm
  have heq : pk = q := by
    refine h.directed.eq_of_key_eq hf hq (hkey.trans ?_)
    exact h.directed _ q hq
  rw [heq]
  exact hsame

private theorem inv_clear (h : s.Inv cfg) : (s.step cfg .clear).Inv cfg := by
  cases hs : s.stage with
  | offline => simpa only [step, hs] using h
  | resending todo => simpa only [step, hs] using h
  | running => simpa only [step, hs] using h
  | clearing todo =>
    have hconn : s.stage ≠ .offline := by simp [hs]
    have hsec (id : ℕ) (m : Message) (hm : s.outstanding.lookup id = some m) :
        id ∈ s.delivering ∧ s.Carried id m := by
      have := h.secured id m hm
      simpa only [Secured, hs] using this
    cases todo with
    | nil =>
      simp only [step, hs]
      refine ⟨h.redis, h.directed, h.packetID_le, by simp, ?_, h.message, fun id m hm => ?_,
        fun hl _ => h.receive hl hconn, h.deliveries, h.completing⟩
      · rintro todo ⟨⟩ pk hpk
        obtain ⟨f, hf⟩ := (s.memory.mem_getAll pk).1 hpk
        exact h.memoryResendable [] hs f pk hf
      · obtain ⟨hdel, hcarried⟩ := hsec id m hm
        refine ⟨hdel, hcarried, fun pk hpk hfield =>
          h.sameMessage_of_writeField_eq hconn hm hcarried hpk hfield, Or.inr ?_⟩
        obtain ⟨pk, hpk, hsame⟩ := hcarried
        obtain ⟨hid, htype⟩ := h.message id m hm
        obtain ⟨hptype, hpid, -⟩ := hsame.fields
        refine ⟨pk, (s.memory.mem_getAll pk).2 ⟨_, hpk⟩, ?_⟩
        rw [writeField_of_publish _ (hptype.trans htype), hpid, hid]
    | cons pk todo =>
      simp only [step, hs]
      exact ⟨hashInv_delete h.redis _, h.directed, h.packetID_le,
        fun _ _ => h.memoryResendable _ hs, by simp, h.message, hsec,
        fun hl _ => h.receive hl hconn, h.deliveries, h.completing⟩

private theorem inv_resend (h : s.Inv cfg) : (s.step cfg .resend).Inv cfg := by
  cases hs : s.stage with
  | offline => simpa only [step, hs] using h
  | clearing todo => simpa only [step, hs] using h
  | running => simpa only [step, hs] using h
  | resending todo =>
    have hconn : s.stage ≠ .offline := by simp [hs]
    cases hcompl : s.completing with
    | some call =>
      cases todo <;> simpa only [step, hs, hcompl] using h
    | none =>
      cases todo with
      | nil =>
        simp only [step, hs, hcompl]
        refine ⟨h.redis, h.directed, h.packetID_le, by simp, by simp, h.message, fun id m hm => ?_,
          fun hl _ => h.receive hl hconn, h.deliveries, by simp⟩
        have hsec := h.secured id m hm
        simp only [Secured, hs] at hsec
        obtain ⟨hdel, -, -, hstored | ⟨pk, hpk, -⟩⟩ := hsec
        · exact ⟨hdel, h.mem_internal hconn (GoMap.mem_iff_exists_lookup.2 ⟨m, hm⟩), hstored⟩
        · cases hpk
      | cons pk todo =>
        have hres : Resendable pk := h.todoResendable _ hs pk List.mem_cons_self
        have hres' : Resendable (resent pk) := by
          unfold resent
          split_ifs
          · exact hres
          · exact hres
        have hif : ¬ (pk.type = .puback ∨ pk.type = .pubcomp) := by
          rintro (htype | htype)
          · exact hres.1 htype
          · exact hres.2 htype
        simp only [step, hs, hcompl, if_neg hif]
        refine ⟨hashInv_write h.redis hres', h.directed, h.packetID_le, by simp, ?_, h.message,
          fun id m hm => ?_, fun hl _ => h.receive hl hconn, h.deliveries, by simp [write, hcompl]⟩
        · rintro todo' ⟨⟩ q hq
          exact h.todoResendable _ hs q (List.mem_cons_of_mem _ hq)
        · have hsec := h.secured id m hm
          simp only [Secured, hs] at hsec
          obtain ⟨hdel, hcarried, hsame, hor⟩ := hsec
          refine ⟨hdel, hcarried, fun q hq => hsame q (List.mem_cons_of_mem _ hq), ?_⟩
          by_cases hfield : writeField cfg.schema pk = queueField cfg.schema id
          · refine Or.inl ⟨(resent pk).toMessage cfg.clientID (resent pk).created, ?_,
              (hsame pk List.mem_cons_self hfield).resent _ _⟩
            refine (lookup_write h.redis _ _).trans (if_pos ?_)
            rw [writeField_resent, hfield]
          · rcases hor with hstored | ⟨q, hq, hqfield⟩
            · refine Or.inl (hstored.of_lookup_eq ((lookup_write h.redis _ _).trans (if_neg ?_)))
              rw [writeField_resent]
              exact Ne.symm hfield
            · rcases List.mem_cons.1 hq with rfl | hq
              · exact absurd hqfield hfield
              · exact Or.inr ⟨q, hq, hqfield⟩

theorem inv_published (h : s.Inv cfg) (hconn : s.stage ≠ .offline)
    (hclear : ∀ todo, s.stage ≠ .clearing todo) (pk : Packet) : (s.published cfg pk).Inv cfg := by
  unfold published
  cases hnext : s.memory.outgoing cfg.maximumInflight s.packetID pk with
  | none => exact h
  | some out =>
    have htype := Inflight.type_of_outgoing hnext
    obtain ⟨hle, hfree⟩ := Inflight.packetID_of_outgoing h.packetID_le hnext
    have hout : out.packetID ∉ s.outstanding := fun hid => hfree (h.mem_internal hconn hid)
    refine ⟨h.redis, h.directed.setOutbound (by simp [isInboundPacket, htype]), hle,
      fun todo hs => absurd hs (hclear todo), h.todoResendable, h.message,
      fun id' m hm => ?_, h.receive, ?_, h.completing⟩
    · have hne : id' ≠ out.packetID :=
        fun heq => hout (heq ▸ GoMap.mem_iff_exists_lookup.2 ⟨m, hm⟩)
      refine (h.secured id' m hm).of_eq rfl rfl ?_ rfl
      rw [Inflight.flow_setOutbound, if_neg]
      rintro ⟨⟩
      exact hne rfl
    · intro d hd q hq
      rcases List.mem_append.1 hd with hd | hd
      · exact h.deliveries d hd q hq
      · rw [List.mem_singleton.1 hd] at hq
        cases hq
        exact ⟨htype, hout⟩

private theorem inv_publish (h : s.Inv cfg) (pk : Packet) (hquiet : s.Quiet cfg (.publish pk)) :
    (s.step cfg (.publish pk)).Inv cfg := by
  cases hs : s.stage with
  | offline => exact absurd hs hquiet
  | clearing todo => simpa only [step, hs] using h
  | resending todo | running =>
    simp only [step, hs]
    exact inv_published h hquiet (by simp [hs]) pk

theorem Inv.of_frame (h : s.Inv cfg) (hredis : HashInv cfg t.queue) (hstage : t.stage = s.stage)
    (hid : t.packetID = s.packetID) (hdir : t.memory.Directed)
    (hmemory : ∀ f pk, t.memory.flow f = some pk → s.memory.flow f = some pk)
    (hout : t.outstanding = s.outstanding) (hdel : t.delivering = s.delivering)
    (hframe : ∀ id ∈ s.outstanding,
      t.memory.flow (.outbound id) = s.memory.flow (.outbound id) ∧
      t.hash.lookup (queueField cfg.schema id) = s.hash.lookup (queueField cfg.schema id))
    (hdeliveries : ∀ d ∈ t.deliveries, ∀ pk, d.packet? = some pk →
      ∃ d' ∈ s.deliveries, d'.packet? = some pk)
    (hcompleting : ∀ call, t.completing = some call → s.completing = some call) : t.Inv cfg where
  redis := hredis
  directed := hdir
  packetID_le := hid ▸ h.packetID_le
  memoryResendable todo hs f pk hpk :=
    h.memoryResendable todo (hstage ▸ hs) f pk (hmemory f pk hpk)
  todoResendable todo hs := h.todoResendable todo (hstage ▸ hs)
  message := hout ▸ h.message
  secured id m hm := by
    rw [hout] at hm
    obtain ⟨hflow, hlook⟩ := hframe id (GoMap.mem_iff_exists_lookup.2 ⟨m, hm⟩)
    exact (h.secured id m hm).of_eq hstage hdel hflow hlook
  receive hl hs id hid' hrecv := by
    rw [hout] at hid'
    rw [hstage] at hs
    obtain ⟨pk, hpk⟩ := GoMap.mem_iff_exists_lookup.1 hrecv
    exact h.receive hl hs id hid' (GoMap.mem_iff_exists_lookup.2 ⟨pk, hmemory (.inbound id) pk hpk⟩)
  deliveries d hd pk hpk := by
    obtain ⟨d', hd', hpk'⟩ := hdeliveries d hd pk hpk
    rw [hout]
    exact h.deliveries d' hd' pk hpk'
  completing call hcall := by
    rw [hout]
    exact h.completing call (hcompleting call hcall)

theorem packet?_of_mem_set {ds : List Delivery} {k : ℕ} {d : Delivery} (e : Delivery)
    (hk : ds[k]? = some d) (he : ∀ q, e.packet? = some q → d.packet? = some q) {d' : Delivery}
    (hd' : d' ∈ ds.set k e) (hpk : d'.packet? = some pk) : ∃ d'' ∈ ds, d''.packet? = some pk := by
  rcases List.mem_or_eq_of_mem_set hd' with hd' | rfl
  · exact ⟨d', hd', hpk⟩
  · exact ⟨d, List.mem_of_getElem? hk, he pk hpk⟩

private theorem inv_deliver (h : s.Inv cfg) (k : ℕ) (full : Bool) :
    (s.step cfg (.deliver k full)).Inv cfg := by
  simp only [step, delivered]
  cases hk : s.deliveries[k]? with
  | none => exact h
  | some d =>
    have hd : d ∈ s.deliveries := List.mem_of_getElem? hk
    cases d with
    | persist pk =>
      obtain ⟨htype, hfree⟩ := h.deliveries _ hd pk rfl
      have hres : Resendable pk := ⟨by simp [htype], by simp [htype]⟩
      refine h.of_frame (hashInv_write h.redis hres) rfl rfl h.directed (fun _ _ hf => hf) rfl rfl
        (fun id hid => ⟨rfl, ?_⟩)
        (fun d' hd' q hq => packet?_of_mem_set (.enqueue pk) hk (fun _ hp => hp) hd' hq)
          fun _ hc => hc
      refine (lookup_write h.redis pk _).trans (if_neg fun heq => hfree ?_)
      have hids := congrArg Field.id heq
      rw [id_queueField, id_writeField] at hids
      exact hids ▸ hid
    | enqueue pk =>
      obtain ⟨-, hfree⟩ := h.deliveries _ hd pk rfl
      dsimp only
      split_ifs
      · refine h.of_frame h.redis rfl rfl (h.directed.deleteOutbound _) ?_ rfl rfl
          (fun id hid => ⟨?_, rfl⟩)
          (fun d' hd' q hq => packet?_of_mem_set (.undo pk) hk (fun _ hp => hp) hd' hq)
          fun _ hc => hc
        · intro f q hq
          rw [Inflight.flow_deleteOutbound] at hq
          split_ifs at hq
          exact hq
        · rw [Inflight.flow_deleteOutbound, if_neg]
          rintro ⟨⟩
          exact hfree hid
      · exact h.of_frame h.redis rfl rfl h.directed (fun _ _ hf => hf) rfl rfl
          (fun id hid => ⟨rfl, rfl⟩)
          (fun d' hd' q hq => packet?_of_mem_set .done hk (fun _ hp => by cases hp) hd' hq)
          fun _ hc => hc
    | undo pk =>
      obtain ⟨-, hfree⟩ := h.deliveries _ hd pk rfl
      refine h.of_frame (hashInv_delete h.redis _) rfl rfl h.directed (fun _ _ hf => hf) rfl rfl
        (fun id hid => ⟨rfl, ?_⟩)
        (fun d' hd' q hq => packet?_of_mem_set .done hk (fun _ hp => by cases hp) hd' hq)
        fun _ hc => hc
      refine (lookup_delete h.redis _ _).trans (if_neg fun hmem => hfree ?_)
      have hids := id_of_mem_deleteFields hmem
      rw [id_queueField] at hids
      exact hids ▸ hid
    | done => exact h

private theorem inv_complete (h : s.Inv cfg) : (s.step cfg .complete).Inv cfg := by
  cases hc : s.completing with
  | none => simpa only [step, hc] using h
  | some call =>
    simp only [step, hc]
    refine h.of_frame (hashInv_delete h.redis _) rfl rfl h.directed (fun _ _ hf => hf) rfl rfl
      (fun id hid => ⟨rfl, ?_⟩) (fun d hd q hq => ⟨d, hd, hq⟩) (by simp)
    exact (lookup_delete h.redis _ _).trans (if_neg (h.completing call hc id hid))

theorem inv_disconnect (h : s.Inv cfg) (hquiet : s.Quiet cfg .disconnect) :
    (s.step cfg .disconnect).Inv cfg := by
  refine ⟨h.redis, h.directed, h.packetID_le, ?_, ?_, h.message, fun id m hm => ?_, ?_,
    h.deliveries, h.completing⟩
  · rintro todo ⟨⟩
  · rintro todo ⟨⟩
  · have hsec := h.secured id m hm
    unfold Secured at hsec
    cases hs : s.stage with
    | offline =>
      rw [hs] at hsec
      exact hsec
    | clearing todo | resending todo => exact absurd (by simp [Resuming, hs]) hquiet
    | running =>
      rw [hs] at hsec
      exact hsec.2.2
  · exact fun _ hs => absurd rfl hs

theorem queueField_notMem_of_ackEffect (h : s.Inv cfg) (hconn : s.stage ≠ .offline)
    {memory : Inflight} {call : HookCall} (heffect : s.memory.AckEffect memory (some call))
    (hid : id ∈ s.outstanding) (hgoes : id ∈ memory.internal) :
    queueField cfg.schema id ∉ deleteFields cfg.schema call.pk call.dropped := by
  intro hmem
  have hids : id = call.pk.packetID := by
    rw [← id_queueField cfg.schema id]
    exact id_of_mem_deleteFields hmem
  cases heffect with
  | delivered pk hin hkey =>
    subst hids
    exact ((AList.mem_erase).1 hgoes).1 rfl
  | rejected hflow =>
    have hown := congrArg Field.id (h.directed _ _ hflow)
    rw [id_inflightFieldKey, ← hids] at hown
    exact ((AList.mem_erase).1 hgoes).1 hown.symm
  | received pk dropped htype hin =>
    subst hids
    cases hschema : cfg.schema with
    | legacy => exact h.receive hschema hconn _ hid hin
    | v2 =>
      -- a PUBREL concerns the flow of the client only
      rw [hschema] at hmem
      cases dropped <;>
        simp [deleteFields, queueField, inflightDroppedFieldKey, inflightCompletionFieldKey,
          isInboundInflightPacket, htype] at hmem

theorem inv_ack (h : s.Inv cfg) (a : Ack) : (s.step cfg (.ack a)).Inv cfg := by
  cases hs : s.stage with
  | offline => simpa only [step, hs] using h
  | clearing todo => simpa only [step, hs] using h
  | resending todo => simpa only [step, hs] using h
  | running =>
    cases hc : s.completing with
    | some call => simpa only [step, hs, hc] using h
    | none =>
      simp only [step, hs, hc]
      have hconn : s.stage ≠ .offline := by simp [hs]
      have heffect := s.memory.ackEffect_processAck a
      have hlook (id : ℕ) (m : Message) (hm : (s.acknowledged a).outstanding.lookup id = some m) :
          s.outstanding.lookup id = some m ∧ id ∈ (s.acknowledged a).delivering ∧
            id ∈ (s.acknowledged a).memory.internal := by
        rw [acknowledged, GoMap.lookup_foldl_erase] at hm
        split_ifs at hm with hended
        have hsec := h.secured id m hm
        simp only [Secured, hs] at hsec
        have hgoes : id ∈ (s.memory.processAck a).1.internal := by
          by_contra hnot
          exact hended (List.mem_filter.2 ⟨hsec.1, decide_eq_true hnot⟩)
        exact ⟨hm, List.mem_filter.2 ⟨hsec.1, decide_eq_true hgoes⟩, hgoes⟩
      have hsub (id : ℕ) (hid : id ∈ (s.acknowledged a).outstanding) :
          id ∈ s.outstanding ∧ id ∈ (s.acknowledged a).memory.internal := by
        obtain ⟨m, hm⟩ := GoMap.mem_iff_exists_lookup.1 hid
        obtain ⟨hold, -, hgoes⟩ := hlook id m hm
        exact ⟨GoMap.mem_iff_exists_lookup.2 ⟨m, hold⟩, hgoes⟩
      refine ⟨h.redis, h.directed.ackEffect heffect, h.packetID_le, ?_, ?_,
        fun id m hm => h.message id m (hlook id m hm).1, fun id m hm => ?_,
        fun hl _ id hid hrecv => ?_,
        fun d hd pk hpk => ⟨(h.deliveries d hd pk hpk).1, fun hin => ?_⟩,
        fun call hcall id hid => ?_⟩
      · exact fun todo hstage => absurd (hs.symm.trans hstage) (by simp)
      · exact fun todo hstage => h.todoResendable todo hstage
      · obtain ⟨hold, hdel, hgoes⟩ := hlook id m hm
        have hsec := h.secured id m hold
        simp only [Secured, hs] at hsec
        have hstage : (s.acknowledged a).stage = .running := hs
        simp only [Secured, hstage]
        exact ⟨hdel, hgoes, hsec.2.2⟩
      · exact h.receive hl hconn id (hsub id hid).1 (heffect.mem_receive hrecv)
      · exact (h.deliveries d hd pk hpk).2 (hsub _ hin).1
      · have hcall : (s.memory.processAck a).2 = some call := hcall
        rw [hcall] at heffect
        exact queueField_notMem_of_ackEffect h hconn heffect (hsub id hid).1 (hsub id hid).2

/-- Every quiet step keeps the invariant. -/
theorem inv_step (h : s.Inv cfg) (e : LiveEvent) (hquiet : s.Quiet cfg e) :
    (s.step cfg e).Inv cfg := by
  cases e with
  | queue e he => exact inv_queue h he hquiet
  | resume copy hdir => exact inv_resume h hdir hquiet
  | clear => exact inv_clear h
  | resend => exact inv_resend h
  | publish pk => exact inv_publish h pk hquiet
  | deliver k full => exact inv_deliver h k full
  | ack a => exact inv_ack h a
  | complete => exact inv_complete h
  | disconnect => exact inv_disconnect h hquiet

/-! ### Runs -/

/-- No resume finds an unacknowledged queued message. -/
def NoneInherited (s : LiveState) : LiveEvent → Prop
  | .resume _ _ => ∀ id, id ∉ s.outstanding
  | _ => True

theorem Inv.stored_or_carried (h : s.Inv cfg) (hm : s.outstanding.lookup id = some m) :
    s.Stored cfg id m ∨ (s.Resuming ∧ s.Carried id m) := by
  have hsec := h.secured id m hm
  unfold Secured at hsec
  cases hs : s.stage with
  | offline =>
    rw [hs] at hsec
    exact Or.inl hsec
  | clearing todo =>
    rw [hs] at hsec
    exact Or.inr ⟨by simp [Resuming, hs], hsec.2⟩
  | resending todo =>
    rw [hs] at hsec
    exact Or.inr ⟨by simp [Resuming, hs], hsec.2.1⟩
  | running =>
    rw [hs] at hsec
    exact Or.inl hsec.2.2

theorem resuming_of_step {e : LiveEvent} (h : (s.step cfg e).Resuming)
    (hqueue : ∀ e' he, e ≠ .queue e' he) (hresume : ∀ copy hdir, e ≠ .resume copy hdir) :
    s.Resuming ∧ (s.step cfg e).outstanding = s.outstanding := by
  cases e with
  | queue e he => exact absurd rfl (hqueue e he)
  | resume copy hdir => exact absurd rfl (hresume copy hdir)
  | clear =>
    cases hs : s.stage with
    | clearing todo =>
      refine ⟨by simp [Resuming, hs], ?_⟩
      cases todo with
      | nil => simp only [step, hs]
      | cons pk todo =>
        simp only [step, hs]
        rfl
    | _ =>
      simp only [step, hs] at h ⊢
      exact ⟨h, trivial⟩
  | resend =>
    cases hs : s.stage with
    | resending todo =>
      refine ⟨by simp [Resuming, hs], ?_⟩
      cases todo <;> cases hc : s.completing <;> simp only [step, hs, hc]
      split_ifs <;> rfl
    | _ =>
      simp only [step, hs] at h ⊢
      exact ⟨h, trivial⟩
  | publish pk =>
    have hframe : (s.published cfg pk).stage = s.stage ∧
        (s.published cfg pk).outstanding = s.outstanding := by
      unfold published
      split <;> exact ⟨rfl, rfl⟩
    have hres : (s.published cfg pk).Resuming = s.Resuming := by simp only [Resuming, hframe.1]
    cases hs : s.stage with
    | clearing todo =>
      simp only [step, hs] at h ⊢
      exact ⟨h, trivial⟩
    | _ =>
      simp only [step, hs, hres, hframe.2] at h ⊢
      exact ⟨h, trivial⟩
  | deliver k full =>
    have hframe : (s.delivered cfg k full).stage = s.stage ∧
        (s.delivered cfg k full).outstanding = s.outstanding := by
      unfold delivered
      split
      · exact ⟨rfl, rfl⟩
      · split_ifs <;> exact ⟨rfl, rfl⟩
      · exact ⟨rfl, rfl⟩
      · exact ⟨rfl, rfl⟩
    simp only [step, Resuming, hframe] at h ⊢
    exact ⟨h, trivial⟩
  | ack a =>
    cases hs : s.stage with
    | running =>
      cases hc : s.completing <;>
        simp [step, hs, hc, Resuming, acknowledged] at h
    | _ =>
      simp only [step, hs] at h ⊢
      exact ⟨h, trivial⟩
  | complete =>
    cases hc : s.completing with
    | none =>
      simp only [step, hc] at h ⊢
      exact ⟨h, trivial⟩
    | some call =>
      simp only [step, hc] at h ⊢
      exact ⟨h, rfl⟩
  | disconnect => simp [step, Resuming] at h

theorem notMem_outstanding_step (hnone : s.Resuming → ∀ id, id ∉ s.outstanding) {e : LiveEvent}
    (hquiet : s.Quiet cfg e) (hinherit : s.NoneInherited e) (hres : (s.step cfg e).Resuming) :
    ∀ id, id ∉ (s.step cfg e).outstanding := by
  by_cases hq : ∃ e' he, e = .queue e' he
  · obtain ⟨e', he, rfl⟩ := hq
    have hold : s.Resuming := hres
    cases hcom : s.queue.committed cfg.clientID e' with
    | none => simpa only [step, hcom] using hnone hold
    | some commit =>
      have hoff := (hquiet.2 (by simp [hcom])).1
      simp [Resuming, hoff] at hold
  by_cases hr : ∃ copy hdir, e = .resume copy hdir
  · obtain ⟨copy, hdir, rfl⟩ := hr
    exact hinherit
  obtain ⟨hold, hout⟩ := resuming_of_step hres (fun e' he heq => hq ⟨e', he, heq⟩)
    fun copy hdir heq => hr ⟨copy, hdir, heq⟩
  rw [hout]
  exact hnone hold

theorem inv_of_hashInv {q : QueueState} (hq : HashInv cfg q) : Inv cfg { queue := q } := by
  have hempty (id : ℕ) (m : Message) : (∅ : GoMap ℕ Message).lookup id ≠ some m := by simp
  refine ⟨hq, .empty, Nat.zero_le _, ?_, ?_, ?_, ?_, ?_, by simp, by simp⟩
  · rintro todo ⟨⟩
  · rintro todo ⟨⟩
  · exact fun id m hm => absurd hm (hempty id m)
  · exact fun id m hm => absurd hm (hempty id m)
  · exact fun _ hs => absurd rfl hs

/-- In a quiet run every unacknowledged queued message is in the hash, or a resume is under way and
has it in memory. If no resume ever finds such a message, it is in the hash all the time. -/
theorem always_kept_of_quiet {q : QueueState} (hq : HashInv cfg q) {es : List LiveEvent}
    (hquiet : Along (step cfg) (Quiet cfg) { queue := q } es) :
    Always (step cfg) (fun t => ∀ id m, t.outstanding.lookup id = some m →
      t.Stored cfg id m ∨ (t.Resuming ∧ t.Carried id m)) { queue := q } es ∧
    (Along (step cfg) NoneInherited { queue := q } es →
      Always (step cfg) (Kept cfg) { queue := q } es) := by
  have hinv := inv_of_hashInv hq
  constructor
  · have halways : Always (step cfg) (Inv cfg) { queue := q } es :=
      always_of_along (fun _ e h he => inv_step h e he) hinv hquiet
    exact halways.imp fun t ht id m hm => ht.stored_or_carried hm
  · intro hinherit
    have hstart : ∀ id, id ∉ (∅ : GoMap ℕ Message) := fun id => AList.notMem_empty id
    have halways : Always (step cfg)
        (fun t => t.Inv cfg ∧ (t.Resuming → ∀ id, id ∉ t.outstanding)) { queue := q } es :=
      always_of_along
        (fun _ e h he => ⟨inv_step h.1 e he.1, notMem_outstanding_step h.2 he.1 he.2⟩)
        ⟨hinv, fun _ => hstart⟩ (hquiet.and hinherit)
    refine halways.imp fun t ht id m hm => ?_
    rcases ht.1.stored_or_carried hm with hstored | ⟨hres, -⟩
    · exact hstored
    · exact absurd (GoMap.mem_iff_exists_lookup.2 ⟨m, hm⟩) (ht.2 hres id)

/-! ### Runs that are not quiet -/

/-- A client under schema 2. -/
def sensor : LiveConfig where
  clientID := QueueState.sensor
  schema := .v2

/-- The queue stores one message. -/
def enqueue : List LiveEvent :=
  .queue (.call QueueState.reading) rfl :: List.replicate 6 (.queue (.advance 0 0) rfl)

/-- The session resumes before the queue of another node, which still takes the client for offline,
stores a message, and then delivers a live message. Both get packet ID 1. -/
def collision : List LiveEvent :=
  [.resume {} .empty, .clear, .resend] ++ enqueue ++
    [.publish { type := .publish, packetID := 0, qos := 1, topicName := "live".toList },
      .deliver 0 false]

/-- The session resumes with a queued message and clears its old copy. -/
def takeover : List LiveEvent := enqueue ++ [.resume {} .empty, .clear]

/-- The live message replaces the queued one in the first run, and the resume removes it in the
second. -/
theorem not_always_kept :
    ¬ Always (step sensor) (Kept sensor) { queue := QueueState.fresh } collision ∧
    ¬ Always (step sensor) (Kept sensor) { queue := QueueState.fresh } takeover := by
  constructor
  · intro h
    have hlast := h.last 1 (marshalOfflineInflight QueueState.sensor 1 QueueState.reading.msg 0)
      (by decide +kernel)
    obtain ⟨n, hn, hsame⟩ := hlast
    have htopic : ((run (step sensor) { queue := QueueState.fresh } collision).hash.lookup
        (.outbound 1)).map Message.topicName = some "live".toList := by decide +kernel
    have hn : (run (step sensor) { queue := QueueState.fresh } collision).hash.lookup
      (.outbound 1) = some n := hn
    rw [hn] at htopic
    have htopic' : n.topicName = QueueState.reading.msg.topic := congrArg Packet.topicName hsame
    rw [Option.map_some, htopic'] at htopic
    exact absurd htopic (by decide)
  · intro h
    have hlast := h.last 1 (marshalOfflineInflight QueueState.sensor 1 QueueState.reading.msg 0)
      (by decide +kernel)
    obtain ⟨n, hn, -⟩ := hlast
    have hnone : (run (step sensor) { queue := QueueState.fresh } takeover).hash.lookup
      (queueField sensor.schema 1) = none := by decide +kernel
    rw [hnone] at hn
    cases hn

/-- A session that resumes with a queued message, delivers a live one and gets both
acknowledged. -/
def session : List LiveEvent :=
  enqueue ++ [.resume {} .empty, .clear, .clear, .resend, .resend,
    .publish { type := .publish, packetID := 0, qos := 1, topicName := "live".toList },
    .deliver 0 false, .deliver 0 false, .ack (.puback 1), .complete, .ack (.puback 2), .complete,
    .disconnect]

theorem hashInv_fresh : HashInv sensor QueueState.fresh where
  queue := ⟨fun h => absurd h (by decide), fun c hc => absurd hc List.not_mem_nil⟩
  schema := rfl
  own f m hm := by simp [QueueState.fresh] at hm
  resendable f m hm := by simp [QueueState.fresh] at hm

/-- A session that delivers a live message and ends, and a message that is queued afterwards. -/
def queuedLast : List LiveEvent :=
  [.resume {} .empty, .clear, .resend,
    .publish { type := .publish, packetID := 0, qos := 1, topicName := "live".toList },
    .deliver 0 false, .deliver 0 false, .ack (.puback 1), .complete, .disconnect] ++ enqueue

/-- The first run resumes with a queued message, which is in the hash or in memory all the time. In
the second one the queued message waits at the end, and nothing has inherited it. -/
theorem always_kept_of_quiet_session :
    (Along (step sensor) (Quiet sensor) { queue := QueueState.fresh } session ∧
      Always (step sensor) (fun t => ∀ id m, t.outstanding.lookup id = some m →
        t.Stored sensor id m ∨ (t.Resuming ∧ t.Carried id m)) { queue := QueueState.fresh }
        session) ∧
    (1 ∈ (run (step sensor) { queue := QueueState.fresh } queuedLast).outstanding ∧
      Always (step sensor) (Kept sensor) { queue := QueueState.fresh } queuedLast) := by
  have hquiet : Along (step sensor) (Quiet sensor) { queue := QueueState.fresh }
      session := by decide +kernel
  have hquietLast : Along (step sensor) (Quiet sensor) { queue := QueueState.fresh }
      queuedLast := by decide +kernel
  have hnone : Along (step sensor) NoneInherited { queue := QueueState.fresh } queuedLast := by
    refine ⟨fun id => AList.notMem_empty id, ?_⟩
    simp [enqueue, Along, NoneInherited]
  exact ⟨⟨hquiet, (always_kept_of_quiet hashInv_fresh hquiet).1⟩, by decide +kernel,
    (always_kept_of_quiet hashInv_fresh hquietLast).2 hnone⟩

end LiveState

end KeelGateway.Broker
