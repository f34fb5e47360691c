import KeelGateway.Broker.QueuedMessages
import KeelGateway.Broker.SessionResume
import KeelGateway.Redis.LegacyFields

/-!
# A resume that fails half way

When a connection inherits a session, the broker clears the packets in flight of the old client
object, and the hook deletes each of them from Redis. They are written again one by one while they
are sent to the client. If the CONNACK cannot be written, or one of the packets cannot, the attempt
ends there: nothing restores what has not been written again.

-/

namespace KeelGateway.Broker

open Redis Mochi

/-- The points at which `attachClient` fails after `inheritClientSession`. -/
inductive AttachError where
  | connack
  | resend (i : ℕ)
  deriving DecidableEq

/-- The number of packets that `OnQosPublish` has seen before the attempt ends. The hook runs before
the packet is sent. -/
def AttachError.hooked : AttachError → ℕ
  | .connack => 0
  | .resend i => i + 1

namespace SessionState

variable (cfg : SessionConfig)

/-- The packets in flight of the new client object, in the order in which they are sent again. -/
def inheritedPackets (s : SessionState) (node : Text) : List Packet :=
  (s.inherited cfg node).inflight.getAll

/-- The keys after an attempt that fails. -/
def failedKeys (s : SessionState) (node : Text) (e : AttachError) : Keys :=
  let pks := s.inheritedPackets cfg node
  let keys := cleared cfg (s.readKeys cfg node) pks
  match e with
  | .connack => keys
  | .resend i =>
    let keys := (resendAll cfg (s.inherited cfg node).inflight keys (pks.take i)).2
    match pks[i]? with
    | none => keys
    | some pk => keys.liveWrite cfg.clientID cfg.schema (resent pk) pk.created

/-- Every message that could be read before the attempt is still in the hash, whatever its DUP
flag. -/
def KeptAfter (s : SessionState) (node : Text) (e : AttachError) : Prop :=
  ∀ ms, (storedInflightForClient cfg.schema s.ifm).2 = some ms → ∀ m ∈ ms,
    ∃ f n, (s.failedKeys cfg node e).hash.value.lookup f = some n ∧ SameMessage n.toPacket m

/-- A session that the connection has inherited: its messages sit in their own fields when they have
been read, a client object that was still connected has them all, the new one has at most one packet
for every field, and no packet in flight is an acknowledgement that was left unsent. -/
structure Resumable (s : SessionState) (node : Text) : Prop where
  schema : (s.readKeys cfg node).marker.value.fence? = some cfg.schema
  own : OwnField cfg.schema (s.readKeys cfg node).hash.value
  inherited : s.here = some node → ∀ f m, (s.readKeys cfg node).hash.value.lookup f = some m →
    m.toPacket ∈ s.inheritedPackets cfg node
  single : ∀ p ∈ s.inheritedPackets cfg node, ∀ q ∈ s.inheritedPackets cfg node,
    writeField cfg.schema p = writeField cfg.schema q → p = q
  resendable : ∀ pk ∈ s.inheritedPackets cfg node, Resendable pk

variable {cfg}

/-! ### The two loops -/

theorem lookup_resendAll {k : Keys} (h : k.marker.value.fence? = some cfg.schema)
    (inflight : Inflight) {pks : List Packet} (hpks : ∀ pk ∈ pks, Resendable pk) (f : Field) :
    (resendAll cfg inflight k pks).2.marker = k.marker ∧
    (resendAll cfg inflight k pks).2.hash.value.lookup f =
      match (pks.filter (writeField cfg.schema · = f)).getLast? with
      | none => k.hash.value.lookup f
      | some pk => some ((resent pk).toMessage cfg.clientID pk.created) := by
  induction pks using List.reverseRecOn with
  | nil => exact ⟨rfl, rfl⟩
  | append_singleton pks q ih =>
    obtain ⟨hmarker, hlookup⟩ := ih fun pk hpk => hpks pk (List.mem_append_left _ hpk)
    have hif : ¬ (q.type = .puback ∨ q.type = .pubcomp) := not_or.2 (hpks q (by simp))
    have hlast : (resendAll cfg inflight k (pks ++ [q])).2 =
        (resendAll cfg inflight k pks).2.liveWrite cfg.clientID cfg.schema
          (resent q) q.created := by
      simp only [resendAll, List.foldl_append, List.foldl_cons, List.foldl_nil]
      rw [resendOne, if_neg hif]
    have hschema : (resendAll cfg inflight k pks).2.marker.value.fence? = some cfg.schema := by
      rw [hmarker]
      exact h
    rw [hlast]
    refine ⟨(Keys.marker_liveWrite _ _ _ _).trans hmarker, ?_⟩
    rw [Keys.lookup_liveWrite hschema, writeField_resent, hlookup]
    by_cases hq : writeField cfg.schema q = f
    · simp [hq]
    · simp [hq, Ne.symm hq]

section Failed

variable {s : SessionState} {node : Text}

theorem failedKeys_eq (h : ∀ pk ∈ s.inheritedPackets cfg node, Resendable pk) (e : AttachError) :
    s.failedKeys cfg node e = (resendAll cfg (s.inherited cfg node).inflight
      (cleared cfg (s.readKeys cfg node) (s.inheritedPackets cfg node))
      ((s.inheritedPackets cfg node).take e.hooked)).2 := by
  cases e with
  | connack => rfl
  | resend i =>
    simp only [failedKeys, AttachError.hooked, List.take_add_one]
    cases hi : (s.inheritedPackets cfg node)[i]? with
    | none => simp
    | some pk =>
      have hif : ¬ (pk.type = .puback ∨ pk.type = .pubcomp) :=
        not_or.2 (h pk (List.mem_of_getElem? hi))
      simp only [resendAll, Option.toList_some, List.foldl_append, List.foldl_cons, List.foldl_nil]
      rw [resendOne, if_neg hif]

theorem mem_stored_iff (h : OwnField cfg.schema (s.readKeys cfg node).hash.value) :
    ∃ ms, (storedInflightForClient cfg.schema s.ifm).2 = some ms ∧
      ∀ m, m ∈ ms ↔ ∃ f, (s.readKeys cfg node).hash.value.lookup f = some m := by
  obtain ⟨ms, hms, hmem⟩ := storedInflight_of_ownField h
  refine ⟨ms, ?_, hmem⟩
  unfold readKeys at h hms
  split_ifs at h hms with hhere
  · exact (getD_stored_eq h).2.trans hms
  · exact hms

theorem inflight_inherited (hhere : s.here ≠ some node)
    (hown : OwnField cfg.schema (s.readKeys cfg node).hash.value) :
    (s.inherited cfg node).inflight = (s.base node).setAll
      (((storedInflight cfg.schema (s.readKeys cfg node).hash.value).getD []).map
        Message.toPacket) := by
  obtain ⟨ms, hms, -⟩ := mem_stored_iff hown
  have hread : storedInflight cfg.schema (s.readKeys cfg node).hash.value = some ms := by
    rw [readKeys, if_neg hhere]
    exact hms
  rw [hread]
  unfold inherited Copy.inherit established base
  cases s.copies node <;> simp [hms, hhere]

theorem Resumable.mem_inherited (h : s.Resumable cfg node) {f : Field} {m : Message}
    (hm : (s.readKeys cfg node).hash.value.lookup f = some m) :
    m.toPacket ∈ s.inheritedPackets cfg node := by
  by_cases hhere : s.here = some node
  · exact h.inherited hhere f m hm
  · rw [inheritedPackets, Inflight.mem_getAll, inflight_inherited hhere h.own]
    exact ⟨_, flow_setAll_storedInflight h.own _ hm⟩

theorem writeField_mem_deleteFields {schema : Schema} {pk : Packet} :
    writeField schema pk ∈ deleteFields schema pk true ↔ ¬ (schema = .v2 ∧ pk.type = .pubrel) := by
  cases schema with
  | legacy => simp [writeField, deleteFields]
  | v2 =>
    cases htype : pk.type <;>
      simp [writeField, deleteFields, inflightFieldKey, inflightDroppedFieldKey,
        isInboundInflightPacket, htype]

theorem outbound_mem_deleteFields {id : ℕ} {pk : Packet}
    (h : Field.outbound id ∈ deleteFields .v2 pk true) : writeField .v2 pk = .outbound id := by
  simp only [writeField, deleteFields, inflightFieldKey, inflightDroppedFieldKey,
    isInboundInflightPacket] at h ⊢
  cases htype : pk.type <;> simp_all

theorem getLast?_filter_writeField (h : s.Resumable cfg node) {f : Field} {m : Message}
    (hm : (s.readKeys cfg node).hash.value.lookup f = some m) (n : ℕ) :
    (((s.inheritedPackets cfg node).take n).filter (writeField cfg.schema · = f)).getLast? =
      if m.toPacket ∈ (s.inheritedPackets cfg node).take n then some m.toPacket else none := by
  have hown := h.own f m hm
  have heq {pk : Packet} (hpk : pk ∈ ((s.inheritedPackets cfg node).take n).filter
      (writeField cfg.schema · = f)) :
      pk = m.toPacket ∧ pk ∈ (s.inheritedPackets cfg node).take n := by
    obtain ⟨hpk, hfield⟩ := List.mem_filter.1 hpk
    refine ⟨h.single _ (List.mem_of_mem_take hpk) _ (h.mem_inherited hm) ?_, hpk⟩
    exact (of_decide_eq_true hfield).trans hown
  cases hlast : (((s.inheritedPackets cfg node).take n).filter
      (writeField cfg.schema · = f)).getLast? with
  | none =>
    rw [if_neg]
    intro hmem
    have hnil := List.getLast?_eq_none_iff.1 hlast
    have hfilter : m.toPacket ∈ ((s.inheritedPackets cfg node).take n).filter
        (writeField cfg.schema · = f) := List.mem_filter.2 ⟨hmem, decide_eq_true hown.symm⟩
    rw [hnil] at hfilter
    cases hfilter
  | some pk =>
    obtain ⟨rfl, hmem⟩ := heq (List.mem_of_getLast? hlast)
    rw [if_pos hmem]

theorem lookup_failedKeys (h : s.Resumable cfg node) (e : AttachError) (f : Field) :
    (s.failedKeys cfg node e).hash.value.lookup f =
      match (((s.inheritedPackets cfg node).take e.hooked).filter
        (writeField cfg.schema · = f)).getLast? with
      | none =>
        if ∃ pk ∈ s.inheritedPackets cfg node, f ∈ deleteFields cfg.schema pk true then none
        else (s.readKeys cfg node).hash.value.lookup f
      | some pk => some ((resent pk).toMessage cfg.clientID pk.created) := by
  have hmarker : (cleared cfg (s.readKeys cfg node)
      (s.inheritedPackets cfg node)).marker.value.fence? = some cfg.schema := by
    rw [marker_cleared]
    exact h.schema
  have hresend : ∀ pk ∈ (s.inheritedPackets cfg node).take e.hooked, Resendable pk :=
    fun pk hpk => h.resendable pk (List.mem_of_mem_take hpk)
  rw [failedKeys_eq h.resendable, (lookup_resendAll hmarker _ hresend f).2,
    lookup_cleared h.schema]

theorem writeField_congr {schema : Schema} {p q : Packet} (htype : p.type = q.type)
    (hid : p.packetID = q.packetID) : writeField schema p = writeField schema q := by
  cases schema with
  | legacy => exact congrArg Field.numeric hid
  | v2 => simp only [writeField, inflightFieldKey, htype, hid]

theorem ownField_failedKeys (h : s.Resumable cfg node) (e : AttachError) :
    OwnField cfg.schema (s.failedKeys cfg node e).hash.value := by
  intro f n hn
  rw [lookup_failedKeys h] at hn
  cases hlast : (((s.inheritedPackets cfg node).take e.hooked).filter
      (writeField cfg.schema · = f)).getLast? with
  | none =>
    simp only [hlast] at hn
    split_ifs at hn
    exact h.own f n hn
  | some pk =>
    simp only [hlast, Option.some.injEq] at hn
    subst hn
    have hfield := of_decide_eq_true (List.mem_filter.1 (List.mem_of_getLast? hlast)).2
    rw [← hfield, ← writeField_resent]
    exact writeField_congr rfl rfl

theorem ownField_readKeys (hhere : s.here ≠ some node) (hown : OwnID s.ifm)
    (hlegacy : cfg.schema = .legacy → ∀ f ∈ s.ifm, ∃ id, f = .numeric id) :
    OwnField cfg.schema (s.readKeys cfg node).hash.value := by
  rw [readKeys, if_neg hhere]
  cases hschema : cfg.schema with
  | legacy =>
    intro f m hm
    obtain ⟨id, rfl⟩ := hlegacy hschema f (GoMap.mem_iff_exists_lookup.2 ⟨m, hm⟩)
    exact congrArg Field.numeric (hown _ m hm).1.symm
  | v2 =>
    obtain ⟨hown', -, hnumeric⟩ := migrateLegacyInflightFields_spec hown
    intro f m hm
    have hdir : f.isDirectional = true := by
      cases f with
      | numeric id => exact absurd (GoMap.mem_iff_exists_lookup.2 ⟨m, hm⟩) (hnumeric id)
      | inbound id => rfl
      | outbound id => rfl
    exact ((hown' f m hm).2 hdir).symm

theorem resumable_of_noCopy (hcopy : s.copies node = none) (hhere : s.here ≠ some node)
    (hschema : s.keys.marker.value.fence? = some cfg.schema)
    (hown : OwnField cfg.schema (s.readKeys cfg node).hash.value)
    (htypes : ∀ f m, (s.readKeys cfg node).hash.value.lookup f = some m → Resendable m.toPacket) :
    s.Resumable cfg node := by
  have hinflight := inflight_inherited hhere hown
  rw [show s.base node = {} by rw [base, hcopy]; rfl] at hinflight
  have hmem {pk : Packet} (hpk : pk ∈ s.inheritedPackets cfg node) :
      ∃ f m, (s.readKeys cfg node).hash.value.lookup f = some m ∧ m.toPacket = pk := by
    rw [inheritedPackets, Inflight.mem_getAll, hinflight] at hpk
    obtain ⟨f, hf⟩ := hpk
    rcases flow_setAll_storedInflight_cases hown _ hf with ⟨g, m, hm, heq, -⟩ | hempty
    · exact ⟨g, m, hm, heq⟩
    · cases f <;> simp [Inflight.flow] at hempty
  refine ⟨?_, hown, fun h => absurd h hhere, fun p hp q hq hpq => ?_, fun pk hpk => ?_⟩
  · rw [readKeys, if_neg hhere]
    exact hschema
  · obtain ⟨f, m, hm, rfl⟩ := hmem hp
    obtain ⟨g, n, hn, rfl⟩ := hmem hq
    rw [hown.eq_of_writeField_eq hm hn hpq]
  · obtain ⟨f, m, hm, rfl⟩ := hmem hpk
    exact htypes f m hm

end Failed

/-- A delivery to the client "c". -/
def waiting : Message where
  client := ['c']
  type := .publish
  qos := 1
  topicName := ['t']
  payload := []
  created := 0
  packetID := 1

/-- The session of client "c" under schema 2. -/
def configC : SessionConfig where
  clientID := ['c']
  schema := .v2

/-- A session with one delivery, and no client object anywhere. -/
def waitingSession : SessionState where
  keys := ⟨⟨.valid .v2, 0⟩, ⟨AList.singleton (.outbound 1) waiting, 0⟩, ⟨some 1, 0⟩,
    fun _ => ⟨false, 0⟩⟩

private theorem resumable_waitingSession : waitingSession.Resumable configC ['n'] := by
  refine resumable_of_noCopy rfl (by decide) rfl (ownField_readKeys (by decide) ?_ ?_) ?_
  · decide +kernel
  · intro h
    cases h
  · decide +kernel

/-- Two deliveries and a released one, which is the latest. -/
def mixed : List Message :=
  [{ waiting with type := .pubrel, created := 2 }, { waiting with packetID := 2, created := 1 },
    { waiting with packetID := 3 }]

/-- A session with these messages. -/
def mixedSession : SessionState where
  keys := ⟨⟨.valid .v2, 0⟩, ⟨mixed.foldr (fun m hash => hash.insert (.outbound m.packetID) m) ∅, 0⟩,
    ⟨some 3, 0⟩, fun _ => ⟨false, 0⟩⟩

theorem resumable_mixedSession : mixedSession.Resumable configC ['n'] := by
  refine resumable_of_noCopy rfl (by decide) rfl (ownField_readKeys (by decide) ?_ ?_) ?_
  · decide +kernel
  · intro h
    cases h
  · decide +kernel

theorem inheritedPackets_mixedSession :
    mixedSession.inheritedPackets configC ['n'] = (mixed.map Message.toPacket).reverse := by
  have hread : storedInflight configC.schema (mixedSession.readKeys configC ['n']).hash.value =
      some mixed := by
    unfold storedInflight
    rw [List.mergeSort_of_pairwise (by decide +kernel)]
    decide +kernel
  rw [inheritedPackets, inflight_inherited (by decide) resumable_mixedSession.own, hread]
  exact List.mergeSort_of_pairwise (l := (mixed.map Message.toPacket).reverse) (by decide +kernel)

end SessionState

end KeelGateway.Broker
