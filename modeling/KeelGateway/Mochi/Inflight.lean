import KeelGateway.Redis.Inflight
import Mathlib.Data.List.Sort

/-!
# The in-flight packets of a client in memory

The broker keeps the unfinished QoS flows of a client in two maps, one for the flows that the
broker started and one for those that the client started. Both are keyed by packet ID. The Redis
hash mirrors them through hooks: the functions below return the hook call that goes with a change
of the maps.

-/

namespace KeelGateway.Mochi

open Redis

/-- `Inflight`, without the quotas. -/
structure Inflight where
  internal : GoMap ℕ Packet := ∅
  receive : GoMap ℕ Packet := ∅

/-- `isInboundPacket`. -/
def isInboundPacket (pk : Packet) : Bool :=
  match pk.type with
  | .puback | .pubrec | .pubcomp => true
  | .reserved | .publish | .pubrel => false

namespace Inflight

/-- `Inflight.SetInbound`. -/
def setInbound (i : Inflight) (pk : Packet) : Inflight :=
  { i with receive := i.receive.insert pk.packetID pk }

/-- `Inflight.SetOutbound`. -/
def setOutbound (i : Inflight) (pk : Packet) : Inflight :=
  { i with internal := i.internal.insert pk.packetID pk }

/-- `Inflight.Set`. -/
def set (i : Inflight) (pk : Packet) : Inflight :=
  if isInboundPacket pk then i.setInbound pk else i.setOutbound pk

/-- `Inflight.DeleteInbound`. -/
def deleteInbound (i : Inflight) (id : ℕ) : Inflight := { i with receive := i.receive.erase id }

/-- `Inflight.DeleteOutbound`. -/
def deleteOutbound (i : Inflight) (id : ℕ) : Inflight := { i with internal := i.internal.erase id }

/-- `Inflight.DeletePacket`. -/
def deletePacket (i : Inflight) (pk : Packet) : Inflight :=
  if isInboundPacket pk then i.deleteInbound pk.packetID else i.deleteOutbound pk.packetID

/-- `Inflight.DeletePacket` finds the flow of the packet. -/
def hasPacket (i : Inflight) (pk : Packet) : Bool :=
  if isInboundPacket pk then pk.packetID ∈ i.receive else pk.packetID ∈ i.internal

/-- `Inflight.GetAll(false)`: all packets, the oldest first. Of a delivery and a flow of the client
with one packet ID and one time the delivery comes first here, where `sort.Slice` may choose. -/
def getAll (i : Inflight) : List Packet :=
  (i.internal.entries.map Sigma.snd ++ i.receive.entries.map Sigma.snd).mergeSort
    fun a b => a.created < b.created || (a.created = b.created && a.packetID ≤ b.packetID)

/-- `Inflight.NextImmediate`: the oldest delivery that waits for quota. -/
def nextImmediate (i : Inflight) : Option Packet :=
  (((i.internal.entries.map Sigma.snd).filter (·.expiry < 0)).mergeSort
    fun a b => a.created < b.created || (a.created = b.created && a.packetID ≤ b.packetID)).head?

/-- `Inflight.Set` for one packet after the other. -/
def setAll (i : Inflight) (pks : List Packet) : Inflight := pks.foldl set i

/-- The packet of the flow that a directional field stands for. -/
def flow (i : Inflight) : Field → Option Packet
  | .numeric _ => none
  | .inbound id => i.receive.lookup id
  | .outbound id => i.internal.lookup id

theorem flow_set (i : Inflight) (pk : Packet) (f : Field) :
    (i.set pk).flow f = if f = inflightFieldKey pk then some pk else i.flow f := by
  unfold set isInboundPacket inflightFieldKey
  cases pk.type <;> cases f <;> simp [flow, setInbound, setOutbound, GoMap.lookup_insert]

theorem flow_setInbound (i : Inflight) (pk : Packet) (f : Field) :
    (i.setInbound pk).flow f = if f = .inbound pk.packetID then some pk else i.flow f := by
  cases f <;> simp [flow, setInbound, GoMap.lookup_insert]

theorem flow_setOutbound (i : Inflight) (pk : Packet) (f : Field) :
    (i.setOutbound pk).flow f = if f = .outbound pk.packetID then some pk else i.flow f := by
  cases f <;> simp [flow, setOutbound, GoMap.lookup_insert]

theorem flow_deleteInbound (i : Inflight) (id : ℕ) (f : Field) :
    (i.deleteInbound id).flow f = if f = .inbound id then none else i.flow f := by
  cases f <;> simp [flow, deleteInbound, GoMap.lookup_erase]

theorem flow_deleteOutbound (i : Inflight) (id : ℕ) (f : Field) :
    (i.deleteOutbound id).flow f = if f = .outbound id then none else i.flow f := by
  cases f <;> simp [flow, deleteOutbound, GoMap.lookup_erase]

theorem flow_deletePacket (i : Inflight) (pk : Packet) (f : Field) :
    (i.deletePacket pk).flow f = if f = inflightFieldKey pk then none else i.flow f := by
  unfold deletePacket isInboundPacket inflightFieldKey
  cases pk.type <;> simp [flow_deleteInbound, flow_deleteOutbound]

variable {i : Inflight} {pk : Packet}

theorem hasPacket_iff : i.hasPacket pk = true ↔ ∃ q, i.flow (inflightFieldKey pk) = some q := by
  unfold hasPacket isInboundPacket inflightFieldKey
  cases pk.type <;> simp [flow, GoMap.mem_iff_exists_lookup]

theorem nextImmediate_eq_some (h : i.nextImmediate = some pk) :
    (∃ id, i.internal.lookup id = some pk) ∧ pk.expiry < 0 := by
  have hmem := List.mem_of_head? h
  simp only [List.mem_mergeSort, List.mem_filter, List.mem_map, decide_eq_true_eq] at hmem
  obtain ⟨⟨⟨id, q⟩, hrow, rfl⟩, hexpiry⟩ := hmem
  exact ⟨⟨id, GoMap.mem_entries.1 hrow⟩, hexpiry⟩

theorem nextImmediate_eq_none (h : i.nextImmediate = none) {id : ℕ}
    (hpk : i.internal.lookup id = some pk) : 0 ≤ pk.expiry := by
  rw [nextImmediate, List.head?_eq_none_iff] at h
  by_contra hneg
  have hmem : pk ∈ ((i.internal.entries.map Sigma.snd).filter (·.expiry < 0)) := by
    simp only [List.mem_filter, List.mem_map, decide_eq_true_eq]
    exact ⟨⟨⟨id, pk⟩, GoMap.mem_entries.2 hpk, rfl⟩, not_le.1 hneg⟩
  have hnil : pk ∈ ([] : List Packet) := by
    rw [← h]
    exact List.mem_mergeSort.2 hmem
  cases hnil

theorem flow_setAll_of_forall_ne (i : Inflight) {pks : List Packet} {f : Field}
    (h : ∀ pk ∈ pks, f ≠ inflightFieldKey pk) : (i.setAll pks).flow f = i.flow f := by
  unfold setAll
  induction pks generalizing i with
  | nil => rfl
  | cons pk pks ih =>
    rw [List.foldl_cons, ih _ fun q hq => h q (List.mem_cons_of_mem _ hq), flow_set,
      if_neg (h pk List.mem_cons_self)]

theorem flow_setAll_of_mem (i : Inflight) {pks : List Packet} (hmem : pk ∈ pks)
    (huniq : ∀ q ∈ pks, inflightFieldKey q = inflightFieldKey pk → q = pk) :
    (i.setAll pks).flow (inflightFieldKey pk) = some pk := by
  unfold setAll
  induction pks using List.reverseRecOn with
  | nil => simp at hmem
  | append_singleton pks q ih =>
    rw [List.foldl_append, List.foldl_cons, List.foldl_nil, flow_set]
    split_ifs with hq
    · rw [huniq q (by simp) hq.symm]
    · refine ih ?_ fun r hr => huniq r (List.mem_append_left _ hr)
      rcases List.mem_append.1 hmem with hmem | hmem
      · exact hmem
      · exact absurd (List.mem_singleton.1 hmem ▸ rfl) hq

theorem mem_getAll (i : Inflight) (pk : Packet) :
    pk ∈ i.getAll ↔ ∃ f, i.flow f = some pk := by
  have hentries (m : GoMap ℕ Packet) :
      pk ∈ m.entries.map Sigma.snd ↔ ∃ id, m.lookup id = some pk := by
    simp [AList.mem_lookup_iff, ← Option.mem_def]
  simp only [getAll, List.mem_mergeSort, List.mem_append, hentries]
  constructor
  · rintro (⟨id, h⟩ | ⟨id, h⟩)
    · exact ⟨.outbound id, h⟩
    · exact ⟨.inbound id, h⟩
  · rintro ⟨f, h⟩
    cases f with
    | numeric id => cases h
    | inbound id => exact Or.inr ⟨id, h⟩
    | outbound id => exact Or.inl ⟨id, h⟩

/-- `Client.NextPacketID`: the search goes up from the last ID, starts over after the largest one
and ends where it began. Only packets in memory count as used. -/
def nextPacketID (i : Inflight) (last : ℕ) : Option ℕ :=
  (List.range' (last + 1) (65535 - last) ++ List.range' 1 last).find? (· ∉ i.internal)

end Inflight

/-! ### Publishing -/

/-- How a stored packet leaves `publishToClientMode`. -/
inductive SendOutcome where
  | waits
  | undone
  | taken
  deriving DecidableEq

namespace Inflight

/-- `publishToClientMode` up to the packet ID, for a message of QoS 1 or 2; `last` is the ID that
was given out last. -/
def outgoing (i : Inflight) (maximumInflight last : ℕ) (pk : Packet) : Option Packet :=
  if maximumInflight ≤ i.internal.entries.length then none
  else
    (i.nextPacketID last).map fun id =>
      { pk with type := .publish, packetID := id, inboundFlow := false }

/-- `publishToClientMode` from the packet ID on, for memory and a store; `publish` and `drop` are
the hooks `OnQosPublishResult` and `OnQosDroppedResult`. -/
def sent {σ : Type} (publish drop : σ → Packet → σ) (i : Inflight) (store : σ) (out : Packet) :
    SendOutcome → Inflight × σ
  | .waits => ((i.setOutbound out).setOutbound { out with expiry := -1 }, publish store out)
  | .undone => ((i.setOutbound out).deleteOutbound out.packetID, drop (publish store out) out)
  | .taken => (i.setOutbound out, publish store out)

/-- `processPublish` looks for a flow of the packet ID. A PUBREC says that the ID is in use, any
other packet is removed. -/
def acceptInbound (i : Inflight) (id : ℕ) : Option Inflight :=
  match i.receive.lookup id with
  | none => some i
  | some pki => if pki.type = .pubrec then none else some (i.deleteInbound id)

variable {i : Inflight} {pk : Packet}

variable {maximumInflight last : ℕ} {out : Packet}

theorem type_of_outgoing (h : i.outgoing maximumInflight last pk = some out) :
    out.type = .publish := by
  unfold outgoing at h
  split_ifs at h
  obtain ⟨id, -, rfl⟩ := Option.map_eq_some_iff.1 h
  rfl

theorem packetID_of_outgoing (hlast : last ≤ 65535)
    (h : i.outgoing maximumInflight last pk = some out) :
    out.packetID ≤ 65535 ∧ out.packetID ∉ i.internal := by
  unfold outgoing at h
  split_ifs at h
  obtain ⟨id, hid, rfl⟩ := Option.map_eq_some_iff.1 h
  have hmem := List.mem_of_find?_eq_some hid
  have hfree := List.find?_some hid
  simp only [List.mem_append, List.mem_range'_1] at hmem
  exact ⟨by dsimp only; omega, by simpa using hfree⟩

end Inflight

/-! ### Resending -/

/-- A resent PUBLISH has the DUP flag. -/
def resent (pk : Packet) : Packet := if pk.type = .publish then { pk with dup := true } else pk

/-- The resend loop does not complete the flow of the packet. -/
def Resendable (pk : Packet) : Prop := pk.type ≠ .puback ∧ pk.type ≠ .pubcomp

instance (pk : Packet) : Decidable (Resendable pk) := inferInstanceAs (Decidable (_ ∧ _))

theorem resendable_of_outbound {pk : Packet} {id : ℕ} (h : inflightFieldKey pk = .outbound id) :
    Resendable pk := by
  unfold inflightFieldKey at h
  constructor <;> intro htype <;> simp [htype] at h

theorem writeField_resent (schema : Schema) (pk : Packet) :
    writeField schema (resent pk) = writeField schema pk := by
  unfold resent
  split_ifs <;> cases schema <;> rfl

theorem inflightFieldKey_resent (pk : Packet) :
    inflightFieldKey (resent pk) = inflightFieldKey pk :=
  writeField_resent .v2 pk

theorem type_resent (pk : Packet) : (resent pk).type = pk.type := by
  unfold resent
  split_ifs <;> rfl

/-! ### Acknowledgements -/

/-- A call of `OnQosComplete` or, for a dropped packet, of `OnQosDropped`. -/
structure HookCall where
  pk : Packet
  dropped : Bool
  deriving DecidableEq

/-- `Server.buildAck`. The expiry time is left out: it is positive, and it only counts for packets
with a protocol version. -/
def buildAck (packetID : ℕ) (type : PacketType) (qos : ℕ) (now : ℤ) : Packet where
  type := type
  packetID := packetID
  qos := qos
  created := now

/-- An acknowledgement of the client, with what the broker meets when it handles it. -/
inductive Ack where
  | puback (id : ℕ)
  /-- `refused`: the reason code is an error or not valid. -/
  | pubrec (id : ℕ) (refused : Bool) (now : ℤ)
  /-- `writeFails`: the PUBCOMP cannot be written to the connection. -/
  | pubrel (id : ℕ) (refused writeFails : Bool) (now : ℤ)
  | pubcomp (id : ℕ)

namespace Inflight

variable (i : Inflight) (pk : Packet)

/-- `Server.processPuback`. -/
def processPuback : Inflight × Option HookCall :=
  if pk.packetID ∈ i.internal then (i.deleteOutbound pk.packetID, some ⟨pk, false⟩) else (i, none)

/-- `Server.processPubrec`. A refusal ends the flow, otherwise its packet becomes the PUBREL. -/
def processPubrec (refused : Bool) (now : ℤ) : Inflight × Option HookCall :=
  match i.internal.lookup pk.packetID with
  | none => (i, none)
  | some pki =>
    if refused then (i.deleteOutbound pk.packetID, some ⟨pki, true⟩)
    else (i.setOutbound (buildAck pk.packetID .pubrel 1 now), none)

/-- `Server.processPubrel`. When the PUBCOMP cannot be written it stays in memory. -/
def processPubrel (refused writeFails : Bool) (now : ℤ) : Inflight × Option HookCall :=
  if pk.packetID ∈ i.receive then
    if refused then (i.deleteInbound pk.packetID, some ⟨pk, true⟩)
    else if writeFails then (i.setInbound (buildAck pk.packetID .pubcomp 0 now), none)
    else (i.deleteInbound pk.packetID, some ⟨pk, false⟩)
  else (i, none)

/-- `Server.processPubcomp`. -/
def processPubcomp : Inflight × Option HookCall :=
  if pk.packetID ∈ i.internal then (i.deleteOutbound pk.packetID, some ⟨pk, false⟩) else (i, none)

/-- The acknowledgement cases of `Server.processPacket`. -/
def processAck : Ack → Inflight × Option HookCall
  | .puback id => i.processPuback { type := .puback, packetID := id }
  | .pubrec id refused now => i.processPubrec { type := .pubrec, packetID := id } refused now
  | .pubrel id refused writeFails now =>
    i.processPubrel { type := .pubrel, packetID := id } refused writeFails now
  | .pubcomp id => i.processPubcomp { type := .pubcomp, packetID := id }

/-- What an acknowledgement can do to the maps, and the hook call that goes with it. -/
inductive AckEffect : Inflight → Option HookCall → Prop
  | ignored : AckEffect i none
  /-- A PUBACK or PUBCOMP ends a delivery. -/
  | delivered (pk : Packet) (hmem : pk.packetID ∈ i.internal)
      (hkey : inflightCompletionFieldKey pk = .outbound pk.packetID) :
      AckEffect (i.deleteOutbound pk.packetID) (some ⟨pk, false⟩)
  /-- A PUBREC with an error ends a delivery; the hook gets the packet in memory. -/
  | rejected {id : ℕ} {pk : Packet} (hflow : i.flow (.outbound id) = some pk) :
      AckEffect (i.deleteOutbound id) (some ⟨pk, true⟩)
  /-- A PUBREC replaces the packet of a delivery by the PUBREL. -/
  | released (pk : Packet) (htype : pk.type = .pubrel) (hmem : pk.packetID ∈ i.internal) :
      AckEffect (i.setOutbound pk) none
  /-- A PUBREL ends a flow of the client. -/
  | received (pk : Packet) (dropped : Bool) (htype : pk.type = .pubrel)
      (hmem : pk.packetID ∈ i.receive) :
      AckEffect (i.deleteInbound pk.packetID) (some ⟨pk, dropped⟩)
  /-- The PUBCOMP was not written. -/
  | unwritten (pk : Packet) (htype : pk.type = .pubcomp) (hmem : pk.packetID ∈ i.receive) :
      AckEffect (i.setInbound pk) none

theorem ackEffect_processAck (a : Ack) : i.AckEffect (i.processAck a).1 (i.processAck a).2 := by
  cases a with
  | puback id =>
    dsimp only [processAck, processPuback]
    split_ifs with hmem
    · exact .delivered { type := .puback, packetID := id } hmem rfl
    · exact .ignored
  | pubrec id refused now =>
    dsimp only [processAck, processPubrec]
    cases hflow : i.internal.lookup id with
    | none => exact .ignored
    | some pki =>
      split_ifs
      · exact .rejected hflow
      · exact .released _ rfl (GoMap.mem_iff_exists_lookup.2 ⟨pki, hflow⟩)
  | pubrel id refused writeFails now =>
    dsimp only [processAck, processPubrel]
    split_ifs with hmem
    · exact .received { type := .pubrel, packetID := id } true rfl hmem
    · exact .unwritten _ rfl hmem
    · exact .received { type := .pubrel, packetID := id } false rfl hmem
    · exact .ignored
  | pubcomp id =>
    dsimp only [processAck, processPubcomp]
    split_ifs with hmem
    · exact .delivered { type := .pubcomp, packetID := id } hmem rfl
    · exact .ignored

variable {j : Inflight}

theorem AckEffect.mem_receive {i : Inflight} {call : Option HookCall} (h : i.AckEffect j call)
    {id : ℕ} (hid : id ∈ j.receive) : id ∈ i.receive := by
  cases h with
  | ignored => exact hid
  | delivered pk hmem hkey => exact hid
  | rejected hflow => exact hid
  | released pk htype hmem => exact hid
  | received pk dropped htype hmem => exact ((AList.mem_erase).1 hid).2
  | unwritten pk htype hmem =>
    rcases (AList.mem_insert _).1 hid with rfl | hid
    · exact hmem
    · exact hid

/-- Every packet is in the map of its direction, under its own ID. -/
def Directed : Prop := ∀ f pk, i.flow f = some pk → f = inflightFieldKey pk

variable {i} {pk}

namespace Directed

theorem empty : ({} : Inflight).Directed := by
  intro f pk hpk
  cases f <;> simp [Inflight.flow] at hpk

theorem set (h : i.Directed) (pk : Packet) : (i.set pk).Directed := by
  intro f q hq
  rw [flow_set] at hq
  split_ifs at hq with hf
  · cases hq
    exact hf
  · exact h f q hq

theorem setInbound (h : i.Directed) (hpk : isInboundPacket pk = true) :
    (i.setInbound pk).Directed := by
  have hset := h.set pk
  rwa [Inflight.set, if_pos hpk] at hset

theorem setOutbound (h : i.Directed) (hpk : isInboundPacket pk = false) :
    (i.setOutbound pk).Directed := by
  have hset := h.set pk
  rwa [Inflight.set, if_neg (by simp [hpk])] at hset

theorem setAll (h : i.Directed) (pks : List Packet) : (i.setAll pks).Directed := by
  induction pks generalizing i with
  | nil => exact h
  | cons pk pks ih => exact ih (h.set pk)

theorem deleteInbound (h : i.Directed) (id : ℕ) : (i.deleteInbound id).Directed := by
  intro f q hq
  rw [flow_deleteInbound] at hq
  split_ifs at hq
  exact h f q hq

theorem deleteOutbound (h : i.Directed) (id : ℕ) : (i.deleteOutbound id).Directed := by
  intro f q hq
  rw [flow_deleteOutbound] at hq
  split_ifs at hq
  exact h f q hq

theorem eq_of_key_eq (h : i.Directed) {f g : Field} {p q : Packet} (hp : i.flow f = some p)
    (hq : i.flow g = some q) (heq : inflightFieldKey p = inflightFieldKey q) : p = q := by
  have hfg : f = g := (h f p hp).trans (heq.trans (h g q hq).symm)
  rw [hfg, hq] at hp
  exact (Option.some.inj hp).symm

theorem ackEffect (h : i.Directed) {j : Inflight} {call : Option HookCall}
    (heffect : i.AckEffect j call) : j.Directed := by
  cases heffect with
  | ignored => exact h
  | delivered pk hmem hkey => exact h.deleteOutbound _
  | rejected hflow => exact h.deleteOutbound _
  | released pk htype hmem => exact h.setOutbound (by simp [isInboundPacket, htype])
  | received pk dropped htype hmem => exact h.deleteInbound _
  | unwritten pk htype hmem => exact h.setInbound (by simp [isInboundPacket, htype])

end Directed

/-- A PUBREC with an error that comes after the PUBREL is out is deleted from Redis as a flow of the
client. It does no harm if the client has no flow of that ID. -/
def DropsOwnFlow (i : Inflight) : Ack → Prop
  | .pubrec id true _ => (i.internal.lookup id).map Packet.type = some .pubrel → id ∉ i.receive
  | _ => True

instance (i : Inflight) : (a : Ack) → Decidable (i.DropsOwnFlow a)
  | .pubrec _ true _ => inferInstanceAs (Decidable (_ → _))
  | .pubrec _ false _ | .puback _ | .pubrel _ _ _ _ | .pubcomp _ => isTrue trivial

theorem flow_of_mem_deleteFields (hdir : i.Directed) {a : Ack} (hown : i.DropsOwnFlow a)
    {call : HookCall} (hcall : (i.processAck a).2 = some call) {f : Field}
    (hf : f ∈ deleteFields .v2 call.pk call.dropped) : (i.processAck a).1.flow f = none := by
  simp only [deleteFields, List.mem_cons, List.not_mem_nil, or_false] at hf
  rcases hf with rfl | rfl
  · cases a with
    | puback id =>
      dsimp only [processAck, processPuback] at hcall ⊢
      by_cases hmem : id ∈ i.internal
      · rw [if_pos hmem] at hcall ⊢
        cases hcall
        simp [inflightCompletionFieldKey, flow_deleteOutbound]
      · rw [if_neg hmem] at hcall
        cases hcall
    | pubrec id refused now =>
      dsimp only [processAck, processPubrec] at hcall ⊢
      cases hflow : i.internal.lookup id with
      | none => simp [hflow] at hcall
      | some pki =>
        cases refused with
        | false => simp [hflow] at hcall
        | true =>
          obtain rfl : ⟨pki, true⟩ = call := by simpa [hflow] using hcall
          have hkey : Field.outbound id = inflightFieldKey pki := hdir (.outbound id) pki hflow
          have hid : pki.packetID = id := by
            rw [← id_inflightFieldKey, ← hkey]
            rfl
          have hfree := hown
          simp only [DropsOwnFlow, hflow, Option.map_some, Option.some.injEq] at hfree
          unfold inflightFieldKey at hkey
          unfold inflightDroppedFieldKey isInboundInflightPacket
          cases htype : pki.type with
          | pubrel =>
            -- memory has no flow of the client under this ID
            simp only [hid, if_true, flow_deleteOutbound, reduceCtorEq]
            exact AList.lookup_eq_none.2 (hfree htype)
          | reserved | publish => simp [flow_deleteOutbound, hid]
          | _ => simp [htype] at hkey
    | pubrel id refused writeFails now =>
      dsimp only [processAck, processPubrel] at hcall ⊢
      split_ifs at hcall ⊢
      all_goals
        cases hcall
        simp [inflightCompletionFieldKey, inflightDroppedFieldKey, isInboundInflightPacket,
          flow_deleteInbound]
    | pubcomp id =>
      dsimp only [processAck, processPubcomp] at hcall ⊢
      by_cases hmem : id ∈ i.internal
      · rw [if_pos hmem] at hcall ⊢
        cases hcall
        simp [inflightCompletionFieldKey, flow_deleteOutbound]
      · rw [if_neg hmem] at hcall
        cases hcall
  · rfl

theorem AckEffect.flow_of_flow {call : Option HookCall} (h : i.AckEffect j call) {f : Field}
    {pk : Packet} (hpk : j.flow f = some pk) : ∃ old, i.flow f = some old := by
  cases h with
  | ignored => exact ⟨pk, hpk⟩
  | delivered q hmem hkey | rejected hflow =>
    rw [flow_deleteOutbound] at hpk
    split_ifs at hpk
    exact ⟨pk, hpk⟩
  | released q htype hmem =>
    rw [flow_setOutbound] at hpk
    split_ifs at hpk with hf
    · exact hf ▸ GoMap.mem_iff_exists_lookup.1 hmem
    · exact ⟨pk, hpk⟩
  | received q dropped htype hmem =>
    rw [flow_deleteInbound] at hpk
    split_ifs at hpk
    exact ⟨pk, hpk⟩
  | unwritten q htype hmem =>
    rw [flow_setInbound] at hpk
    split_ifs at hpk with hf
    · exact hf ▸ GoMap.mem_iff_exists_lookup.1 hmem
    · exact ⟨pk, hpk⟩

theorem AckEffect.exists_ended (hdir : i.Directed) {call : HookCall}
    (h : i.AckEffect j (some call)) :
    ∃ f pk, i.flow f = some pk ∧ j.flow f = none ∧ f.id = call.pk.packetID := by
  cases h with
  | delivered q hmem hkey =>
    obtain ⟨pk, hpk⟩ := GoMap.mem_iff_exists_lookup.1 hmem
    exact ⟨.outbound q.packetID, pk, hpk, by simp [flow_deleteOutbound], rfl⟩
  | @rejected id q hflow =>
    refine ⟨.outbound id, q, hflow, by simp [flow_deleteOutbound], ?_⟩
    rw [hdir _ _ hflow, id_inflightFieldKey]
  | received q dropped htype hmem =>
    obtain ⟨pk, hpk⟩ := GoMap.mem_iff_exists_lookup.1 hmem
    exact ⟨.inbound q.packetID, pk, hpk, by simp [flow_deleteInbound], rfl⟩

end Inflight

end KeelGateway.Mochi
