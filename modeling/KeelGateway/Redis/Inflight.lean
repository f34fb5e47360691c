import KeelGateway.Text

/-!
# The in-flight hash of a client in Redis

Every client has a hash of its in-flight messages. Schema 1 names a field by the packet ID alone;
schema 2 puts the direction of the flow in front. A marker in Redis says which schema is in force,
and its absence means schema 1. Writers and deleters pass the schema they believe in, and a script
rejects them when the marker says otherwise.

-/

namespace KeelGateway.Redis

/-- The packet types that occur in a QoS flow. -/
inductive PacketType where
  /-- The zero value: the type of a packet that was made from its ID alone. -/
  | reserved
  | publish
  | puback
  | pubrec
  | pubrel
  | pubcomp
  deriving DecidableEq, Repr

/-- The part of `packets.Packet` that an in-flight flow carries. -/
structure Packet where
  type : PacketType
  packetID : ℕ
  qos : ℕ := 0
  dup : Bool := false
  retain : Bool := false
  topicName : Text := []
  payload : List UInt8 := []
  origin : Text := []
  created : ℤ := 0
  inboundFlow : Bool := false
  protocolVersion : ℕ := 0
  /-- When the message expires; zero if it does not, negative if it waits for send quota. -/
  expiry : ℤ := 0
  deriving DecidableEq

/-- A PUBACK of a flow that the client has started, which has no state. -/
def Packet.isInboundPuback (pk : Packet) : Bool := pk.inboundFlow && pk.type = .puback

/-- `storage.Message`: the record of an in-flight packet. -/
structure Message where
  client : Text
  origin : Text := []
  type : PacketType
  qos : ℕ
  dup : Bool := false
  retain : Bool := false
  topicName : Text
  payload : List UInt8
  sent : ℤ := 0
  created : ℤ
  packetID : ℕ
  deriving DecidableEq

/-- `Message.ToPacket`. -/
def Message.toPacket (m : Message) : Packet where
  type := m.type
  packetID := m.packetID
  qos := m.qos
  dup := m.dup
  retain := m.retain
  topicName := m.topicName
  payload := m.payload
  origin := m.origin
  created := m.created

/-- The record that `OnQosPublishResult` writes for a packet. -/
def Packet.toMessage (pk : Packet) (clientID : Text) (sent : ℤ) : Message where
  client := clientID
  origin := pk.origin
  type := pk.type
  qos := pk.qos
  dup := pk.dup
  retain := pk.retain
  topicName := pk.topicName
  payload := pk.payload
  sent := sent
  created := pk.created
  packetID := pk.packetID

/-! ### Fields -/

/-- A field of the hash. -/
inductive Field where
  /-- Schema 1, and legacy fields that schema 2 has not migrated yet. -/
  | numeric (id : ℕ)
  | inbound (id : ℕ)
  | outbound (id : ℕ)
  deriving DecidableEq, Repr

/-- The spelling of a field. -/
def Field.text : Field → Text
  | numeric id => Nat.toDigits 10 id
  | inbound id => "in:".toList ++ Nat.toDigits 10 id
  | outbound id => "out:".toList ++ Nat.toDigits 10 id

/-- The hash of a client. -/
abbrev InflightHash : Type := GoMap Field Message

/-- `inflightFieldKey`: acknowledgements are stored for flows of the client. -/
def inflightFieldKey (pk : Packet) : Field :=
  match pk.type with
  | .puback | .pubrec | .pubcomp => .inbound pk.packetID
  | .reserved | .publish | .pubrel => .outbound pk.packetID

/-- `isInboundInflightPacket`. -/
def isInboundInflightPacket (pk : Packet) : Bool :=
  match pk.type with
  | .puback | .pubrec | .pubrel | .pubcomp => true
  | .reserved | .publish => false

/-- `inflightCompletionFieldKey`: the field of the flow that a received acknowledgement
completes. -/
def inflightCompletionFieldKey (pk : Packet) : Field :=
  if pk.type = .pubrel then .inbound pk.packetID else .outbound pk.packetID

/-- `inflightDroppedFieldKey`: the field of a dropped packet. -/
def inflightDroppedFieldKey (pk : Packet) : Field :=
  if isInboundInflightPacket pk then .inbound pk.packetID else .outbound pk.packetID

/-! ### Schemas -/

/-- The two layouts of the hash. -/
inductive Schema where
  | legacy
  | v2
  deriving DecidableEq, Repr

/-- The schema marker: no key, one of the two values, or another text. -/
inductive Marker where
  | absent
  | valid (schema : Schema)
  /-- Another spelling of the number, such as `02`. -/
  | respelled (schema : Schema)
  | invalid
  deriving DecidableEq, Repr

/-- The schema that `readIFMSchema` finds with `Atoi`: schema 1 without a marker, none with an
unknown one. -/
def Marker.schema? : Marker → Option Schema
  | absent => some .legacy
  | valid schema => some schema
  | respelled schema => some schema
  | invalid => none

/-- The schema that the scripts find, which compare the text. -/
def Marker.fence? : Marker → Option Schema
  | absent => some .legacy
  | valid schema => some schema
  | respelled _ => none
  | invalid => none

theorem Marker.schema?_of_fence? {m : Marker} {schema : Schema} (h : m.fence? = some schema) :
    m.schema? = some schema := by
  cases m with
  | absent | valid => exact h
  | respelled | invalid => cases h

/-- The field that a live write of a packet uses under a schema. -/
def writeField (schema : Schema) (pk : Packet) : Field :=
  match schema with
  | .legacy => .numeric pk.packetID
  | .v2 => inflightFieldKey pk

/-- The fields that `deleteInflight` deletes under a schema. -/
def deleteFields (schema : Schema) (pk : Packet) (dropped : Bool) : List Field :=
  match schema with
  | .legacy => [.numeric pk.packetID]
  | .v2 =>
    [if dropped then inflightDroppedFieldKey pk else inflightCompletionFieldKey pk,
      .numeric pk.packetID]

/-- `HDEL` of several fields. -/
def hdel (hash : InflightHash) (fields : List Field) : InflightHash :=
  fields.foldl (fun hash f => hash.erase f) hash

theorem lookup_hdel (hash : InflightHash) (fields : List Field) (f : Field) :
    (hdel hash fields).lookup f = if f ∈ fields then none else hash.lookup f :=
  GoMap.lookup_foldl_erase fields hash f

/-- The packet ID in a field. -/
def Field.id : Field → ℕ
  | numeric id => id
  | inbound id => id
  | outbound id => id

@[simp] theorem id_inflightFieldKey (pk : Packet) : (inflightFieldKey pk).id = pk.packetID := by
  unfold inflightFieldKey
  cases pk.type <;> rfl

@[simp] theorem id_writeField (schema : Schema) (pk : Packet) :
    (writeField schema pk).id = pk.packetID := by
  cases schema with
  | legacy => rfl
  | v2 => exact id_inflightFieldKey pk

theorem id_of_mem_deleteFields {schema : Schema} {pk : Packet} {dropped : Bool} {f : Field}
    (h : f ∈ deleteFields schema pk dropped) : f.id = pk.packetID := by
  cases schema with
  | legacy => simp_all [deleteFields, Field.id]
  | v2 =>
    simp only [deleteFields, List.mem_cons, List.not_mem_nil, or_false] at h
    rcases h with rfl | rfl
    · unfold inflightDroppedFieldKey inflightCompletionFieldKey
      split_ifs <;> rfl
    · rfl

/-- `migrateLegacyInflightFieldScript`: the value of a numeric field moves to its directional
field, unless that one is taken, in which case the directional message wins. -/
def migrateLegacyInflightField (hash : InflightHash) (id : ℕ) (target : Field) : InflightHash :=
  match hash.lookup (.numeric id) with
  | none => hash
  | some value =>
    (if target ∈ hash then hash else hash.insert target value).erase (.numeric id)

/-! ### Spelling -/

theorem toDigits_ten_injective : Function.Injective (Nat.toDigits 10) := by
  intro m n h
  rw [← Nat.ofDigitChars_ten_toDigits (n := m), h, Nat.ofDigitChars_ten_toDigits]

theorem toDigits_ne_cons {n : ℕ} {c : Char} (hc : c.isDigit = false) (t : Text) :
    Nat.toDigits 10 n ≠ c :: t := by
  intro h
  have hmem : c ∈ Nat.toDigits 10 n := h ▸ List.mem_cons_self
  have hdigit := Nat.isDigit_of_mem_toDigits (by decide) (by decide) hmem
  rw [hc] at hdigit
  cases hdigit

/-- Different fields are spelled differently. -/
theorem Field.text_injective : Function.Injective Field.text := by
  have hi (n : ℕ) (t : Text) : Nat.toDigits 10 n ≠ 'i' :: t := toDigits_ne_cons (by decide) t
  have ho (n : ℕ) (t : Text) : Nat.toDigits 10 n ≠ 'o' :: t := toDigits_ne_cons (by decide) t
  intro f g h
  cases f with
  | numeric m =>
    cases g with
    | numeric n => exact congrArg _ (toDigits_ten_injective h)
    | inbound n => exact absurd h (hi m _)
    | outbound n => exact absurd h (ho m _)
  | inbound m =>
    cases g with
    | numeric n => exact absurd h.symm (hi n _)
    | inbound n => exact congrArg _ (toDigits_ten_injective (List.append_cancel_left h))
    | outbound n =>
      exact absurd (List.cons.inj h).1 (by decide)
  | outbound m =>
    cases g with
    | numeric n => exact absurd h.symm (ho n _)
    | inbound n =>
      exact absurd (List.cons.inj h).1 (by decide)
    | outbound n => exact congrArg _ (toDigits_ten_injective (List.append_cancel_left h))

end KeelGateway.Redis
