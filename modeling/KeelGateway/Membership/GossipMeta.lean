import KeelGateway.Lib.JsonObject
import KeelGateway.Text

/-!
# Metadata of a node in the gossip

Every node gossips its ID, its role and its addresses as a JSON object. The gossip library asks for
the bytes with a limit, and an object that is longer is cut at the limit. A peer that cannot decode
the bytes of a node that joins logs a warning and leaves the node out of its members. Nothing looks
at the size when a node starts.

A field is a text, so it is valid UTF-8. `json.Unmarshal` is modelled on what `json.Marshal` writes
and on its beginnings; see `JsonObject`.

-/

namespace KeelGateway.Membership

/-- `NodeMeta` with all its fields. -/
@[ext]
structure GossipMeta where
  nodeID : Text
  role : Text
  raftAddr : Text
  grpcAddr : Text
  olricAddr : Text
  olricClientAddr : Text
  redisAddr : Text
  httpAddr : Text
  deriving DecidableEq

/-- A field: its key, whether it has `omitempty`, and its value. -/
structure Field where
  key : Text
  omitempty : Bool
  value : Text

namespace GossipMeta

/-- The fields in the order of the declaration. -/
def fields (m : GossipMeta) : List Field :=
  [⟨"node_id".toList, false, m.nodeID⟩, ⟨"role".toList, false, m.role⟩,
    ⟨"raft_addr".toList, true, m.raftAddr⟩, ⟨"grpc_addr".toList, false, m.grpcAddr⟩,
    ⟨"olric_addr".toList, true, m.olricAddr⟩, ⟨"olric_client_addr".toList, true, m.olricClientAddr⟩,
    ⟨"redis_addr".toList, true, m.redisAddr⟩, ⟨"http_addr".toList, true, m.httpAddr⟩]

/-- The members of the object. -/
def rows (m : GossipMeta) : List (Text × Text) :=
  (m.fields.filter fun f => !(f.omitempty && f.value.isEmpty)).map fun f => (f.key, f.value)

/-- `NodeMeta.encode`. -/
def encode (m : GossipMeta) : List UInt8 := JsonObject.document m.rows

/-- `delegate.NodeMeta`: the object is cut at the limit. -/
def nodeMeta (m : GossipMeta) (limit : ℕ) : List UInt8 :=
  if limit < m.encode.length then m.encode.take limit else m.encode

end GossipMeta

/-- The value of a field after all members with its key were read: empty if there is none. -/
def fieldValue (key : Text) (rows : List (List UInt8 × List UInt8)) : Text :=
  match rows.reverse.find? fun row => JsonObject.text row.1 = key with
  | some row => JsonObject.text row.2
  | none => []

/-- `decodeMeta`. -/
def decodeMeta (bytes : List UInt8) : Option GossipMeta :=
  (JsonObject.parse bytes).map fun rows =>
    { nodeID := fieldValue "node_id".toList rows
      role := fieldValue "role".toList rows
      raftAddr := fieldValue "raft_addr".toList rows
      grpcAddr := fieldValue "grpc_addr".toList rows
      olricAddr := fieldValue "olric_addr".toList rows
      olricClientAddr := fieldValue "olric_client_addr".toList rows
      redisAddr := fieldValue "redis_addr".toList rows
      httpAddr := fieldValue "http_addr".toList rows }

/-- `eventDelegate.NotifyJoin` on the members of a peer. -/
def notifyJoin (members : GoMap Text GossipMeta) (bytes : List UInt8) : GoMap Text GossipMeta :=
  match decodeMeta bytes with
  | some m => members.insert m.nodeID m
  | none => members

namespace GossipMeta

/-- What is gossiped is the metadata, for the node itself and for every peer it joins. -/
def Survives (m : GossipMeta) (limit : ℕ) : Prop :=
  decodeMeta (m.nodeMeta limit) = some m ∧
    ∀ members : GoMap Text GossipMeta,
      (notifyJoin members (m.nodeMeta limit)).lookup m.nodeID = some m

variable (m : GossipMeta)

private theorem nodup_keys : (m.fields.map Field.key).Nodup := by
  have hkeys : m.fields.map Field.key =
      ["node_id", "role", "raft_addr", "grpc_addr", "olric_addr", "olric_client_addr", "redis_addr",
        "http_addr"].map String.toList := rfl
  rw [hkeys]
  decide

theorem fieldValue_rows {f : Field} (hf : f ∈ m.fields) :
    fieldValue f.key (m.rows.map (Prod.map Base64.utf8 Base64.utf8)) = f.value := by
  rw [fieldValue]
  split
  · next row hrow =>
    have hkey := List.find?_some hrow
    have hmem := List.mem_reverse.1 (List.mem_of_find?_eq_some hrow)
    simp only [rows, List.map_map, List.mem_map, List.mem_filter] at hmem
    obtain ⟨g, ⟨hg, -⟩, rfl⟩ := hmem
    simp only [Function.comp_apply, Prod.map_apply, JsonObject.text_utf8,
      decide_eq_true_eq] at hkey ⊢
    rw [List.inj_on_of_nodup_map m.nodup_keys hg hf hkey]
  · next hnone =>
    by_contra hne
    have hkept : (f.key, f.value) ∈ m.rows :=
      List.mem_map_of_mem (List.mem_filter.2 ⟨hf, by simp [Ne.symm hne]⟩)
    have hrow := List.find?_eq_none.1 hnone _ (List.mem_reverse.2 (List.mem_map_of_mem hkept))
    simp [JsonObject.text_utf8] at hrow

private theorem decodeMeta_encode : decodeMeta m.encode = some m := by
  have hvalue (i : Fin 8) := m.fieldValue_rows (List.get_mem m.fields i)
  rw [decodeMeta, encode, JsonObject.parse_document]
  exact congrArg some (GossipMeta.ext (hvalue 0) (hvalue 1) (hvalue 2) (hvalue 3) (hvalue 4)
    (hvalue 5) (hvalue 6) (hvalue 7))

theorem decodeMeta_take {limit : ℕ} (h : limit < m.encode.length) :
    decodeMeta (m.encode.take limit) = none := by
  have hne : m.encode.take limit ≠ m.encode := by
    intro heq
    have hlength := congrArg List.length heq
    rw [List.length_take] at hlength
    omega
  have hparse : JsonObject.parse (m.encode.take limit) = none :=
    JsonObject.parse_eq_none (List.take_prefix _ _) hne
  rw [decodeMeta, hparse, Option.map_none]

/-- The metadata survives exactly if it is within the limit. -/
theorem survives_iff (limit : ℕ) : m.Survives limit ↔ m.encode.length ≤ limit := by
  constructor
  · rintro ⟨hdecode, -⟩
    by_contra hlong
    have hcut : limit < m.encode.length := by omega
    rw [nodeMeta, if_pos hcut, m.decodeMeta_take hcut] at hdecode
    cases hdecode
  · intro hshort
    have hdecode : decodeMeta (m.nodeMeta limit) = some m := by
      rw [nodeMeta, if_neg (by omega), m.decodeMeta_encode]
    refine ⟨hdecode, fun members => ?_⟩
    rw [notifyJoin, hdecode]
    simp

/-- A node ID of 500 letters does not fit into the 512 bytes of the gossip library. -/
theorem not_survives_long : ¬Survives ⟨List.replicate 500 'n', "edge".toList, [],
    "10.0.0.1:7001".toList, [], [], [], []⟩ 512 := by
  rintro ⟨hdecode, -⟩
  rw [nodeMeta, if_pos (by decide +kernel), decodeMeta_take _ (by decide +kernel)] at hdecode
  cases hdecode

end GossipMeta

end KeelGateway.Membership
