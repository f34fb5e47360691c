import Mathlib.Data.Char
import Mathlib.Data.List.Lex
import KeelGateway.Mochi.Inflight

/-!
# Reading the in-flight hash back

A node that resumes a session reads the in-flight hash of the client. Under schema 2 it first moves
what is left in numeric fields to directional ones, and refuses a hash in which a directional field
disagrees with its message; under schema 1 it skips directional fields.

-/

namespace KeelGateway.Redis

/-- The field names a direction. -/
def Field.isDirectional : Field → Bool
  | numeric _ => false
  | inbound _ => true
  | outbound _ => true

theorem Field.ne_numeric {f : Field} (hf : f.isDirectional = true) (id : ℕ) : f ≠ .numeric id := by
  rintro rfl
  cases hf

theorem isDirectional_inflightFieldKey (pk : Packet) :
    (inflightFieldKey pk).isDirectional = true := by
  unfold inflightFieldKey
  cases pk.type <;> rfl

/-- `migrateLegacyInflightFields`, under schema 2: every numeric field of the rows that were read is
migrated in turn. -/
def migrateLegacyInflightFields (hash : InflightHash) : InflightHash :=
  hash.entries.foldl (fun h row =>
    match row.1 with
    | .numeric id => migrateLegacyInflightField h id (inflightFieldKey row.2.toPacket)
    | _ => h) hash

/-- The loop of `storedInflightForClient` over the rows of the hash, in the order of their spelling.
Under schema 2 a directional field that is not the one of its message is an error. -/
def storedInflight (schema : Schema) (hash : InflightHash) : Option (List Message) :=
  let rows := (hash.entries.filter fun row => schema = .v2 || !row.1.isDirectional).mergeSort
    fun a b => a.1.text ≤ b.1.text
  if schema = .v2 ∧ ∃ row ∈ rows, row.1.isDirectional ∧ row.1 ≠ inflightFieldKey row.2.toPacket then
    none
  else some (rows.map Sigma.snd)

/-- `storedInflightForClient`: the hash afterwards and the messages. -/
def storedInflightForClient (schema : Schema) (hash : InflightHash) :
    InflightHash × Option (List Message) :=
  let hash := if schema = .v2 then migrateLegacyInflightFields hash else hash
  (hash, storedInflight schema hash)

/-- Every message sits in the field that a write of it uses. -/
def OwnField (schema : Schema) (hash : InflightHash) : Prop :=
  ∀ f m, hash.lookup f = some m → f = writeField schema m.toPacket

namespace OwnField

variable {schema : Schema} {hash : InflightHash}

theorem insert (h : OwnField schema hash) (m : Message) :
    OwnField schema (hash.insert (writeField schema m.toPacket) m) := by
  intro f n hn
  rw [GoMap.lookup_insert] at hn
  split_ifs at hn with hf
  · cases hn
    exact hf
  · exact h f n hn

theorem eq_of_writeField_eq (h : OwnField schema hash) {f g : Field} {m n : Message}
    (hm : hash.lookup f = some m) (hn : hash.lookup g = some n)
    (heq : writeField schema m.toPacket = writeField schema n.toPacket) : m = n := by
  have hfg : f = g := (h f m hm).trans (heq.trans (h g n hn).symm)
  rw [hfg, hn] at hm
  exact (Option.some.inj hm).symm

theorem isDirectional_iff (h : OwnField schema hash) {f : Field} {m : Message}
    (hm : hash.lookup f = some m) : f.isDirectional = true ↔ schema = .v2 := by
  have hf := h f m hm
  cases schema with
  | legacy => simp [hf, writeField, Field.isDirectional]
  | v2 =>
    rw [hf]
    unfold writeField inflightFieldKey
    cases m.toPacket.type <;> simp [Field.isDirectional]

end OwnField

theorem storedInflight_of_ownField {schema : Schema} {hash : InflightHash}
    (h : OwnField schema hash) :
    ∃ ms, storedInflight schema hash = some ms ∧ ∀ m, m ∈ ms ↔ ∃ f, hash.lookup f = some m := by
  have hrow (f : Field) (m : Message) : ⟨f, m⟩ ∈ hash.entries ↔ hash.lookup f = some m :=
    AList.mem_lookup_iff.symm
  have hkeep (f : Field) (m : Message) (hm : hash.lookup f = some m) :
      (schema = .v2 || !f.isDirectional) = true := by
    have hdir := h.isDirectional_iff hm
    cases schema <;> simp_all
  unfold storedInflight
  rw [if_neg]
  · refine ⟨_, rfl, fun m => ?_⟩
    simp only [List.mem_map, List.mem_mergeSort, List.mem_filter]
    constructor
    · rintro ⟨⟨f, n⟩, ⟨hmem, -⟩, rfl⟩
      exact ⟨f, (hrow f n).1 hmem⟩
    · rintro ⟨f, hm⟩
      exact ⟨⟨f, m⟩, ⟨(hrow f m).2 hm, hkeep f m hm⟩, rfl⟩
  · rintro ⟨rfl, ⟨f, m⟩, hmem, -, hne⟩
    rw [List.mem_mergeSort, List.mem_filter, hrow] at hmem
    exact hne (h f m hmem.1)

/-- It returns every message once. -/
theorem nodup_storedInflight {hash : InflightHash} (h : OwnField .v2 hash) {ms : List Message}
    (hms : storedInflight .v2 hash = some ms) :
    (ms.map fun m => inflightFieldKey m.toPacket).Nodup := by
  have hrows : (hash.entries.filter fun row => Schema.v2 = .v2 || !row.1.isDirectional) =
      hash.entries := List.filter_eq_self.2 fun _ _ => rfl
  unfold storedInflight at hms
  dsimp only at hms
  split_ifs at hms
  cases hms
  rw [hrows, List.map_map]
  -- the rows are a permutation of the hash, and the field of a row is the field of its message
  refine ((List.mergeSort_perm _ _).map _).nodup_iff.2 ?_
  have hfst : hash.entries.map ((fun m => inflightFieldKey m.toPacket) ∘ Sigma.snd) =
      hash.entries.map Sigma.fst :=
    List.map_congr_left fun row hrow => (h row.1 row.2 (GoMap.mem_entries.1 hrow)).symm
  rw [hfst]
  exact hash.nodupKeys

section Memory

variable {schema : Schema} {hash : InflightHash}

theorem flow_setAll_storedInflight (h : OwnField schema hash) (i : Mochi.Inflight) {f : Field}
    {n : Message} (hn : hash.lookup f = some n) :
    (i.setAll (((storedInflight schema hash).getD []).map Message.toPacket)).flow
      (inflightFieldKey n.toPacket) = some n.toPacket := by
  obtain ⟨ms, hms, hmem⟩ := storedInflight_of_ownField h
  rw [hms]
  refine i.flow_setAll_of_mem (List.mem_map_of_mem ((hmem n).2 ⟨f, hn⟩)) ?_
  intro q hq hkey
  obtain ⟨n', hn', rfl⟩ := List.mem_map.1 hq
  obtain ⟨g, hg⟩ := (hmem n').1 hn'
  have heq : n' = n := by
    refine h.eq_of_writeField_eq hg hn ?_
    cases schema with
    | legacy =>
      have hid := congrArg Field.id hkey
      simp only [id_inflightFieldKey] at hid
      exact congrArg Field.numeric hid
    | v2 => exact hkey
  rw [heq]

theorem flow_setAll_storedInflight_cases (h : OwnField schema hash) (i : Mochi.Inflight)
    {f : Field} {pk : Packet}
    (hpk : (i.setAll (((storedInflight schema hash).getD []).map Message.toPacket)).flow f =
      some pk) :
    (∃ g n, hash.lookup g = some n ∧ n.toPacket = pk ∧ f = inflightFieldKey pk) ∨
      i.flow f = some pk := by
  by_cases hany : ∃ g n, hash.lookup g = some n ∧ f = inflightFieldKey n.toPacket
  · obtain ⟨g, n, hn, rfl⟩ := hany
    have hflow := flow_setAll_storedInflight h i hn
    rw [hpk] at hflow
    cases hflow
    exact Or.inl ⟨g, n, hn, rfl, rfl⟩
  · right
    obtain ⟨ms, hms, hmem⟩ := storedInflight_of_ownField h
    rw [hms] at hpk
    rwa [i.flow_setAll_of_forall_ne] at hpk
    rintro q hq rfl
    obtain ⟨n, hn, rfl⟩ := List.mem_map.1 hq
    obtain ⟨g, hg⟩ := (hmem n).1 hn
    exact hany ⟨g, n, hg, rfl⟩

end Memory

theorem migrateLegacyInflightFields_of_ownField {hash : InflightHash} (h : OwnField .v2 hash) :
    migrateLegacyInflightFields hash = hash := by
  have hrows : ∀ row ∈ hash.entries, row.1.isDirectional = true := by
    rintro ⟨f, m⟩ hrow
    exact (h.isDirectional_iff (AList.mem_lookup_iff.2 hrow)).2 rfl
  have hfold (rows : List (Sigma fun _ : Field => Message)) (acc : InflightHash)
      (hdir : ∀ row ∈ rows, row.1.isDirectional = true) :
      rows.foldl (fun h row =>
        match row.1 with
        | .numeric id => migrateLegacyInflightField h id (inflightFieldKey row.2.toPacket)
        | _ => h) acc = acc := by
    induction rows with
    | nil => rfl
    | cons row rows ih =>
      rw [List.foldl_cons]
      have hrow := hdir row List.mem_cons_self
      cases hf : row.1 with
      | numeric id =>
        rw [hf] at hrow
        cases hrow
      | inbound id | outbound id => exact ih fun r hr => hdir r (List.mem_cons_of_mem _ hr)
  exact hfold hash.entries hash hrows

end KeelGateway.Redis
