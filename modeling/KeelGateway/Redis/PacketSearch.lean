import Mathlib.Order.Interval.Finset.Nat
import KeelGateway.Redis.PacketCounter

/-!
# The search for a packet ID

The script knows nothing of the records in the hash. It asks for fields by their spelling, whatever
else the hash may hold, and it takes a shortcut in schema 1: a hash with as many fields as there are
packet IDs is full. This module has the script on hashes of arbitrary texts. It finds the first free
ID after the counter, in cyclic order, and reports a full hash exactly if there is none.

-/

namespace KeelGateway.Redis

variable {V : Type}

/-- The argument of the script that says which fields to ask for. -/
def Schema.fieldPrefix : Schema → Text
  | legacy => []
  | v2 => "out:".toList

/-- `tostring` of a whole number. -/
def luaText (id : ℚ) : Text :=
  if ⌊id⌋ < 0 then '-' :: Nat.toDigits 10 ⌊id⌋.natAbs else Nat.toDigits 10 ⌊id⌋.toNat

/-- `HEXISTS`. -/
def hexists (hash : GoMap Text V) (field : Text) : Bool := (hash.lookup field).isSome

/-- The condition in the loop of the script: no field of the candidate exists. -/
def scriptFree (hash : GoMap Text V) (schema : Schema) (id : ℚ) : Bool :=
  !hexists hash (schema.fieldPrefix ++ luaText id) &&
    (schema.fieldPrefix = [] || !hexists hash (luaText id))

/-- The loop of the script over candidates of which some are free. -/
def searchBy (free : ℚ → Bool) (counter : ℚ) : ℕ → ℕ → ℤ
  | 0, _ => 0
  | rounds + 1, offset =>
    if free (candidate counter offset) then ⌊Binary64.add (Binary64.add counter offset) 1⌋
    else searchBy free counter rounds (offset + 1)

/-- `nextOfflinePacketCounterScript`, with `HLEN` as the number of fields. -/
def nextOfflinePacketCounterScript (hash : GoMap Text V) (schema : Schema) (counter : ℤ) : ℤ :=
  if schema.fieldPrefix = [] ∧ packetIDs ≤ hash.entries.length then 0
  else searchBy (scriptFree hash schema) (Binary64.round counter) packetIDs 0

/-- A packet ID is taken: its field in the schema exists or, in schema 2, its legacy field. -/
def Occupied (hash : GoMap Text V) (schema : Schema) (id : ℕ) : Prop :=
  schema.fieldPrefix ++ Nat.toDigits 10 id ∈ hash ∨ (schema = .v2 ∧ Nat.toDigits 10 id ∈ hash)

/-! ### The loop -/

theorem searchBy_cases (free : ℚ → Bool) (counter : ℚ) (rounds offset : ℕ) :
    (searchBy free counter rounds offset = 0 ∧
      ∀ k, offset ≤ k → k < offset + rounds → free (candidate counter k) = false) ∨
    ∃ k, offset ≤ k ∧ k < offset + rounds ∧
      searchBy free counter rounds offset = ⌊Binary64.add (Binary64.add counter k) 1⌋ ∧
      free (candidate counter k) = true ∧
      ∀ j, offset ≤ j → j < k → free (candidate counter j) = false := by
  induction rounds generalizing offset with
  | zero => exact Or.inl ⟨rfl, fun k hk hk' => absurd hk' (by omega)⟩
  | succ rounds ih =>
    rw [searchBy]
    split_ifs with hfree
    · exact Or.inr ⟨offset, le_rfl, by omega, rfl, hfree, fun j hj hj' => absurd hj' (by omega)⟩
    · have hhead : free (candidate counter offset) = false := Bool.not_eq_true _ ▸ hfree
      -- the candidates before a later one are this one and those of the rest of the loop
      have hjoin {bound : ℕ}
          (hrest : ∀ j, offset + 1 ≤ j → j < bound → free (candidate counter j) = false) :
          ∀ j, offset ≤ j → j < bound → free (candidate counter j) = false := by
        intro j hj hlt
        rcases hj.eq_or_lt with rfl | hgt
        · exact hhead
        · exact hrest j hgt hlt
      rcases ih (offset + 1) with ⟨hzero, hnone⟩ | ⟨k, hk, hk', hvalue, hfound, hbefore⟩
      · refine Or.inl ⟨hzero, hjoin fun j hj hlt => hnone j hj (by omega)⟩
      · exact Or.inr ⟨k, by omega, by omega, hvalue, hfound, hjoin hbefore⟩

private theorem luaText_natCast (id : ℕ) : luaText (id : ℚ) = Nat.toDigits 10 id := by
  rw [luaText, Int.floor_natCast, if_neg (by omega), Int.toNat_natCast]

variable {hash : GoMap Text V}

theorem hexists_iff {field : Text} : hexists hash field = true ↔ field ∈ hash :=
  AList.lookup_isSome

theorem scriptFree_iff {schema : Schema} {id : ℕ} :
    scriptFree hash schema id = true ↔ ¬ Occupied hash schema id := by
  rw [scriptFree, luaText_natCast, Occupied, ← hexists_iff, ← hexists_iff]
  cases schema <;> simp [Schema.fieldPrefix]

section InRange

variable {counter : ℤ}

theorem candidate_eq_packetIDOf (h : CounterInRange counter) {k : ℕ} (hk : k < packetIDs) :
    candidate counter k = (packetIDOf (counter + k + 1) : ℚ) := by
  rw [candidate_eq h hk, ← packetIDOf_eq h.1 k, Int.cast_natCast]

/-- Every packet ID is tried. -/
theorem exists_packetIDOf_eq (h0 : 0 ≤ counter) {id : ℕ} (hpos : 1 ≤ id) (hle : id ≤ packetIDs) :
    ∃ k < packetIDs, packetIDOf (counter + k + 1) = id := by
  have hlow : 0 ≤ ((id : ℤ) - 1 - counter) % packetIDs := Int.emod_nonneg _ (by decide)
  have hhigh : ((id : ℤ) - 1 - counter) % packetIDs < packetIDs := Int.emod_lt_of_pos _ (by decide)
  refine ⟨(((id : ℤ) - 1 - counter) % packetIDs).toNat, by omega, ?_⟩
  have hid := packetIDOf_eq h0 (((id : ℤ) - 1 - counter) % packetIDs).toNat
  have hres : (counter + ((id : ℤ) - 1 - counter) % packetIDs) % packetIDs = (id : ℤ) - 1 := by
    rw [Int.add_emod_emod, add_sub_cancel]
    exact Int.emod_eq_of_lt (by omega) (by omega)
  rw [Int.toNat_of_nonneg hlow] at hid ⊢
  omega

theorem one_le_packetIDOf (h0 : 0 ≤ counter) (k : ℕ) :
    1 ≤ packetIDOf (counter + k + 1) ∧ packetIDOf (counter + k + 1) ≤ packetIDs := by
  have hlow : 0 ≤ (counter + k) % (packetIDs : ℤ) := Int.emod_nonneg _ (by decide)
  have hhigh : (counter + k) % (packetIDs : ℤ) < packetIDs := Int.emod_lt_of_pos _ (by decide)
  have hid := packetIDOf_eq h0 k
  omega

/-- All packet IDs are occupied. -/
def AllOccupied (hash : GoMap Text V) (schema : Schema) : Prop :=
  ∀ id, 1 ≤ id → id ≤ packetIDs → Occupied hash schema id

/-- What the loop of the script finds. -/
theorem searchBy_scriptFree_cases (hash : GoMap Text V) (schema : Schema)
    (h : CounterInRange counter) :
    (searchBy (scriptFree hash schema) counter packetIDs 0 = 0 ∧ AllOccupied hash schema) ∨
    ∃ k < packetIDs, searchBy (scriptFree hash schema) counter packetIDs 0 = counter + k + 1 ∧
      ¬ Occupied hash schema (packetIDOf (counter + k + 1)) ∧
      ∀ j < k, Occupied hash schema (packetIDOf (counter + j + 1)) := by
  have hoccupied {j : ℕ} (hj : j < packetIDs)
      (hfree : scriptFree hash schema (candidate counter j) = false) :
      Occupied hash schema (packetIDOf (counter + j + 1)) := by
    rw [candidate_eq_packetIDOf h hj] at hfree
    by_contra hnot
    rw [scriptFree_iff.2 hnot] at hfree
    cases hfree
  rcases searchBy_cases (scriptFree hash schema) counter packetIDs 0 with
    ⟨hzero, hnone⟩ | ⟨k, -, hk, hvalue, hfound, hbefore⟩
  · refine Or.inl ⟨hzero, fun id hpos hle => ?_⟩
    obtain ⟨k, hk, rfl⟩ := exists_packetIDOf_eq h.1 hpos hle
    exact hoccupied hk (hnone k (Nat.zero_le k) (by omega))
  · have hk' : k < packetIDs := by omega
    refine Or.inr ⟨k, hk', hvalue.trans (reply_eq h hk'), ?_, fun j hj => ?_⟩
    · rw [candidate_eq_packetIDOf h hk'] at hfound
      exact scriptFree_iff.1 hfound
    · exact hoccupied (hj.trans hk') (hbefore j (Nat.zero_le j) hj)

end InRange

/-! ### The shortcut -/

/-- The fields of a hash in schema 1. -/
def LegacyFields (hash : GoMap Text V) : Prop :=
  ∀ f ∈ hash, ∃ id, 1 ≤ id ∧ id ≤ packetIDs ∧ f = Nat.toDigits 10 id

theorem allOccupied_of_length (hfields : LegacyFields hash)
    (hlen : packetIDs ≤ hash.entries.length) : AllOccupied hash .legacy := by
  have hsub : hash.keys.toFinset ⊆ (Finset.Icc 1 packetIDs).image (Nat.toDigits 10) := by
    intro f hf
    obtain ⟨id, hpos, hle, rfl⟩ := hfields f (AList.mem_keys.2 (List.mem_toFinset.1 hf))
    exact Finset.mem_image_of_mem _ (Finset.mem_Icc.2 ⟨hpos, hle⟩)
  have hcard : ((Finset.Icc 1 packetIDs).image (Nat.toDigits 10)).card ≤ hash.keys.toFinset.card :=
    calc ((Finset.Icc 1 packetIDs).image (Nat.toDigits 10)).card
        ≤ (Finset.Icc 1 packetIDs).card := Finset.card_image_le
      _ = packetIDs := by rw [Nat.card_Icc, Nat.add_sub_cancel]
      _ ≤ hash.keys.length := hlen.trans_eq (List.length_map _).symm
      _ = hash.keys.toFinset.card := (List.toFinset_card_of_nodup hash.keys_nodup).symm
  have heq := Finset.eq_of_subset_of_card_le hsub hcard
  intro id hpos hle
  have hmem : Nat.toDigits 10 id ∈ hash.keys.toFinset := by
    rw [heq]
    exact Finset.mem_image_of_mem _ (Finset.mem_Icc.2 ⟨hpos, hle⟩)
  exact Or.inl (AList.mem_keys.2 (List.mem_toFinset.1 hmem))

theorem nextOfflinePacketCounterScript_cases {schema : Schema}
    (hfields : schema = .legacy → LegacyFields hash) {counter : ℤ} (h : CounterInRange counter) :
    (nextOfflinePacketCounterScript hash schema counter = 0 ∧ AllOccupied hash schema) ∨
    ∃ k < packetIDs, nextOfflinePacketCounterScript hash schema counter = counter + k + 1 ∧
      ¬ Occupied hash schema (packetIDOf (counter + k + 1)) ∧
      ∀ j < k, Occupied hash schema (packetIDOf (counter + j + 1)) := by
  rw [nextOfflinePacketCounterScript]
  split_ifs with hfull
  · obtain rfl : schema = .legacy := by
      cases schema with
      | legacy => rfl
      | v2 => exact absurd hfull.1 (by decide)
    exact Or.inl ⟨rfl, allOccupied_of_length (hfields rfl) hfull.2⟩
  · rw [round_counter h]
    exact searchBy_scriptFree_cases hash schema h

/-- The search is exact. It returns zero exactly if all packet IDs are occupied. Otherwise it
returns a counter at most 65535 after its argument, of which the packet ID that the gateway takes is
free, and all counters in between have IDs that are occupied. -/
theorem nextOfflinePacketCounterScript_exact (hash : GoMap Text V) (schema : Schema)
    (hfields : schema = .legacy → LegacyFields hash) (counter : ℤ) (h0 : 0 ≤ counter)
    (h1 : counter < 2 ^ 52) :
    (nextOfflinePacketCounterScript hash schema counter = 0 ↔ AllOccupied hash schema) ∧
    ∀ n, nextOfflinePacketCounterScript hash schema counter = n → n ≠ 0 →
      counter < n ∧ n ≤ counter + packetIDs ∧
      (packetIDOf n : ℤ) = (n - 1) % packetIDs + 1 ∧ ¬ Occupied hash schema (packetIDOf n) ∧
      ∀ m, counter < m → m < n → Occupied hash schema (packetIDOf m) := by
  have hrange : CounterInRange counter := ⟨h0, by rw [packetIDs]; omega⟩
  rcases nextOfflinePacketCounterScript_cases hfields hrange with
    ⟨hzero, hall⟩ | ⟨k, hk, hvalue, hfree, hbefore⟩
  · exact ⟨⟨fun _ => hall, fun _ => hzero⟩, fun n hn hne => absurd (hn.symm.trans hzero) hne⟩
  · refine ⟨⟨fun hzero => ?_, fun hall => ?_⟩, ?_⟩
    · omega
    · obtain ⟨hpos, hle⟩ := one_le_packetIDOf h0 k
      exact absurd (hall _ hpos hle) hfree
    · rintro n hn -
      obtain rfl : n = counter + k + 1 := hn.symm.trans hvalue
      refine ⟨by omega, by omega, ?_, hfree, fun m hm hm' => ?_⟩
      · rw [packetIDOf_eq h0 k, add_sub_cancel_right]
      · -- a counter in between is the one of an earlier candidate
        have hoff : m = counter + ((m - counter - 1).toNat : ℕ) + 1 := by omega
        rw [hoff]
        exact hbefore _ (by omega)

/-- A hash of schema 1 with the packet IDs 3 and 4 in use. -/
def usesThreeFour : GoMap Text Unit := ((∅ : GoMap Text Unit).insert ['3'] ()).insert ['4'] ()

private theorem legacyFields_usesThreeFour : LegacyFields usesThreeFour := by
  intro f hf
  rw [usesThreeFour, AList.mem_insert, AList.mem_insert] at hf
  rcases hf with rfl | rfl | hf
  · exact ⟨4, by decide, by decide, by decide⟩
  · exact ⟨3, by decide, by decide, by decide⟩
  · exact absurd hf (AList.notMem_empty f)

/-- After counter 2 the search passes over the two IDs. -/
theorem nextOfflinePacketCounterScript_usesThreeFour :
    nextOfflinePacketCounterScript usesThreeFour .legacy 2 = 5 := by
  obtain ⟨hzero, hnext⟩ := nextOfflinePacketCounterScript_exact usesThreeFour .legacy
    (fun _ => legacyFields_usesThreeFour) 2 (by decide) (by decide)
  have hfive : ¬ Occupied usesThreeFour .legacy (packetIDOf 5) := by
    rintro (hmem | ⟨hschema, -⟩)
    · exact absurd hmem (by decide)
    · cases hschema
  have hne : nextOfflinePacketCounterScript usesThreeFour .legacy 2 ≠ 0 := fun h =>
    hfive (hzero.1 h _ (by decide) (by decide))
  obtain ⟨hlt, -, -, hfree, hbefore⟩ := hnext _ rfl hne
  have hthree : nextOfflinePacketCounterScript usesThreeFour .legacy 2 ≠ 3 := fun h =>
    hfree (by rw [h]; exact Or.inl (by decide))
  have hfour : nextOfflinePacketCounterScript usesThreeFour .legacy 2 ≠ 4 := fun h =>
    hfree (by rw [h]; exact Or.inl (by decide))
  by_contra hfive'
  exact hfive (hbefore 5 (by decide) (by omega))

/-! ### Hashes of fields -/

/-- The hash of texts that a hash of fields stands for. -/
def spelled (hash : InflightHash) : GoMap Text Message where
  entries := hash.entries.map fun row => ⟨row.1.text, row.2⟩
  nodupKeys := by
    rw [List.NodupKeys, List.keys, List.map_map]
    have hkeys := List.Nodup.map Field.text_injective hash.nodupKeys
    rwa [List.keys, List.map_map] at hkeys

private theorem length_spelled (hash : InflightHash) :
    (spelled hash).entries.length = hash.entries.length :=
  List.length_map _

theorem mem_spelled {hash : InflightHash} {t : Text} :
    t ∈ spelled hash ↔ ∃ f ∈ hash, f.text = t := by
  rw [AList.mem_keys, AList.keys, spelled, List.keys, List.map_map, List.mem_map]
  constructor
  · rintro ⟨row, hrow, rfl⟩
    exact ⟨row.1, AList.mem_keys.2 (List.mem_map_of_mem hrow), rfl⟩
  · rintro ⟨f, hf, rfl⟩
    obtain ⟨row, hrow, rfl⟩ := List.mem_map.1 (AList.mem_keys.1 hf)
    exact ⟨row, hrow, rfl⟩

theorem text_mem_spelled {hash : InflightHash} {f : Field} : f.text ∈ spelled hash ↔ f ∈ hash := by
  rw [mem_spelled]
  constructor
  · rintro ⟨f', hf', heq⟩
    exact Field.text_injective heq ▸ hf'
  · exact fun hf => ⟨f, hf, rfl⟩

theorem Field.text_ne_negative (f : Field) (schema : Schema) (t : Text) :
    f.text ≠ schema.fieldPrefix ++ '-' :: t := by
  have hdigits (n : ℕ) : Nat.toDigits 10 n ≠ '-' :: t := toDigits_ne_cons (by decide) t
  intro h
  cases schema with
  | legacy =>
    cases f with
    | numeric n => exact hdigits n h
    | inbound n | outbound n => exact absurd (List.cons.inj h).1 (by decide)
  | v2 =>
    cases f with
    | numeric n => exact toDigits_ne_cons (by decide) _ h
    | inbound n => exact absurd (List.cons.inj h).1 (by decide)
    | outbound n => exact hdigits n (List.append_cancel_left h)

private theorem scriptFree_spelled (hash : InflightHash) (schema : Schema) (id : ℚ) :
    scriptFree (spelled hash) schema id = isFree hash schema id := by
  rw [Bool.eq_iff_iff]
  unfold isFree scriptFree luaText
  split_ifs with hneg
  · have hnone (schema : Schema) : hexists (spelled hash)
        (schema.fieldPrefix ++ '-' :: Nat.toDigits 10 ⌊id⌋.natAbs) = false := by
      rw [Bool.eq_false_iff, ne_eq, hexists_iff, mem_spelled]
      rintro ⟨f, -, htext⟩
      exact f.text_ne_negative schema _ htext
    have hplain := hnone .legacy
    rw [Schema.fieldPrefix, List.nil_append] at hplain
    simp [hnone schema, hplain]
  · have hnumeric := @text_mem_spelled hash (.numeric ⌊id⌋.toNat)
    have houtbound := @text_mem_spelled hash (.outbound ⌊id⌋.toNat)
    rw [← hexists_iff] at hnumeric houtbound
    simp only [Field.text] at hnumeric houtbound
    cases schema with
    | legacy => simp [Schema.fieldPrefix, ← hnumeric]
    | v2 =>
      rw [Schema.fieldPrefix, Bool.and_eq_true, Bool.and_eq_true, decide_eq_true_iff,
        decide_eq_true_iff, ← hnumeric, ← houtbound]
      simp

private theorem searchFrom_eq_searchBy (hash : InflightHash) (schema : Schema) (counter : ℚ)
    (rounds offset : ℕ) :
    searchFrom hash schema counter rounds offset =
      searchBy (scriptFree (spelled hash) schema) counter rounds offset := by
  induction rounds generalizing offset with
  | zero => rfl
  | succ rounds ih => rw [searchFrom, searchBy, scriptFree_spelled, ih]

theorem nextOfflinePacketCounter_eq_script (hash : InflightHash) (schema : Schema) (counter : ℤ) :
    nextOfflinePacketCounter hash schema counter =
      nextOfflinePacketCounterScript (spelled hash) schema counter := by
  rw [nextOfflinePacketCounter, nextOfflinePacketCounterScript, length_spelled,
    searchFrom_eq_searchBy]
  cases schema <;> simp [Schema.fieldPrefix]

end KeelGateway.Redis
