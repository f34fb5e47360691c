import KeelGateway.Lib.Binary64
import KeelGateway.Redis.Inflight

/-!
# Packet IDs of the offline queue

The offline queue draws packet IDs from a counter in Redis. A Lua script searches, from the
counter on, for an ID that no outbound field of the hash uses, and returns the counter after it;
the gateway computes the ID once more from what the script returned. Lua computes with doubles and
the gateway with 64-bit integers, so the two agree only on counters that doubles hold exactly.

-/

namespace KeelGateway.Redis

/-- The number of packet IDs. -/
def packetIDs : ℕ := 65535

/-- The packet ID that the script tries at an offset from the counter, as a Lua number. -/
def candidate (counter : ℚ) (offset : ℕ) : ℚ :=
  Binary64.add (Binary64.mod (Binary64.add counter offset) packetIDs) 1

/-- The script's `HEXISTS` on the fields of a candidate. A number that is no packet ID is spelled
like no field. -/
def isFree (hash : InflightHash) (schema : Schema) (id : ℚ) : Bool :=
  if ⌊id⌋ < 0 then true
  else
    match schema with
    | .legacy => .numeric ⌊id⌋.toNat ∉ hash
    | .v2 => .outbound ⌊id⌋.toNat ∉ hash && .numeric ⌊id⌋.toNat ∉ hash

/-- The loop of the script from an offset on, for a number of rounds. The integer reply of a Lua
number is its integer part. -/
def searchFrom (hash : InflightHash) (schema : Schema) (counter : ℚ) : ℕ → ℕ → ℤ
  | 0, _ => 0
  | rounds + 1, offset =>
    if isFree hash schema (candidate counter offset) then
      ⌊Binary64.add (Binary64.add counter offset) 1⌋
    else searchFrom hash schema counter rounds (offset + 1)

/-- `nextOfflinePacketCounterScript`: the counter after the next free ID, or zero. -/
def nextOfflinePacketCounter (hash : InflightHash) (schema : Schema) (counter : ℤ) : ℤ :=
  if schema = .legacy ∧ packetIDs ≤ hash.entries.length then 0
  else searchFrom hash schema (Binary64.round counter) packetIDs 0

/-- `uint16((nextCounter-1)%65535) + 1`, with the remainder and the conversion of Go. -/
def packetIDOf (nextCounter : ℤ) : ℕ :=
  (((nextCounter - 1).tmod packetIDs % 2 ^ 16 + 1) % 2 ^ 16).toNat

/-- Doubles hold the counter exactly, and all the counters that a search from it tries. -/
def CounterInRange (counter : ℤ) : Prop := 0 ≤ counter ∧ counter + packetIDs ≤ 2 ^ 53

instance (counter : ℤ) : Decidable (CounterInRange counter) :=
  inferInstanceAs (Decidable (_ ∧ _))

/-! ### Counters in range -/

section InRange

variable {hash : InflightHash} {schema : Schema} {counter : ℤ}

theorem round_counter (h : CounterInRange counter) :
    Binary64.round counter = counter := by
  obtain ⟨h0, h1⟩ := h
  refine Binary64.round_intCast ?_
  rw [abs_of_nonneg h0]
  omega

theorem add_offset (h : CounterInRange counter) {offset : ℕ} (hoff : offset < packetIDs) :
    Binary64.add counter offset = ((counter + offset : ℤ) : ℚ) := by
  obtain ⟨h0, h1⟩ := h
  exact Binary64.add_intCast (by rw [abs_of_nonneg (by omega)]; omega)

theorem candidate_eq (h : CounterInRange counter) {offset : ℕ} (hoff : offset < packetIDs) :
    candidate counter offset = (((counter + offset) % packetIDs + 1 : ℤ) : ℚ) := by
  have hrange := h
  obtain ⟨h0, h1⟩ := h
  have hmod : Binary64.mod ((counter + offset : ℤ) : ℚ) ((packetIDs : ℤ) : ℚ) =
      (((counter + offset) % packetIDs : ℤ) : ℚ) := by
    exact Binary64.mod_intCast (by omega) (by omega) (by decide) (by decide)
  have hlow : 0 ≤ (counter + offset) % (packetIDs : ℤ) := Int.emod_nonneg _ (by decide)
  have hhigh : (counter + offset) % (packetIDs : ℤ) < packetIDs :=
    Int.emod_lt_of_pos _ (by decide)
  rw [candidate, add_offset hrange hoff, ← Int.cast_natCast packetIDs, hmod, ← Int.cast_one]
  exact Binary64.add_intCast (by rw [abs_of_nonneg (by omega)]; omega)

theorem packetIDOf_eq (h0 : 0 ≤ counter) (offset : ℕ) :
    (packetIDOf (counter + offset + 1) : ℤ) = (counter + offset) % packetIDs + 1 := by
  have hlow : 0 ≤ (counter + offset) % (packetIDs : ℤ) := Int.emod_nonneg _ (by decide)
  have hhigh : (counter + offset) % (packetIDs : ℤ) < packetIDs :=
    Int.emod_lt_of_pos _ (by decide)
  have hrem : (counter + offset + 1 - 1).tmod packetIDs = (counter + offset) % packetIDs := by
    rw [add_sub_cancel_right]
    exact Int.tmod_eq_emod_of_nonneg (by omega)
  unfold packetIDOf
  rw [hrem]
  simp only [packetIDs] at hlow hhigh ⊢
  omega

theorem reply_eq (h : CounterInRange counter) {offset : ℕ} (hoff : offset < packetIDs) :
    ⌊Binary64.add (Binary64.add counter offset) 1⌋ = counter + offset + 1 := by
  obtain ⟨h0, h1⟩ := h
  have hsum := add_offset ⟨h0, h1⟩ hoff
  rw [hsum, ← Int.cast_one, Binary64.add_intCast (by rw [abs_of_nonneg (by omega)]; omega),
    Int.floor_intCast]

/-- What a search finds. -/
theorem searchFrom_spec (hash : InflightHash) (schema : Schema) (h : CounterInRange counter)
    (rounds offset : ℕ) (hoff : offset + rounds ≤ packetIDs) :
    searchFrom hash schema counter rounds offset = 0 ∨
      ∃ k < packetIDs, searchFrom hash schema counter rounds offset = counter + k + 1 ∧
        isFree hash schema (((counter + k) % packetIDs + 1 : ℤ) : ℚ) = true := by
  induction rounds generalizing offset with
  | zero => exact Or.inl rfl
  | succ rounds ih =>
    have hlt : offset < packetIDs := by omega
    rw [searchFrom]
    split_ifs with hfree
    · refine Or.inr ⟨offset, hlt, reply_eq h hlt, ?_⟩
      rwa [candidate_eq h hlt] at hfree
    · exact ih (offset + 1) (by omega)

theorem nextOfflinePacketCounter_spec (h : CounterInRange counter) :
    nextOfflinePacketCounter hash schema counter = 0 ∨
      (counter < nextOfflinePacketCounter hash schema counter ∧
        1 ≤ packetIDOf (nextOfflinePacketCounter hash schema counter) ∧
        packetIDOf (nextOfflinePacketCounter hash schema counter) ≤ packetIDs ∧
        .numeric (packetIDOf (nextOfflinePacketCounter hash schema counter)) ∉ hash ∧
        (schema = .v2 →
          .outbound (packetIDOf (nextOfflinePacketCounter hash schema counter)) ∉ hash)) := by
  unfold nextOfflinePacketCounter
  split_ifs with hfull
  · exact Or.inl rfl
  rw [round_counter h]
  rcases searchFrom_spec hash schema h packetIDs 0 (by omega) with
    hzero | ⟨k, hk, hnext, hfree⟩
  · exact Or.inl hzero
  refine Or.inr ?_
  rw [hnext]
  have hid := packetIDOf_eq h.1 k
  have hlow : 0 ≤ (counter + k) % (packetIDs : ℤ) := Int.emod_nonneg _ (by decide)
  have hhigh : (counter + k) % (packetIDs : ℤ) < packetIDs := Int.emod_lt_of_pos _ (by decide)
  unfold isFree at hfree
  rw [Int.floor_intCast, ← hid, if_neg (by omega), Int.toNat_natCast] at hfree
  refine ⟨by omega, by omega, by omega, ?_, ?_⟩
  · cases schema <;> simp_all
  · rintro rfl
    simp_all

end InRange

/-! ### The edge of the range -/

theorem nextOfflinePacketCounter_of_empty {hash : InflightHash} (hempty : ∀ f, f ∉ hash)
    {counter : ℤ} (h0 : 0 ≤ counter) (h1 : counter + 1 ≤ 2 ^ 53) :
    nextOfflinePacketCounter hash .v2 counter = counter + 1 := by
  have hround : Binary64.round counter = counter :=
    Binary64.round_intCast (by rw [abs_of_nonneg h0]; omega)
  have hadd : Binary64.add counter (0 : ℕ) = counter := by
    have := Binary64.add_intCast (by rw [add_zero, abs_of_nonneg h0]; omega)
    simpa using this
  have hfree (id : ℚ) : isFree hash .v2 id = true := by
    unfold isFree
    split_ifs <;> simp [hempty]
  have hsucc : Binary64.add (counter : ℚ) 1 = ((counter + 1 : ℤ) : ℚ) := by
    exact Binary64.add_intCast (by rw [abs_of_nonneg (by omega)]; exact h1)
  rw [nextOfflinePacketCounter, if_neg (by simp), hround, packetIDs, searchFrom, if_pos (hfree _),
    hadd, hsucc, Int.floor_intCast]

theorem nextOfflinePacketCounter_of_lost {hash : InflightHash} (hout : .outbound 33 ∉ hash)
    (hnum : .numeric 33 ∉ hash) : nextOfflinePacketCounter hash .v2 (2 ^ 53) = 2 ^ 53 := by
  have hround : Binary64.round ((2 ^ 53 : ℤ) : ℚ) = ((2 ^ 53 : ℤ) : ℚ) :=
    Binary64.round_intCast (by decide)
  have hadd : Binary64.add ((2 ^ 53 : ℤ) : ℚ) (0 : ℕ) = ((2 ^ 53 : ℤ) : ℚ) := by
    have := Binary64.add_intCast (m := 2 ^ 53) (n := 0) (by decide)
    simpa using this
  have hmod : Binary64.mod ((2 ^ 53 : ℤ) : ℚ) ((packetIDs : ℤ) : ℚ) = ((32 : ℤ) : ℚ) :=
    Binary64.mod_intCast (by decide) (by decide) (by decide) (by decide)
  have hcand : candidate ((2 ^ 53 : ℤ) : ℚ) 0 = ((33 : ℤ) : ℚ) := by
    rw [candidate, hadd, ← Int.cast_natCast packetIDs, hmod]
    exact Binary64.add_intCast (by decide)
  have hfree : isFree hash .v2 ((33 : ℤ) : ℚ) = true := by
    rw [isFree]
    simp [hout, hnum]
  have hlost : Binary64.add ((2 ^ 53 : ℤ) : ℚ) 1 = ((2 ^ 53 : ℤ) : ℚ) := by
    have := Binary64.add_two_pow_one
    exact_mod_cast this
  rw [nextOfflinePacketCounter, if_neg (by simp), hround, packetIDs, searchFrom, hcand,
    if_pos hfree, hadd, hlost, Int.floor_intCast]

end KeelGateway.Redis
