import Mathlib.Data.Int.Log
import Mathlib.Data.Rat.Floor
import Mathlib.Tactic.Positivity

/-!
# Arithmetic of double-precision numbers on integers

A double is given by its exact rational value. Every operation is the exact one followed by
rounding to 53 significant bits, to nearest with ties to even. The range of exponents is left
open, so the results are about values that neither overflow nor get subnormal.

Integers up to `2 ^ 53` are exact. The remainder of the Lua language is computed from the floor of
a rounded quotient; `Binary64.mod_intCast` says when that is the integer remainder.

-/

namespace Binary64

/-- The nearest integer, the even one of two. -/
def roundHalfEven (x : ℚ) : ℤ :=
  let d := x - ⌊x⌋
  if d < 1 / 2 then ⌊x⌋
  else if 1 / 2 < d then ⌊x⌋ + 1
  else if ⌊x⌋ % 2 = 0 then ⌊x⌋
  else ⌊x⌋ + 1

/-- The distance of neighbouring doubles at the magnitude of `x`. -/
def ulp (x : ℚ) : ℚ := 2 ^ (Int.log 2 |x| - 52)

/-- The nearest double. -/
def round (x : ℚ) : ℚ := if x = 0 then 0 else roundHalfEven (x / ulp x) * ulp x

/-- Addition. -/
def add (x y : ℚ) : ℚ := round (x + y)

/-- The remainder as Lua computes it. -/
def mod (x y : ℚ) : ℚ := round (x - round (⌊round (x / y)⌋ * y))

/-! ### Rounding to an integer -/

@[simp] theorem roundHalfEven_intCast (n : ℤ) : roundHalfEven n = n := by
  simp [roundHalfEven]

variable {m : ℤ} {x : ℚ}

private theorem le_roundHalfEven (h : (m : ℚ) ≤ x) : m ≤ roundHalfEven x := by
  have hm : m ≤ ⌊x⌋ := Int.le_floor.2 h
  unfold roundHalfEven
  dsimp only
  split_ifs <;> omega

private theorem roundHalfEven_lt (h : x < m - 1 / 2) : roundHalfEven x < m := by
  have hlt : ⌊x⌋ < m := by
    rw [Int.floor_lt]
    linarith
  unfold roundHalfEven
  dsimp only
  split_ifs with h1 h2 h3
  · exact hlt
  all_goals
    -- the fractional part is at least one half, so the floor is below `m - 1`
    have hcast : (⌊x⌋ : ℚ) < m - 1 := by linarith
    have hint : ⌊x⌋ < m - 1 := by exact_mod_cast hcast
    omega

/-! ### Rounding to a double -/

theorem ulp_pos (x : ℚ) : 0 < ulp x := zpow_pos (by norm_num) _

theorem round_of_eq_mul_ulp (h : x = m * ulp x) : round x = x := by
  unfold round
  split_ifs with hx
  · exact hx.symm
  · have hdiv : x / ulp x = m := by
      rw [div_eq_iff (ulp_pos x).ne']
      exact h
    rw [hdiv, roundHalfEven_intCast]
    exact h.symm

theorem log_lt_of_abs_lt (hx : x ≠ 0) {k : ℤ} (h : |x| < 2 ^ k) : Int.log 2 |x| < k := by
  have hpos : 0 < |x| := abs_pos.2 hx
  exact (Int.lt_zpow_iff_log_lt (by norm_num) hpos).1 (by exact_mod_cast h)

theorem exists_eq_mul_ulp (hx : x ≠ 0) (h : |x| < 2 ^ 53) (n : ℤ) :
    ∃ m : ℤ, (n : ℚ) = m * ulp x := by
  have hlog : Int.log 2 |x| < 53 := log_lt_of_abs_lt hx (by exact_mod_cast h)
  obtain ⟨k, hk⟩ : ∃ k : ℕ, Int.log 2 |x| - 52 = -(k : ℤ) :=
    ⟨(52 - Int.log 2 |x|).toNat, by omega⟩
  refine ⟨n * 2 ^ k, ?_⟩
  rw [ulp, hk, zpow_neg, zpow_natCast]
  push_cast
  field_simp

/-- Integers up to `2 ^ 53` are doubles. -/
theorem round_intCast {n : ℤ} (h : |n| ≤ 2 ^ 53) : round n = n := by
  rcases eq_or_ne n 0 with rfl | hn
  · simp [round]
  have hnq : (n : ℚ) ≠ 0 := by exact_mod_cast hn
  rcases h.lt_or_eq with hlt | heq
  · have hltq : |(n : ℚ)| < 2 ^ 53 := by exact_mod_cast hlt
    obtain ⟨m, hm⟩ := exists_eq_mul_ulp hnq hltq n
    exact round_of_eq_mul_ulp hm
  · have habs : |(n : ℚ)| = 2 ^ (53 : ℤ) := by exact_mod_cast heq
    have hulp : ulp (n : ℚ) = 2 := by
      rw [ulp, habs]
      have hlog : Int.log 2 ((2 : ℚ) ^ (53 : ℤ)) = 53 := by
        have := Int.log_zpow (R := ℚ) (b := 2) (by norm_num) 53
        exact_mod_cast this
      rw [hlog]
      norm_num
    obtain ⟨m, hm⟩ : ∃ m : ℤ, n = m * 2 := by
      rcases abs_eq (by norm_num : (0 : ℤ) ≤ 2 ^ 53) |>.1 heq with h | h
      · exact ⟨2 ^ 52, by rw [h]; norm_num⟩
      · exact ⟨-2 ^ 52, by rw [h]; norm_num⟩
    refine round_of_eq_mul_ulp (m := m) ?_
    rw [hulp, hm]
    push_cast
    rfl

theorem add_intCast {n : ℤ} (h : |m + n| ≤ 2 ^ 53) : add m n = ((m + n : ℤ) : ℚ) := by
  rw [add, ← Int.cast_add]
  exact round_intCast h

theorem add_two_pow_one : add (2 ^ 53) 1 = 2 ^ 53 := by
  have hpos : (0 : ℚ) < |2 ^ 53 + 1| := by norm_num
  have hlow : 53 ≤ Int.log 2 |(2 : ℚ) ^ 53 + 1| :=
    (Int.zpow_le_iff_le_log (by norm_num) hpos).1 (by norm_num)
  have hhigh : Int.log 2 |(2 : ℚ) ^ 53 + 1| < 54 := log_lt_of_abs_lt (by norm_num) (by norm_num)
  have hulp : ulp ((2 : ℚ) ^ 53 + 1) = 2 := by
    rw [ulp, show Int.log 2 |(2 : ℚ) ^ 53 + 1| = 53 by omega]
    norm_num
  have hhalf : roundHalfEven ((2 ^ 53 + 1) / 2) = 2 ^ 52 := by
    norm_num [roundHalfEven]
  rw [add, round, hulp, hhalf]
  norm_num

/-! ### The remainder -/

theorem floor_round_div {a b : ℤ} (ha : 0 ≤ a) (hb : 0 < b) (hb' : b < 2 ^ 16)
    (hq : a < 2 ^ 38 * b) : ⌊round ((a : ℚ) / b)⌋ = a / b := by
  rcases ha.eq_or_lt with rfl | hapos
  · simp [round]
  have haq : (0 : ℚ) < a := by exact_mod_cast hapos
  have hbq : (0 : ℚ) < b := by exact_mod_cast hb
  set x : ℚ := (a : ℚ) / b with hx
  have hxpos : 0 < x := div_pos haq hbq
  have hxlt : x < 2 ^ (38 : ℤ) := by
    rw [div_lt_iff₀ hbq]
    exact_mod_cast hq
  have habs : |x| = x := abs_of_pos hxpos
  have hlog : Int.log 2 |x| < 38 := log_lt_of_abs_lt hxpos.ne' (by rw [habs]; exact hxlt)
  -- the unit is so small that `1 / b` is more than half of it
  have hunit : ulp x < 2 / b := by
    have hpow : ulp x ≤ 2 ^ (-15 : ℤ) := by
      exact zpow_le_zpow_right₀ (by norm_num) (by omega)
    have hbound : (2 : ℚ) ^ (-15 : ℤ) < 2 / b := by
      rw [lt_div_iff₀ hbq]
      have hbq' : (b : ℚ) < 2 ^ 16 := by exact_mod_cast hb'
      norm_num at hbq' ⊢
      linarith
    exact hpow.trans_lt hbound
  have hbig : |x| < 2 ^ 53 := by
    rw [habs]
    refine hxlt.trans_le ?_
    norm_num
  have hround : round x = roundHalfEven (x / ulp x) * ulp x := by
    rw [round, if_neg hxpos.ne']
  obtain ⟨m, hm⟩ := exists_eq_mul_ulp hxpos.ne' hbig (a / b)
  obtain ⟨m', hm'⟩ := exists_eq_mul_ulp hxpos.ne' hbig (a / b + 1)
  have hdiv : ((a / b : ℤ) : ℚ) ≤ x := by
    rw [le_div_iff₀ hbq]
    exact_mod_cast Int.ediv_mul_le a hb.ne'
  have hnext : x ≤ ((a / b + 1 : ℤ) : ℚ) - 1 / b := by
    rw [div_le_iff₀ hbq, sub_mul, one_div, inv_mul_cancel₀ hbq.ne']
    have hlt : a < (a / b + 1) * b := Int.lt_ediv_add_one_mul_self a hb
    have hle : a ≤ (a / b + 1) * b - 1 := by omega
    exact_mod_cast hle
  rw [Int.floor_eq_iff, hround]
  constructor
  · have hle : m ≤ roundHalfEven (x / ulp x) := by
      apply le_roundHalfEven
      rw [le_div_iff₀ (ulp_pos x), ← hm]
      exact hdiv
    have hleq : (m : ℚ) ≤ roundHalfEven (x / ulp x) := by exact_mod_cast hle
    rw [hm]
    exact mul_le_mul_of_nonneg_right hleq (ulp_pos x).le
  · have hlt : roundHalfEven (x / ulp x) < m' := by
      apply roundHalfEven_lt
      rw [div_lt_iff₀ (ulp_pos x)]
      have hhalf : 1 / 2 * ulp x < 1 / b := by
        have := hunit
        rw [show (2 : ℚ) / b = 2 * (1 / b) by ring] at this
        linarith
      linarith
    have hltq : (roundHalfEven (x / ulp x) : ℚ) < m' := by exact_mod_cast hlt
    have hprod := mul_lt_mul_of_pos_right hltq (ulp_pos x)
    rw [← hm'] at hprod
    exact_mod_cast hprod

theorem mod_intCast {a b : ℤ} (ha : 0 ≤ a) (ha' : a ≤ 2 ^ 53) (hb : 2 ^ 15 < b)
    (hb' : b < 2 ^ 16) : mod a b = ((a % b : ℤ) : ℚ) := by
  have hb0 : 0 < b := by omega
  have hmod : 0 ≤ a % b := Int.emod_nonneg a hb0.ne'
  have hsplit : b * (a / b) + a % b = a := Int.mul_ediv_add_emod a b
  have hprod : 0 ≤ a / b * b := mul_nonneg (Int.ediv_nonneg ha hb0.le) hb0.le
  have hcomm : b * (a / b) = a / b * b := mul_comm _ _
  have hquot : round (((a / b : ℤ) : ℚ) * b) = ((a / b * b : ℤ) : ℚ) := by
    rw [← Int.cast_mul]
    exact round_intCast (by rw [abs_of_nonneg hprod]; omega)
  rw [mod, floor_round_div ha hb0 hb' (by omega), hquot, ← Int.cast_sub]
  have hrest : a - a / b * b = a % b := by omega
  rw [hrest]
  exact round_intCast (by rw [abs_of_nonneg hmod]; omega)

end Binary64
