import Mathlib.Data.Nat.Notation
import Mathlib.Logic.Function.Basic

/-!
# Mixers of machine words

The finalizers of hash functions mix the bits of a word by operations that lose nothing: a word is
multiplied by an odd constant, and combined with its own upper bits, moved down. The latter is
undone from the highest bit downwards, since a bit is combined with a higher one.

-/

namespace Mixers

/-- A word combined with its own upper bits. -/
def xorShift {w : ℕ} (k : ℕ) (x : BitVec w) : BitVec w := x ^^^ (x >>> k)

theorem getLsbD_xorShift {w : ℕ} (k i : ℕ) (x : BitVec w) :
    (xorShift k x).getLsbD i = (x.getLsbD i ^^ x.getLsbD (k + i)) := by
  rw [xorShift, BitVec.getLsbD_xor, BitVec.getLsbD_ushiftRight]

private theorem xorShift_injective {w k : ℕ} (hk : 0 < k) :
    Function.Injective (xorShift k : BitVec w → BitVec w) := by
  intro x y hxy
  -- `n` is the number of bits from bit `i` upwards
  have hbits : ∀ n i, w ≤ i + n → x.getLsbD i = y.getLsbD i := by
    intro n
    induction n with
    | zero =>
      intro i hi
      rw [BitVec.getLsbD_of_ge x i hi, BitVec.getLsbD_of_ge y i hi]
    | succ n ih =>
      intro i hi
      have hbit := congrArg (BitVec.getLsbD · i) hxy
      rw [getLsbD_xorShift, getLsbD_xorShift, ih (k + i) (by omega)] at hbit
      exact Bool.xor_left_inj.1 hbit
  exact BitVec.eq_of_getLsbD_eq fun i _ => hbits w i (Nat.le_add_left w i)

/-- The same of words of 64 bits, which are shifted by the remainder. -/
def xorShift64 (k x : UInt64) : UInt64 := x ^^^ (x >>> k)

theorem xorShift64_injective {k : UInt64} (hk : 0 < k.toNat % 64) :
    Function.Injective (xorShift64 k) := by
  intro x y hxy
  have hbits := congrArg UInt64.toBitVec hxy
  exact UInt64.toBitVec_inj.1 (xorShift_injective hk hbits)

end Mixers
