import Mathlib.Algebra.Order.Field.Basic
import Mathlib.Algebra.Order.Group.MinMax
import Mathlib.Tactic.Linarith
import KeelGateway.Lib.StepMachine

/-!
# Token buckets

A bucket is refilled at a constant rate up to its size, and an event is allowed if it can take a
whole token out of the bucket. Between two events nothing has to be recorded: the tokens at the last
event and its time determine the level at any later time. A bucket that has had the time to fill up
is as good as a new one.

-/

namespace TokenBucket

open StepMachine

variable {K : Type*} [Field K] [LinearOrder K]

/-- The tokens after the last event, and its time. -/
structure Bucket (K : Type*) where
  tokens : K
  last : K

variable (rate size : K)

/-- The tokens at a later time. -/
def level (b : Bucket K) (now : K) : K := min size (b.tokens + rate * (now - b.last))

/-- A new bucket is full. -/
def fresh (now : K) : Bucket K := ⟨size, now⟩

/-- An event takes a token if there is one. -/
def allow (b : Bucket K) (now : K) : Bucket K × Bool :=
  if 1 ≤ level rate size b now then (⟨level rate size b now - 1, now⟩, true)
  else (⟨level rate size b now, now⟩, false)

/-- The bucket has filled up. -/
def Full (b : Bucket K) (now : K) : Prop := size ≤ b.tokens + rate * (now - b.last)

variable {rate size} {b : Bucket K} {now later : K}

theorem level_of_full (h : Full rate size b now) : level rate size b now = size := min_eq_left h

theorem full_fresh (now : K) : Full rate size (fresh size now) now := by
  simp [Full, fresh]

theorem allow_congr {b' : Bucket K} (h : level rate size b now = level rate size b' now) :
    allow rate size b now = allow rate size b' now := by
  unfold allow
  rw [h]

theorem allow_of_full (h : Full rate size b now) :
    allow rate size b now = allow rate size (fresh size now) now := by
  refine allow_congr ?_
  rw [level_of_full h, level_of_full (full_fresh now)]

theorem last_allow (b : Bucket K) (now : K) : (allow rate size b now).1.last = now := by
  unfold allow
  split_ifs <;> rfl

variable [IsStrictOrderedRing K]

theorem Full.mono (hrate : 0 ≤ rate) (h : Full rate size b now) (hle : now ≤ later) :
    Full rate size b later := by
  have hmul : rate * (now - b.last) ≤ rate * (later - b.last) :=
    mul_le_mul_of_nonneg_left (sub_le_sub_right hle b.last) hrate
  exact h.trans (add_le_add_right hmul b.tokens)

theorem full_of_idle (htokens : 0 ≤ b.tokens) (h : size ≤ rate * (now - b.last)) :
    Full rate size b now :=
  h.trans (le_add_of_nonneg_left htokens)

theorem level_nonneg (hrate : 0 ≤ rate) (hsize : 0 ≤ size) (htokens : 0 ≤ b.tokens)
    (hle : b.last ≤ now) : 0 ≤ level rate size b now :=
  le_min hsize (add_nonneg htokens (mul_nonneg hrate (sub_nonneg.2 hle)))

theorem tokens_allow_nonneg (h : 0 ≤ level rate size b now) :
    0 ≤ (allow rate size b now).1.tokens := by
  unfold allow
  split_ifs with hone
  · exact sub_nonneg.2 hone
  · exact h

/-! ### Events at one time -/

section Burst

variable (rate size)

/-- The answers to a number of events at one time. -/
def burst (now : K) (n : ℕ) (b : Bucket K) : List Bool :=
  answers (allow rate size) b (List.replicate n now)

/-- The bucket after these events. -/
def drained (now : K) (n : ℕ) (b : Bucket K) : Bucket K :=
  run (fun b now => (allow rate size b now).1) b (List.replicate n now)

variable {rate size}

theorem level_allow (h : 1 ≤ level rate size b now) :
    level rate size (allow rate size b now).1 now = level rate size b now - 1 := by
  have hsize : level rate size b now ≤ size := min_le_left _ _
  rw [allow, if_pos h, level, sub_self, mul_zero, add_zero]
  exact min_eq_right (by linarith)

/-- As many events are allowed as there are tokens. -/
theorem burst_eq_replicate {n : ℕ} (h : (n : K) ≤ level rate size b now) :
    burst rate size now n b = List.replicate n true := by
  induction n generalizing b with
  | zero => rfl
  | succ n ih =>
    rw [Nat.cast_succ] at h
    have hone : 1 ≤ level rate size b now := le_trans (by simp) h
    have hrest : (n : K) ≤ level rate size (allow rate size b now).1 now := by
      rw [level_allow hone]
      linarith
    have hanswer : (allow rate size b now).2 = true := by rw [allow, if_pos hone]
    have hburst := ih hrest
    unfold burst at hburst ⊢
    rw [List.replicate_succ, answers, hburst, hanswer, List.replicate_succ]

/-- They take their tokens. -/
theorem drained_eq {n : ℕ} (hn : n ≠ 0) (h : (n : K) ≤ level rate size b now) :
    drained rate size now n b = ⟨level rate size b now - n, now⟩ := by
  induction n generalizing b with
  | zero => exact absurd rfl hn
  | succ n ih =>
    rw [Nat.cast_succ] at h
    have hone : 1 ≤ level rate size b now := le_trans (by simp) h
    have hlevel := level_allow hone
    rw [drained, List.replicate_succ, run_cons, ← drained]
    rcases eq_or_ne n 0 with rfl | hn'
    · simp [drained, allow, hone]
    · rw [ih hn' (by rw [hlevel]; linarith), hlevel, Nat.cast_succ, sub_sub, add_comm 1 (n : K)]

theorem le_level_of_burst (hpos : 0 ≤ level rate size b now) {n : ℕ}
    (h : burst rate size now n b = List.replicate n true) : (n : K) ≤ level rate size b now := by
  induction n generalizing b with
  | zero => simpa using hpos
  | succ n ih =>
    unfold burst at h
    rw [List.replicate_succ, answers, List.replicate_succ, List.cons.injEq] at h
    have hone : 1 ≤ level rate size b now := by
      by_contra hone
      rw [allow, if_neg hone] at h
      cases h.1
    have hlevel := level_allow hone
    have hrest : (n : K) ≤ level rate size (allow rate size b now).1 now :=
      ih (by rw [hlevel]; exact sub_nonneg.2 hone) h.2
    rw [Nat.cast_succ]
    linarith

end Burst

end TokenBucket
