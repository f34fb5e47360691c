import Mathlib.Data.List.Basic

/-!
# Writes that may be repeated

A job that copies data writes every cell with one value. It may be stopped after any of its writes
and started again from the beginning, any number of times. As long as all its writes agree on the
value of every cell, only the set of the writes that were carried out matters, and a job that has
carried out all of them leaves the same cells as one that was never stopped.

-/

namespace Writes

variable {K V : Type*} [DecidableEq K]

/-- The cells after a list of writes. -/
def apply (s : K → Option V) (ws : List (K × V)) : K → Option V :=
  ws.foldl (fun s w => Function.update s w.1 (some w.2)) s

theorem apply_append (s : K → Option V) (vs ws : List (K × V)) :
    apply s (vs ++ ws) = apply (apply s vs) ws :=
  List.foldl_append

/-- The writes agree on every cell. -/
def Consistent (ws : List (K × V)) : Prop :=
  ∀ v ∈ ws, ∀ w ∈ ws, v.1 = w.1 → v.2 = w.2

omit [DecidableEq K] in
variable {vs ws : List (K × V)} {s : K → Option V}

theorem Consistent.mono (h : Consistent ws) (hvs : vs ⊆ ws) : Consistent vs :=
  fun v hv w hw => h v (hvs hv) w (hvs hw)

theorem apply_cases (s : K → Option V) (ws : List (K × V)) (k : K) :
    (apply s ws k = s k ∧ ∀ w ∈ ws, w.1 ≠ k) ∨ ∃ w ∈ ws, w.1 = k ∧ apply s ws k = some w.2 := by
  induction ws generalizing s with
  | nil => exact Or.inl ⟨rfl, by simp⟩
  | cons w ws ih =>
    rcases ih (Function.update s w.1 (some w.2)) with ⟨hsame, hother⟩ | ⟨v, hv, hk, hval⟩
    · by_cases hk : w.1 = k
      · refine Or.inr ⟨w, List.mem_cons_self, hk, hsame.trans ?_⟩
        rw [← hk, Function.update_self]
      · refine Or.inl ⟨hsame.trans (Function.update_of_ne (Ne.symm hk) _ _), ?_⟩
        exact List.forall_mem_cons.2 ⟨hk, hother⟩
    · exact Or.inr ⟨v, List.mem_cons_of_mem w hv, hk, hval⟩

/-- Consistent writes are all there in the end. -/
theorem apply_of_mem (h : Consistent ws) (s : K → Option V) {w : K × V} (hw : w ∈ ws) :
    apply s ws w.1 = some w.2 := by
  rcases apply_cases s ws w.1 with ⟨-, hother⟩ | ⟨v, hv, hk, hval⟩
  · exact absurd rfl (hother w hw)
  · rw [hval, h v hv w hw hk]

/-- Every cell is as it was at the start, or as one of the writes makes it. -/
def Between (start s : K → Option V) (ws : List (K × V)) : Prop :=
  ∀ k, s k = start k ∨ ∃ w ∈ ws, w.1 = k ∧ s k = some w.2

omit [DecidableEq K] in
theorem Between.refl (start : K → Option V) (ws : List (K × V)) : Between start start ws :=
  fun _ => Or.inl rfl

theorem Between.apply {start : K → Option V} (h : Between start s ws) (hvs : vs ⊆ ws) :
    Between start (apply s vs) ws := by
  intro k
  rcases apply_cases s vs k with ⟨hsame, -⟩ | ⟨v, hv, hk, hval⟩
  · rw [hsame]
    exact h k
  · exact Or.inr ⟨v, hvs hv, hk, hval⟩

theorem apply_of_done (h : Consistent ws) (hvs : vs ⊆ ws) {w : K × V} (hw : w ∈ ws)
    (hdone : s w.1 = some w.2) : apply s vs w.1 = some w.2 := by
  rcases apply_cases s vs w.1 with ⟨hsame, -⟩ | ⟨v, hv, hk, hval⟩
  · exact hsame.trans hdone
  · rw [hval, h v (hvs hv) w hw hk]

theorem Between.eq_apply {start : K → Option V} (h : Between start s ws)
    (hdone : ∀ w ∈ ws, s w.1 = some w.2) : s = Writes.apply start ws := by
  funext k
  rcases apply_cases start ws k with ⟨hsame, hother⟩ | ⟨w, hw, rfl, hval⟩
  · rw [hsame]
    rcases h k with hk | ⟨w, hw, hk, -⟩
    · exact hk
    · exact absurd hk (hother w hw)
  · rw [hval, hdone w hw]

end Writes
