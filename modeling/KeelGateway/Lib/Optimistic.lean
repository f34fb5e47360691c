import Mathlib.Data.List.Basic
import Mathlib.Order.Nat

/-!
# Cells for optimistic transactions

An optimistic transaction remembers the versions of the cells it depends on, reads them, and
commits only if none of the versions has changed since. A cell counts its writes, a write of the
same value included. What a transaction knows about a cell is an observation: a version not later
than the present one, and a fact about the value that holds as long as the version is the present
one. Observations survive everything that other parties do to the cell.

-/

namespace Optimistic

/-- A value with the number of its writes. -/
structure Cell (α : Type*) where
  value : α
  version : ℕ := 0

namespace Cell

variable {α : Type*}

/-- A write counts even if it leaves the value as it is. -/
def write (c : Cell α) (a : α) : Cell α := ⟨a, c.version + 1⟩

@[simp] theorem value_write (c : Cell α) (a : α) : (c.write a).value = a := rfl

/-- The cell was left alone, or it was written. -/
def Evolves (c d : Cell α) : Prop := d = c ∨ c.version < d.version

theorem Evolves.refl (c : Cell α) : c.Evolves c := Or.inl rfl

theorem evolves_write (c : Cell α) (a : α) : c.Evolves (c.write a) :=
  Or.inr (Nat.lt_succ_self _)

end Cell

variable {α : Type*}

/-- The version `v` was seen, and `P` holds of the value if the version is still `v`. -/
def Observed (c : Cell α) (v : ℕ) (P : α → Prop) : Prop :=
  v ≤ c.version ∧ (v = c.version → P c.value)

variable {P : α → Prop} {c : Cell α} {v : ℕ}

theorem Observed.read {Q : α → Prop} (h : Observed c v P) (hQ : Q c.value) : Observed c v Q :=
  ⟨h.1, fun _ => hQ⟩

/-- To note the version of a cell. -/
theorem observed_version (c : Cell α) : Observed c c.version fun _ => True :=
  ⟨le_rfl, fun _ => trivial⟩

/-- Observations survive the steps of other parties. -/
theorem Observed.evolves {d : Cell α} (h : Observed c v P) (hd : c.Evolves d) : Observed d v P := by
  rcases hd with rfl | hlt
  · exact h
  · exact ⟨h.1.trans hlt.le, fun heq => absurd heq (h.1.trans_lt hlt).ne⟩

/-- At an unchanged version the observed fact holds. -/
theorem Observed.commit (h : Observed c v P) (hv : c.version = v) : P c.value :=
  h.2 hv.symm

end Optimistic
