import Mathlib.Data.List.Basic

/-!
# Programs that talk to an environment

A program makes commands one after the other, gets an answer to each, and may choose its next
command by the answers so far. Nothing is assumed about the answers. What a program does is
therefore stated for all answers, in terms of the transcript: the commands with their answers, in
order.

-/

namespace Dialogue

variable {C A α β : Type}

/-- A program: it returns a result, or makes a command and goes on with the answer. -/
inductive Prog (C A : Type) (α : Type) where
  | ret (a : α)
  | command (c : C) (next : A → Prog C A α)

namespace Prog

/-- A program followed by another one that gets its result. -/
def bind (p : Prog C A α) (f : α → Prog C A β) : Prog C A β :=
  match p with
  | ret a => f a
  | command c next => command c fun answer => (next answer).bind f

instance : Monad (Prog C A) where
  pure := ret
  bind := bind

/-- A single command. -/
def ask (c : C) : Prog C A A := command c ret

/-- The transcript and the result, for the answers in their order. -/
def run : Prog C A α → (ℕ → A) → List (C × A) × α
  | ret a, _ => ([], a)
  | command c next, answers =>
    let (transcript, a) := (next (answers 0)).run fun i => answers (i + 1)
    ((c, answers 0) :: transcript, a)

theorem run_bind (p : Prog C A α) (f : α → Prog C A β) (answers : ℕ → A) :
    (p >>= f).run answers =
      ((p.run answers).1 ++
          ((f (p.run answers).2).run fun i => answers (i + (p.run answers).1.length)).1,
        ((f (p.run answers).2).run fun i => answers (i + (p.run answers).1.length)).2) := by
  induction p generalizing answers with
  | ret a => rfl
  | command c next ih =>
    have hstep := ih (answers 0) fun i => answers (i + 1)
    have hbind : (command c next >>= f).run answers =
        ((c, answers 0) :: ((next (answers 0) >>= f).run fun i => answers (i + 1)).1,
          ((next (answers 0) >>= f).run fun i => answers (i + 1)).2) := rfl
    rw [hbind, hstep]
    simp only [run, List.cons_append, List.length_cons, Nat.add_assoc]

theorem run_answer (p : Prog C A α) {answers : ℕ → A} {i : ℕ} {x : C × A}
    (h : (p.run answers).1[i]? = some x) : x.2 = answers i := by
  induction p generalizing answers i with
  | ret a => cases h
  | command c next ih =>
    cases i with
    | zero =>
      cases h
      rfl
    | succ i =>
      have htail : ((next (answers 0)).run fun i => answers (i + 1)).1[i]? = some x := h
      have hanswer := ih (answers 0) htail
      exact hanswer

end Prog

open Prog

/-- Whatever the answers are, the transcript and the result satisfy the condition. -/
def Ensures (p : Prog C A α) (Q : List (C × A) → α → Prop) : Prop :=
  ∀ answers, Q (p.run answers).1 (p.run answers).2

namespace Ensures

variable {p : Prog C A α} {f : α → Prog C A β} {Q Q' : List (C × A) → α → Prop}
  {R : List (C × A) → β → Prop} {c : C}

theorem pure {a : α} (h : Q [] a) : Ensures (Pure.pure a : Prog C A α) Q := fun _ => h

theorem ask {Q : List (C × A) → A → Prop} (h : ∀ answer, Q [(c, answer)] answer) :
    Ensures (Prog.ask c) Q := fun answers => h (answers 0)

theorem bind (h : Ensures p fun t a => Ensures (f a) fun t' b => R (t ++ t') b) :
    Ensures (p >>= f) R := by
  intro answers
  rw [run_bind]
  exact h answers _

/-- A command comes first. -/
theorem ask_bind {g : A → Prog C A β}
    (h : ∀ answer, Ensures (g answer) fun t b => R ((c, answer) :: t) b) :
    Ensures (Prog.ask c >>= g) R :=
  bind (ask h)

theorem imp (h : Ensures p Q) (hQ : ∀ t a, Q t a → Q' t a) : Ensures p Q' :=
  fun answers => hQ _ _ (h answers)

end Ensures

end Dialogue
