import Mathlib.Algebra.Order.BigOperators.Group.List
import Mathlib.Algebra.Ring.Nat
import KeelGateway.Lib.StepMachine

/-!
# Pools of tasks

Parties that work at the same time are modelled by a pool: a shared state, the tasks that were
started and not done yet, and a log. A step does any one task of the pool. The task may change the
state, write to the log and start other tasks. A pool without tasks has come to its end.

What a pool leaves in its log at the end does not depend on the order of the tasks if every task has
a fixed yield: what it will have written when it and all tasks it leads to are done.

-/

namespace TaskPool

open List StepMachine

/-- A shared state, the open tasks and the log. The effect of a single task is of the same type: the
state after it, the tasks it starts and what it writes to the log. -/
structure Pool (S T O : Type*) where
  state : S
  tasks : List T := []
  log : List O := []

variable {S T O E : Type*} (exec : S → T → E → Pool S T O)

/-- The pool after one of its tasks, which has the given effect. -/
def Pool.after (p : Pool S T O) (i : ℕ) (effect : Pool S T O) : Pool S T O where
  state := effect.state
  tasks := p.tasks.eraseIdx i ++ effect.tasks
  log := p.log ++ effect.log

/-- The task with an index is done. -/
def step (p : Pool S T O) (e : ℕ × E) : Pool S T O :=
  match p.tasks[e.1]? with
  | none => p
  | some t => p.after e.1 (exec p.state t e.2)

variable {exec} in
/-- The only open task is done. -/
theorem step_of_tasks_eq_singleton {p : Pool S T O} {t : T} (h : p.tasks = [t]) (e : E) :
    step exec p (0, e) =
      { exec p.state t e with log := p.log ++ (exec p.state t e).log } := by
  simp only [step, h, List.getElem?_cons_zero, Pool.after, List.eraseIdx_cons_zero,
    List.nil_append]

/-- An open task can be put first. -/
theorem perm_cons_eraseIdx {l : List T} {i : ℕ} {t : T} (h : l[i]? = some t) :
    l ~ t :: l.eraseIdx i := by
  obtain ⟨hi, rfl⟩ := List.getElem?_eq_some_iff.1 h
  exact (getElem_cons_eraseIdx_perm hi).symm

/-- States with `I` and tasks with `P` lead to states with `I` and tasks with `P`. -/
def Closed (I : S → Prop) (P : T → Prop) : Prop :=
  ∀ s t e, I s → P t → I (exec s t e).state ∧ ∀ t' ∈ (exec s t e).tasks, P t'

/-- The pool has a state with `I` and tasks with `P`. -/
def Pool.Within (I : S → Prop) (P : T → Prop) (p : Pool S T O) : Prop :=
  I p.state ∧ ∀ t ∈ p.tasks, P t

variable {exec} {I : S → Prop} {P : T → Prop} {p : Pool S T O}

theorem Closed.run_of_exec (hc : Closed exec I P) {J : Pool S T O → Prop}
    (hJ : ∀ p i t e, p.tasks[i]? = some t → I p.state → P t → J p →
      J (p.after i (exec p.state t e)))
    (hp : p.Within I P) (hs : J p) (es : List (ℕ × E)) :
    (run (step exec) p es).Within I P ∧ J (run (step exec) p es) := by
  refine run_of_step (I := fun p => p.Within I P ∧ J p) (fun p e h => ?_) ⟨hp, hs⟩ es
  obtain ⟨⟨hstate, htasks⟩, hj⟩ := h
  unfold step
  split
  · exact ⟨⟨hstate, htasks⟩, hj⟩
  · next t ht =>
    have hP : P t := htasks t (mem_of_getElem? ht)
    obtain ⟨hstate', hnew⟩ := hc p.state t e.2 hstate hP
    refine ⟨⟨hstate', fun t' ht' => ?_⟩, hJ p e.1 t e.2 ht hstate hP hj⟩
    exact (mem_append.1 ht').elim (fun h => htasks t' (mem_of_mem_eraseIdx h)) (hnew t')

theorem Closed.forall_log (hc : Closed exec I P) {Q : O → Prop}
    (hQ : ∀ s t e, I s → P t → ∀ o ∈ (exec s t e).log, Q o) (hp : p.Within I P)
    (hlog : ∀ o ∈ p.log, Q o) (es : List (ℕ × E)) :
    ∀ o ∈ (run (step exec) p es).log, Q o := by
  refine (hc.run_of_exec (J := fun p => ∀ o ∈ p.log, Q o) (fun p i t e _ hs ht hj o ho => ?_) hp
    hlog es).2
  exact (mem_append.1 ho).elim (hj o) (hQ p.state t e hs ht o)

section Yield

variable {M : Type*} {yield : T → List M} {weight : O → List M}

theorem perm_after (hw : ∀ s t e, I s → P t →
      (exec s t e).log.flatMap weight ++ (exec s t e).tasks.flatMap yield ~ yield t)
    {i : ℕ} {t : T} {e : E} (ht : p.tasks[i]? = some t) (hs : I p.state) (hP : P t) :
    (p.after i (exec p.state t e)).log.flatMap weight ++
        (p.after i (exec p.state t e)).tasks.flatMap yield ~
      p.log.flatMap weight ++ p.tasks.flatMap yield := by
  simp only [Pool.after, flatMap_append, append_assoc]
  refine Perm.append_left _ ?_
  calc (exec p.state t e).log.flatMap weight ++
        ((p.tasks.eraseIdx i).flatMap yield ++ (exec p.state t e).tasks.flatMap yield)
      ~ (exec p.state t e).log.flatMap weight ++
        ((exec p.state t e).tasks.flatMap yield ++ (p.tasks.eraseIdx i).flatMap yield) :=
        perm_append_comm.append_left _
    _ ~ yield t ++ (p.tasks.eraseIdx i).flatMap yield := by
        rw [← append_assoc]
        exact (hw p.state t e hs hP).append_right _
    _ = (t :: p.tasks.eraseIdx i).flatMap yield := flatMap_cons.symm
    _ ~ p.tasks.flatMap yield := (perm_cons_eraseIdx ht).symm.flatMap_right yield

theorem Closed.perm_log (hc : Closed exec I P) (yield : T → List M) (weight : O → List M)
    (hw : ∀ s t e, I s → P t →
      (exec s t e).log.flatMap weight ++ (exec s t e).tasks.flatMap yield ~ yield t)
    (hp : p.Within I P) {es : List (ℕ × E)}
    (hdone : (run (step exec) p es).tasks = []) :
    (run (step exec) p es).log.flatMap weight ~
      p.log.flatMap weight ++ p.tasks.flatMap yield := by
  have hperm := (hc.run_of_exec

    (fun q i t e ht hs hP hj => (perm_after hw ht hs hP).trans hj) hp (Perm.refl _) es).2
  simpa [hdone] using hperm

end Yield

section Replay

variable {F N : Type*} {change : S → F → S} {note : S → F → Option N} {event : O → Option F}
  {outcome : O → Option N}

/-- The state can be replayed from the log, starting at `s`, with the noted outcomes. -/
def Replays (change : S → F → S) (note : S → F → Option N) (event : O → Option F)
    (outcome : O → Option N) (s : S) (p : Pool S T O) : Prop :=
  p.state = run change s (p.log.filterMap event) ∧
    p.log.filterMap outcome = trace change note s (p.log.filterMap event)

theorem Closed.replays (hc : Closed exec I P)
    (hr : ∀ s t e, I s → P t → Replays change note event outcome s (exec s t e)) {s : S}
    (hp : p.Within I P) (hs : Replays change note event outcome s p) (es : List (ℕ × E)) :
    Replays change note event outcome s (run (step exec) p es) := by
  refine (hc.run_of_exec
    (fun q i t e _ hI hP hj => ?_) hp hs es).2
  obtain ⟨hstate, hnotes⟩ := hr q.state t e hI hP
  constructor
  · simp only [Pool.after, filterMap_append, run_append, ← hj.1]
    exact hstate
  · simp only [Pool.after, filterMap_append, trace_append, ← hj.1, hnotes, hj.2]

end Replay

theorem Closed.exists_done [Inhabited E] (hc : Closed exec I P) (rank : T → ℕ)
    (hrank : ∀ s t e, I s → P t → ((exec s t e).tasks.map rank).sum < rank t)
    (hp : p.Within I P) : ∃ es, (run (step exec) p es).tasks = [] := by
  -- the first task is done, until none is left
  induction hn : (p.tasks.map rank).sum using Nat.strong_induction_on generalizing p with
  | h n ih =>
    cases htasks : p.tasks with
    | nil => exact ⟨[], htasks⟩
    | cons t rest =>
      have hfirst : step exec p (0, default) = p.after 0 (exec p.state t default) := by
        simp [step, htasks]
      have hP : P t := hp.2 t (htasks ▸ mem_cons_self)
      have hnext := (hc.run_of_exec (J := fun _ => True) (fun _ _ _ _ _ _ _ _ => trivial) hp trivial
        [(0, default)]).1
      rw [run_cons, hfirst] at hnext
      have hlower : ((p.after 0 (exec p.state t default)).tasks.map rank).sum < n := by
        have hlt := hrank p.state t default hp.1 hP
        rw [← hn]
        simp only [Pool.after, htasks, eraseIdx_zero, tail_cons, map_append, sum_append, map_cons,
          sum_cons]
        omega
      obtain ⟨es, hes⟩ := ih _ hlower hnext rfl
      exact ⟨(0, default) :: es, by rw [run_cons, hfirst]; exact hes⟩

end TaskPool
