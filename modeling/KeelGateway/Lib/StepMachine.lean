import Mathlib.Data.List.Basic
import Mathlib.Data.List.Induction

/-!
# Runs of a step machine

A machine is a function `step : S → E → S`: the state after an event. Whatever an outside party
chooses (the interleaving, a fault, the content of a packet) is part of the event, so a run is a
list of events. A property can be asked of every state of a run (`Always`), a condition of every
step of it (`Along`). The two are linked once here, by induction on the run, so that a
development proves what one step does and nothing more.

-/

namespace StepMachine

variable {S E : Type*} (step : S → E → S)

/-- The state after a list of events. -/
def run (s : S) (es : List E) : S := es.foldl step s

/-- `P` holds in the first state of a run and after each of its steps. -/
def Always (P : S → Prop) : S → List E → Prop
  | s, [] => P s
  | s, e :: es => P s ∧ Always P (step s e) es

/-- Every step of a run meets the condition `ok` at the state before the step. -/
def Along (ok : S → E → Prop) : S → List E → Prop
  | _, [] => True
  | s, e :: es => ok s e ∧ Along ok (step s e) es

/-- What is noted down along a run, in order, by an observer that notes something at some steps. -/
def trace {O : Type*} (note : S → E → Option O) : S → List E → List O
  | _, [] => []
  | s, e :: es => (note s e).toList ++ trace note (step s e) es

instance decidableAlways {P : S → Prop} [DecidablePred P] :
    (s : S) → (es : List E) → Decidable (Always step P s es)
  | s, [] => inferInstanceAs (Decidable (P s))
  | s, e :: es =>
    have : Decidable (Always step P (step s e) es) := decidableAlways (step s e) es
    inferInstanceAs (Decidable (P s ∧ Always step P (step s e) es))

instance decidableAlong {ok : S → E → Prop} [∀ s e, Decidable (ok s e)] :
    (s : S) → (es : List E) → Decidable (Along step ok s es)
  | _, [] => inferInstanceAs (Decidable True)
  | s, e :: es =>
    have : Decidable (Along step ok (step s e) es) := decidableAlong (step s e) es
    inferInstanceAs (Decidable (ok s e ∧ Along step ok (step s e) es))

@[simp] theorem run_nil (s : S) : run step s [] = s := rfl

@[simp] theorem run_cons (s : S) (e : E) (es : List E) :
    run step s (e :: es) = run step (step s e) es := rfl

theorem run_append (s : S) (es fs : List E) :
    run step s (es ++ fs) = run step (run step s es) fs :=
  List.foldl_append

theorem trace_append {O : Type*} (note : S → E → Option O) (s : S) (es fs : List E) :
    trace step note s (es ++ fs) =
      trace step note s es ++ trace step note (run step s es) fs := by
  induction es generalizing s with
  | nil => rfl
  | cons e es ih => rw [List.cons_append, trace, trace, ih, List.append_assoc, run_cons]

variable {step} {P Q I : S → Prop} {p q ok : S → E → Prop} {s : S} {es fs : List E}

theorem Always.head (h : Always step P s es) : P s := by
  cases es with
  | nil => exact h
  | cons e es => exact h.1

theorem always_iff_and_along :
    Always step P s es ↔ P s ∧ Along step (fun s e => P (step s e)) s es := by
  induction es generalizing s with
  | nil => exact (and_iff_left trivial).symm
  | cons e es ih => exact and_congr_right fun _ => ih

theorem Always.last (h : Always step P s es) : P (run step s es) := by
  induction es generalizing s with
  | nil => exact h
  | cons e es ih => exact ih h.2

theorem Always.along (h : Always step P s es) (hok : ∀ s e, P s → ok s e) : Along step ok s es := by
  induction es generalizing s with
  | nil => trivial
  | cons e es ih => exact ⟨hok s e h.1, ih h.2⟩

theorem always_of_along (hstep : ∀ s e, I s → ok s e → I (step s e)) (hs : I s)
    (hok : Along step ok s es) : Always step I s es := by
  induction es generalizing s with
  | nil => exact hs
  | cons e es ih => exact ⟨hs, ih (hstep s e hs hok.1) hok.2⟩

theorem run_of_step (hstep : ∀ s e, I s → I (step s e)) (hs : I s) (es : List E) :
    I (run step s es) := by
  induction es generalizing s with
  | nil => exact hs
  | cons e es ih => exact ih (hstep s e hs)

theorem run_of_simulation {T : Type*} {stepT : T → E → T} {R : S → T → Prop}
    (hstep : ∀ e ∈ es, ∀ s t, R s t → R (step s e) (stepT t e)) {t : T} (h : R s t) :
    R (run step s es) (run stepT t es) := by
  induction es generalizing s t with
  | nil => exact h
  | cons e es ih =>
    exact ih (fun e' he' => hstep e' (List.mem_cons_of_mem _ he'))
      (hstep e List.mem_cons_self s t h)

theorem run_iff_along_of_simulation {T : Type*} {stepT : T → E → T} {R P : S → T → Prop}
    (hR : ∀ e ∈ es, ∀ s t, R s t → R (step s e) (stepT t e))
    (hP : ∀ e ∈ es, ∀ s t, R s t → (P (step s e) (stepT t e) ↔ P s t ∧ ok s e)) {t : T}
    (h : R s t) : P (run step s es) (run stepT t es) ↔ P s t ∧ Along step ok s es := by
  induction es generalizing s t with
  | nil => exact (and_iff_left trivial).symm
  | cons e es ih =>
    have hhead := List.mem_cons_self (a := e) (l := es)
    rw [run_cons, run_cons, ih (fun e' he' => hR e' (List.mem_cons_of_mem _ he'))
      (fun e' he' => hP e' (List.mem_cons_of_mem _ he')) (hR e hhead s t h), hP e hhead s t h,
      and_assoc]
    rfl

theorem always_view {T F : Type*} {stepT : T → F → T} {view : S → T} {viewE : E → F}
    (hview : ∀ e ∈ es, ∀ s, view (step s e) = stepT (view s) (viewE e)) (P : T → Prop) (s : S) :
    Always stepT P (view s) (es.map viewE) ↔ Always step (fun s => P (view s)) s es := by
  induction es generalizing s with
  | nil => exact Iff.rfl
  | cons e es ih =>
    rw [List.map_cons, Always, Always, ← hview e List.mem_cons_self,
      ih fun e' he' => hview e' (List.mem_cons_of_mem _ he')]

theorem along_view {T F : Type*} {stepT : T → F → T} {view : S → T} {viewE : E → F}
    (hview : ∀ e ∈ es, ∀ s, view (step s e) = stepT (view s) (viewE e)) (ok : T → F → Prop)
    (s : S) : Along stepT ok (view s) (es.map viewE) ↔
      Along step (fun s e => ok (view s) (viewE e)) s es := by
  induction es generalizing s with
  | nil => exact Iff.rfl
  | cons e es ih =>
    rw [List.map_cons, Along, Along, ← hview e List.mem_cons_self,
      ih fun e' he' => hview e' (List.mem_cons_of_mem _ he')]

theorem run_iff_forall {keeps : E → Prop} (hstep : ∀ e ∈ es, ∀ s, P (step s e) ↔ P s ∧ keeps e)
    (s : S) : P (run step s es) ↔ P s ∧ ∀ e ∈ es, keeps e := by
  induction es generalizing s with
  | nil => simp
  | cons e es ih =>
    rw [run_cons, ih (fun e' he' => hstep e' (List.mem_cons_of_mem _ he')),
      hstep e List.mem_cons_self, List.forall_mem_cons, and_assoc]

theorem run_iff_exists {makes : E → Prop} (hstep : ∀ e ∈ es, ∀ s, P (step s e) ↔ P s ∨ makes e)
    (s : S) : P (run step s es) ↔ P s ∨ ∃ e ∈ es, makes e := by
  induction es generalizing s with
  | nil => simp
  | cons e es ih =>
    rw [run_cons, ih (fun e' he' => hstep e' (List.mem_cons_of_mem _ he')),
      hstep e List.mem_cons_self, List.exists_mem_cons_iff, or_assoc]

theorem along_of_invariant {Q : S → E → Prop} (hstep : ∀ s e, I s → ok s e → I (step s e))
    (hQ : ∀ s e, I s → ok s e → Q s e) (hs : I s) (hok : Along step ok s es) :
    Along step Q s es := by
  induction es generalizing s with
  | nil => trivial
  | cons e es ih => exact ⟨hQ s e hs hok.1, ih (hstep s e hs hok.1) hok.2⟩

theorem along_of_step {Q : S → E → Prop} (hstep : ∀ s e, I s → I (step s e))
    (hQ : ∀ s e, I s → Q s e) (hs : I s) (es : List E) : Along step Q s es := by
  induction es generalizing s with
  | nil => trivial
  | cons e es ih => exact ⟨hQ s e hs, ih (hstep s e hs)⟩

theorem along_iff_of_invariant (hstep : ∀ s e, I s → I (step s e))
    (hpq : ∀ s e, I s → (p s e ↔ q s e)) (hs : I s) (es : List E) :
    Along step p s es ↔ Along step q s es := by
  induction es generalizing s with
  | nil => exact Iff.rfl
  | cons e es ih => exact and_congr (hpq s e hs) (ih (hstep s e hs))

theorem along_append :
    Along step ok s (es ++ fs) ↔ Along step ok s es ∧ Along step ok (run step s es) fs := by
  induction es generalizing s with
  | nil => simp [Along]
  | cons e es ih => simp only [List.cons_append, Along, ih, run_cons, and_assoc]

theorem Along.imp (hp : Along step p s es) (hpq : ∀ s e, p s e → q s e) : Along step q s es := by
  induction es generalizing s with
  | nil => trivial
  | cons e es ih => exact ⟨hpq s e hp.1, ih hp.2⟩

theorem Along.and (hp : Along step p s es) (hq : Along step q s es) :
    Along step (fun s e => p s e ∧ q s e) s es := by
  induction es generalizing s with
  | nil => trivial
  | cons e es ih => exact ⟨⟨hp.1, hq.1⟩, ih hp.2 hq.2⟩

theorem Always.imp (h : Always step P s es) (hPQ : ∀ s, P s → Q s) : Always step Q s es := by
  induction es generalizing s with
  | nil => exact hPQ s h
  | cons e es ih => exact ⟨hPQ s h.1, ih h.2⟩

theorem Always.congr (h : Always step I s es) (hPQ : ∀ s, I s → (P s ↔ Q s)) :
    Always step P s es ↔ Always step Q s es := by
  induction es generalizing s with
  | nil => exact hPQ s h
  | cons e es ih => exact and_congr (hPQ s h.1) (ih h.2)

/-- A condition on the events alone. -/
theorem along_of_forall {p : E → Prop} (hp : ∀ e ∈ es, p e) (s : S) :
    Along step (fun _ e => p e) s es := by
  induction es generalizing s with
  | nil => trivial
  | cons e es ih =>
    exact ⟨hp e List.mem_cons_self, ih (fun e' he' => hp e' (List.mem_cons_of_mem _ he')) _⟩

theorem Along.and_forall {p : E → Prop} (h : Along step ok s es) (hp : ∀ e ∈ es, p e) :
    Along step (fun s e => ok s e ∧ p e) s es := by
  induction es generalizing s with
  | nil => trivial
  | cons e es ih =>
    exact ⟨⟨h.1, hp e List.mem_cons_self⟩, ih h.2 fun e' he' => hp e' (List.mem_cons_of_mem _ he')⟩

theorem trace_of_along {O : Type*} {note : S → E → Option O} {I : List O → S → Prop}
    (hstep : ∀ os s e, I os s → ok s e → I (os ++ (note s e).toList) (step s e)) {os : List O}
    (hs : I os s) (hok : Along step ok s es) : I (os ++ trace step note s es) (run step s es) := by
  induction es generalizing os s with
  | nil =>
    rw [trace, List.append_nil]
    exact hs
  | cons e es ih =>
    rw [trace, ← List.append_assoc]
    exact ih (hstep os s e hs hok.1) hok.2

theorem countP_trace_le {O : Type*} {note : S → E → Option O} {p : O → Bool}
    (hI : ∀ s e, I s → ok s e → I (step s e)) {f : S → ℕ}
    (hf : ∀ s e, I s → ok s e → (note s e).toList.countP p + f s ≤ f (step s e)) (hs : I s)
    (hok : Along step ok s es) : (trace step note s es).countP p + f s ≤ f (run step s es) := by
  induction es generalizing s with
  | nil => simp [trace]
  | cons e es ih =>
    have hhead := hf s e hs hok.1
    have htail := ih (hI s e hs hok.1) hok.2
    rw [trace, List.countP_append, run_cons]
    omega

theorem countP_trace_eq {O : Type*} {note : S → E → Option O} {p : O → Bool} {f : S → ℕ}
    (hf : ∀ s e, (note s e).toList.countP p + f s = f (step s e)) (s : S) (es : List E) :
    (trace step note s es).countP p + f s = f (run step s es) := by
  induction es generalizing s with
  | nil => simp [trace]
  | cons e es ih =>
    have hhead := hf s e
    have htail := ih (step s e)
    rw [trace, List.countP_append, run_cons]
    omega

theorem always_iff_along_of_side {side : S → E → Prop}
    (hI : ∀ s e, I s → P s → side s e → I (step s e))
    (hstep : ∀ s e, I s → P s → side s e → (P (step s e) ↔ ok s e)) (hinv : I s) (hs : P s)
    (hside : Along step side s es) : Always step P s es ↔ Along step ok s es := by
  induction es generalizing s with
  | nil => exact iff_of_true hs trivial
  | cons e es ih =>
    obtain ⟨hfirst, hrest⟩ := hside
    have hnextInv := hI s e hinv hs hfirst
    constructor
    · rintro ⟨-, h⟩
      have hnext : P (step s e) := h.head
      exact ⟨(hstep s e hinv hs hfirst).1 hnext, (ih hnextInv hnext hrest).1 h⟩
    · rintro ⟨he, h⟩
      have hnext : P (step s e) := (hstep s e hinv hs hfirst).2 he
      exact ⟨hs, (ih hnextInv hnext hrest).2 h⟩

theorem always_iff_along_of_invariant (hI : ∀ s e, I s → P s → I (step s e))
    (hstep : ∀ s e, I s → P s → (P (step s e) ↔ ok s e)) (hinv : I s) (hs : P s) :
    Always step P s es ↔ Along step ok s es := by
  have htrue : Along step (fun _ _ => True) s es :=
    along_of_step (I := fun _ => True) (fun _ _ _ => trivial) (fun _ _ _ => trivial) trivial es
  exact always_iff_along_of_side (fun s e hi hp _ => hI s e hi hp)
    (fun s e hi hp _ => hstep s e hi hp) hinv hs htrue

/-- The same without an invariant. -/
theorem always_iff_along (hstep : ∀ s e, P s → (P (step s e) ↔ ok s e)) (hs : P s) :
    Always step P s es ↔ Along step ok s es :=
  always_iff_along_of_invariant (I := fun _ => True) (fun _ _ _ _ => trivial)
    (fun s e _ => hstep s e) trivial hs

/-- The state has a component for every index, and an event acts on the component of its index
alone. -/
structure Componentwise {K V : Type*} (step : S → E → S) (index : E → K) (get : S → K → V)
    (act : V → E → V) : Prop where
  own : ∀ s e, get (step s e) (index e) = act (get s (index e)) e
  other : ∀ s e k, k ≠ index e → get (step s e) k = get s k

theorem Componentwise.get_run {K V : Type*} [DecidableEq K] {index : E → K} {get : S → K → V}
    {act : V → E → V} (h : Componentwise step index get act) (s : S) (es : List E) (k : K) :
    get (run step s es) k = run act (get s k) (es.filter (index · = k)) := by
  induction es generalizing s with
  | nil => rfl
  | cons e es ih =>
    rw [run_cons, ih, List.filter_cons]
    by_cases hk : index e = k
    · subst hk
      rw [h.own, if_pos (by simp), run_cons]
    · rw [h.other s e k (Ne.symm hk), if_neg (by simpa using hk)]

theorem Componentwise.filter_trace {K V O : Type*} [DecidableEq K] {index : E → K} {get : S → K → V}
    {act : V → E → V} (h : Componentwise step index get act) {note : S → E → Option (K × O)}
    {noteAct : V → E → Option (K × O)} (hnote : ∀ s e, note s e = noteAct (get s (index e)) e)
    (hindex : ∀ v e o, noteAct v e = some o → o.1 = index e) (s : S) (es : List E) (k : K) :
    (trace step note s es).filter (·.1 = k) =
      trace act noteAct (get s k) (es.filter (index · = k)) := by
  induction es generalizing s with
  | nil => rfl
  | cons e es ih =>
    rw [trace, List.filter_append, ih, hnote]
    have hall : ∀ o ∈ (noteAct (get s (index e)) e).toList, o.1 = index e :=
      fun o ho => hindex _ _ o (Option.mem_toList.1 ho)
    by_cases hk : index e = k
    · subst hk
      rw [List.filter_eq_self.2 fun o ho => by simpa using hall o ho, h.own,
        List.filter_cons_of_pos (by simp), trace]
    · rw [List.filter_eq_nil_iff.2 fun o ho => by simpa [hall o ho] using hk,
        h.other s e k (Ne.symm hk), List.filter_cons_of_neg (by simpa using hk), List.nil_append]

/-! ### Histories -/

/-- An event of the history brings something about, and no event after it ends that. -/
def Since (makes ends : E → Prop) (es : List E) : Prop :=
  ∃ before e after, es = before ++ e :: after ∧ makes e ∧ ∀ e' ∈ after, ¬ ends e'

section Since

variable {makes ends : E → Prop}

theorem not_since_nil : ¬ Since makes ends [] := by
  rintro ⟨before, e, after, h, -⟩
  exact List.append_ne_nil_of_right_ne_nil before (List.cons_ne_nil e after) h.symm

theorem since_concat {es : List E} {e : E} :
    Since makes ends (es ++ [e]) ↔ makes e ∨ (Since makes ends es ∧ ¬ ends e) := by
  constructor
  · rintro ⟨before, e', after, h, hmakes, hafter⟩
    rcases List.eq_nil_or_concat after with rfl | ⟨after, last, rfl⟩
    · obtain ⟨-, heq⟩ := List.append_inj' h rfl
      cases heq
      exact Or.inl hmakes
    · rw [List.concat_eq_append] at hafter
      rw [List.concat_eq_append, ← List.cons_append, ← List.append_assoc] at h
      obtain ⟨rfl, heq⟩ := List.append_inj' h rfl
      cases heq
      exact Or.inr ⟨⟨before, e', after, rfl, hmakes, fun x hx => hafter x (by simp [hx])⟩,
        hafter e (by simp)⟩
  · rintro (hmakes | ⟨⟨before, e', after, rfl, hmakes, hafter⟩, hends⟩)
    · exact ⟨es, e, [], rfl, hmakes, by simp⟩
    · refine ⟨before, e', after ++ [e], by simp, hmakes, fun x hx => ?_⟩
      rcases List.mem_append.1 hx with hx | hx
      · exact hafter x hx
      · rwa [List.mem_singleton.1 hx]

theorem since_map {F : Type*} {makes ends : F → Prop} (view : E → F) (es : List E) :
    Since makes ends (es.map view) ↔
      Since (fun e => makes (view e)) (fun e => ends (view e)) es := by
  induction es using List.reverseRecOn with
  | nil => simp [not_since_nil]
  | append_singleton es e ih =>
    rw [List.map_append, List.map_singleton, since_concat, since_concat, ih]

theorem run_iff_since {P : S → Prop}
    (hstep : ∀ s e, P (step s e) ↔ makes e ∨ (P s ∧ ¬ ends e)) (s : S) (es : List E) :
    P (run step s es) ↔ Since makes ends es ∨ (P s ∧ ∀ e ∈ es, ¬ ends e) := by
  induction es using List.reverseRecOn with
  | nil => simp [not_since_nil]
  | append_singleton es e ih =>
    rw [run_append, run_cons, run_nil, hstep, since_concat, List.forall_mem_append]
    simp only [List.mem_singleton, forall_eq]
    tauto

theorem run_iff_since_of_not {P : S → Prop}
    (hstep : ∀ s e, P (step s e) ↔ makes e ∨ (P s ∧ ¬ ends e)) {s : S} (hs : ¬ P s) (es : List E) :
    P (run step s es) ↔ Since makes ends es := by
  simp [run_iff_since hstep, hs]

end Since

/-! ### Machines that answer and may fail -/

section Answers

variable {T F O : Type*}

/-- The answers of a machine to the events of a run. -/
def answers (step : S → E → S × O) : S → List E → List O
  | _, [] => []
  | s, e :: es => (step s e).2 :: answers step (step s e).1 es

/-- A run of a machine that answers every event or fails: the last state and the answers. -/
def exec (step : S → E → Option (S × O)) : S → List E → Option (S × List O)
  | s, [] => some (s, [])
  | s, e :: es =>
    (step s e).bind fun next => (exec step next.1 es).map fun last => (last.1, next.2 :: last.2)

theorem answers_append (step : S → E → S × O) (s : S) (es fs : List E) :
    answers step s (es ++ fs) =
      answers step s es ++ answers step (run (fun s e => (step s e).1) s es) fs := by
  induction es generalizing s with
  | nil => rfl
  | cons e es ih => rw [List.cons_append, answers, ih, answers, List.cons_append, run_cons]

theorem length_answers (step : S → E → S × O) (s : S) (es : List E) :
    (answers step s es).length = es.length := by
  induction es generalizing s with
  | nil => rfl
  | cons e es ih => rw [answers, List.length_cons, ih, List.length_cons]

variable {step : S → E → Option (S × O)} (stepT : T → F → T × O) (view : E → F) {R : S → T → Prop}
  {ok : E → Prop}

theorem exec_of_refinement
    (hstep : ∀ s t e, ok e → R s t →
      ∃ s', step s e = some (s', (stepT t (view e)).2) ∧ R s' (stepT t (view e)).1)
    {s : S} {t : T} (h : R s t) {es : List E} (hes : ∀ e ∈ es, ok e) :
    ∃ s', exec step s es = some (s', answers stepT t (es.map view)) ∧
      R s' (run (fun t f => (stepT t f).1) t (es.map view)) := by
  induction es generalizing s t with
  | nil => exact ⟨s, rfl, h⟩
  | cons e es ih =>
    obtain ⟨s', hs', h'⟩ := hstep s t e (hes e List.mem_cons_self) h
    obtain ⟨s'', hs'', h''⟩ := ih h' fun e' he' => hes e' (List.mem_cons_of_mem _ he')
    exact ⟨s'', by rw [exec, hs', Option.bind_some, hs'']; rfl, h''⟩

theorem exec_eq_none
    (hstep : ∀ s t e, ok e → R s t →
      ∃ s', step s e = some (s', (stepT t (view e)).2) ∧ R s' (stepT t (view e)).1)
    (hfail : ∀ s t e, ¬ ok e → R s t → step s e = none)
    {s : S} {t : T} (h : R s t) {es : List E} (hes : ∃ e ∈ es, ¬ ok e) : exec step s es = none := by
  induction es generalizing s t with
  | nil => simp at hes
  | cons e es ih =>
    by_cases he : ok e
    · obtain ⟨s', hs', h'⟩ := hstep s t e he h
      have hrest : ∃ e' ∈ es, ¬ ok e' := by
        obtain ⟨e', he', hnot⟩ := hes
        rcases List.mem_cons.1 he' with rfl | he'
        · exact absurd he hnot
        · exact ⟨e', he', hnot⟩
      rw [exec, hs', Option.bind_some, ih h' hrest]
      rfl
    · rw [exec, hfail s t e he h]
      rfl

theorem foldlM_of_invariant {step : S → E → Option S} {I : S → Prop}
    (hstep : ∀ s e, I s → ∃ s', step s e = some s' ∧ I s') {s : S} (h : I s) (es : List E) :
    ∃ s', es.foldlM step s = some s' ∧ I s' := by
  induction es generalizing s with
  | nil => exact ⟨s, rfl, h⟩
  | cons e es ih =>
    obtain ⟨s', hs', h'⟩ := hstep s e h
    obtain ⟨s'', hs'', h''⟩ := ih h'
    exact ⟨s'', by rw [List.foldlM_cons, hs']; exact hs'', h''⟩

end Answers

end StepMachine
