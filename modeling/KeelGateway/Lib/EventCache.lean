import Mathlib.Data.List.Pairwise
import Mathlib.Data.Set.Insert
import KeelGateway.Lib.StepMachine

/-!
# A cache fed by events and snapshots

Several parties write to a store of keys. A call writes the store first and publishes an event
afterwards, and the events reach a cache one by one. Now and then the whole cache is replaced by a
snapshot of the store, whose scan takes its time: the snapshot has every key that was there all the
time and no key that never was.

The events that are still under way tell what the cache is going to be. It is going to equal the
store as long as every snapshot has, for each key on which it differs from the store, an event under
way that makes up for it.

-/

namespace EventCache

open StepMachine

variable {S K : Type*}

/-! ### Writes -/

/-- A write leaves its key present or absent. -/
structure Write (K : Type*) where
  key : K
  present : Bool

/-- The keys after a write. -/
def Write.apply (w : Write K) (keys : Set K) : Set K :=
  {k | (k = w.key ∧ w.present = true) ∨ (k ≠ w.key ∧ k ∈ keys)}

/-- The keys after several writes. -/
def applyAll (ws : List (Write K)) (keys : Set K) : Set K :=
  ws.foldl (fun keys w => w.apply keys) keys

section Writes

variable {w w' : Write K} {ws : List (Write K)} {keys keys' : Set K} {k : K}

theorem Write.mem_apply_of_ne (h : k ≠ w.key) : k ∈ w.apply keys ↔ k ∈ keys := by
  simp [Write.apply, h]

theorem Write.mem_apply_self : w.key ∈ w.apply keys ↔ w.present = true := by
  simp [Write.apply]

theorem Write.apply_comm (h : w.key ≠ w'.key) :
    w.apply (w'.apply keys) = w'.apply (w.apply keys) := by
  ext k
  by_cases hk : k = w.key
  · subst hk
    rw [mem_apply_self, mem_apply_of_ne h, mem_apply_self]
  · rw [mem_apply_of_ne hk]
    by_cases hk' : k = w'.key
    · subst hk'
      rw [mem_apply_self, mem_apply_self]
    · rw [mem_apply_of_ne hk', mem_apply_of_ne hk', mem_apply_of_ne hk]

theorem applyAll_append (ws ws' : List (Write K)) (keys : Set K) :
    applyAll (ws ++ ws') keys = applyAll ws' (applyAll ws keys) :=
  List.foldl_append

theorem mem_applyAll_of_notMem (h : ∀ w ∈ ws, w.key ≠ k) : k ∈ applyAll ws keys ↔ k ∈ keys := by
  induction ws generalizing keys with
  | nil => exact Iff.rfl
  | cons w ws ih =>
    refine (ih fun w' hw' => h w' (List.mem_cons_of_mem _ hw')).trans ?_
    exact Write.mem_apply_of_ne (Ne.symm (h w List.mem_cons_self))

theorem mem_applyAll_congr (h : ∃ w ∈ ws, w.key = k) :
    k ∈ applyAll ws keys ↔ k ∈ applyAll ws keys' := by
  induction ws generalizing keys keys' with
  | nil => simp at h
  | cons w ws ih =>
    by_cases hlater : ∃ w' ∈ ws, w'.key = k
    · exact ih hlater
    · have hfree : ∀ w' ∈ ws, w'.key ≠ k := fun w' hw' hk => hlater ⟨w', hw', hk⟩
      obtain ⟨w', hw', rfl⟩ := h
      rcases List.mem_cons.1 hw' with rfl | hw'
      · exact (mem_applyAll_of_notMem hfree).trans
          (Write.mem_apply_self.trans (Write.mem_apply_self.symm.trans
            (mem_applyAll_of_notMem hfree).symm))
      · exact absurd rfl (hfree w' hw')

theorem applyAll_apply (h : ∀ w' ∈ ws, w'.key ≠ w.key) :
    applyAll ws (w.apply keys) = w.apply (applyAll ws keys) := by
  induction ws generalizing keys with
  | nil => rfl
  | cons w' ws ih =>
    have hstep : applyAll (w' :: ws) (w.apply keys) = applyAll ws (w'.apply (w.apply keys)) := rfl
    rw [hstep, Write.apply_comm (h w' List.mem_cons_self),
      ih fun x hx => h x (List.mem_cons_of_mem _ hx)]
    rfl

theorem applyAll_eraseIdx {l : List (S × Write K)} {i : ℕ} {x : S × Write K} (hx : l[i]? = some x)
    (h : ∀ y ∈ l.take i, y.2.key ≠ x.2.key) :
    applyAll ((l.eraseIdx i).map Prod.snd) (x.2.apply keys) = applyAll (l.map Prod.snd) keys := by
  obtain ⟨hi, rfl⟩ := List.getElem?_eq_some_iff.1 hx
  have hsplit : l = l.take i ++ l[i] :: l.drop (i + 1) := by
    rw [List.getElem_cons_drop, List.take_append_drop]
  have hfront : ∀ w ∈ (l.take i).map Prod.snd, w.key ≠ l[i].2.key := by
    intro w hw
    obtain ⟨y, hy, rfl⟩ := List.mem_map.1 hw
    exact h y hy
  calc applyAll ((l.eraseIdx i).map Prod.snd) (l[i].2.apply keys)
      = applyAll ((l.drop (i + 1)).map Prod.snd)
          (applyAll ((l.take i).map Prod.snd) (l[i].2.apply keys)) := by
        rw [List.eraseIdx_eq_take_drop_succ, List.map_append, applyAll_append]
    _ = applyAll ((l.drop (i + 1)).map Prod.snd)
          (l[i].2.apply (applyAll ((l.take i).map Prod.snd) keys)) := by
        rw [applyAll_apply hfront]
    _ = applyAll ((l.take i ++ l[i] :: l.drop (i + 1)).map Prod.snd) keys := by
        rw [List.map_append, applyAll_append]
        rfl
    _ = applyAll (l.map Prod.snd) keys := by rw [← hsplit]

end Writes

/-! ### The machine -/

/-- A scan in progress: the keys that have been there all the time, those that have been there at
some time, and those that have been written. -/
structure Scan (K : Type*) where
  kept : Set K
  seen : Set K
  written : Set K

/-- A scan goes on during a write. -/
def Scan.write (scan : Scan K) (w : Write K) : Scan K where
  kept := {k | k ∈ scan.kept ∧ (k = w.key → w.present = true)}
  seen := {k | k ∈ scan.seen ∨ (k = w.key ∧ w.present = true)}
  written := insert w.key scan.written

/-- The store and the cache, the calls that have written and not published yet, the events that have
not arrived yet, and the scan in progress. -/
structure State (S K : Type*) where
  store : Set K
  cache : Set K
  calls : List (S × Write K)
  channel : List (S × Write K)
  scan : Option (Scan K)

/-- What happens. -/
inductive Event (S K : Type*) where
  | write (sender : S) (w : Write K)
  | publish (i : ℕ)
  | deliver (i : ℕ)
  | beginScan
  | swap (snapshot : Set K)

/-- The state after an event. -/
def step (s : State S K) : Event S K → State S K
  | .write sender w =>
    { s with
      store := w.apply s.store
      calls := s.calls ++ [(sender, w)]
      scan := s.scan.map (·.write w) }
  | .publish i =>
    match s.calls[i]? with
    | none => s
    | some call => { s with calls := s.calls.eraseIdx i, channel := s.channel ++ [call] }
  | .deliver i =>
    match s.channel[i]? with
    | none => s
    | some event => { s with channel := s.channel.eraseIdx i, cache := event.2.apply s.cache }
  | .beginScan => { s with scan := some ⟨s.store, s.store, ∅⟩ }
  | .swap snapshot => { s with cache := snapshot, scan := none }

namespace State

variable (s : State S K)

/-- The calls and events under way. -/
def underWay : List (S × Write K) := s.channel ++ s.calls

/-- The cache once everything under way has arrived. -/
def drained : Set K := applyAll (s.underWay.map Prod.snd) s.cache

/-- A call or event for the key is under way. -/
def Awaits (k : K) : Prop := ∃ x ∈ s.underWay, x.2.key = k

end State

/-- The cache is going to equal the store. -/
def Settles (s : State S K) : Prop := s.drained = s.store

/-- The events of one sender arrive in order. -/
def Fifo (s : State S K) : Event S K → Prop
  | .deliver i => ∀ x, s.channel[i]? = some x → ∀ y ∈ s.channel.take i, y.1 ≠ x.1
  | _ => True

/-- Nobody writes a key during another call for it, or while an event of another sender for it is
under way. -/
def OneWriter (s : State S K) : Event S K → Prop
  | .write sender w =>
    (∀ x ∈ s.calls, x.2.key ≠ w.key) ∧ ∀ x ∈ s.channel, x.2.key = w.key → x.1 = sender
  | _ => True

/-- A scan finds every key that is there all the time and no key that never is. -/
def Faithful (s : State S K) : Event S K → Prop
  | .swap snapshot => ∃ scan, s.scan = some scan ∧ scan.kept ⊆ snapshot ∧ snapshot ⊆ scan.seen
  | _ => True

/-- Every key on which the snapshot differs from the store has an event under way. -/
def Covered (s : State S K) : Event S K → Prop
  | .swap snapshot => ∀ k, (k ∈ snapshot ↔ k ∈ s.store) ∨ s.Awaits k
  | _ => True

/-- Every key that was written during the scan has an event under way. -/
def Undelivered (s : State S K) : Event S K → Prop
  | .swap _ => ∀ scan, s.scan = some scan → ∀ k ∈ scan.written, s.Awaits k
  | _ => True

/-! ### The order of events -/

/-- Calls in progress are about different keys, and what is under way for one key is of one
sender. -/
structure Ordered (s : State S K) : Prop where
  calls : s.calls.Pairwise fun x y => x.2.key ≠ y.2.key
  sender : ∀ x ∈ s.underWay, ∀ y ∈ s.underWay, x.2.key = y.2.key → x.1 = y.1

section Step

variable {s : State S K}

/-- What a publication does. -/
theorem step_publish_cases (s : State S K) (i : ℕ) :
    step s (.publish i) = s ∨ ∃ call, s.calls[i]? = some call ∧ step s (.publish i) =
      { s with calls := s.calls.eraseIdx i, channel := s.channel ++ [call] } := by
  rw [step]
  split
  · exact Or.inl rfl
  · next call hcall => exact Or.inr ⟨call, hcall, rfl⟩

/-- What a delivery does. -/
theorem step_deliver_cases (s : State S K) (i : ℕ) :
    step s (.deliver i) = s ∨ ∃ event, s.channel[i]? = some event ∧ step s (.deliver i) =
      { s with channel := s.channel.eraseIdx i, cache := event.2.apply s.cache } := by
  rw [step]
  split
  · exact Or.inl rfl
  · next event hevent => exact Or.inr ⟨event, hevent, rfl⟩

theorem Ordered.of_subset {s' : State S K} (h : Ordered s)
    (hcalls : s'.calls.Sublist s.calls) (hsub : ∀ x ∈ s'.underWay, x ∈ s.underWay) :
    Ordered s' :=
  ⟨h.calls.sublist hcalls, fun x hx y hy => h.sender x (hsub x hx) y (hsub y hy)⟩

theorem Ordered.step (h : Ordered s) {e : Event S K} (hone : OneWriter s e) :
    Ordered (step s e) := by
  cases e with
  | write sender w =>
    have hunder (x : S × Write K) :
        x ∈ (EventCache.step s (.write sender w)).underWay ↔ x ∈ s.underWay ∨ x = (sender, w) := by
      simp [State.underWay, EventCache.step, or_assoc]
    have hsender (x : S × Write K) (hx : x ∈ s.underWay) (hk : x.2.key = w.key) : x.1 = sender := by
      rcases List.mem_append.1 hx with hx | hx
      · exact hone.2 x hx hk
      · exact absurd hk (hone.1 x hx)
    refine ⟨?_, fun x hx y hy hk => ?_⟩
    · refine List.pairwise_append.2 ⟨h.calls, List.pairwise_singleton _ _, fun x hx y hy => ?_⟩
      rw [List.mem_singleton.1 hy]
      exact hone.1 x hx
    · rcases (hunder x).1 hx with hx | rfl <;> rcases (hunder y).1 hy with hy | rfl
      · exact h.sender x hx y hy hk
      · exact hsender x hx hk
      · exact (hsender y hy hk.symm).symm
      · rfl
  | publish i =>
    rcases step_publish_cases s i with heq | ⟨call, hcall, heq⟩
    · rwa [heq]
    · rw [heq]
      refine h.of_subset (List.eraseIdx_sublist _ _) fun x hx => ?_
      simp only [State.underWay, List.mem_append, List.mem_singleton] at hx ⊢
      rcases hx with (hx | rfl) | hx
      · exact Or.inl hx
      · exact Or.inr (List.mem_of_getElem? hcall)
      · exact Or.inr (List.mem_of_mem_eraseIdx hx)
  | deliver i =>
    rcases step_deliver_cases s i with heq | ⟨event, -, heq⟩
    · rwa [heq]
    · rw [heq]
      refine h.of_subset (List.Sublist.refl _) fun x hx => ?_
      simp only [State.underWay, List.mem_append] at hx ⊢
      exact hx.imp_left List.mem_of_mem_eraseIdx
  | beginScan => exact ⟨h.calls, h.sender⟩
  | swap snapshot => exact ⟨h.calls, h.sender⟩

/-! ### What the cache is going to be -/

private theorem drained_write (sender : S) (w : Write K) :
    (step s (.write sender w)).drained = w.apply s.drained := by
  have hunder : (step s (.write sender w)).underWay = s.underWay ++ [(sender, w)] :=
    (List.append_assoc _ _ _).symm
  rw [State.drained, hunder, List.map_append, applyAll_append]
  rfl

private theorem drained_publish (h : Ordered s) (i : ℕ) :
    (step s (.publish i)).drained = s.drained := by
  rcases step_publish_cases s i with heq | ⟨call, hcall, heq⟩
  · rw [heq]
  · -- no call in front of it is about the same key
    have hfront : ∀ x ∈ s.calls.take i, x.2.key ≠ call.2.key := by
      obtain ⟨hi, rfl⟩ := List.getElem?_eq_some_iff.1 hcall
      intro x hx
      have hpair := h.calls
      rw [← List.take_append_drop i s.calls] at hpair
      refine (List.pairwise_append.1 hpair).2.2 x hx s.calls[i] ?_
      rw [← List.getElem_cons_drop hi]
      exact List.mem_cons_self
    rw [heq, State.drained, State.drained, State.underWay, State.underWay, List.map_append,
      List.map_append, List.map_append, applyAll_append, applyAll_append, applyAll_append,
      ← applyAll_eraseIdx hcall hfront]
    rfl

private theorem drained_deliver (h : Ordered s) {i : ℕ} (hfifo : Fifo s (.deliver i)) :
    (step s (.deliver i)).drained = s.drained := by
  rcases step_deliver_cases s i with heq | ⟨event, hevent, heq⟩
  · rw [heq]
  · -- an event in front of it for the same key would be of the same sender
    have hfront : ∀ x ∈ s.channel.take i, x.2.key ≠ event.2.key := by
      intro x hx hk
      exact hfifo event hevent x hx (h.sender x
        (List.mem_append_left _ (List.mem_of_mem_take hx)) event
        (List.mem_append_left _ (List.mem_of_getElem? hevent)) hk)
    rw [heq, State.drained, State.drained, State.underWay, State.underWay, List.map_append,
      List.map_append, applyAll_append, applyAll_append, applyAll_eraseIdx hevent hfront]

private theorem drained_swap_of_not_awaits {snapshot : Set K} {k : K} (h : ¬ s.Awaits k) :
    k ∈ (step s (.swap snapshot)).drained ↔ k ∈ snapshot := by
  refine mem_applyAll_of_notMem fun w hw hk => ?_
  obtain ⟨x, hx, rfl⟩ := List.mem_map.1 hw
  exact h ⟨x, hx, hk⟩

private theorem drained_swap_of_awaits {snapshot : Set K} {k : K} (h : s.Awaits k) :
    k ∈ (step s (.swap snapshot)).drained ↔ k ∈ s.drained := by
  obtain ⟨x, hx, hk⟩ := h
  exact mem_applyAll_congr ⟨x.2, List.mem_map_of_mem hx, hk⟩

theorem settles_step_iff (h : Settles s) (hord : Ordered s) {e : Event S K} (hfifo : Fifo s e) :
    Settles (step s e) ↔ Covered s e := by
  cases e with
  | write sender w =>
    refine iff_of_true ?_ trivial
    rw [Settles, drained_write, h]
    rfl
  | publish i =>
    refine iff_of_true ?_ trivial
    have hstore : (step s (.publish i)).store = s.store := by
      rcases step_publish_cases s i with heq | ⟨call, -, heq⟩ <;> rw [heq]
    rw [Settles, drained_publish hord, hstore, h]
  | deliver i =>
    refine iff_of_true ?_ trivial
    have hstore : (step s (.deliver i)).store = s.store := by
      rcases step_deliver_cases s i with heq | ⟨event, -, heq⟩ <;> rw [heq]
    rw [Settles, drained_deliver hord hfifo, hstore, h]
  | beginScan => exact iff_of_true h trivial
  | swap snapshot =>
    refine Set.ext_iff.trans (forall_congr' fun k => ?_)
    by_cases hk : s.Awaits k
    · refine iff_of_true ?_ (Or.inr hk)
      rw [drained_swap_of_awaits hk, h]
      rfl
    · rw [drained_swap_of_not_awaits hk]
      exact (or_iff_left hk).symm

end Step

/-! ### Runs -/

section Run

variable {s : State S K} {es : List (Event S K)}

theorem settles_always_iff (hord : Ordered s) (hs : Settles s)
    (hrun : Along step (fun s e => Fifo s e ∧ OneWriter s e) s es) :
    Always step Settles s es ↔ Along step Covered s es := by
  induction es generalizing s with
  | nil => exact iff_of_true hs trivial
  | cons e es ih =>
    obtain ⟨⟨hfifo, hone⟩, hrest⟩ := hrun
    have hstep := settles_step_iff hs hord hfifo
    constructor
    · rintro ⟨-, h⟩
      have hcovered := hstep.1 h.head
      exact ⟨hcovered, (ih (hord.step hone) h.head hrest).1 h⟩
    · rintro ⟨hcovered, h⟩
      exact ⟨hs, (ih (hord.step hone) (hstep.2 hcovered) hrest).2 h⟩

/-- A scan knows the keys that have not been written since it began. -/
def ScanKnows (s : State S K) : Prop :=
  ∀ scan, s.scan = some scan → ∀ k, k ∉ scan.written →
    (k ∈ scan.kept ↔ k ∈ s.store) ∧ (k ∈ scan.seen ↔ k ∈ s.store)

theorem ScanKnows.step (h : ScanKnows s) (e : Event S K) : ScanKnows (step s e) := by
  cases e with
  | write sender w =>
    intro scan' hscan' k hk
    obtain ⟨scan, hscan, rfl⟩ := Option.map_eq_some_iff.1 hscan'
    obtain ⟨hne, hold⟩ := not_or.1 (mt Set.mem_insert_iff.2 hk)
    have hstore : k ∈ (EventCache.step s (.write sender w)).store ↔ k ∈ s.store :=
      Write.mem_apply_of_ne hne
    rw [hstore]
    simpa [Scan.write, hne] using h scan hscan k hold
  | publish i =>
    rcases step_publish_cases s i with heq | ⟨call, -, heq⟩ <;> rw [heq] <;> exact h
  | deliver i =>
    rcases step_deliver_cases s i with heq | ⟨event, -, heq⟩ <;> rw [heq] <;> exact h
  | beginScan =>
    rintro scan hscan k -
    cases hscan
    exact ⟨Iff.rfl, Iff.rfl⟩
  | swap snapshot =>
    intro scan hscan
    cases hscan

theorem along_covered_of_undelivered (hs : ScanKnows s)
    (hfaithful : Along step Faithful s es)
    (h : Along step Undelivered s es) : Along step Covered s es := by
  refine along_of_invariant (fun s e hI _ => hI.step e)
    (fun s e hI hok => ?_) hs (hfaithful.and h)
  cases e with
  | swap snapshot =>
    intro k
    obtain ⟨⟨scan, hscan, hkept, hseen⟩, hundelivered⟩ := hok
    by_cases hk : k ∈ scan.written
    · exact Or.inr (hundelivered scan hscan k hk)
    · obtain ⟨hkept', hseen'⟩ := hI scan hscan k hk
      exact Or.inl ⟨fun h => hseen'.1 (hseen h), fun h => hkept (hkept'.2 h)⟩
  | _ => trivial

end Run

end EventCache
