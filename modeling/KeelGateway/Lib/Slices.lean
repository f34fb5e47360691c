import Mathlib.Data.List.Basic
import Mathlib.Data.Set.Basic

/-!
# Slices of shared arrays

A slice is a window on the front of an array. Writing through a slice changes the array for every
slice on it, so a program that edits slices in place is correct only as long as nobody else looks at
the same array. Here the arrays are in a heap, `append` writes into the free end of an array or
moves to a new one, and `retain` filters a slice in place.

A family of slices owns its arrays if no two members are on the same array and none is on a reserved
one. Operations on one member of such a family act on its content alone, and the reserved arrays
stay as they are.

-/

namespace Slices

variable {α ι : Type*}

/-- The arrays that have been allocated, by number. -/
structure Heap (α : Type*) where
  arrays : ℕ → List α := fun _ => []
  next : ℕ := 0

/-- The first elements of an array. The nil slice has no array. -/
structure Slice where
  array : Option ℕ := none
  length : ℕ := 0
  deriving DecidableEq

namespace Heap

variable (h : Heap α)

/-- The whole array of a slice. -/
def backing (s : Slice) : List α := s.array.elim [] h.arrays

/-- The elements of a slice. -/
def read (s : Slice) : List α := (h.backing s).take s.length

/-- An array is replaced. -/
def set (a : ℕ) (xs : List α) : Heap α := { h with arrays := Function.update h.arrays a xs }

/-- A new array that starts with `xs`; `free` is what its unused end holds. -/
def alloc (xs free : List α) : Heap α × Slice :=
  ({ h.set h.next (xs ++ free) with next := h.next + 1 }, ⟨some h.next, xs.length⟩)

/-- One more element at the end of a slice: in its array while that has room, and otherwise in a new
one, whose unused end holds `free`. -/
def append (s : Slice) (x : α) (free : List α) : Heap α × Slice :=
  match s.array with
  | some a =>
    if s.length < (h.arrays a).length then
      (h.set a ((h.arrays a).set s.length x), ⟨some a, s.length + 1⟩)
    else h.alloc (h.read s ++ [x]) free
  | none => h.alloc [x] free

/-- One round of `retain`: the element at `i` is appended to what is kept. -/
def retainStep (keep : α → Bool) (s : Slice) (p : Heap α × Slice) (i : ℕ) : Heap α × Slice :=
  match (p.1.backing s)[i]? with
  | some x => if keep x then p.1.append p.2 x [] else p
  | none => p

/-- The elements that satisfy `keep` are moved to the front of the array, and the slice is cut after
them. -/
def retain (keep : α → Bool) (s : Slice) : Heap α × Slice :=
  (List.range s.length).foldl (retainStep keep s) (h, { s with length := 0 })

/-- The slice lies within its array, and the array has been allocated. -/
structure Valid (s : Slice) : Prop where
  le : s.length ≤ (h.backing s).length
  lt : ∀ a, s.array = some a → a < h.next

end Heap

/-! ### Reading -/

section Read

variable {h : Heap α} {s : Slice} {a : ℕ}

theorem read_of_array_eq_none (hs : s.array = none) : h.read s = [] := by
  rw [Heap.read, Heap.backing, hs, Option.elim_none, List.take_nil]

private theorem set_set (xs ys : List α) : (h.set a xs).set a ys = h.set a ys := by
  simp [Heap.set]

private theorem length_read (hs : h.Valid s) : (h.read s).length = s.length :=
  List.length_take_of_le hs.le

theorem length_eq_zero_iff (hs : h.Valid s) : s.length = 0 ↔ h.read s = [] := by
  rw [← length_read hs, List.length_eq_zero_iff]

end Read

/-! ### The loop of `retain` -/

section Retain

variable (h : Heap α) (keep : α → Bool) {a n : ℕ}

private theorem foldl_retainStep (hn : n ≤ (h.arrays a).length) (i : ℕ) (hi : i ≤ n) :
    (List.range i).foldl (Heap.retainStep keep ⟨some a, n⟩) (h, ⟨some a, 0⟩) =
      let front := ((h.arrays a).take i).filter keep
      (h.set a (front ++ (h.arrays a).drop front.length), ⟨some a, front.length⟩) := by
  induction i with
  | zero =>
    have hself : h.set a (h.arrays a) = h := by simp [Heap.set]
    simp [hself]
  | succ i ih =>
    have hlt : i < (h.arrays a).length := by omega
    rw [List.range_succ, List.foldl_append, ih (by omega)]
    generalize hfront : ((h.arrays a).take i).filter keep = front
    have hle : front.length ≤ i := by
      rw [← hfront]
      exact (List.length_filter_le _ _).trans (List.length_take_le _ _)
    have hbacking : (h.set a (front ++ (h.arrays a).drop front.length)).arrays a =
        front ++ (h.arrays a).drop front.length := Function.update_self _ _ _
    have hread : (front ++ (h.arrays a).drop front.length)[i]? = some ((h.arrays a)[i]) := by
      rw [List.getElem?_append_right hle, List.getElem?_drop, List.getElem?_eq_getElem (by omega)]
      congr 2
      omega
    have htake : ((h.arrays a).take (i + 1)).filter keep =
        front ++ [(h.arrays a)[i]].filter keep := by
      rw [List.take_succ_eq_append_getElem hlt, List.filter_append, hfront]
    simp only [List.foldl_cons, List.foldl_nil, Heap.retainStep, Heap.backing, Option.elim_some,
      hbacking, hread, htake]
    by_cases hkeep : keep (h.arrays a)[i] = true
    · have hroom : front.length < (front ++ (h.arrays a).drop front.length).length := by
        rw [List.length_append, List.length_drop]
        omega
      have hset : (front ++ (h.arrays a).drop front.length).set front.length (h.arrays a)[i] =
          front ++ [(h.arrays a)[i]] ++ (h.arrays a).drop (front.length + 1) := by
        rw [List.set_append_right _ _ le_rfl, Nat.sub_self,
          List.drop_eq_getElem_cons (show front.length < (h.arrays a).length by omega),
          List.set_cons_zero, List.append_assoc, List.singleton_append]
      have happ : (h.set a (front ++ (h.arrays a).drop front.length)).append
          ⟨some a, front.length⟩ (h.arrays a)[i] [] =
            (h.set a (front ++ [(h.arrays a)[i]] ++ (h.arrays a).drop (front.length + 1)),
              ⟨some a, front.length + 1⟩) := by
        simp only [Heap.append, hbacking, if_pos hroom, hset, set_set]
      simp only [hkeep, if_true, happ, List.filter_cons_of_pos hkeep, List.filter_nil,
        List.length_append, List.length_singleton]
    · simp [hkeep]

theorem Heap.retain_eq (hn : n ≤ (h.arrays a).length) :
    h.retain keep ⟨some a, n⟩ =
      let front := (h.read ⟨some a, n⟩).filter keep
      (h.set a (front ++ (h.arrays a).drop front.length), ⟨some a, front.length⟩) :=
  foldl_retainStep h keep hn n le_rfl

end Retain

/-! ### Families of slices that own their arrays -/

/-- The contents of a family of slices. -/
def Heap.contents (h : Heap α) (m : ι → Option Slice) : ι → Option (List α) :=
  fun i => (m i).map h.read

/-- The members of the family lie within arrays of their own, none of which is reserved. -/
structure Owns (reserved : Set ℕ) (h : Heap α) (m : ι → Option Slice) : Prop where
  valid : ∀ i s, m i = some s → h.Valid s
  apart : ∀ i j s t a, m i = some s → m j = some t → s.array = some a → t.array = some a → i = j
  avoids : ∀ i s a, m i = some s → s.array = some a → a ∉ reserved
  allocated : ∀ a ∈ reserved, a < h.next

/-- The arrays of a family. -/
def arraysOf (m : ι → Option Slice) : Set ℕ := {a | ∃ i s, m i = some s ∧ s.array = some a}

/-- An operation has led from the heap `h` to the heap `h'`: the family `m'` owns its arrays there
and has the contents `c`, and the reserved arrays are as they were. -/
structure Update (reserved : Set ℕ) (h h' : Heap α) (m' : ι → Option Slice)
    (c : ι → Option (List α)) : Prop where
  owns : Owns reserved h' m'
  contents : h'.contents m' = c
  frame : ∀ a ∈ reserved, h'.arrays a = h.arrays a

theorem Update.trans {reserved : Set ℕ} {h h' h'' : Heap α} {m' m'' : ι → Option Slice}
    {c c' : ι → Option (List α)} (u : Update reserved h h' m' c)
    (u' : Update reserved h' h'' m'' c') : Update reserved h h'' m'' c' :=
  ⟨u'.owns, u'.contents, fun a ha => (u'.frame a ha).trans (u.frame a ha)⟩

namespace Owns

variable {reserved : Set ℕ} {h : Heap α} {m : ι → Option Slice} {i : ι} {s : Slice}

theorem refl (own : Owns reserved h m) : Update reserved h h m (h.contents m) :=
  ⟨own, rfl, fun _ _ => rfl⟩

theorem beside {κ : Type*} {h' : Heap α} {m' : κ → Option Slice} {c : κ → Option (List α)}
    (own : Owns reserved h m) (u : Update {a | a < h.next} h h' m' c) :
    Owns (arraysOf m') h' m ∧ h'.contents m = h.contents m := by
  have hbacking (i : ι) (s : Slice) (hs : m i = some s) : h'.backing s = h.backing s := by
    cases harray : s.array with
    | none => rw [Heap.backing, Heap.backing, harray, Option.elim_none, Option.elim_none]
    | some a =>
      rw [Heap.backing, Heap.backing, harray, Option.elim_some]
      exact u.frame a ((own.valid i s hs).lt a harray)
  refine ⟨⟨fun i s hs => ⟨?_, fun a ha => ?_⟩, own.apart, ?_, ?_⟩, ?_⟩
  · rw [hbacking i s hs]
    exact (own.valid i s hs).le
  · exact u.owns.allocated a ((own.valid i s hs).lt a ha)
  · rintro i s a hs ha ⟨j, t, ht, hta⟩
    exact u.owns.avoids j t a ht hta ((own.valid i s hs).lt a ha)
  · rintro a ⟨j, t, ht, hta⟩
    exact (u.owns.valid j t ht).lt a hta
  · funext i
    rw [Heap.contents, Heap.contents]
    cases hs : m i with
    | none => rfl
    | some s => rw [Option.map_some, Option.map_some, Heap.read, Heap.read, hbacking i s hs]

variable [DecidableEq ι]

/-- A member is dropped. -/
theorem erase (own : Owns reserved h m) (i : ι) :
    Update reserved h h (Function.update m i none) (Function.update (h.contents m) i none) := by
  have hold (j : ι) (t : Slice) (ht : Function.update m i none j = some t) : m j = some t := by
    by_cases hj : j = i
    · rw [hj, Function.update_self] at ht
      exact absurd ht (Option.some_ne_none t).symm
    · rwa [Function.update_of_ne hj] at ht
  refine ⟨⟨fun j t ht => own.valid j t (hold j t ht), fun j k t u a ht hu =>
    own.apart j k t u a (hold j t ht) (hold k u hu), fun j t a ht => own.avoids j t a (hold j t ht),
    own.allocated⟩, ?_, fun _ _ => rfl⟩
  funext j
  by_cases hj : j = i
  · rw [hj, Function.update_self, Heap.contents, Function.update_self]
    rfl
  · rw [Function.update_of_ne hj, Heap.contents, Function.update_of_ne hj]
    rfl

private theorem write (own : Owns reserved h m) {h' : Heap α} {a : ℕ} {xs : List α}
    (hnext : h.next ≤ h'.next) (ha : a < h'.next) (hother : ∀ b, b ≠ a → h'.arrays b = h.arrays b)
    (hfree : ∀ j t, j ≠ i → m j = some t → t.array ≠ some a) (hres : a ∉ reserved)
    (hle : s.length ≤ (h'.arrays a).length) (hs : s.array = some a)
    (hxs : (h'.arrays a).take s.length = xs) :
    Update reserved h h' (Function.update m i (some s))
      (Function.update (h.contents m) i (some xs)) := by
  have hbacking (t : Slice) (ht : t.array ≠ some a) : h'.backing t = h.backing t := by
    obtain ⟨array, length⟩ := t
    cases array with
    | none => rfl
    | some b => exact hother b fun hb => ht (congrArg some hb)
  have hself : h'.backing s = h'.arrays a := by rw [Heap.backing, hs, Option.elim_some]
  -- A member of the new family is the written one or an old one on another array.
  have hold (j : ι) (t : Slice) (ht : Function.update m i (some s) j = some t) :
      (j = i ∧ t = s) ∨ (j ≠ i ∧ m j = some t ∧ t.array ≠ some a) := by
    by_cases hj : j = i
    · rw [hj, Function.update_self] at ht
      exact Or.inl ⟨hj, (Option.some.inj ht).symm⟩
    · rw [Function.update_of_ne hj] at ht
      exact Or.inr ⟨hj, ht, hfree j t hj ht⟩
  refine ⟨⟨?_, ?_, ?_, fun b hb => (own.allocated b hb).trans_le hnext⟩, ?_, ?_⟩
  · intro j t ht
    rcases hold j t ht with ⟨-, rfl⟩ | ⟨-, ht, hne⟩
    · refine ⟨by rwa [hself], fun b hb => ?_⟩
      obtain rfl := Option.some.inj (hs.symm.trans hb)
      exact ha
    · exact ⟨by rw [hbacking t hne]; exact (own.valid j t ht).le,
        fun b hb => ((own.valid j t ht).lt b hb).trans_le hnext⟩
  · intro j k t u b ht hu htb hub
    rcases hold j t ht with ⟨rfl, rfl⟩ | ⟨-, ht, htne⟩ <;>
      rcases hold k u hu with ⟨rfl, rfl⟩ | ⟨-, hu, hune⟩
    · rfl
    · exact absurd (hub.trans (htb.symm.trans hs)) hune
    · exact absurd (htb.trans (hub.symm.trans hs)) htne
    · exact own.apart j k t u b ht hu htb hub
  · intro j t b ht hb
    rcases hold j t ht with ⟨-, rfl⟩ | ⟨-, ht, -⟩
    · obtain rfl := Option.some.inj (hs.symm.trans hb)
      exact hres
    · exact own.avoids j t b ht hb
  · funext j
    by_cases hj : j = i
    · rw [hj, Function.update_self, Heap.contents, Function.update_self, Option.map_some, Heap.read,
        hself, hxs]
    · rw [Function.update_of_ne hj, Heap.contents, Function.update_of_ne hj, Heap.contents]
      cases ht : m j with
      | none => rfl
      | some t => rw [Option.map_some, Option.map_some, Heap.read, Heap.read,
          hbacking t (hfree j t hj ht)]
  · intro b hb
    exact hother b fun heq => hres (heq ▸ hb)

/-- A member moves to a new array. -/
theorem alloc (own : Owns reserved h m) (i : ι) (xs free : List α) :
    Update reserved h (h.alloc xs free).1 (Function.update m i (some (h.alloc xs free).2))
      (Function.update (h.contents m) i (some xs)) := by
  have harray : (h.alloc xs free).1.arrays h.next = xs ++ free := Function.update_self _ _ _
  refine own.write (Nat.le_succ _) (Nat.lt_succ_self _)
    (fun b hb => Function.update_of_ne hb _ _)
    (fun j t _ ht hnew => lt_irrefl _ ((own.valid j t ht).lt _ hnew))
    (fun hres => lt_irrefl _ (own.allocated _ hres)) ?_ rfl ?_
  · rw [harray, List.length_append]
    exact Nat.le_add_right _ _
  · rw [harray]
    exact List.take_left

theorem append (own : Owns reserved h m) (hs : (m i).getD {} = s) (x : α) (free : List α) :
    Update reserved h (h.append s x free).1 (Function.update m i (some (h.append s x free).2))
      (Function.update (h.contents m) i (some (h.read s ++ [x]))) := by
  obtain ⟨array, n⟩ := s
  cases array with
  | none =>
    rw [read_of_array_eq_none rfl]
    exact own.alloc i [x] free
  | some a =>
    replace hs : m i = some ⟨some a, n⟩ := by
      cases hi : m i with
      | none =>
        rw [hi] at hs
        cases hs
      | some t => rw [← hs, hi, Option.getD_some]
    by_cases hroom : n < (h.arrays a).length
    · have happ : h.append ⟨some a, n⟩ x free =
          (h.set a ((h.arrays a).set n x), ⟨some a, n + 1⟩) := if_pos hroom
      have harray : (h.set a ((h.arrays a).set n x)).arrays a = (h.arrays a).set n x :=
        Function.update_self _ _ _
      rw [happ]
      refine own.write le_rfl ((own.valid i _ hs).lt a rfl)
        (fun b hb => Function.update_of_ne hb _ _)
        (fun j t hj ht hta => hj (own.apart j i t _ a ht hs hta rfl)) (own.avoids i _ a hs rfl) ?_
        rfl ?_
      · rw [harray, List.length_set]
        exact hroom
      · rw [harray, List.take_succ_eq_append_getElem (by rwa [List.length_set]),
          List.getElem_set_self, List.take_set_of_le le_rfl]
        rfl
    · have happ : h.append ⟨some a, n⟩ x free = h.alloc (h.read ⟨some a, n⟩ ++ [x]) free :=
        if_neg hroom
      rw [happ]
      exact own.alloc i _ free

/-- A member is filtered in place. -/
theorem retain (own : Owns reserved h m) (hs : m i = some s) (keep : α → Bool) :
    Update reserved h (h.retain keep s).1 (Function.update m i (some (h.retain keep s).2))
      (Function.update (h.contents m) i (some ((h.read s).filter keep))) := by
  obtain ⟨array, n⟩ := s
  cases array with
  | none =>
    have hzero : n = 0 := Nat.le_zero.1 (own.valid i _ hs).le
    subst hzero
    have hself : Function.update m i (some (h.retain keep {}).2) = m :=
      Function.update_eq_self_iff.2 hs.symm
    have hcontents : Function.update (h.contents m) i
        (some ((h.read {}).filter keep)) = h.contents m := by
      refine Function.update_eq_self_iff.2 ?_
      rw [Heap.contents, hs]
      rfl
    rw [hself, hcontents]
    exact own.refl
  | some a =>
    have hle : n ≤ (h.arrays a).length := (own.valid i _ hs).le
    rw [Heap.retain_eq h keep hle]
    generalize hfront : (h.read ⟨some a, n⟩).filter keep = front
    have harray : (h.set a (front ++ (h.arrays a).drop front.length)).arrays a =
        front ++ (h.arrays a).drop front.length := Function.update_self _ _ _
    refine own.write le_rfl ((own.valid i _ hs).lt a rfl)
      (fun b hb => Function.update_of_ne hb _ _)
      (fun j t hj ht hta => hj (own.apart j i t _ a ht hs hta rfl)) (own.avoids i _ a hs rfl) ?_
      rfl ?_
    · rw [harray, List.length_append]
      exact Nat.le_add_right _ _
    · rw [harray]
      exact List.take_left

end Owns

theorem read_of_frame {h h' : Heap α} {m : ι → Option Slice}
    (hframe : ∀ a ∈ arraysOf m, h'.arrays a = h.arrays a) {i : ι} {s : Slice} (hs : m i = some s) :
    h'.read s = h.read s := by
  cases harray : s.array with
  | none => rw [read_of_array_eq_none harray, read_of_array_eq_none harray]
  | some a =>
    rw [Heap.read, Heap.read, Heap.backing, Heap.backing, harray, Option.elim_some,
      Option.elim_some,
      hframe a ⟨i, s, hs, harray⟩]

end Slices
