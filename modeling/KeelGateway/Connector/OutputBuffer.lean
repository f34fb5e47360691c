import KeelGateway.Lib.StepMachine
import Mathlib.Data.Int.Notation

/-!
# The output buffer

Requests for an output connector wait in a bounded queue. `Push` never blocks: on a full queue it
drops the oldest request. `Next` blocks on a channel with one slot. A call puts its token into the
channel after it has left the critical section, so a token may come late, or find another one there.
The consumer takes a token for a hint only and looks at the queue again.

The calls are cut at the lock: a critical section is one event, the signal after it another.

-/

namespace KeelGateway.Connector

open StepMachine

variable {α : Type}

/-- `MemoryOutputBuffer`. -/
structure MemoryOutputBuffer (α : Type) where
  items : List α := []
  capacity : ℕ
  closed : Bool := false
  signal : Bool := false

namespace MemoryOutputBuffer

/-- `NewMemoryOutputBuffer`. -/
def new (capacity : ℤ) : MemoryOutputBuffer α where
  capacity := if capacity ≤ 0 then 1 else capacity.toNat

/-- The critical section of `Push`: the buffer after it and the request that is dropped. -/
def push (b : MemoryOutputBuffer α) (req : α) : MemoryOutputBuffer α × Option α :=
  if b.closed then (b, none)
  else if b.capacity ≤ b.items.length then
    ({ b with items := b.items.tail ++ [req] }, b.items.head?)
  else ({ b with items := b.items ++ [req] }, none)

/-- The critical section of `Next`: the buffer after it and the request that is returned. -/
def next (b : MemoryOutputBuffer α) : MemoryOutputBuffer α × Option α :=
  ({ b with items := b.items.tail }, b.items.head?)

variable {b : MemoryOutputBuffer α}

theorem new_capacity_pos (capacity : ℤ) : 0 < (new capacity : MemoryOutputBuffer α).capacity := by
  unfold new
  dsimp only
  split_ifs <;> omega

theorem push_of_closed (h : b.closed = true) (req : α) : b.push req = (b, none) := if_pos h

@[simp] theorem push_capacity (req : α) : (b.push req).1.capacity = b.capacity := by
  unfold push
  split_ifs <;> rfl

@[simp] theorem push_closed (req : α) : (b.push req).1.closed = b.closed := by
  unfold push
  split_ifs <;> rfl

theorem next_append : b.next.2.toList ++ b.next.1.items = b.items := by
  unfold next
  cases b.items <;> rfl

theorem push_append (hopen : b.closed = false) (hpos : 0 < b.capacity) (req : α) :
    (b.push req).2.toList ++ (b.push req).1.items = b.items ++ [req] := by
  rw [push, hopen, if_neg Bool.false_ne_true]
  split_ifs with hfull
  · cases hitems : b.items with
    | nil =>
      rw [hitems, List.length_nil] at hfull
      omega
    | cons first rest => rfl
  · rfl

theorem push_head? {req dropped : α} (h : (b.push req).2 = some dropped) :
    b.items.head? = some dropped := by
  unfold push at h
  split_ifs at h
  exact h

private theorem push_length_le (hpos : 0 < b.capacity) (h : b.items.length ≤ b.capacity) (req : α) :
    (b.push req).1.items.length ≤ b.capacity := by
  unfold push
  split_ifs
  · exact h
  · simp only [List.length_append, List.length_tail, List.length_singleton]
    omega
  · simp only [List.length_append, List.length_singleton]
    omega

end MemoryOutputBuffer

/-! ### Producers and a consumer -/

/-- Where the consumer is: outside `Next`, before the critical section or blocked in the
`select`. -/
inductive Consumer where
  | outside | checking | waiting
  deriving DecidableEq

/-- The buffer between its callers. -/
structure BufferState (α : Type) where
  buffer : MemoryOutputBuffer α
  consumer : Consumer := .outside
  /-- The calls of `Push` and `Close` between their critical section and their signal. -/
  signalling : ℕ := 0

/-- The events at a buffer. -/
inductive BufferEvent (α : Type) where
  | push (req : α)
  | close
  | signal
  | next
  | check
  | wake
  | cancel

/-- The request that an event brings. -/
def BufferEvent.request? : BufferEvent α → Option α
  | push req => some req
  | _ => none

/-- Whether an event closes the buffer. -/
def BufferEvent.closes : BufferEvent α → Bool
  | close => true
  | _ => false

/-- How a request leaves the buffer. -/
inductive Exit where
  | returned | dropped
  deriving DecidableEq

namespace BufferState

/-- A new buffer that nobody uses yet. -/
def start (capacity : ℤ) : BufferState α where
  buffer := .new capacity

/-- The state after an event. An event that cannot happen changes nothing. -/
def step (s : BufferState α) : BufferEvent α → BufferState α
  | .push req =>
    -- `Push` after `Close` returns without a signal
    if s.buffer.closed then s
    else { s with buffer := (s.buffer.push req).1, signalling := s.signalling + 1 }
  | .close =>
    if s.buffer.closed then s
    else { s with buffer := { s.buffer with closed := true }, signalling := s.signalling + 1 }
  | .signal =>
    if s.signalling = 0 then s
    else { s with buffer := { s.buffer with signal := true }, signalling := s.signalling - 1 }
  | .next => if s.consumer = .outside then { s with consumer := .checking } else s
  | .check =>
    if s.consumer = .checking then
      { s with
        buffer := s.buffer.next.1
        consumer := if s.buffer.items = [] ∧ s.buffer.closed = false then .waiting else .outside }
    else s
  | .wake =>
    if s.consumer = .waiting ∧ s.buffer.signal = true then
      { s with buffer := { s.buffer with signal := false }, consumer := .checking }
    else s
  | .cancel => if s.consumer = .waiting then { s with consumer := .outside } else s

/-- The request that leaves the buffer at an event. -/
def leaves (s : BufferState α) : BufferEvent α → Option (α × Exit)
  | .push req => (s.buffer.push req).2.map (·, .dropped)
  | .check =>
    if s.consumer = .checking then s.buffer.next.2.map (·, .returned) else none
  | _ => none

end BufferState

/-- The requests that are pushed before the buffer is closed. -/
def pushed (es : List (BufferEvent α)) : List α :=
  (es.takeWhile fun e => !e.closes).filterMap BufferEvent.request?

/-- What has left a new buffer in a run, in this order. -/
def left (capacity : ℤ) (es : List (BufferEvent α)) : List (α × Exit) :=
  trace BufferState.step BufferState.leaves (.start capacity) es

/-- A bounded queue without lost wakeups, after a run from a new buffer. -/
structure BoundedFifo (capacity : ℤ) (es : List (BufferEvent α)) (s : BufferState α) : Prop where
  /-- Every request is accounted for once, and the requests leave in the order of the pushes. -/
  conserved : (left capacity es).map Prod.fst ++ s.buffer.items = pushed es
  inOrder : (((left capacity es).filter (·.2 = .returned)).map Prod.fst).Sublist (pushed es)
  /-- Whatever is dropped was the oldest request of the queue. -/
  oldest : Along BufferState.step (fun s e => ∀ req, s.leaves e = some (req, .dropped) →
    s.buffer.items.head? = some req) (.start capacity) es
  /-- Whatever `Next` finds in the queue it returns, the oldest request first. -/
  next : Along BufferState.step (fun s _ => s.consumer = .checking →
    s.leaves .check = s.buffer.items.head?.map (·, .returned)) (.start capacity) es
  bounded : s.buffer.items.length ≤ if capacity ≤ 0 then 1 else capacity.toNat
  /-- Nobody sleeps on an empty channel once there is something to see. -/
  wakeup : s.consumer = .waiting → s.buffer.signal = false → s.signalling = 0 →
    s.buffer.items = [] ∧ s.buffer.closed = false

namespace BufferState

variable {s : BufferState α}

/-- The part of the promise that is about the state. A consumer that waits has seen an empty and
open buffer, and whoever changes that owes it a signal. -/
structure Inv (capacity : ℕ) (s : BufferState α) : Prop where
  pos : 0 < s.buffer.capacity
  capacity : s.buffer.capacity = capacity
  bounded : s.buffer.items.length ≤ s.buffer.capacity
  wakeup : s.consumer = .waiting → s.buffer.signal = false → s.signalling = 0 →
    s.buffer.items = [] ∧ s.buffer.closed = false

theorem Inv.checking {c : ℕ} (h : s.Inv c) : { s with consumer := .checking }.Inv c :=
  ⟨h.pos, h.capacity, h.bounded, fun hwaiting => by cases hwaiting⟩

theorem Inv.step {c : ℕ} (h : s.Inv c) (e : BufferEvent α) : (s.step e).Inv c := by
  cases e with
  | push req =>
    rw [BufferState.step]
    split_ifs
    · exact h
    · refine ⟨?_, ?_, ?_, fun _ _ hnone => absurd hnone (Nat.succ_ne_zero _)⟩
      · simpa using h.pos
      · simpa using h.capacity
      · simpa using MemoryOutputBuffer.push_length_le h.pos h.bounded req
  | close =>
    rw [BufferState.step]
    split_ifs
    · exact h
    · exact ⟨h.pos, h.capacity, h.bounded, fun _ _ hnone => absurd hnone (Nat.succ_ne_zero _)⟩
  | signal =>
    rw [BufferState.step]
    split_ifs
    · exact h
    · exact ⟨h.pos, h.capacity, h.bounded, fun _ hsignal => by cases hsignal⟩
  | next =>
    rw [BufferState.step]
    split_ifs
    · exact h.checking
    · exact h
  | check =>
    have hlength : s.buffer.next.1.items.length ≤ s.buffer.items.length :=
      List.length_tail ▸ Nat.sub_le _ 1
    rw [BufferState.step]
    split_ifs with hchecking hempty
    · -- the consumer goes to sleep on what it has just seen
      refine ⟨h.pos, h.capacity, Nat.le_trans hlength h.bounded, fun _ _ _ => ⟨?_, hempty.2⟩⟩
      rw [MemoryOutputBuffer.next, hempty.1, List.tail_nil]
    · exact ⟨h.pos, h.capacity, Nat.le_trans hlength h.bounded, fun hwaiting => by cases hwaiting⟩
    · exact h
  | wake =>
    rw [BufferState.step]
    split_ifs
    · exact ⟨h.pos, h.capacity, h.bounded, fun hwaiting => by cases hwaiting⟩
    · exact h
  | cancel =>
    rw [BufferState.step]
    split_ifs
    · exact ⟨h.pos, h.capacity, h.bounded, fun hwaiting => by cases hwaiting⟩
    · exact h

theorem consumer_of_step {e : BufferEvent α} (h : (s.step e).consumer ≠ .outside) (he : e ≠ .next) :
    s.consumer ≠ .outside := by
  rintro houtside
  cases e <;> simp_all [step, apply_ite]

private theorem closed_step (s : BufferState α) (e : BufferEvent α) :
    (s.step e).buffer.closed = (s.buffer.closed || e.closes) := by
  cases e <;> unfold step BufferEvent.closes <;> split_ifs <;> simp_all [MemoryOutputBuffer.next]

theorem map_fst_toList (req : Option α) (exit : Exit) :
    (req.map (·, exit)).toList.map Prod.fst = req.toList := by
  cases req <;> rfl

theorem leaves_append_step {c : ℕ} (h : s.Inv c) (e : BufferEvent α) :
    (s.leaves e).toList.map Prod.fst ++ (s.step e).buffer.items =
      s.buffer.items ++ if s.buffer.closed then [] else e.request?.toList := by
  cases e with
  | push req =>
    cases hclosed : s.buffer.closed with
    | true =>
      simp [leaves, step, hclosed, MemoryOutputBuffer.push_of_closed hclosed]
    | false =>
      rw [leaves, map_fst_toList, step, hclosed, if_neg Bool.false_ne_true]
      exact MemoryOutputBuffer.push_append hclosed h.pos req
  | check =>
    by_cases hchecking : s.consumer = .checking
    · rw [leaves, step, if_pos hchecking, if_pos hchecking, map_fst_toList]
      simpa [BufferEvent.request?] using s.buffer.next_append
    · simp [leaves, step, hchecking, BufferEvent.request?]
  | close | signal | next | wake | cancel =>
    simp only [leaves, step, BufferEvent.request?]
    split_ifs <;> simp

theorem head?_of_leaves_dropped {e : BufferEvent α} {req : α}
    (h : s.leaves e = some (req, .dropped)) : s.buffer.items.head? = some req := by
  cases e with
  | push new =>
    obtain ⟨dropped, hdropped, heq⟩ := Option.map_eq_some_iff.1 h
    cases heq
    exact MemoryOutputBuffer.push_head? hdropped
  | check =>
    simp only [leaves] at h
    split_ifs at h
    obtain ⟨_, -, heq⟩ := Option.map_eq_some_iff.1 h
    cases heq
  | close | signal | next | wake | cancel => cases h

theorem leaves_check (s : BufferState α) (h : s.consumer = .checking) :
    s.leaves .check = s.buffer.items.head?.map (·, .returned) := by
  rw [leaves, if_pos h, MemoryOutputBuffer.next]

end BufferState

theorem pushed_concat (es : List (BufferEvent α)) (e : BufferEvent α) :
    pushed (es ++ [e]) =
      pushed es ++ if es.any BufferEvent.closes then [] else e.request?.toList := by
  unfold pushed
  induction es with
  | nil => cases e <;> rfl
  | cons e' es ih =>
    cases hcloses : e'.closes with
    | true => simp [hcloses]
    | false =>
      simp only [List.cons_append, List.takeWhile_cons, hcloses, Bool.not_false, if_true,
        List.any_cons, Bool.false_or]
      cases hreq : e'.request? with
      | none => rw [List.filterMap_cons_none hreq, List.filterMap_cons_none hreq, ih]
      | some req =>
        rw [List.filterMap_cons_some hreq, List.filterMap_cons_some hreq, ih, List.cons_append]

open BufferState in
/-- Every run from a new buffer is a bounded queue without lost wakeups. -/
theorem boundedFifo_run (capacity : ℤ) (es : List (BufferEvent α)) :
    BoundedFifo capacity es (run step (start capacity) es) := by
  have hstart : (start capacity : BufferState α).Inv (if capacity ≤ 0 then 1 else capacity.toNat) :=
    ⟨MemoryOutputBuffer.new_capacity_pos capacity, rfl, Nat.zero_le _,
      fun hwaiting => by cases hwaiting⟩
  have hinv (es : List (BufferEvent α)) := run_of_step (fun _ e hs => hs.step e) hstart es
  have hclosed (es : List (BufferEvent α)) :
      (run step (start capacity) es).buffer.closed = es.any BufferEvent.closes := by
    induction es using List.reverseRecOn with
    | nil => rfl
    | append_singleton es e ih =>
      rw [run_append, run_cons, run_nil, closed_step, ih]
      simp
  have hconserved : (left capacity es).map Prod.fst ++
      (run step (start capacity) es).buffer.items = pushed es := by
    -- over the events in their order, each one added at the end
    induction es using List.reverseRecOn with
    | nil => rfl
    | append_singleton es e ih =>
      rw [left, trace_append, run_append, run_cons,
        run_nil, pushed_concat, ← hclosed, ← ih, ← left]
      simp only [trace, List.append_nil, List.map_append, List.append_assoc]
      rw [leaves_append_step (hinv es)]
  refine ⟨hconserved, ?_, ?_, ?_, (hinv es).capacity ▸ (hinv es).bounded, (hinv es).wakeup⟩
  · rw [← hconserved]
    exact (List.filter_sublist.map _).trans (List.sublist_append_left _ _)
  · exact along_of_step (I := fun _ => True) (fun _ _ _ => trivial)
      (fun s e _ req hreq => head?_of_leaves_dropped hreq) trivial es
  · exact along_of_step (I := fun _ => True) (fun _ _ _ => trivial)
      (fun s _ _ => leaves_check s) trivial es

end KeelGateway.Connector
