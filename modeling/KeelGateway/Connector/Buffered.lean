import KeelGateway.Connector.OutputBuffer
import Mathlib.Algebra.Order.Group.Multiset
import Mathlib.Tactic.Abel

/-!
# The buffered connector

`Forward` answers success as soon as a request is in the buffer. The drain loop hands it on, with a
few retries, and a request that is given up is counted: a full buffer and a failed downstream are
losses that an operator can see. Two losses cannot be seen. A request that comes after `Close` is
refused by the buffer and answered with success all the same, and a drain loop that is cancelled
while it waits for a retry forgets the request.

A call of `Forward` is one event, with the count of what it drops. The drain loop is cut at the lock
of the buffer, at its `select`s and at the calls of the inner connector.

-/

namespace KeelGateway.Connector

open StepMachine

variable {α : Type}

/-- `forwardRetryBackoff`, in milliseconds. -/
def forwardRetryBackoff : List ℕ := [0, 200, 1000]

/-- Where the drain loop is. -/
inductive DrainPhase (α : Type) where
  | next
  /-- In `forwardWithRetry`, at a call of the inner connector. -/
  | attempt (req : α) (i : ℕ)
  /-- In `forwardWithRetry`, before a call of the inner connector. -/
  | backoff (req : α) (i : ℕ)
  | exited

/-- The requests that the drain loop is trying. -/
def DrainPhase.trying : DrainPhase α → Multiset α
  | attempt req _ | backoff req _ => {req}
  | next | exited => 0

/-- `BufferedConnector`, with the requests that its callers and its counters have seen. -/
structure BufferedConnector (α : Type) extends BufferState α where
  phase : DrainPhase α
  cancelled : Bool := false
  shutdown : Bool := false
  /-- The requests for which `Forward` has answered success. -/
  answered : Multiset α := 0
  /-- The requests that the inner connector has accepted. -/
  accepted : Multiset α := 0
  bufferFull : Multiset α := 0
  forwardError : Multiset α := 0

/-- The events at a connector. -/
inductive ConnectorEvent (α : Type) where
  | forward (req : α)
  | signal
  | check
  | wake
  | done
  | attempt (success : Bool)
  | elapsed
  | abandoned
  | close
  | cancel
  | returned

namespace BufferedConnector

/-- `NewBuffered`, with or without `Start`. -/
def new (capacity : ℤ) (started : Bool) : BufferedConnector α where
  buffer := .new capacity
  consumer := if started then .checking else .outside
  phase := if started then .next else .exited

/-- The loop of `drainLoop` begins again. -/
def again (s : BufferedConnector α) : BufferedConnector α :=
  { s with phase := .next, consumer := .checking }

/-- The state after an event. An event that cannot happen changes nothing. -/
def step (s : BufferedConnector α) : ConnectorEvent α → BufferedConnector α
  | .forward req =>
    { s with
      toBufferState := s.toBufferState.step (.push req)
      bufferFull := s.bufferFull + ↑(s.buffer.push req).2.toList
      answered := s.answered + {req} }
  | .signal => { s with toBufferState := s.toBufferState.step .signal }
  | .check =>
    if s.consumer = .checking then
      match s.buffer.next.2 with
      | some req =>
        { s with toBufferState := s.toBufferState.step .check, phase := .attempt req 0 }
      | none =>
        { s with
          toBufferState := s.toBufferState.step .check
          phase := if s.buffer.closed then .exited else .next }
    else s
  | .wake => { s with toBufferState := s.toBufferState.step .wake }
  | .done =>
    if s.consumer = .waiting ∧ s.cancelled = true then
      { s with toBufferState := s.toBufferState.step .cancel, phase := .exited }
    else s
  | .attempt success =>
    match s.phase with
    | .attempt req i =>
      if success then { s.again with accepted := s.accepted + {req} }
      else if i + 1 < forwardRetryBackoff.length then { s with phase := .backoff req (i + 1) }
      else { s.again with forwardError := s.forwardError + {req} }
    | _ => s
  | .elapsed =>
    match s.phase with
    | .backoff req i => { s with phase := .attempt req i }
    | _ => s
  | .abandoned =>
    match s.phase with
    | .backoff _ _ => if s.cancelled then s.again else s
    | _ => s
  | .close => { s with toBufferState := s.toBufferState.step .close }
  | .cancel => { s with cancelled := true }
  | .returned =>
    match s.phase with
    | .exited => { s with shutdown := s.shutdown || (s.buffer.closed && s.cancelled) }
    | _ => s

/-- The places in which a request is accounted for. -/
def settled (s : BufferedConnector α) : Multiset α :=
  s.accepted + (s.bufferFull + s.forwardError) + ↑s.buffer.items + s.phase.trying

/-- Every request that was answered with success has been accepted, was counted once, is in the
buffer or is being tried, and only one of these. Nothing is tried after a shutdown. -/
def Accounted (s : BufferedConnector α) : Prop :=
  s.answered = s.settled ∧ (s.shutdown = true → s.phase.trying = 0)

/-- A request comes while the buffer is open, and no retry is given up. -/
def Kept (s : BufferedConnector α) : ConnectorEvent α → Prop
  | .forward _ => s.buffer.closed = false
  | .abandoned =>
    match s.phase with
    | .backoff _ _ => s.cancelled = false
    | _ => True
  | _ => True

/-! ### Where the requests are -/

/-- The request that an event brings. -/
def arrival : ConnectorEvent α → Multiset α
  | .forward req => {req}
  | _ => 0

/-- The request that gets lost at an event. -/
def lost (s : BufferedConnector α) : ConnectorEvent α → Multiset α
  | .forward req => if s.buffer.closed then {req} else 0
  | .abandoned =>
    match s.phase with
    | .backoff req _ => if s.cancelled then {req} else 0
    | _ => 0
  | _ => 0

variable {s : BufferedConnector α}

private theorem lost_eq_zero_iff {e : ConnectorEvent α} : s.lost e = 0 ↔ s.Kept e := by
  cases e with
  | forward req => cases hclosed : s.buffer.closed <;> simp [lost, Kept]
  | abandoned =>
    cases hphase : s.phase with
    | backoff req i => cases hcancelled : s.cancelled <;> simp [lost, Kept, hphase]
    | next | attempt | exited => simp [lost, Kept, hphase]
  | _ => exact iff_of_true rfl trivial

private theorem answered_step (e : ConnectorEvent α) :
    (s.step e).answered = s.answered + arrival e := by
  cases e <;> simp only [step, arrival, add_zero] <;> repeat' split
  all_goals rfl

/-- Whoever is in `Next` is the drain loop between two requests, and a shutdown waits for its
end. -/
structure Inv (c : ℕ) (s : BufferedConnector α) : Prop where
  buffer : s.toBufferState.Inv c
  inNext : s.consumer ≠ .outside → s.phase = .next
  exited : s.shutdown = true → s.phase = .exited

theorem Inv.again {c : ℕ} (h : s.Inv c) (hphase : s.phase ≠ .exited) : s.again.Inv c :=
  ⟨h.buffer.checking, fun _ => rfl, fun hshutdown => absurd (h.exited hshutdown) hphase⟩

theorem inv_step {c : ℕ} (h : s.Inv c) (e : ConnectorEvent α) : (s.step e).Inv c := by
  have hbuffer (e : BufferEvent α) (he : e ≠ .next) :
      { s with toBufferState := s.toBufferState.step e }.Inv c :=
    ⟨h.buffer.step e, fun hconsumer => h.inNext (BufferState.consumer_of_step hconsumer he),
      h.exited⟩
  cases e with
  | forward req =>
    have hpush := hbuffer (.push req) (by simp)
    exact ⟨hpush.buffer, hpush.inNext, hpush.exited⟩
  | signal => exact hbuffer .signal (by simp)
  | close => exact hbuffer .close (by simp)
  | wake => exact hbuffer .wake (by simp)
  | cancel => exact ⟨h.buffer, h.inNext, h.exited⟩
  | check =>
    by_cases hchecking : s.consumer = .checking
    · have hnext : s.phase = .next := h.inNext (by simp [hchecking])
      have hrunning : s.shutdown ≠ true := fun hshutdown => by
        cases hnext.symm.trans (h.exited hshutdown)
      rw [step, if_pos hchecking]
      split
      · next req hreq =>
        have hitems : s.buffer.items ≠ [] := fun hnil => by
          simp [MemoryOutputBuffer.next, hnil] at hreq
        exact ⟨h.buffer.step .check, fun hconsumer => by
          simp [BufferState.step, hchecking, hitems] at hconsumer, fun hs => absurd hs hrunning⟩
      · refine ⟨h.buffer.step .check, fun hconsumer => ?_, fun hs => absurd hs hrunning⟩
        cases hclosed : s.buffer.closed with
        | true => simp [BufferState.step, hchecking, hclosed] at hconsumer
        | false => rfl
    · rw [step, if_neg hchecking]
      exact h
  | done =>
    rw [step]
    split_ifs with hdone
    · exact ⟨h.buffer.step .cancel, fun hconsumer => by
        simp [BufferState.step, hdone.1] at hconsumer,
        fun _ => rfl⟩
    · exact h
  | attempt success =>
    rw [step]
    split
    · next req i hphase =>
      have hagain := h.again (by simp [hphase])
      split_ifs
      · exact ⟨hagain.buffer, hagain.inNext, hagain.exited⟩
      · refine ⟨h.buffer, fun hconsumer => ?_, fun hs => ?_⟩
        · cases hphase.symm.trans (h.inNext hconsumer)
        · cases hphase.symm.trans (h.exited hs)
      · exact ⟨hagain.buffer, hagain.inNext, hagain.exited⟩
    · exact h
  | elapsed =>
    rw [step]
    split
    · next req i hphase =>
      refine ⟨h.buffer, fun hconsumer => ?_, fun hs => ?_⟩
      · cases hphase.symm.trans (h.inNext hconsumer)
      · cases hphase.symm.trans (h.exited hs)
    · exact h
  | abandoned =>
    rw [step]
    split
    · next req i hphase =>
      split_ifs
      · exact h.again (by simp [hphase])
      · exact h
    · exact h
  | returned =>
    rw [step]
    split
    · next hphase => exact ⟨h.buffer, h.inNext, fun _ => hphase⟩
    · exact h

theorem settled_step {c : ℕ} (h : s.Inv c) (e : ConnectorEvent α) :
    (s.step e).settled + s.lost e = s.settled + arrival e := by
  cases e with
  | forward req =>
    cases hclosed : s.buffer.closed with
    | true =>
      simp [step, BufferState.step, settled, lost, arrival, hclosed,
        MemoryOutputBuffer.push_of_closed hclosed]
    | false =>
      have happend := congrArg (fun l : List α => (l : Multiset α))
        (MemoryOutputBuffer.push_append hclosed h.buffer.pos req)
      simp only [← Multiset.coe_add, Multiset.coe_singleton] at happend
      simp only [step, BufferState.step, settled, lost, arrival, hclosed, Bool.false_eq_true,
        if_false, add_zero]
      -- the request that is dropped moves from the buffer to the counter
      calc s.accepted + (s.bufferFull + ↑(s.buffer.push req).2.toList + s.forwardError) +
            ↑(s.buffer.push req).1.items + s.phase.trying
          = s.accepted + (s.bufferFull + s.forwardError) +
            (↑(s.buffer.push req).2.toList + ↑(s.buffer.push req).1.items) +
              s.phase.trying := by abel
        _ = s.accepted + (s.bufferFull + s.forwardError) + (↑s.buffer.items + {req}) +
            s.phase.trying := by rw [happend]
        _ = _ := by abel
  | check =>
    by_cases hchecking : s.consumer = .checking
    · have hnext : s.phase = .next := h.inNext (by simp [hchecking])
      have happend := congrArg (fun l : List α => (l : Multiset α)) s.buffer.next_append
      simp only [← Multiset.coe_add] at happend
      rw [step, if_pos hchecking]
      split
      · next req hreq =>
        rw [hreq] at happend
        simp only [settled, lost, arrival, add_zero, BufferState.step, hchecking, if_true, hnext,
          ← happend, Option.toList_some, Multiset.coe_singleton]
        abel
      · next hnone =>
        rw [hnone, Option.toList_none, Multiset.coe_nil, zero_add] at happend
        have hidle : (.next : DrainPhase α).trying = 0 := rfl
        have htrying : (if s.buffer.closed then .exited else .next : DrainPhase α).trying = 0 := by
          split <;> rfl
        simp only [settled, lost, arrival, add_zero, BufferState.step, hchecking, if_true, hnext,
          hidle, happend, htrying]
    · rw [step, if_neg hchecking]
      rfl
  | done =>
    rw [step]
    split_ifs with hdone
    · simp [settled, lost, arrival, BufferState.step, hdone.1, h.inNext (by simp [hdone.1]),
        DrainPhase.trying]
    · rfl
  | attempt success =>
    rw [step]
    split
    · next req i hphase =>
      split_ifs
      · simp only [settled, lost, arrival, again, hphase, DrainPhase.trying, add_zero]
        abel
      · simp [settled, lost, arrival, hphase, DrainPhase.trying]
      · simp only [settled, lost, arrival, again, hphase, DrainPhase.trying, add_zero]
        abel
    · rfl
  | elapsed =>
    rw [step]
    split
    · next req i hphase => simp [settled, lost, arrival, hphase, DrainPhase.trying]
    · rfl
  | abandoned =>
    rw [step, lost]
    split
    · next req i hphase =>
      split_ifs
      · simp [settled, arrival, again, hphase, DrainPhase.trying]
      · rfl
    · rfl
  | returned =>
    rw [step]
    split <;> rfl
  | cancel => rfl
  | signal | wake | close =>
    simp only [step, BufferState.step, settled, lost, arrival, add_zero]
    split_ifs <;> rfl

/-- The requests stay accounted for along exactly the runs on which none comes after the buffer is
closed and no retry is given up. -/
theorem accounted_iff_kept (capacity : ℤ) (started : Bool) (es : List (ConnectorEvent α)) :
    Always step Accounted (new capacity started) es ↔
      Along step Kept (new capacity started) es := by
  have hinv : (new capacity started : BufferedConnector α).Inv
      (MemoryOutputBuffer.new capacity : MemoryOutputBuffer α).capacity :=
    ⟨⟨MemoryOutputBuffer.new_capacity_pos capacity, rfl, Nat.zero_le _, fun hwaiting => by
        cases started <;> cases hwaiting⟩,
      fun hconsumer => by cases started <;> simp_all [new], fun hs => by cases hs⟩
  refine always_iff_along_of_invariant (I := Inv _) (fun s e hs _ => inv_step hs e)
    (fun s e hs hacc => ?_) hinv ⟨?_, fun hs => by cases hs⟩
  · have hsum : (s.step e).answered = (s.step e).settled + s.lost e := by
      rw [answered_step, hacc.1, settled_step hs]
    rw [Accounted, hsum, add_eq_left, lost_eq_zero_iff, and_iff_left]
    intro hshutdown
    rw [(inv_step hs e).exited hshutdown]
    rfl
  · cases started <;> rfl

/-- A request after `Close` and a retry that is cancelled are both lost. -/
theorem not_accounted_of_loss :
    ¬ Always step Accounted (new 2 true) [.close, .forward 7] ∧
      ¬ Always step Accounted (new 2 true)
        [.forward 7, .check, .attempt false, .cancel, .abandoned] :=
  ⟨fun h => absurd h.last.1 (by decide), fun h => absurd h.last.1 (by decide)⟩

end BufferedConnector

end KeelGateway.Connector
