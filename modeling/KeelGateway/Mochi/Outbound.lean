import KeelGateway.Lib.StepMachine
import KeelGateway.Mochi.PacketQueue
import KeelGateway.Mochi.TopicAliases

/-!
# From a publish to the connection

A publisher reserves a topic alias for its packet and tries to queue it, both under one lock of the
client. The write loop takes the packets off the queue and writes them; it passes over a packet that
is too large for the client or cannot be encoded.
-/

namespace KeelGateway.Mochi

/-- Where `WriteLoop` is. -/
inductive WriteLoop where
  | checking
  | waiting
  | writing (pk : OutPacket)
  | exited

/-- The packet that has left the queue and is not yet written. -/
def WriteLoop.packets : WriteLoop → List OutPacket
  | writing pk => [pk]
  | _ => []

/-- The events at a connection. -/
inductive OutboundEvent where
  | publish (topic : TopicName)
  | check
  | wake
  | write (sent : Bool)
  | done
  | stop

/-- The way of the publishes to a connection, with two lists that the program does not store. -/
structure Outbound where
  aliases : OutboundTopicAliases
  queue : PacketQueue OutPacket
  loop : WriteLoop := .checking
  queued : List OutPacket := []
  handled : List (OutPacket × Bool) := []

/-- A new connection, with a queue for `limit + 1` packets. -/
def Outbound.start (maximum limit : ℕ) : Outbound :=
  { aliases := { maximum }, queue := { limit := limit + 1 } }

/-- A step, or `none` if it panics. An event that cannot happen changes nothing. -/
def Outbound.step (s : Outbound) : OutboundEvent → Option Outbound
  | .publish topic =>
    let (aliases, pk) := s.aliases.prepare topic
    (s.queue.tryPush pk).map fun pushed =>
      if pushed.2 then { s with aliases, queue := pushed.1, queued := s.queued ++ [pk] }
      else { s with aliases := aliases.rollBack pk, queue := pushed.1 }
  | .check =>
    match s.loop with
    | .checking =>
      if s.queue.closed then some { s with queue := s.queue.close, loop := .exited }
      else
        s.queue.take.map fun taken =>
          { s with queue := taken.1, loop := taken.2.elim .waiting .writing }
    | _ => some s
  | .wake =>
    match s.loop with
    | .waiting =>
      -- a closed channel can always be received from
      if s.queue.ready || s.queue.closed then
        some { s with queue := { s.queue with ready := false }, loop := .checking }
      else some s
    | _ => some s
  | .write sent =>
    match s.loop with
    | .writing pk => some { s with loop := .checking, handled := s.handled ++ [(pk, sent)] }
    | _ => some s
  | .done =>
    match s.loop with
    | .checking | .waiting => some { s with queue := s.queue.close, loop := .exited }
    | _ => some s
  | .stop => some { s with queue := s.queue.close }

/-! ### The order of the packets -/

/-- Where the queued packets are: `items` in the ring, `lost` discarded when it was closed. -/
structure Flow (s : Outbound) (items lost : List OutPacket) : Prop where
  holds : s.queue.Holds items
  /-- The loop gets the packets in the order in which they were queued, each of them once. -/
  order : s.queued = s.handled.map Prod.fst ++ (s.loop.packets ++ (items ++ lost))
  kept : s.queue.closed = false → lost = []
  /-- The loop does not sleep while there is something for it. -/
  wakes : s.loop = .waiting → items ≠ [] → (s.queue.ready || s.queue.closed) = true

variable {s : Outbound} {items lost : List OutPacket}

theorem Flow.close (h : Flow s items lost) {loop : WriteLoop}
    (hloop : loop.packets = s.loop.packets) :
    Flow { s with queue := s.queue.close, loop } [] (items ++ lost) :=
  ⟨s.queue.holds_close, by rw [hloop]; exact h.order, fun hopen => (by cases hopen),
    fun _ hne => absurd rfl hne⟩

theorem Flow.publish (h : Flow s items lost) (topic : TopicName) :
    ∃ s', s.step (.publish topic) = some s' ∧ ∃ items' lost', Flow s' items' lost' := by
  obtain ⟨q, hq, hclosed, hholds, hready⟩ :=
    PacketQueue.tryPush_of_holds h.holds (s.aliases.prepare topic).2
  simp only [Outbound.step, hq, Option.map_some]
  cases hrefused : s.queue.closed || decide (items.length = s.queue.limit) with
  | true =>
    rw [hrefused] at hholds hready
    refine ⟨_, rfl, items, lost, hholds, h.order, fun hopen => h.kept (hclosed ▸ hopen), ?_⟩
    intro hwaiting hne
    simpa [hready, hclosed] using h.wakes hwaiting hne
  | false =>
    rw [hrefused] at hholds hready
    have hopen : s.queue.closed = false := (Bool.or_eq_false_iff.1 hrefused).1
    refine ⟨_, rfl, items ++ [_], [], hholds, ?_, fun _ => rfl, fun hwaiting _ => ?_⟩
    · simp [h.order, h.kept hopen]
    · cases items with
      | nil => simp [hready]
      | cons pk rest => simpa [hready, hclosed, hopen] using h.wakes hwaiting (List.cons_ne_nil _ _)

theorem Flow.check (h : Flow s items lost) :
    ∃ s', s.step .check = some s' ∧ ∃ items' lost', Flow s' items' lost' := by
  have horder := h.order
  simp only [Outbound.step]
  split
  · next hloop =>
    rw [hloop] at horder
    cases hclosed : s.queue.closed with
    | true => exact ⟨_, rfl, [], _, h.close (by rw [hloop]; rfl)⟩
    | false =>
      cases items with
      | nil =>
        rw [PacketQueue.take_of_holds_nil h.holds]
        exact ⟨_, rfl, [], lost, h.holds, horder, h.kept, fun _ hne => absurd rfl hne⟩
      | cons pk rest =>
        obtain ⟨q, hq, hholds⟩ := PacketQueue.take_of_holds_cons h.holds
        rw [hq]
        exact ⟨_, rfl, rest, lost, hholds, horder, fun _ => h.kept hclosed,
          fun hwaiting => by cases hwaiting⟩
  · exact ⟨_, rfl, items, lost, h⟩

theorem Flow.step (h : Flow s items lost) (e : OutboundEvent) :
    ∃ s', s.step e = some s' ∧ ∃ items' lost', Flow s' items' lost' := by
  have horder := h.order
  cases e with
  | publish topic => exact h.publish topic
  | check => exact h.check
  | wake =>
    simp only [Outbound.step]
    split
    · next hloop =>
      rw [hloop] at horder
      split_ifs
      · exact ⟨_, rfl, items, lost, ⟨h.holds.size, h.holds.limit, h.holds.room, h.holds.head,
          h.holds.slots⟩, horder, h.kept, fun hwaiting => by cases hwaiting⟩
      · exact ⟨_, rfl, items, lost, h⟩
    · exact ⟨_, rfl, items, lost, h⟩
  | write sent =>
    simp only [Outbound.step]
    split
    · next hloop =>
      rw [hloop] at horder
      refine ⟨_, rfl, items, lost, h.holds, ?_, h.kept, fun hwaiting => by cases hwaiting⟩
      simp [horder, WriteLoop.packets]
    · exact ⟨_, rfl, items, lost, h⟩
  | done =>
    simp only [Outbound.step]
    split
    · next hloop => exact ⟨_, rfl, [], _, h.close (by rw [hloop]; rfl)⟩
    · next hloop => exact ⟨_, rfl, [], _, h.close (by rw [hloop]; rfl)⟩
    · exact ⟨_, rfl, items, lost, h⟩
  | stop => exact ⟨_, rfl, [], _, h.close rfl⟩

/-! ### Runs -/

theorem Booked.step {maximum : ℕ} {s' : Outbound} (h : Booked maximum s.aliases s.queued)
    {e : OutboundEvent} (hs' : s.step e = some s') : Booked maximum s'.aliases s'.queued := by
  cases e with
  | publish topic =>
    simp only [Outbound.step, Option.map_eq_some_iff] at hs'
    obtain ⟨pushed, -, rfl⟩ := hs'
    split_ifs
    · exact h.prepare topic
    · exact h.rollBack topic
  | check =>
    simp only [Outbound.step] at hs'
    split at hs'
    · split_ifs at hs'
      · cases hs'; exact h
      · obtain ⟨taken, -, rfl⟩ := Option.map_eq_some_iff.1 hs'
        exact h
    · cases hs'; exact h
  | wake =>
    simp only [Outbound.step] at hs'
    split at hs'
    · split_ifs at hs' <;> (cases hs'; exact h)
    · cases hs'; exact h
  | write sent | done =>
    simp only [Outbound.step] at hs'
    split at hs' <;> (cases hs'; exact h)
  | stop => cases hs'; exact h

private theorem flow_start (maximum limit : ℕ) : Flow (.start maximum limit) [] [] :=
  ⟨PacketQueue.holds_new _, rfl, fun _ => rfl, fun _ hne => absurd rfl hne⟩

theorem flow_booked_run (maximum limit : ℕ) (es : List OutboundEvent) :
    ∃ s, es.foldlM Outbound.step (.start maximum limit) = some s ∧
      (∃ items lost, Flow s items lost) ∧ Booked maximum s.aliases s.queued := by
  refine StepMachine.foldlM_of_invariant (fun s e ⟨⟨items, lost, hflow⟩, hbooked⟩ => ?_)
    ⟨⟨[], [], flow_start maximum limit⟩, booked_start maximum⟩ es
  obtain ⟨s', hs', hflow'⟩ := hflow.step e
  exact ⟨s', hs', hflow', hbooked.step hs'⟩

/-- Nothing panics, the packets leave the queue in order, and the loop is never left asleep. -/
theorem flow_run (maximum limit : ℕ) (es : List OutboundEvent) :
    ∃ s, es.foldlM Outbound.step (.start maximum limit) = some s ∧
      ∃ items lost, Flow s items lost := by
  obtain ⟨s, hrun, hflow, -⟩ := flow_booked_run maximum limit es
  exact ⟨s, hrun, hflow⟩

/-- The client reads the topic of a packet exactly if no announcement that it rests on was passed
over; the aliases stay within the bound that the client has set. -/
theorem resolved_run (maximum limit : ℕ) (es : List OutboundEvent) :
    ∃ s, es.foldlM Outbound.step (.start maximum limit) = some s ∧
      (∀ pk ∈ s.queued, pk.topicAlias ≤ maximum) ∧
      ∀ older pk, older ++ [(pk, true)] <+: s.handled →
        ((InboundTopicAliases.receive maximum (InboundTopicAliases.after maximum older) pk).2 =
          pk.topic.text ↔ Resolved older pk) := by
  obtain ⟨s, hrun, ⟨items, lost, hflow⟩, hbooked⟩ := flow_booked_run maximum limit es
  refine ⟨s, hrun, fun pk hpk => (hbooked.used pk hpk).trans hbooked.bounded,
    fun older pk hpre => ?_⟩
  have hqueued : older.map Prod.fst ++ [pk] <+: s.queued := by
    have hmap := hpre.map Prod.fst
    rw [List.map_append, List.map_singleton] at hmap
    rw [hflow.order]
    exact hmap.trans (List.prefix_append _ _)
  exact InboundTopicAliases.receive_eq_iff
    (fun x y hxy => hbooked.coherent x y (hxy.trans ((List.prefix_append _ _).trans hqueued)))
    (hbooked.coherent _ _ hqueued)

-- a packet that is too large to be sent takes its announcement along
example : ([.publish ⟨['t'], by decide, by decide⟩, .publish ⟨['t'], by decide, by decide⟩, .check,
    .write false, .check, .write true].foldlM Outbound.step (.start 1 1)).map
      (fun s => s.handled.map fun h => (h.1.topicName, h.1.topicAlias, h.2)) =
    some [(['t'], 1, false), ([], 1, true)] := by
  decide

end KeelGateway.Mochi
