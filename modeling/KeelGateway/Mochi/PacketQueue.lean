import Mathlib.Data.List.Rotate
import Mathlib.Data.Nat.ModEq

/-!
# The outbound queue

The packets for a connection wait in a bounded queue. Its storage is a ring that grows when it is
full and is given back when a long backlog has been drained, so a packet may lie anywhere in it. An
operation panics on an index out of range, on a remainder by zero and on a slot without a packet.
The ring is compared with the list of its packets.
-/

namespace KeelGateway.Mochi

variable {α : Type}

/-- `packetQueue`, for a limit above zero. -/
structure PacketQueue (α : Type) where
  buf : List (Option α) := []
  head : ℕ := 0
  size : ℕ := 0
  limit : ℕ
  closed : Bool := false
  ready : Bool := false

/-- `packetQueueInitialSize`. -/
def packetQueueInitialSize : ℕ := 16

namespace PacketQueue

/-- The length of the next ring. -/
def capacity (q : PacketQueue α) : ℕ :=
  min q.limit
    (if q.buf.length = 0 then packetQueueInitialSize
    else if q.buf.length ≤ q.limit / 2 then q.buf.length * 2 else q.limit)

/-- A full ring is copied to a longer one, from its head on. -/
def grow (q : PacketQueue α) : PacketQueue α :=
  if q.size = q.buf.length then
    let copied := (q.buf.drop q.head ++ q.buf.take q.head).take q.capacity
    { q with buf := copied ++ List.replicate (q.capacity - copied.length) none, head := 0 }
  else q

/-- `tryPush`, or `none` if it panics. -/
def tryPush (q : PacketQueue α) (pk : α) : Option (PacketQueue α × Bool) :=
  if q.closed || q.size = q.limit then some (q, false)
  else if q.size ≠ 0 ∧ q.size = q.buf.length ∧ q.buf.length < q.head then none
  else
    let q := q.grow
    if q.buf.length = 0 then none
    else
      some ({ q with
        buf := q.buf.set ((q.head + q.size) % q.buf.length) (some pk)
        size := q.size + 1
        ready := q.ready || q.size + 1 = 1 }, true)

/-- What `pop` takes from a queue that is not closed, or `none` if it panics. -/
def take (q : PacketQueue α) : Option (PacketQueue α × Option α) :=
  if q.size = 0 then some (q, none)
  else do
    let pk ← q.buf[q.head]?.join
    let buf := q.buf.set q.head none
    if q.size = 1 then
      let buf := if packetQueueInitialSize < buf.length then [] else buf
      some ({ q with buf, head := 0, size := 0, ready := false }, some pk)
    else some ({ q with buf, head := (q.head + 1) % buf.length, size := q.size - 1 }, some pk)

/-- `close`, which returns the old `size`. -/
def close (q : PacketQueue α) : PacketQueue α :=
  { q with closed := true, buf := [], head := 0, size := 0 }

/-- The packets of the ring, in order. -/
structure Holds (q : PacketQueue α) (items : List α) : Prop where
  size : q.size = items.length
  limit : q.size ≤ q.limit
  room : q.size ≤ q.buf.length
  head : q.head < q.buf.length ∨ q.head = 0
  slots : ∀ i pk, items[i]? = some pk → q.buf[(q.head + i) % q.buf.length]? = some (some pk)

variable {q : PacketQueue α} {items : List α} {pk : α}

theorem slot_injective {c h i j : ℕ} (hi : i < c) (hj : j < c) (heq : (h + i) % c = (h + j) % c) :
    i = j :=
  Nat.ModEq.eq_of_lt_of_lt (Nat.ModEq.add_left_cancel' h heq) hi hj

theorem lt_length {i : ℕ} (h : items[i]? = some pk) : i < items.length :=
  (List.getElem?_eq_some_iff.1 h).1

theorem holds_new (limit : ℕ) : ({ limit } : PacketQueue α).Holds [] :=
  ⟨rfl, Nat.zero_le _, Nat.zero_le _, Or.inr rfl, fun _ _ h => by cases h⟩

theorem holds_close (q : PacketQueue α) : q.close.Holds [] :=
  ⟨rfl, Nat.zero_le _, Nat.zero_le _, Or.inr rfl, fun _ _ h => by cases h⟩

private theorem lt_capacity (hfree : q.size < q.limit) (hfull : q.size = q.buf.length) :
    q.size < q.capacity := by
  unfold capacity packetQueueInitialSize
  split_ifs <;> omega

theorem Holds.grow (h : q.Holds items) (hfree : q.size < q.limit) :
    q.grow.Holds items ∧ q.grow.size < q.grow.buf.length := by
  rw [PacketQueue.grow]
  split_ifs with hfull
  · have hlt := lt_capacity hfree hfull
    have hhead : q.head ≤ q.buf.length := by
      rcases h.head with hhead | hhead <;> omega
    have hcopied : (q.buf.drop q.head ++ q.buf.take q.head).take q.capacity =
        q.buf.rotate q.head := by
      rw [← List.rotate_eq_drop_append_take hhead, List.take_of_length_le]
      rw [List.length_rotate]
      omega
    have hlength : (q.buf.rotate q.head ++
        List.replicate (q.capacity - (q.buf.rotate q.head).length) none).length = q.capacity := by
      rw [List.length_append, List.length_replicate, List.length_rotate]
      omega
    simp only [hcopied]
    refine ⟨⟨h.size, h.limit, ?_, Or.inr rfl, fun i pk hi => ?_⟩, ?_⟩
    · exact hlt.le.trans_eq hlength.symm
    · have hi' : i < q.buf.length := by
        have := lt_length hi
        have := h.size
        omega
      rw [hlength, Nat.zero_add, Nat.mod_eq_of_lt (by omega), List.getElem?_append_left
        (by rwa [List.length_rotate]), List.getElem?_rotate hi', Nat.add_comm]
      exact h.slots i pk hi
    · exact hlt.trans_eq hlength.symm
  · exact ⟨h, Nat.lt_of_le_of_ne h.room hfull⟩

theorem Holds.push (h : q.Holds items) (hroom : q.size < q.buf.length) (hfree : q.size < q.limit)
    (pk : α) (ready : Bool) :
    Holds { q with
      buf := q.buf.set ((q.head + q.size) % q.buf.length) (some pk)
      size := q.size + 1
      ready } (items ++ [pk]) := by
  have hpos : 0 < q.buf.length := Nat.zero_lt_of_lt hroom
  refine ⟨?_, hfree, ?_, ?_, fun i x hi => ?_⟩
  · rw [List.length_append, List.length_singleton, h.size]
  · rwa [List.length_set]
  · rw [List.length_set]
    exact h.head
  · rw [List.length_set]
    by_cases hlast : i = items.length
    · rw [hlast, List.getElem?_concat_length] at hi
      rw [← Option.some.inj hi, hlast, ← h.size, List.getElem?_set_self (Nat.mod_lt _ hpos)]
    · have hlt : i < items.length := by
        have := lt_length hi
        rw [List.length_append, List.length_singleton] at this
        omega
      rw [List.getElem?_append_left hlt] at hi
      rw [List.getElem?_set_ne fun heq => hlast ?_]
      · exact h.slots i x hi
      · have := h.size
        rw [← h.size]
        exact (slot_injective hroom (by omega) heq).symm

theorem tryPush_of_holds (h : q.Holds items) (pk : α) :
    ∃ q', q.tryPush pk = some (q', !(q.closed || items.length = q.limit)) ∧
      q'.closed = q.closed ∧
      q'.Holds (if q.closed || items.length = q.limit then items else items ++ [pk]) ∧
      q'.ready = (q.ready || !(q.closed || items.length = q.limit) && items.isEmpty) := by
  rw [← h.size, tryPush]
  cases hrefused : q.closed || decide (q.size = q.limit) with
  | true => exact ⟨q, rfl, rfl, h, by simp⟩
  | false =>
    have hfree : q.size < q.limit := by
      have := (Bool.or_eq_false_iff.1 hrefused).2
      exact Nat.lt_of_le_of_ne h.limit (of_decide_eq_false this)
    have hgrown : q.grow.size = q.size ∧ q.grow.limit = q.limit ∧ q.grow.closed = q.closed ∧
        q.grow.ready = q.ready := by
      unfold grow
      split_ifs <;> exact ⟨rfl, rfl, rfl, rfl⟩
    obtain ⟨hsize, hlimit, hclosed, hready⟩ := hgrown
    obtain ⟨hgrow, hroom⟩ := h.grow hfree
    have hhead : ¬ (q.size ≠ 0 ∧ q.size = q.buf.length ∧ q.buf.length < q.head) := by
      rcases h.head with hhead | hhead <;> omega
    simp only [Bool.false_eq_true, if_false, if_neg hhead, if_neg (Nat.zero_lt_of_lt hroom).ne']
    refine ⟨_, rfl, hclosed, hgrow.push hroom (by rwa [hsize, hlimit]) pk _, ?_⟩
    cases items <;> simp [hready, hsize, h.size]

theorem take_of_holds_nil (h : q.Holds []) : q.take = some (q, none) := if_pos h.size

/-- The oldest packet is taken. -/
theorem take_of_holds_cons (h : q.Holds (pk :: items)) :
    ∃ q', q.take = some (q', some pk) ∧ q'.Holds items := by
  have hsize := h.size
  have hroom := h.room
  rw [List.length_cons] at hsize
  have hhead : q.head < q.buf.length := by
    rcases h.head with hhead | hhead <;> omega
  have hfirst : q.buf[q.head]? = some (some pk) := by
    have := h.slots 0 pk rfl
    rwa [Nat.add_zero, Nat.mod_eq_of_lt hhead] at this
  rw [take, if_neg (by omega), hfirst]
  simp only [Option.join_some, Option.bind_eq_bind, Option.bind_some, List.length_set]
  by_cases hlast : items = []
  · subst hlast
    rw [if_pos (by simpa using hsize)]
    exact ⟨_, rfl, rfl, Nat.zero_le _, Nat.zero_le _, Or.inr rfl, fun _ _ hi => by cases hi⟩
  · have hmore : 0 < items.length := List.length_pos_of_ne_nil hlast
    rw [if_neg (by omega)]
    have hnext : (q.head + 1) % q.buf.length < q.buf.length := Nat.mod_lt _ (by omega)
    refine ⟨_, rfl, Nat.sub_eq_of_eq_add hsize, ?_, ?_, Or.inl ?_, fun i x hi => ?_⟩
    · exact Nat.le_trans (Nat.sub_le _ 1) h.limit
    · rw [List.length_set]
      exact Nat.le_trans (Nat.sub_le _ 1) hroom
    · rwa [List.length_set]
    · have hi' := lt_length hi
      have hslot := h.slots (i + 1) x hi
      simp only [List.length_set]
      rw [Nat.mod_add_mod, Nat.add_assoc, Nat.add_comm 1 i, List.getElem?_set_ne fun heq => ?_]
      · exact hslot
      · have hwrap : (q.head + 0) % q.buf.length = (q.head + (i + 1)) % q.buf.length := by
          rwa [Nat.add_zero, Nat.mod_eq_of_lt hhead]
        exact absurd (slot_injective (by omega) (by omega) hwrap) (Nat.succ_ne_zero i).symm

end PacketQueue

end KeelGateway.Mochi
