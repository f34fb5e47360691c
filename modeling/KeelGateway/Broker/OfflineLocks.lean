import KeelGateway.Lib.StepMachine
import KeelGateway.Text

/-!
# The locks of the offline queue

A message for an offline client is queued under a lock of that client. The lock is a channel with
one slot, and it exists only as long as somebody uses it: a call finds it in a map or makes it,
counts itself in, and the last one to count itself out takes it off the map. Between the count and
the channel other calls come and go, so a client may have had many locks. What has to be seen is
that no two of them are in use together.

A lock is made for one client and is found under its ID only, so map, locks and calls are kept by
client.

-/

namespace KeelGateway.Broker

open StepMachine

/-- `offlineClientLock`. -/
structure OfflineClientLock where
  refs : ℕ := 0
  /-- The channel is full. -/
  token : Bool := false

/-- Where a call of `lockOfflineClient` is, with the release function that it returns. -/
inductive LockPhase where
  | waiting
  | holding
  /-- At `releaseRef`, after the release or after its context was done. -/
  | leaving
  | finished
  deriving DecidableEq

/-- A call that has counted itself in at the lock with this address. -/
structure LockCall where
  lock : ℕ
  phase : LockPhase := .waiting

/-- A call is active until it has counted itself out. -/
def LockCall.active (call : LockCall) : Bool := call.phase ≠ .finished

/-- The call has sent its token and has not taken it out. -/
def LockCall.holds (call : LockCall) : Bool := call.phase = .holding

/-- The entry of a client in `offlineLocks`, its locks by their addresses, and its calls. -/
structure ClientLocks where
  entry : Option ℕ := none
  objects : ℕ → OfflineClientLock := fun _ => {}
  next : ℕ := 0
  calls : List LockCall := []

/-- The events, but for a call whose context is done before it starts, which does nothing. -/
inductive LockEvent where
  | call
  | acquire (i : ℕ)
  | cancel (i : ℕ)
  | release (i : ℕ)
  | releaseRef (i : ℕ)

namespace ClientLocks

/-- A call counts itself in at a lock. -/
def enter (k : ClientLocks) (address : ℕ) (lock : OfflineClientLock) : ClientLocks :=
  { k with
    objects := Function.update k.objects address { lock with refs := lock.refs + 1 }
    calls := k.calls ++ [⟨address, .waiting⟩] }

/-- A call goes on to another phase and leaves its lock as given. -/
def move (k : ClientLocks) (i : ℕ) (call : LockCall) (phase : LockPhase)
    (lock : OfflineClientLock) : ClientLocks :=
  { k with
    objects := Function.update k.objects call.lock lock
    calls := k.calls.set i { call with phase } }

/-- What a call does in a phase. A call that is not there or in another phase does nothing. -/
def inPhase (k : ClientLocks) (i : ℕ) (phase : LockPhase) (f : LockCall → ClientLocks) :
    ClientLocks :=
  match k.calls[i]? with
  | none => k
  | some call => if call.phase = phase then f call else k

/-- The locks of a client after an event. An event that cannot happen changes nothing. -/
def step (k : ClientLocks) : LockEvent → ClientLocks
  | .call =>
    match k.entry with
    | some address => k.enter address (k.objects address)
    | none => { k.enter k.next {} with entry := some k.next, next := k.next + 1 }
  | .acquire i => k.inPhase i .waiting fun call =>
    let lock := k.objects call.lock
    if lock.token then k else k.move i call .holding { lock with token := true }
  | .cancel i => k.inPhase i .waiting fun call => k.move i call .leaving (k.objects call.lock)
  | .release i => k.inPhase i .holding fun call =>
    k.move i call .leaving { k.objects call.lock with token := false }
  | .releaseRef i => k.inPhase i .leaving fun call =>
    let lock := { k.objects call.lock with refs := (k.objects call.lock).refs - 1 }
    { k.move i call .finished lock with entry := if lock.refs = 0 then none else k.entry }

/-- What the lock of a client promises. -/
structure Exclusive (k : ClientLocks) : Prop where
  /-- At most one call holds it. -/
  holder : k.calls.countP LockCall.holds ≤ 1
  /-- The map has an entry exactly if there is an active call. -/
  entry : k.entry.isSome ↔ ∃ call ∈ k.calls, call.active
  /-- All active calls use the lock of the map. -/
  shared : ∀ call ∈ k.calls, call.active → k.entry = some call.lock

/-- The lock of the map is the one of all active calls and has their number, and its channel is full
exactly if one of them holds it. -/
structure Inv (k : ClientLocks) : Prop where
  shared : ∀ call ∈ k.calls, call.active → k.entry = some call.lock
  refs : ∀ address ∈ k.entry, 0 < (k.objects address).refs ∧
    (k.objects address).refs = k.calls.countP LockCall.active
  token : ∀ address ∈ k.entry, (k.objects address).token.toNat = k.calls.countP LockCall.holds

variable {k t : ClientLocks} {i address : ℕ} {c : LockCall} {phase : LockPhase}
  {lock : OfflineClientLock}

theorem countP_set_add (p : LockCall → Bool) {calls : List LockCall} (hc : calls[i]? = some c)
    (new : LockCall) :
    (calls.set i new).countP p + (if p c then 1 else 0) =
      calls.countP p + if p new then 1 else 0 := by
  obtain ⟨hi, rfl⟩ := List.getElem?_eq_some_iff.1 hc
  have hle : (if p calls[i] then 1 else 0) ≤ calls.countP p := List.boole_getElem_le_countP hi
  rw [List.countP_set hi]
  omega

theorem Inv.countP_active (h : k.Inv) (hentry : k.entry = none) :
    k.calls.countP LockCall.active = 0 := by
  rw [List.countP_eq_zero]
  intro c hc hactive
  cases hentry.symm.trans (h.shared c hc hactive)

/-- Who holds the lock is active. -/
theorem countP_holds_le (calls : List LockCall) :
    calls.countP LockCall.holds ≤ calls.countP LockCall.active := by
  refine List.countP_mono_left fun c _ hholds => ?_
  rw [LockCall.holds, decide_eq_true_eq] at hholds
  simp [LockCall.active, hholds]

theorem inv_of_entry (hentry : k.entry = some address)
    (hshared : ∀ c ∈ k.calls, c.active → c.lock = address) (hpos : 0 < (k.objects address).refs)
    (hrefs : (k.objects address).refs = k.calls.countP LockCall.active)
    (htoken : (k.objects address).token.toNat = k.calls.countP LockCall.holds) : k.Inv := by
  have hself {a : ℕ} (ha : k.entry = some a) : address = a := Option.some.inj (hentry.symm.trans ha)
  refine ⟨fun c hc hactive => ?_, fun a ha => ?_, fun a ha => ?_⟩
  · rw [hentry, hshared c hc hactive]
  · rw [← hself ha]
    exact ⟨hpos, hrefs⟩
  · rw [← hself ha]
    exact htoken

theorem inv_enter (hentry : t.entry = some address)
    (hcalls : t.calls = (k.enter address lock).calls)
    (hobjects : t.objects = (k.enter address lock).objects)
    (hshared : ∀ c ∈ k.calls, c.active → c.lock = address)
    (hrefs : lock.refs = k.calls.countP LockCall.active)
    (htoken : lock.token.toNat = k.calls.countP LockCall.holds) : t.Inv := by
  refine inv_of_entry hentry (fun c hc hactive => ?_) ?_ ?_ ?_
  · rw [hcalls, enter, List.mem_append, List.mem_singleton] at hc
    rcases hc with hc | rfl
    · exact hshared c hc hactive
    · rfl
  · simp [hobjects, enter]
  · simp [hobjects, hcalls, enter, hrefs, LockCall.active]
  · simp [hobjects, hcalls, enter, htoken, LockCall.holds]

theorem Inv.step_call (h : k.Inv) : (k.step .call).Inv := by
  rw [step]
  cases hentry : k.entry with
  | some address =>
    refine inv_enter hentry rfl rfl (fun c hc hactive => ?_) (h.refs address hentry).2
      (h.token address hentry)
    exact Option.some.inj ((h.shared c hc hactive).symm.trans hentry)
  | none =>
    have hactive := h.countP_active hentry
    have hholds := Nat.le_zero.1 (hactive ▸ countP_holds_le k.calls)
    refine inv_enter rfl rfl rfl (fun c hc hc' => ?_) hactive.symm hholds.symm
    exact absurd hc' (List.countP_eq_zero.1 hactive c hc)

theorem Inv.lock_of_mem_set (h : k.Inv) (hentry : k.entry = some c.lock) {c' : LockCall}
    (hc' : c' ∈ k.calls.set i { c with phase }) (hactive : c'.active) : c'.lock = c.lock := by
  rcases List.mem_or_eq_of_mem_set hc' with hc' | rfl
  · exact Option.some.inj ((h.shared c' hc' hactive).symm.trans hentry)
  · rfl

theorem Inv.move (h : k.Inv) (hc : k.calls[i]? = some c) (hactive : c.active)
    (hphase : phase ≠ .finished) (hrefs : lock.refs = (k.objects c.lock).refs)
    (htoken : lock.token.toNat + (if c.holds then 1 else 0) =
      (k.objects c.lock).token.toNat + if LockCall.holds { c with phase } then 1 else 0) :
    (k.move i c phase lock).Inv := by
  have hentry := h.shared c (List.mem_of_getElem? hc) hactive
  obtain ⟨hpos, hcount⟩ := h.refs _ hentry
  have hbefore := h.token _ hentry
  have hactives := countP_set_add LockCall.active hc { c with phase }
  have hholds := countP_set_add LockCall.holds hc { c with phase }
  rw [if_pos hactive, if_pos (by simp [LockCall.active, hphase])] at hactives
  refine inv_of_entry hentry (fun _ => h.lock_of_mem_set hentry) ?_ ?_ ?_
  all_goals
    simp only [ClientLocks.move, Function.update_self]
    omega

theorem Inv.releaseRef (h : k.Inv) (hc : k.calls[i]? = some c) (hphase : c.phase = .leaving)
    (hrefs : lock.refs = (k.objects c.lock).refs - 1)
    (htoken : lock.token = (k.objects c.lock).token) :
    Inv { k.move i c .finished lock with entry := if lock.refs = 0 then none else k.entry } := by
  have hentry := h.shared c (List.mem_of_getElem? hc) (by simp [LockCall.active, hphase])
  obtain ⟨-, hcount⟩ := h.refs _ hentry
  have hbefore := h.token _ hentry
  have hactives := countP_set_add LockCall.active hc { c with phase := .finished }
  have hholds := countP_set_add LockCall.holds hc { c with phase := .finished }
  rw [if_pos (by simp [LockCall.active, hphase]), if_neg (by simp [LockCall.active])] at hactives
  rw [if_neg (by simp [LockCall.holds, hphase]), if_neg (by simp [LockCall.holds])] at hholds
  split_ifs with hlast
  · have hnone : (k.calls.set i { c with phase := .finished }).countP LockCall.active = 0 := by
      omega
    exact ⟨fun c' hc' hactive => absurd hactive (List.countP_eq_zero.1 hnone c' hc'), nofun, nofun⟩
  · refine inv_of_entry hentry (fun _ => h.lock_of_mem_set hentry) ?_ ?_ ?_
    all_goals
      simp only [ClientLocks.move, Function.update_self, htoken]
      omega

theorem Inv.inPhase (h : k.Inv) {f : LockCall → ClientLocks}
    (hf : ∀ c, k.calls[i]? = some c → c.phase = phase → (f c).Inv) : (k.inPhase i phase f).Inv := by
  unfold ClientLocks.inPhase
  split
  · exact h
  · next c hc =>
    split_ifs with hphase
    · exact hf c hc hphase
    · exact h

/-- The channel of a holder is full. -/
theorem Inv.token_of_holding (h : k.Inv) (hc : k.calls[i]? = some c) (hphase : c.phase = .holding) :
    (k.objects c.lock).token = true := by
  have hmem := List.mem_of_getElem? hc
  have htoken := h.token _ (h.shared c hmem (by simp [LockCall.active, hphase]))
  have hpos : 0 < k.calls.countP LockCall.holds :=
    List.countP_pos_iff.2 ⟨c, hmem, by simp [LockCall.holds, hphase]⟩
  cases hempty : (k.objects c.lock).token with
  | true => rfl
  | false =>
    rw [hempty, Bool.toNat_false] at htoken
    omega

theorem Inv.step (h : k.Inv) (e : LockEvent) : (k.step e).Inv := by
  cases e with
  | call => exact h.step_call
  | acquire i =>
    refine h.inPhase fun c hc hphase => ?_
    dsimp only
    split_ifs with hfull
    · exact h
    · exact h.move hc (by simp [LockCall.active, hphase]) nofun rfl
        (by simp [LockCall.holds, hphase, hfull])
  | cancel i =>
    refine h.inPhase fun c hc hphase => ?_
    exact h.move hc (by simp [LockCall.active, hphase]) nofun rfl (by simp [LockCall.holds, hphase])
  | release i =>
    refine h.inPhase fun c hc hphase => ?_
    exact h.move hc (by simp [LockCall.active, hphase]) nofun rfl
      (by simp [LockCall.holds, hphase, h.token_of_holding hc hphase])
  | releaseRef i =>
    refine h.inPhase fun c hc hphase => ?_
    exact h.releaseRef hc hphase rfl rfl

theorem Inv.exclusive (h : k.Inv) : k.Exclusive := by
  cases hentry : k.entry with
  | none =>
    have hactive := h.countP_active hentry
    refine ⟨(countP_holds_le k.calls).trans (by omega), ?_, h.shared⟩
    rw [hentry]
    refine iff_of_false nofun ?_
    rintro ⟨c, hc, hc'⟩
    exact List.countP_eq_zero.1 hactive c hc hc'
  | some address =>
    obtain ⟨hpos, hrefs⟩ := h.refs address hentry
    refine ⟨(h.token address hentry) ▸ Bool.toNat_le _, ?_, h.shared⟩
    rw [hentry]
    exact iff_of_true rfl (List.countP_pos_iff.1 (hrefs ▸ hpos))

end ClientLocks

/-- The locks of all clients. -/
abbrev LockState := Text → ClientLocks

namespace LockState

/-- A call for a client does something. -/
def step (s : LockState) (e : Text × LockEvent) : LockState :=
  Function.update s e.1 ((s e.1).step e.2)

theorem componentwise_step :
    Componentwise step Prod.fst (fun s clientID => s clientID) (fun k e => k.step e.2) where
  own _ _ := Function.update_self _ _ _
  other _ _ _ hid := Function.update_of_ne hid _ _

/-- In every interleaving of calls, each of which may be cancelled while it waits and releases once
what it has acquired, the lock of a client is exclusive, and the map is empty when no call is
active. A call is active until it has returned its reference, which it does after the token. -/
theorem exclusive_run (es : List (Text × LockEvent)) :
    let s := run step (fun _ => {}) es
    (∀ clientID, (s clientID).Exclusive) ∧
      ((∀ clientID, ∀ call ∈ (s clientID).calls, call.active = false) →
        ∀ clientID, (s clientID).entry = none) := by
  intro s
  have hexclusive (clientID : Text) : (s clientID).Exclusive := by
    have hrun : s clientID = _ := componentwise_step.get_run _ es clientID
    rw [hrun]
    refine (run_of_step (I := ClientLocks.Inv) (fun _ e h => h.step e.2) ?_ _).exclusive
    exact ⟨fun _ => nofun, fun _ => nofun, fun _ => nofun⟩
  refine ⟨hexclusive, fun hnone clientID => ?_⟩
  rw [← Option.not_isSome_iff_eq_none, (hexclusive clientID).entry]
  rintro ⟨call, hcall, hactive⟩
  rw [hnone clientID call hcall] at hactive
  cases hactive

/-- In between, the client has an entry, and no call waits for its lock or holds it. -/
theorem not_entry_iff_of_released :
    let k := run step (fun _ => {}) [(['c'], .call), (['c'], .acquire 0), (['c'], .release 0)] ['c']
    ¬ (k.entry.isSome ↔ ∃ call ∈ k.calls, call.phase = .waiting ∨ call.phase = .holding) := by
  decide

end LockState

end KeelGateway.Broker
