import KeelGateway.Broker.ConnectionTable

/-!
# The connection counter of a tenant

A tenant may have a maximum number of connections. The hook compares the maximum with a counter that
every booking raises. The counter goes down when a claim fails, and when a connection ends whose
entry is still in the tables. It does not go down for a connection that another one of the same
client ID has replaced, for one that fails while it is attached, and for one whose client object has
expired before its end. Where none of this happens the counter is exact whenever no handler is
running. The maximum is kept in any case, since the counter is never too low.

-/

namespace KeelGateway.Broker.ConnectionState

open StepMachine

/-- The number of attached connections that are authenticated for a tenant. -/
def attached (s : ConnectionState) (tenantStr : Text) : ℕ :=
  s.attachments.connections.tally fun x => x.phase = .attached && x.state.tenantStr = tenantStr

/-- No handler is running: every connection is attached and not stopped, or over. -/
def Quiet (s : ConnectionState) : Prop :=
  ∀ i x, s.attachments.connections.lookup i = some x →
    (x.phase = .attached ∧ x.stop = none) ∨ x.phase = .ended

instance (s : ConnectionState) : Decidable s.Quiet :=
  inferInstanceAs (Decidable (∀ i x, s.attachments.connections.lookup i = some x →
    (x.phase = .attached ∧ x.stop = none) ∨ x.phase = .ended))

/-- A CONNECT is booked when no connection of the client ID is left, no connection fails while it is
attached, and no client object expires before the end of its connection. -/
def Balanced (s : ConnectionState) : ConnectionEvent → Prop
  | .connect _ clientID _ => ∀ i x, s.attachments.connections.lookup i = some x →
      x.phase.holds = true → x.clientID ≠ clientID
  | .attachFail _ => False
  | .expire i => ∀ j x, s.attachments.connections.lookup j = some x → j = i → x.phase.holds = false
  | _ => True

instance (s : ConnectionState) : (e : ConnectionEvent) → Decidable (s.Balanced e)
  | .connect _ clientID _ => inferInstanceAs (Decidable (∀ i x,
      s.attachments.connections.lookup i = some x → x.phase.holds = true → x.clientID ≠ clientID))
  | .attachFail _ => inferInstanceAs (Decidable False)
  | .expire i => inferInstanceAs (Decidable (∀ j x,
      s.attachments.connections.lookup j = some x → j = i → x.phase.holds = false))
  | .claimed _ | .claimFailed _ | .establish _ | .acknowledge _ | .stop _ _ | .disconnect _ _
  | .finish _ | .restore _ | .expireRestored _ => inferInstanceAs (Decidable True)

/-- A CONNECT of the tenant passes the check against the maximum. -/
def Admits (tenantStr : Text) (maxConnections : ℤ) (s : ConnectionState) : ConnectionEvent → Prop
  | .connect _ _ state => state.tenantStr = tenantStr →
      s.tables.rateLimited tenantStr (some maxConnections) = false
  | _ => True

/-! ### Slots and attached connections -/

section Attached

variable {s : ConnectionState}

theorem slot_eq_some {i : ℕ} {y : Slot} :
    s.slot i = some y ↔ ∃ x, s.attachments.connections.lookup i = some x ∧ x.slot = y := by
  rw [slot, Attachments.slot, Option.map_eq_some_iff]

theorem attached_le_held (s : ConnectionState) (t : Text) : s.attached t ≤ s.held t := by
  refine GoMap.tally_mono fun i hany => ?_
  rw [Option.any_eq_true] at hany ⊢
  obtain ⟨x, hlookup, hx⟩ := hany
  rw [Bool.and_eq_true, decide_eq_true_iff] at hx
  refine ⟨x, hlookup, ?_⟩
  rw [Slot.heldBy, BookedConnection.slot, hx.1, hx.2]
  rfl

theorem held_of_quiet (hquiet : s.Quiet) (t : Text) : s.held t = s.attached t := by
  refine GoMap.tally_congr fun i => ?_
  cases hlookup : s.attachments.connections.lookup i with
  | none => rfl
  | some x =>
    rw [Option.any_some, Option.any_some, BookedConnection.slot]
    rcases hquiet i x hlookup with ⟨hphase, -⟩ | hphase <;> rw [hphase] <;> rfl

end Attached

/-! ### The maximum -/

section Maximum

variable {s : ConnectionState} {e : ConnectionEvent}

theorem conns_step_le (hs : s.Sound) (e : ConnectionEvent) (t : Text) :
    (s.step e).tables.conns t ≤ s.tables.conns t ∨
      ∃ i clientID state, e = .connect i clientID state ∧ state.tenantStr = t ∧
        (s.step e).tables.conns t = s.tables.conns t + 1 := by
  have hmove := slotMove_step s e
  rw [tables_step]
  generalize (s.step e).slot = slots at hmove
  generalize s.attachments.call e = call at hmove
  cases hmove with
  | stay _ => exact Or.inl le_rfl
  | dropped _ _ _ _ => exact Or.inl le_rfl
  | expired i x _ => exact Or.inl (s.tables.conns_expired i x.clientID t).le
  | booked i clientID state _ =>
    have hconns := s.tables.conns_booked clientID i state t
    by_cases ht : t = state.tenantStr
    · rw [if_pos ht] at hconns
      exact Or.inr ⟨i, clientID, state, rfl, ht.symm, hconns⟩
    · rw [if_neg ht] at hconns
      exact Or.inl hconns.le
  | claimFailed i x hx hheld =>
    exact Or.inl (Nat.le.intro (conns_claimFailed_of_held hs hx hheld x.clientID t).symm)
  | disconnected i _ x cleanup hx hheld =>
    left
    rw [Option.elim_some, HookTables.apply]
    by_cases htracks : s.tables.Tracks i x.clientID
    · exact Nat.le.intro (conns_disconnected_of_tracks hs hx hheld htracks cleanup t).symm
    · rw [HookTables.disconnected_of_not_tracks htracks]

theorem attached_le_of_admits {t : Text} {m : ℤ} (hm : 0 < m) {es : List ConnectionEvent}
    (hadmits : Along step (Admits t m) {} es) :
    Always step (fun s => (s.attached t : ℤ) ≤ m) {} es := by
  have hstep (s : ConnectionState) (e : ConnectionEvent)
      (hs : s.Sound ∧ (s.tables.conns t : ℤ) ≤ m) (he : Admits t m s e) :
      (s.step e).Sound ∧ ((s.step e).tables.conns t : ℤ) ≤ m := by
    refine ⟨sound_step hs.1 e, ?_⟩
    rcases conns_step_le hs.1 e t with hle | ⟨i, clientID, state, rfl, ht, heq⟩
    · exact (Int.ofNat_le.2 hle).trans hs.2
    · have hbelow : ¬ m ≤ (s.tables.conns t : ℤ) := by
        have hcheck := he ht
        simpa [HookTables.rateLimited, hm] using hcheck
      omega
  refine (always_of_along hstep ⟨sound_init, ?_⟩ hadmits).imp fun s hs => ?_
  · exact hm.le
  · exact (Int.ofNat_le.2 ((attached_le_held s t).trans (hs.1.counted t))).trans hs.2

end Maximum

/-! ### The counter -/

/-- Every slot is in the tables, and nothing else is counted. -/
structure Exact (s : ConnectionState) : Prop where
  sound : s.Sound
  tracked : ∀ i x, s.slot i = some x → x.held = true → s.tables.Tracks i x.clientID
  counted : ∀ t, s.tables.conns t = s.held t

section Exact

variable {s : ConnectionState} {e : ConnectionEvent}

private theorem exact_init : Exact {} where
  sound := sound_init
  tracked _ _ h := by cases h
  counted _ := rfl

/-- A client ID has at most one slot. -/
theorem Exact.unique (hs : s.Exact) {i j : ℕ} {x y : Slot} (hx : s.slot i = some x)
    (hxheld : x.held = true) (hy : s.slot j = some y) (hyheld : y.held = true)
    (hid : y.clientID = x.clientID) : j = i := by
  obtain ⟨tracked, hlookup, rfl⟩ := hs.tracked i x hx hxheld
  obtain ⟨tracked', hlookup', rfl⟩ := hs.tracked j y hy hyheld
  rw [hid, hlookup, Option.some.injEq] at hlookup'
  rw [hlookup']

theorem Exact.tracks_apply (hs : s.Exact) {j : ℕ} {y : Slot} (hy : s.slot j = some y)
    (hheld : y.held = true) (call : TableCall) (hid : y.clientID ≠ call.clientID) :
    (s.tables.apply call).Tracks j y.clientID := by
  obtain ⟨tracked, hlookup, hclient⟩ := hs.tracked j y hy hheld
  exact ⟨tracked, (congrArg Prod.fst (HookTables.entry_apply_of_ne hid)).trans hlookup, hclient⟩

theorem Exact.tracks_of_end (hs : s.Exact) {i j : ℕ} {x y : Slot} (hx : s.slot i = some x)
    (hxheld : x.held = true) (call : TableCall) (hcall : call.clientID = x.clientID)
    (hy : Function.update s.slot i (some { x with held := false }) j = some y)
    (hyheld : y.held = true) : (s.tables.apply call).Tracks j y.clientID := by
  have hji : j ≠ i := by
    rintro rfl
    rw [Function.update_self, Option.some.injEq] at hy
    rw [← hy] at hyheld
    exact Bool.false_ne_true hyheld
  rw [Function.update_of_ne hji] at hy
  refine hs.tracks_apply hy hyheld call fun hid => hji ?_
  exact hs.unique hx hxheld hy hyheld (hid.trans hcall)

theorem tracked_step (hs : s.Exact) (he : s.Balanced e) {j : ℕ} {y : Slot}
    (hy : (s.step e).slot j = some y) (hheld : y.held = true) :
    (s.step e).tables.Tracks j y.clientID := by
  have hmove := slotMove_step s e
  rw [tables_step]
  generalize (s.step e).slot = slots at hmove hy
  generalize s.attachments.call e = call at hmove
  cases hmove with
  | stay _ => exact hs.tracked j y hy hheld
  | dropped _ _ _ _ => exact he.elim
  | booked i clientID state _ =>
    by_cases hji : j = i
    · subst hji
      rw [Function.update_self, Option.some.injEq] at hy
      subst hy
      exact ⟨_, s.tables.lookup_booked clientID j state, rfl⟩
    · rw [Function.update_of_ne hji] at hy
      obtain ⟨x, hlookup, rfl⟩ := slot_eq_some.1 hy
      exact hs.tracks_apply hy hheld (.booked i clientID state) (he j x hlookup hheld)
  | claimFailed i x hx hxheld =>
    exact hs.tracks_of_end hx hxheld (.claimFailed x.clientID x.state.tenantStr) rfl hy hheld
  | disconnected i _ x cleanup hx hxheld =>
    exact hs.tracks_of_end hx hxheld (.disconnected i x.clientID cleanup) rfl hy hheld
  | expired i x hx =>
    have hji : j ≠ i := by
      rintro rfl
      obtain ⟨z, hlookup, rfl⟩ := slot_eq_some.1 hx
      rw [Function.update_self, Option.some.injEq] at hy
      rw [← hy] at hheld
      exact Bool.false_ne_true ((he j z hlookup rfl).symm.trans hheld)
    rw [Function.update_of_ne hji] at hy
    by_cases hid : y.clientID = x.clientID
    · have hkept : ¬ s.tables.Tracks i x.clientID := by
        rintro ⟨tracked, hfound, rfl⟩
        obtain ⟨tracked', hfound', rfl⟩ := hs.tracked j y hy hheld
        rw [hid, hfound, Option.some.injEq] at hfound'
        exact hji (by rw [hfound'])
      rw [Option.elim_some, HookTables.apply, HookTables.expired_of_not_tracks hkept]
      exact hs.tracked j y hy hheld
    · exact hs.tracks_apply hy hheld (.expired i x.clientID) hid

theorem conns_step (hs : s.Exact) (he : s.Balanced e) (t : Text) :
    (s.step e).tables.conns t = (s.step e).held t := by
  have hmove := slotMove_step s e
  have hcounted := hs.counted t
  rw [tables_step]
  generalize hslots : (s.step e).slot = slots at hmove
  generalize s.attachments.call e = call at hmove
  cases hmove with
  | stay _ => rw [held_congr hslots, Option.elim_none, hcounted]
  | dropped _ _ _ _ => exact he.elim
  | booked i clientID state hnew =>
    rw [held_booked (fun x hx => by rw [hnew] at hx; cases hx) rfl hslots, ← hcounted]
    exact s.tables.conns_booked clientID i state t
  | claimFailed i x hx hheld =>
    rw [held_released hx hheld hslots t,
      conns_claimFailed_of_held hs.sound hx hheld x.clientID t] at hcounted
    exact Nat.add_right_cancel hcounted
  | disconnected i _ x cleanup hx hheld =>
    rw [held_released hx hheld hslots t, conns_disconnected_of_tracks hs.sound hx hheld
      (hs.tracked i x hx hheld) cleanup t] at hcounted
    exact Nat.add_right_cancel hcounted
  | expired i x hx =>
    rw [held_swept hx hslots, ← hcounted]
    exact s.tables.conns_expired i x.clientID t

private theorem exact_step (hs : s.Exact) (he : s.Balanced e) : (s.step e).Exact where
  sound := sound_step hs.sound e
  tracked _ _ := tracked_step hs he
  counted := conns_step hs he

end Exact

/-- In a run of balanced steps, whenever no handler is running, the counter of a tenant is the
number of its attached connections, so a tenant with fewer connections than its maximum is not
refused. And a tenant whose CONNECTs are compared with a maximum never has more. -/
theorem tenantConns_exact {es : List ConnectionEvent} (hbalanced : Along step Balanced {} es) :
    Always step (fun s => s.Quiet → ∀ t, s.tables.conns t = s.attached t ∧
        ∀ m : ℤ, s.attached t < m → s.tables.rateLimited t (some m) = false) {} es ∧
      ∀ (t : Text) (m : ℤ), 0 < m → Along step (Admits t m) {} es →
        Always step (fun s => (s.attached t : ℤ) ≤ m) {} es := by
  refine ⟨?_, fun t m hm hadmits => attached_le_of_admits hm hadmits⟩
  refine (always_of_along (fun s e hs he => exact_step hs he) exact_init hbalanced).imp ?_
  intro s hs hquiet t
  have hconns : s.tables.conns t = s.attached t := (hs.counted t).trans (held_of_quiet hquiet t)
  refine ⟨hconns, fun m hm => ?_⟩
  rw [HookTables.rateLimited, hconns, Bool.and_eq_false_imp]
  intro _
  exact decide_eq_false (not_le.2 hm)

section Examples

/-- A device that has authenticated with a password. -/
def sensor : ClientState := ⟨⟨UUID.nil, UUID.nil⟩, .password, []⟩

/-- A CONNECT of the device up to the read loop. -/
def arrival (i : ℕ) : List ConnectionEvent :=
  [.connect i "d1".toList sensor, .claimed i, .establish i, .acknowledge i]

/-- The device connects, ends its connection and connects again. -/
def comeback : List ConnectionEvent :=
  arrival 0 ++ [.stop 0 .other, .disconnect 0 true, .finish 0] ++ arrival 1

/-- It has one connection then. -/
theorem tenantConns_exact_comeback :
    (run step {} comeback).tables.conns sensor.tenantStr = 1 := by
  have hexact := (@tenantConns_exact comeback (by decide +kernel)).1.last (by decide +kernel)
  exact (hexact sensor.tenantStr).1.trans (by decide +kernel)

/-- The device connects again while it is attached. The first connection is stopped and ends, and
the counter stays at two, so that with a maximum of two the tenant is refused. -/
theorem tenantConns_takeover :
    let s := run step {} (arrival 0 ++ arrival 1 ++ [.disconnect 0 true, .finish 0])
    s.Quiet ∧ s.attached sensor.tenantStr = 1 ∧ s.tables.conns sensor.tenantStr = 2 ∧
      s.tables.rateLimited sensor.tenantStr (some 2) = true := by
  decide +kernel

end Examples

end KeelGateway.Broker.ConnectionState
