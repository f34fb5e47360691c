import KeelGateway.Broker.TenantConnections

/-!
# A claim that fails

A CONNECT is booked in the tables of the gateway hook before its session is claimed in the cluster,
and the booking is taken back if the claim fails. In between the lock is free and other connections
of the client ID may come and end. What is taken back is the entry that the client ID has at that
moment, and one slot of the tenant. The generation stays. So an earlier connection that the CONNECT
has replaced, or a later one, is left without its entry, and its end does not give its slot back.

Two runs are compared, one with the CONNECT and one without it. The other connections do the same in
both (`Attachments.Beside`), and the tables differ in the entry and the generation of the client ID
and in the counters (`ConnectionState.Aside`). While the entry of the CONNECT stands, it hides the
entry of the connection that it has replaced. A later CONNECT makes the entries alike again, up to
their generation, and the end of the later connection deletes the generation in both runs.

-/

namespace KeelGateway.Broker

open StepMachine

/-! ### Tables that read the same -/

/-- The call is the end of a connection or of a session. -/
def TableCall.ending : TableCall → Bool
  | disconnected _ _ _ | expired _ _ => true
  | booked _ _ _ | claimFailed _ _ => false

namespace HookTables

/-- Identity and generation of a client ID read the same in both tables. -/
def AgreeAt (clientID : Text) (h h' : HookTables) : Prop := h.entry clientID = h'.entry clientID

/-- The tables read the same. -/
structure Same (h h' : HookTables) : Prop where
  agree : ∀ clientID, AgreeAt clientID h h'
  conns : ∀ t, h.conns t = h'.conns t

/-- The call deletes the entry of its client ID, with the generation. -/
def Ends (h : HookTables) : TableCall → Prop
  | .disconnected i id cleanup => cleanup = true ∧ h.Tracks i id
  | .expired i id => h.Tracks i id
  | .booked _ _ _ | .claimFailed _ _ => False

section Agree

variable {h h' : HookTables} {clientID : Text} {call : TableCall}

theorem AgreeAt.clients (hagree : AgreeAt clientID h h') :
    h.clients.lookup clientID = h'.clients.lookup clientID := congrArg Prod.fst hagree

theorem AgreeAt.generation (hagree : AgreeAt clientID h h') :
    h.generation.lookup clientID = h'.generation.lookup clientID := congrArg Prod.snd hagree

theorem AgreeAt.gen (hagree : AgreeAt clientID h h') : h.gen clientID = h'.gen clientID := by
  rw [HookTables.gen, HookTables.gen, hagree.generation]

theorem AgreeAt.tracks_iff (hagree : AgreeAt clientID h h') (i : ℕ) :
    h.Tracks i clientID ↔ h'.Tracks i clientID := by
  rw [Tracks, Tracks, hagree.clients]

theorem AgreeAt.apply (hagree : AgreeAt clientID h h') (call : TableCall) :
    AgreeAt clientID (h.apply call) (h'.apply call) := by
  by_cases hid : clientID = call.clientID
  · subst hid
    rw [AgreeAt, entry_apply_self, entry_apply_self, hagree]
  · rw [AgreeAt, entry_apply_of_ne hid, entry_apply_of_ne hid, hagree]

theorem entry_of_ends (hcurrent : h.Current) (hends : h.Ends call) :
    (h.apply call).entry call.clientID = (none, none) := by
  cases call with
  | booked _ _ _ | claimFailed _ _ => exact hends.elim
  | disconnected i id cleanup =>
    obtain ⟨hcleanup, tracked, hlookup, hclient⟩ := hends
    rw [apply, disconnected_of_lookup hcurrent hlookup hclient, if_pos hcleanup]
    exact (entry_forget _ _ _).trans (if_pos rfl)
  | expired i id =>
    rw [apply, expired_of_tracks hends]
    exact (entry_forget _ _ _).trans (if_pos rfl)

theorem agreeAt_of_not_ends (hcurrent : h.Current) (hcall : call.ending = true)
    (hends : ¬ h.Ends call) : AgreeAt call.clientID (h.apply call) h := by
  cases call with
  | booked _ _ _ | claimFailed _ _ => cases hcall
  | disconnected i id cleanup =>
    by_cases htracks : h.Tracks i id
    · have hcleanup : cleanup ≠ true := fun hc => hends ⟨hc, htracks⟩
      obtain ⟨tracked, hlookup, hclient⟩ := htracks
      rw [apply, disconnected_of_lookup hcurrent hlookup hclient, if_neg hcleanup]
      exact h.entry_release _ id
    · rw [apply, disconnected_of_not_tracks htracks, AgreeAt]
  | expired i id => rw [apply, expired_of_not_tracks hends, AgreeAt]

theorem Same.apply (hsame : Same h h') (call : TableCall) :
    Same (h.apply call) (h'.apply call) := by
  refine ⟨fun id => (hsame.agree id).apply call, fun t => ?_⟩
  have hrelease (tenantStr : Text) :
      (h.release tenantStr).conns t = (h'.release tenantStr).conns t := by
    rw [conns_release, conns_release, hsame.conns]
  cases call with
  | booked i id state =>
    rw [HookTables.apply, HookTables.apply, conns_booked, conns_booked, hsame.conns]
  | claimFailed id tenantStr =>
    rw [HookTables.apply, HookTables.apply, conns_claimFailed, conns_claimFailed, hrelease]
  | disconnected i id cleanup =>
    rw [HookTables.apply, HookTables.apply, HookTables.disconnected, HookTables.disconnected,
      ← (hsame.agree id).clients, ← (hsame.agree id).gen]
    cases h.clients.lookup id with
    | none => exact hsame.conns t
    | some state =>
      dsimp only
      split_ifs
      · exact hrelease _
      · exact hrelease _
      · exact hsame.conns t
  | expired i id => rw [HookTables.apply, HookTables.apply, conns_expired, conns_expired,
    hsame.conns]

end Agree

/-- The generation of the client ID reads the same in both tables. -/
def Level (clientID : Text) (h h' : HookTables) : Prop :=
  h.generation.lookup clientID = h'.generation.lookup clientID

/-- The generation of the client ID is higher in the first table. -/
def Ahead (clientID : Text) (h h' : HookTables) : Prop := h'.gen clientID < h.gen clientID

/-- What an entry says besides its generation. -/
def owner (state : TrackedClient) : ClientState × ℕ := (state.toClientState, state.client)

/-- The entry of the client ID is the same in both tables, up to its generation, and it is not the
one of a certain connection. -/
structure Alike (b : ℕ) (clientID : Text) (h h' : HookTables) : Prop where
  not_tracks : ¬ h.Tracks b clientID
  owner_eq : (h.clients.lookup clientID).map owner = (h'.clients.lookup clientID).map owner
  gen : Level clientID h h' ∨ Ahead clientID h h'

section Alike

variable {h h' h₁ h₁' : HookTables} {b i : ℕ} {clientID : Text} {state : ClientState}

theorem Ahead.generation_ne_none (hahead : Ahead clientID h h') :
    h.generation.lookup clientID ≠ none := by
  intro hnone
  rw [Ahead, HookTables.gen, HookTables.gen, hnone] at hahead
  exact absurd hahead (Nat.not_lt_zero _)

theorem Ahead.not_level (hahead : Ahead clientID h h') : ¬ Level clientID h h' := by
  intro hlevel
  rw [Ahead, HookTables.gen, HookTables.gen, hlevel] at hahead
  exact lt_irrefl _ hahead

theorem AgreeAt.level_iff (hagree : AgreeAt clientID h₁ h) (hagree' : AgreeAt clientID h₁' h') :
    Level clientID h₁ h₁' ↔ Level clientID h h' := by
  rw [Level, Level, hagree.generation, hagree'.generation]

theorem AgreeAt.ahead_iff (hagree : AgreeAt clientID h₁ h) (hagree' : AgreeAt clientID h₁' h') :
    Ahead clientID h₁ h₁' ↔ Ahead clientID h h' := by
  rw [Ahead, Ahead, hagree.gen, hagree'.gen]

theorem Alike.of_agree (halike : Alike b clientID h h') (hagree : AgreeAt clientID h₁ h)
    (hagree' : AgreeAt clientID h₁' h') : Alike b clientID h₁ h₁' where
  not_tracks := fun htracks => halike.not_tracks ((hagree.tracks_iff b).1 htracks)
  owner_eq := by rw [hagree.clients, hagree'.clients, halike.owner_eq]
  gen := by
    rw [hagree.level_iff hagree', hagree.ahead_iff hagree']
    exact halike.gen

theorem Alike.tracks_iff (halike : Alike b clientID h h') (i : ℕ) :
    h.Tracks i clientID ↔ h'.Tracks i clientID := by
  have howner (t : HookTables) : t.Tracks i clientID ↔
      ∃ o, (t.clients.lookup clientID).map owner = some o ∧ o.2 = i := by
    constructor
    · rintro ⟨tracked, hlookup, hclient⟩
      exact ⟨owner tracked, by rw [hlookup, Option.map_some], hclient⟩
    · rintro ⟨o, hmap, hclient⟩
      obtain ⟨tracked, hlookup, rfl⟩ := Option.map_eq_some_iff.1 hmap
      exact ⟨tracked, hlookup, hclient⟩
  rw [howner, howner, halike.owner_eq]

theorem Alike.level_of_none (halike : Alike b clientID h h')
    (hnone : h.generation.lookup clientID = none) : Level clientID h h' :=
  halike.gen.resolve_right fun hahead => hahead.generation_ne_none hnone

theorem gen_booked (h : HookTables) (i : ℕ) (clientID : Text) (state : ClientState) :
    (h.booked i clientID state).gen clientID = h.gen clientID + 1 := by
  rw [HookTables.gen, generation_booked, Option.getD_some]

theorem ahead_booked_iff :
    Ahead clientID (h.booked i clientID state) (h'.booked i clientID state) ↔
      Ahead clientID h h' := by
  rw [Ahead, Ahead, gen_booked, gen_booked, Nat.add_lt_add_iff_right]

theorem level_booked (hlevel : Level clientID h h') :
    Level clientID (h.booked i clientID state) (h'.booked i clientID state) := by
  rw [Level, generation_booked, generation_booked, HookTables.gen, HookTables.gen, hlevel]

theorem alike_booked (hgen : Level clientID h h' ∨ Ahead clientID h h') (hi : i ≠ b) :
    Alike b clientID (h.booked i clientID state) (h'.booked i clientID state) where
  not_tracks := by
    rintro ⟨tracked, hlookup, hclient⟩
    rw [lookup_booked, Option.some.injEq] at hlookup
    rw [← hlookup] at hclient
    exact hi hclient
  owner_eq := by
    rw [lookup_booked, lookup_booked]
    rfl
  gen := by
    rw [ahead_booked_iff]
    exact hgen.imp_left level_booked

/-- So does a claim that fails. -/
theorem alike_claimFailed (hgen : Level clientID h h' ∨ Ahead clientID h h') (t : Text) :
    Alike b clientID (h.claimFailed clientID t) (h'.claimFailed clientID t) where
  not_tracks := by
    rintro ⟨tracked, hlookup, -⟩
    rw [lookup_claimFailed] at hlookup
    cases hlookup
  owner_eq := by rw [lookup_claimFailed, lookup_claimFailed]
  gen := by
    rw [Level, Ahead, HookTables.gen, HookTables.gen, generation_claimFailed,
      generation_claimFailed]
    exact hgen

/-- So do two ends. -/
theorem alike_of_none (hnone : h.entry clientID = (none, none))
    (hnone' : h'.entry clientID = (none, none)) : Alike b clientID h h' where
  not_tracks := by
    rintro ⟨tracked, hlookup, -⟩
    cases (congrArg Prod.fst hnone).symm.trans hlookup
  owner_eq := congrArg (Option.map owner) (congrArg Prod.fst (hnone.trans hnone'.symm))
  gen := Or.inl (congrArg Prod.snd (hnone.trans hnone'.symm))

theorem Alike.ends_iff (halike : Alike b clientID h h') {call : TableCall}
    (hid : clientID = call.clientID) : h.Ends call ↔ h'.Ends call := by
  subst hid
  cases call with
  | booked _ _ _ | claimFailed _ _ => exact Iff.rfl
  | disconnected i id cleanup => exact and_congr_right fun _ => halike.tracks_iff i
  | expired i id => exact halike.tracks_iff i

theorem Alike.apply (halike : Alike b clientID h h') (hcurrent : h.Current)
    (hcurrent' : h'.Current) {call : TableCall} (hcall : ∀ id state, call ≠ .booked b id state) :
    Alike b clientID (h.apply call) (h'.apply call) ∧
      (Level clientID (h.apply call) (h'.apply call) ↔
        Level clientID h h' ∨ (h.apply call).generation.lookup clientID = none) := by
  have hagreeing {h₁ h₁' : HookTables} (hagree : AgreeAt clientID h₁ h)
      (hagree' : AgreeAt clientID h₁' h') : Alike b clientID h₁ h₁' ∧
        (Level clientID h₁ h₁' ↔ Level clientID h h' ∨ h₁.generation.lookup clientID = none) := by
    refine ⟨halike.of_agree hagree hagree', ?_⟩
    rw [hagree.level_iff hagree', hagree.generation]
    exact (or_iff_left_of_imp halike.level_of_none).symm
  have hending (hid : clientID = call.clientID) (hend : call.ending = true) :
      Alike b clientID (h.apply call) (h'.apply call) ∧
        (Level clientID (h.apply call) (h'.apply call) ↔
          Level clientID h h' ∨ (h.apply call).generation.lookup clientID = none) := by
    have hiff := halike.ends_iff hid
    subst hid
    by_cases hends : h.Ends call
    · have hnone := entry_of_ends hcurrent hends
      have hnone' := entry_of_ends hcurrent' (hiff.1 hends)
      have hgeneration := congrArg Prod.snd hnone
      exact ⟨alike_of_none hnone hnone',
        iff_of_true (hgeneration.trans (congrArg Prod.snd hnone').symm) (Or.inr hgeneration)⟩
    · exact hagreeing (agreeAt_of_not_ends hcurrent hend hends)
        (agreeAt_of_not_ends hcurrent' hend fun hends' => hends (hiff.2 hends'))
  by_cases hid : clientID = call.clientID
  · cases call with
    | booked i id st =>
      obtain rfl : clientID = id := hid
      have hi : i ≠ b := fun heq => hcall clientID st (by rw [heq])
      have hsome : (h.booked i clientID st).generation.lookup clientID ≠ none := by
        rw [generation_booked]
        exact Option.some_ne_none _
      refine ⟨alike_booked halike.gen hi, ?_⟩
      rw [HookTables.apply, or_iff_left hsome]
      refine ⟨fun hlevel => ?_, level_booked⟩
      exact halike.gen.resolve_right fun hahead => (ahead_booked_iff.2 hahead).not_level hlevel
    | claimFailed id t =>
      obtain rfl : clientID = id := hid
      refine ⟨alike_claimFailed halike.gen t, ?_⟩
      rw [HookTables.apply, HookTables.apply, Level, generation_claimFailed, generation_claimFailed]
      exact (or_iff_left_of_imp halike.level_of_none).symm
    | disconnected i id _ | expired i id => exact hending hid rfl
  · exact hagreeing (entry_apply_of_ne hid) (entry_apply_of_ne hid)

end Alike

end HookTables

/-! ### Connections beside each other -/

namespace Attachments

/-- The connections of two nodes are the same, but for one that is in no table of the broker. -/
structure Beside (b : ℕ) (l l' : Attachments) : Prop where
  server : l.server = l'.server
  absent : ∀ clientID, l.server.lookup clientID ≠ some (some b)
  others : ∀ i, i ≠ b → l.connections.lookup i = l'.connections.lookup i

section Beside

variable {b i : ℕ} {l l' : Attachments}

theorem Beside.put (h : Beside b l l') (i : ℕ) (x : BookedConnection) :
    Beside b (l.put i x) (l'.put i x) where
  server := h.server
  absent := h.absent
  others j hj := by
    rw [Attachments.put, Attachments.put, GoMap.lookup_insert, GoMap.lookup_insert, h.others j hj]

theorem lookup_put_of_ne (hi : i ≠ b) (x : BookedConnection) :
    (l.put i x).connections.lookup b = l.connections.lookup b :=
  AList.lookup_insert_ne hi.symm

theorem Beside.withServer (h : Beside b l l') {m : GoMap Text (Option ℕ)}
    (hm : ∀ clientID, m.lookup clientID ≠ some (some b)) :
    Beside b { l with server := m } { l' with server := m } :=
  ⟨rfl, hm, h.others⟩

theorem Beside.erase (h : Beside b l l') (id clientID : Text) :
    (l.server.erase id).lookup clientID ≠ some (some b) := by
  rw [GoMap.lookup_erase]
  split_ifs
  · exact Option.some_ne_none _ ∘ Eq.symm
  · exact h.absent clientID

theorem Beside.insert (h : Beside b l l') {owner : Option ℕ} (howner : owner ≠ some b)
    (id clientID : Text) : (l.server.insert id owner).lookup clientID ≠ some (some b) := by
  rw [GoMap.lookup_insert]
  split_ifs
  · exact fun heq => howner (Option.some.inj heq)
  · exact h.absent clientID

theorem Beside.takeOver (h : Beside b l l') (clientID : Text) :
    Beside b (l.takeOver clientID) (l'.takeOver clientID) ∧
      (l.takeOver clientID).connections.lookup b = l.connections.lookup b ∧
      (l'.takeOver clientID).connections.lookup b = l'.connections.lookup b := by
  have habsent := h.absent clientID
  unfold Attachments.takeOver
  rw [← h.server]
  match hfound : l.server.lookup clientID with
  | none => exact ⟨h, rfl, rfl⟩
  | some none => exact ⟨h, rfl, rfl⟩
  | some (some j) =>
    have hj : j ≠ b := by
      rintro rfl
      exact habsent hfound
    dsimp only
    rw [← h.others j hj]
    cases l.connections.lookup j with
    | none => exact ⟨h, rfl, rfl⟩
    | some y => exact ⟨h.put j _, lookup_put_of_ne hj _, lookup_put_of_ne hj _⟩

/-- The results of an event on both nodes. -/
def Lockstep (b : ℕ) (l l' : Attachments) (r r' : Attachments × Option TableCall) : Prop :=
  Beside b r.1 r'.1 ∧ r.2 = r'.2 ∧ r.1.connections.lookup b = l.connections.lookup b ∧
    r'.1.connections.lookup b = l'.connections.lookup b

theorem rel_map {found : Option BookedConnection}
    {f f' : BookedConnection → Attachments × Option TableCall}
    (h : ∀ x, found = some x → Lockstep b l l' (f x) (f' x)) :
    Option.Rel (Lockstep b l l') (found.map f) (found.map f') := by
  cases found with
  | none => exact .none
  | some x => exact .some (h x rfl)

theorem Beside.lockstep_put (h : Beside b l l') (hi : i ≠ b) (x : BookedConnection)
    (call : Option TableCall) : Lockstep b l l' (l.put i x, call) (l'.put i x, call) :=
  ⟨h.put i x, rfl, lookup_put_of_ne hi x, lookup_put_of_ne hi x⟩

theorem Beside.advance (h : Beside b l l') {e : ConnectionEvent} (he : e.connection ≠ some b) :
    Option.Rel (Lockstep b l l') (l.advance e) (l'.advance e) := by
  have hinPhase {i : ℕ} (hi : i ≠ b) (phase : ConnectionPhase) :
      l'.inPhase i phase = l.inPhase i phase := by
    rw [inPhase, inPhase, h.others i hi]
  have hne {i : ℕ} (hi : e.connection = some i) : i ≠ b := by
    rintro rfl
    exact he hi
  cases e with
  | connect i clientID state =>
    rw [Attachments.advance, Attachments.advance, ← h.others i (hne rfl)]
    split_ifs
    · exact .none
    · exact .some (h.lockstep_put (hne rfl) _ _)
  | claimed i | claimFailed i | acknowledge i | attachFail i | disconnect i _ =>
    rw [Attachments.advance, Attachments.advance, hinPhase (hne rfl)]
    exact rel_map fun x _ => h.lockstep_put (hne rfl) _ _
  | establish i =>
    have hi : i ≠ b := hne rfl
    rw [Attachments.advance, Attachments.advance, hinPhase hi, ← h.server]
    refine rel_map fun x _ => ?_
    obtain ⟨hbeside, hlookup, hlookup'⟩ := h.takeOver x.clientID
    have hserver := h.insert (fun heq => hi (Option.some.inj heq)) x.clientID
    exact ⟨(hbeside.put i _).withServer hserver, rfl, (lookup_put_of_ne hi _).trans hlookup,
      (lookup_put_of_ne hi _).trans hlookup'⟩
  | stop i cause =>
    rw [Attachments.advance, Attachments.advance, ← h.others i (hne rfl)]
    exact rel_map fun x _ => h.lockstep_put (hne rfl) _ _
  | finish i =>
    have hi : i ≠ b := hne rfl
    rw [Attachments.advance, Attachments.advance, hinPhase hi, ← h.server]
    refine rel_map fun x _ =>
      ⟨(h.put i _).withServer ?_, rfl, lookup_put_of_ne hi _, lookup_put_of_ne hi _⟩
    intro clientID
    split_ifs
    · exact h.erase x.clientID clientID
    · exact h.absent clientID
  | expire i =>
    have hi : i ≠ b := hne rfl
    rw [Attachments.advance, Attachments.advance, ← h.others i hi, ← h.server]
    exact rel_map fun x _ =>
      ⟨(h.put i _).withServer (h.erase x.clientID), rfl, lookup_put_of_ne hi _,
        lookup_put_of_ne hi _⟩
  | restore clientID =>
    rw [Attachments.advance, Attachments.advance, ← h.server]
    exact .some ⟨h.withServer (h.insert (Option.some_ne_none b).symm clientID), rfl, rfl, rfl⟩
  | expireRestored clientID =>
    rw [Attachments.advance, Attachments.advance, ← h.server]
    split_ifs
    · exact .some ⟨h.withServer (h.erase clientID), rfl, rfl, rfl⟩
    · exact .none

/-- So both make the same call. -/
theorem Beside.next (h : Beside b l l') {e : ConnectionEvent} (he : e.connection ≠ some b) :
    Beside b (l.next e) (l'.next e) ∧ l.call e = l'.call e ∧
      (l.next e).connections.lookup b = l.connections.lookup b ∧
      (l'.next e).connections.lookup b = l'.connections.lookup b := by
  have hrel := h.advance he
  unfold Attachments.next Attachments.call
  generalize l.advance e = r at hrel
  generalize l'.advance e = r' at hrel
  cases hrel with
  | none => exact ⟨h, rfl, rfl, rfl⟩
  | some hlockstep => exact hlockstep

end Beside

end Attachments

/-! ### Two runs -/

open HookTables

namespace ConnectionState

/-- The client ID's entry is the one of the failing CONNECT. The generation is ahead. Without the
CONNECT the entry is that of the connection that was replaced, until it ends or expires. -/
structure Standing (b : ℕ) (clientID : Text) (replaced : Option ℕ) (s s' : ConnectionState) :
    Prop where
  tracks : s.tables.Tracks b clientID
  ahead : Ahead clientID s.tables s'.tables
  known : ∀ a, replaced = some a → ∃ x, s'.slot a = some x
  tracks_iff : ∀ a x, s'.slot a = some x → x.held = true →
    (s'.tables.Tracks a clientID ↔ replaced = some a ∧ x.swept = false)

/-- A run with a CONNECT whose claim is pending, and the run without it. -/
structure Aside (b : ℕ) (clientID : Text) (state : ClientState) (replaced : Option ℕ)
    (s s' : ConnectionState) : Prop where
  beside : s.attachments.Beside b s'.attachments
  pending : s.attachments.connections.lookup b = some { clientID, state }
  missing : s'.attachments.connections.lookup b = none
  sound : s.Sound
  sound' : s'.Sound
  others : ∀ id, id ≠ clientID → AgreeAt id s.tables s'.tables
  entry : Standing b clientID replaced s s' ∨ Alike b clientID s.tables s'.tables
  conns : ∀ t, s'.tables.conns t + (if t = state.tenantStr then 1 else 0) ≤ s.tables.conns t

/-- While the entry of the failing CONNECT stands, the connection that it has replaced does not come
to its end, unless its client object has expired before. -/
def SparesReplaced (b : ℕ) (clientID : Text) (replaced : Option ℕ) (s : ConnectionState)
    (e : ConnectionEvent) : Prop :=
  ∀ a cleanup, s.attachments.call e = some (.disconnected a clientID cleanup) → replaced = some a →
    s.tables.Tracks b clientID → ∃ x, s.slot a = some x ∧ x.swept = true

section Aside

variable {b : ℕ} {clientID : Text} {state : ClientState} {replaced : Option ℕ}
  {s s' : ConnectionState} {e : ConnectionEvent} {i : ℕ} {x : Slot}

theorem Aside.ne (h : Aside b clientID state replaced s s') (hx : s'.slot i = some x) : i ≠ b := by
  rintro rfl
  rw [slot, Attachments.slot, h.missing] at hx
  cases hx

theorem Aside.slot_eq (h : Aside b clientID state replaced s s') (hx : s'.slot i = some x) :
    s.slot i = some x := by
  rw [slot, Attachments.slot, h.beside.others i (h.ne hx)]
  exact hx

theorem Sound.clientID_eq (hs : s.Sound) (hx : s.slot i = some x)
    (htracks : s.tables.Tracks i clientID) : x.clientID = clientID := by
  obtain ⟨tracked, hlookup, rfl⟩ := htracks
  obtain ⟨y, hy, hid, -⟩ := hs.entry clientID tracked hlookup
  rw [hx, Option.some.injEq] at hy
  rw [hy, hid]

theorem Aside.tracks_iff (h : Aside b clientID state replaced s s') {a : ℕ} {cleanup : Bool}
    (hx : s'.slot a = some x) (hheld : x.held = true)
    (hcall : s.attachments.call e = some (.disconnected a x.clientID cleanup)) :
    (s.tables.Tracks a x.clientID → s'.tables.Tracks a x.clientID) ∧
      ((s'.tables.Tracks a x.clientID → s.tables.Tracks a x.clientID) ↔
        SparesReplaced b clientID replaced s e) := by
  by_cases hid : x.clientID = clientID
  · rw [hid] at hcall ⊢
    rcases h.entry with hstanding | halike
    · have hnot : ¬ s.tables.Tracks a clientID := fun htracks =>
        h.ne hx (tracks_unique htracks hstanding.tracks)
      refine ⟨fun htracks => absurd htracks hnot, ?_⟩
      rw [hstanding.tracks_iff a x hx hheld]
      constructor
      · intro hlost a' cleanup' hcall' hreplaced _
        rw [hcall] at hcall'
        obtain ⟨rfl, -, -⟩ := hcall'
        refine ⟨x, h.slot_eq hx, ?_⟩
        rw [← Bool.not_eq_false]
        exact fun hswept => hnot (hlost ⟨hreplaced, hswept⟩)
      · rintro hspares ⟨hreplaced, hswept⟩
        obtain ⟨y, hy, hyswept⟩ := hspares a cleanup hcall hreplaced hstanding.tracks
        rw [h.slot_eq hx, Option.some.injEq] at hy
        rw [← hy, hswept] at hyswept
        cases hyswept
    · refine ⟨(halike.tracks_iff a).1, iff_of_true (halike.tracks_iff a).2 ?_⟩
      exact fun _ _ _ _ htracks => absurd htracks halike.not_tracks
  · have hagree := (h.others x.clientID hid).tracks_iff a
    refine ⟨hagree.1, iff_of_true hagree.2 fun a' cleanup' hcall' => ?_⟩
    rw [hcall, Option.some.injEq, TableCall.disconnected.injEq] at hcall'
    exact absurd hcall'.2.1 hid

theorem Aside.conns_step (h : Aside b clientID state replaced s s')
    (he : e.connection ≠ some b) :
    (SparesReplaced b clientID replaced s e ∧ ∀ t, (s.step e).tables.conns t + s'.tables.conns t =
        s.tables.conns t + (s'.step e).tables.conns t) ∨
      (¬ SparesReplaced b clientID replaced s e ∧
        (∀ t, (s.step e).tables.conns t = s.tables.conns t) ∧
        ∃ lost, ∀ t, s'.tables.conns t =
          (s'.step e).tables.conns t + if t = lost then 1 else 0) := by
  have hmove := slotMove_step s' e
  have hcall := (h.beside.next he).2.1
  rw [tables_step, tables_step]
  generalize s'.attachments.call e = call at hmove hcall
  generalize (s'.step e).slot = slots at hmove
  have hspares (hother : ∀ a id cleanup, call ≠ some (.disconnected a id cleanup)) :
      SparesReplaced b clientID replaced s e :=
    fun a cleanup hdisconnected => absurd (hcall ▸ hdisconnected) (hother a clientID cleanup)
  rw [hcall]
  cases hmove with
  | stay _ | dropped _ _ _ _ => exact Or.inl ⟨hspares (by simp), fun t => rfl⟩
  | booked i id st _ =>
    refine Or.inl ⟨hspares (by simp), fun t => ?_⟩
    rw [Option.elim_some, Option.elim_some, HookTables.apply, HookTables.apply,
      conns_booked, conns_booked]
    omega
  | claimFailed i x hx hheld =>
    refine Or.inl ⟨hspares (by simp), fun t => ?_⟩
    have hwith := conns_claimFailed_of_held h.sound (h.slot_eq hx) hheld x.clientID t
    have hwithout := conns_claimFailed_of_held h.sound' hx hheld x.clientID t
    rw [Option.elim_some, Option.elim_some, HookTables.apply, HookTables.apply]
    omega
  | expired i x _ =>
    refine Or.inl ⟨hspares (by simp), fun t => ?_⟩
    rw [Option.elim_some, Option.elim_some, HookTables.apply, HookTables.apply,
      conns_expired, conns_expired]
  | disconnected i _ x cleanup hx hheld =>
    obtain ⟨hmono, hiff⟩ := h.tracks_iff hx hheld hcall
    rw [Option.elim_some, Option.elim_some, HookTables.apply, HookTables.apply, ← hiff]
    by_cases htracks' : s'.tables.Tracks i x.clientID
    · have hwithout := conns_disconnected_of_tracks h.sound' hx hheld htracks' cleanup
      by_cases htracks : s.tables.Tracks i x.clientID
      · refine Or.inl ⟨fun _ => htracks, fun t => ?_⟩
        have hwith := conns_disconnected_of_tracks h.sound (h.slot_eq hx) hheld htracks cleanup t
        have hwithout := hwithout t
        omega
      · rw [disconnected_of_not_tracks htracks]
        exact Or.inr ⟨fun hspared => htracks (hspared htracks'), fun t => rfl, _, hwithout⟩
    · have htracks : ¬ s.tables.Tracks i x.clientID := fun htracks => htracks' (hmono htracks)
      rw [disconnected_of_not_tracks htracks,
        disconnected_of_not_tracks htracks']
      exact Or.inl ⟨fun hfound => absurd hfound htracks', fun t => rfl⟩

/-- Nothing but the slot of the failing CONNECT is counted besides what the other run counts. -/
def Counts (state : ClientState) (s s' : ConnectionState) : Prop :=
  ∀ t, s.tables.conns t = s'.tables.conns t + if t = state.tenantStr then 1 else 0

theorem Aside.le_conns_step (h : Aside b clientID state replaced s s') (he : e.connection ≠ some b)
    (t : Text) : (s'.step e).tables.conns t + (if t = state.tenantStr then 1 else 0) ≤
      (s.step e).tables.conns t := by
  have hle := h.conns t
  rcases h.conns_step he with ⟨-, heq⟩ | ⟨-, heq, lost, hless⟩
  · have heq := heq t
    omega
  · have heq := heq t
    have hless := hless t
    omega

theorem Aside.counts_step (h : Aside b clientID state replaced s s') (he : e.connection ≠ some b) :
    Counts state (s.step e) (s'.step e) ↔
      Counts state s s' ∧ SparesReplaced b clientID replaced s e := by
  rcases h.conns_step he with ⟨hspares, heq⟩ | ⟨hspares, heq, lost, hless⟩
  · rw [and_iff_left hspares]
    refine forall_congr' fun t => ?_
    have heq := heq t
    omega
  · refine iff_of_false (fun hcounts => ?_) fun hcounts => hspares hcounts.2
    have hcount := hcounts lost
    have hle := h.conns lost
    have hless := hless lost
    rw [if_pos rfl] at hless
    rw [heq lost] at hcount
    omega

theorem Standing.after {s₁ s₁' : ConnectionState} (h : Standing b clientID replaced s s')
    (hwith : AgreeAt clientID s₁.tables s.tables)
    (hgen : s₁'.tables.gen clientID ≤ s'.tables.gen clientID)
    (hknown : ∀ a x, s'.slot a = some x → ∃ y, s₁'.slot a = some y)
    (hslots : ∀ a y, s₁'.slot a = some y → y.held = true →
      (s'.slot a = some y ∧ (s₁'.tables.Tracks a clientID ↔ s'.tables.Tracks a clientID)) ∨
        (¬ s₁'.tables.Tracks a clientID ∧ ¬ (replaced = some a ∧ y.swept = false))) :
    Standing b clientID replaced s₁ s₁' where
  tracks := (hwith.tracks_iff b).2 h.tracks
  ahead := by
    rw [Ahead, hwith.gen]
    exact hgen.trans_lt h.ahead
  known a ha := by
    obtain ⟨x, hx⟩ := h.known a ha
    exact hknown a x hx
  tracks_iff a y hy hheld := by
    rcases hslots a y hy hheld with ⟨hbefore, htracks⟩ | ⟨htracks, hreplaced⟩
    · rw [htracks]
      exact h.tracks_iff a y hbefore hheld
    · exact iff_of_false htracks hreplaced

theorem slot_of_held {slots : ℕ → Option Slot} {a : ℕ} {y : Slot}
    (hy : Function.update slots i (some { x with held := false }) a = some y)
    (hheld : y.held = true) : a ≠ i ∧ slots a = some y := by
  have hai : a ≠ i := by
    rintro rfl
    rw [Function.update_self, Option.some.injEq] at hy
    rw [← hy] at hheld
    exact Bool.false_ne_true hheld
  exact ⟨hai, by rwa [Function.update_of_ne hai] at hy⟩

theorem agreeAt_step (s : ConnectionState)
    (hcall : ∀ call, s.attachments.call e = some call → clientID ≠ call.clientID) :
    AgreeAt clientID (s.step e).tables s.tables := by
  rw [tables_step]
  cases hc : s.attachments.call e with
  | none => rfl
  | some call => exact entry_apply_of_ne (hcall call hc)

theorem Aside.standing_step_of_ne (h : Aside b clientID state replaced s s')
    (hstanding : Standing b clientID replaced s s') (he : e.connection ≠ some b)
    (hother : ∀ call, s'.attachments.call e = some call → clientID ≠ call.clientID) :
    Standing b clientID replaced (s.step e) (s'.step e) := by
  have hmove := slotMove_step s' e
  have hagree := agreeAt_step s' hother
  rw [← (h.beside.next he).2.1] at hother
  refine hstanding.after (agreeAt_step s hother) hagree.gen.le
    (fun a x hx => ?_) fun a y hy hheld => ?_
  · obtain ⟨y, hy, -⟩ := slot_of_slotMove hmove hx
    exact ⟨y, hy⟩
  · rw [hagree.tracks_iff]
    rw [(h.beside.next he).2.1] at hother
    generalize (s'.step e).slot = slots at hmove hy
    generalize s'.attachments.call e = call at hmove hother
    cases hmove with
    | stay _ => exact Or.inl ⟨hy, Iff.rfl⟩
    | dropped i x _ _ | claimFailed i x _ _ | disconnected i _ x _ _ _ =>
      exact Or.inl ⟨(slot_of_held hy hheld).2, Iff.rfl⟩
    | booked i id st hnew =>
      by_cases hai : a = i
      · subst hai
        refine Or.inr ⟨?_, ?_⟩
        · rintro ⟨tracked, hlookup, rfl⟩
          obtain ⟨x, hx, -⟩ := h.sound'.entry clientID tracked hlookup
          rw [hnew] at hx
          cases hx
        · rintro ⟨hreplaced, -⟩
          obtain ⟨x, hx⟩ := hstanding.known a hreplaced
          rw [hnew] at hx
          cases hx
      · rw [Function.update_of_ne hai] at hy
        exact Or.inl ⟨hy, Iff.rfl⟩
    | expired i x hx =>
      by_cases hai : a = i
      · subst hai
        rw [Function.update_self, Option.some.injEq] at hy
        refine Or.inr ⟨fun htracks => ?_, ?_⟩
        · exact hother _ rfl (h.sound'.clientID_eq hx htracks).symm
        · rw [← hy]
          exact fun hreplaced => Bool.false_ne_true hreplaced.2.symm
      · rw [Function.update_of_ne hai] at hy
        exact Or.inl ⟨hy, Iff.rfl⟩

theorem Aside.standing_step (h : Aside b clientID state replaced s s')
    (hstanding : Standing b clientID replaced s s') (he : e.connection ≠ some b) :
    Standing b clientID replaced (s.step e) (s'.step e) ∨
      (Alike b clientID (s.step e).tables (s'.step e).tables ∧
        Ahead clientID (s.step e).tables (s'.step e).tables) := by
  by_cases hother : ∀ call, s'.attachments.call e = some call → clientID ≠ call.clientID
  · exact Or.inl (h.standing_step_of_ne hstanding he hother)
  push Not at hother
  obtain ⟨call, hcall', hid⟩ := hother
  have hcall := (h.beside.next he).2.1.trans hcall'
  have hmove := slotMove_step s' e
  have hknown (a : ℕ) (x : Slot) (hx : s'.slot a = some x) : ∃ y, (s'.step e).slot a = some y := by
    obtain ⟨y, hy, -⟩ := slot_of_slotMove hmove hx
    exact ⟨y, hy⟩
  have hwith : (s.step e).tables = s.tables.apply call := by
    rw [tables_step, hcall, Option.elim_some]
  have hwithout : (s'.step e).tables = s'.tables.apply call := by
    rw [tables_step, hcall', Option.elim_some]
  have hending (hend : call.ending = true) (hnot : ¬ s.tables.Ends call) :
      AgreeAt clientID (s.step e).tables s.tables ∧
        (s'.step e).tables.gen clientID ≤ s'.tables.gen clientID := by
    rw [hwith, hwithout, hid]
    refine ⟨agreeAt_of_not_ends h.sound.current hend hnot, ?_⟩
    by_cases hends : s'.tables.Ends call
    · have hnone := congrArg Prod.snd (entry_of_ends h.sound'.current hends)
      rw [HookTables.gen, show (s'.tables.apply call).generation.lookup _ = _ from hnone]
      exact Nat.zero_le _
    · exact (agreeAt_of_not_ends h.sound'.current hend hends).gen.le
  rw [hcall'] at hmove
  generalize hslots : (s'.step e).slot = slots at hmove
  cases hmove with
  | booked i id st hnew =>
    obtain rfl : clientID = id := hid
    have hi : i ≠ b := fun heq => he (congrArg some heq)
    rw [hwith, hwithout]
    exact Or.inr ⟨alike_booked (Or.inr hstanding.ahead) hi,
      ahead_booked_iff.2 hstanding.ahead⟩
  | claimFailed i x hx hheld =>
    obtain rfl : clientID = x.clientID := hid
    rw [hwith, hwithout]
    refine Or.inr ⟨alike_claimFailed (Or.inr hstanding.ahead) _, ?_⟩
    rw [HookTables.apply, HookTables.apply, Ahead, HookTables.gen, HookTables.gen,
      generation_claimFailed, generation_claimFailed]
    exact hstanding.ahead
  | disconnected i _ x cleanup hx hheld =>
    obtain rfl : clientID = x.clientID := hid
    have hnot : ¬ s.tables.Tracks i x.clientID := fun htracks =>
      h.ne hx (tracks_unique htracks hstanding.tracks)
    obtain ⟨hagree, hgen⟩ := hending rfl fun hends => hnot hends.2
    refine Or.inl (hstanding.after hagree hgen hknown fun a y hy hyheld => ?_)
    rw [hslots] at hy
    obtain ⟨hai, hbefore⟩ := slot_of_held hy hyheld
    rw [hwithout]
    exact Or.inl ⟨hbefore, tracks_disconnected_iff hai cleanup⟩
  | expired i x hx =>
    obtain rfl : clientID = x.clientID := hid
    have hnot : ¬ s.tables.Tracks i x.clientID := fun htracks =>
      h.ne hx (tracks_unique htracks hstanding.tracks)
    obtain ⟨hagree, hgen⟩ := hending rfl hnot
    refine Or.inl (hstanding.after hagree hgen hknown fun a y hy hyheld => ?_)
    rw [hslots] at hy
    rw [hwithout, HookTables.apply, tracks_expired_iff]
    by_cases hai : a = i
    · subst hai
      rw [Function.update_self, Option.some.injEq] at hy
      refine Or.inr ⟨fun htracks => htracks.2 rfl, ?_⟩
      rw [← hy]
      exact fun hreplaced => Bool.false_ne_true hreplaced.2.symm
    · rw [Function.update_of_ne hai] at hy
      exact Or.inl ⟨hy, and_iff_left hai⟩

theorem Aside.alike_step (h : Aside b clientID state replaced s s')
    (halike : Alike b clientID s.tables s'.tables) (he : e.connection ≠ some b) :
    Alike b clientID (s.step e).tables (s'.step e).tables ∧
      (Level clientID (s.step e).tables (s'.step e).tables ↔
        Level clientID s.tables s'.tables ∨
          (s.step e).tables.generation.lookup clientID = none) := by
  have hmove := slotMove_step s' e
  rw [tables_step, tables_step, (h.beside.next he).2.1]
  generalize (s'.step e).slot = slots at hmove
  generalize s'.attachments.call e = call at hmove
  cases call with
  | none => exact ⟨halike, (or_iff_left_of_imp halike.level_of_none).symm⟩
  | some call =>
    refine halike.apply h.sound.current h.sound'.current ?_
    rintro id st rfl
    cases hmove with
    | booked _ _ _ _ => exact he rfl

theorem Aside.level_step (h : Aside b clientID state replaced s s') (he : e.connection ≠ some b) :
    Level clientID (s.step e).tables (s'.step e).tables ↔
      Level clientID s.tables s'.tables ∨
        (s.step e).tables.generation.lookup clientID = none := by
  rcases h.entry with hstanding | halike
  · have hahead : Ahead clientID (s.step e).tables (s'.step e).tables := by
      rcases h.standing_step hstanding he with hnext | hnext
      · exact hnext.ahead
      · exact hnext.2
    exact iff_of_false hahead.not_level
      (not_or.2 ⟨hstanding.ahead.not_level, hahead.generation_ne_none⟩)
  · exact (h.alike_step halike he).2

/-- What an event of another connection preserves. -/
theorem Aside.step (h : Aside b clientID state replaced s s') (he : e.connection ≠ some b) :
    Aside b clientID state replaced (s.step e) (s'.step e) := by
  obtain ⟨hbeside, hcall, hlookup, hlookup'⟩ := h.beside.next he
  refine ⟨?_, ?_, ?_, sound_step h.sound e, sound_step h.sound' e, fun id hid => ?_, ?_,
    h.le_conns_step he⟩
  · rw [attachments_step, attachments_step]
    exact hbeside
  · rw [attachments_step, hlookup, h.pending]
  · rw [attachments_step, hlookup', h.missing]
  · rw [tables_step, tables_step, hcall]
    cases s'.attachments.call e with
    | none => exact h.others id hid
    | some call => exact (h.others id hid).apply call
  · rcases h.entry with hstanding | halike
    · exact (h.standing_step hstanding he).imp_right And.left
    · exact Or.inr (h.alike_step halike he).1

end Aside

/-! ### The claim fails -/

section Failure

variable {b : ℕ} {clientID : Text} {state : ClientState} {replaced : Option ℕ}
  {s s' : ConnectionState}

/-- The step of the failing claim. -/
theorem step_claimFailed
    (hpending : s.attachments.connections.lookup b = some { clientID, state }) :
    (s.step (.claimFailed b)).tables = s.tables.claimFailed clientID state.tenantStr ∧
      (s.step (.claimFailed b)).attachments =
        s.attachments.put b { clientID, state, phase := .ended } := by
  have hphase : s.attachments.inPhase b .claiming = some { clientID, state } :=
    Attachments.inPhase_eq_some.2 ⟨hpending, rfl⟩
  constructor
  · rw [tables_step, Attachments.call, Attachments.advance, hphase]
    rfl
  · rw [attachments_step, Attachments.next, Attachments.advance, hphase]
    rfl

theorem Aside.same_iff (h : Aside b clientID state replaced s s') :
    Same (s.tables.claimFailed clientID state.tenantStr) s'.tables ↔
      Counts state s s' ∧ Level clientID s.tables s'.tables ∧
        s.tables.clients.lookup clientID = none := by
  have hheld : s.slot b = some ⟨clientID, state, true, false⟩ := by
    rw [slot, Attachments.slot, h.pending]
    rfl
  have hconns (t : Text) : s.tables.conns t =
      (s.tables.claimFailed clientID state.tenantStr).conns t +
        if t = state.tenantStr then 1 else 0 :=
    conns_claimFailed_of_held h.sound hheld rfl clientID t
  have halike (hlevel : Level clientID s.tables s'.tables) :
      Alike b clientID s.tables s'.tables :=
    h.entry.resolve_left fun hstanding => hstanding.ahead.not_level hlevel
  constructor
  · rintro ⟨hagree, hsame⟩
    have hlevel : Level clientID s.tables s'.tables := by
      have hgeneration := (hagree clientID).generation
      rwa [generation_claimFailed] at hgeneration
    refine ⟨fun t => ?_, hlevel, ?_⟩
    · rw [hconns t, hsame t]
    · have hnone := (hagree clientID).clients
      rw [lookup_claimFailed] at hnone
      have howner := (halike hlevel).owner_eq
      rw [← hnone] at howner
      exact Option.map_eq_none_iff.1 howner
  · rintro ⟨hcounts, hlevel, hnone⟩
    refine ⟨fun id => ?_, fun t => ?_⟩
    · by_cases hid : id = clientID
      · subst hid
        have howner := (halike hlevel).owner_eq
        rw [hnone] at howner
        have hnone' := Option.map_eq_none_iff.1 howner.symm
        refine Prod.ext ?_ ((generation_claimFailed _ _ _ _).trans hlevel)
        exact (lookup_claimFailed _ _ _).trans hnone'.symm
      · exact (@entry_apply_of_ne _ id (.claimFailed clientID _) hid).trans
          (h.others id hid)
    · have hcount := hcounts t
      have hconns := hconns t
      omega

theorem same_step {e : ConnectionEvent} (hbeside : s.attachments.Beside b s'.attachments)
    (hsame : Same s.tables s'.tables) (he : e.connection ≠ some b) :
    (s.step e).attachments.Beside b (s'.step e).attachments ∧
      Same (s.step e).tables (s'.step e).tables := by
  obtain ⟨hnext, hcall, -⟩ := hbeside.next he
  rw [attachments_step, attachments_step, tables_step, tables_step, hcall]
  refine ⟨hnext, ?_⟩
  cases s'.attachments.call e with
  | none => exact hsame
  | some call => exact hsame.apply call

private theorem standing_connect (hs : s.Sound)
    (htables : s'.tables = s.tables.booked b clientID state) :
    Standing b clientID ((s.tables.clients.lookup clientID).map (·.client)) s' s where
  tracks := by
    rw [htables]
    exact ⟨_, s.tables.lookup_booked clientID b state, rfl⟩
  ahead := by
    rw [Ahead, htables, gen_booked]
    exact Nat.lt_succ_self _
  known a ha := by
    obtain ⟨tracked, hlookup, rfl⟩ := Option.map_eq_some_iff.1 ha
    obtain ⟨x, hx, -⟩ := hs.entry clientID tracked hlookup
    exact ⟨x, hx⟩
  tracks_iff a x hx _ := by
    constructor
    · rintro ⟨tracked, hlookup, rfl⟩
      obtain ⟨y, hy, -, -, hswept⟩ := hs.entry clientID tracked hlookup
      rw [hx, Option.some.injEq] at hy
      exact ⟨by rw [hlookup, Option.map_some], by rw [hy, hswept]⟩
    · rintro ⟨ha, -⟩
      obtain ⟨tracked, hlookup, hclient⟩ := Option.map_eq_some_iff.1 ha
      exact ⟨tracked, hlookup, hclient⟩

/-- The step of the CONNECT. -/
theorem step_connect (hnew : s.attachments.connections.lookup b = none) :
    (s.step (.connect b clientID state)).tables = s.tables.booked b clientID state ∧
      (s.step (.connect b clientID state)).attachments =
        s.attachments.put b { clientID, state } := by
  have hadvance : s.attachments.advance (.connect b clientID state) =
      some (s.attachments.put b { clientID, state }, some (.booked b clientID state)) := by
    rw [Attachments.advance, hnew]
    rfl
  constructor
  · rw [tables_step, Attachments.call, hadvance]
    rfl
  · rw [attachments_step, Attachments.next, hadvance]
    rfl

theorem aside_connect (hs : s.Sound) (hbeside : s.attachments.Beside b s.attachments)
    (hnew : s.attachments.connections.lookup b = none) :
    Aside b clientID state ((s.tables.clients.lookup clientID).map (·.client))
      (s.step (.connect b clientID state)) s := by
  obtain ⟨htables, hattachments⟩ := @step_connect b clientID state s hnew
  refine ⟨⟨?_, ?_, fun i hi => ?_⟩, ?_, hnew, sound_step hs _, hs, fun id hid => ?_,
    Or.inl (standing_connect hs htables), fun t => ?_⟩
  · rw [hattachments]
    rfl
  · rw [hattachments]
    exact hbeside.absent
  · rw [hattachments, Attachments.put, AList.lookup_insert_ne hi]
  · rw [hattachments, Attachments.put, AList.lookup_insert]
  · rw [htables]
    exact @entry_apply_of_ne _ id (.booked b clientID state) hid
  · rw [htables, conns_booked]

end Failure

/-- The CONNECT of a connection is booked after some events and its claim fails after more. After
the failure, whatever happens to the other connections, the tables read as without the CONNECT. -/
def RolledBack (b : ℕ) (clientID : Text) (state : ClientState)
    (before since : List ConnectionEvent) :
    Prop :=
  ∀ after : List ConnectionEvent, (∀ e ∈ after, e.connection ≠ some b) →
    Same
      (run step {} (before ++ .connect b clientID state ::
        (since ++ .claimFailed b :: after))).tables
      (run step {} (before ++ (since ++ after))).tables

/-- The connection that the CONNECT has replaced, if its entry was still there. -/
def replacedBy (clientID : Text) (before : List ConnectionEvent) : Option ℕ :=
  ((run step {} before).tables.clients.lookup clientID).map (·.client)

/-- The state right after the booking. -/
def bookedState (b : ℕ) (clientID : Text) (state : ClientState) (before : List ConnectionEvent) :
    ConnectionState :=
  (run step {} before).step (.connect b clientID state)

/-- What the other connections have to do for the failing CONNECT to leave no trace. -/
structure Traceless (b : ℕ) (clientID : Text) (state : ClientState)
    (before since : List ConnectionEvent) : Prop where
  /-- The connection that was replaced does not end while the entry of the CONNECT stands. -/
  spared : Along step (SparesReplaced b clientID (replacedBy clientID before))
    (bookedState b clientID state before) since
  /-- At some time the client ID has no generation: a later connection has come and has been cleaned
  up. -/
  renewed : ¬ Always step (fun s => (s.tables.generation.lookup clientID).isSome = true)
    (bookedState b clientID state before) since
  /-- The client ID has no entry when the claim fails. -/
  vacant : (run step (bookedState b clientID state before) since).tables.clients.lookup
    clientID = none

section Main

variable {b : ℕ} {clientID : Text} {state : ClientState} {before since : List ConnectionEvent}

private theorem sound_run (es : List ConnectionEvent) : (run step {} es).Sound :=
  run_of_step (I := Sound) (fun _ e hs => sound_step hs e) sound_init es

theorem beside_run (hother : ∀ e ∈ before, e.connection ≠ some b) :
    (run step {} before).attachments.Beside b (run step {} before).attachments ∧
      (run step {} before).attachments.connections.lookup b = none := by
  have hstep (s : ConnectionState) (e : ConnectionEvent)
      (hs : s.attachments.Beside b s.attachments ∧ s.attachments.connections.lookup b = none)
      (he : e.connection ≠ some b) : (s.step e).attachments.Beside b (s.step e).attachments ∧
        (s.step e).attachments.connections.lookup b = none := by
    obtain ⟨hnext, -, hlookup, -⟩ := hs.1.next he
    rw [attachments_step, hlookup]
    exact ⟨hnext, hs.2⟩
  have hinit : Attachments.Beside b {} {} := by
    refine ⟨rfl, fun id hlookup => ?_, fun _ _ => rfl⟩
    cases hlookup
  exact (always_of_along hstep ⟨hinit, rfl⟩ (along_of_forall hother {})).last

theorem aside_booked (hother : ∀ e ∈ before, e.connection ≠ some b) :
    Aside b clientID state (replacedBy clientID before) (bookedState b clientID state before)
      (run step {} before) :=
  aside_connect (sound_run before) (beside_run hother).1 (beside_run hother).2

theorem aside_step (hsince : ∀ e ∈ since, e.connection ≠ some b) (replaced : Option ℕ) :
    ∀ e ∈ since, ∀ s s', Aside b clientID state replaced s s' →
      Aside b clientID state replaced (s.step e) (s'.step e) :=
  fun e he _ _ h => h.step (hsince e he)

theorem aside_run (hother : ∀ e ∈ before ++ since, e.connection ≠ some b) :
    Aside b clientID state (replacedBy clientID before)
      (run step (bookedState b clientID state before) since)
      (run step (run step {} before) since) := by
  rw [List.forall_mem_append] at hother
  exact run_of_simulation (aside_step hother.2 _) (aside_booked hother.1)

theorem rolledBack_iff_same (hother : ∀ e ∈ before ++ since, e.connection ≠ some b) :
    RolledBack b clientID state before since ↔
      Same ((run step (bookedState b clientID state before) since).tables.claimFailed
        clientID state.tenantStr) (run step (run step {} before) since).tables := by
  have haside := @aside_run b clientID state before since hother
  obtain ⟨htables, hattachments⟩ := step_claimFailed haside.pending
  have hrun (after : List ConnectionEvent) :
      run step {} (before ++ .connect b clientID state :: (since ++ .claimFailed b :: after)) =
        run step ((run step (bookedState b clientID state before) since).step (.claimFailed b))
          after := by
    rw [run_append, run_cons, run_append]
    rfl
  constructor
  · intro hrolled
    have hsame := hrolled [] (by simp)
    rwa [hrun, run_nil, htables, List.append_nil, run_append] at hsame
  · intro hsame after hafter
    rw [hrun, run_append, run_append]
    have hstep : ∀ e ∈ after, ∀ s s' : ConnectionState,
        (s.attachments.Beside b s'.attachments ∧ Same s.tables s'.tables) →
        ((s.step e).attachments.Beside b (s'.step e).attachments ∧
          Same (s.step e).tables (s'.step e).tables) :=
      fun e he s s' h => same_step h.1 h.2 (hafter e he)
    refine (run_of_simulation hstep ⟨?_, ?_⟩).2
    · rw [hattachments]
      refine ⟨haside.beside.server, haside.beside.absent, fun i hi => ?_⟩
      rw [Attachments.put, AList.lookup_insert_ne hi, haside.beside.others i hi]
    · rw [htables]
      exact hsame

theorem counts_run (hother : ∀ e ∈ before ++ since, e.connection ≠ some b) :
    Counts state (run step (bookedState b clientID state before) since)
        (run step (run step {} before) since) ↔
      Along step (SparesReplaced b clientID (replacedBy clientID before))
        (bookedState b clientID state before) since := by
  rw [List.forall_mem_append] at hother
  have hbooked := @aside_booked b clientID state before hother.1
  have hcounts : Counts state (bookedState b clientID state before) (run step {} before) := by
    intro t
    rw [bookedState, (step_connect (beside_run hother.1).2).1, conns_booked]
  have hstep : ∀ e ∈ since, ∀ s s', Aside b clientID state (replacedBy clientID before) s s' →
      (Counts state (s.step e) (s'.step e) ↔
        Counts state s s' ∧ SparesReplaced b clientID (replacedBy clientID before) s e) :=
    fun e he s s' h => h.counts_step (hother.2 e he)
  exact (run_iff_along_of_simulation (aside_step hother.2 _) hstep hbooked).trans
    (and_iff_right hcounts)

theorem level_run (hother : ∀ e ∈ before ++ since, e.connection ≠ some b) :
    Level clientID (run step (bookedState b clientID state before) since).tables
        (run step (run step {} before) since).tables ↔
      ¬ Always step (fun s => (s.tables.generation.lookup clientID).isSome = true)
        (bookedState b clientID state before) since := by
  rw [List.forall_mem_append] at hother
  have hbooked := @aside_booked b clientID state before hother.1
  have hstep : ∀ e ∈ since, ∀ s s', Aside b clientID state (replacedBy clientID before) s s' →
      (¬ Level clientID (s.step e).tables (s'.step e).tables ↔
        ¬ Level clientID s.tables s'.tables ∧
          ((s.step e).tables.generation.lookup clientID).isSome = true) := by
    intro e he s s' h
    rw [h.level_step (hother.2 e he), not_or, Option.isSome_iff_ne_none]
  have hahead : Ahead clientID (bookedState b clientID state before).tables
      (run step {} before).tables := by
    rw [bookedState, (step_connect (beside_run hother.1).2).1, Ahead,
      gen_booked]
    exact Nat.lt_succ_self _
  have hnever := run_iff_along_of_simulation
    (P := fun s s' => ¬ Level clientID s.tables s'.tables) (aside_step hother.2 _) hstep
    hbooked
  rw [always_iff_and_along, and_iff_right (Option.isSome_iff_ne_none.2 hahead.generation_ne_none),
    ← not_iff_not, not_not, hnever, and_iff_right hahead.not_level]

/-- A CONNECT whose claim fails is rolled back exactly if the other connections have removed its
traces. -/
theorem rolledBack_iff (hother : ∀ e ∈ before ++ since, e.connection ≠ some b) :
    RolledBack b clientID state before since ↔ Traceless b clientID state before since := by
  rw [rolledBack_iff_same hother, (aside_run hother).same_iff, counts_run hother, level_run hother]
  exact ⟨fun h => ⟨h.1, h.2.1, h.2.2⟩, fun h => ⟨h.spared, h.renewed, h.vacant⟩⟩

/-- A later connection of the device comes and ends before the claim fails, and nothing is left. -/
theorem rolledBack_comeback :
    RolledBack 0 "d1".toList sensor []
      (arrival 1 ++ [.stop 1 .other, .disconnect 1 true, .finish 1]) := by
  refine (rolledBack_iff (by decide)).2 ⟨?_, by decide +kernel, by decide +kernel⟩
  refine along_of_step (I := fun _ => True) (fun _ _ _ => trivial) (fun s e _ => ?_) trivial _
  intro a cleanup _ hreplaced
  cases hreplaced

/-- The device is attached when the claim of its next CONNECT fails. It loses its entry, and its end
does not give its slot back. -/
theorem not_rolledBack_attached :
    let s := run step {} (arrival 0 ++ [.connect 1 "d1".toList sensor, .claimFailed 1])
    let s' := run step {} (arrival 0)
    s.tables.clients.lookup "d1".toList = none ∧
      (s'.tables.clients.lookup "d1".toList).isSome = true ∧
      (run step s [.stop 0 .other, .disconnect 0 true]).tables.conns sensor.tenantStr = 1 ∧
      (run step s' [.stop 0 .other, .disconnect 0 true]).tables.conns sensor.tenantStr = 0 ∧
      ¬ RolledBack 1 "d1".toList sensor (arrival 0) [] := by
  refine ⟨by decide +kernel, by decide +kernel, by decide +kernel, by decide +kernel, ?_⟩
  intro hrolled
  have hagree := ((hrolled [] (by simp)).agree "d1".toList).clients
  exact absurd hagree (by decide +kernel)

end Main

end ConnectionState

end KeelGateway.Broker
