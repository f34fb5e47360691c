import Mathlib.Data.List.Dedup
import KeelGateway.Broker.SessionClaims
import KeelGateway.Lib.Writes

/-!
# Filter references and registered routes

A node counts in a table which of its clients use a filter. The first user registers the filter in
the routing store, the last one removes it. The table is changed under a lock, the store is written
later: the handlers of different clients decide in one order and may write in another.

Handlers of one client run one after another. A handler that adds references takes the lock once for
every filter, one that removes references takes it once for all of them. The keys of a batch are
written one by one here, which allows all orders that a batch has and more.

-/

namespace KeelGateway.Broker

open Mochi StepMachine

/-! ### The machine -/

/-- A call that a handler still has to make. -/
inductive HandlerCall where
  | addRef (filter : Text)
  /-- `Subscribe` or `Unsubscribe` of the routing store. -/
  | write (filter : Text) (registers : Bool)
  deriving DecidableEq

/-- What the broker knows about a client. -/
structure ClientEntry where
  connected : Bool := false
  filters : List Text := []
  deriving DecidableEq

/-- The clients of a node, its reference table and its keys in the routing store. -/
structure RefState where
  clients : GoMap Text ClientEntry := ∅
  refs : FilterRefs := ∅
  store : GoMap Text Unit := ∅
  handlers : GoMap Text (List HandlerCall) := ∅
  decided : List (Text × Bool) := []
  executed : List (Text × Bool) := []

/-- What happens on the node. -/
inductive HandlerEvent where
  | resume (clientID : Text) (filters : List Text)
  | subscribe (clientID : Text) (filters : List Text) (accepted : Text → Bool)
  /-- An UNSUBSCRIBE, or the broker drops subscriptions of a session that has ended. -/
  | unsubscribe (clientID : Text) (filters : List Text)
  | disconnect (clientID : Text)
  | advance (clientID : Text)

namespace RefState

/-- The entry of a client. -/
def client (s : RefState) (clientID : Text) : ClientEntry := (s.clients.lookup clientID).getD {}

/-- The calls that the handler of a client still has to make. -/
def calls (s : RefState) (clientID : Text) : List HandlerCall :=
  (s.handlers.lookup clientID).getD []

/-- The entry of a client is exchanged. -/
def withClient (s : RefState) (clientID : Text) (entry : ClientEntry) : RefState :=
  { s with clients := s.clients.insert clientID entry }

/-- The handler of a client has these calls left. -/
def withCalls (s : RefState) (clientID : Text) (calls : List HandlerCall) : RefState :=
  { s with handlers :=
      if calls = [] then s.handlers.erase clientID else s.handlers.insert clientID calls }

/-- `removeClusterFilterRefs`, and the writes that follow from it. -/
def removing (s : RefState) (clientID : Text) (filters : List Text) : RefState :=
  let r := removeClusterFilterRefs s.refs clientID filters.dedup
  { s.withCalls clientID (r.2.map (.write · false)) with
    refs := r.1
    decided := s.decided ++ r.2.map (·, false) }

/-- `addClusterFilterRef`, and the write that follows from it for the first user. -/
def adding (s : RefState) (clientID filter : Text) (calls : List HandlerCall) : RefState :=
  let r := addClusterFilterRef s.refs clientID filter
  { s.withCalls clientID (if r.2 then .write filter true :: calls else calls) with
    refs := r.1
    decided := if r.2 then s.decided ++ [(filter, true)] else s.decided }

/-- A write of the routing store. -/
def writing (s : RefState) (clientID filter : Text) (registers : Bool)
    (calls : List HandlerCall) : RefState :=
  { s.withCalls clientID calls with
    store := if registers then s.store.insert filter () else s.store.erase filter
    executed := s.executed ++ [(filter, registers)] }

/-- One event. -/
def step (s : RefState) : HandlerEvent → RefState
  | .resume clientID filters =>
    if s.calls clientID = [] ∧ (s.client clientID).connected = false then
      (s.withClient clientID ⟨true, filters⟩).withCalls clientID (filters.dedup.map .addRef)
    else s
  | .subscribe clientID filters accepted =>
    if s.calls clientID = [] ∧ (s.client clientID).connected = true then
      (s.withClient clientID ⟨true, (s.client clientID).filters ++
        filters.filter accepted⟩).withCalls
        clientID (filters.dedup.map .addRef)
    else s
  | .unsubscribe clientID filters =>
    if s.calls clientID = [] then
      (s.withClient clientID { s.client clientID with
        filters := (s.client clientID).filters.filter (· ∉ filters) }).removing clientID filters
    else s
  | .disconnect clientID =>
    if s.calls clientID = [] ∧ (s.client clientID).connected = true then
      (s.withClient clientID { s.client clientID with connected := false }).removing clientID
        (s.client clientID).filters
    else s
  | .advance clientID =>
    match s.calls clientID with
    | [] => s
    | .addRef filter :: calls => s.adding clientID filter calls
    | .write filter registers :: calls => s.writing clientID filter registers calls

/-- No handler is in progress. -/
def Quiet (s : RefState) : Prop := s.handlers.entries = []

instance (s : RefState) : Decidable s.Quiet := inferInstanceAs (Decidable (s.handlers.entries = []))

/-- The store has an ordinary filter exactly if a connected client holds a reference to it. -/
def Consistent (s : RefState) : Prop :=
  ∀ f, isSharedFilter f = false →
    (f ∈ s.store ↔ ∃ c, (s.client c).connected = true ∧ HoldsRef s.refs c f)

end RefState

/-- Every filter of a SUBSCRIBE is accepted. -/
def HandlerEvent.AllAccepted : HandlerEvent → Prop
  | subscribe _ filters accepted => ∀ f ∈ filters, accepted f = true
  | _ => True

/-- After the writes the filter is registered. -/
def Registers (writes : List (Text × Bool)) (filter : Text) : Prop :=
  Writes.apply (fun _ => none) writes filter = some true

theorem registers_concat (writes : List (Text × Bool)) (g : Text) (b : Bool) (f : Text) :
    Registers (writes ++ [(g, b)]) f ↔ if f = g then b = true else Registers writes f := by
  have hlast : Writes.apply (fun _ => none) (writes ++ [(g, b)]) f =
      Function.update (Writes.apply (fun _ => none) writes) g (some b) f := by
    rw [Writes.apply_append]
    rfl
  rw [Registers, hlast]
  split_ifs with hf
  · rw [hf, Function.update_self, Option.some.injEq]
  · rw [Function.update_of_ne hf]
    rfl

/-! ### Decisions follow the table -/

theorem exists_holdsRef_of_not_last {refs : FilterRefs} {clientID filter : Text}
    (h : (removeClusterFilterRef refs clientID filter).2 = false) :
    ∃ c, HoldsRef (removeClusterFilterRef refs clientID filter).1 c filter := by
  unfold removeClusterFilterRef at h ⊢
  cases hl : refs.lookup filter with
  | none => simp [hl] at h
  | some clients =>
    simp only [hl] at h ⊢
    split_ifs at h ⊢ with hempty
    obtain ⟨row, hrow⟩ := List.exists_mem_of_ne_nil _ (mt List.isEmpty_iff.2 hempty)
    refine ⟨row.1, clients.erase clientID, AList.lookup_insert _, ?_⟩
    exact AList.mem_keys.2 (List.mem_map_of_mem hrow)

/-- The last decision about a filter was to register it exactly if somebody uses it. -/
def Follows (decided : List (Text × Bool)) (refs : FilterRefs) : Prop :=
  ∀ f, Registers decided f ↔ ∃ c, HoldsRef refs c f

namespace Follows

variable {decided : List (Text × Bool)} {refs : FilterRefs}

/-- The first reference to a filter decides to register it; with any other it was in use before. -/
theorem add (h : Follows decided refs) (clientID filter : Text) :
    Follows
      (if (addClusterFilterRef refs clientID filter).2 then decided ++ [(filter, true)]
        else decided)
      (addClusterFilterRef refs clientID filter).1 := by
  intro f
  simp only [holdsRef_addClusterFilterRef, exists_or]
  cases hfirst : (addClusterFilterRef refs clientID filter).2 with
  | true =>
    rw [if_pos rfl, registers_concat]
    split_ifs with hf
    · simp [hf]
    · simp [h f, hf]
  | false =>
    rw [if_neg Bool.false_ne_true, h f]
    refine ⟨Or.inl, fun hor => hor.elim id ?_⟩
    rintro ⟨c, rfl, rfl⟩
    exact exists_holdsRef_of_not_first refs c hfirst

/-- The end of the last reference decides to remove the route. -/
theorem remove (h : Follows decided refs) (clientID filter : Text) :
    Follows
      (if (removeClusterFilterRef refs clientID filter).2 then decided ++ [(filter, false)]
        else decided)
      (removeClusterFilterRef refs clientID filter).1 := by
  intro f
  by_cases hf : f = filter
  · subst hf
    cases hlast : (removeClusterFilterRef refs clientID f).2 with
    | true =>
      rw [if_pos rfl, registers_concat]
      simp [not_holdsRef_of_last refs clientID hlast]
    | false =>
      obtain ⟨c, hc⟩ := exists_holdsRef_of_not_last hlast
      rw [if_neg Bool.false_ne_true, h f]
      exact ⟨fun _ => ⟨c, hc⟩, fun _ => ⟨c, ((holdsRef_removeClusterFilterRef _ _ _ _ _).1 hc).1⟩⟩
  · have hsame : Registers
        (if (removeClusterFilterRef refs clientID filter).2 then decided ++ [(filter, false)]
          else decided) f ↔ Registers decided f := by
      split_ifs
      · rw [registers_concat, if_neg hf]
      · rfl
    rw [hsame, h f]
    simp [holdsRef_removeClusterFilterRef, hf]

theorem removeAll (h : Follows decided refs) (clientID : Text) (filters : List Text) :
    Follows (decided ++ (removeClusterFilterRefs refs clientID filters).2.map (·, false))
      (removeClusterFilterRefs refs clientID filters).1 := by
  induction filters generalizing decided refs with
  | nil => simpa [removeClusterFilterRefs] using h
  | cons filter filters ih =>
    have hrest := ih (h.remove clientID filter)
    simp only [removeClusterFilterRefs]
    cases hlast : (removeClusterFilterRef refs clientID filter).2 with
    | true => simpa [hlast] using hrest
    | false => simpa [hlast] using hrest

end Follows

namespace RefState

variable {s : RefState}

/-- The decisions follow the table, and the store follows the writes. -/
structure Tracks (s : RefState) : Prop where
  decided : Follows s.decided s.refs
  store : ∀ f, f ∈ s.store ↔ Registers s.executed f

private theorem tracks_start : Tracks {} where
  decided f := by simp [Registers, Writes.apply, HoldsRef]
  store f := by simp [Registers, Writes.apply]

theorem Tracks.withClient (h : s.Tracks) (clientID : Text) (entry : ClientEntry) :
    (s.withClient clientID entry).Tracks :=
  ⟨h.decided, h.store⟩

theorem Tracks.withCalls (h : s.Tracks) (clientID : Text) (calls : List HandlerCall) :
    (s.withCalls clientID calls).Tracks :=
  ⟨h.decided, h.store⟩

theorem Tracks.removing (h : s.Tracks) (clientID : Text) (filters : List Text) :
    (s.removing clientID filters).Tracks where
  decided := h.decided.removeAll clientID filters.dedup
  store := h.store

theorem Tracks.adding (h : s.Tracks) (clientID filter : Text) (calls : List HandlerCall) :
    (s.adding clientID filter calls).Tracks where
  decided := h.decided.add clientID filter
  store := h.store

/-- A write sets the route of its filter and no other, in the store and in the list. -/
theorem Tracks.writing (h : s.Tracks) (clientID filter : Text) (registers : Bool)
    (calls : List HandlerCall) : (s.writing clientID filter registers calls).Tracks where
  decided := h.decided
  store f := by
    simp only [RefState.writing, registers_concat, ← h.store f]
    cases registers with
    | true =>
      rw [if_pos rfl]
      split_ifs with hf <;> simp [hf]
    | false =>
      rw [if_neg Bool.false_ne_true]
      split_ifs with hf <;> simp [hf]

private theorem tracks_step (h : s.Tracks) (e : HandlerEvent) : (s.step e).Tracks := by
  cases e with
  | resume clientID filters | subscribe clientID filters accepted =>
    simp only [step]
    split_ifs
    · exact (h.withClient clientID _).withCalls clientID _
    · exact h
  | unsubscribe clientID filters =>
    simp only [step]
    split_ifs
    · exact (h.withClient clientID _).removing clientID filters
    · exact h
  | disconnect clientID =>
    simp only [step]
    split_ifs
    · exact (h.withClient clientID _).removing clientID _
    · exact h
  | advance clientID =>
    simp only [step]
    split
    · exact h
    · exact h.adding clientID _ _
    · exact h.writing clientID _ _ _

/-! ### References of connected clients -/

private theorem client_withClient (s : RefState) (clientID : Text) (entry : ClientEntry)
    (c : Text) :
    (s.withClient clientID entry).client c = if c = clientID then entry else s.client c := by
  simp only [client, withClient, GoMap.lookup_insert]
  split_ifs <;> rfl

theorem calls_withCalls (s : RefState) (clientID : Text) (calls : List HandlerCall) (c : Text) :
    (s.withCalls clientID calls).calls c = if c = clientID then calls else s.calls c := by
  simp only [RefState.calls, withCalls]
  split_ifs with hcalls hc hc
  · rw [hc, AList.lookup_erase, hcalls]
    rfl
  · rw [AList.lookup_erase_ne hc]
  · rw [hc, AList.lookup_insert]
    rfl
  · rw [AList.lookup_insert_ne hc]

/-- The client is connected and has the subscription. -/
def Subscribed (s : RefState) (c f : Text) : Prop :=
  (s.client c).connected = true ∧ f ∈ (s.client c).filters

theorem subscribed_withClient (s : RefState) (clientID : Text) (entry : ClientEntry) (c f : Text) :
    (s.withClient clientID entry).Subscribed c f ↔
      if c = clientID then entry.connected = true ∧ f ∈ entry.filters else s.Subscribed c f := by
  rw [Subscribed, client_withClient]
  split_ifs <;> rfl

/-- References, and calls that will add one, belong to subscriptions of connected clients. -/
structure Owned (s : RefState) : Prop where
  refs : ∀ c f, HoldsRef s.refs c f → s.Subscribed c f
  calls : ∀ c f, .addRef f ∈ s.calls c → s.Subscribed c f

theorem Owned.begin (h : s.Owned) {clientID : Text} {entry : ClientEntry} {filters : List Text}
    (hconnected : entry.connected = true) (hfilters : ∀ f ∈ filters, f ∈ entry.filters)
    (hkeep : ∀ f, s.Subscribed clientID f → f ∈ entry.filters) :
    ((s.withClient clientID entry).withCalls clientID (filters.dedup.map .addRef)).Owned := by
  have hsub {c f : Text} (hold : s.Subscribed c f) :
      (s.withClient clientID entry).Subscribed c f := by
    rw [subscribed_withClient]
    split_ifs with hc
    · exact ⟨hconnected, hkeep f (hc ▸ hold)⟩
    · exact hold
  refine ⟨fun c f hf => hsub (h.refs c f hf), fun c f hf => ?_⟩
  rw [calls_withCalls] at hf
  split_ifs at hf with hc
  · obtain ⟨g, hg, heq⟩ := List.mem_map.1 hf
    cases heq
    refine (subscribed_withClient s clientID entry c f).2 ?_
    rw [if_pos hc]
    exact ⟨hconnected, hfilters f (List.mem_dedup.1 hg)⟩
  · exact hsub (h.calls c f hf)

theorem Owned.removing (h : s.Owned) {clientID : Text} {entry : ClientEntry} {filters : List Text}
    (hkeep : ∀ f, s.Subscribed clientID f → f ∉ filters →
      entry.connected = true ∧ f ∈ entry.filters) :
    ((s.withClient clientID entry).removing clientID filters).Owned := by
  have hother {c : Text} (hc : c ≠ clientID) (f : Text) (hold : s.Subscribed c f) :
      (s.withClient clientID entry).Subscribed c f := by
    rwa [subscribed_withClient, if_neg hc]
  constructor
  · intro c f hf
    obtain ⟨hold, hno⟩ := holdsRef_removeClusterFilterRefs.1 hf
    by_cases hc : c = clientID
    · subst hc
      refine (subscribed_withClient s c entry c f).2 ?_
      rw [if_pos rfl]
      exact hkeep f (h.refs c f hold) fun hmem => hno ⟨rfl, List.mem_dedup.2 hmem⟩
    · exact hother hc f (h.refs c f hold)
  · intro c f hf
    have hf : .addRef f ∈ ((s.withClient clientID entry).withCalls clientID _).calls c := hf
    rw [calls_withCalls] at hf
    split_ifs at hf with hc
    · obtain ⟨g, -, heq⟩ := List.mem_map.1 hf
      cases heq
    · exact hother hc f (h.calls c f hf)

private theorem owned_step (h : s.Owned) (e : HandlerEvent) (he : e.AllAccepted) :
    (s.step e).Owned := by
  cases e with
  | resume clientID filters =>
    simp only [step]
    split_ifs with hguard
    · refine h.begin rfl (fun f hf => hf) fun f hf => ?_
      exact absurd (hguard.2.symm.trans hf.1) Bool.false_ne_true
    · exact h
  | subscribe clientID filters accepted =>
    simp only [step]
    split_ifs with hguard
    · refine h.begin rfl (fun f hf => ?_) fun f hf => List.mem_append_left _ hf.2
      exact List.mem_append_right _ (List.mem_filter.2 ⟨hf, he f hf⟩)
    · exact h
  | unsubscribe clientID filters =>
    simp only [step]
    split_ifs with hguard
    · refine h.removing fun f hf hno => ⟨hf.1, ?_⟩
      exact List.mem_filter.2 ⟨hf.2, by simpa using hno⟩
    · exact h
  | disconnect clientID =>
    simp only [step]
    split_ifs with hguard
    · exact h.removing fun f hf hno => absurd hf.2 hno
    · exact h
  | advance clientID =>
    -- the client stays as it is, and no new call adds a reference
    have hcalls {calls : List HandlerCall} (hsub : ∀ f, .addRef f ∈ calls →
        .addRef f ∈ s.calls clientID) (c f : Text)
        (hf : .addRef f ∈ (s.withCalls clientID calls).calls c) : s.Subscribed c f := by
      rw [calls_withCalls] at hf
      split_ifs at hf with hc
      · exact h.calls c f (hc ▸ hsub f hf)
      · exact h.calls c f hf
    simp only [step]
    split
    · exact h
    · rename_i filter calls heq
      constructor
      · intro c f hf
        rcases (holdsRef_addClusterFilterRef _ _ _ _ _).1 hf with hf | ⟨rfl, rfl⟩
        · exact h.refs c f hf
        · exact h.calls c f (by rw [heq]; exact List.mem_cons_self)
      · refine hcalls fun f hf => ?_
        rw [heq]
        split_ifs at hf
        · exact List.mem_cons_of_mem _ ((List.mem_cons.1 hf).resolve_left nofun)
        · exact List.mem_cons_of_mem _ hf
    · rename_i filter registers calls heq
      refine ⟨h.refs, hcalls fun f hf => ?_⟩
      rw [heq]
      exact List.mem_cons_of_mem _ hf

/-- The writes have the outcome that they would have in the order of the decisions. -/
def InOrder (s : RefState) : Prop :=
  ∀ f, isSharedFilter f = false → (Registers s.executed f ↔ Registers s.decided f)

private theorem consistent_iff (htracks : s.Tracks) (howned : s.Owned) :
    s.Consistent ↔ s.InOrder := by
  have hholds (f : Text) : (∃ c, (s.client c).connected = true ∧ HoldsRef s.refs c f) ↔
      ∃ c, HoldsRef s.refs c f :=
    exists_congr fun c => and_iff_right_of_imp fun hc => (howned.refs c f hc).1
  simp only [Consistent, InOrder, htracks.store, hholds, htracks.decided _]

/-! ### Handlers that do not overlap on a filter -/

/-- No write of the filter is under way. -/
def Free (s : RefState) (f : Text) : Prop := ∀ c b, .write f b ∉ s.calls c

/-- The filters about which an event decides. -/
def decides (s : RefState) : HandlerEvent → List Text
  | .unsubscribe _ filters => filters
  | .disconnect clientID => (s.client clientID).filters
  | .advance clientID =>
    match s.calls clientID with
    | .addRef filter :: _ => [filter]
    | _ => []
  | .resume _ _ | .subscribe _ _ _ => []

/-- Nothing is decided about a filter while a write of it is under way. -/
def NoOverlap (s : RefState) (e : HandlerEvent) : Prop := ∀ f ∈ s.decides e, s.Free f

end RefState

/-- The filter of a write. -/
def HandlerCall.written? : HandlerCall → Option Text
  | addRef _ => none
  | write filter _ => some filter

theorem sublist_removeClusterFilterRefs (refs : FilterRefs) (clientID : Text)
    (filters : List Text) :
    (removeClusterFilterRefs refs clientID filters).2.Sublist filters := by
  induction filters generalizing refs with
  | nil => exact .slnil
  | cons filter filters ih =>
    simp only [removeClusterFilterRefs]
    split_ifs
    · exact (ih _).cons_cons filter
    · exact (ih _).cons filter

theorem registers_append_map (writes : List (Text × Bool)) (filters : List Text) (b : Bool)
    (f : Text) :
    Registers (writes ++ filters.map (·, b)) f ↔
      if f ∈ filters then b = true else Registers writes f := by
  induction filters using List.reverseRecOn with
  | nil => simp
  | append_singleton filters g ih =>
    rw [List.map_append, ← List.append_assoc, List.map_singleton, registers_concat]
    split_ifs with hf hmem hmem
    · rfl
    · simp [hf] at hmem
    · rw [ih, if_pos (by simpa [hf] using hmem)]
    · rw [ih, if_neg fun hg => hmem (List.mem_append_left _ hg)]

namespace RefState

variable {s : RefState}

/-- Without a write under way the last write of a filter is the one that was decided last; with one
it is that one. -/
structure Settled (s : RefState) : Prop where
  free : ∀ f, s.Free f → (Registers s.executed f ↔ Registers s.decided f)
  pending : ∀ c f b, .write f b ∈ s.calls c → (Registers s.decided f ↔ b = true)
  unique : ∀ c c' f b b', .write f b ∈ s.calls c → .write f b' ∈ s.calls c' → c = c'
  nodup : ∀ c, ((s.calls c).filterMap HandlerCall.written?).Nodup

variable {calls : List HandlerCall} {clientID : Text}

theorem mem_written_iff {f : Text} :
    f ∈ calls.filterMap HandlerCall.written? ↔ ∃ b, .write f b ∈ calls := by
  rw [List.mem_filterMap]
  constructor
  · rintro ⟨_ | ⟨g, b⟩, hcall, heq⟩
    · cases heq
    · cases heq
      exact ⟨b, hcall⟩
  · rintro ⟨b, hb⟩
    exact ⟨_, hb, rfl⟩

private theorem free_iff {f : Text} :
    s.Free f ↔ ∀ c calls, s.handlers.lookup c = some calls →
      f ∉ calls.filterMap HandlerCall.written? := by
  simp only [mem_written_iff, not_exists]
  constructor
  · intro h c calls hcalls b hb
    exact h c b (by rwa [RefState.calls, hcalls])
  · intro h c b hb
    rw [RefState.calls] at hb
    cases hcalls : s.handlers.lookup c with
    | none => simp [hcalls] at hb
    | some calls =>
      rw [hcalls] at hb
      exact h c calls hcalls b hb

instance (f : Text) : Decidable (s.Free f) := decidable_of_iff _ free_iff.symm

instance (e : HandlerEvent) : Decidable (s.NoOverlap e) :=
  inferInstanceAs (Decidable (∀ f ∈ s.decides e, s.Free f))

theorem Settled.decide {s' : RefState} (h : s.Settled) (clientID : Text) (new : List Text)
    (b : Bool)
    (hnew : ∀ f ∈ new, s.Free f) (hexecuted : s'.executed = s.executed)
    (hdecided : s'.decided = s.decided ++ new.map (·, b))
    (hcalls : ∀ c f b', .write f b' ∈ s'.calls c ↔
      .write f b' ∈ s.calls c ∨ (c = clientID ∧ f ∈ new ∧ b' = b))
    (hnodup : ∀ c, ((s'.calls c).filterMap HandlerCall.written?).Nodup) : s'.Settled where
  free f hfree := by
    have hold : s.Free f := fun c b' hb' => hfree c b' ((hcalls c f b').2 (Or.inl hb'))
    have hno : f ∉ new := fun hf => hfree clientID b ((hcalls _ _ _).2 (Or.inr ⟨rfl, hf, rfl⟩))
    rw [hexecuted, hdecided, registers_append_map, if_neg hno]
    exact h.free f hold
  pending c f b' hb' := by
    rw [hdecided, registers_append_map]
    rcases (hcalls c f b').1 hb' with hold | ⟨rfl, hf, rfl⟩
    · rw [if_neg fun hf => hnew f hf c b' hold]
      exact h.pending c f b' hold
    · rw [if_pos hf]
  unique c c' f b₁ b₂ h₁ h₂ := by
    rcases (hcalls c f b₁).1 h₁ with hold | ⟨rfl, hf, -⟩ <;>
      rcases (hcalls c' f b₂).1 h₂ with hold' | ⟨rfl, hf', -⟩
    · exact h.unique c c' f b₁ b₂ hold hold'
    · exact absurd hold (hnew f hf' c b₁)
    · exact absurd hold' (hnew f hf c' b₂)
    · rfl
  nodup := hnodup

theorem Settled.begin (h : s.Settled) (hidle : s.calls clientID = []) (entry : ClientEntry)
    (filters : List Text) :
    ((s.withClient clientID entry).withCalls clientID (filters.map .addRef)).Settled := by
  refine h.decide clientID [] true nofun rfl (List.append_nil _).symm (fun c f b' => ?_) fun c => ?_
  · rw [calls_withCalls]
    split_ifs with hc
    · simp [hc, hidle]
    · simp only [List.not_mem_nil, false_and, and_false, or_false]
      rfl
  · rw [calls_withCalls]
    split_ifs
    · have hempty : (filters.map HandlerCall.addRef).filterMap HandlerCall.written? = [] := by
        simp [HandlerCall.written?]
      rw [hempty]
      exact List.nodup_nil
    · exact h.nodup c

theorem Settled.removing (h : s.Settled) (hidle : s.calls clientID = []) (entry : ClientEntry)
    {filters : List Text} (hfree : ∀ f ∈ filters, s.Free f) :
    ((s.withClient clientID entry).removing clientID filters).Settled := by
  have hsub := sublist_removeClusterFilterRefs s.refs clientID filters.dedup
  set new := (removeClusterFilterRefs s.refs clientID filters.dedup).2 with hnew
  have hcalls (c : Text) : ((s.withClient clientID entry).removing clientID filters).calls c =
      if c = clientID then new.map (.write · false) else s.calls c := calls_withCalls _ clientID _ c
  refine h.decide clientID new false (fun f hf => ?_) rfl rfl (fun c f b' => ?_) fun c => ?_
  · exact hfree f (List.mem_dedup.1 (hsub.subset hf))
  · rw [hcalls]
    split_ifs with hc
    · simp [hc, hidle]
    · simp [hc]
  · rw [hcalls]
    split_ifs
    · have hwritten :
          (new.map (HandlerCall.write · false)).filterMap HandlerCall.written? = new := by
        simp [Function.comp_def, HandlerCall.written?]
      rw [hwritten]
      exact hsub.nodup (List.nodup_dedup filters)
    · exact h.nodup c

/-- A reference is added. -/
theorem Settled.adding (h : s.Settled) {filter : Text}
    (heq : s.calls clientID = .addRef filter :: calls) (hfree : s.Free filter) :
    (s.adding clientID filter calls).Settled := by
  have hwrites (f : Text) (b : Bool) : .write f b ∈ s.calls clientID ↔ .write f b ∈ calls := by
    simp [heq]
  have hnodup : (calls.filterMap HandlerCall.written?).Nodup := by
    have := h.nodup clientID
    rwa [heq] at this
  have hcalls (c : Text) : (s.adding clientID filter calls).calls c = if c = clientID then
      (if (addClusterFilterRef s.refs clientID filter).2 then .write filter true :: calls
        else calls)
      else s.calls c := calls_withCalls _ clientID _ c
  cases hfirst : (addClusterFilterRef s.refs clientID filter).2 with
  | true =>
    refine h.decide clientID [filter] true (by simpa using hfree) rfl ?_ (fun c f b' => ?_)
      fun c => ?_
    · simp [RefState.adding, hfirst]
    · rw [hcalls]
      split_ifs with hc
      · simp [hc, hwrites, or_comm]
      · simp [hc]
    · rw [hcalls]
      split_ifs
      · refine List.nodup_cons.2 ⟨fun hmem => ?_, hnodup⟩
        obtain ⟨b, hb⟩ := mem_written_iff.1 hmem
        exact hfree clientID b ((hwrites filter b).2 hb)
      · exact h.nodup c
  | false =>
    simp only [hfirst, Bool.false_eq_true, if_false] at hcalls
    refine h.decide clientID [] true nofun rfl ?_ (fun c f b' => ?_) fun c => ?_
    · simp [RefState.adding, hfirst]
    · rw [hcalls]
      split_ifs with hc
      · simp [hc, hwrites]
      · simp
    · rw [hcalls]
      split_ifs
      · exact hnodup
      · exact h.nodup c

/-- A write is made. -/
theorem Settled.writing (h : s.Settled) {filter : Text} {b : Bool}
    (heq : s.calls clientID = .write filter b :: calls) :
    (s.writing clientID filter b calls).Settled := by
  have hcalls (c : Text) : (s.writing clientID filter b calls).calls c =
      if c = clientID then calls else s.calls c := calls_withCalls s clientID calls c
  have hself : .write filter b ∈ s.calls clientID := by simp [heq]
  have hsub {c f : Text} {b' : Bool}
      (hb' : .write f b' ∈ (s.writing clientID filter b calls).calls c) :
      .write f b' ∈ s.calls c := by
    rw [hcalls] at hb'
    split_ifs at hb' with hc
    · rw [hc, heq]
      exact List.mem_cons_of_mem _ hb'
    · exact hb'
  have hnodup : (filter :: calls.filterMap HandlerCall.written?).Nodup := by
    have := h.nodup clientID
    rwa [heq] at this
  constructor
  · intro f hfree
    by_cases hf : f = filter
    · subst hf
      simp only [RefState.writing, registers_concat]
      exact (h.pending clientID f b hself).symm
    · have hold : s.Free f := by
        intro c b' hb'
        refine hfree c b' ?_
        rw [hcalls]
        split_ifs with hc
        · rw [hc, heq] at hb'
          refine (List.mem_cons.1 hb').resolve_left fun hcall => hf ?_
          cases hcall
          rfl
        · exact hb'
      simp only [RefState.writing, registers_concat, if_neg hf]
      exact h.free f hold
  · exact fun c f b' hb' => h.pending c f b' (hsub hb')
  · exact fun c c' f b₁ b₂ h₁ h₂ => h.unique c c' f b₁ b₂ (hsub h₁) (hsub h₂)
  · intro c
    rw [hcalls]
    split_ifs
    · exact (List.nodup_cons.1 hnodup).2
    · exact h.nodup c

theorem settled_step (h : s.Settled) (e : HandlerEvent) (he : s.NoOverlap e) :
    (s.step e).Settled := by
  cases e with
  | resume clientID filters | subscribe clientID filters accepted =>
    simp only [step]
    split_ifs with hguard
    · exact h.begin hguard.1 _ _
    · exact h
  | unsubscribe clientID filters =>
    simp only [step]
    split_ifs with hguard
    · exact h.removing hguard _ he
    · exact h
  | disconnect clientID =>
    simp only [step]
    split_ifs with hguard
    · exact h.removing hguard.1 _ he
    · exact h
  | advance clientID =>
    simp only [step]
    split
    · exact h
    · rename_i filter calls heq
      refine h.adding heq (he filter ?_)
      simp [decides, heq]
    · rename_i filter b calls heq
      exact h.writing heq

private theorem calls_eq_nil_of_quiet (h : s.Quiet) (c : Text) : s.calls c = [] := by
  have hlookup : s.handlers.lookup c = none := by
    refine AList.lookup_eq_none.2 ?_
    rw [AList.mem_keys, AList.keys, h]
    exact List.not_mem_nil
  rw [RefState.calls, hlookup]
  rfl

theorem inOrder_of_noOverlap {es : List HandlerEvent}
    (hok : Along step NoOverlap {} es) :
    Always step (fun s => s.Quiet → s.InOrder) {} es := by
  have hstart : Settled {} := by
    constructor
    · intro f _
      exact Iff.rfl
    · intro c f b hb
      cases hb
    · intro c c' f b b' hb
      cases hb
    · intro c
      exact List.nodup_nil
  refine (always_of_along (fun s e => settled_step (e := e)) hstart hok).imp ?_
  intro s h hquiet f _
  refine h.free f fun c b hb => ?_
  rw [calls_eq_nil_of_quiet hquiet c] at hb
  cases hb

/-! ### The table and the store -/

/-- Let every filter be accepted. If nothing is decided about a filter while a write of it is under
way, then whenever no handler is in progress the store has an ordinary filter exactly if a connected
client holds a reference to it. More exactly, this is so in the runs in which the writes have had
the outcome that they would have in the order of the decisions. -/
theorem always_consistent_of_noOverlap {es : List HandlerEvent}
    (haccepted : ∀ e ∈ es, e.AllAccepted) :
    (Along step NoOverlap {} es → Always step (fun s => s.Quiet → s.Consistent) {} es) ∧
      (Always step (fun s => s.Quiet → s.Consistent) {} es ↔
        Always step (fun s => s.Quiet → s.InOrder) {} es) := by
  have howned : Owned {} := by
    constructor
    · rintro c f ⟨clients, hlookup, -⟩
      cases hlookup
    · intro c f hf
      cases hf
  have hinv := always_of_along (I := fun s : RefState => s.Tracks ∧ s.Owned)
    (fun s e h he => ⟨tracks_step h.1 e, owned_step h.2 e he⟩) ⟨tracks_start, howned⟩
    (along_of_forall haccepted _)
  have hiff : Always step (fun s => s.Quiet → s.Consistent) {} es ↔
      Always step (fun s => s.Quiet → s.InOrder) {} es :=
    hinv.congr fun s h => imp_congr_right fun _ => consistent_iff h.1 h.2
  exact ⟨fun hok => hiff.2 (inOrder_of_noOverlap hok), hiff⟩

instance (refs : FilterRefs) (c f : Text) : Decidable (HoldsRef refs c f) :=
  decidable_of_iff (c ∈ (refs.lookup f).getD ∅) <| by
    unfold HoldsRef
    cases refs.lookup f with
    | none => simp
    | some clients => simp

/-- Two clients subscribe to `f` and unsubscribe from it one after the other; then `a`, the last
user, removes the route while `b`, the next first user, registers it. The write of `b` comes first.
-/
def raced : List HandlerEvent :=
  [.resume ['a'] [], .resume ['b'] [], .subscribe ['a'] [['f']] fun _ => true, .advance ['a'],
    .advance ['a'], .unsubscribe ['a'] [['f']], .subscribe ['b'] [['f']] fun _ => true,
    .advance ['b'], .advance ['b'], .advance ['a']]

/-- A client whose only filter is refused disconnects. -/
def refused : List HandlerEvent :=
  [.resume ['a'] [], .subscribe ['a'] [['f']] fun _ => false, .advance ['a'], .advance ['a'],
    .disconnect ['a']]

/-- After the race `b` holds a reference and has no route, although every filter was accepted. A
client whose filter was refused leaves a route behind, without any race. -/
theorem not_always_consistent_raced :
    (∀ e ∈ raced, e.AllAccepted) ∧
      ¬ Always step (fun s => s.Quiet → s.Consistent) {} raced ∧
      ¬ Always step (fun s => s.Quiet → s.Consistent) {} refused := by
  refine ⟨by simp [raced, HandlerEvent.AllAccepted], fun h => ?_, fun h => ?_⟩
  · have hlost := h.last (by decide +kernel) ['f'] (by decide +kernel)
    exact absurd (hlost.2 ⟨['b'], by decide +kernel⟩) (by decide +kernel)
  · have hleft := h.last (by decide +kernel) ['f'] (by decide +kernel)
    obtain ⟨c, hconnected, -⟩ := hleft.1 (by decide +kernel)
    have hnone : ∀ c entry, (run step {} refused).clients.lookup c = some entry →
        entry.connected = false := by decide +kernel
    rw [client] at hconnected
    cases hc : (run step {} refused).clients.lookup c with
    | none => simp [hc] at hconnected
    | some entry =>
      rw [hc, Option.getD_some, hnone c entry hc] at hconnected
      cases hconnected

/-- Two clients that use `f` one after the other. -/
def calm : List HandlerEvent :=
  [.resume ['a'] [['f']], .advance ['a'], .advance ['a'], .disconnect ['a'], .advance ['a'],
    .resume ['b'] [], .subscribe ['b'] [['f']] fun _ => true, .advance ['b'], .advance ['b']]

theorem always_consistent_calm :
    Always step (fun s => s.Quiet → s.Consistent) {} calm := by
  refine (always_consistent_of_noOverlap ?_).1 ?_
  · simp [calm, HandlerEvent.AllAccepted]
  · decide +kernel

end RefState

end KeelGateway.Broker
