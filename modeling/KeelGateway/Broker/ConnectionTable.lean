import KeelGateway.Broker.AclCheck
import KeelGateway.Mochi.ClientLifetime
import Mathlib.Data.Finset.Card

/-!
# Connections and the tables of the gateway hook

The gateway hook keeps, under one lock, the identity of every authenticated client, a generation for
every client ID and a number of connections for every tenant. A CONNECT is booked in all three
before the session is claimed in the cluster. The booking is taken back by the branch of the claim
that fails, or by the disconnect hook. The broker calls these in the course of a connection, for
many connections side by side, and does not call the disconnect hook for a connection that fails
while it is attached.

The connections do not read the tables: what a connection does next depends on its own phase and on
the table of clients of the broker. So the model has two parts, the connections with the calls that
they make, and the tables with the effect of each call. A CONNECT that is refused leaves no trace
and is no event.

-/

namespace KeelGateway

/-! ### Counting values -/

namespace GoMap

variable {K V : Type} [DecidableEq K] {p q : V → Bool} {m m' : GoMap K V}

/-- The number of keys whose value has a property. -/
def tally (p : V → Bool) (m : GoMap K V) : ℕ :=
  (m.keys.toFinset.filter fun k => (m.lookup k).any p).card

variable {k : K}

theorem mem_tally :
    k ∈ m.keys.toFinset.filter (fun k => (m.lookup k).any p) ↔ (m.lookup k).any p = true := by
  rw [Finset.mem_filter, List.mem_toFinset, and_iff_right_iff_imp]
  intro hany
  rw [← AList.mem_keys, ← AList.lookup_isSome]
  obtain ⟨v, hv, -⟩ := (Option.any_eq_true _ _).1 hany
  rw [hv, Option.isSome_some]

theorem tally_congr (h : ∀ k, (m.lookup k).any p = (m'.lookup k).any q) :
    tally p m = tally q m' :=
  congrArg Finset.card (Finset.ext fun k => by rw [mem_tally, mem_tally, h])

theorem tally_mono (h : ∀ k, (m.lookup k).any p = true → (m'.lookup k).any q = true) :
    tally p m ≤ tally q m' :=
  Finset.card_le_card fun k hk => mem_tally.2 (h k (mem_tally.1 hk))

/-- One key more. -/
theorem tally_eq_add_one (hk : (m.lookup k).any p = false) (hk' : (m'.lookup k).any q = true)
    (h : ∀ j, j ≠ k → (m.lookup j).any p = (m'.lookup j).any q) : tally q m' = tally p m + 1 := by
  have hnotMem : k ∉ m.keys.toFinset.filter fun k => (m.lookup k).any p := by
    rw [mem_tally, hk]
    exact Bool.false_ne_true
  rw [tally, tally, ← Finset.card_insert_of_notMem hnotMem]
  congr 1
  ext j
  rw [Finset.mem_insert, mem_tally, mem_tally]
  by_cases hj : j = k
  · subst hj
    simp [hk']
  · simp [hj, h j hj]

private theorem tally_pos (hk : (m.lookup k).any p = true) : 0 < tally p m :=
  Finset.card_pos.2 ⟨k, mem_tally.2 hk⟩

end GoMap

namespace Broker

open Mochi

/-! ### The tables -/

/-- `clientState` with the fields that tell connections of one client ID apart. -/
structure TrackedClient extends ClientState where
  client : ℕ
  generation : ℕ
  deriving DecidableEq

/-- The tenant, as a key of the counters. -/
def ClientState.tenantStr (state : ClientState) : Text := state.info.tenantID.string

/-- The tables under the lock of the gateway hook. -/
structure HookTables where
  clients : GoMap Text TrackedClient := ∅
  generation : GoMap Text ℕ := ∅
  tenantConns : GoMap Text ℕ := ∅

/-- The critical sections of the hook. -/
inductive TableCall where
  /-- `OnConnectAuthenticate`, for a CONNECT that is not refused. -/
  | booked (client : ℕ) (clientID : Text) (state : ClientState)
  | claimFailed (clientID tenantStr : Text)
  | disconnected (client : ℕ) (clientID : Text) (cleanup : Bool)
  | expired (client : ℕ) (clientID : Text)

/-- The client ID that a call is about. -/
def TableCall.clientID : TableCall → Text
  | booked _ clientID _ | claimFailed clientID _ | disconnected _ clientID _
  | expired _ clientID => clientID

/-- What a call makes of the identity and the generation of its client ID. -/
def TableCall.onEntry (x : Option TrackedClient × Option ℕ) :
    TableCall → Option TrackedClient × Option ℕ
  | booked client _ state => (some ⟨state, client, x.2.getD 0 + 1⟩, some (x.2.getD 0 + 1))
  | claimFailed _ _ => (none, x.2)
  | disconnected client _ cleanup =>
    match x.1 with
    | none => x
    | some state =>
      if state.client = client ∧ state.generation = x.2.getD 0 then
        if cleanup then (none, none) else x
      else x
  | expired client _ =>
    match x.1 with
    | none => x
    | some state => if state.client = client then (none, none) else x

namespace HookTables

/-- The generation of a client ID, zero if there is none. -/
def gen (h : HookTables) (clientID : Text) : ℕ := (h.generation.lookup clientID).getD 0

/-- The counter of a tenant, zero if there is none. -/
def conns (h : HookTables) (tenantStr : Text) : ℕ := (h.tenantConns.lookup tenantStr).getD 0

/-- The check of `MaxConnections` in `OnConnectAuthenticate`. There is no maximum if the
configuration of the tenant could not be loaded. -/
def rateLimited (h : HookTables) (tenantStr : Text) (maxConnections : Option ℤ) : Bool :=
  match maxConnections with
  | none => false
  | some m => decide (0 < m) && decide (m ≤ h.conns tenantStr)

/-- A counter goes down, unless it is zero. -/
def release (h : HookTables) (tenantStr : Text) : HookTables :=
  if 0 < h.conns tenantStr then
    { h with tenantConns := h.tenantConns.insert tenantStr (h.conns tenantStr - 1) }
  else h

/-- Identity and generation of a client ID are deleted. -/
def forget (h : HookTables) (clientID : Text) : HookTables :=
  { h with clients := h.clients.erase clientID, generation := h.generation.erase clientID }

/-- The bookkeeping of `OnConnectAuthenticate`. -/
def booked (h : HookTables) (client : ℕ) (clientID : Text) (state : ClientState) : HookTables where
  clients := h.clients.insert clientID ⟨state, client, h.gen clientID + 1⟩
  generation := h.generation.insert clientID (h.gen clientID + 1)
  tenantConns := h.tenantConns.insert state.tenantStr (h.conns state.tenantStr + 1)

/-- The branch of `claimClusterSession` that takes the bookkeeping back. -/
def claimFailed (h : HookTables) (clientID tenantStr : Text) : HookTables :=
  { h.release tenantStr with clients := h.clients.erase clientID }

/-- The critical section of `OnDisconnect`. -/
def disconnected (h : HookTables) (client : ℕ) (clientID : Text) (cleanup : Bool) : HookTables :=
  match h.clients.lookup clientID with
  | none => h
  | some state =>
    if state.client = client ∧ state.generation = h.gen clientID then
      if cleanup then (h.release state.tenantStr).forget clientID else h.release state.tenantStr
    else h

/-- The critical section of `OnClientExpired`. -/
def expired (h : HookTables) (client : ℕ) (clientID : Text) : HookTables :=
  match h.clients.lookup clientID with
  | none => h
  | some state => if state.client = client then h.forget clientID else h

/-- The effect of a call. -/
def apply (h : HookTables) : TableCall → HookTables
  | .booked client clientID state => h.booked client clientID state
  | .claimFailed clientID tenantStr => h.claimFailed clientID tenantStr
  | .disconnected client clientID cleanup => h.disconnected client clientID cleanup
  | .expired client clientID => h.expired client clientID

/-- Identity and generation of a client ID. -/
def entry (h : HookTables) (clientID : Text) : Option TrackedClient × Option ℕ :=
  (h.clients.lookup clientID, h.generation.lookup clientID)

section Fields

variable (h : HookTables) (clientID tenantStr : Text)

theorem entry_release (id : Text) : (h.release tenantStr).entry id = h.entry id := by
  unfold release
  split_ifs <;> rfl

theorem entry_forget (id : Text) :
    (h.forget clientID).entry id = if id = clientID then (none, none) else h.entry id := by
  rw [entry, forget, GoMap.lookup_erase, GoMap.lookup_erase]
  split_ifs <;> rfl

theorem conns_release (t : Text) :
    (h.release tenantStr).conns t = if t = tenantStr then h.conns t - 1 else h.conns t := by
  unfold release
  split_ifs with hpos heq heq
  · subst heq
    simp [conns]
  · simp [conns, heq]
  · subst heq
    omega
  · rfl

theorem conns_release_of_pos (hpos : 0 < h.conns tenantStr) (t : Text) :
    h.conns t = (h.release tenantStr).conns t + if t = tenantStr then 1 else 0 := by
  rw [conns_release]
  split_ifs with heq
  · subst heq
    omega
  · rfl

theorem conns_booked (client : ℕ) (state : ClientState) (t : Text) :
    (h.booked client clientID state).conns t =
      h.conns t + if t = state.tenantStr then 1 else 0 := by
  by_cases heq : t = state.tenantStr
  · subst heq
    simp [booked, conns]
  · simp [booked, conns, heq]

@[simp] theorem conns_forget (t : Text) : (h.forget clientID).conns t = h.conns t := rfl

theorem lookup_booked (client : ℕ) (state : ClientState) :
    (h.booked client clientID state).clients.lookup clientID =
      some ⟨state, client, h.gen clientID + 1⟩ := AList.lookup_insert _

theorem generation_booked (client : ℕ) (state : ClientState) :
    (h.booked client clientID state).generation.lookup clientID = some (h.gen clientID + 1) :=
  AList.lookup_insert _

theorem lookup_claimFailed : (h.claimFailed clientID tenantStr).clients.lookup clientID = none :=
  AList.lookup_erase _ _

theorem generation_claimFailed (id : Text) :
    (h.claimFailed clientID tenantStr).generation.lookup id = h.generation.lookup id :=
  congrArg Prod.snd (h.entry_release tenantStr id)

@[simp] theorem conns_claimFailed (t : Text) :
    (h.claimFailed clientID tenantStr).conns t = (h.release tenantStr).conns t := rfl

end Fields

/-- The connection is the one that the client ID stands for. -/
def Tracks (h : HookTables) (client : ℕ) (clientID : Text) : Prop :=
  ∃ state, h.clients.lookup clientID = some state ∧ state.client = client

/-- The generation of an entry is the one of its client ID. So the check of the generation in
`OnDisconnect` never decides. -/
def Current (h : HookTables) : Prop :=
  ∀ clientID state, h.clients.lookup clientID = some state →
    h.generation.lookup clientID = some state.generation

section Cases

variable {h : HookTables} {client : ℕ} {clientID : Text} {state : TrackedClient}

theorem disconnected_of_lookup (hcurrent : h.Current)
    (hlookup : h.clients.lookup clientID = some state) (hclient : state.client = client)
    (cleanup : Bool) :
    h.disconnected client clientID cleanup =
      if cleanup then (h.release state.tenantStr).forget clientID
      else h.release state.tenantStr := by
  have hgen : state.generation = h.gen clientID := by
    rw [gen, hcurrent clientID state hlookup, Option.getD_some]
  simp only [disconnected, hlookup, hclient, hgen, and_self, if_true]

theorem disconnected_of_not_tracks (h' : ¬ h.Tracks client clientID) (cleanup : Bool) :
    h.disconnected client clientID cleanup = h := by
  unfold disconnected
  split
  · rfl
  · next state hlookup => rw [if_neg fun hcheck => h' ⟨state, hlookup, hcheck.1⟩]

theorem expired_of_tracks (h' : h.Tracks client clientID) :
    h.expired client clientID = h.forget clientID := by
  obtain ⟨state, hlookup, hclient⟩ := h'
  simp only [expired, hlookup, hclient, if_true]

theorem expired_of_not_tracks (h' : ¬ h.Tracks client clientID) :
    h.expired client clientID = h := by
  unfold expired
  split
  · rfl
  · next state hlookup => rw [if_neg fun hclient => h' ⟨state, hlookup, hclient⟩]

theorem entry_apply_self (h : HookTables) (call : TableCall) :
    (h.apply call).entry call.clientID = call.onEntry (h.entry call.clientID) := by
  have hlookup (id : Text) : (h.entry id).1 = h.clients.lookup id := rfl
  have hgen (id : Text) : (h.entry id).2.getD 0 = h.gen id := rfl
  cases call with
  | booked client id state =>
    exact Prod.ext (AList.lookup_insert h.clients) (AList.lookup_insert h.generation)
  | claimFailed id tenantStr =>
    exact Prod.ext (h.lookup_claimFailed id tenantStr) (h.generation_claimFailed id tenantStr id)
  | disconnected client id cleanup =>
    rw [apply, disconnected, TableCall.clientID, TableCall.onEntry, hgen, hlookup]
    cases h.clients.lookup id with
    | none => rfl
    | some state =>
      dsimp only
      split_ifs
      · rw [entry_forget, if_pos rfl]
      · exact h.entry_release _ id
      · rfl
  | expired client id =>
    rw [apply, expired, TableCall.clientID, TableCall.onEntry, hlookup]
    cases h.clients.lookup id with
    | none => rfl
    | some state =>
      dsimp only
      split_ifs
      · rw [entry_forget, if_pos rfl]
      · rfl

variable {call : TableCall} {i a : ℕ}

theorem entry_apply_of_ne (hid : clientID ≠ call.clientID) :
    (h.apply call).entry clientID = h.entry clientID := by
  cases call with
  | booked client id state =>
    exact Prod.ext (AList.lookup_insert_ne hid) (AList.lookup_insert_ne hid)
  | claimFailed id tenantStr =>
    exact Prod.ext (AList.lookup_erase_ne hid) (h.generation_claimFailed id tenantStr clientID)
  | disconnected client id cleanup =>
    rw [TableCall.clientID] at hid
    rw [apply, disconnected]
    split
    · rfl
    · split_ifs
      · rw [entry_forget, if_neg hid, entry_release]
      · exact h.entry_release _ clientID
      · rfl
  | expired client id =>
    rw [TableCall.clientID] at hid
    rw [apply, expired]
    split
    · rfl
    · split_ifs
      · rw [entry_forget, if_neg hid]
      · rfl

theorem entry_apply_of_lookup (hlookup : (h.apply call).clients.lookup clientID = some state) :
    (h.apply call).entry clientID = h.entry clientID ∨
      ∃ i newState, call = .booked i clientID newState := by
  by_cases hid : clientID = call.clientID
  · subst hid
    have hself := h.entry_apply_self call
    have hfound : (call.onEntry (h.entry call.clientID)).1 = some state := by
      rw [← hself]
      exact hlookup
    rw [hself]
    cases call with
    | booked i id newState => exact Or.inr ⟨i, newState, rfl⟩
    | claimFailed id tenantStr => cases hfound
    | disconnected i id _ | expired i id =>
      left
      revert hfound
      rw [TableCall.onEntry]
      split
      · exact fun _ => rfl
      · split_ifs <;> simp
  · exact Or.inl (entry_apply_of_ne hid)

theorem tracks_unique {j : ℕ} (hi : h.Tracks i clientID) (hj : h.Tracks j clientID) : i = j := by
  obtain ⟨x, hx, rfl⟩ := hi
  obtain ⟨y, hy, rfl⟩ := hj
  rw [hx, Option.some.injEq] at hy
  rw [hy]

/-- Only a booking makes an entry. -/
theorem tracks_of_apply (hcall : ∀ i id state, call ≠ .booked i id state)
    (htracks : (h.apply call).Tracks a clientID) : h.Tracks a clientID := by
  obtain ⟨tracked, hlookup, hclient⟩ := htracks
  rcases entry_apply_of_lookup hlookup with heq | ⟨i, state, heq⟩
  · exact ⟨tracked, (congrArg Prod.fst heq).symm.trans hlookup, hclient⟩
  · exact absurd heq (hcall i clientID state)

theorem tracks_disconnected_iff (hai : a ≠ i) (cleanup : Bool) :
    (h.disconnected i clientID cleanup).Tracks a clientID ↔ h.Tracks a clientID := by
  refine ⟨@tracks_of_apply h clientID (.disconnected i clientID cleanup) a (by simp), ?_⟩
  intro htracks
  rwa [disconnected_of_not_tracks fun hi => hai (tracks_unique htracks hi)]

theorem tracks_expired_iff :
    (h.expired i clientID).Tracks a clientID ↔ h.Tracks a clientID ∧ a ≠ i := by
  constructor
  · intro htracks
    refine ⟨@tracks_of_apply h clientID (.expired i clientID) a (by simp) htracks, ?_⟩
    rintro rfl
    by_cases hi : h.Tracks a clientID
    · obtain ⟨tracked, hlookup, -⟩ := htracks
      rw [expired_of_tracks hi, forget, AList.lookup_erase] at hlookup
      cases hlookup
    · rw [expired_of_not_tracks hi] at htracks
      exact hi htracks
  · rintro ⟨htracks, hai⟩
    rwa [expired_of_not_tracks fun hi => hai (tracks_unique htracks hi)]

private theorem current_apply (hcurrent : h.Current) (call : TableCall) :
    (h.apply call).Current := by
  intro clientID state hlookup
  rcases entry_apply_of_lookup hlookup with heq | ⟨i, newState, rfl⟩
  · refine (congrArg Prod.snd heq).trans (hcurrent clientID state ?_)
    exact (congrArg Prod.fst heq).symm.trans hlookup
  · have hself := h.entry_apply_self (.booked i clientID newState)
    rw [← Option.some.inj ((congrArg Prod.fst hself).symm.trans hlookup)]
    exact congrArg Prod.snd hself

@[simp] theorem conns_expired (h : HookTables) (client : ℕ) (clientID t : Text) :
    (h.expired client clientID).conns t = h.conns t := by
  by_cases htracks : h.Tracks client clientID
  · rw [expired_of_tracks htracks, conns_forget]
  · rw [expired_of_not_tracks htracks]

private theorem conns_disconnected (hcurrent : h.Current)
    (hlookup : h.clients.lookup clientID = some state) (hclient : state.client = client)
    (cleanup : Bool) (t : Text) :
    (h.disconnected client clientID cleanup).conns t = (h.release state.tenantStr).conns t := by
  rw [disconnected_of_lookup hcurrent hlookup hclient]
  cases cleanup <;> rfl

end Cases

end HookTables

/-! ### Connections -/

/-- How far `attachClient` has come with a connection whose CONNECT has been booked. -/
inductive ConnectionPhase where
  | claiming
  | authenticated
  | acknowledging
  | attached
  | leaving
  | ended
  deriving DecidableEq

/-- The booking stands for a connection that has not come to its end. -/
def ConnectionPhase.holds : ConnectionPhase → Bool
  | claiming | authenticated | acknowledging | attached => true
  | leaving | ended => false

/-- A client object with a connection. -/
structure BookedConnection where
  clientID : Text
  state : ClientState
  phase : ConnectionPhase := .claiming
  stop : Option StopCause := none
  takenOver : Bool := false
  expire : Bool := false
  /-- `OnClientExpired` has been called for the client object. The program does not store this. -/
  swept : Bool := false
  deriving DecidableEq

/-- `Client.Stop`: only the first call counts. -/
def BookedConnection.stopped (x : BookedConnection) (cause : StopCause) : BookedConnection :=
  { x with stop := x.stop.or (some cause) }

/-- What the connections of a node share. -/
structure Attachments where
  /-- The table of clients of the broker. An entry without a number is a client object without a
  connection. -/
  server : GoMap Text (Option ℕ) := ∅
  connections : GoMap ℕ BookedConnection := ∅

/-- What happens to the connections of a node. -/
inductive ConnectionEvent where
  /-- A CONNECT that authenticates and is not refused, up to the end of the bookkeeping. -/
  | connect (i : ℕ) (clientID : Text) (state : ClientState)
  | claimed (i : ℕ)
  | claimFailed (i : ℕ)
  /-- `inheritClientSession` and `Clients.Add`. -/
  | establish (i : ℕ)
  | acknowledge (i : ℕ)
  /-- One of them could not be sent: `attachClient` returns without `OnDisconnect`. -/
  | attachFail (i : ℕ)
  /-- A network error, a DISCONNECT, an eviction or whatever else stops a client object of the
  table. -/
  | stop (i : ℕ) (cause : StopCause)
  /-- The read loop of a stopped connection returns, up to the end of the critical section of
  `OnDisconnect`. -/
  | disconnect (i : ℕ) (expire : Bool)
  /-- `OnDisconnect` has returned, and the broker deletes the client object if its session ends. -/
  | finish (i : ℕ)
  | expire (i : ℕ)
  /-- A client object without a connection is put into the table: a session read from the store. -/
  | restore (clientID : Text)
  | expireRestored (clientID : Text)

/-- The connection of an event. -/
def ConnectionEvent.connection : ConnectionEvent → Option ℕ
  | connect i _ _ | claimed i | claimFailed i | establish i | acknowledge i | attachFail i
  | stop i _ | disconnect i _ | finish i | expire i => some i
  | restore _ | expireRestored _ => none

namespace Attachments

/-- A connection is exchanged. -/
def put (l : Attachments) (i : ℕ) (x : BookedConnection) : Attachments :=
  { l with connections := l.connections.insert i x }

/-- The connection, if it is in a phase. -/
def inPhase (l : Attachments) (i : ℕ) (phase : ConnectionPhase) : Option BookedConnection :=
  (l.connections.lookup i).filter (·.phase = phase)

/-- `inheritClientSession`: the connection in the table is stopped and marked. -/
def takeOver (l : Attachments) (clientID : Text) : Attachments :=
  match l.server.lookup clientID with
  | some (some j) =>
    match l.connections.lookup j with
    | some y => l.put j { y.stopped .sessionTakenOver with takenOver := true }
    | none => l
  | _ => l

/-- The connections after an event and the call of the hook that it makes. There is no next state if
the event cannot happen. -/
def advance (l : Attachments) : ConnectionEvent → Option (Attachments × Option TableCall)
  | .connect i clientID state =>
    if (l.connections.lookup i).isSome then none
    else some (l.put i { clientID, state }, some (.booked i clientID state))
  | .claimed i => (l.inPhase i .claiming).map fun x =>
    (l.put i { x with phase := .authenticated }, none)
  | .claimFailed i => (l.inPhase i .claiming).map fun x =>
    (l.put i { x with phase := .ended }, some (.claimFailed x.clientID x.state.tenantStr))
  | .establish i => (l.inPhase i .authenticated).map fun x =>
    ({ (l.takeOver x.clientID).put i { x with phase := .acknowledging } with
        server := l.server.insert x.clientID (some i) }, none)
  | .acknowledge i => (l.inPhase i .acknowledging).map fun x =>
    (l.put i { x with phase := .attached }, none)
  | .attachFail i => (l.inPhase i .acknowledging).map fun x =>
    (l.put i { x.stopped .other with phase := .ended }, none)
  | .stop i cause =>
    ((l.connections.lookup i).filter fun x => x.phase = .acknowledging || x.phase = .attached).map
      fun x => (l.put i (x.stopped cause), none)
  | .disconnect i expire => ((l.inPhase i .attached).filter (·.stop.isSome)).map fun x =>
    (l.put i { x with phase := .leaving, expire := expire },
      some (.disconnected i x.clientID (expire || x.stop = some .sessionTakenOver)))
  | .finish i => (l.inPhase i .leaving).map fun x =>
    ({ l.put i { x with phase := .ended } with
        server := if x.expire && !x.takenOver then l.server.erase x.clientID else l.server }, none)
  | .expire i => ((l.connections.lookup i).filter (·.stop.isSome)).map fun x =>
    ({ l.put i { x with swept := true } with server := l.server.erase x.clientID },
      some (.expired i x.clientID))
  | .restore clientID => some ({ l with server := l.server.insert clientID none }, none)
  | .expireRestored clientID =>
    if l.server.lookup clientID = some none then
      some ({ l with server := l.server.erase clientID }, none)
    else none

end Attachments

/-! ### Slots -/

/-- What a connection has taken up in the tables. -/
structure Slot where
  clientID : Text
  state : ClientState
  held : Bool
  swept : Bool
  deriving DecidableEq

/-- The slot is held for a tenant. -/
def Slot.heldBy (tenantStr : Text) (x : Slot) : Bool := x.held && x.state.tenantStr = tenantStr

/-- What an event does to the slots of the connections, and the call that it makes. -/
inductive SlotMove (slots : ℕ → Option Slot) :
    ConnectionEvent → (ℕ → Option Slot) → Option TableCall → Prop
  | stay (e : ConnectionEvent) : SlotMove slots e slots none
  | booked (i : ℕ) (clientID : Text) (state : ClientState) (h : slots i = none) :
      SlotMove slots (.connect i clientID state)
        (Function.update slots i (some ⟨clientID, state, true, false⟩))
        (some (.booked i clientID state))
  | claimFailed (i : ℕ) (x : Slot) (h : slots i = some x) (hheld : x.held = true) :
      SlotMove slots (.claimFailed i) (Function.update slots i (some { x with held := false }))
        (some (.claimFailed x.clientID x.state.tenantStr))
  | disconnected (i : ℕ) (expire : Bool) (x : Slot) (cleanup : Bool) (h : slots i = some x)
      (hheld : x.held = true) :
      SlotMove slots (.disconnect i expire)
        (Function.update slots i (some { x with held := false }))
        (some (.disconnected i x.clientID cleanup))
  | dropped (i : ℕ) (x : Slot) (h : slots i = some x) (hheld : x.held = true) :
      SlotMove slots (.attachFail i) (Function.update slots i (some { x with held := false })) none
  | expired (i : ℕ) (x : Slot) (h : slots i = some x) :
      SlotMove slots (.expire i) (Function.update slots i (some { x with swept := true }))
        (some (.expired i x.clientID))

/-- The slot of a connection. -/
def BookedConnection.slot (x : BookedConnection) : Slot :=
  ⟨x.clientID, x.state, x.phase.holds, x.swept⟩

namespace Attachments

/-- The slots of all connections. -/
def slot (l : Attachments) (i : ℕ) : Option Slot :=
  (l.connections.lookup i).map BookedConnection.slot

/-- The call that an event makes. -/
def call (l : Attachments) (e : ConnectionEvent) : Option TableCall := (l.advance e).bind Prod.snd

/-- The connections after an event. -/
def next (l : Attachments) (e : ConnectionEvent) : Attachments := (l.advance e).elim l Prod.fst

section Slots

variable {l : Attachments} {i : ℕ} {x y : BookedConnection} {phase : ConnectionPhase}

theorem inPhase_eq_some :
    l.inPhase i phase = some x ↔ l.connections.lookup i = some x ∧ x.phase = phase := by
  simp [inPhase]

theorem slot_put (l : Attachments) (i : ℕ) (x : BookedConnection) :
    (l.put i x).slot = Function.update l.slot i (some x.slot) := by
  funext j
  by_cases hj : j = i
  · subst hj
    simp [slot, put]
  · simp [slot, put, hj]

theorem update_slot (hlookup : l.connections.lookup i = some x) (heq : y.slot = x.slot) :
    Function.update l.slot i (some y.slot) = l.slot := by
  rw [heq, Function.update_eq_self_iff, slot, hlookup, Option.map_some]

theorem slotMove_put {e : ConnectionEvent} (hlookup : l.connections.lookup i = some x)
    (heq : y.slot = x.slot) : SlotMove l.slot e (l.put i y).slot none := by
  rw [slot_put, update_slot hlookup heq]
  exact .stay e

theorem slot_of_phase {next : ConnectionPhase} (hphase : x.phase = phase)
    (hholds : next.holds = phase.holds) : BookedConnection.slot { x with phase := next } =
    x.slot := by
  rw [BookedConnection.slot, BookedConnection.slot, hphase, hholds]

private theorem slot_takeOver (l : Attachments) (clientID : Text) :
    (l.takeOver clientID).slot = l.slot := by
  unfold takeOver
  split
  · split
    · next y hlookup => exact (slot_put _ _ _).trans (update_slot hlookup rfl)
    · rfl
  · rfl

theorem slot_put_of_holds (hlookup : l.connections.lookup i = some x) (hholds : x.phase.holds)
    (heq : y.slot = { x.slot with held := false }) :
    l.slot i = some x.slot ∧ x.slot.held = true ∧
      (l.put i y).slot = Function.update l.slot i (some { x.slot with held := false }) := by
  refine ⟨?_, hholds, ?_⟩
  · rw [slot, hlookup, Option.map_some]
  · rw [slot_put, heq]

/-- The connections refine the slots. -/
theorem slotMove_of_advance {l' : Attachments} {e : ConnectionEvent} {call : Option TableCall}
    (h : l.advance e = some (l', call)) : SlotMove l.slot e l'.slot call := by
  cases e with
  | connect i clientID state =>
    simp only [advance, Option.ite_none_left_eq_some] at h
    obtain ⟨hnew, rfl, rfl⟩ := h
    rw [Option.isSome_iff_ne_none, not_not] at hnew
    rw [slot_put]
    exact .booked i clientID state (by rw [slot, hnew, Option.map_none])
  | claimed i | acknowledge i | finish i =>
    simp only [advance, Option.map_eq_some_iff, inPhase_eq_some] at h
    obtain ⟨x, ⟨hlookup, hphase⟩, rfl, rfl⟩ := h
    exact slotMove_put hlookup (slot_of_phase hphase rfl)
  | claimFailed i =>
    simp only [advance, Option.map_eq_some_iff, inPhase_eq_some] at h
    obtain ⟨x, ⟨hlookup, hphase⟩, rfl, rfl⟩ := h
    obtain ⟨hslot, hheld, hslots⟩ :=
      @slot_put_of_holds l i x { x with phase := .ended } hlookup (by rw [hphase]; rfl) rfl
    rw [hslots]
    exact .claimFailed i x.slot hslot hheld
  | establish i =>
    simp only [advance, Option.map_eq_some_iff, inPhase_eq_some] at h
    obtain ⟨x, ⟨hlookup, hphase⟩, rfl, rfl⟩ := h
    have hslot : ((l.takeOver x.clientID).put i { x with phase := .acknowledging }).slot =
        l.slot := by
      rw [slot_put, slot_takeOver]
      exact update_slot hlookup (slot_of_phase hphase rfl)
    exact hslot ▸ .stay _
  | attachFail i =>
    simp only [advance, Option.map_eq_some_iff, inPhase_eq_some] at h
    obtain ⟨x, ⟨hlookup, hphase⟩, rfl, rfl⟩ := h
    obtain ⟨hslot, hheld, hslots⟩ := @slot_put_of_holds l i x
      { x.stopped .other with phase := .ended } hlookup (by rw [hphase]; rfl) rfl
    rw [hslots]
    exact .dropped i x.slot hslot hheld
  | stop i cause =>
    simp only [advance, Option.map_eq_some_iff, Option.filter_eq_some_iff] at h
    obtain ⟨x, ⟨hlookup, -⟩, rfl, rfl⟩ := h
    exact slotMove_put hlookup rfl
  | disconnect i expire =>
    simp only [advance, Option.map_eq_some_iff, Option.filter_eq_some_iff, inPhase_eq_some] at h
    obtain ⟨x, ⟨⟨hlookup, hphase⟩, -⟩, rfl, rfl⟩ := h
    obtain ⟨hslot, hheld, hslots⟩ := @slot_put_of_holds l i x
      { x with phase := .leaving, expire := expire } hlookup (by rw [hphase]; rfl) rfl
    rw [hslots]
    exact .disconnected i expire x.slot _ hslot hheld
  | expire i =>
    simp only [advance, Option.map_eq_some_iff, Option.filter_eq_some_iff] at h
    obtain ⟨x, ⟨hlookup, -⟩, rfl, rfl⟩ := h
    have hslot : (l.put i { x with swept := true }).slot =
        Function.update l.slot i (some { x.slot with swept := true }) := slot_put _ _ _
    have hfound : l.slot i = some x.slot := by rw [slot, hlookup, Option.map_some]
    exact Eq.subst (motive := fun slots => SlotMove l.slot (.expire i) slots _) hslot.symm
      (.expired i x.slot hfound)
  | restore clientID =>
    obtain ⟨rfl, rfl⟩ := h
    exact .stay _
  | expireRestored clientID =>
    simp only [advance, Option.ite_none_right_eq_some] at h
    obtain ⟨-, rfl, rfl⟩ := h
    exact .stay _

end Slots

end Attachments

/-! ### The machine -/

/-- The tables of the hook and the connections of a node. -/
structure ConnectionState where
  tables : HookTables := {}
  attachments : Attachments := {}

namespace ConnectionState

/-- An event, with the call of the hook that it makes. -/
def step (s : ConnectionState) (e : ConnectionEvent) : ConnectionState :=
  match s.attachments.advance e with
  | none => s
  | some (attachments, call) => ⟨call.elim s.tables s.tables.apply, attachments⟩

/-- The slots of the connections. -/
def slot (s : ConnectionState) (i : ℕ) : Option Slot := s.attachments.slot i

/-- The number of connections that hold a slot for a tenant. -/
def held (s : ConnectionState) (tenantStr : Text) : ℕ :=
  s.attachments.connections.tally fun x => x.slot.heldBy tenantStr

/-- What holds after every run. -/
structure Sound (s : ConnectionState) : Prop where
  current : s.tables.Current
  entry : ∀ clientID state, s.tables.clients.lookup clientID = some state →
    ∃ x, s.slot state.client = some x ∧ x.clientID = clientID ∧ x.state = state.toClientState ∧
      x.swept = false
  counted : ∀ tenantStr, s.held tenantStr ≤ s.tables.conns tenantStr

theorem sound_init : Sound {} where
  current _ _ h := by cases h
  entry _ _ h := by cases h
  counted _ := Nat.zero_le _

section Step

variable {s : ConnectionState} {e : ConnectionEvent}

theorem tables_step (s : ConnectionState) (e : ConnectionEvent) :
    (s.step e).tables = (s.attachments.call e).elim s.tables s.tables.apply := by
  unfold step Attachments.call
  split
  · next hadvance => rw [hadvance]; rfl
  · next hadvance => rw [hadvance]; rfl

theorem attachments_step (s : ConnectionState) (e : ConnectionEvent) :
    (s.step e).attachments = s.attachments.next e := by
  unfold step Attachments.next
  split
  · next hadvance => rw [hadvance]; rfl
  · next hadvance => rw [hadvance]; rfl

/-- What an event does to the slots. -/
theorem slotMove_step (s : ConnectionState) (e : ConnectionEvent) :
    SlotMove s.slot e (s.step e).slot (s.attachments.call e) := by
  unfold step Attachments.call
  split
  · next hadvance =>
    rw [hadvance]
    exact .stay e
  · next hadvance =>
    rw [hadvance]
    exact Attachments.slotMove_of_advance hadvance

theorem any_slot (s : ConnectionState) (i : ℕ) (tenantStr : Text) :
    (s.attachments.connections.lookup i).any (fun x => x.slot.heldBy tenantStr) =
      (s.slot i).any (Slot.heldBy tenantStr) := by
  rw [slot, Attachments.slot, Option.any_map]

variable {s' : ConnectionState} {i : ℕ} {x : Slot}

theorem held_congr {s : ConnectionState} (h : s'.slot = s.slot) (tenantStr : Text) :
    s'.held tenantStr = s.held tenantStr :=
  GoMap.tally_congr fun i => by rw [any_slot, any_slot, h]

theorem held_swept {s : ConnectionState} (hx : s.slot i = some x)
    (h : s'.slot = Function.update s.slot i (some { x with swept := true })) (tenantStr : Text) :
    s'.held tenantStr = s.held tenantStr := by
  refine GoMap.tally_congr fun j => ?_
  rw [any_slot, any_slot, h]
  by_cases hj : j = i
  · subst hj
    rw [Function.update_self, hx]
    rfl
  · rw [Function.update_of_ne hj]

/-- A slot more. -/
theorem held_booked {s : ConnectionState} {y : Slot}
    (hnew : ∀ x, s.slot i = some x → x.held = false) (hheld : y.held = true)
    (h : s'.slot = Function.update s.slot i (some y)) (tenantStr : Text) :
    s'.held tenantStr = s.held tenantStr + if tenantStr = y.state.tenantStr then 1 else 0 := by
  have hnone : (s.slot i).any (Slot.heldBy tenantStr) = false := by
    rw [Option.any_eq_false]
    intro x hx
    simp [Slot.heldBy, hnew x hx]
  have hsame : s'.slot i = some y := by rw [h, Function.update_self]
  have hother (j : ℕ) (hj : j ≠ i) : s'.slot j = s.slot j := by rw [h, Function.update_of_ne hj]
  split_ifs with ht
  · refine GoMap.tally_eq_add_one (k := i) ?_ ?_ fun j hj => ?_
    · rw [any_slot, hnone]
    · rw [any_slot, hsame]
      simp [Slot.heldBy, hheld, ht]
    · rw [any_slot, any_slot, hother j hj]
  · refine GoMap.tally_congr fun j => ?_
    rw [any_slot, any_slot]
    by_cases hj : j = i
    · subst hj
      rw [hnone, hsame]
      simp [Slot.heldBy, Ne.symm ht]
    · rw [hother j hj]

/-- A slot less. -/
theorem held_released {s : ConnectionState} (hx : s.slot i = some x) (hheld : x.held = true)
    (h : s'.slot = Function.update s.slot i (some { x with held := false })) (tenantStr : Text) :
    s.held tenantStr = s'.held tenantStr + if tenantStr = x.state.tenantStr then 1 else 0 := by
  have hback : s.slot = Function.update s'.slot i (some x) := by
    rw [h, Function.update_idem, ← hx, Function.update_eq_self]
  refine held_booked (fun y hy => ?_) hheld hback tenantStr
  rw [h, Function.update_self] at hy
  rw [← Option.some.inj hy]

/-- A slot that is held is counted. -/
theorem Sound.conns_pos (hs : s.Sound) (hx : s.slot i = some x) (hheld : x.held = true) :
    0 < s.tables.conns x.state.tenantStr := by
  refine (GoMap.tally_pos (k := i) ?_).trans_le (hs.counted _)
  rw [any_slot, hx]
  simp [Slot.heldBy, hheld]

theorem slot_of_slotMove {slots slots' : ℕ → Option Slot} {call : Option TableCall}
    (h : SlotMove slots e slots' call) (hx : slots i = some x) :
    ∃ y, slots' i = some y ∧ y.clientID = x.clientID ∧ y.state = x.state ∧
      (y.swept = x.swept ∨ call = some (.expired i x.clientID)) := by
  have hends {j : ℕ} {z : Slot} (hz : slots j = some z) :
      ∃ y, Function.update slots j (some { z with held := false }) i = some y ∧
        y.clientID = x.clientID ∧ y.state = x.state ∧
        (y.swept = x.swept ∨ call = some (.expired i x.clientID)) := by
    by_cases hij : i = j
    · subst hij
      cases hx.symm.trans hz
      exact ⟨_, Function.update_self _ _ _, rfl, rfl, Or.inl rfl⟩
    · exact ⟨x, by rw [Function.update_of_ne hij, hx], rfl, rfl, Or.inl rfl⟩
  cases h with
  | stay _ => exact ⟨x, hx, rfl, rfl, Or.inl rfl⟩
  | booked j id st hnew =>
    have hij : i ≠ j := by
      rintro rfl
      rw [hnew] at hx
      cases hx
    exact ⟨x, by rw [Function.update_of_ne hij, hx], rfl, rfl, Or.inl rfl⟩
  | claimFailed j z hz _ => exact hends hz
  | disconnected j _ z _ hz _ => exact hends hz
  | dropped j z hz _ => exact hends hz
  | expired j z hz =>
    by_cases hij : i = j
    · subst hij
      cases hx.symm.trans hz
      exact ⟨_, Function.update_self _ _ _, rfl, rfl, Or.inr rfl⟩
    · exact ⟨x, by rw [Function.update_of_ne hij, hx], rfl, rfl, Or.inl rfl⟩

theorem entry_step (hs : s.Sound) {clientID : Text} {state : TrackedClient}
    (hlookup : (s.step e).tables.clients.lookup clientID = some state) :
    ∃ x, (s.step e).slot state.client = some x ∧ x.clientID = clientID ∧
      x.state = state.toClientState ∧ x.swept = false := by
  have hmove := slotMove_step s e
  have hkept (hbefore : s.tables.clients.lookup clientID = some state)
      (hcall : s.attachments.call e ≠ some (.expired state.client clientID)) :
      ∃ x, (s.step e).slot state.client = some x ∧ x.clientID = clientID ∧
        x.state = state.toClientState ∧ x.swept = false := by
    obtain ⟨x, hx, rfl, hstate, hswept⟩ := hs.entry clientID state hbefore
    obtain ⟨y, hy, hid', hstate', hswept'⟩ := slot_of_slotMove hmove hx
    exact ⟨y, hy, hid', hstate'.trans hstate, (hswept'.resolve_right hcall).trans hswept⟩
  rw [tables_step] at hlookup
  cases hcall : s.attachments.call e with
  | none =>
    rw [hcall] at hlookup
    exact hkept hlookup (by rw [hcall]; exact (Option.some_ne_none _).symm)
  | some call =>
    rw [hcall] at hlookup
    rcases HookTables.entry_apply_of_lookup hlookup with heq | ⟨i, new, rfl⟩
    · refine hkept ((congrArg Prod.fst heq).symm.trans hlookup) fun hexpired => ?_
      -- the call for the client object itself has deleted the entry
      obtain rfl : call = .expired state.client clientID := by
        rw [hcall] at hexpired
        exact Option.some.inj hexpired
      exact (HookTables.tracks_expired_iff.1 ⟨state, hlookup, rfl⟩).2 rfl
    · have hself := s.tables.entry_apply_self (.booked i clientID new)
      obtain rfl := Option.some.inj ((congrArg Prod.fst hself).symm.trans hlookup)
      rw [hcall] at hmove
      generalize (s.step e).slot = slots at hmove
      cases hmove with
      | booked _ _ _ _ => exact ⟨_, Function.update_self _ _ _, rfl, rfl, rfl⟩

theorem conns_claimFailed_of_held (hs : s.Sound) (hx : s.slot i = some x) (hheld : x.held = true)
    (clientID t : Text) :
    s.tables.conns t = (s.tables.claimFailed clientID x.state.tenantStr).conns t +
      if t = x.state.tenantStr then 1 else 0 := by
  exact s.tables.conns_release_of_pos _ (hs.conns_pos hx hheld) t

theorem conns_disconnected_of_tracks (hs : s.Sound) (hx : s.slot i = some x) (hheld : x.held = true)
    (htracks : s.tables.Tracks i x.clientID) (cleanup : Bool) (t : Text) :
    s.tables.conns t = (s.tables.disconnected i x.clientID cleanup).conns t +
      if t = x.state.tenantStr then 1 else 0 := by
  obtain ⟨tracked, hlookup, rfl⟩ := htracks
  have hstate : x.state = tracked.toClientState := by
    obtain ⟨y, hy, -, hstate, -⟩ := hs.entry x.clientID tracked hlookup
    rw [hx, Option.some.injEq] at hy
    rw [hy, hstate]
  rw [HookTables.conns_disconnected hs.current hlookup rfl, ← hstate]
  exact s.tables.conns_release_of_pos _ (hs.conns_pos hx hheld) t

theorem counted_step (hs : s.Sound) (t : Text) : (s.step e).held t ≤ (s.step e).tables.conns t := by
  have hmove := slotMove_step s e
  have hcounted := hs.counted t
  rw [tables_step]
  generalize hslots : (s.step e).slot = slots at hmove
  generalize s.attachments.call e = call at hmove
  cases hmove with
  | stay _ => exact (held_congr hslots t).trans_le hcounted
  | expired i x hx =>
    rw [held_swept hx hslots]
    exact hcounted.trans_eq (s.tables.conns_expired i x.clientID t).symm
  | booked i clientID state hnew =>
    have hmore := held_booked (fun x hx => by rw [hnew] at hx; cases hx) rfl hslots t
    rw [hmore]
    exact (Nat.add_le_add_right hcounted _).trans_eq (s.tables.conns_booked clientID i state t).symm
  | claimFailed i x hx hheld =>
    rw [held_released hx hheld hslots t,
      conns_claimFailed_of_held hs hx hheld x.clientID t] at hcounted
    exact Nat.le_of_add_le_add_right hcounted
  | disconnected i expire x cleanup hx hheld =>
    have hless := held_released hx hheld hslots t
    rw [Option.elim_some, HookTables.apply]
    by_cases htracks : s.tables.Tracks i x.clientID
    · rw [hless, conns_disconnected_of_tracks hs hx hheld htracks cleanup t] at hcounted
      exact Nat.le_of_add_le_add_right hcounted
    · rw [HookTables.disconnected_of_not_tracks htracks]
      exact (Nat.le.intro hless.symm).trans hcounted
  | dropped i x hx hheld =>
    exact (Nat.le.intro (held_released hx hheld hslots t).symm).trans hcounted

/-- What one event preserves. -/
theorem sound_step (hs : s.Sound) (e : ConnectionEvent) : (s.step e).Sound where
  current := by
    rw [tables_step]
    cases s.attachments.call e with
    | none => exact hs.current
    | some call => exact HookTables.current_apply hs.current call
  entry _ _ := entry_step hs
  counted := counted_step hs

end Step

end ConnectionState

end Broker

end KeelGateway
