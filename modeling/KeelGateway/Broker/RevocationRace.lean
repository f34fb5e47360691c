import KeelGateway.Broker.Eviction
import KeelGateway.Raft.Revocations

/-!
# A revocation among connecting devices

A device connects with a certificate: its node asks whether the identity is revoked, the session is
claimed under the identity, and the connection is put into the table of clients. A revocation
commits the identity, lists once the clients that hold a session under it, looks up the owner of
each session and sends it an `Evict`.

The check of a connection and its claim are separate steps, so a revocation can be over between
them: the check has not seen it, and the list has not seen the session. An `Evict` can also arrive
before the connection is in the table of clients, where it finds nothing to stop.

-/

namespace KeelGateway.Broker

open Raft StepMachine

/-- How far a CONNECT has got. -/
inductive ConnectPhase where
  | checked
  | claimed
  | attached
  deriving DecidableEq

/-- A connection under the identity. -/
structure DeviceConnection where
  clientID : Text
  node : Text
  phase : ConnectPhase := .checked
  stopped : Bool := false
  deriving DecidableEq

/-- The cluster, as far as one identity is concerned. -/
structure RevocationState where
  revoked : GoMap Text ℤ := ∅
  sessions : Sessions := {}
  caches : Text → RevocationCache := fun _ => {}
  connections : List DeviceConnection := []
  /-- The client object of each node and client, by the number of its connection. -/
  clients : Text → Text → Option ℕ := fun _ _ => none
  evicts : List (Text × Text) := []
  enumerated : Bool := false
  listed : List Text := []

/-- What happens to the identity. -/
inductive RevocationStep where
  /-- A node checks a new connection, with its cache or with the state machine. -/
  | check (clientID node : Text) (cached : Bool)
  | claim (i : ℕ)
  | attach (i : ℕ)
  | stop (i : ℕ)
  | release (clientID node : Text)
  | delete (clientID node : Text)
  | commit (now : ℤ)
  | refresh (node : Text)
  | enumerate (order : List ℕ)
  | lookUp
  | evict (k : ℕ)

/-- `clientIDsForIdentity` on the session part of the state. -/
def clientIDsForIdentity (sessions : Sessions) (identity : Text) (order : List ℕ) : List Text :=
  ((sessions.sessionIdentity.arranged order).entries).filterMap fun row =>
    if row.2 = identity then some row.1 else none

variable {clientID : Text} {sessions : Sessions}

theorem mem_clientIDsForIdentity {identity : Text} {order : List ℕ}
    (h : sessions.sessionIdentity.lookup clientID = some identity) :
    clientID ∈ clientIDsForIdentity sessions identity order := by
  rw [← GoMap.lookup_arranged order] at h
  exact List.mem_filterMap.2 ⟨⟨clientID, identity⟩, GoMap.mem_entries.2 h, if_pos rfl⟩

theorem lookup_releaseSession_of_ne {node x n : Text} (howner : sessions.sessions.lookup x = some n)
    (hne : (n, x) ≠ (node, clientID)) :
    (sessions.releaseSession clientID node).sessions.lookup x = some n ∧
      (sessions.releaseSession clientID node).sessionIdentity.lookup x =
        sessions.sessionIdentity.lookup x := by
  rw [Sessions.releaseSession]
  split_ifs with hreleased
  · have hclient : x ≠ clientID := by
      rintro rfl
      exact hne (by rw [Option.some.inj (howner.symm.trans hreleased)])
    rw [GoMap.lookup_erase, GoMap.lookup_erase, if_neg hclient, if_neg hclient]
    exact ⟨howner, rfl⟩
  · exact ⟨howner, rfl⟩

theorem claimClusterSession_cases {node identity x n : Text} (hidentity : identity ≠ [])
    (hn : n ≠ []) (howner : sessions.sessions.lookup x = some n) :
    (x = clientID ∧ n ≠ node ∧
      (claimClusterSession sessions clientID node identity).2 = some n) ∨
    ((claimClusterSession sessions clientID node identity).1.sessions.lookup x = some n ∧
      (sessions.sessionIdentity.lookup x = some identity →
        (claimClusterSession sessions clientID node identity).1.sessionIdentity.lookup x =
          some identity)) := by
  simp only [claimClusterSession, Sessions.claimSession, if_pos hidentity, GoMap.lookup_insert]
  by_cases hx : x = clientID
  · subst hx
    by_cases hnode : n = node
    · exact .inr ⟨by rw [if_pos rfl, hnode], fun _ => if_pos rfl⟩
    · left
      simp only [howner, ne_eq, hnode, not_false_eq_true, if_true, hn, and_self]
  · exact .inr ⟨by rw [if_neg hx, howner], fun h => by rw [if_neg hx, h]⟩

theorem lookup_claimClusterSession (sessions : Sessions) (clientID node : Text) {identity : Text}
    (hidentity : identity ≠ []) :
    (claimClusterSession sessions clientID node identity).1.sessions.lookup clientID = some node ∧
      (claimClusterSession sessions clientID node identity).1.sessionIdentity.lookup clientID =
        some identity := by
  simp only [claimClusterSession, Sessions.claimSession, if_pos hidentity, GoMap.lookup_insert,
    if_true, and_self]

namespace RevocationState

variable (identity : Text) (s : RevocationState)

/-! ### The steps -/

/-- `IsRevoked` on a node. -/
def isRevoked (node : Text) (cached : Bool) : Bool :=
  if cached then (s.caches node).isRevoked identity else (s.revoked.lookup identity).isSome

/-- `authenticateCert` up to the claim. A connection of a revoked identity is rejected. -/
def checked (clientID node : Text) (cached : Bool) : RevocationState :=
  if s.isRevoked identity node cached then s
  else { s with connections := s.connections ++ [{ clientID := clientID, node := node }] }

/-- The claim of a connection. -/
def claimed (i : ℕ) : RevocationState :=
  match s.connections[i]? with
  | none => s
  | some c =>
    if c.phase ≠ .checked then s
    else
      let (sessions, target) := claimClusterSession s.sessions c.clientID c.node identity
      { s with
        sessions := sessions
        connections := s.connections.modify i fun c => { c with phase := .claimed }
        evicts := s.evicts ++ target.toList.map (·, c.clientID) }

/-- `Client.Stop` on a connection. -/
def stopAt (i : ℕ) : List DeviceConnection :=
  s.connections.modify i fun c => { c with stopped := true }

/-- `Client.Stop` on the client object of a node for a client, if there is one. -/
def stopLocal (node clientID : Text) : List DeviceConnection :=
  match s.clients node clientID with
  | some j => s.stopAt j
  | none => s.connections

/-- A connection replaces the client object of its node, which is stopped. -/
def attached (i : ℕ) : RevocationState :=
  match s.connections[i]? with
  | none => s
  | some c =>
    if c.phase ≠ .claimed then s
    else
      { s with
        connections := (s.stopLocal c.node c.clientID).modify i
          fun c => { c with phase := .attached }
        clients := Function.update s.clients c.node
          (Function.update (s.clients c.node) c.clientID (some i)) }

/-- The first step of `evictRevokedSessions`, once the revocation is committed. -/
def listSessions (order : List ℕ) : RevocationState :=
  if (s.revoked.lookup identity).isSome ∧ s.enumerated = false then
    { s with enumerated := true, listed := clientIDsForIdentity s.sessions identity order }
  else s

/-- One round of its loop. -/
def lookedUp : RevocationState :=
  match s.listed with
  | [] => s
  | clientID :: rest =>
    match s.sessions.sessions.lookup clientID with
    | none => { s with listed := rest }
    | some node => { s with listed := rest, evicts := s.evicts ++ [(node, clientID)] }

/-- The handler of `SubscribeEvict`. -/
def evicted (k : ℕ) : RevocationState :=
  match s.evicts[k]? with
  | none => s
  | some (node, clientID) =>
    { s with connections := s.stopLocal node clientID, evicts := s.evicts.eraseIdx k }

/-- One step. -/
def step : RevocationStep → RevocationState
  | .check clientID node cached => s.checked identity clientID node cached
  | .claim i => s.claimed identity i
  | .attach i => s.attached i
  | .stop i => { s with connections := s.stopAt i }
  | .release clientID node => { s with sessions := s.sessions.releaseSession clientID node }
  | .delete clientID node =>
    { s with
      clients := Function.update s.clients node (Function.update (s.clients node) clientID none) }
  | .commit now => { s with revoked := s.revoked.insert identity now }
  | .refresh node =>
    { s with caches := Function.update s.caches node ((s.caches node).refresh (some s.revoked)) }
  | .enumerate order => s.listSessions identity order
  | .lookUp => s.lookedUp
  | .evict k => s.evicted k

/-! ### Runs -/

/-- The revocation is committed, its list is worked off, all messages are delivered, all caches are
refreshed and all CONNECTs are over. -/
structure Settled : Prop where
  committed : (s.revoked.lookup identity).isSome = true
  enumerated : s.enumerated = true
  listed : s.listed = []
  evicts : s.evicts = []
  caches : ∀ node, (s.caches node).isRevoked identity = true
  connects : ∀ c ∈ s.connections, c.stopped = false → c.phase = .attached

/-- No open connection of a client on a node is in a phase. -/
def NoneAt (target : Text × Text) (phase : ConnectPhase) : Prop :=
  ∀ c ∈ s.connections, c.stopped = false → (c.node, c.clientID) = target → c.phase ≠ phase

instance (target : Text × Text) (phase : ConnectPhase) : Decidable (s.NoneAt target phase) :=
  inferInstanceAs (Decidable (∀ c ∈ s.connections, _ → _ → _))

/-- The steps that do not meet a connection half-way. -/
def Orderly : RevocationStep → Prop
  -- once the list has been read, nodes know of the revocation
  | .check _ node cached =>
    node ≠ [] ∧ (s.enumerated = true → s.isRevoked identity node cached = true)
  -- the list is read when no connection is between its check and its claim
  | .enumerate _ => ∀ c ∈ s.connections, c.stopped = false → c.phase ≠ .checked
  -- a message arrives when no connection of the client is between its claim and the table
  | .evict k => ∀ target ∈ s.evicts[k]?, s.NoneAt target .claimed
  -- the session and the client object of an open connection are left alone
  | .release clientID node =>
    s.NoneAt (node, clientID) .claimed ∧ s.NoneAt (node, clientID) .attached
  | .delete clientID node => s.NoneAt (node, clientID) .attached
  | _ => True

instance : (e : RevocationStep) → Decidable (s.Orderly identity e)
  | .check _ node cached =>
    inferInstanceAs (Decidable (node ≠ [] ∧ (_ → s.isRevoked identity node cached = true)))
  | .enumerate _ => inferInstanceAs (Decidable (∀ c ∈ s.connections, _ → _))
  | .evict k => inferInstanceAs (Decidable (∀ target ∈ s.evicts[k]?, s.NoneAt target .claimed))
  | .release clientID node =>
    inferInstanceAs
      (Decidable (s.NoneAt (node, clientID) .claimed ∧ s.NoneAt (node, clientID) .attached))
  | .delete clientID node => inferInstanceAs (Decidable (s.NoneAt (node, clientID) .attached))
  | .claim _ | .attach _ | .stop _ | .commit _ | .refresh _ | .lookUp => isTrue trivial

/-! ### Open connections -/

/-- A connection that has not been stopped, by its number. -/
def Open (j : ℕ) (c : DeviceConnection) : Prop := s.connections[j]? = some c ∧ c.stopped = false

/-- An `Evict` will reach the connection: it is under way, or the node owns the session and the
revocation will find it. -/
def Covered (c : DeviceConnection) : Prop :=
  (c.node, c.clientID) ∈ s.evicts ∨
    s.sessions.sessions.lookup c.clientID = some c.node ∧
      if s.enumerated then c.clientID ∈ s.listed
      else s.sessions.sessionIdentity.lookup c.clientID = some identity

/-- In an orderly run every connection that has claimed its session is covered. -/
structure Inv : Prop where
  named : ∀ j c, s.Open j c → c.node ≠ []
  table : ∀ j c, s.Open j c → c.phase = .attached → s.clients c.node c.clientID = some j
  covered : ∀ j c, s.Open j c → c.phase ≠ .checked → s.Covered identity c
  late : ∀ j c, s.Open j c → s.enumerated = true → c.phase ≠ .checked

variable {identity s} {c : DeviceConnection} {j i : ℕ} {t : RevocationState} {clientID node : Text}

theorem Open.mem (h : s.Open j c) : c ∈ s.connections :=
  List.mem_of_getElem? h.1

theorem open_of_stopAt (ht : t.connections = s.stopAt i) (h : t.Open j c) : s.Open j c ∧ j ≠ i := by
  obtain ⟨hget, hopen⟩ := h
  rw [ht, stopAt, List.getElem?_modify, Option.map_eq_map, Option.map_eq_some_iff] at hget
  obtain ⟨d, hd, rfl⟩ := hget
  split_ifs at hopen ⊢ with hij
  · exact ⟨⟨hd, hopen⟩, Ne.symm hij⟩

theorem open_of_stopLocal (ht : t.connections = s.stopLocal node clientID) (h : t.Open j c) :
    s.Open j c ∧ s.clients node clientID ≠ some j := by
  rw [stopLocal] at ht
  cases htable : s.clients node clientID with
  | none =>
    rw [htable] at ht
    dsimp only at ht
    exact ⟨⟨ht ▸ h.1, h.2⟩, nofun⟩
  | some i =>
    rw [htable] at ht
    obtain ⟨hopen, hne⟩ := open_of_stopAt ht h
    exact ⟨hopen, fun heq => hne (Option.some.inj heq).symm⟩

/-! ### Steps that open nothing -/

theorem Inv.of_open (hs : s.Inv identity) (hopen : ∀ j c, t.Open j c → s.Open j c)
    (htable : ∀ j c, t.Open j c → c.phase = .attached → s.clients c.node c.clientID = some j →
      t.clients c.node c.clientID = some j)
    (hcovered : ∀ j c, t.Open j c → c.phase ≠ .checked → s.Covered identity c →
      t.Covered identity c)
    (hlate : t.enumerated = true → s.enumerated = true ∨
      ∀ c ∈ s.connections, c.stopped = false → c.phase ≠ .checked) : t.Inv identity where
  named j c h := hs.named j c (hopen j c h)
  table j c h hphase := htable j c h hphase (hs.table j c (hopen j c h) hphase)
  covered j c h hphase := hcovered j c h hphase (hs.covered j c (hopen j c h) hphase)
  late j c h henum := (hlate henum).elim (hs.late j c (hopen j c h)) fun hnone =>
    hnone c (hopen j c h).mem h.2

theorem Inv.stop (hs : s.Inv identity) (i : ℕ) : ({ s with connections := s.stopAt i } :
    RevocationState).Inv identity :=
  hs.of_open (fun _ _ h => (open_of_stopAt rfl h).1) (fun _ _ _ _ h => h) (fun _ _ _ _ h => h) .inl

theorem Inv.release (hs : s.Inv identity) (hclaimed : s.NoneAt (node, clientID) .claimed)
    (hattached : s.NoneAt (node, clientID) .attached) :
    ({ s with sessions := s.sessions.releaseSession clientID node } : RevocationState).Inv
      identity := by
  refine hs.of_open (fun _ _ h => h) (fun _ _ _ _ h => h) (fun j c h hphase hc => ?_) .inl
  rcases hc with hevict | ⟨howner, hfound⟩
  · exact .inl hevict
  · have hother : (c.node, c.clientID) ≠ (node, clientID) := by
      intro heq
      cases hc : c.phase with
      | checked => exact hphase hc
      | claimed => exact hclaimed c h.mem h.2 heq hc
      | attached => exact hattached c h.mem h.2 heq hc
    obtain ⟨howner', hidentity⟩ := lookup_releaseSession_of_ne howner hother
    refine .inr ⟨howner', ?_⟩
    rwa [hidentity]

theorem update_clients (clients : Text → Text → Option ℕ) (node clientID : Text) (v : Option ℕ)
    (n x : Text) :
    Function.update clients node (Function.update (clients node) clientID v) n x =
      if (n, x) = (node, clientID) then v else clients n x := by
  rw [Function.update_apply]
  by_cases hn : n = node
  · simp only [hn, if_true, Function.update_apply, Prod.mk.injEq, true_and]
  · rw [if_neg hn, if_neg fun h => hn (Prod.mk.inj h).1]

theorem Inv.delete (hs : s.Inv identity) (hattached : s.NoneAt (node, clientID) .attached) :
    ({ s with
      clients := Function.update s.clients node (Function.update (s.clients node) clientID none) } :
      RevocationState).Inv identity := by
  refine hs.of_open (fun _ _ h => h) (fun j c h hphase htable => ?_) (fun _ _ _ _ h => h) .inl
  refine (update_clients ..).trans ?_
  rw [if_neg fun heq => hattached c h.mem h.2 heq hphase, htable]

theorem Inv.listSessions (hs : s.Inv identity) (order : List ℕ)
    (hchecked : ∀ c ∈ s.connections, c.stopped = false → c.phase ≠ .checked) :
    (s.listSessions identity order).Inv identity := by
  rw [RevocationState.listSessions]
  split_ifs with hstart
  · refine hs.of_open (fun _ _ h => h) (fun _ _ _ _ h => h) (fun j c h hphase hc => ?_)
      fun _ => .inr hchecked
    rcases hc with hevict | ⟨howner, hfound⟩
    · exact .inl hevict
    · rw [hstart.2] at hfound
      exact .inr ⟨howner, mem_clientIDsForIdentity hfound⟩
  · exact hs

theorem Inv.lookedUp (hs : s.Inv identity) : s.lookedUp.Inv identity := by
  rw [RevocationState.lookedUp]
  cases hlisted : s.listed with
  | nil => exact hs
  | cons clientID rest =>
    dsimp only
    -- what is covered by the list is the client that is looked up, or one of the rest
    have hrest {c : DeviceConnection} (hfound : if s.enumerated then c.clientID ∈ s.listed
        else s.sessions.sessionIdentity.lookup c.clientID = some identity)
        (hne : c.clientID ≠ clientID) : if s.enumerated then c.clientID ∈ rest
        else s.sessions.sessionIdentity.lookup c.clientID = some identity := by
      split_ifs at hfound ⊢
      · exact List.mem_of_ne_of_mem hne (hlisted ▸ hfound)
      · exact hfound
    cases howner : s.sessions.sessions.lookup clientID with
    | none =>
      refine hs.of_open (fun _ _ h => h) (fun _ _ _ _ h => h) (fun j c h hphase hc => ?_) .inl
      rcases hc with hevict | ⟨hc, hfound⟩
      · exact .inl hevict
      · have hne : c.clientID ≠ clientID := by
          rintro rfl
          rw [howner] at hc
          cases hc
        exact .inr ⟨hc, hrest hfound hne⟩
    | some node =>
      refine hs.of_open (fun _ _ h => h) (fun _ _ _ _ h => h) (fun j c h hphase hc => ?_) .inl
      rcases hc with hevict | ⟨hc, hfound⟩
      · exact .inl (List.mem_append_left _ hevict)
      · by_cases hclient : c.clientID = clientID
        · left
          rw [hclient, howner] at hc
          rw [hclient, ← Option.some.inj hc]
          exact List.mem_append_right _ (List.mem_singleton.2 rfl)
        · exact .inr ⟨hc, hrest hfound hclient⟩

theorem Inv.evicted (hs : s.Inv identity) {k : ℕ}
    (hclaimed : ∀ target ∈ s.evicts[k]?, s.NoneAt target .claimed) :
    (s.evicted k).Inv identity := by
  rw [RevocationState.evicted]
  cases hk : s.evicts[k]? with
  | none => exact hs
  | some target =>
    obtain ⟨node, clientID⟩ := target
    refine hs.of_open (fun _ _ h => (open_of_stopLocal rfl h).1) (fun _ _ _ _ h => h)
      (fun j c h hphase hc => ?_) .inl
    obtain ⟨hopen, htable⟩ := open_of_stopLocal rfl h
    rcases hc with hevict | hfound
    · left
      have hne : (c.node, c.clientID) ≠ (node, clientID) := by
        intro heq
        obtain ⟨rfl, rfl⟩ := Prod.mk.inj heq
        cases hc : c.phase with
        | checked => exact hphase hc
        | claimed => exact hclaimed _ hk c hopen.mem hopen.2 rfl hc
        | attached => exact htable (hs.table j c hopen hc)
      obtain ⟨i, hi⟩ := List.mem_iff_getElem?.1 hevict
      refine List.mem_eraseIdx_iff_getElem?.2 ⟨i, fun hik => hne ?_, hi⟩
      exact Option.some.inj (hi.symm.trans (hik ▸ hk))
    · exact .inr hfound

/-! ### Steps of a connection -/

theorem Inv.checked (hs : s.Inv identity) {cached : Bool} (hnode : node ≠ [])
    (hlate : s.enumerated = true → s.isRevoked identity node cached = true) :
    (s.checked identity clientID node cached).Inv identity := by
  rw [RevocationState.checked]
  split_ifs with hrevoked
  · exact hs
  · have hnew {j : ℕ} {c : DeviceConnection} (h : RevocationState.Open
        { s with connections := s.connections ++ [{ clientID := clientID, node := node }] } j c) :
        s.Open j c ∨ c = { clientID := clientID, node := node } := by
      obtain ⟨hget, hopen⟩ := h
      rw [List.getElem?_append] at hget
      split_ifs at hget
      · exact .inl ⟨hget, hopen⟩
      · exact .inr (List.mem_singleton.1 (List.mem_of_getElem? hget))
    constructor
    · intro j c h
      rcases hnew h with h | rfl
      · exact hs.named j c h
      · exact hnode
    · intro j c h hphase
      rcases hnew h with h | rfl
      · exact hs.table j c h hphase
      · cases hphase
    · intro j c h hphase
      rcases hnew h with h | rfl
      · exact hs.covered j c h hphase
      · exact absurd rfl hphase
    · intro j c h henum
      exact absurd (hlate henum) hrevoked

theorem open_of_modify {cs : List DeviceConnection} {phase : ConnectPhase} {d : DeviceConnection}
    (ht : t.connections = cs.modify i fun c => { c with phase := phase }) (h : t.Open j d) :
    (j ≠ i ∧ cs[j]? = some d ∧ d.stopped = false) ∨
      (j = i ∧ ∃ c, cs[i]? = some c ∧ c.stopped = false ∧ d = { c with phase := phase }) := by
  obtain ⟨hget, hopen⟩ := h
  rw [ht, List.getElem?_modify, Option.map_eq_map, Option.map_eq_some_iff] at hget
  obtain ⟨c, hc, rfl⟩ := hget
  by_cases hij : i = j
  · subst hij
    rw [if_pos rfl] at hopen ⊢
    exact .inr ⟨rfl, c, hc, hopen, rfl⟩
  · rw [if_neg hij] at hopen ⊢
    exact .inl ⟨Ne.symm hij, hc, hopen⟩

theorem Inv.of_move {phase : ConnectPhase} (hs : s.Inv identity) (hphase : phase ≠ .checked)
    (henum : t.enumerated = s.enumerated)
    (hopen : ∀ j d, t.Open j d → s.Open j d ∨ (j = i ∧ s.Open i c ∧ d = { c with phase := phase }))
    (htable : ∀ j d, t.Open j d → d.phase = .attached → t.clients d.node d.clientID = some j)
    (hcovered : ∀ j d, s.Open j d → s.Covered identity d → t.Covered identity d)
    (hmoved : s.Open i c → t.Covered identity c) : t.Inv identity where
  named j d h := by
    rcases hopen j d h with hold | ⟨-, hnew, rfl⟩
    · exact hs.named j d hold
    · exact hs.named i c hnew
  table := htable
  covered j d h hd := by
    rcases hopen j d h with hold | ⟨-, hnew, rfl⟩
    · exact hcovered j d hold (hs.covered j d hold hd)
    · exact hmoved hnew
  late j d h hlate := by
    rcases hopen j d h with hold | ⟨-, -, rfl⟩
    · exact hs.late j d hold (henum ▸ hlate)
    · exact hphase

theorem Covered.claimClusterSession {d : DeviceConnection} (hidentity : identity ≠ [])
    (hnode : d.node ≠ [])
    (ht : t = { s with
      sessions := (claimClusterSession s.sessions c.clientID c.node identity).1
      connections := t.connections
      evicts := s.evicts ++ (claimClusterSession s.sessions c.clientID c.node identity).2.toList.map
        (·, c.clientID) })
    (hd : s.Covered identity d) : t.Covered identity d := by
  rw [ht]
  rcases hd with hevict | ⟨howner, hfound⟩
  · exact .inl (List.mem_append_left _ hevict)
  · rcases claimClusterSession_cases hidentity hnode howner with
      ⟨hclient, -, htarget⟩ | ⟨howner', hidentity'⟩
    · left
      rw [hclient, htarget]
      exact List.mem_append_right _ (List.mem_singleton.2 rfl)
    · refine .inr ⟨howner', ?_⟩
      dsimp only
      split_ifs at hfound ⊢
      · exact hfound
      · exact hidentity' hfound

theorem Inv.claimed (hidentity : identity ≠ []) (hs : s.Inv identity) (i : ℕ) :
    (s.claimed identity i).Inv identity := by
  rw [RevocationState.claimed]
  cases hc : s.connections[i]? with
  | none => exact hs
  | some c =>
    dsimp only
    split_ifs with hphase
    · exact hs
    · rw [not_not] at hphase
      have hpast : ConnectPhase.claimed ≠ .checked := nofun
      refine hs.of_move (i := i) (c := c) hpast rfl (fun j d h => ?_)
        (fun j d h hattached => ?_)
        (fun j d hold hd => hd.claimClusterSession hidentity (hs.named j d hold) rfl)
        fun hopen => ?_
      · rcases open_of_modify rfl h with ⟨-, hold⟩ | ⟨rfl, c', hc', hopen, rfl⟩
        · exact .inl hold
        · obtain rfl := Option.some.inj (hc.symm.trans hc')
          exact .inr ⟨rfl, ⟨hc, hopen⟩, rfl⟩
      · rcases open_of_modify rfl h with ⟨-, hold⟩ | ⟨-, c', -, -, rfl⟩
        · exact hs.table j d hold hattached
        · cases hattached
      · obtain ⟨howner, hid⟩ := lookup_claimClusterSession s.sessions c.clientID c.node hidentity
        have hearly : s.enumerated = false :=
          eq_false_of_ne_true fun henum => hs.late i c hopen henum hphase
        refine .inr ⟨howner, ?_⟩
        rw [hearly]
        exact hid

theorem Inv.attached (hs : s.Inv identity) (i : ℕ) : (s.attached i).Inv identity := by
  rw [RevocationState.attached]
  cases hc : s.connections[i]? with
  | none => exact hs
  | some c =>
    dsimp only
    split_ifs with hphase
    · exact hs
    · rw [not_not] at hphase
      -- what is open now was open, and is this connection or not the one that it has replaced
      have hopen {j : ℕ} {d : DeviceConnection} (h : RevocationState.Open
          { s with
            connections := (s.stopLocal c.node c.clientID).modify i
              fun c => { c with phase := .attached }
            clients := Function.update s.clients c.node
              (Function.update (s.clients c.node) c.clientID (some i)) } j d) :
          (s.Open j d ∧ s.clients c.node c.clientID ≠ some j) ∨
            (j = i ∧ s.Open i c ∧ d = { c with phase := .attached }) := by
        rcases open_of_modify rfl h with ⟨-, hold⟩ | ⟨rfl, c', hc', hopen', rfl⟩
        · exact .inl (open_of_stopLocal (t := { s with connections := _ }) rfl hold)
        · obtain ⟨hbefore, -⟩ :=
            open_of_stopLocal (t := { s with connections := _ }) rfl ⟨hc', hopen'⟩
          obtain rfl := Option.some.inj (hc.symm.trans hbefore.1)
          exact .inr ⟨rfl, hbefore, rfl⟩
      have hpast : ConnectPhase.attached ≠ .checked := nofun
      refine hs.of_move hpast rfl (fun j d h => (hopen h).imp_left And.left)
        (fun j d h hattached => ?_) (fun _ _ _ hd => hd)
        fun hnew => hs.covered i c hnew (by rw [hphase]; exact nofun)
      refine (update_clients ..).trans ?_
      rcases hopen h with ⟨hold, hreplaced⟩ | ⟨rfl, -, rfl⟩
      · have htable := hs.table j d hold hattached
        rw [if_neg, htable]
        intro heq
        obtain ⟨hnode, hclient⟩ := Prod.mk.inj heq
        exact hreplaced (hnode ▸ hclient ▸ htable)
      · exact if_pos rfl

/-! ### Runs -/

theorem inv_step (hidentity : identity ≠ []) (s : RevocationState) (e : RevocationStep)
    (hs : s.Inv identity) (he : s.Orderly identity e) : (s.step identity e).Inv identity := by
  cases e with
  | check clientID node cached => exact hs.checked he.1 he.2
  | claim i => exact hs.claimed hidentity i
  | attach i => exact hs.attached i
  | stop i => exact hs.stop i
  | release clientID node => exact hs.release he.1 he.2
  | delete clientID node => exact hs.delete he
  | commit now | refresh node =>
    exact hs.of_open (fun _ _ h => h) (fun _ _ _ _ h => h) (fun _ _ _ _ h => h) .inl
  | enumerate order => exact hs.listSessions order he
  | lookUp => exact hs.lookedUp
  | evict k => exact hs.evicted he

private theorem inv_init (identity : Text) : ({} : RevocationState).Inv identity where
  named _ _ h := by cases h.1
  table _ _ h := by cases h.1
  covered _ _ h := by cases h.1
  late _ _ h := by cases h.1

/-- In an orderly run, once the revocation and all CONNECTs are over, no connection under the
identity is left. -/
theorem stopped_of_orderly {identity : Text} (hidentity : identity ≠ []) {es : List RevocationStep}
    (horderly : Along (step identity) (Orderly identity) {} es)
    (hsettled : (run (step identity) {} es).Settled identity) :
    ∀ c ∈ (run (step identity) {} es).connections, c.stopped = true := by
  have hinv : (run (step identity) {} es).Inv identity :=
    (always_of_along (inv_step hidentity) (inv_init identity) horderly).last
  intro c hc
  by_contra hopen
  rw [Bool.not_eq_true] at hopen
  obtain ⟨j, hj⟩ := List.mem_iff_getElem?.1 hc
  have hattached : c.phase ≠ .checked := by
    rw [hsettled.connects c hc hopen]
    exact nofun
  -- a covered connection has a message or an entry of the list to come
  rcases hinv.covered j c ⟨hj, hopen⟩ hattached with hevict | ⟨-, hlisted⟩
  · rw [hsettled.evicts] at hevict
    cases hevict
  · rw [hsettled.enumerated, hsettled.listed] at hlisted
    cases hlisted

/-- A device that has moved from one node to another is removed. -/
theorem stopped_of_orderly_moved :
    (run (step "d@t".toList) {}
      [.check "d".toList "m".toList false, .claim 0, .attach 0,
        .check "d".toList "n".toList false, .claim 1, .attach 1, .commit 0, .enumerate [], .lookUp,
        .evict 1, .evict 0]).connections.all DeviceConnection.stopped = true :=
  List.all_eq_true.2 (stopped_of_orderly (by decide) (by decide)
    ⟨by decide, by decide, by decide, by decide, fun _ => rfl, by decide⟩)

/-- A device stays connected if the revocation is over between its check and its claim, or if the
`Evict` arrives between its claim and the table of clients. -/
theorem attached_after_settled :
    ((run (step "d@t".toList) {}
        [.check "d".toList "m".toList false, .commit 0, .enumerate [], .claim 0,
          .attach 0]).Settled "d@t".toList ∧
      (run (step "d@t".toList) {}
        [.check "d".toList "m".toList false, .commit 0, .enumerate [], .claim 0,
          .attach 0]).connections =
        [{ clientID := "d".toList, node := "m".toList, phase := .attached, stopped := false }]) ∧
    (run (step "d@t".toList) {}
        [.check "d".toList "m".toList false, .claim 0, .commit 0, .enumerate [], .lookUp, .evict 0,
          .attach 0]).Settled "d@t".toList ∧
      (run (step "d@t".toList) {}
        [.check "d".toList "m".toList false, .claim 0, .commit 0, .enumerate [], .lookUp, .evict 0,
          .attach 0]).connections =
        [{ clientID := "d".toList, node := "m".toList, phase := .attached, stopped := false }] :=
  ⟨⟨⟨by decide, by decide, by decide, by decide, fun _ => rfl, by decide⟩, by decide⟩,
    ⟨by decide, by decide, by decide, by decide, fun _ => rfl, by decide⟩, by decide⟩

end RevocationState

end KeelGateway.Broker
