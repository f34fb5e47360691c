import KeelGateway.Lib.StepMachine
import KeelGateway.Raft.Sessions

/-!
# Eviction of a displaced connection

A CONNECT claims the session of its client in the Raft log. When the claim displaces another node,
an `Evict` is sent there, and the receiving node stops whatever client object it has under the
client ID. The message does not say which claim it belongs to, so a late one can meet a newer
connection of the client.

-/

namespace KeelGateway.Broker

open Raft

/-- `claimClusterSession`: the session map afterwards and the node to which an `Evict` is sent. -/
def claimClusterSession (sessions : Sessions) (clientID clusterNodeID identity : Text) :
    Sessions × Option Text :=
  let (sessions, evictedFrom) := sessions.claimSession clientID clusterNodeID identity
  (sessions, if evictedFrom ≠ [] ∧ evictedFrom ≠ clusterNodeID then some evictedFrom else none)

/-- A connection of the client. -/
structure ClaimedConnection where
  node : Text
  attached : Bool := false
  stopped : Bool := false

/-- One client ID in the cluster. -/
structure EvictState where
  sessions : Sessions := {}
  connections : List ClaimedConnection := []
  clients : Text → Option ℕ := fun _ => none
  evicts : List Text := []

/-- What happens to the client ID. -/
inductive EvictEvent where
  | claim (node identity : Text)
  | attach (i : ℕ)
  | evict (k : ℕ)
  | stop (i : ℕ)
  | release (node : Text)
  | delete (node : Text)

namespace EvictState

/-- `Client.Stop` on a connection. -/
def stopped (connections : List ClaimedConnection) (i : ℕ) : List ClaimedConnection :=
  connections.modify i fun c => { c with stopped := true }

/-- `Client.Stop` on the client object of a node, if there is one. -/
def stopLocal (s : EvictState) (node : Text) : List ClaimedConnection :=
  match s.clients node with
  | some j => stopped s.connections j
  | none => s.connections

/-- A new connection whose claim is committed. -/
def claimed (clientID : Text) (s : EvictState) (node identity : Text) : EvictState :=
  let (sessions, target) := claimClusterSession s.sessions clientID node identity
  { s with
    sessions := sessions
    connections := s.connections ++ [{ node := node }]
    evicts := s.evicts ++ target.toList }

/-- The new connection replaces the client object of its node, which is stopped. -/
def attached (s : EvictState) (i : ℕ) : EvictState :=
  match s.connections[i]? with
  | none => s
  | some c =>
    if c.attached then s
    else
      { s with
        connections := (s.stopLocal c.node).modify i fun c => { c with attached := true }
        clients := Function.update s.clients c.node (some i) }

/-- The handler of `SubscribeEvict`: the message names the client alone, so the client object that
the node has by now is stopped. -/
def evicted (s : EvictState) (k : ℕ) : EvictState :=
  match s.evicts[k]? with
  | none => s
  | some node => { s with connections := s.stopLocal node, evicts := s.evicts.eraseIdx k }

/-- One event. -/
def step (clientID : Text) (s : EvictState) : EvictEvent → EvictState
  | .claim node identity => s.claimed clientID node identity
  | .attach i => s.attached i
  | .evict k => s.evicted k
  | .stop i => { s with connections := stopped s.connections i }
  | .release node => { s with sessions := s.sessions.releaseSession clientID node }
  | .delete node => { s with clients := Function.update s.clients node none }

/-- The connection of the latest claim, while it is open. -/
def IsOwner (s : EvictState) (j : ℕ) : Prop :=
  j + 1 = s.connections.length ∧ ∃ c ∈ s.connections[j]?, c.stopped = false

/-- A delivery closes the connection of the latest claim. -/
def HitsOwner (s : EvictState) : EvictEvent → Prop
  | .evict k => ∃ node ∈ s.evicts[k]?, ∃ j ∈ s.clients node, s.IsOwner j
  | _ => False

/-- Whichever message under way arrives next, it does not hit the owner. -/
def HitsNone (s : EvictState) : Prop := ∀ e, ¬ s.HitsOwner e

/-- A connection that owns the session is put into the table of clients only when no `Evict` is
under way to its node. -/
def AttachesAlone (s : EvictState) : EvictEvent → Prop
  | .attach i => ∀ c ∈ s.connections[i]?, c.attached = false → s.IsOwner i → c.node ∉ s.evicts
  | _ => True

instance (s : EvictState) (j : ℕ) : Decidable (s.IsOwner j) :=
  inferInstanceAs (Decidable (_ ∧ ∃ c ∈ s.connections[j]?, c.stopped = false))

instance (s : EvictState) : (e : EvictEvent) → Decidable (s.HitsOwner e)
  | .evict k => inferInstanceAs (Decidable (∃ node ∈ s.evicts[k]?, ∃ j ∈ s.clients node, _))
  | .claim _ _ | .attach _ | .stop _ | .release _ | .delete _ => isFalse id

/-- The table of clients holds connections that were put there. -/
def Inv (s : EvictState) : Prop :=
  ∀ node j, s.clients node = some j → ∃ c, s.connections[j]? = some c ∧ c.attached = true

/-! ### Connections only close -/

/-- The same connections later on: what was attached still is, and what is open was open. -/
structure Later (cs ds : List ClaimedConnection) : Prop where
  length : ds.length = cs.length
  before : ∀ (j : ℕ) (d : ClaimedConnection), ds[j]? = some d → ∃ c, cs[j]? = some c ∧
    (c.attached = true → d.attached = true) ∧ (d.stopped = false → c.stopped = false)

theorem Later.refl (cs : List ClaimedConnection) : Later cs cs :=
  ⟨rfl, fun _ d hd => ⟨d, hd, id, id⟩⟩

theorem Later.trans {cs ds es : List ClaimedConnection} (h : Later cs ds) (h' : Later ds es) :
    Later cs es where
  length := h'.length.trans h.length
  before j e he := by
    obtain ⟨d, hd, hatt, hstop⟩ := h'.before j e he
    obtain ⟨c, hc, hatt', hstop'⟩ := h.before j d hd
    exact ⟨c, hc, hatt ∘ hatt', hstop' ∘ hstop⟩

theorem later_modify (cs : List ClaimedConnection) (i : ℕ)
    {f : ClaimedConnection → ClaimedConnection}
    (hatt : ∀ c, c.attached = true → (f c).attached = true)
    (hstop : ∀ c, (f c).stopped = false → c.stopped = false) : Later cs (cs.modify i f) where
  length := List.length_modify ..
  before j d hd := by
    rw [List.getElem?_modify, Option.map_eq_map, Option.map_eq_some_iff] at hd
    obtain ⟨c, hc, rfl⟩ := hd
    refine ⟨c, hc, ?_⟩
    split_ifs
    · exact ⟨hatt c, hstop c⟩
    · exact ⟨id, id⟩

theorem later_stopped (cs : List ClaimedConnection) (i : ℕ) : Later cs (stopped cs i) :=
  later_modify cs i (fun _ h => h) fun _ h => by cases h

theorem later_stopLocal (s : EvictState) (node : Text) :
    Later s.connections (s.stopLocal node) := by
  unfold stopLocal
  split
  · exact later_stopped _ _
  · exact Later.refl _

theorem getElem?_stopLocal_of_ne {s : EvictState} {node : Text} {j : ℕ}
    (h : s.clients node ≠ some j) : (s.stopLocal node)[j]? = s.connections[j]? := by
  unfold stopLocal
  split
  · rename_i i hi
    have hne : i ≠ j := fun hij => h (hij ▸ hi)
    rw [stopped, List.getElem?_modify_ne _ _ hne]
  · rfl

theorem IsOwner.of_later {s t : EvictState} (h : Later s.connections t.connections) {j : ℕ}
    (ht : t.IsOwner j) : s.IsOwner j := by
  obtain ⟨hlast, d, hd, hopen⟩ := ht
  obtain ⟨c, hc, -, hstop⟩ := h.before j d hd
  exact ⟨hlast.trans h.length, c, hc, hstop hopen⟩

theorem Inv.of_later {s t : EvictState} (hs : s.Inv) (h : Later s.connections t.connections)
    (hclients : ∀ node j, t.clients node = some j →
      s.clients node = some j ∨ ∃ d, t.connections[j]? = some d ∧ d.attached = true) : t.Inv := by
  intro node j hj
  rcases hclients node j hj with hold | hnew
  · obtain ⟨c, hc, hatt⟩ := hs node j hold
    have hlt : j < t.connections.length := h.length ▸ (List.getElem?_eq_some_iff.1 hc).1
    obtain ⟨c', hc', hatt', -⟩ := h.before j _ (List.getElem?_eq_getElem hlt)
    rw [hc] at hc'
    cases hc'
    exact ⟨_, List.getElem?_eq_getElem hlt, hatt' hatt⟩
  · exact hnew

/-! ### Steps -/

theorem hitsNone_iff (s : EvictState) :
    s.HitsNone ↔ ∀ node ∈ s.evicts, ∀ j, s.clients node = some j → ¬ s.IsOwner j := by
  constructor
  · intro h node hnode j hj howner
    obtain ⟨k, hk⟩ := List.mem_iff_getElem?.1 hnode
    exact h (.evict k) ⟨node, hk, j, hj, howner⟩
  · rintro h (_ | _ | k | _ | _ | _) hits
    case evict =>
      obtain ⟨node, hk, j, hj, howner⟩ := hits
      exact h node (List.mem_of_getElem? hk) j hj howner
    all_goals exact hits

theorem HitsNone.of_later {s t : EvictState} (hs : s.HitsNone)
    (h : Later s.connections t.connections) (hevicts : ∀ node ∈ t.evicts, node ∈ s.evicts)
    (hclients : ∀ node j, t.clients node = some j → s.clients node = some j) : t.HitsNone :=
  (hitsNone_iff t).2 fun node hnode j hj howner =>
    (hitsNone_iff s).1 hs node (hevicts node hnode) j (hclients node j hj) (howner.of_later h)

theorem attached_eq_of_old {s : EvictState} {i : ℕ}
    (h : ∀ c ∈ s.connections[i]?, c.attached = true) : s.attached i = s := by
  unfold attached
  split
  · rfl
  · rename_i c hc
    rw [if_pos (h c hc)]

theorem old_or_new (s : EvictState) (i : ℕ) : (∀ c ∈ s.connections[i]?, c.attached = true) ∨
    ∃ c, s.connections[i]? = some c ∧ c.attached = false := by
  cases hc : s.connections[i]? with
  | none => exact Or.inl (by simp)
  | some c =>
    cases hatt : c.attached with
    | false => exact Or.inr ⟨c, rfl, hatt⟩
    | true => exact Or.inl (by simp [hatt])

section Attach

variable {s : EvictState} {i : ℕ} {c : ClaimedConnection} (hs : s.Inv)
  (hc : s.connections[i]? = some c) (hnew : c.attached = false)

include hc hnew

theorem attached_eq_of_new : s.attached i =
    { s with
      connections := (s.stopLocal c.node).modify i fun c => { c with attached := true }
      clients := Function.update s.clients c.node (some i) } := by
  simp [attached, hc, hnew]

theorem later_attached : Later s.connections (s.attached i).connections := by
  rw [attached_eq_of_new hc hnew]
  exact (later_stopLocal s c.node).trans (later_modify _ i (fun _ _ => rfl) fun _ h => h)

theorem clients_attached :
    (s.attached i).clients = Function.update s.clients c.node (some i) := by
  rw [attached_eq_of_new hc hnew]

include hs

theorem getElem?_attached :
    (s.attached i).connections[i]? = some { c with attached := true } := by
  have hother : s.clients c.node ≠ some i := by
    intro hi
    obtain ⟨d, hd, hatt⟩ := hs c.node i hi
    rw [hc] at hd
    cases hd
    exact absurd hatt (by simp [hnew])
  rw [attached_eq_of_new hc hnew]
  simp [getElem?_stopLocal_of_ne hother, hc]

private theorem isOwner_attached_iff : (s.attached i).IsOwner i ↔ s.IsOwner i := by
  refine ⟨IsOwner.of_later (later_attached hc hnew), ?_⟩
  rintro ⟨hlast, d, hd, hopen⟩
  obtain rfl : c = d := Option.some.inj (hc.symm.trans hd)
  exact ⟨hlast.trans (later_attached hc hnew).length.symm, _, getElem?_attached hs hc hnew, hopen⟩

theorem Inv.attached_of_new : (s.attached i).Inv := by
  refine hs.of_later (later_attached hc hnew) fun node j hj => ?_
  rw [clients_attached hc hnew, Function.update_apply] at hj
  split_ifs at hj
  · cases hj
    exact Or.inr ⟨_, getElem?_attached hs hc hnew, rfl⟩
  · exact Or.inl hj

theorem hitsNone_attached_iff (hsafe : s.HitsNone) :
    (s.attached i).HitsNone ↔ (s.IsOwner i → c.node ∉ s.evicts) := by
  have hevicts : (s.attached i).evicts = s.evicts := by rw [attached_eq_of_new hc hnew]
  rw [hitsNone_iff, hevicts, clients_attached hc hnew, ← isOwner_attached_iff hs hc hnew]
  constructor
  · intro h howner hmem
    exact h c.node hmem i (Function.update_self ..) howner
  · intro h node hnode j hj howner
    by_cases hn : node = c.node
    · subst hn
      rw [Function.update_self] at hj
      cases hj
      exact h howner hnode
    · rw [Function.update_of_ne hn] at hj
      exact (hitsNone_iff s).1 hsafe node hnode j hj
        (howner.of_later (later_attached hc hnew))

end Attach

theorem later_evicted (s : EvictState) (k : ℕ) :
    Later s.connections (s.evicted k).connections := by
  unfold evicted
  cases s.evicts[k]? with
  | none => exact Later.refl _
  | some node => exact later_stopLocal s node

theorem clients_evicted (s : EvictState) (k : ℕ) : (s.evicted k).clients = s.clients := by
  unfold evicted
  cases s.evicts[k]? <;> rfl

private theorem mem_evicts_of_evicted {s : EvictState} {k : ℕ} {node : Text}
    (h : node ∈ (s.evicted k).evicts) : node ∈ s.evicts := by
  unfold evicted at h
  cases hk : s.evicts[k]? with
  | none => simpa [hk] using h
  | some _ => exact List.mem_of_mem_eraseIdx (by simpa [hk] using h)

theorem clients_of_delete {clients : Text → Option ℕ} {node n : Text} {j : ℕ}
    (h : Function.update clients node none n = some j) : clients n = some j := by
  rw [Function.update_apply] at h
  split_ifs at h
  exact h

theorem inv_step (clientID : Text) (s : EvictState) (e : EvictEvent) (hs : s.Inv) :
    (s.step clientID e).Inv := by
  cases e with
  | claim node identity =>
    intro n j hj
    obtain ⟨c, hc, hatt⟩ := hs n j hj
    exact ⟨c, (List.getElem?_append_left (List.getElem?_eq_some_iff.1 hc).1).trans hc, hatt⟩
  | attach i =>
    change (s.attached i).Inv
    rcases s.old_or_new i with hold | ⟨c, hc, hnew⟩
    · rwa [attached_eq_of_old hold]
    · exact hs.attached_of_new hc hnew
  | evict k =>
    exact hs.of_later (later_evicted s k) fun _ _ hj => Or.inl (clients_evicted s k ▸ hj)
  | stop i => exact hs.of_later (later_stopped _ i) fun _ _ hj => Or.inl hj
  | release node => exact hs
  | delete node => exact hs.of_later (Later.refl _) fun _ _ hj => Or.inl (clients_of_delete hj)

theorem hitsNone_step_iff (clientID : Text) (s : EvictState) (e : EvictEvent) (hs : s.Inv)
    (hsafe : s.HitsNone) : (s.step clientID e).HitsNone ↔ s.AttachesAlone e := by
  cases e with
  | claim node identity =>
    refine iff_of_true ((hitsNone_iff _).2 fun n _ j hj howner => ?_) trivial
    -- the new connection is the owner, and it is in no table yet
    obtain ⟨c, hc, -⟩ := hs n j hj
    have hlt := (List.getElem?_eq_some_iff.1 hc).1
    have hlast : j + 1 = (s.connections ++ [({ node := node } :
      ClaimedConnection)]).length := howner.1
    rw [List.length_append, List.length_singleton] at hlast
    omega
  | attach i =>
    change (s.attached i).HitsNone ↔ _
    rcases s.old_or_new i with hold | ⟨c, hc, hnew⟩
    · rw [attached_eq_of_old hold]
      exact iff_of_true hsafe fun c hc hnew => absurd (hold c hc) (by simp [hnew])
    · rw [hitsNone_attached_iff hs hc hnew hsafe]
      simp [AttachesAlone, hc, hnew]
  | evict k =>
    exact iff_of_true (hsafe.of_later (later_evicted s k) (fun _ => mem_evicts_of_evicted)
      fun _ _ hj => clients_evicted s k ▸ hj) trivial
  | stop i =>
    exact iff_of_true (hsafe.of_later (later_stopped _ i) (fun _ h => h) fun _ _ hj => hj) trivial
  | release node => exact iff_of_true hsafe trivial
  | delete node =>
    exact iff_of_true (hsafe.of_later (Later.refl _) (fun _ h => h)
      fun _ _ => clients_of_delete) trivial

/-- In a run from the start, no message that is under way can ever hit the owner exactly when every
connection that owns the session enters the table of its node with no `Evict` under way there. -/
theorem always_hitsNone_iff (clientID : Text) (es : List EvictEvent) :
    StepMachine.Always (step clientID) HitsNone {} es ↔
      StepMachine.Along (step clientID) AttachesAlone {} es :=
  StepMachine.always_iff_along_of_invariant (fun s e hs _ => inv_step clientID s e hs)
    (hitsNone_step_iff clientID) (fun _ _ h => by cases h)
    ((hitsNone_iff _).2 fun _ h => by cases h)

/-- The client connects on one node, moves to another, and comes back before the message about the
first move arrives: it closes the connection that owns the session. -/
theorem hitsOwner_return :
    (StepMachine.run (step "d".toList) {}
      [.claim "m".toList [], .attach 0, .claim "n".toList [], .attach 1,
        .claim "m".toList [], .attach 2]).HitsOwner (.evict 0) := by
  decide

end EvictState

end KeelGateway.Broker
