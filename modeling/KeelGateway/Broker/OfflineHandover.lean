import KeelGateway.Broker.RouteReferences
import KeelGateway.Session.Placement

/-!
# Routes of a persistent session between connections

When the connection of a persistent session ends, its node first places the session at an offline
owner and then gives up the live routes, so that publishers always find one or the other. A
connection that was evicted skips the first part: the session is taken to be live on another node
already. But an eviction is one message, whoever sends it. The node that takes a session over sends
it, before its own routes are registered, and so do the rebalancer and the revocation of a
certificate, for which there is no other node.

A connection that resumes the session clears its offline owners first and registers its live routes
afterwards.

-/

namespace KeelGateway.Broker

open Mochi Routing StepMachine

/-! ### The machine -/

/-- How far the connection of the session to a node has come. -/
inductive LinkPhase where
  | away
  | clearing (filters : List Text)
  | registering (filters : List Text)
  | connected
  | placing (filters : List Text)
  | leaving
  deriving DecidableEq

/-- The connection is established, and its routes are not given up yet. -/
def LinkPhase.attached : LinkPhase → Bool
  | connected | placing _ | leaving => true
  | _ => false

/-- The connection of the session to a node. -/
structure Link where
  phase : LinkPhase := .away
  stop : Option StopCause := none

/-- A persistent session: its subscriptions, the live edges, and its owner among them. None of the
filters has the text of a key of the session. -/
structure PersistentSession where
  clientID : Text
  filters : List Text
  liveEdges : List Text
  owner : Text
  isOwner : Session.owner clientID liveEdges = some owner
  plain : ∀ f ∈ filters, ∀ g, f ≠ ownershipKey clientID g ∧ f ≠ offlineRouteKey g

/-- The connections of the session, the filter references of every node, and the routing store. -/
structure HandoverState where
  links : Text → Link := fun _ => {}
  refs : Text → FilterRefs := fun _ => ∅
  store : RouteStore := ∅

/-- What happens in the cluster. -/
inductive HandoverEvent where
  | connect (nodeID : Text)
  /-- The next call of the handler on a node. `answer` is what `CurrentOwner` answers to it. -/
  | advance (nodeID : Text) (answer : Option Text)
  | stop (nodeID : Text) (cause : StopCause)
  | disconnect (nodeID : Text)
  | subscribe (nodeID clientID filter : Text)
  | unsubscribe (nodeID clientID filter : Text)

namespace HandoverState

variable (cfg : PersistentSession)

/-- The connection to a node changes. -/
def setLink (s : HandoverState) (nodeID : Text) (link : Link) : HandoverState :=
  { s with links := Function.update s.links nodeID link }

/-- The handler on a node comes to its next call. -/
def goTo (s : HandoverState) (nodeID : Text) (phase : LinkPhase) : HandoverState :=
  s.setLink nodeID { s.links nodeID with phase := phase }

/-- `addClusterFilterRef`, and `Subscribe` for the first user. -/
def register (s : HandoverState) (nodeID clientID filter : Text) : HandoverState :=
  let r := addClusterFilterRef (s.refs nodeID) clientID filter
  { s with
    refs := Function.update s.refs nodeID r.1
    store := if r.2 then s.store.subscribe filter nodeID .ok else s.store }

/-- `removeClusterFilterRefs`, and `Unsubscribe` for the filters without a user. -/
def giveUp (s : HandoverState) (nodeID clientID : Text) (filters : List Text) : HandoverState :=
  let r := removeClusterFilterRefs (s.refs nodeID) clientID filters
  { s with
    refs := Function.update s.refs nodeID r.1
    store := r.2.foldl (fun store filter => store.unsubscribe filter nodeID .ok) s.store }

/-- The next call of the handler on a node. -/
def advanced (s : HandoverState) (nodeID : Text) (answer : Option Text) : HandoverState :=
  match (s.links nodeID).phase with
  | .away | .connected => s
  | .clearing [] => s.goTo nodeID (.registering cfg.filters)
  | .clearing (f :: fs) =>
    { s.goTo nodeID (.clearing fs) with store := (s.store.clear cfg.clientID f answer .ok).1 }
  | .registering [] => s.goTo nodeID .connected
  | .registering (f :: fs) => (s.register nodeID cfg.clientID f).goTo nodeID (.registering fs)
  | .placing [] => s.goTo nodeID .leaving
  | .placing (f :: fs) =>
    { s.goTo nodeID (.placing fs) with
      store := (s.store.place cfg.clientID f cfg.owner answer {}).1 }
  | .leaving => (s.giveUp nodeID cfg.clientID cfg.filters).goTo nodeID .away

/-- `OnDisconnect` up to its first call: an evicted connection is not placed. -/
def disconnected (s : HandoverState) (nodeID : Text) : HandoverState :=
  match (s.links nodeID).stop with
  | none => s
  | some .sessionTakenOver => s.goTo nodeID .leaving
  | some .other => s.goTo nodeID (.placing cfg.filters)

/-- One event. -/
def step (s : HandoverState) : HandoverEvent → HandoverState
  | .connect nodeID =>
    if (s.links nodeID).phase = .away then s.setLink nodeID ⟨.clearing cfg.filters, none⟩ else s
  | .advance nodeID answer => s.advanced cfg nodeID answer
  | .stop nodeID cause =>
    if (s.links nodeID).phase = .connected ∧ (s.links nodeID).stop = none then
      s.setLink nodeID ⟨.connected, some cause⟩
    else s
  | .disconnect nodeID =>
    if (s.links nodeID).phase = .connected then s.disconnected cfg nodeID else s
  | .subscribe nodeID clientID filter => s.register nodeID clientID filter
  | .unsubscribe nodeID clientID filter => s.giveUp nodeID clientID [filter]

/-! ### Coverage -/

/-- The session is attached to the node. -/
def Attached (s : HandoverState) (nodeID : Text) : Prop := (s.links nodeID).phase.attached = true

/-- The owner of the session is registered with the filter, and publishers find it. -/
def Owned (s : HandoverState) (filter : Text) : Prop :=
  (ownershipKey cfg.clientID filter, cfg.owner) ∈ s.store ∧
    (offlineRouteKey filter, cfg.owner) ∈ s.store

/-- Every filter has a live route at a node that the session is attached to, or an offline owner
with its hint at a live edge. -/
def Covered (s : HandoverState) : Prop :=
  ∀ f ∈ cfg.filters, (∃ n, s.Attached n ∧ (f, n) ∈ s.store) ∨
    ∃ o ∈ cfg.liveEdges,
      (ownershipKey cfg.clientID f, o) ∈ s.store ∧ (offlineRouteKey f, o) ∈ s.store

/-- The disconnect handler of a connection that was not evicted is running. -/
def Settling (s : HandoverState) (nodeID : Text) : Prop :=
  (∃ filters, (s.links nodeID).phase = .placing filters) ∨
    ((s.links nodeID).phase = .leaving ∧ (s.links nodeID).stop ≠ some .sessionTakenOver)

/-- The filter has the text of a key of the session. -/
def Reserved (filter : Text) : Prop :=
  ∃ g, filter = ownershipKey cfg.clientID g ∨ filter = offlineRouteKey g

/-- The handlers overlap where they have to. An offline owner is cleared only while the session is
attached somewhere and nobody is settling it, and an evicted connection leaves only while the
session is attached to another node. Other clients keep away from the keys of the session. -/
def HandsOver (s : HandoverState) : HandoverEvent → Prop
  | .advance n _ =>
    (∀ f fs, (s.links n).phase = .clearing (f :: fs) →
      (∃ m, s.Attached m) ∧ ∀ m, ¬ s.Settling m) ∧
    ((s.links n).phase = .leaving → (s.links n).stop = some .sessionTakenOver →
      ∃ m ≠ n, s.Attached m)
  | .subscribe _ clientID filter | .unsubscribe _ clientID filter =>
    clientID ≠ cfg.clientID ∧ ¬ Reserved cfg filter
  | .connect _ | .stop _ _ | .disconnect _ => True

/-- The session is connected to one node, and the routes are what the references say. -/
structure Established (s : HandoverState) (nodeID : Text) : Prop where
  connected : (s.links nodeID).phase = .connected
  away : ∀ n ≠ nodeID, (s.links n).phase = .away
  held : ∀ f ∈ cfg.filters, HoldsRef (s.refs nodeID) cfg.clientID f
  routed : ∀ n c f, HoldsRef (s.refs n) c f → (f, n) ∈ s.store
  plain : ∀ n c f, HoldsRef (s.refs n) c f → ¬ Reserved cfg f

/-! ### What a step preserves -/

/-- What every step that hands over preserves. -/
structure Inv (s : HandoverState) : Prop where
  held : ∀ n, s.Attached n → ∀ f ∈ cfg.filters, HoldsRef (s.refs n) cfg.clientID f
  registering : ∀ n fs, (s.links n).phase = .registering fs → fs ⊆ cfg.filters ∧
    ∀ f ∈ cfg.filters, f ∉ fs → HoldsRef (s.refs n) cfg.clientID f
  routed : ∀ n c f, HoldsRef (s.refs n) c f → (f, n) ∈ s.store
  plain : ∀ n c f, HoldsRef (s.refs n) c f → ¬ Reserved cfg f
  placing : ∀ n fs, (s.links n).phase = .placing fs → ∀ f ∈ cfg.filters, f ∉ fs → s.Owned cfg f
  leaving : ∀ n, (s.links n).phase = .leaving → (s.links n).stop ≠ some .sessionTakenOver →
    ∀ f ∈ cfg.filters, s.Owned cfg f
  found : (∃ n, s.Attached n) ∨ ∀ f ∈ cfg.filters, s.Owned cfg f

variable {cfg} {s : HandoverState} {nodeID : Text}

theorem Inv.covered (h : s.Inv cfg) : s.Covered cfg := by
  intro f hf
  rcases h.found with ⟨n, hn⟩ | howned
  · exact Or.inl ⟨n, hn, h.routed n _ f (h.held n hn f hf)⟩
  · exact Or.inr ⟨cfg.owner, Session.mem_of_owner cfg.isOwner, howned f hf⟩

theorem Established.inv (h : s.Established cfg nodeID) : s.Inv cfg := by
  have hphase {n : Text} (hn : (s.links n).phase ≠ .away) : n = nodeID :=
    by_contra fun hne => hn (h.away n hne)
  refine ⟨fun n hn => ?_, fun n fs hn => ?_, h.routed, h.plain, fun n fs hn => ?_, fun n hn => ?_,
    Or.inl ⟨nodeID, ?_⟩⟩
  · obtain rfl := hphase (n := n) fun haway => by simp [Attached, haway, LinkPhase.attached] at hn
    exact h.held
  · obtain rfl := hphase (n := n) (by simp [hn])
    simp [h.connected] at hn
  · obtain rfl := hphase (n := n) (by simp [hn])
    simp [h.connected] at hn
  · obtain rfl := hphase (n := n) (by simp [hn])
    simp [h.connected] at hn
  · simp [Attached, h.connected, LinkPhase.attached]

theorem links_setLink (n : Text) (link : Link) (m : Text) :
    (s.setLink n link).links m = if m = n then link else s.links m := by
  unfold setLink
  dsimp only
  split_ifs with hm
  · rw [hm, Function.update_self]
  · rw [Function.update_of_ne hm]

variable {link : Link} {e : HandoverEvent}

theorem attached_setLink {n m : Text} :
    (s.setLink n link).Attached m ↔ if m = n then link.phase.attached = true else s.Attached m := by
  unfold Attached
  rw [links_setLink]
  split_ifs <;> rfl

theorem Inv.setLink (h : s.Inv cfg)
    (hheld : link.phase.attached = true →
      ∀ f ∈ cfg.filters, HoldsRef (s.refs nodeID) cfg.clientID f)
    (hregistering : ∀ fs, link.phase = .registering fs → fs ⊆ cfg.filters ∧
      ∀ f ∈ cfg.filters, f ∉ fs → HoldsRef (s.refs nodeID) cfg.clientID f)
    (hplacing : ∀ fs, link.phase = .placing fs → ∀ f ∈ cfg.filters, f ∉ fs → s.Owned cfg f)
    (hleaving : link.phase = .leaving → link.stop ≠ some .sessionTakenOver →
      ∀ f ∈ cfg.filters, s.Owned cfg f)
    (hfound : s.Attached nodeID → link.phase.attached = true) :
    (s.setLink nodeID link).Inv cfg where
  held n hn := by
    rw [attached_setLink] at hn
    split_ifs at hn with heq
    · exact heq ▸ hheld hn
    · exact h.held n hn
  registering n fs hn := by
    rw [links_setLink] at hn
    split_ifs at hn with heq
    · exact heq ▸ hregistering fs hn
    · exact h.registering n fs hn
  routed := h.routed
  plain := h.plain
  placing n fs hn := by
    rw [links_setLink] at hn
    split_ifs at hn with heq
    · exact hplacing fs hn
    · exact h.placing n fs hn
  leaving n hn hstop := by
    rw [links_setLink] at hn hstop
    split_ifs at hn hstop with heq
    · exact hleaving hn hstop
    · exact h.leaving n hn hstop
  found := by
    refine h.found.imp_left fun ⟨n, hn⟩ => ⟨n, ?_⟩
    rw [attached_setLink]
    split_ifs with heq
    · exact hfound (heq ▸ hn)
    · exact hn

theorem Inv.withStore (h : s.Inv cfg) {store : RouteStore}
    (hrouted : ∀ n c f, HoldsRef (s.refs n) c f → (f, n) ∈ store)
    (howned : ∀ f ∈ cfg.filters, s.Owned cfg f → Owned cfg { s with store := store } f) :
    Inv cfg { s with store := store } where
  held := h.held
  registering := h.registering
  routed := hrouted
  plain := h.plain
  placing n fs hn f hf hmem := howned f hf (h.placing n fs hn f hf hmem)
  leaving n hn hstop f hf := howned f hf (h.leaving n hn hstop f hf)
  found := h.found.imp_right fun hall f hf => howned f hf (hall f hf)

section Routes

variable {n m clientID c f g : Text} {filters : List Text}

theorem holdsRef_register :
    HoldsRef ((s.register n clientID f).refs m) c g ↔
      HoldsRef (s.refs m) c g ∨ (m = n ∧ c = clientID ∧ g = f) := by
  unfold register
  by_cases hm : m = n
  · subst hm
    simp only [Function.update_self, holdsRef_addClusterFilterRef, true_and]
  · simp [hm]

theorem mem_store_register {row : Text × Text} (hrow : row ∈ s.store) :
    row ∈ (s.register n clientID f).store := by
  unfold register
  dsimp only
  split_ifs
  · exact RouteStore.mem_subscribe.2 (Or.inl hrow)
  · exact hrow

theorem holdsRef_giveUp :
    HoldsRef ((s.giveUp n clientID filters).refs m) c g ↔
      HoldsRef (s.refs m) c g ∧ ¬ (m = n ∧ c = clientID ∧ g ∈ filters) := by
  unfold giveUp
  by_cases hm : m = n
  · subst hm
    simp only [Function.update_self, holdsRef_removeClusterFilterRefs, true_and]
  · simp [hm]

theorem mem_store_giveUp {row : Text × Text} :
    row ∈ (s.giveUp n clientID filters).store ↔
      row ∈ s.store ∧
        ¬ (row.2 = n ∧ row.1 ∈ (removeClusterFilterRefs (s.refs n) clientID filters).2) := by
  have hstep : ∀ f ∈ (removeClusterFilterRefs (s.refs n) clientID filters).2, ∀ store : RouteStore,
      row ∈ store.unsubscribe f n .ok ↔ row ∈ store ∧ row ≠ (f, n) := by
    simp [CallOutcome.written]
  refine (run_iff_forall (P := (row ∈ ·)) hstep s.store).trans
    (and_congr_right fun _ => ?_)
  constructor
  · rintro hne ⟨rfl, hmem⟩
    exact hne _ hmem rfl
  · rintro hno f hf rfl
    exact hno ⟨rfl, hf⟩

end Routes

section Steps

variable {clientID f : Text} {filters : List Text}

theorem Inv.ne_of_holdsRef (h : s.Inv cfg) {n c : Text} (hf : HoldsRef (s.refs n) c f)
    (g m : Text) :
    (f, n) ≠ (ownershipKey cfg.clientID g, m) :=
  fun heq => h.plain n c f hf ⟨g, Or.inl (Prod.mk.inj heq).1⟩

theorem Inv.register (h : s.Inv cfg) (hplain : ¬ Reserved cfg f) (n clientID : Text) :
    (s.register n clientID f).Inv cfg where
  held m hm g hg := holdsRef_register.2 (Or.inl (h.held m hm g hg))
  registering m fs hm := by
    obtain ⟨hsub, hheld⟩ := h.registering m fs hm
    exact ⟨hsub, fun g hg hmem => holdsRef_register.2 (Or.inl (hheld g hg hmem))⟩
  routed m c g hg := by
    rcases holdsRef_register.1 hg with hg | ⟨rfl, rfl, rfl⟩
    · exact mem_store_register (h.routed m c g hg)
    · -- the first user registers the route, any other one finds it
      unfold HandoverState.register
      dsimp only
      split_ifs with hfirst
      · exact RouteStore.mem_subscribe.2 (Or.inr ⟨rfl, rfl⟩)
      · obtain ⟨d, hd⟩ := exists_holdsRef_of_not_first _ _ (eq_false_of_ne_true hfirst)
        exact h.routed m d g hd
  plain m c g hg := by
    rcases holdsRef_register.1 hg with hg | ⟨-, -, rfl⟩
    · exact h.plain m c g hg
    · exact hplain
  placing m fs hm g hg hmem :=
    ⟨mem_store_register (h.placing m fs hm g hg hmem).1,
      mem_store_register (h.placing m fs hm g hg hmem).2⟩
  leaving m hm hstop g hg :=
    ⟨mem_store_register (h.leaving m hm hstop g hg).1,
      mem_store_register (h.leaving m hm hstop g hg).2⟩
  found := h.found.imp_right fun hall g hg =>
    ⟨mem_store_register (hall g hg).1, mem_store_register (hall g hg).2⟩

variable {g : Text}

theorem Inv.routed_giveUp (h : s.Inv cfg) {n m c : Text}
    (hg : HoldsRef ((s.giveUp n clientID filters).refs m) c g) :
    (g, m) ∈ (s.giveUp n clientID filters).store := by
  refine mem_store_giveUp.2 ⟨h.routed m c g (holdsRef_giveUp.1 hg).1, ?_⟩
  rintro ⟨rfl, hlast⟩
  refine not_holdsRef_of_mem_last hlast c ?_
  simpa only [giveUp, Function.update_self] using hg

theorem Owned.giveUp (h : s.Owned cfg g) (hplain : ∀ f ∈ filters, ¬ Reserved cfg f)
    (n clientID : Text) : (s.giveUp n clientID filters).Owned cfg g := by
  have hmem {f : Text} (hf : f ∈ (removeClusterFilterRefs (s.refs n) clientID filters).2) :
      ¬ Reserved cfg f :=
    hplain f ((sublist_removeClusterFilterRefs _ _ _).subset hf)
  refine ⟨mem_store_giveUp.2 ⟨h.1, ?_⟩, mem_store_giveUp.2 ⟨h.2, ?_⟩⟩
  · exact fun hrow => hmem hrow.2 ⟨g, Or.inl rfl⟩
  · exact fun hrow => hmem hrow.2 ⟨g, Or.inr rfl⟩

theorem Inv.giveUp (h : s.Inv cfg) (hother : clientID ≠ cfg.clientID)
    (hplain : ∀ f ∈ filters, ¬ Reserved cfg f) (n : Text) :
    (s.giveUp n clientID filters).Inv cfg where
  held m hm g hg := holdsRef_giveUp.2 ⟨h.held m hm g hg, fun heq => hother heq.2.1.symm⟩
  registering m fs hm := by
    obtain ⟨hsub, hheld⟩ := h.registering m fs hm
    exact ⟨hsub, fun g hg hmem =>
      holdsRef_giveUp.2 ⟨hheld g hg hmem, fun heq => hother heq.2.1.symm⟩⟩
  routed _ _ _ hg := h.routed_giveUp hg
  plain m c g hg := h.plain m c g (holdsRef_giveUp.1 hg).1
  placing m fs hm g hg hmem := (h.placing m fs hm g hg hmem).giveUp hplain n clientID
  leaving m hm hstop g hg := (h.leaving m hm hstop g hg).giveUp hplain n clientID
  found := h.found.imp_right fun hall g hg => (hall g hg).giveUp hplain n clientID

theorem not_reserved (hf : f ∈ cfg.filters) : ¬ Reserved cfg f := by
  rintro ⟨g, heq | heq⟩
  · exact (cfg.plain f hf g).1 heq
  · exact (cfg.plain f hf g).2 heq

theorem Inv.leave (h : s.Inv cfg) (hphase : (s.links nodeID).phase = .leaving)
    (hover : (s.links nodeID).stop = some .sessionTakenOver → ∃ m ≠ nodeID, s.Attached m) :
    ((s.giveUp nodeID cfg.clientID cfg.filters).goTo nodeID .away).Inv cfg where
  held m hm g hg := by
    rw [goTo, attached_setLink] at hm
    split_ifs at hm with heq
    · cases hm
    · exact holdsRef_giveUp.2 ⟨h.held m hm g hg, fun hown => heq hown.1⟩
  registering m fs hm := by
    rw [goTo, links_setLink] at hm
    split_ifs at hm with heq
    obtain ⟨hsub, hheld⟩ := h.registering m fs hm
    exact ⟨hsub, fun g hg hmem => holdsRef_giveUp.2 ⟨hheld g hg hmem, fun hown => heq hown.1⟩⟩
  routed m c g hg := h.routed_giveUp hg
  plain m c g hg := h.plain m c g (holdsRef_giveUp.1 hg).1
  placing m fs hm g hg hmem := by
    rw [goTo, links_setLink] at hm
    split_ifs at hm with heq
    exact (h.placing m fs hm g hg hmem).giveUp (fun f => not_reserved) nodeID cfg.clientID
  leaving m hm hstop g hg := by
    rw [goTo, links_setLink] at hm hstop
    split_ifs at hm hstop with heq
    exact (h.leaving m hm hstop g hg).giveUp (fun f => not_reserved) nodeID cfg.clientID
  found := by
    by_cases hstop : (s.links nodeID).stop = some .sessionTakenOver
    · obtain ⟨m, hne, hm⟩ := hover hstop
      exact Or.inl ⟨m, attached_setLink.2 (by rwa [if_neg hne])⟩
    · exact Or.inr fun g hg => (h.leaving nodeID hphase hstop g hg).giveUp
        (fun f => not_reserved) nodeID cfg.clientID

theorem Inv.clear (h : s.Inv cfg) {fs : List Text} (answer : Option Text)
    (hphase : (s.links nodeID).phase = .clearing (f :: fs)) (hattached : ∃ m, s.Attached m)
    (hquiet : ∀ m, ¬ s.Settling m) :
    Inv cfg { s.goTo nodeID (.clearing fs) with
      store := (s.store.clear cfg.clientID f answer .ok).1 } where
  held m hm := by
    replace hm := attached_setLink.1 hm
    split_ifs at hm with heq
    · cases hm
    · exact h.held m hm
  registering m fs' hm := by
    rw [goTo, links_setLink] at hm
    split_ifs at hm with heq
    exact h.registering m fs' hm
  routed m c g hg := by
    refine RouteStore.mem_clear.2 ⟨h.routed m c g hg, ?_⟩
    rintro ⟨o, -, -, hrow⟩
    exact h.ne_of_holdsRef hg f o hrow
  plain := h.plain
  placing m fs' hm := by
    rw [goTo, links_setLink] at hm
    split_ifs at hm with heq
    exact absurd (Or.inl ⟨fs', hm⟩) (hquiet m)
  leaving m hm hstop := by
    rw [goTo, links_setLink] at hm hstop
    split_ifs at hm hstop with heq
    exact absurd (Or.inr ⟨hm, hstop⟩) (hquiet m)
  found := by
    obtain ⟨m, hm⟩ := hattached
    refine Or.inl ⟨m, attached_setLink.2 ?_⟩
    rw [if_neg]
    · exact hm
    · rintro rfl
      rw [Attached, hphase] at hm
      cases hm

theorem Owned.place (h : s.Owned cfg g ∨ g = f) (answer : Option Text) :
    Owned cfg { s with store := (s.store.place cfg.clientID f cfg.owner answer {}).1 } g := by
  have hkept (t : Text) : ¬ ∃ n, answer = some n ∧ n ≠ cfg.owner ∧ CallOutcome.ok = .ok ∧
      CallOutcome.ok = .ok ∧ CallOutcome.ok.written = true ∧
      (t, cfg.owner) = (ownershipKey cfg.clientID f, n) := by
    rintro ⟨n, -, hne, -, -, -, heq⟩
    exact hne (Prod.mk.inj heq).2.symm
  rcases h with h | rfl
  · exact ⟨RouteStore.mem_place.2 ⟨Or.inl h.1, hkept _⟩,
      RouteStore.mem_place.2 ⟨Or.inl h.2, hkept _⟩⟩
  · exact ⟨RouteStore.mem_place.2 ⟨Or.inr (Or.inl ⟨rfl, rfl⟩), hkept _⟩,
      RouteStore.mem_place.2 ⟨Or.inr (Or.inr ⟨rfl, rfl, rfl⟩), hkept _⟩⟩

theorem Inv.place (h : s.Inv cfg) {fs : List Text} (answer : Option Text)
    (hphase : (s.links nodeID).phase = .placing (f :: fs)) :
    Inv cfg { s.goTo nodeID (.placing fs) with
      store := (s.store.place cfg.clientID f cfg.owner answer {}).1 } := by
  have hattached : s.Attached nodeID := by rw [Attached, hphase]; rfl
  have hstore :
      Inv cfg { s with store := (s.store.place cfg.clientID f cfg.owner answer {}).1 } := by
    refine h.withStore (fun n c g hg => ?_) fun g _ hg => Owned.place (Or.inl hg) answer
    refine RouteStore.mem_place.2 ⟨Or.inl (h.routed n c g hg), ?_⟩
    rintro ⟨o, -, -, -, -, -, hrow⟩
    exact h.ne_of_holdsRef hg f o hrow
  refine hstore.setLink (fun _ => h.held nodeID hattached) (fun _ hp => by cases hp)
    (fun fs' hp g hg hmem => ?_) (fun hp => by cases hp) fun _ => rfl
  cases hp
  by_cases hgf : g = f
  · exact Owned.place (Or.inr hgf) answer
  · exact Owned.place (Or.inl (h.placing nodeID _ hphase g hg (by simp [hgf, hmem]))) answer

end Steps

theorem Inv.advanced (h : s.Inv cfg) {answer : Option Text}
    (hover : s.HandsOver cfg (.advance nodeID answer)) :
    (s.advanced cfg nodeID answer).Inv cfg := by
  have hnot {p : LinkPhase} (hphase : (s.links nodeID).phase = p) (hp : p.attached = false) :
      ¬ s.Attached nodeID := by
    rw [Attached, hphase, hp]
    decide
  unfold HandoverState.advanced
  split
  · exact h
  · exact h
  · next hphase =>
    refine h.setLink (fun hp => by cases hp) (fun fs hp => ?_) (fun _ hp => by cases hp)
      (fun hp => by cases hp) fun hn => absurd hn (hnot hphase rfl)
    cases hp
    exact ⟨List.Subset.refl _, fun f hf hmem => absurd hf hmem⟩
  · next f fs hphase =>
    obtain ⟨hattached, hquiet⟩ := hover.1 f fs hphase
    exact h.clear answer hphase hattached hquiet
  · next hphase =>
    have hheld := (h.registering nodeID [] hphase).2
    exact h.setLink (fun _ f hf => hheld f hf List.not_mem_nil) (fun _ hp => by cases hp)
      (fun _ hp => by cases hp) (fun hp => by cases hp) fun hn => absurd hn (hnot hphase rfl)
  · next f fs hphase =>
    obtain ⟨hsub, hheld⟩ := h.registering nodeID _ hphase
    have hregister := h.register (not_reserved (hsub List.mem_cons_self)) nodeID cfg.clientID
    refine hregister.setLink (fun hp => by cases hp) (fun fs' hp => ?_) (fun _ hp => by cases hp)
      (fun hp => by cases hp) fun hn => absurd hn (hnot hphase rfl)
    cases hp
    refine ⟨fun g hg => hsub (List.mem_cons_of_mem _ hg), fun g hg hmem => holdsRef_register.2 ?_⟩
    by_cases hgf : g = f
    · exact Or.inr ⟨rfl, rfl, hgf⟩
    · exact Or.inl (hheld g hg (by simp [hgf, hmem]))
  · next hphase =>
    exact h.setLink (fun _ => h.held nodeID (by rw [Attached, hphase]; rfl))
      (fun _ hp => by cases hp)
      (fun _ hp => by cases hp) (fun _ _ f hf => h.placing nodeID [] hphase f hf List.not_mem_nil)
      fun _ => rfl
  · next f fs hphase => exact h.place answer hphase
  · next hphase => exact h.leave hphase (hover.2 hphase)

theorem Inv.disconnected (h : s.Inv cfg) (hphase : (s.links nodeID).phase = .connected) :
    (s.disconnected cfg nodeID).Inv cfg := by
  have hheld := h.held nodeID (by rw [Attached, hphase]; rfl)
  unfold HandoverState.disconnected
  split
  · exact h
  · next hstop =>
    exact h.setLink (fun _ => hheld) (fun _ hp => by cases hp) (fun _ hp => by cases hp)
      (fun _ hother => absurd hstop hother) fun _ => rfl
  · refine h.setLink (fun _ => hheld) (fun _ hp => by cases hp) (fun fs hp f hf hmem => ?_)
      (fun hp => by cases hp) fun _ => rfl
    cases hp
    exact absurd hf hmem

theorem Inv.step (h : s.Inv cfg) (he : s.HandsOver cfg e) : (s.step cfg e).Inv cfg := by
  cases e with
  | connect n =>
    simp only [HandoverState.step]
    split_ifs with hphase
    · refine h.setLink (fun hp => by cases hp) (fun _ hp => by cases hp) (fun _ hp => by cases hp)
        (fun hp => by cases hp) fun hn => ?_
      rw [Attached, hphase] at hn
      cases hn
    · exact h
  | advance n answer => exact h.advanced he
  | stop n cause =>
    simp only [HandoverState.step]
    split_ifs with hphase
    · exact h.setLink (fun _ => h.held n (by rw [Attached, hphase.1]; rfl))
        (fun _ hp => by cases hp)
        (fun _ hp => by cases hp) (fun hp => by cases hp) fun _ => rfl
    · exact h
  | disconnect n =>
    simp only [HandoverState.step]
    split_ifs with hphase
    · exact h.disconnected hphase
    · exact h
  | subscribe n clientID filter => exact h.register he.2 n clientID
  | unsubscribe n clientID filter => exact h.giveUp he.1 (by simpa using he.2) n

theorem always_inv (hs : s.Inv cfg) {es : List HandoverEvent}
    (h : Along (step cfg) (HandsOver cfg) s es) :
    Always (step cfg) (Inv cfg) s es :=
  always_of_along (fun _ _ hs he => hs.step he) hs h

/-- If the handlers overlap where they have to, the filters of the session are covered at every
moment. -/
theorem always_covered (hs : s.Established cfg nodeID) {es : List HandoverEvent}
    (h : Along (step cfg) (HandsOver cfg) s es) :
    Always (step cfg) (Covered cfg) s es :=
  (always_inv hs.inv h).imp fun _ hs => hs.covered

/-! ### The loss of a connection -/

/-- No connection was evicted, and no CONNECT is clearing owners. -/
def Untouched (s : HandoverState) : Prop :=
  ∀ n, (s.links n).stop ≠ some .sessionTakenOver ∧ ∀ fs, (s.links n).phase ≠ .clearing fs

/-- Nobody connects or is evicted, and other clients keep away from the keys of the session. -/
def Lost (cfg : PersistentSession) : HandoverEvent → Prop
  | .connect _ | .stop _ .sessionTakenOver => False
  | .subscribe _ clientID filter | .unsubscribe _ clientID filter =>
    clientID ≠ cfg.clientID ∧ ¬ Reserved cfg filter
  | .advance _ _ | .stop _ .other | .disconnect _ => True

theorem Untouched.setLink (h : s.Untouched) (hstop : link.stop ≠ some .sessionTakenOver)
    (hphase : ∀ fs, link.phase ≠ .clearing fs) : (s.setLink nodeID link).Untouched := by
  intro n
  rw [links_setLink]
  split_ifs
  · exact ⟨hstop, hphase⟩
  · exact h n

theorem Untouched.step (h : s.Untouched) (he : Lost cfg e) : (s.step cfg e).Untouched := by
  have hgoTo (n : Text) {p : LinkPhase} (hp : ∀ fs, p ≠ .clearing fs) : (s.goTo n p).Untouched :=
    h.setLink (h n).1 hp
  cases e with
  | connect n => exact he.elim
  | advance n answer =>
    simp only [HandoverState.step, HandoverState.advanced]
    split
    · exact h
    · exact h
    · next hphase => exact absurd hphase ((h n).2 _)
    · next hphase => exact absurd hphase ((h n).2 _)
    · exact hgoTo n fun _ hp => by cases hp
    · exact h.setLink (h n).1 fun _ hp => by cases hp
    · exact hgoTo n fun _ hp => by cases hp
    · exact hgoTo n fun _ hp => by cases hp
    · exact h.setLink (h n).1 fun _ hp => by cases hp
  | stop n cause =>
    cases cause with
    | sessionTakenOver => exact he.elim
    | other =>
      simp only [HandoverState.step]
      split_ifs
      · exact h.setLink (fun hp => by cases hp) fun _ hp => by cases hp
      · exact h
  | disconnect n =>
    simp only [HandoverState.step, HandoverState.disconnected]
    split_ifs
    · split
      · exact h
      · next hstop => exact absurd hstop (h n).1
      · exact hgoTo n fun _ hp => by cases hp
    · exact h
  | subscribe n clientID filter => exact h
  | unsubscribe n clientID filter => exact h

theorem Untouched.handsOver (h : s.Untouched) (he : Lost cfg e) : s.HandsOver cfg e := by
  cases e with
  | advance n answer =>
    exact ⟨fun f fs hphase => absurd hphase ((h n).2 _), fun _ hstop => absurd hstop (h n).1⟩
  | subscribe n clientID filter => exact he
  | unsubscribe n clientID filter => exact he
  | connect n => trivial
  | stop n cause => trivial
  | disconnect n => trivial

/-- As long as connections only break, and nobody connects or is evicted, every publish finds the
session, wherever the handlers of the broken connections are. -/
theorem always_covered_of_lost (hs : s.Established cfg nodeID) (huntouched : s.Untouched)
    {es : List HandoverEvent} (hes : ∀ e ∈ es, Lost cfg e) :
    Always (step cfg) (Covered cfg) s es := by
  have hover : Along (step cfg) (HandsOver cfg) s es :=
    along_of_invariant (fun _ _ hs he => hs.step he)
      (fun _ _ hs he => hs.handsOver he) huntouched (along_of_forall hes s)
  exact (always_inv hs.inv hover).imp fun _ hs => hs.covered

/-! ### Evictions and takeovers -/

/-- Client `c` with the filter `t` in a cluster with the edge `A`. -/
def oneEdge : PersistentSession where
  clientID := ['c']
  filters := [['t']]
  liveEdges := [['A']]
  owner := ['A']
  isOwner := rfl
  plain f hf g := by
    have hhead {t : Text} (ht : t.head? = some '$') : ['t'] ≠ t := by
      rintro rfl
      cases ht
    rw [List.mem_singleton.1 hf]
    exact ⟨hhead rfl, hhead rfl⟩

/-- The session is connected to node `A`. -/
def atA : HandoverState where
  links n := if n = ['A'] then ⟨.connected, none⟩ else {}
  refs n := if n = ['A'] then (addClusterFilterRef ∅ ['c'] ['t']).1 else ∅
  store := (AList.singleton (['t'], ['A']) () : RouteStore)

theorem established_atA : atA.Established oneEdge ['A'] := by
  have hrefs {n c f : Text} (h : HoldsRef (atA.refs n) c f) :
      n = ['A'] ∧ c = ['c'] ∧ f = ['t'] := by
    by_cases hn : n = ['A']
    · simp only [atA, hn, if_true, holdsRef_addClusterFilterRef] at h
      rcases h with ⟨clients, hlookup, -⟩ | ⟨hc, hf⟩
      · cases hlookup
      · exact ⟨hn, hc, hf⟩
    · simp only [atA, if_neg hn] at h
      obtain ⟨clients, hlookup, -⟩ := h
      cases hlookup
  refine ⟨rfl, fun n hn => ?_, fun f hf => ?_, fun n c f h => ?_, fun n c f h => ?_⟩
  · simp only [atA, if_neg hn]
  · rw [List.mem_singleton.1 hf]
    exact (holdsRef_addClusterFilterRef _ _ _ _ _).2 (Or.inr ⟨rfl, rfl⟩)
  · obtain ⟨rfl, -, rfl⟩ := hrefs h
    decide
  · obtain ⟨-, -, rfl⟩ := hrefs h
    have hplain : ¬ Reserved oneEdge ['t'] := not_reserved (List.mem_singleton_self _)
    exact hplain

/-- The connection breaks, and its handler leaves the session to its offline owner. -/
theorem always_covered_broken :
    StepMachine.Always (step oneEdge) (Covered oneEdge) atA
      [.stop ['A'] .other, .disconnect ['A'], .advance ['A'] none, .advance ['A'] none] := by
  refine always_covered_of_lost established_atA (fun n => ?_) (by simp [Lost])
  by_cases hn : n = ['A'] <;> simp [atA, hn]

/-- The session moves to node `B`, which registers its routes before node `A` is told. -/
theorem always_covered_moved :
    Always (step oneEdge) (Covered oneEdge) atA
      [.connect ['B'], .advance ['B'] none, .advance ['B'] none, .advance ['B'] none,
        .advance ['B'] none, .stop ['A'] .sessionTakenOver, .disconnect ['A'],
        .advance ['A'] none] := by
  refine always_covered established_atA ⟨trivial, ⟨?_, ?_⟩, ⟨?_, ?_⟩, ⟨?_, ?_⟩, ⟨?_, ?_⟩, trivial,
    trivial, ⟨?_, ?_⟩, trivial⟩
  · intro f fs _
    refine ⟨⟨['A'], rfl⟩, fun m hm => ?_⟩
    -- node `B` is clearing, node `A` is connected, and the others are away
    have haway : atA.links ['B'] = {} := rfl
    simp only [step, haway, if_true, Settling, links_setLink] at hm
    by_cases hB : m = ['B']
    · simp [hB] at hm
    · by_cases hA : m = ['A'] <;> simp [hA, hB, atA] at hm
  · exact fun h => by cases h
  · exact fun f fs h => by cases h
  · exact fun h => by cases h
  · exact fun f fs h => by cases h
  · exact fun h => by cases h
  · exact fun f fs h => by cases h
  · exact fun h => by cases h
  · exact fun f fs h => by cases h
  · exact fun _ _ => ⟨['B'], by decide, rfl⟩

/-- Nothing leads to the session. -/
theorem not_covered_of_keys {s : HandoverState} {f : Text} (hf : f ∈ cfg.filters)
    (hlive : ∀ row ∈ s.store.keys, row.1 ≠ f)
    (howned : ∀ row ∈ s.store.keys, row.1 ≠ ownershipKey cfg.clientID f) : ¬ s.Covered cfg := by
  intro h
  rcases h f hf with ⟨n, -, hrow⟩ | ⟨o, -, hrow, -⟩
  · exact hlive _ (AList.mem_keys.1 hrow) rfl
  · exact howned _ (AList.mem_keys.1 hrow) rfl

/-- An eviction by the rebalancer or after a revocation leaves the session without any route. So
does a takeover, if node `A` has given up its routes when node `B` has not registered its own yet.
And a session that comes back after a network error is without a route between the calls of its
CONNECT. -/
theorem not_covered_evicted :
    ¬ Covered oneEdge (run (step oneEdge) atA
      [.stop ['A'] .sessionTakenOver, .disconnect ['A'], .advance ['A'] none]) ∧
    ¬ Covered oneEdge (run (step oneEdge) atA
      [.connect ['B'], .stop ['A'] .sessionTakenOver, .disconnect ['A'], .advance ['A'] none]) ∧
    ¬ Covered oneEdge (run (step oneEdge) atA
      [.stop ['A'] .other, .disconnect ['A'], .advance ['A'] none, .advance ['A'] none,
        .advance ['A'] none, .connect ['A'], .advance ['A'] (some ['A'])]) := by
  have hmem : ['t'] ∈ oneEdge.filters := List.mem_singleton_self _
  exact ⟨not_covered_of_keys hmem (by decide +kernel) (by decide +kernel),
    not_covered_of_keys hmem (by decide +kernel) (by decide +kernel),
    not_covered_of_keys hmem (by decide +kernel) (by decide +kernel)⟩

end HandoverState

end KeelGateway.Broker
