import KeelGateway.Routing.Store

/-!
# The placement of offline sessions

The node that keeps the messages of an offline session is computed from the client ID and the live
edge nodes: the node with the highest score wins. A reconciler compares, for every offline session
and each of its filters, the registered owner with the computed one, and places the session anew
where they differ. Its only evidence is `CurrentOwner`, which answers with one of the nodes under
the ownership key. What an earlier call left behind elsewhere, an owner under the same key or an
offline route that was not written, is not seen.

-/

namespace KeelGateway.Session

open Acl Mochi Routing StepMachine

/-! ### The rendezvous owner -/

/-- `fnvHash64`: FNV-1a over the bytes of a text. -/
def fnvHash64 (t : Text) : UInt64 :=
  (Base64.utf8 t).foldl (fun hash byte => (hash ^^^ byte.toUInt64) * 0x100000001b3)
    0xcbf29ce484222325

/-- `rendezvousScore`. -/
def rendezvousScore (clientID nodeID : Text) : UInt64 :=
  let x := fnvHash64 clientID ^^^ fnvHash64 nodeID
  let x := (x ^^^ (x >>> 30)) * 0xbf58476d1ce4e5b9
  let x := (x ^^^ (x >>> 27)) * 0x94d049bb133111eb
  x ^^^ (x >>> 31)

/-- One round of the loop of `Owner`. -/
def betterNode (clientID : Text) (best : Option Text) (nodeID : Text) : Option Text :=
  match best with
  | none => some nodeID
  | some b =>
    if rendezvousScore clientID nodeID > rendezvousScore clientID b then some nodeID else best

/-- `Owner`. -/
def owner (clientID : Text) (liveEdgeNodeIDs : List Text) : Option Text :=
  liveEdgeNodeIDs.foldl (betterNode clientID) none

theorem owner_spec (clientID : Text) (liveEdges : List Text) :
    (liveEdges = [] ∧ owner clientID liveEdges = none) ∨
      ∃ o ∈ liveEdges, owner clientID liveEdges = some o ∧
        ∀ n ∈ liveEdges, rendezvousScore clientID n ≤ rendezvousScore clientID o := by
  induction liveEdges using List.reverseRecOn with
  | nil => exact Or.inl ⟨rfl, rfl⟩
  | append_singleton edges n ih =>
    have hfold : owner clientID (edges ++ [n]) = betterNode clientID (owner clientID edges) n := by
      simp [owner]
    right
    rw [hfold]
    rcases ih with ⟨rfl, hnone⟩ | ⟨o, ho, hsome, hmax⟩
    · exact ⟨n, by simp, by rw [hnone]; rfl, by simp⟩
    · rw [hsome]
      dsimp only [betterNode]
      split_ifs with hbetter
      · refine ⟨n, by simp, rfl, ?_⟩
        simp only [List.mem_append, List.mem_singleton]
        rintro m (hm | rfl)
        · exact UInt64.le_trans (hmax m hm) (UInt64.le_of_lt hbetter)
        · exact UInt64.le_refl _
      · refine ⟨o, by simp [ho], rfl, ?_⟩
        simp only [List.mem_append, List.mem_singleton]
        rintro m (hm | rfl)
        · exact hmax m hm
        · exact UInt64.not_lt.1 hbetter

theorem mem_of_owner {clientID o : Text} {liveEdges : List Text}
    (h : owner clientID liveEdges = some o) : o ∈ liveEdges := by
  rcases owner_spec clientID liveEdges with ⟨-, hnone⟩ | ⟨o', ho', hsome, -⟩
  · rw [hnone] at h
    cases h
  · rw [hsome, Option.some.injEq] at h
    exact h ▸ ho'

/-! ### The machine -/

/-- What the reconciler does for one filter of an offline session. Client IDs hold no separator. -/
structure Visit where
  clientID : Text
  filter : Text
  noSep : keySep ∉ clientID
  seen : OwnerRead clientID filter
  read : OwnerRead clientID filter
  outcome : PlaceOutcome := {}

/-- A pass over the inventory, session by session and filter by filter. -/
structure Pass where
  liveEdges : List Text
  visits : List Visit

/-- The body of the inner loop of `ReconcileOnce`. -/
def Visit.step (liveEdges : List Text) (s : RouteStore) (v : Visit) : RouteStore :=
  match owner v.clientID liveEdges with
  | none => s
  | some newOwner =>
    if v.seen.owner = some newOwner then s
    else (s.place v.clientID v.filter newOwner v.read.owner v.outcome).1

/-- `ReconcileOnce`. -/
def Pass.run (p : Pass) (s : RouteStore) : RouteStore :=
  StepMachine.run (Visit.step p.liveEdges) s p.visits

/-- The calls that change the owners of offline sessions. -/
inductive PlacementEvent where
  | place (clientID filter newOwner : Text) (read : OwnerRead clientID filter)
      (outcome : PlaceOutcome)
  | clear (clientID filter : Text) (read : OwnerRead clientID filter) (outcome : CallOutcome)
  | purgeNode (cache : Router) (nodeID : Text) (deleted : Text → Bool)
  | pass (p : Pass)

/-- One call. -/
def placementStep (s : RouteStore) : PlacementEvent → RouteStore
  | .place clientID filter newOwner read outcome =>
    (s.place clientID filter newOwner read.owner outcome).1
  | .clear clientID filter read outcome => (s.clear clientID filter read.owner outcome).1
  | .purgeNode cache nodeID deleted => s.purgeNode cache nodeID deleted
  | .pass p => p.run s

/-- Every call of the pass succeeds. -/
def Pass.Succeeds (p : Pass) : Prop := ∀ v ∈ p.visits, v.outcome = {}

/-- The caches equal the store whenever the pass reads them. -/
def Pass.Synced (p : Pass) (s : RouteStore) : Prop :=
  Along (Visit.step p.liveEdges)
    (fun s v => v.seen.cache.Mirrors s ∧ v.read.cache.Mirrors s) s p.visits

/-- The visit finds a filter of a client with another owner than the computed one, or with none. -/
def Visit.Moves (v : Visit) (clientID filter o : Text) : Prop :=
  (v.clientID = clientID ∧ v.filter = filter) ∧ v.seen.owner ≠ some o

/-- The pass visits the filter of the client. -/
def Pass.Visits (p : Pass) (clientID filter : Text) : Prop :=
  ∃ v ∈ p.visits, v.clientID = clientID ∧ v.filter = filter

/-! ### What a call leaves behind -/

section Calls

variable {s : RouteStore} {clientID filter : Text}

theorem isolated_place (hs : s.Isolated) (newOwner : Text) (old : Option Text)
    (outcome : PlaceOutcome) : (s.place clientID filter newOwner old outcome).1.Isolated := by
  refine RouteStore.isolated_of_reserved hs fun row hrow => ?_
  rcases (RouteStore.mem_place.1 hrow).1 with hrow | ⟨-, rfl⟩ | ⟨-, -, rfl⟩
  · exact Or.inl hrow
  · exact Or.inr (Or.inl ⟨clientID, filter, rfl⟩)
  · exact Or.inr (Or.inr ⟨filter, rfl⟩)

theorem isolated_visit (hs : s.Isolated) (liveEdges : List Text) (v : Visit) :
    (v.step liveEdges s).Isolated := by
  unfold Visit.step
  split
  · exact hs
  · split_ifs
    · exact hs
    · exact isolated_place hs _ _ _

theorem isolated_placementStep (hs : s.Isolated) (e : PlacementEvent) :
    (placementStep s e).Isolated := by
  cases e with
  | place clientID filter newOwner read outcome => exact isolated_place hs _ _ _
  | clear clientID filter read outcome =>
    exact RouteStore.isolated_of_reserved hs fun row hrow => Or.inl (RouteStore.mem_clear.1 hrow).1
  | purgeNode cache nodeID deleted =>
    exact RouteStore.isolated_of_reserved hs fun row hrow =>
      Or.inl (RouteStore.mem_of_mem_purgeNode hrow)
  | pass p =>
    exact StepMachine.run_of_step (I := RouteStore.Isolated)
      (fun s v hs => isolated_visit hs p.liveEdges v) hs p.visits

end Calls

/-! ### What a pass leaves behind -/

section Passes

variable {s : RouteStore} {edges : List Text} {vs : List Visit} {clientID filter o n : Text}

theorem mem_visitStep {v : Visit} {row : Text × Text} (hok : v.outcome = {})
    (ho : owner v.clientID edges = some o) :
    row ∈ v.step edges s ↔
      if v.seen.owner = some o then row ∈ s
      else (row ∈ s ∨ row = (ownershipKey v.clientID v.filter, o) ∨
          row = (offlineRouteKey v.filter, o)) ∧
        ¬ ∃ m, v.read.owner = some m ∧ m ≠ o ∧ row = (ownershipKey v.clientID v.filter, m) := by
  unfold Visit.step
  rw [ho]
  dsimp only
  split_ifs with hseen
  · exact Iff.rfl
  · rw [RouteStore.mem_place, hok]
    simp [CallOutcome.written]

theorem visitStep_of_owner_eq_none {v : Visit} (ho : owner v.clientID edges = none) :
    v.step edges s = s := by
  unfold Visit.step
  rw [ho]

theorem mem_hint_visitStep {v : Visit} (hok : v.outcome = {}) :
    (offlineRouteKey filter, n) ∈ v.step edges s ↔
      (offlineRouteKey filter, n) ∈ s ∨
        (v.filter = filter ∧ owner v.clientID edges = some n ∧ v.seen.owner ≠ some n) := by
  cases ho : owner v.clientID edges with
  | none => simp [visitStep_of_owner_eq_none ho]
  | some o =>
    rw [mem_visitStep hok ho]
    split_ifs with hseen
    · refine (or_iff_left ?_).symm
      rintro ⟨-, heq, hne⟩
      exact hne (heq ▸ hseen)
    · have hkey (m : Text) : (offlineRouteKey filter, n) ≠ (ownershipKey v.clientID v.filter, m) :=
        fun h => offlineRouteKey_ne_ownershipKey _ _ _ (Prod.mk.inj h).1
      have hhint : (offlineRouteKey filter, n) = (offlineRouteKey v.filter, o) ↔
          v.filter = filter ∧ o = n := by
        rw [Prod.mk.injEq, offlineRouteKey, offlineRouteKey, List.append_right_inj,
          eq_comm, eq_comm (a := n)]
      simp only [hkey, hhint, and_false, exists_false, not_false_eq_true, and_true, false_or,
        Option.some.injEq]
      refine or_congr_right (and_congr_right fun _ => (and_iff_left_of_imp ?_).symm)
      rintro rfl
      exact hseen

section Keys

variable (hsep : keySep ∉ clientID) (ho : owner clientID edges = some o)

include hsep in
private theorem ownershipKey_eq_iff (v : Visit) (f m : Text) :
    (ownershipKey clientID filter, n) = (ownershipKey v.clientID f, m) ↔
      (v.clientID = clientID ∧ f = filter) ∧ m = n := by
  rw [Prod.mk.injEq, eq_comm (a := n)]
  refine and_congr_left fun _ => ⟨fun h => ?_, ?_⟩
  · obtain ⟨hc, hf⟩ := ownershipKey_injective hsep v.noSep h
    exact ⟨hc.symm, hf.symm⟩
  · rintro ⟨rfl, rfl⟩
    rfl

include hsep ho

theorem mem_key_visitStep {v : Visit} (hok : v.outcome = {}) :
    (ownershipKey clientID filter, n) ∈ v.step edges s ↔
      ((ownershipKey clientID filter, n) ∈ s ∨ (v.Moves clientID filter o ∧ n = o)) ∧
        ¬ (v.Moves clientID filter o ∧ v.read.owner = some n ∧ n ≠ o) := by
  unfold Visit.Moves
  cases ho' : owner v.clientID edges with
  | none =>
    have hother : v.clientID ≠ clientID := by
      rintro rfl
      rw [ho'] at ho
      cases ho
    simp [visitStep_of_owner_eq_none ho', hother]
  | some o' =>
    have hsame : v.clientID = clientID → o' = o := by
      rintro rfl
      rw [ho', Option.some.injEq] at ho
      exact ho
    have hhint : (ownershipKey clientID filter, n) ≠ (offlineRouteKey v.filter, o') :=
      fun h => offlineRouteKey_ne_ownershipKey _ _ _ (Prod.mk.inj h).1.symm
    rw [mem_visitStep hok ho']
    simp only [ownershipKey_eq_iff hsep, hhint, or_false]
    by_cases hpair : v.clientID = clientID ∧ v.filter = filter
    · obtain rfl := hsame hpair.1
      simp only [hpair]
      split_ifs with hseen
      · simp [hseen]
      · simp only [hseen, true_and, eq_comm (a := n), exists_eq_right_right, ne_eq,
          not_false_eq_true]
    · simp [hpair]

theorem mem_owner_run (hok : ∀ v ∈ vs, v.outcome = {}) :
    (ownershipKey clientID filter, o) ∈ StepMachine.run (Visit.step edges) s vs ↔
      (ownershipKey clientID filter, o) ∈ s ∨ ∃ v ∈ vs, v.Moves clientID filter o := by
  refine StepMachine.run_iff_exists (P := ((ownershipKey clientID filter, o) ∈ ·)) ?_ s
  intro v hv s
  rw [mem_key_visitStep hsep ho (hok v hv)]
  simp

theorem mem_other_run (hok : ∀ v ∈ vs, v.outcome = {}) (hn : n ≠ o) :
    (ownershipKey clientID filter, n) ∈ StepMachine.run (Visit.step edges) s vs ↔
      (ownershipKey clientID filter, n) ∈ s ∧
        ∀ v ∈ vs, ¬ (v.Moves clientID filter o ∧ v.read.owner = some n) := by
  refine run_iff_forall (P := ((ownershipKey clientID filter, n) ∈ ·)) ?_ s
  intro v hv s
  rw [mem_key_visitStep hsep ho (hok v hv)]
  simp [hn]

theorem mem_owner_run_of_visited (hs : s.Isolated) (hok : ∀ v ∈ vs, v.outcome = {})
    (hsynced : Along (Visit.step edges)
      (fun s v => v.seen.cache.Mirrors s ∧ v.read.cache.Mirrors s) s vs)
    {v : Visit} (hv : v ∈ vs) (hclient : v.clientID = clientID) (hfilter : v.filter = filter) :
    (ownershipKey clientID filter, o) ∈ StepMachine.run (Visit.step edges) s vs := by
  by_cases hseen : v.seen.owner = some o
  · -- the visit has seen the owner, so it was registered at the time, and it stays
    obtain ⟨before, after, rfl⟩ := List.append_of_mem hv
    rw [run_append]
    have hnow := (along_append.1 hsynced).2.1.1
    have hiso : (StepMachine.run (Visit.step edges) s before).Isolated :=
      StepMachine.run_of_step (I := RouteStore.Isolated)
        (fun s v hs => isolated_visit hs edges v) hs before
    have hrow := v.seen.mem_of_mirrors hiso hnow hseen
    rw [hclient, hfilter] at hrow
    exact (mem_owner_run hsep ho fun w hw => hok w (List.mem_append_right _ hw)).2 (Or.inl hrow)
  · exact (mem_owner_run hsep ho hok).2 (Or.inr ⟨v, hv, ⟨hclient, hfilter⟩, hseen⟩)

end Keys

end Passes

/-! ### Reachable owners -/

/-- The owner of a filter of an offline session is registered with it, and every publisher finds the
owner for every topic that the filter matches. -/
structure Reachable (s : RouteStore) (clientID filter o : Text) : Prop where
  owned : (ownershipKey clientID filter, o) ∈ s
  hinted : (offlineRouteKey filter, o) ∈ s
  found : ∀ cache : Router, cache.Mirrors s → ∀ topic : TopicName,
    matchTopic filter topic.text = true → o ∈ cache.offlineNodesFor topic.text

theorem mem_offlineNodesFor_of_hint {cache : Router} {s : RouteStore} (h : cache.Mirrors s)
    {filter topic o : Text} (hhint : (offlineRouteKey filter, o) ∈ s)
    (hmatch : IndexMatch filter topic) : o ∈ cache.offlineNodesFor topic :=
  (cache.mem_offlineNodesFor topic o).2 (Or.inl ⟨_, isSharedFilter_offlineRouteKey filter,
    (h _ _).2 hhint, indexMatch_offlineRouteKey hmatch⟩)

/-- Every ordinary filter whose owner is found in place by the pass has its offline route, or gets
it from the visit of another session. -/
def Pass.Hinted (p : Pass) (s : RouteStore) : Prop :=
  ∀ v ∈ p.visits, isSharedFilter v.filter = false → ∀ o, owner v.clientID p.liveEdges = some o →
    v.seen.owner = some o →
      (offlineRouteKey v.filter, o) ∈ s ∨
        ∃ w ∈ p.visits, w.filter = v.filter ∧ owner w.clientID p.liveEdges = some o ∧
          w.seen.owner ≠ some o

theorem mem_hint_run {p : Pass} (hok : p.Succeeds) {s : RouteStore} {filter o : Text} :
    (offlineRouteKey filter, o) ∈ p.run s ↔
      (offlineRouteKey filter, o) ∈ s ∨
        ∃ w ∈ p.visits, w.filter = filter ∧ owner w.clientID p.liveEdges = some o ∧
          w.seen.owner ≠ some o := by
  refine StepMachine.run_iff_exists (P := ((offlineRouteKey filter, o) ∈ ·)) ?_ s
  intro w hw s
  exact mem_hint_visitStep (hok w hw)

private theorem reachable_iff_of_isolated {s : RouteStore} (hs : s.Isolated) {p : Pass}
    (hok : p.Succeeds) (hsynced : p.Synced s)
    (hparent : ∀ v ∈ p.visits, isSharedFilter v.filter = false → ∀ topic : TopicName,
      ¬ ParentMatch v.filter topic.text) :
    (∀ v ∈ p.visits, isSharedFilter v.filter = false → ∀ o, owner v.clientID p.liveEdges = some o →
      Reachable (p.run s) v.clientID v.filter o) ↔ p.Hinted s := by
  constructor
  · intro h v hv hplain o ho _
    exact (mem_hint_run hok).1 (h v hv hplain o ho).hinted
  · intro hcond v hv hplain o ho
    have hhinted : (offlineRouteKey v.filter, o) ∈ p.run s := by
      by_cases hseen : v.seen.owner = some o
      · exact (mem_hint_run hok).2 (hcond v hv hplain o ho hseen)
      · exact (mem_hint_run hok).2 (Or.inr ⟨v, hv, rfl, ho, hseen⟩)
    refine ⟨mem_owner_run_of_visited v.noSep ho hs hok hsynced hv rfl rfl, hhinted, ?_⟩
    intro cache hcache topic hmatch
    exact mem_offlineNodesFor_of_hint hcache hhinted
      ((indexMatch_iff_not_parentMatch hmatch).2 (hparent v hv hplain topic))

private theorem isolated_run {start : RouteStore} (hstart : start.Isolated)
    (es : List PlacementEvent) :
    (StepMachine.run placementStep start es).Isolated :=
  StepMachine.run_of_step (I := RouteStore.Isolated) (fun _ e hs => isolated_placementStep hs e)
    hstart es

/-- After a pass without failure, on caches that equal the store, the owners of the ordinary filters
are reachable exactly if each filter that was left alone had its offline route, or gets it from the
visit of another session. Filters that cover some topic as a parent level only are left out. -/
theorem reachable_iff {start : RouteStore} (hstart : start.Isolated) (es : List PlacementEvent)
    {p : Pass} (hok : p.Succeeds) (hsynced : p.Synced (StepMachine.run placementStep start es))
    (hparent : ∀ v ∈ p.visits, isSharedFilter v.filter = false → ∀ topic : TopicName,
      ¬ ParentMatch v.filter topic.text) :
    (∀ v ∈ p.visits, isSharedFilter v.filter = false → ∀ o, owner v.clientID p.liveEdges = some o →
      Reachable (p.run (StepMachine.run placementStep start es)) v.clientID v.filter o) ↔
      p.Hinted (StepMachine.run placementStep start es) :=
  reachable_iff_of_isolated (isolated_run hstart es) hok hsynced hparent

/-- A visit to client `c` on a cache without routes. -/
def freshVisit (filter : Text) : Visit where
  clientID := ['c']
  filter := filter
  noSep := by decide
  seen := .none ['c'] filter
  read := .none ['c'] filter

/-- The session of client `c` with the filter `t` is placed at node `A`. -/
def placeA : PlacementEvent := .place ['c'] ['t'] ['A'] (.none ['c'] ['t']) {}

/-- Its filter `u` is placed at node `B`. -/
def placeU : PlacementEvent := .place ['c'] ['u'] ['B'] (.none ['c'] ['u']) {}

/-- The store after both calls. -/
def placedBoth : RouteStore := StepMachine.run placementStep ∅ [placeA, placeU]

/-- The reconciler finds the owner of `t` in place. -/
def visitT : Visit where
  clientID := ['c']
  filter := ['t']
  noSep := by decide
  seen := ⟨placedBoth.scanned, some ['A'], by decide +kernel⟩
  read := ⟨placedBoth.scanned, some ['A'], by decide +kernel⟩

/-- It finds `B` as the owner of `u`. -/
def visitU : Visit where
  clientID := ['c']
  filter := ['u']
  noSep := by decide
  seen := ⟨placedBoth.scanned, some ['B'], by decide +kernel⟩
  read := ⟨placedBoth.scanned, some ['B'], by decide +kernel⟩

/-- The pass after node `B` is gone. -/
def movePass : Pass := ⟨[['A']], [visitT, visitU]⟩

theorem not_parentMatch_of_level {filter topic : Text} (h : (levels filter).length = 1) :
    ¬ ParentMatch filter topic := by
  rintro ⟨⟨q, hq, -⟩, -⟩
  have hlength := congrArg List.length hq
  rw [List.length_append] at hlength
  simp only [List.length_cons] at hlength
  omega

/-- A session was placed at the nodes `A` and `B`, filter by filter. After the pass that follows the
loss of `B`, publishers find `A` for both filters. -/
theorem reachable_placed :
    Reachable (movePass.run placedBoth) ['c'] ['t'] ['A'] ∧
      Reachable (movePass.run placedBoth) ['c'] ['u'] ['A'] := by
  have hmirrors : placedBoth.scanned.Mirrors placedBoth :=
    RouteStore.mirrors_scanned (by decide +kernel)
  have hleft : visitT.step [['A']] placedBoth = placedBoth := by rfl
  have hsynced : movePass.Synced placedBoth := by
    refine ⟨⟨hmirrors, hmirrors⟩, ?_, trivial⟩
    rw [show visitT.step movePass.liveEdges placedBoth = placedBoth from hleft]
    exact ⟨hmirrors, hmirrors⟩
  have hvisits : ∀ P : Visit → Prop, P visitT → P visitU → ∀ v ∈ movePass.visits, P v := by
    intro P hA hB v hv
    rcases List.mem_pair.1 hv with rfl | rfl
    exacts [hA, hB]
  have hreach := (reachable_iff RouteStore.isolated_empty [placeA, placeU]
    (hvisits _ rfl rfl) hsynced ?_).2 ?_
  · exact ⟨hreach visitT (by simp [movePass]) (by decide) ['A'] rfl,
      hreach visitU (by simp [movePass]) (by decide) ['A'] rfl⟩
  · exact hvisits _ (fun _ _ => not_parentMatch_of_level (by decide))
      fun _ _ => not_parentMatch_of_level (by decide)
  · refine hvisits _ ?_ ?_
    · rintro - o ho -
      obtain rfl : ['A'] = o := Option.some.inj ho
      exact Or.inl (by decide +kernel)
    · rintro - o ho hseen
      rw [← ho] at hseen
      cases hseen

/-- A session was placed at node `A`, but the offline route of its filter was not written. -/
def halfPlaced : RouteStore :=
  StepMachine.run placementStep ∅
    [.place ['c'] ['t'] ['A'] (.none ['c'] ['t']) { hint := .writeFails }]

/-- The reconciler comes to the session later. -/
def repairVisit : Visit where
  clientID := ['c']
  filter := ['t']
  noSep := by decide
  seen := ⟨halfPlaced.scanned, some ['A'], by decide +kernel⟩
  read := ⟨halfPlaced.scanned, some ['A'], by decide +kernel⟩

/-- `a/+/#`. -/
def parentFilter : Text := "a/+/#".toList

/-- The reconciler does not repair the offline route: it finds the owner in place. And a session
with the filter `a/+/#` is placed completely, but no publisher finds its owner for the topic `a/b`.
-/
theorem not_reachable_halfPlaced :
    (Pass.Succeeds ⟨[['A']], [repairVisit]⟩ ∧ Pass.Synced ⟨[['A']], [repairVisit]⟩ halfPlaced ∧
      owner ['c'] [['A']] = some ['A'] ∧
      ¬ Reachable (Pass.run ⟨[['A']], [repairVisit]⟩ halfPlaced) ['c'] ['t'] ['A'] ∧
      (Pass.run ⟨[['A']], [repairVisit]⟩ halfPlaced).scanned.offlineNodesFor ['t'] = []) ∧
    (Pass.Succeeds ⟨[['A']], [freshVisit parentFilter]⟩ ∧
      Pass.Synced ⟨[['A']], [freshVisit parentFilter]⟩ ∅ ∧
      matchTopic parentFilter "a/b".toList = true ∧
      (Pass.run ⟨[['A']], [freshVisit parentFilter]⟩ ∅).scanned.offlineNodesFor "a/b".toList =
        []) := by
  have hmirrors : halfPlaced.scanned.Mirrors halfPlaced :=
    RouteStore.mirrors_scanned (by decide +kernel)
  refine ⟨⟨?_, ⟨⟨hmirrors, hmirrors⟩, trivial⟩, rfl, ?_, by decide +kernel⟩, ?_,
    ⟨⟨Router.mirrors_empty, Router.mirrors_empty⟩, trivial⟩, by decide +kernel, by decide +kernel⟩
  · exact fun v hv => by rw [List.mem_singleton.1 hv]; rfl
  · exact fun h => absurd h.hinted (by decide +kernel)
  · exact fun v hv => by rw [List.mem_singleton.1 hv]; rfl

/-! ### Single owners -/

section Single

variable (clientID filter : Text)

/-- The owners of a filter of a client are these. -/
def Owners (s : RouteStore) (owners : Text → Prop) : Prop :=
  ∀ n, (ownershipKey clientID filter, n) ∈ s ↔ owners n

/-- What a call for the filter of the client should leave behind if it reports success and its
caches equal the store: the new owner and nobody else, nobody, or the computed owner and nobody
else. -/
def SingleOwner (s : RouteStore) : PlacementEvent → Prop
  | .place c f newOwner read outcome => c = clientID → f = filter → read.cache.Mirrors s →
    (s.place c f newOwner read.owner outcome).2 = true →
      Owners clientID filter (s.place c f newOwner read.owner outcome).1 (· = newOwner)
  | .clear c f read outcome => c = clientID → f = filter → read.cache.Mirrors s →
    (s.clear c f read.owner outcome).2 = true →
      Owners clientID filter (s.clear c f read.owner outcome).1 fun _ => False
  | .purgeNode _ _ _ => True
  | .pass p => p.Visits clientID filter → p.Succeeds → p.Synced s →
    ∀ o, owner clientID p.liveEdges = some o → Owners clientID filter (p.run s) (· = o)

/-- Such a call finds no owner that it does not remove. -/
def RemovesAll (s : RouteStore) : PlacementEvent → Prop
  | .place c f newOwner read outcome => c = clientID → f = filter → read.cache.Mirrors s →
    (s.place c f newOwner read.owner outcome).2 = true →
      ∀ n, (ownershipKey clientID filter, n) ∈ s →
        n = newOwner ∨ (read.owner = some n ∧ outcome.removal.written = true)
  | .clear c f read outcome => c = clientID → f = filter → read.cache.Mirrors s →
    (s.clear c f read.owner outcome).2 = true →
      ∀ n, (ownershipKey clientID filter, n) ∈ s → read.owner = some n
  | .purgeNode _ _ _ => True
  | .pass p => p.Visits clientID filter → p.Succeeds → p.Synced s →
    ∀ o, owner clientID p.liveEdges = some o → ∀ n, (ownershipKey clientID filter, n) ∈ s →
      n = o ∨ ∃ v ∈ p.visits, v.Moves clientID filter o ∧ v.read.owner = some n

variable {clientID filter} {s : RouteStore}

theorem owners_place_iff {newOwner : Text} {old : Option Text} {outcome : PlaceOutcome}
    (hok : (s.place clientID filter newOwner old outcome).2 = true) :
    Owners clientID filter (s.place clientID filter newOwner old outcome).1 (· = newOwner) ↔
      ∀ n, (ownershipKey clientID filter, n) ∈ s →
        n = newOwner ∨ (old = some n ∧ outcome.removal.written = true) := by
  obtain ⟨hkey, hhint⟩ := RouteStore.place_snd.1 hok
  have hne (n : Text) : (ownershipKey clientID filter, n) ≠ (offlineRouteKey filter, newOwner) :=
    fun h => offlineRouteKey_ne_ownershipKey _ _ _ (Prod.mk.inj h).1.symm
  refine forall_congr' fun n => ?_
  rw [RouteStore.mem_place, hkey, hhint]
  simp only [CallOutcome.written, hne, true_and, Prod.mk.injEq]
  by_cases hn : n = newOwner
  · simp [hn]
  · simp only [hn, or_false, iff_false, not_and, not_not, false_or]
    refine imp_congr_right fun _ => ?_
    constructor
    · rintro ⟨m, hold, -, hwritten, rfl⟩
      exact ⟨hold, hwritten⟩
    · rintro ⟨hold, hwritten⟩
      exact ⟨n, hold, hn, hwritten, rfl⟩

theorem owners_clear_iff {old : Option Text} {outcome : CallOutcome}
    (hok : (s.clear clientID filter old outcome).2 = true) :
    Owners clientID filter (s.clear clientID filter old outcome).1 (fun _ => False) ↔
      ∀ n, (ownershipKey clientID filter, n) ∈ s → old = some n := by
  refine forall_congr' fun n => ?_
  rw [RouteStore.mem_clear, iff_false]
  rcases RouteStore.clear_snd.1 hok with rfl | rfl
  · simp
  · simp [CallOutcome.written]

private theorem owners_pass_iff (hs : s.Isolated) (hsep : keySep ∉ clientID) {p : Pass}
    (hvisits : p.Visits clientID filter) (hok : p.Succeeds) (hsynced : p.Synced s) {o : Text}
    (ho : owner clientID p.liveEdges = some o) :
    Owners clientID filter (p.run s) (· = o) ↔
      ∀ n, (ownershipKey clientID filter, n) ∈ s →
        n = o ∨ ∃ v ∈ p.visits, v.Moves clientID filter o ∧ v.read.owner = some n := by
  obtain ⟨v, hv, hclient, hfilter⟩ := hvisits
  refine forall_congr' fun n => ?_
  by_cases hn : n = o
  · rw [hn]
    simp only [true_or, implies_true, iff_true]
    exact mem_owner_run_of_visited hsep ho hs hok hsynced hv hclient hfilter
  · refine (iff_congr (mem_other_run hsep ho hok hn) Iff.rfl).trans ?_
    simp only [hn, iff_false, not_and, not_forall, not_not, false_or, exists_prop]

/-- The calls leave a single owner behind exactly if they find no owner that they do not remove. -/
theorem along_singleOwner_iff {start : RouteStore} (hstart : start.Isolated)
    (hsep : keySep ∉ clientID) (es : List PlacementEvent) :
    Along placementStep (SingleOwner clientID filter) start es ↔
      Along placementStep (RemovesAll clientID filter) start es := by
  refine along_iff_of_invariant (I := RouteStore.Isolated)
    (fun s e hs => isolated_placementStep hs e) (fun s e hs => ?_) hstart es
  cases e with
  | place c f newOwner read outcome =>
    refine forall_congr' fun hc => forall_congr' fun hf => forall_congr' fun _ =>
      forall_congr' fun hok => ?_
    subst hc hf
    exact owners_place_iff hok
  | clear c f read outcome =>
    refine forall_congr' fun hc => forall_congr' fun hf => forall_congr' fun _ =>
      forall_congr' fun hok => ?_
    subst hc hf
    exact owners_clear_iff hok
  | purgeNode cache nodeID deleted => exact Iff.rfl
  | pass p =>
    exact forall_congr' fun hvisits => forall_congr' fun hok => forall_congr' fun hsynced =>
      forall_congr' fun o => forall_congr' fun ho => owners_pass_iff hs hsep hvisits hok hsynced ho

/-- The filter of the client has at most one owner. -/
def AtMostOne (clientID filter : Text) (s : RouteStore) : Prop :=
  ∀ n m, (ownershipKey clientID filter, n) ∈ s → (ownershipKey clientID filter, m) ∈ s → n = m

/-- No call fails, and every cache that is read equals the store. -/
def Clean (s : RouteStore) : PlacementEvent → Prop
  | .place _ _ _ read outcome => read.cache.Mirrors s ∧ outcome = {}
  | .clear _ _ read outcome => read.cache.Mirrors s ∧ outcome = .ok
  | .purgeNode _ _ _ => True
  | .pass p => p.Succeeds ∧ p.Synced s

theorem AtMostOne.mono {s' : RouteStore} (h : AtMostOne clientID filter s)
    (hrows : ∀ n, (ownershipKey clientID filter, n) ∈ s' → (ownershipKey clientID filter, n) ∈ s) :
    AtMostOne clientID filter s' :=
  fun n m hn hm => h n m (hrows n hn) (hrows m hm)

theorem AtMostOne.read_eq (h : AtMostOne clientID filter s) (hs : s.Isolated)
    {read : OwnerRead clientID filter} (hread : read.cache.Mirrors s) {n : Text}
    (hn : (ownershipKey clientID filter, n) ∈ s) : read.owner = some n := by
  obtain ⟨m, hm⟩ := read.exists_of_mem hs hread hn
  rw [hm, h m n (read.mem_of_mirrors hs hread hm) hn]

theorem AtMostOne.owners_place (h : AtMostOne clientID filter s) (hs : s.Isolated)
    {read : OwnerRead clientID filter} (hread : read.cache.Mirrors s) (newOwner : Text) :
    Owners clientID filter (s.place clientID filter newOwner read.owner {}).1 (· = newOwner) :=
  (owners_place_iff (RouteStore.place_snd.2 ⟨rfl, rfl⟩)).2 fun _ hn =>
    Or.inr ⟨h.read_eq hs hread hn, rfl⟩

theorem AtMostOne.place (h : AtMostOne clientID filter s) (hs : s.Isolated) {c f : Text}
    {read : OwnerRead c f} (hread : read.cache.Mirrors s) (newOwner : Text) :
    AtMostOne clientID filter (s.place c f newOwner read.owner {}).1 := by
  by_cases hkey : ownershipKey c f = ownershipKey clientID filter
  · have hone : AtMostOne c f s := by
      unfold AtMostOne
      rw [hkey]
      exact h
    have howners := hone.owners_place hs hread newOwner
    unfold Owners at howners
    rw [hkey] at howners
    intro n m hn hm
    rw [(howners n).1 hn, (howners m).1 hm]
  · refine h.mono fun n hn => ?_
    rcases (RouteStore.mem_place.1 hn).1 with hrow | ⟨-, heq⟩ | ⟨-, -, heq⟩
    · exact hrow
    · exact absurd (Prod.mk.inj heq).1.symm hkey
    · exact absurd (Prod.mk.inj heq).1.symm (offlineRouteKey_ne_ownershipKey _ _ _)

theorem AtMostOne.visit (h : AtMostOne clientID filter s) (hs : s.Isolated) (edges : List Text)
    {v : Visit} (hok : v.outcome = {}) (hread : v.read.cache.Mirrors s) :
    AtMostOne clientID filter (v.step edges s) := by
  unfold Visit.step
  split
  · exact h
  · split_ifs
    · exact h
    · rw [hok]
      exact h.place hs hread _

theorem AtMostOne.pass (h : AtMostOne clientID filter s) (hs : s.Isolated) {p : Pass}
    (hok : p.Succeeds) (hsynced : p.Synced s) : AtMostOne clientID filter (p.run s) := by
  have halways := always_of_along
    (I := fun s => s.Isolated ∧ AtMostOne clientID filter s)
    (fun s v hs hv => ⟨isolated_visit hs.1 p.liveEdges v, hs.2.visit hs.1 p.liveEdges hv.2 hv.1.2⟩)
    ⟨hs, h⟩ (Along.and_forall hsynced hok)
  exact halways.last.2

theorem AtMostOne.placementStep (h : AtMostOne clientID filter s) (hs : s.Isolated)
    {e : PlacementEvent} (he : Clean s e) :
    AtMostOne clientID filter (placementStep s e) := by
  cases e with
  | place c f newOwner read outcome =>
    obtain ⟨hread, rfl⟩ := he
    exact h.place hs hread newOwner
  | clear c f read outcome => exact h.mono fun n hn => (RouteStore.mem_clear.1 hn).1
  | purgeNode cache nodeID deleted => exact h.mono fun n hn => RouteStore.mem_of_mem_purgeNode hn
  | pass p => exact h.pass hs he.1 he.2

/-- As long as no call fails and every cache that is read equals the store, all calls leave a single
owner behind. -/
theorem along_singleOwner_of_clean {start : RouteStore} (hstart : start.Isolated)
    (hone : AtMostOne clientID filter start) (hsep : keySep ∉ clientID) {es : List PlacementEvent}
    (hclean : Along Session.placementStep Clean start es) :
    Along Session.placementStep (SingleOwner clientID filter) start es := by
  refine along_of_invariant (I := fun s => s.Isolated ∧ AtMostOne clientID filter s)
    (fun s e hs he => ⟨isolated_placementStep hs.1 e, hs.2.placementStep hs.1 he⟩)
    (fun s e hs he => ?_) ⟨hstart, hone⟩ hclean
  obtain ⟨hiso, hs⟩ := hs
  cases e with
  | place c f newOwner read outcome =>
    intro hc hf hread _
    obtain ⟨-, rfl⟩ := he
    subst hc hf
    exact hs.owners_place hiso hread newOwner
  | clear c f read outcome =>
    intro hc hf hread hok
    subst hc hf
    exact (owners_clear_iff hok).2 fun n hn => hs.read_eq hiso hread hn
  | purgeNode cache nodeID deleted => trivial
  | pass p =>
    rintro ⟨v, hv, hclient, hfilter⟩ hok hsynced o ho n
    have howner := mem_owner_run_of_visited hsep ho hiso hok hsynced hv hclient hfilter
    constructor
    · intro hn
      exact hs.pass hiso hok hsynced n o hn howner
    · rintro rfl
      exact howner

end Single

/-! ### An owner that is left behind -/

/-- The store after the first call. -/
def onlyA : RouteStore := placementStep ∅ placeA

/-- The session comes back, and the owner is cleared. -/
def clearA : PlacementEvent :=
  .clear ['c'] ['t'] ⟨onlyA.scanned, some ['A'], by decide +kernel⟩ .ok

/-- A session that is placed once and cleared has one owner first and then none. -/
theorem along_singleOwner_placeA :
    Along placementStep (SingleOwner ['c'] ['t']) ∅ [placeA, clearA] := by
  refine (along_singleOwner_iff RouteStore.isolated_empty (by decide) _).2 ⟨?_, ?_, trivial⟩
  · exact fun _ _ _ _ n hn => absurd hn (AList.notMem_empty _)
  · intro _ _ _ _ n hn
    rcases (RouteStore.mem_place.1 hn).1 with hrow | ⟨-, hrow⟩ | ⟨-, -, hrow⟩
    · exact absurd hrow (AList.notMem_empty _)
    · rw [(Prod.mk.inj hrow).2]
    · exact absurd (Prod.mk.inj hrow).1.symm (offlineRouteKey_ne_ownershipKey _ _ _)

/-- Both calls have read caches that equal the store. -/
theorem along_singleOwner_clean :
    StepMachine.Along placementStep (SingleOwner ['c'] ['t']) ∅ [placeA, clearA] :=
  along_singleOwner_of_clean RouteStore.isolated_empty
    (fun _ _ hn => absurd hn (AList.notMem_empty _)) (by decide)
    ⟨⟨Router.mirrors_empty, rfl⟩, ⟨RouteStore.mirrors_scanned (by decide +kernel), rfl⟩, trivial⟩

/-- The session is placed at node `B`. The removal of node `A` fails, and `Place` drops the
error. -/
def placeB : PlacementEvent :=
  .place ['c'] ['t'] ['B'] ⟨onlyA.scanned, some ['A'], by decide +kernel⟩ { removal := .writeFails }

/-- Both nodes are owners now. -/
def bothOwners : RouteStore := StepMachine.run placementStep ∅ [placeA, placeB]

/-- A cache that equals the store, and answers with node `B`. -/
def readB : OwnerRead ['c'] ['t'] := ⟨bothOwners.scanned, some ['B'], by decide +kernel⟩

/-- Node `B` is the computed owner, and the reconciler leaves the session alone. -/
def passB : Pass := ⟨[['B']], [⟨['c'], ['t'], by decide, readB, readB, {}⟩]⟩

/-- `Place` returns without an error and leaves two owners. A pass without failure keeps both, and
`Clear` removes one of them. -/
theorem not_singleOwner_bothOwners :
    ¬ SingleOwner ['c'] ['t'] onlyA placeB ∧ ¬ SingleOwner ['c'] ['t'] bothOwners (.pass passB) ∧
      ¬ SingleOwner ['c'] ['t'] bothOwners (.clear ['c'] ['t'] readB .ok) := by
  have hA : onlyA.scanned.Mirrors onlyA := RouteStore.mirrors_scanned (by decide +kernel)
  have hB : bothOwners.scanned.Mirrors bothOwners := RouteStore.mirrors_scanned (by decide +kernel)
  refine ⟨fun h => ?_, fun h => ?_, fun h => ?_⟩
  · have hsame := (h rfl rfl hA (by decide +kernel) ['A']).1 (by decide +kernel)
    exact absurd hsame (by decide)
  · have hok : passB.Succeeds := fun v hv => by rw [List.mem_singleton.1 hv]
    have hsame := (h ⟨_, List.mem_singleton_self _, rfl, rfl⟩ hok ⟨⟨hB, hB⟩, trivial⟩ ['B'] rfl
      ['A']).1 (by decide +kernel)
    exact absurd hsame (by decide)
  · exact (h rfl rfl hB (by decide +kernel) ['A']).1 (by decide +kernel)

end KeelGateway.Session
