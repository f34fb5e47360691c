import KeelGateway.Membership.RedisFailover

/-!
# Purging the routes of dead nodes

Two loops purge the routes of nodes that are gone. `Monitor` remembers when it last saw a core node,
`RoutingSweep` since when a node with routes has been missing. Both wait for a threshold, and both
have a flag for a node that keeps them from purging it again.

`Monitor` only looks at core nodes. A core node that comes back as an edge node is present, and gets
purged. And the flags stand in the way of a retry: `Monitor` sets its flag before it purges, with
whatever outcome, and `RoutingSweep` keeps its flag after a purge that has left routes behind.

A loop visits every node once in a tick, and reads and writes the entries of that node alone. The
tables of a loop are therefore a function of the node.

-/

namespace KeelGateway.Lifecycle

open KeelGateway.Membership StepMachine

/-- What a tick meets: the time, the members, the nodes with routes, and where `PurgeNode`
succeeds. -/
structure Tick where
  now : ℤ
  members : List NodeMeta := []
  nodesWithRoutes : List Text := []
  purged : Text → Bool := fun _ => true

namespace Tick

variable (t : Tick)

/-- The node is a member, under any role. -/
def Lists (nodeID : Text) : Prop := ∃ node ∈ t.members, node.nodeID = nodeID

/-- The node is a core member. -/
def ListsCore (nodeID : Text) : Prop := ∃ node ∈ t.members, node.role = .core ∧ node.nodeID = nodeID

instance (nodeID : Text) : Decidable (t.Lists nodeID) :=
  inferInstanceAs (Decidable (∃ node ∈ t.members, _))

instance (nodeID : Text) : Decidable (t.ListsCore nodeID) :=
  inferInstanceAs (Decidable (∃ node ∈ t.members, _))

end Tick

/-- The entries of a node in the tables of a loop: `lastSeen` and `warned` of `Monitor`,
`absentSince` and `flagged` of `RoutingSweep`. -/
structure Tracking where
  since : Option ℤ := none
  flagged : Bool := false

/-- The threshold has passed. -/
def Tracking.Overdue (a : Tracking) (threshold now : ℤ) : Prop :=
  ∃ since, a.since = some since ∧ threshold < now - since

/-- `RoutingSweep.clear`. -/
def Tracking.clear (a : Tracking) : Tracking := if a.since.isNone then a else {}

instance (a : Tracking) (threshold now : ℤ) : Decidable (a.Overdue threshold now) :=
  decidable_of_iff (∃ since ∈ a.since, threshold < now - since) Iff.rfl

section Ticks

variable (threshold : ℤ) (s : Text → Tracking) (t : Tick)

/-- `Monitor.tick` calls `PurgeNode` for the node. -/
def monitorPurges (nodeID : Text) : Prop :=
  ¬ t.ListsCore nodeID ∧ (s nodeID).Overdue threshold t.now ∧ (s nodeID).flagged = false

instance (nodeID : Text) : Decidable (monitorPurges threshold s t nodeID) :=
  inferInstanceAs (Decidable (_ ∧ _))

/-- `Monitor.tick`. -/
def monitorTick (nodeID : Text) : Tracking :=
  if t.ListsCore nodeID then { since := some t.now }
  else if monitorPurges threshold s t nodeID then { s nodeID with flagged := true }
  else s nodeID

/-- `RoutingSweep.tick` calls `PurgeNode` for the node. -/
def sweepPurges (nodeID : Text) : Prop :=
  nodeID ∈ t.nodesWithRoutes ∧ ¬ t.Lists nodeID ∧ (s nodeID).Overdue threshold t.now ∧
    (s nodeID).flagged = false

instance (nodeID : Text) : Decidable (sweepPurges threshold s t nodeID) :=
  inferInstanceAs (Decidable (_ ∧ _))

/-- `RoutingSweep.tick`. -/
def sweepTick (nodeID : Text) : Tracking :=
  if nodeID ∈ t.nodesWithRoutes ∧ ¬ t.Lists nodeID then
    if (s nodeID).since.isNone then { s nodeID with since := some t.now }
    else if sweepPurges threshold s t nodeID then { s nodeID with flagged := t.purged nodeID }
    else s nodeID
  else (s nodeID).clear

end Ticks

variable {threshold now : ℤ} {s : Text → Tracking} {t : Tick} {nodeID : Text} {es : List Tick}
  {tick : (Text → Tracking) → Tick → Text → Tracking} {ok : (Text → Tracking) → Tick → Prop}

/-! ### Whom the loops purge -/

/-- After `before`, at the tick `t`, the node is absent, and so it was at every tick of a period
longer than the threshold. -/
def AbsentFor (threshold : ℤ) (nodeID : Text) (before : List Tick) (t : Tick) : Prop :=
  Since (fun u => threshold < t.now - u.now) (Tick.Lists · nodeID) before ∧ ¬ t.Lists nodeID

/-- A node that the monitor knows is not listed under another role alone. -/
def KeepsRole (s : Text → Tracking) (t : Tick) : Prop :=
  ∀ node ∈ t.members, (s node.nodeID).since.isSome → t.ListsCore node.nodeID

instance (s : Text → Tracking) (t : Tick) : Decidable (KeepsRole s t) :=
  inferInstanceAs (Decidable (∀ node ∈ t.members, _))

theorem KeepsRole.not_lists (h : KeepsRole s t) (hsince : (s nodeID).since = some now)
    (hcore : ¬ t.ListsCore nodeID) : ¬ t.Lists nodeID := by
  rintro ⟨node, hnode, rfl⟩
  exact hcore (h node hnode (by rw [hsince]; rfl))

theorem since_of_run
    (htick : ∀ s t now, ok s t → (tick s t nodeID).since = some now →
      t.now = now ∨ (s nodeID).since = some now ∧ ¬ t.Lists nodeID)
    (hok : Along tick ok (fun _ => {}) es)
    (hsince : (run tick (fun _ => {}) es nodeID).since = some now) :
    Since (fun u => u.now = now) (Tick.Lists · nodeID) es := by
  induction es using List.reverseRecOn generalizing now with
  | nil => cases hsince
  | append_singleton es t ih =>
    rw [run_append] at hsince
    obtain ⟨hbefore, hlast, -⟩ := along_append.1 hok
    rcases htick _ t now hlast hsince with hnow | ⟨hold, habsent⟩
    · exact since_concat.2 (Or.inl hnow)
    · exact since_concat.2 (Or.inr ⟨ih hbefore hold, habsent⟩)

private theorem monitorTick_since (hrole : KeepsRole s t)
    (h : (monitorTick threshold s t nodeID).since = some now) :
    t.now = now ∨ (s nodeID).since = some now ∧ ¬ t.Lists nodeID := by
  unfold monitorTick at h
  split_ifs at h with hcore hpurge
  · exact Or.inl (Option.some.inj h)
  · exact Or.inr ⟨h, hrole.not_lists h hcore⟩
  · exact Or.inr ⟨h, hrole.not_lists h hcore⟩

private theorem sweepTick_since (h : (sweepTick threshold s t nodeID).since = some now) :
    t.now = now ∨ (s nodeID).since = some now ∧ ¬ t.Lists nodeID := by
  unfold sweepTick Tracking.clear at h
  split_ifs at h with hheld hnew hpurge hnone
  · exact Or.inl (Option.some.inj h)
  · exact Or.inr ⟨h, hheld.2⟩
  · exact Or.inr ⟨h, hheld.2⟩
  · rw [Option.isNone_iff_eq_none.1 hnone] at h
    cases h

theorem absentFor_of_overdue
    (hsince : ∀ now, (s nodeID).since = some now →
      Since (fun u => u.now = now) (Tick.Lists · nodeID) es)
    (hoverdue : (s nodeID).Overdue threshold t.now) (habsent : ¬ t.Lists nodeID) :
    AbsentFor threshold nodeID es t := by
  obtain ⟨now, hnow, hlong⟩ := hoverdue
  obtain ⟨before, u, after, hes, rfl, hafter⟩ := hsince now hnow
  exact ⟨⟨before, u, after, hes, hlong, hafter⟩, habsent⟩

/-- A purge at the tick `t` hits a node that was absent for longer than the threshold: always if it
comes from the sweep, and if it comes from the monitor as long as no node that it knows has changed
its role. -/
theorem purge_absent (threshold : ℤ) (es : List Tick) (t : Tick) (nodeID : Text) :
    (Along (monitorTick threshold) KeepsRole (fun _ => {}) (es ++ [t]) →
      monitorPurges threshold (run (monitorTick threshold) (fun _ => {}) es) t nodeID →
      AbsentFor threshold nodeID es t) ∧
    (sweepPurges threshold (run (sweepTick threshold) (fun _ => {}) es) t nodeID →
      AbsentFor threshold nodeID es t) := by
  constructor
  · rintro hrole ⟨hcore, hoverdue, -⟩
    obtain ⟨hbefore, hlast, -⟩ := along_append.1 hrole
    have habsent : ¬ t.Lists nodeID := by
      obtain ⟨now, hnow, -⟩ := hoverdue
      exact hlast.not_lists hnow hcore
    exact absentFor_of_overdue (fun _ => since_of_run (fun _ _ _ => monitorTick_since) hbefore)
      hoverdue habsent
  · rintro ⟨-, habsent, hoverdue, -⟩
    have htrue : Along (sweepTick threshold) (fun _ _ => True) (fun _ => {}) es :=
      along_of_forall (fun _ _ => trivial) _
    exact absentFor_of_overdue
      (fun _ => since_of_run (fun _ _ _ _ => sweepTick_since) htrue) hoverdue habsent

/-- The node that the examples are about. -/
def lost : Text := "n".toList

/-- A core node that leaves is purged after the threshold, by either loop. -/
theorem purge_absent_lost :
    AbsentFor 30 lost [⟨0, [⟨lost, .core, []⟩], [], fun _ => true⟩, ⟨20, [], [], fun _ => true⟩]
        ⟨40, [], [], fun _ => true⟩ ∧
      AbsentFor 30 lost [⟨0, [], [lost], fun _ => true⟩] ⟨40, [], [lost], fun _ => true⟩ :=
  ⟨(purge_absent 30 _ _ lost).1 (by decide) (by decide),
    (purge_absent 30 _ _ lost).2 (by decide)⟩

/-- A core node that comes back as an edge node is purged while it is a member. -/
theorem not_absentFor_edge :
    monitorPurges 30 (run (monitorTick 30) (fun _ => {})
      [{ now := 0, members := [⟨lost, .core, []⟩] }])
        { now := 40, members := [⟨lost, .edge, []⟩] } lost ∧
      ¬ AbsentFor 30 lost [{ now := 0, members := [⟨lost, .core, []⟩] }]
        { now := 40, members := [⟨lost, .edge, []⟩] } :=
  ⟨by decide, fun h => h.2 (by decide)⟩

/-! ### Purging until the routes are gone -/

/-- The loop calls `PurgeNode` for every node that it tracks, that has been absent for longer than
the threshold and that still has routes. -/
def Retried (threshold : ℤ) (purges : (Text → Tracking) → Tick → Text → Prop)
    (s : Text → Tracking) (t : Tick) : Prop :=
  ∀ nodeID ∈ t.nodesWithRoutes, ¬ t.Lists nodeID → (s nodeID).Overdue threshold t.now →
    purges s t nodeID

/-- A node with a flag and with routes is back. -/
def FlagsCleared (s : Text → Tracking) (t : Tick) : Prop :=
  ∀ nodeID ∈ t.nodesWithRoutes, (s nodeID).flagged = true → t.Lists nodeID

instance (s : Text → Tracking) (t : Tick) : Decidable (FlagsCleared s t) :=
  inferInstanceAs (Decidable (∀ nodeID ∈ t.nodesWithRoutes, _))

theorem Tracking.Overdue.mono {a : Tracking} {later : ℤ} (h : a.Overdue threshold now)
    (hle : now ≤ later) : a.Overdue threshold later := by
  obtain ⟨since, hsince, hlt⟩ := h
  exact ⟨since, hsince, by omega⟩

theorem along_retried_iff {purges : (Text → Tracking) → Tick → Text → Prop}
    (hflag : ∀ s t nodeID, ((s nodeID).flagged = true → (s nodeID).Overdue threshold t.now) →
      (tick s t nodeID).flagged = true → (tick s t nodeID).Overdue threshold t.now)
    (hpurge : ∀ s t nodeID, nodeID ∈ t.nodesWithRoutes → ¬ t.Lists nodeID →
      (s nodeID).Overdue threshold t.now → (purges s t nodeID ↔ (s nodeID).flagged = false))
    (hsorted : es.Pairwise fun t u => t.now ≤ u.now)
    (hs : ∀ t ∈ es, ∀ nodeID, (s nodeID).flagged = true → (s nodeID).Overdue threshold t.now) :
    Along tick (Retried threshold purges) s es ↔ Along tick FlagsCleared s es := by
  induction es generalizing s with
  | nil => exact Iff.rfl
  | cons t es ih =>
    obtain ⟨hfirst, hrest⟩ := List.pairwise_cons.1 hsorted
    refine and_congr ⟨fun h nodeID hroutes hflagged => ?_,
      fun h nodeID hroutes habsent hoverdue => ?_⟩
      (ih hrest fun u hu nodeID hflagged => ?_)
    · by_contra habsent
      have hoverdue := hs t List.mem_cons_self nodeID hflagged
      have hnone := (hpurge s t nodeID hroutes habsent hoverdue).1
        (h nodeID hroutes habsent hoverdue)
      cases hflagged.symm.trans hnone
    · refine (hpurge s t nodeID hroutes habsent hoverdue).2 (Bool.eq_false_iff.2 fun hflagged => ?_)
      exact habsent (h nodeID hroutes hflagged)
    · exact (hflag s t nodeID (hs t List.mem_cons_self nodeID) hflagged).mono (hfirst u hu)

private theorem monitorTick_overdue
    (h : (s nodeID).flagged = true → (s nodeID).Overdue threshold t.now)
    (hflagged : (monitorTick threshold s t nodeID).flagged = true) :
    (monitorTick threshold s t nodeID).Overdue threshold t.now := by
  unfold monitorTick at hflagged ⊢
  split_ifs at hflagged ⊢ with hcore hpurge
  · exact hpurge.2.1
  · exact h hflagged

private theorem sweepTick_overdue
    (h : (s nodeID).flagged = true → (s nodeID).Overdue threshold t.now)
    (hflagged : (sweepTick threshold s t nodeID).flagged = true) :
    (sweepTick threshold s t nodeID).Overdue threshold t.now := by
  unfold sweepTick Tracking.clear at hflagged ⊢
  split_ifs at hflagged ⊢ with hheld hnew hpurge hnone
  · obtain ⟨since, hsince, -⟩ := h hflagged
    rw [hsince] at hnew
    cases hnew
  · exact hpurge.2.2.1
  · exact h hflagged
  · exact h hflagged

/-- At non-decreasing times, either loop purges a dead node until its routes are gone along exactly
the runs on which no node with a flag has routes while it is absent. -/
theorem retried_iff (threshold : ℤ) {es : List Tick}
    (hsorted : es.Pairwise fun t u => t.now ≤ u.now) :
    (Along (monitorTick threshold) (Retried threshold (monitorPurges threshold)) (fun _ => {}) es ↔
      Along (monitorTick threshold) FlagsCleared (fun _ => {}) es) ∧
    (Along (sweepTick threshold) (Retried threshold (sweepPurges threshold)) (fun _ => {}) es ↔
      Along (sweepTick threshold) FlagsCleared (fun _ => {}) es) := by
  have hcore {t : Tick} {nodeID : Text} (habsent : ¬ t.Lists nodeID) : ¬ t.ListsCore nodeID := by
    rintro ⟨node, hnode, -, hid⟩
    exact habsent ⟨node, hnode, hid⟩
  constructor
  · exact along_retried_iff (fun _ _ _ => monitorTick_overdue)
      (fun s t nodeID _ habsent hoverdue => by
        simp [monitorPurges, hcore habsent, hoverdue]) hsorted
      fun _ _ _ h => by cases h
  · exact along_retried_iff (fun _ _ _ => sweepTick_overdue)
      (fun s t nodeID hroutes habsent hoverdue => by simp [sweepPurges, hroutes, habsent, hoverdue])
      hsorted fun _ _ _ h => by cases h

/-- A run in which the first purge fails, and the node keeps a route. -/
def failedPurge : List Tick :=
  [{ now := 0, members := [⟨lost, .core, []⟩] },
    { now := 40, nodesWithRoutes := [lost], purged := fun _ => false },
    { now := 50, nodesWithRoutes := [lost] }]

/-- A run in which the purge leaves a route behind. -/
def partialPurge : List Tick :=
  [{ now := 0, nodesWithRoutes := [lost] }, { now := 40, nodesWithRoutes := [lost] },
    { now := 50, nodesWithRoutes := [lost] }]

/-- Up to the second purge nothing is missed. -/
theorem retried_partialPurge :
    Along (sweepTick 30) (Retried 30 (sweepPurges 30)) (fun _ => {}) (partialPurge.take 2) :=
  (retried_iff 30 (by decide)).2.2 (by decide)

/-- The monitor does not retry a purge that failed, and the sweep none that was partial. -/
theorem not_retried :
    ¬ Along (monitorTick 30) (Retried 30 (monitorPurges 30)) (fun _ => {}) failedPurge ∧
      ¬ Along (sweepTick 30) (Retried 30 (sweepPurges 30)) (fun _ => {}) partialPurge :=
  ⟨fun h => absurd (h.2.2.1 lost (by decide) (by decide) (by decide)) (by decide),
    fun h => absurd (h.2.2.1 lost (by decide) (by decide) (by decide)) (by decide)⟩

end KeelGateway.Lifecycle
