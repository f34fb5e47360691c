import Mathlib.Data.Rat.Floor
import KeelGateway.Text

/-!
# Rebalancing edge nodes

A pass evicts clients from edge nodes with more sessions than the average allows, so that they
reconnect elsewhere. It takes a random selection of them, one after the other, and stops at a
cancelled context. However it goes, a node keeps the average.

Map iteration is the order of the `GoMap`s. The averages are exact, where the code has
floating-point numbers.

-/

namespace KeelGateway.Lifecycle

/-- `RebalanceConfig`. -/
structure RebalanceConfig where
  imbalanceThreshold : ℚ
  maxEvictionsPerNode : ℤ
  evictStagger : ℤ
  excludeClientIDs : Text → Bool := fun _ => false

/-- What a pass does not decide: the shuffle of the clients of a node, and whether the context is
done in the wait after an eviction. -/
structure Choices where
  shuffle : Text → List Text → List Text
  done : Text → Bool
  perm : ∀ nodeID clients, (shuffle nodeID clients).Perm clients

/-- `RebalanceNodeResult`; an error is told by its client. -/
structure RebalanceNodeResult where
  nodeID : Text
  before : ℕ
  target : ℤ
  evicted : List Text := []
  evictErrs : List Text := []

/-- `RebalanceResult`, with the calls of `Evict` and whether the context was done. -/
structure RebalanceResult where
  nodes : List RebalanceNodeResult := []
  attempts : List (Text × Text) := []
  cancelled : Bool := false

/-- The clients that the session map gives a node. -/
def clientsOf (sessions : GoMap Text Text) (nodeID : Text) : List Text :=
  (sessions.entries.filter (·.2 = nodeID)).map (·.1)

/-- The keys of `byNode`. -/
def liveNodes (nodeIsLiveEdge : GoMap Text Bool) : List Text :=
  (nodeIsLiveEdge.entries.filter (·.2)).map (·.1)

section Pass

variable (sessions : GoMap Text Text) (nodeIsLiveEdge : GoMap Text Bool) (cfg : RebalanceConfig)
  (choices : Choices)

/-- The average number of sessions of a live edge node. -/
def average : ℚ :=
  ((liveNodes nodeIsLiveEdge).map fun nodeID => (clientsOf sessions nodeID).length).sum /
    (liveNodes nodeIsLiveEdge).length

/-- `toEvict` of a node; absent if the loop goes on to the next node before it. -/
def toEvict (nodeID : Text) : Option (List Text) :=
  let clients := clientsOf sessions nodeID
  let mean := average sessions nodeIsLiveEdge
  if (clients.length : ℚ) ≤ mean * (1 + cfg.imbalanceThreshold) then none
  else
    let excess := min (clients.length - round mean) cfg.maxEvictionsPerNode
    if excess ≤ 0 then none
    else
      let evictable := clients.filter fun c => !cfg.excludeClientIDs c
      let excess := min excess evictable.length
      if excess ≤ 0 then none else some ((choices.shuffle nodeID evictable).take excess.toNat)

/-- The inner loop: the evictions of a node, with the outcome of `Evict` for each client. -/
def evictAll (evict : Text → Text → Bool) (nodeID : Text) :
    List Text → RebalanceNodeResult → RebalanceResult
  | [], result => { nodes := [result] }
  | clientID :: rest, result =>
    let after : RebalanceResult :=
      if !evict nodeID clientID then
        evictAll evict nodeID rest { result with evictErrs := result.evictErrs ++ [clientID] }
      else
        let result := { result with evicted := result.evicted ++ [clientID] }
        if rest ≠ [] ∧ cfg.evictStagger > 0 ∧ choices.done clientID then
          { nodes := [result], cancelled := true }
        else evictAll evict nodeID rest result
    { after with attempts := (nodeID, clientID) :: after.attempts }

/-- The outer loop. Without an `evict` it is a dry run. -/
def rebalanceNodes (evict : Option (Text → Text → Bool)) : List Text → RebalanceResult
  | [] => {}
  | nodeID :: rest =>
    match toEvict sessions nodeIsLiveEdge cfg choices nodeID with
    | none => rebalanceNodes evict rest
    | some clientIDs =>
      let result : RebalanceNodeResult :=
        ⟨nodeID, (clientsOf sessions nodeID).length,
          round (average sessions nodeIsLiveEdge), [], []⟩
      let here := match evict with
        | none => { nodes := [{ result with evicted := clientIDs }] }
        | some evict => evictAll cfg choices evict nodeID clientIDs result
      if here.cancelled then here
      else
        let after := rebalanceNodes evict rest
        ⟨here.nodes ++ after.nodes, here.attempts ++ after.attempts, after.cancelled⟩

/-- `Rebalance`. It fails without an evictor, unless it is a dry run. -/
def rebalance (evictor : Option (Text → Text → Bool)) (dryRun : Bool) : Option RebalanceResult :=
  if evictor.isNone && !dryRun then none
  else
    some (rebalanceNodes sessions nodeIsLiveEdge cfg choices (if dryRun then none else evictor)
      (liveNodes nodeIsLiveEdge))

/-- What a pass may attempt. -/
structure Bounded (r : RebalanceResult) : Prop where
  /-- The node is a live edge with too many sessions, and the client is one of them and not
  excluded. -/
  admissible : ∀ nodeID clientID, (nodeID, clientID) ∈ r.attempts →
    nodeIsLiveEdge.lookup nodeID = some true ∧
      average sessions nodeIsLiveEdge * (1 + cfg.imbalanceThreshold) <
        (clientsOf sessions nodeID).length ∧
      sessions.lookup clientID = some nodeID ∧ cfg.excludeClientIDs clientID = false
  once : (r.attempts.map Prod.snd).Nodup
  /-- A node with attempts stays within the cap and keeps the rounded average. -/
  capped : ∀ nodeID, (nodeID ∈ r.attempts.map Prod.fst) →
    ((r.attempts.filter (·.1 = nodeID)).length : ℤ) ≤ cfg.maxEvictionsPerNode ∧
      round (average sessions nodeIsLiveEdge) ≤
        (clientsOf sessions nodeID).length - ((r.attempts.filter (·.1 = nodeID)).length : ℤ)

end Pass

variable {sessions : GoMap Text Text} {nodeIsLiveEdge : GoMap Text Bool} {cfg : RebalanceConfig}
  {choices : Choices} {nodeID clientID : Text}

private theorem mem_clientsOf :
    clientID ∈ clientsOf sessions nodeID ↔ sessions.lookup clientID = some nodeID := by
  rw [← GoMap.mem_entries, clientsOf, List.mem_map]
  constructor
  · rintro ⟨⟨c, n⟩, hrow, rfl⟩
    obtain ⟨hmem, hn⟩ := List.mem_filter.1 hrow
    obtain rfl : n = nodeID := of_decide_eq_true hn
    exact hmem
  · exact fun hrow => ⟨_, List.mem_filter.2 ⟨hrow, decide_eq_true rfl⟩, rfl⟩

private theorem nodup_clientsOf : (clientsOf sessions nodeID).Nodup :=
  sessions.keys_nodup.sublist (List.filter_sublist.map _)

private theorem mem_liveNodes :
    nodeID ∈ liveNodes nodeIsLiveEdge ↔ nodeIsLiveEdge.lookup nodeID = some true := by
  rw [← GoMap.mem_entries, liveNodes, List.mem_map]
  constructor
  · rintro ⟨⟨n, live⟩, hrow, rfl⟩
    obtain ⟨hmem, hlive⟩ := List.mem_filter.1 hrow
    obtain rfl : live = true := hlive
    exact hmem
  · exact fun hrow => ⟨_, List.mem_filter.2 ⟨hrow, rfl⟩, rfl⟩

theorem toEvict_spec {clientIDs : List Text}
    (h : toEvict sessions nodeIsLiveEdge cfg choices nodeID = some clientIDs) :
    average sessions nodeIsLiveEdge * (1 + cfg.imbalanceThreshold) <
        (clientsOf sessions nodeID).length ∧
      clientIDs.Nodup ∧
      (∀ c ∈ clientIDs, sessions.lookup c = some nodeID ∧ cfg.excludeClientIDs c = false) ∧
      (clientIDs.length : ℤ) ≤ cfg.maxEvictionsPerNode ∧
      round (average sessions nodeIsLiveEdge) ≤
        (clientsOf sessions nodeID).length - (clientIDs.length : ℤ) := by
  unfold toEvict at h
  dsimp only at h
  split_ifs at h with hcount hexcess hevictable
  obtain rfl := Option.some.inj h
  have hperm := choices.perm nodeID
    ((clientsOf sessions nodeID).filter fun c => !cfg.excludeClientIDs c)
  refine ⟨not_le.1 hcount, ?_, fun c hc => ?_, ?_, ?_⟩
  · exact (hperm.nodup_iff.2 (nodup_clientsOf.filter _)).sublist (List.take_sublist _ _)
  · obtain ⟨hmem, hkept⟩ := List.mem_filter.1 (hperm.subset (List.mem_of_mem_take hc))
    exact ⟨mem_clientsOf.1 hmem, by simpa using hkept⟩
  · rw [List.length_take]
    omega
  · rw [List.length_take]
    omega

theorem evictAll_attempts (evict : Text → Text → Bool) (clientIDs : List Text)
    (result : RebalanceNodeResult) :
    (evictAll cfg choices evict nodeID clientIDs result).attempts.Sublist
      (clientIDs.map fun c => (nodeID, c)) := by
  induction clientIDs generalizing result with
  | nil => exact List.Sublist.refl _
  | cons c rest ih =>
    refine List.Sublist.cons_cons _ ?_
    split_ifs
    · exact ih _
    · exact List.nil_sublist _
    · exact ih _

/-- What a pass would attempt at most. -/
theorem rebalanceNodes_attempts (evict : Option (Text → Text → Bool)) (nodeIDs : List Text) :
    (rebalanceNodes sessions nodeIsLiveEdge cfg choices evict nodeIDs).attempts.Sublist
      (nodeIDs.flatMap fun nodeID =>
        ((toEvict sessions nodeIsLiveEdge cfg choices nodeID).getD []).map fun c =>
          (nodeID, c)) := by
  induction nodeIDs with
  | nil => exact List.Sublist.refl _
  | cons nodeID rest ih =>
    rw [rebalanceNodes, List.flatMap_cons]
    split
    · next hnone =>
      rw [hnone]
      exact ih
    · next clientIDs hsome =>
      rw [hsome]
      dsimp only
      cases evict with
      | none => exact ih.trans (List.sublist_append_right _ _)
      | some evict =>
        split_ifs
        · exact (evictAll_attempts evict clientIDs _).trans (List.sublist_append_left _ _)
        · exact (evictAll_attempts evict clientIDs _).append ih

private theorem nodup_toEvict :
    ((liveNodes nodeIsLiveEdge).flatMap fun nodeID =>
      (toEvict sessions nodeIsLiveEdge cfg choices nodeID).getD []).Nodup := by
  have hspec {nodeID c : Text}
      (hc : c ∈ (toEvict sessions nodeIsLiveEdge cfg choices nodeID).getD []) :
      sessions.lookup c = some nodeID := by
    cases h : toEvict sessions nodeIsLiveEdge cfg choices nodeID with
    | none => simp [h] at hc
    | some l => exact ((toEvict_spec h).2.2.1 c (by simpa [h] using hc)).1
  refine List.nodup_flatMap.2 ⟨fun nodeID _ => ?_, ?_⟩
  · cases h : toEvict sessions nodeIsLiveEdge cfg choices nodeID with
    | none => exact List.nodup_nil
    | some l => exact (toEvict_spec h).2.1
  · have hnodup : (liveNodes nodeIsLiveEdge).Nodup :=
      nodeIsLiveEdge.keys_nodup.sublist (List.filter_sublist.map _)
    refine hnodup.imp fun hne c hc hc' => hne ?_
    exact Option.some.inj ((hspec hc).symm.trans (hspec hc'))

theorem bounded_of_sublist {r : RebalanceResult}
    (h : r.attempts.Sublist ((liveNodes nodeIsLiveEdge).flatMap fun nodeID =>
      ((toEvict sessions nodeIsLiveEdge cfg choices nodeID).getD []).map fun c => (nodeID, c))) :
    Bounded sessions nodeIsLiveEdge cfg r := by
  have hselected {n c : Text} (hmem : (n, c) ∈ r.attempts) : n ∈ liveNodes nodeIsLiveEdge ∧
      ∃ l, toEvict sessions nodeIsLiveEdge cfg choices n = some l ∧ c ∈ l := by
    obtain ⟨n', hn', hc⟩ := List.mem_flatMap.1 (h.subset hmem)
    obtain ⟨c', hc', heq⟩ := List.mem_map.1 hc
    cases heq
    cases hl : toEvict sessions nodeIsLiveEdge cfg choices n with
    | none => simp [hl] at hc'
    | some l => exact ⟨hn', l, rfl, by simpa [hl] using hc'⟩
  have honce : (r.attempts.map Prod.snd).Nodup := by
    refine List.Nodup.sublist (h.map _) ?_
    simpa [List.map_flatMap] using nodup_toEvict
  refine ⟨fun n c hmem => ?_, honce, fun n hn => ?_⟩
  · obtain ⟨hlive, l, hl, hc⟩ := hselected hmem
    obtain ⟨hcount, -, hclient, -⟩ := toEvict_spec hl
    exact ⟨mem_liveNodes.1 hlive, hcount, hclient c hc⟩
  · obtain ⟨⟨n, c⟩, hmem, rfl⟩ := List.mem_map.1 hn
    obtain ⟨-, l, hl, -⟩ := hselected hmem
    obtain ⟨-, -, -, hcap, hkept⟩ := toEvict_spec hl
    -- the clients tried on this node are different clients of its selection
    have hle : (r.attempts.filter (·.1 = n)).length ≤ l.length := by
      rw [← List.length_map]
      refine (List.subperm_of_subset (honce.sublist (List.filter_sublist.map _))
        fun c hc => ?_).length_le
      obtain ⟨⟨n', c⟩, hrow, rfl⟩ := List.mem_map.1 hc
      obtain ⟨htried, hn'⟩ := List.mem_filter.1 hrow
      obtain rfl : n' = n := of_decide_eq_true hn'
      obtain ⟨-, l', hl', hc'⟩ := hselected htried
      cases hl.symm.trans hl'
      exact hc'
    dsimp only
    constructor <;> omega

theorem evictAll_of_success {evict : Text → Text → Bool} (hevict : ∀ n c, evict n c = true)
    (hdone : ∀ c, choices.done c = false) (clientIDs : List Text) (result : RebalanceNodeResult) :
    evictAll cfg choices evict nodeID clientIDs result =
      ⟨[{ result with evicted := result.evicted ++ clientIDs }],
        clientIDs.map fun c => (nodeID, c), false⟩ := by
  induction clientIDs generalizing result with
  | nil => simp [evictAll]
  | cons c rest ih => simp [evictAll, hevict, hdone, ih]

theorem rebalanceNodes_of_success {evict : Text → Text → Bool} (hevict : ∀ n c, evict n c = true)
    (hdone : ∀ c, choices.done c = false) (nodeIDs : List Text) :
    (rebalanceNodes sessions nodeIsLiveEdge cfg choices (some evict) nodeIDs).nodes =
        (rebalanceNodes sessions nodeIsLiveEdge cfg choices none nodeIDs).nodes ∧
      (rebalanceNodes sessions nodeIsLiveEdge cfg choices (some evict) nodeIDs).attempts =
        (rebalanceNodes sessions nodeIsLiveEdge cfg choices none nodeIDs).nodes.flatMap
          fun n => n.evicted.map (n.nodeID, ·) := by
  induction nodeIDs with
  | nil => exact ⟨rfl, rfl⟩
  | cons nodeID rest ih =>
    simp only [rebalanceNodes]
    split
    · exact ih
    · simp [evictAll_of_success hevict hdone, ih]

private theorem rebalanceNodes_none (nodeIDs : List Text) :
    (rebalanceNodes sessions nodeIsLiveEdge cfg choices none nodeIDs).attempts = [] := by
  induction nodeIDs with
  | nil => rfl
  | cons nodeID rest ih =>
    simp only [rebalanceNodes]
    split
    · exact ih
    · simp [ih]

/-- Every pass keeps the bounds. A dry run attempts nothing and lists the clients that a pass with
the same choices, in which nothing fails, evicts: that pass makes the same report, and the calls of
`Evict` that it makes are those of the listing. -/
theorem rebalance_bounded (sessions : GoMap Text Text) (nodeIsLiveEdge : GoMap Text Bool)
    (cfg : RebalanceConfig) (choices : Choices) (evictor : Option (Text → Text → Bool)) :
    (∀ r, rebalance sessions nodeIsLiveEdge cfg choices evictor false = some r →
      Bounded sessions nodeIsLiveEdge cfg r) ∧
    ∃ dry, rebalance sessions nodeIsLiveEdge cfg choices evictor true = some dry ∧
      dry.attempts = [] ∧
      ∀ evict, (∀ n c, evict n c = true) → (∀ c, choices.done c = false) →
        ∃ r, rebalance sessions nodeIsLiveEdge cfg choices (some evict) false = some r ∧
          r.nodes = dry.nodes ∧
          r.attempts = dry.nodes.flatMap fun n => n.evicted.map (n.nodeID, ·) := by
  refine ⟨fun r hr => ?_, _, if_neg (by simp), rebalanceNodes_none _, fun evict hevict hdone =>
    ⟨_, if_neg (by simp), rebalanceNodes_of_success hevict hdone _⟩⟩
  obtain ⟨-, heq⟩ := Option.ite_none_left_eq_some.1 hr
  cases heq
  exact bounded_of_sublist (rebalanceNodes_attempts _ _)

end KeelGateway.Lifecycle
