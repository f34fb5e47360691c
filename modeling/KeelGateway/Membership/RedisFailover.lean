import Mathlib.Data.Char
import Mathlib.Data.List.Lex
import Mathlib.Data.List.Sort
import KeelGateway.Lib.Dialogue
import KeelGateway.Lib.StepMachine
import KeelGateway.Text

/-!
# Failover of the Redis primary

Every core node has a Redis of its own, and one of them is the designated primary. The Raft leader
probes the primary every few seconds. Once it has been unavailable for longer than a threshold, the
leader promotes the Redis of another core node and then designates that node. How long the primary
has been unavailable is kept in a map on the node: the time of the first failed probe, by node ID.

A tick of the loop is a program that talks to its environment: leadership is asked for at several
points and may be lost at any of them, and every probe and admin command may fail. Ticks alternate
with designations that other nodes make.

-/

namespace KeelGateway.Membership

open Dialogue StepMachine

/-! ### Members -/

/-- `Role`. -/
inductive Role where
  | core
  | edge
  deriving DecidableEq

/-- What the loop reads of `NodeMeta`. -/
structure NodeMeta where
  nodeID : Text
  role : Role
  redisAddr : Text
  deriving DecidableEq

/-- `coreMembersWithRedis`. -/
def coreMembersWithRedis (members : List NodeMeta) : List NodeMeta :=
  members.filter fun node => node.role = .core ∧ node.redisAddr ≠ []

/-- `net.SplitHostPort`: the port comes after the last colon, and a host with colons stands in
brackets. -/
def splitHostPort (hostport : Text) : Option (Text × Text) :=
  match hostport.reverse.span (· != ':') with
  | (_, []) => none
  | (port, _ :: host) =>
    let host := host.reverse
    let port := port.reverse
    if ['['].isPrefixOf hostport then
      -- the first closing bracket is the last character before the colon
      match (host.drop 1).span (· != ']') with
      | (inner, [_]) => if '[' ∈ inner ∨ '[' ∈ port ∨ ']' ∈ port then none else some (inner, port)
      | _ => none
    else if ':' ∈ host ∨ '[' ∈ hostport ∨ ']' ∈ hostport then none
    else some (host, port)

/-! ### The loop body -/

/-- What a tick asks of its environment. A command to a Redis comes with the member whose address it
is sent to. -/
inductive Call where
  | isLeader
  | ping (node : NodeMeta)
  | replicaOf (addr primaryHost primaryPort : Text)
  | replicaOfNoOne (node : NodeMeta)
  | setRedisPrimary (nodeID : Text)
  deriving DecidableEq

/-- A part of the loop body. An answer is true if the node is leader, or if the command succeeds. -/
abbrev Admin : Type → Type := Prog Call Bool

/-- The calls of a tick with their answers. -/
abbrev Transcript : Type := List (Call × Bool)

/-- The failure windows: the time of the first failed probe of a node. -/
abbrev Windows : Type := GoMap Text ℤ

/-- The loop of `ensureReplicasConfigured`. -/
def configureReplicas (primaryNodeID primaryHost primaryPort : Text) : List NodeMeta → Admin Unit
  | [] => pure ()
  | node :: rest =>
    if node.nodeID = primaryNodeID then
      configureReplicas primaryNodeID primaryHost primaryPort rest
    else do
      if ← Prog.ask .isLeader then
        let _ ← Prog.ask (.replicaOf node.redisAddr primaryHost primaryPort)
        configureReplicas primaryNodeID primaryHost primaryPort rest
      else pure ()

/-- `ensureReplicasConfigured`. -/
def ensureReplicasConfigured (coreMembers : List NodeMeta) (primaryNodeID : Text) : Admin Unit :=
  match coreMembers.find? (·.nodeID = primaryNodeID) with
  | none => pure ()
  | some primary =>
    match splitHostPort primary.redisAddr with
    | none => pure ()
    | some (primaryHost, primaryPort) =>
      configureReplicas primaryNodeID primaryHost primaryPort coreMembers

/-- The loop of `failoverRedisPrimary`: the first survivor that answers is promoted. There is no
second attempt, not even after a failure. -/
def promoteSurvivor (deadPrimary : Text) : List NodeMeta → Admin (Option NodeMeta)
  | [] => pure none
  | node :: rest =>
    if node.nodeID = deadPrimary then promoteSurvivor deadPrimary rest
    else do
      if ← Prog.ask (.ping node) then
        if ← Prog.ask .isLeader then
          if ← Prog.ask (.replicaOfNoOne node) then pure (some node) else pure none
        else pure none
      else promoteSurvivor deadPrimary rest

/-- `failoverRedisPrimary`, with the failure windows afterwards. -/
def failoverRedisPrimary (coreMembers : List NodeMeta) (deadPrimary : Text) (windows : Windows) :
    Admin Windows := do
  let sorted := coreMembers.insertionSort (·.nodeID ≤ ·.nodeID)
  match ← promoteSurvivor deadPrimary sorted with
  | none => pure windows
  | some candidate =>
    if ← Prog.ask (.setRedisPrimary candidate.nodeID) then
      ensureReplicasConfigured sorted candidate.nodeID
      pure (windows.erase deadPrimary)
    else pure windows

/-- `bootstrapRedisPrimary`. -/
def bootstrapRedisPrimary (self : Text) (coreMembers : List NodeMeta) (voterCount : ℕ) :
    Admin Unit :=
  match coreMembers with
  | [] => pure ()
  | first :: _ => do
    let candidate := (coreMembers.find? (·.nodeID = self)).getD first
    if ← Prog.ask (.setRedisPrimary candidate.nodeID) then
      if voterCount > 1 then ensureReplicasConfigured coreMembers candidate.nodeID
      else
        let _ ← Prog.ask (.replicaOfNoOne candidate)
        pure ()
    else pure ()

/-- What does not change from tick to tick. -/
structure FailoverConfig where
  self : Text
  threshold : ℤ

/-- What a tick finds: the members known by gossip, the number of voters or an error, the time after
the probe of the primary, and the answers to its calls. -/
structure Tick where
  members : List NodeMeta
  voterCount : Option ℕ
  now : ℤ
  answers : ℕ → Bool

/-- The probe of the primary: a node that gossip does not know is not healthy. -/
def probePrimary (coreMembers : List NodeMeta) (primary : Text) : Admin Bool :=
  match coreMembers.find? (·.nodeID = primary) with
  | none => pure false
  | some node => Prog.ask (.ping node)

/-- The end of `reconcileRedisPrimary` when the primary is not healthy: a failure window starts, is
waited out, or has lasted too long. -/
def awaitPrimary (cfg : FailoverConfig) (tick : Tick) (coreMembers : List NodeMeta)
    (primary : Text) (windows : Windows) : Admin Windows :=
  match windows.lookup primary with
  | none => pure (windows.insert primary tick.now)
  | some since =>
    if tick.now - since ≤ cfg.threshold then pure windows
    else failoverRedisPrimary coreMembers primary windows

/-- `reconcileRedisPrimary`, for the designated primary, which is empty if there is none. -/
def reconcileRedisPrimary (cfg : FailoverConfig) (tick : Tick) (primary : Text)
    (windows : Windows) : Admin Windows := do
  if ← Prog.ask .isLeader then
    let coreMembers := coreMembersWithRedis tick.members
    match tick.voterCount with
    | none => pure windows
    | some voterCount =>
      if primary = [] then
        bootstrapRedisPrimary cfg.self coreMembers voterCount
        pure windows
      else if voterCount ≤ 1 then pure windows
      else
        let healthy ← probePrimary coreMembers primary
        if ← Prog.ask .isLeader then
          if healthy then
            ensureReplicasConfigured coreMembers primary
            pure (windows.erase primary)
          else awaitPrimary cfg tick coreMembers primary windows
        else pure windows
  else pure ∅

/-! ### Transcripts -/

namespace Call

/-- A probe of the node. -/
@[simp] def pings (nodeID : Text) : Call → Bool
  | ping node => node.nodeID = nodeID
  | _ => false

@[simp] def isPromotion : Call → Bool
  | replicaOfNoOne _ => true
  | _ => false

@[simp] def isDesignation : Call → Bool
  | setRedisPrimary _ => true
  | _ => false

end Call

/-- A probe of the node has succeeded. -/
def Pinged (t : Transcript) (nodeID : Text) : Prop :=
  ∃ x ∈ t, x.1.pings nodeID = true ∧ x.2 = true

instance (t : Transcript) (nodeID : Text) : Decidable (Pinged t nodeID) :=
  inferInstanceAs (Decidable (∃ x ∈ t, _))

/-- A promotion or a designation has been issued. -/
def Acts (t : Transcript) : Prop :=
  ∃ x ∈ t, x.1.isPromotion = true ∨ x.1.isDesignation = true

instance (t : Transcript) : Decidable (Acts t) := inferInstanceAs (Decidable (∃ x ∈ t, _))

/-- The number of promotions that have been issued. -/
def promotions (t : Transcript) : ℕ := t.countP (·.1.isPromotion)

/-- The order of promotion and designation: at most one promotion, a designation only of a node
other than the primary whose probe and promotion have both succeeded, and none after a promotion
that failed. -/
structure Orderly (primary : Text) (t : Transcript) : Prop where
  promotions_le : promotions t ≤ 1
  designated : ∀ nodeID b, (Call.setRedisPrimary nodeID, b) ∈ t → nodeID ≠ primary ∧
    ∃ node : NodeMeta, node.nodeID = nodeID ∧ (Call.ping node, true) ∈ t ∧
      (Call.replicaOfNoOne node, true) ∈ t
  refused : ∀ node, (Call.replicaOfNoOne node, false) ∈ t →
    ∀ nodeID b, (Call.setRedisPrimary nodeID, b) ∉ t

/-- What one tick does with a designated primary. -/
structure TickSpec (cfg : FailoverConfig) (tick : Tick) (primary : Text) (windows : Windows)
    (t : Transcript) (windows' : Windows) : Prop where
  /-- A tick that acts has not reached the primary, and its failure window was open long enough. -/
  acts : Acts t → (∃ v, tick.voterCount = some v ∧ 1 < v) ∧ ¬ Pinged t primary ∧
    ∃ since, windows.lookup primary = some since ∧ cfg.threshold < tick.now - since
  orderly : Orderly primary t
  opened : ∀ nodeID since, windows'.lookup nodeID = some since →
    windows.lookup nodeID = some since ∨ (since = tick.now ∧ ¬ Pinged t nodeID)
  /-- A successful probe ends the window of the primary, unless leadership is lost right after it:
  the third call asks for it. -/
  closed : Pinged t primary → t[2]? = some (.isLeader, false) ∨ windows'.lookup primary = none

/-! ### What the parts do -/

/-- The calls only ask for leadership or point a replica at its primary. -/
def Quiet (t : Transcript) : Prop :=
  ∀ x ∈ t, x.1.isPromotion = false ∧ x.1.isDesignation = false ∧ ∀ nodeID, x.1.pings nodeID = false

theorem Quiet.nil : Quiet [] := nofun

theorem Quiet.isLeader_cons {t : Transcript} (h : Quiet t) (b : Bool) :
    Quiet ((.isLeader, b) :: t) :=
  List.forall_mem_cons.2 ⟨⟨rfl, rfl, fun _ => rfl⟩, h⟩

theorem Quiet.replicaOf_cons {t : Transcript} (h : Quiet t) (addr host port : Text) (b : Bool) :
    Quiet ((.replicaOf addr host port, b) :: t) :=
  List.forall_mem_cons.2 ⟨⟨rfl, rfl, fun _ => rfl⟩, h⟩

private theorem configureReplicas_quiet (primaryNodeID host port : Text) (nodes : List NodeMeta) :
    Ensures (configureReplicas primaryNodeID host port nodes) fun t _ => Quiet t := by
  induction nodes with
  | nil => exact Ensures.pure Quiet.nil
  | cons node rest ih =>
    rw [configureReplicas]
    split_ifs with hnode
    · exact ih
    · refine Ensures.ask_bind fun leader => ?_
      cases leader with
      | false => exact Ensures.pure (Quiet.nil.isLeader_cons false)
      | true =>
        refine Ensures.ask_bind fun ok => ih.imp fun t _ ht => ?_
        exact (ht.replicaOf_cons _ _ _ ok).isLeader_cons true

theorem ensureReplicasConfigured_quiet (coreMembers : List NodeMeta) (primaryNodeID : Text) :
    Ensures (ensureReplicasConfigured coreMembers primaryNodeID) fun t _ => Quiet t := by
  unfold ensureReplicasConfigured
  split
  · exact Ensures.pure Quiet.nil
  · split
    · exact Ensures.pure Quiet.nil
    · exact configureReplicas_quiet _ _ _ _

/-- What the search for a survivor does: no designation, no probe of the primary, and at most one
promotion, which has succeeded if there is a result. -/
structure PromoteSpec (deadPrimary : Text) (t : Transcript) (result : Option NodeMeta) : Prop where
  promotions_le : promotions t ≤ 1
  undesignated : ∀ x ∈ t, x.1.isDesignation = false
  unprobed : ∀ x ∈ t, x.1.pings deadPrimary = false
  promoted : ∀ node, result = some node → node.nodeID ≠ deadPrimary ∧
    (Call.ping node, true) ∈ t ∧ (Call.replicaOfNoOne node, true) ∈ t
  refused : ∀ node, (Call.replicaOfNoOne node, false) ∈ t → result = none

private theorem promoteSurvivor_spec (deadPrimary : Text) (nodes : List NodeMeta) :
    Ensures (promoteSurvivor deadPrimary nodes) (PromoteSpec deadPrimary) := by
  induction nodes with
  | nil => exact Ensures.pure ⟨Nat.zero_le 1, nofun, nofun, nofun, nofun⟩
  | cons node rest ih =>
    rw [promoteSurvivor]
    split_ifs with hnode
    · exact ih
    · have hping : Call.pings deadPrimary (.ping node) = false := by simpa using hnode
      refine Ensures.ask_bind fun answered => ?_
      cases answered with
      | false =>
        refine ih.imp fun t result h => ⟨?_, ?_, ?_, fun survivor hresult => ?_, ?_⟩
        · simpa [promotions] using h.promotions_le
        · exact List.forall_mem_cons.2 ⟨rfl, h.undesignated⟩
        · exact List.forall_mem_cons.2 ⟨hping, h.unprobed⟩
        · obtain ⟨hne, hp, hr⟩ := h.promoted survivor hresult
          exact ⟨hne, List.mem_cons_of_mem _ hp, List.mem_cons_of_mem _ hr⟩
        · simpa using h.refused
      | true =>
        refine Ensures.ask_bind fun leader => ?_
        cases leader with
        | false =>
          refine Ensures.pure ⟨by simp [promotions], ?_, ?_, nofun, by simp⟩
          · simp
          · simpa using hping
        | true =>
          refine Ensures.ask_bind fun promoted => ?_
          cases promoted with
          | false =>
            refine Ensures.pure ⟨by simp [promotions], ?_, ?_, nofun, fun _ _ => rfl⟩
            · simp
            · simpa using hping
          | true =>
            refine Ensures.pure ⟨by simp [promotions], ?_, ?_, ?_, by simp⟩
            · simp
            · simpa using hping
            · rintro survivor hsurvivor
              cases hsurvivor
              exact ⟨hnode, by simp, by simp⟩

section Orderly

variable {primary : Text} {t t' : Transcript}

theorem Quiet.promotions_eq_zero (h : Quiet t) : promotions t = 0 :=
  List.countP_eq_zero.2 fun x hx => ne_true_of_eq_false (h x hx).1

theorem Quiet.notMem_promotion (h : Quiet t) (node : NodeMeta) (b : Bool) :
    (Call.replicaOfNoOne node, b) ∉ t := fun hmem => absurd (h _ hmem).1 (by simp)

theorem Quiet.notMem_designation (h : Quiet t) (nodeID : Text) (b : Bool) :
    (Call.setRedisPrimary nodeID, b) ∉ t := fun hmem => absurd (h _ hmem).2.1 (by simp)

theorem Orderly.append_left (h : Orderly primary t')
    (hidle : ∀ x ∈ t, x.1.isPromotion = false ∧ x.1.isDesignation = false) :
    Orderly primary (t ++ t') := by
  have hzero : promotions t = 0 :=
    List.countP_eq_zero.2 fun x hx => ne_true_of_eq_false (hidle x hx).1
  have hpromotion (node : NodeMeta) (b : Bool) (hmem : (Call.replicaOfNoOne node, b) ∈ t ++ t') :
      (Call.replicaOfNoOne node, b) ∈ t' :=
    (List.mem_append.1 hmem).resolve_left fun hx => absurd (hidle _ hx).1 (by simp)
  have hdesignation (nodeID : Text) (b : Bool)
      (hmem : (Call.setRedisPrimary nodeID, b) ∈ t ++ t') :
      (Call.setRedisPrimary nodeID, b) ∈ t' :=
    (List.mem_append.1 hmem).resolve_left fun hx => absurd (hidle _ hx).2 (by simp)
  refine ⟨?_, fun nodeID b hmem => ?_, fun node hmem nodeID b hset => ?_⟩
  · have hcount : promotions (t ++ t') = promotions t + promotions t' := List.countP_append
    rw [hcount, hzero, Nat.zero_add]
    exact h.promotions_le
  · obtain ⟨hne, node, hnode, hping, hpromoted⟩ :=
      h.designated nodeID b (hdesignation nodeID b hmem)
    exact ⟨hne, node, hnode, List.mem_append_right _ hping, List.mem_append_right _ hpromoted⟩
  · exact h.refused node (hpromotion node false hmem) nodeID b (hdesignation nodeID b hset)

theorem Quiet.orderly (h : Quiet t) : Orderly primary t :=
  ⟨h.promotions_eq_zero ▸ Nat.zero_le 1, fun n b hmem => absurd hmem (h.notMem_designation n b),
    fun node hmem => absurd hmem (h.notMem_promotion node false)⟩

theorem Orderly.nil : Orderly primary [] := Quiet.nil.orderly

theorem PromoteSpec.orderly {result : Option NodeMeta} (h : PromoteSpec primary t result) :
    Orderly primary t := by
  have hno (nodeID : Text) (b : Bool) : (Call.setRedisPrimary nodeID, b) ∉ t :=
    fun hmem => absurd (h.undesignated _ hmem) (by simp)
  exact ⟨h.promotions_le, fun n b hmem => absurd hmem (hno n b), fun _ _ n b => hno n b⟩

theorem PromoteSpec.orderly_designate {candidate : NodeMeta}
    (h : PromoteSpec primary t (some candidate)) (ht' : Quiet t') (b : Bool) :
    Orderly primary (t ++ (.setRedisPrimary candidate.nodeID, b) :: t') := by
  obtain ⟨hne, hping, hpromoted⟩ := h.promoted candidate rfl
  refine ⟨?_, fun nodeID b' hmem => ?_, fun node hmem => ?_⟩
  · have hcount : promotions (t ++ (.setRedisPrimary candidate.nodeID, b) :: t') =
        promotions t + promotions t' := by
      simp [promotions]
    rw [hcount, ht'.promotions_eq_zero]
    exact h.promotions_le
  · rcases List.mem_append.1 hmem with hmem | hmem
    · exact absurd (h.undesignated _ hmem) (by simp)
    · rcases List.mem_cons.1 hmem with heq | hmem
      · cases heq
        exact ⟨hne, candidate, rfl, List.mem_append_left _ hping,
          List.mem_append_left _ hpromoted⟩
      · exact absurd hmem (ht'.notMem_designation nodeID b')
  · rcases List.mem_append.1 hmem with hmem | hmem
    · cases h.refused node hmem
    · rcases List.mem_cons.1 hmem with heq | hmem
      · cases heq
      · exact absurd hmem (ht'.notMem_promotion node false)

end Orderly

/-- What a failover does: promotion and designation are in order, the primary is not probed, and at
most its own failure window ends. -/
structure FailoverSpec (deadPrimary : Text) (windows : Windows) (t : Transcript)
    (windows' : Windows) : Prop where
  orderly : Orderly deadPrimary t
  unprobed : ¬ Pinged t deadPrimary
  windows : windows' = windows ∨ windows' = windows.erase deadPrimary

private theorem failoverRedisPrimary_spec (coreMembers : List NodeMeta) (deadPrimary : Text)
    (windows : Windows) :
    Ensures (failoverRedisPrimary coreMembers deadPrimary windows)
      (FailoverSpec deadPrimary windows) := by
  refine Ensures.bind ((promoteSurvivor_spec deadPrimary _).imp fun t result h => ?_)
  have hunprobed : ¬ Pinged t deadPrimary := by
    rintro ⟨x, hx, hping, -⟩
    rw [h.unprobed x hx] at hping
    cases hping
  cases result with
  | none =>
    refine Ensures.pure ?_
    rw [List.append_nil]
    exact ⟨h.orderly, hunprobed, Or.inl rfl⟩
  | some candidate =>
    -- the designation and what follows probe nobody
    have hrest {b : Bool} {t' : Transcript} (ht' : Quiet t') :
        ¬ Pinged (t ++ (.setRedisPrimary candidate.nodeID, b) :: t') deadPrimary := by
      rintro ⟨x, hx, hping, htrue⟩
      rcases List.mem_append.1 hx with hx | hx
      · exact hunprobed ⟨x, hx, hping, htrue⟩
      · rcases List.mem_cons.1 hx with rfl | hx
        · simp at hping
        · rw [(ht' x hx).2.2] at hping
          cases hping
    refine Ensures.ask_bind fun acknowledged => ?_
    cases acknowledged with
    | false =>
      exact Ensures.pure ⟨h.orderly_designate Quiet.nil false, hrest Quiet.nil, Or.inl rfl⟩
    | true =>
      refine Ensures.bind ((ensureReplicasConfigured_quiet _ _).imp fun t' _ ht' => ?_)
      refine Ensures.pure ?_
      rw [List.append_nil]
      exact ⟨h.orderly_designate ht' true, hrest ht', Or.inr rfl⟩

/-! ### Ticks -/

variable {cfg : FailoverConfig} {tick : Tick} {primary : Text} {windows : Windows}

theorem TickSpec.of_idle {t : Transcript} {windows' : Windows}
    (hidle : ∀ x ∈ t, x.1.isPromotion = false ∧ x.1.isDesignation = false)
    (hopened : ∀ nodeID since, windows'.lookup nodeID = some since →
      windows.lookup nodeID = some since ∨ (since = tick.now ∧ ¬ Pinged t nodeID))
    (hclosed : Pinged t primary →
      t[2]? = some (.isLeader, false) ∨ windows'.lookup primary = none) :
    TickSpec cfg tick primary windows t windows' := by
  refine ⟨?_, ?_, hopened, hclosed⟩
  · rintro ⟨x, hx, hact | hact⟩
    · rw [(hidle x hx).1] at hact
      cases hact
    · rw [(hidle x hx).2] at hact
      cases hact
  · have hnil : Orderly primary [] := Orderly.nil
    have horderly := hnil.append_left hidle
    rwa [List.append_nil] at horderly

theorem probePrimary_spec (coreMembers : List NodeMeta) (primary : Text) :
    Ensures (probePrimary coreMembers primary) fun t healthy =>
      (∀ x ∈ t, x.1.isPromotion = false ∧ x.1.isDesignation = false) ∧ t.length ≤ 1 ∧
        (healthy = false → ∀ x ∈ t, x.2 = false) := by
  unfold probePrimary
  split
  · exact Ensures.pure ⟨nofun, Nat.zero_le 1, fun _ => nofun⟩
  · exact Ensures.ask fun answer => ⟨by simp, le_rfl, fun h => by simpa using h⟩

theorem awaitPrimary_spec (coreMembers : List NodeMeta) {voterCount : ℕ}
    (hvoters : tick.voterCount = some voterCount) (hmany : 1 < voterCount) {t : Transcript}
    (hidle : ∀ x ∈ t, x.1.isPromotion = false ∧ x.1.isDesignation = false)
    (hunprobed : ¬ Pinged t primary) :
    Ensures (awaitPrimary cfg tick coreMembers primary windows) fun t' windows' =>
      TickSpec cfg tick primary windows (t ++ t') windows' := by
  unfold awaitPrimary
  split
  · next hwindow =>
    refine Ensures.pure ?_
    rw [List.append_nil]
    refine .of_idle hidle (fun nodeID since h => ?_) fun h => absurd h hunprobed
    rw [GoMap.lookup_insert] at h
    split_ifs at h with hnode
    · cases h
      exact Or.inr ⟨rfl, hnode ▸ hunprobed⟩
    · exact Or.inl h
  · next since hwindow =>
    split_ifs with hgrace
    · refine Ensures.pure ?_
      rw [List.append_nil]
      exact .of_idle hidle (fun _ _ h => Or.inl h) fun h => absurd h hunprobed
    · refine (failoverRedisPrimary_spec coreMembers primary windows).imp fun t' windows' h => ?_
      have hpinged : ¬ Pinged (t ++ t') primary := by
        rintro ⟨x, hx, hping⟩
        rcases List.mem_append.1 hx with hx | hx
        · exact hunprobed ⟨x, hx, hping⟩
        · exact h.unprobed ⟨x, hx, hping⟩
      refine ⟨fun _ => ⟨⟨voterCount, hvoters, hmany⟩, hpinged, since, hwindow, by omega⟩,
        h.orderly.append_left hidle, fun nodeID since' hopen => Or.inl ?_,
        fun hping => absurd hping hpinged⟩
      rcases h.windows with rfl | rfl
      · exact hopen
      · rw [GoMap.lookup_erase] at hopen
        split_ifs at hopen
        exact hopen

theorem reconcile_spec (hprimary : primary ≠ []) :
    Ensures (reconcileRedisPrimary cfg tick primary windows)
      (TickSpec cfg tick primary windows) := by
  refine Ensures.ask_bind fun leader => ?_
  cases leader with
  | false => exact Ensures.pure (.of_idle (by simp) (fun _ _ h => by simp at h) fun _ => by simp)
  | true =>
    rw [if_pos rfl]
    cases hvoters : tick.voterCount with
    | none =>
      exact Ensures.pure
        (.of_idle (by simp) (fun _ _ h => Or.inl h) fun h => by simp [Pinged] at h)
    | some voterCount =>
      dsimp only
      rw [if_neg hprimary]
      split_ifs with hsingle
      · exact Ensures.pure
          (.of_idle (by simp) (fun _ _ h => Or.inl h) fun h => by simp [Pinged] at h)
      refine Ensures.bind ((probePrimary_spec _ _).imp fun t healthy ht => ?_)
      refine Ensures.ask_bind fun still => ?_
      -- nothing has happened so far but the probe
      have hidle (b : Bool) : ∀ x ∈ (Call.isLeader, true) :: (t ++ [(Call.isLeader, b)]),
          x.1.isPromotion = false ∧ x.1.isDesignation = false := by
        simp only [List.forall_mem_cons, List.forall_mem_append]
        exact ⟨⟨rfl, rfl⟩, ht.1, ⟨rfl, rfl⟩, nofun⟩
      have hsplit (b : Bool) (t' : Transcript) :
          (Call.isLeader, true) :: (t ++ (Call.isLeader, b) :: t') =
            ((Call.isLeader, true) :: (t ++ [(Call.isLeader, b)])) ++ t' := by
        simp
      cases still with
      | false =>
        refine Ensures.pure (.of_idle (hidle false) (fun _ _ h => Or.inl h) fun hping => Or.inl ?_)
        -- the probe is the second call, so the lost leadership is the third
        have hprobe : t.length = 1 := by
          refine le_antisymm ht.2.1 (List.length_pos_iff.2 ?_)
          rintro rfl
          simp [Pinged] at hping
        obtain ⟨x, rfl⟩ := List.length_eq_one_iff.1 hprobe
        rfl
      | true =>
        cases healthy with
        | true =>
          refine Ensures.bind ((ensureReplicasConfigured_quiet _ _).imp fun t' _ ht' => ?_)
          refine Ensures.pure ?_
          rw [List.append_nil, hsplit]
          refine .of_idle (List.forall_mem_append.2 ⟨hidle true, fun x hx =>
            ⟨(ht' x hx).1, (ht' x hx).2.1⟩⟩) (fun nodeID since h => Or.inl ?_) fun _ => Or.inr ?_
          · rw [GoMap.lookup_erase] at h
            split_ifs at h
            exact h
          · rw [GoMap.lookup_erase, if_pos rfl]
        | false =>
          have hunprobed : ¬ Pinged ((Call.isLeader, true) :: (t ++ [(Call.isLeader, true)]))
              primary := by
            rintro ⟨x, hx, hping, htrue⟩
            simp only [List.mem_cons, List.mem_append, List.not_mem_nil, or_false] at hx
            rcases hx with rfl | hx | rfl
            · simp at hping
            · rw [ht.2.2 rfl x hx] at htrue
              cases htrue
            · simp at hping
          refine (awaitPrimary_spec _ hvoters (by omega) (hidle true) hunprobed).imp
            fun t' windows' h => ?_
          rw [hsplit]
          exact h

private theorem bootstrapRedisPrimary_unprobed (self : Text) (coreMembers : List NodeMeta)
    (voterCount : ℕ) : Ensures (bootstrapRedisPrimary self coreMembers voterCount)
      fun t _ => ∀ x ∈ t, ∀ nodeID, x.1.pings nodeID = false := by
  cases coreMembers with
  | nil => exact Ensures.pure nofun
  | cons first rest =>
    refine Ensures.ask_bind fun designated => ?_
    cases designated with
    | false => exact Ensures.pure (by simp)
    | true =>
      rw [if_pos rfl]
      split_ifs with hmany
      · refine (ensureReplicasConfigured_quiet _ _).imp fun t _ ht => ?_
        exact List.forall_mem_cons.2 ⟨fun _ => rfl, fun x hx => (ht x hx).2.2⟩
      · exact Ensures.ask_bind fun promoted => Ensures.pure (by simp)

theorem reconcile_unset_spec :
    Ensures (reconcileRedisPrimary cfg tick [] windows) fun t windows' =>
      (∀ nodeID, ¬ Pinged t nodeID) ∧
        ∀ nodeID since, windows'.lookup nodeID = some since →
          windows.lookup nodeID = some since := by
  refine Ensures.ask_bind fun leader => ?_
  cases leader with
  | false => exact Ensures.pure ⟨by simp [Pinged], by simp⟩
  | true =>
    cases tick.voterCount with
    | none => exact Ensures.pure ⟨by simp [Pinged], fun _ _ h => h⟩
    | some voterCount =>
      refine Ensures.bind ((bootstrapRedisPrimary_unprobed _ _ _).imp fun t _ ht => ?_)
      refine Ensures.pure ⟨fun nodeID => ?_, fun _ _ h => h⟩
      rintro ⟨x, hx, hping, -⟩
      rw [List.append_nil, List.mem_cons] at hx
      rcases hx with rfl | hx
      · simp at hping
      · rw [ht x hx nodeID] at hping
        cases hping

/-! ### Runs -/

/-- The failure windows of the node and the designated primary. -/
structure FailoverState where
  windows : Windows
  designated : Text

/-- What happens: a tick of the node, or a designation that is none of its acknowledged ones, of
another leader or after an error. -/
inductive FailoverEvent where
  | tick (t : Tick)
  | designate (nodeID : Text)

/-- The designation after a tick. -/
def designation (primary : Text) (t : Transcript) : Text :=
  t.foldl (fun current x =>
    match x with
    | (.setRedisPrimary nodeID, true) => nodeID
    | _ => current) primary

namespace FailoverConfig

variable (cfg : FailoverConfig)

/-- The calls of a tick. -/
def calls (s : FailoverState) (tick : Tick) : Transcript :=
  ((reconcileRedisPrimary cfg tick s.designated s.windows).run tick.answers).1

/-- The failure windows after a tick. -/
def windowsAfter (s : FailoverState) (tick : Tick) : Windows :=
  ((reconcileRedisPrimary cfg tick s.designated s.windows).run tick.answers).2

/-- The state after an event. -/
def step (s : FailoverState) : FailoverEvent → FailoverState
  | .tick t => ⟨cfg.windowsAfter s t, designation s.designated (cfg.calls s t)⟩
  | .designate nodeID => { s with designated := nodeID }

end FailoverConfig

/-- A tick that has taken place. -/
structure TickRecord where
  now : ℤ
  calls : Transcript

/-- Every tick is recorded. -/
def FailoverConfig.record (cfg : FailoverConfig) (s : FailoverState) :
    FailoverEvent → Option TickRecord
  | .tick t => some ⟨t.now, cfg.calls s t⟩
  | .designate _ => none

/-- A probe that reaches a node with an open window is that of the primary, and the node is still
leader afterwards: after the first question for leadership and the probe, the third answer says so.
-/
def FailoverConfig.Heeds (cfg : FailoverConfig) (s : FailoverState) : FailoverEvent → Prop
  | .tick t => ∀ nodeID ∈ s.windows.keys, Pinged (cfg.calls s t) nodeID →
      nodeID = s.designated ∧ t.answers 2 = true
  | .designate _ => True

instance (cfg : FailoverConfig) (s : FailoverState) : (e : FailoverEvent) →
    Decidable (cfg.Heeds s e)
  | .tick t => inferInstanceAs
      (Decidable (∀ nodeID ∈ s.windows.keys, Pinged (cfg.calls s t) nodeID →
        nodeID = s.designated ∧ t.answers 2 = true))
  | .designate _ => inferInstanceAs (Decidable True)

section Run

/-- The tick at the given time has not reached the node, and none since. -/
def UnreachedSince (nodeID : Text) (since : ℤ) (records : List TickRecord) : Prop :=
  Since (fun r => r.now = since ∧ ¬ Pinged r.calls nodeID)
    (fun r => Pinged r.calls nodeID) records

/-- Every open window says since when the node has not been reached. -/
def WindowsTrue (records : List TickRecord) (s : FailoverState) : Prop :=
  ∀ nodeID since, s.windows.lookup nodeID = some since → UnreachedSince nodeID since records

theorem windowsAfter_opened (s : FailoverState) (tick : Tick) {nodeID : Text} {since : ℤ}
    (h : (cfg.windowsAfter s tick).lookup nodeID = some since) :
    s.windows.lookup nodeID = some since ∨
      (since = tick.now ∧ ¬ Pinged (cfg.calls s tick) nodeID) := by
  by_cases hprimary : s.designated = []
  · rw [FailoverConfig.windowsAfter, hprimary] at h
    exact Or.inl ((reconcile_unset_spec tick.answers).2 nodeID since h)
  · exact (reconcile_spec hprimary tick.answers).opened nodeID since h

theorem FailoverConfig.Heeds.unreached {s : FailoverState} {tick : Tick} {nodeID : Text} {since : ℤ}
    (h : cfg.Heeds s (.tick tick)) (hopen : (cfg.windowsAfter s tick).lookup nodeID = some since) :
    ¬ Pinged (cfg.calls s tick) nodeID := by
  rcases windowsAfter_opened s tick hopen with hbefore | ⟨-, hunreached⟩
  · intro hping
    obtain ⟨rfl, hleader⟩ := h nodeID
      (AList.mem_keys.1 (AList.lookup_isSome.1 (Option.isSome_of_eq_some hbefore))) hping
    by_cases hprimary : s.designated = []
    · rw [FailoverConfig.calls, hprimary] at hping
      exact (reconcile_unset_spec tick.answers).1 [] hping
    · rcases (reconcile_spec hprimary tick.answers).closed hping with hlost | hclosed
      · rw [← Prog.run_answer _ hlost] at hleader
        cases hleader
      · rw [FailoverConfig.windowsAfter, hclosed] at hopen
        cases hopen
  · exact hunreached

private theorem windowsTrue_step (records : List TickRecord) (s : FailoverState) (e : FailoverEvent)
    (h : WindowsTrue records s) (hheeds : cfg.Heeds s e) :
    WindowsTrue (records ++ (cfg.record s e).toList) (cfg.step s e) := by
  intro nodeID since hopen
  cases e with
  | designate other => simpa [FailoverConfig.record] using h nodeID since hopen
  | tick t =>
    have hunreached : ¬ Pinged (cfg.calls s t) nodeID := hheeds.unreached hopen
    refine since_concat.2 ?_
    rcases windowsAfter_opened s t hopen with hbefore | ⟨rfl, -⟩
    · exact Or.inr ⟨h nodeID since hbefore, hunreached⟩
    · exact Or.inl ⟨rfl, hunreached⟩

private theorem designation_of_notMem {primary : Text} {t : Transcript}
    (h : ∀ nodeID b, (Call.setRedisPrimary nodeID, b) ∉ t) : designation primary t = primary := by
  induction t with
  | nil => rfl
  | cons x t ih =>
    have hrest := ih fun nodeID b hmem => h nodeID b (List.mem_cons_of_mem _ hmem)
    obtain ⟨call, answer⟩ := x
    cases call with
    | setRedisPrimary nodeID => exact absurd List.mem_cons_self (h nodeID answer)
    | _ => exact hrest

/-- A tick with a designated primary is safe, seen with the ticks before it. -/
structure SafeTick (cfg : FailoverConfig) (records : List TickRecord) (s : FailoverState)
    (tick : Tick) : Prop where
  /-- The primary has been unreachable for longer than the threshold when a tick acts. -/
  acts : Acts (cfg.calls s tick) → (∃ v, tick.voterCount = some v ∧ 1 < v) ∧
    ¬ Pinged (cfg.calls s tick) s.designated ∧
      ∃ since, cfg.threshold < tick.now - since ∧ UnreachedSince s.designated since records
  promotions_le : promotions (cfg.calls s tick) ≤ 1
  designated : ∀ nodeID b, (Call.setRedisPrimary nodeID, b) ∈ cfg.calls s tick →
    nodeID ≠ s.designated ∧ ∃ node : NodeMeta, node.nodeID = nodeID ∧
      (Call.ping node, true) ∈ cfg.calls s tick ∧
        (Call.replicaOfNoOne node, true) ∈ cfg.calls s tick
  refused : ∀ node, (Call.replicaOfNoOne node, false) ∈ cfg.calls s tick →
    (cfg.step s (.tick tick)).designated = s.designated

/-- On every run on which successful probes are heeded, every tick is safe. -/
theorem failover_safe (cfg : FailoverConfig) (designated : Text) (events : List FailoverEvent)
    (hheeds : Along cfg.step cfg.Heeds ⟨∅, designated⟩ events)
    (hprimary : (run cfg.step ⟨∅, designated⟩ events).designated ≠ []) (tick : Tick) :
    SafeTick cfg (trace cfg.step cfg.record ⟨∅, designated⟩ events)
      (run cfg.step ⟨∅, designated⟩ events) tick := by
  have hstart : WindowsTrue [] ⟨∅, designated⟩ := fun nodeID since h => by simp at h
  have hwindows : WindowsTrue (trace cfg.step cfg.record ⟨∅, designated⟩ events)
      (run cfg.step ⟨∅, designated⟩ events) :=
    trace_of_along windowsTrue_step hstart hheeds
  generalize run cfg.step ⟨∅, designated⟩ events = s at hprimary hwindows
  have hspec : TickSpec cfg tick s.designated s.windows (cfg.calls s tick)
      (cfg.windowsAfter s tick) := reconcile_spec hprimary tick.answers
  refine ⟨fun hacts => ?_, hspec.orderly.promotions_le, hspec.orderly.designated,
    fun node hrefused => ?_⟩
  · obtain ⟨hvoters, hunreached, since, hopen, hlate⟩ := hspec.acts hacts
    exact ⟨hvoters, hunreached, since, hlate, hwindows _ _ hopen⟩
  · exact designation_of_notMem (hspec.orderly.refused node hrefused)

end Run

/-- Two core nodes with a Redis. -/
def redisPair : List NodeMeta :=
  [⟨['p'], .core, "p:6379".toList⟩, ⟨['q'], .core, "q:6379".toList⟩]

/-- A tick of the second node among three voters, with the given first answers; later commands
succeed. -/
def pairTick (now : ℤ) (answers : List Bool) : Tick :=
  ⟨redisPair, some 3, now, fun i => answers.getD i true⟩

/-- The second node, with a threshold of ten. -/
def pairConfig : FailoverConfig := ⟨['q'], 10⟩

/-- A primary that has not answered for twelve is replaced. -/
theorem failover_safe_after_twelve :
    Acts (pairConfig.calls (pairConfig.step ⟨∅, ['p']⟩ (.tick (pairTick 0 [true, false])))
      (pairTick 12 [true, false])) ∧
    SafeTick pairConfig
      (trace pairConfig.step pairConfig.record ⟨∅, ['p']⟩
        [.tick (pairTick 0 [true, false])])
      (run pairConfig.step ⟨∅, ['p']⟩ [.tick (pairTick 0 [true, false])])
      (pairTick 12 [true, false]) :=
  ⟨by decide +kernel,
    failover_safe pairConfig ['p'] [.tick (pairTick 0 [true, false])] (by decide +kernel)
      (by decide +kernel) (pairTick 12 [true, false])⟩

/-- The probe at eight reaches the primary, but leadership is lost right after it and the window of
the failure at zero stays open. The node is leader again at twelve, when a single probe fails, and
replaces the primary. -/
theorem not_safeTick_after_lost_leadership :
    ¬ SafeTick pairConfig
      (trace pairConfig.step pairConfig.record ⟨∅, ['p']⟩
        [.tick (pairTick 0 [true, false]), .tick (pairTick 8 [true, true, false])])
      (run pairConfig.step ⟨∅, ['p']⟩
        [.tick (pairTick 0 [true, false]), .tick (pairTick 8 [true, true, false])])
      (pairTick 12 [true, false]) := by
  intro h
  obtain ⟨-, -, since, -, hsince⟩ := h.acts (by decide +kernel)
  let s := pairConfig.step ⟨∅, ['p']⟩ (.tick (pairTick 0 [true, false]))
  have hreached : Pinged (pairConfig.calls s (pairTick 8 [true, true, false])) ['p'] := by
    decide +kernel
  have hrecords : UnreachedSince ['p'] since
      ([⟨0, pairConfig.calls ⟨∅, ['p']⟩ (pairTick 0 [true, false])⟩] ++
        [⟨8, pairConfig.calls s (pairTick 8 [true, true, false])⟩]) := hsince
  rcases since_concat.1 hrecords with hlast | ⟨-, hlast⟩
  · exact hlast.2 hreached
  · exact hlast hreached

end KeelGateway.Membership
