import Mathlib.Data.UInt
import KeelGateway.Lib.Mixers
import KeelGateway.Membership.RedisFailover
import KeelGateway.Session.Placement

/-!
# The stability of the placement

Every node computes the owner of an offline session from its own view of the live edge nodes, and
gets these nodes in the order of a map iteration. The nodes agree only if the order does not matter,
and sessions stay where they are only if other nodes may come and go. Both rest on scores that never
tie. The finalizer of the score loses nothing, so two nodes tie only if their hashes collide.

-/

namespace KeelGateway.Session

/-! ### Scores do not tie -/

private theorem isUnit_firstFactor : IsUnit (0xbf58476d1ce4e5b9 : UInt64) :=
  IsUnit.of_mul_eq_one 0x96de1b173f119089 (by decide)

private theorem isUnit_secondFactor : IsUnit (0x94d049bb133111eb : UInt64) :=
  IsUnit.of_mul_eq_one 0x319642b2d24d8ec3 (by decide)

theorem rendezvousScore_injective {clientID n m : Text}
    (h : rendezvousScore clientID n = rendezvousScore clientID m) : fnvHash64 n = fnvHash64 m := by
  have h₁ := isUnit_secondFactor.mul_left_injective (Mixers.xorShift64_injective (by decide) h)
  have h₂ := isUnit_firstFactor.mul_left_injective (Mixers.xorShift64_injective (by decide) h₁)
  exact (UInt64.xor_right_inj _).1 (Mixers.xorShift64_injective (by decide) h₂)

/-! ### The owner -/

variable {clientID o : Text} {nodes : List Text}

theorem owner_eq_some_iff (hhash : (nodes.map fnvHash64).Nodup) :
    owner clientID nodes = some o ↔
      o ∈ nodes ∧ ∀ n ∈ nodes, rendezvousScore clientID n ≤ rendezvousScore clientID o := by
  rcases owner_spec clientID nodes with ⟨rfl, hnone⟩ | ⟨o', ho', hsome, hmax⟩
  · simp [hnone]
  · rw [hsome, Option.some.injEq]
    constructor
    · rintro rfl
      exact ⟨ho', hmax⟩
    · rintro ⟨ho, hmax'⟩
      have htie : rendezvousScore clientID o' = rendezvousScore clientID o :=
        UInt64.le_antisymm (hmax' o' ho') (hmax o ho)
      exact List.inj_on_of_nodup_map hhash ho' ho (rendezvousScore_injective htie)

theorem exists_owner (clientID : Text) (hne : nodes ≠ []) :
    ∃ o ∈ nodes, owner clientID nodes = some o ∧
      ∀ n ∈ nodes, rendezvousScore clientID n ≤ rendezvousScore clientID o :=
  (owner_spec clientID nodes).resolve_left fun h => hne h.1

theorem owner_of_subset {part : List Text} (hhash : (part.map fnvHash64).Nodup)
    (hsub : part ⊆ nodes) (ho : o ∈ part)
    (hmax : ∀ n ∈ nodes, rendezvousScore clientID n ≤ rendezvousScore clientID o) :
    owner clientID part = some o :=
  (owner_eq_some_iff hhash).2 ⟨ho, fun n hn => hmax n (hsub hn)⟩

theorem owner_perm {nodes' : List Text} (hhash : (nodes.map fnvHash64).Nodup)
    (hperm : nodes'.Perm nodes) : owner clientID nodes' = owner clientID nodes := by
  refine Option.ext fun o => ?_
  rw [owner_eq_some_iff hhash, owner_eq_some_iff ((hperm.map _).nodup_iff.2 hhash)]
  simp only [hperm.mem_iff]

/-- The placement is stable. The order of the nodes does not matter, a node other than the owner can
be removed, and a node that is added takes the session over or leaves it where it is. The hashes are
those of the nodes before the change: a node that is added may collide with another one. -/
theorem owner_stable (clientID : Text) (nodes : List Text) (hne : nodes ≠ [])
    (hhash : (nodes.map fnvHash64).Nodup) :
    ∃ o ∈ nodes, owner clientID nodes = some o ∧
      (∀ nodes', nodes'.Perm nodes → owner clientID nodes' = some o) ∧
      (∀ n ∈ nodes, n ≠ o → ∀ nodes', nodes'.Perm (nodes.erase n) →
        owner clientID nodes' = some o) ∧
      ∀ n nodes', nodes'.Perm (n :: nodes) →
        owner clientID nodes' = some o ∨ owner clientID nodes' = some n := by
  obtain ⟨o, ho, howner, hmax⟩ := exists_owner clientID hne
  refine ⟨o, ho, howner, fun nodes' hperm => ?_, fun n _ hn nodes' hperm => ?_,
    fun n nodes' hperm => ?_⟩
  · exact (owner_perm hhash hperm).trans howner
  · have hhash' : ((nodes.erase n).map fnvHash64).Nodup :=
      hhash.sublist (List.erase_sublist.map _)
    have ho' : o ∈ nodes.erase n := (List.mem_erase_of_ne hn.symm).2 ho
    exact (owner_perm hhash' hperm).trans
      (owner_of_subset hhash' List.erase_subset ho' hmax)
  · have hne' : nodes' ≠ [] := List.ne_nil_of_mem (hperm.mem_iff.2 List.mem_cons_self)
    obtain ⟨o', ho', howner', hmax'⟩ := exists_owner clientID hne'
    rcases List.mem_cons.1 (hperm.mem_iff.1 ho') with rfl | hold
    · exact Or.inr howner'
    · -- an old node that is the best of all is the best of the old ones
      have hbest := owner_of_subset hhash (fun m hm => hperm.mem_iff.2 (List.mem_cons_of_mem n hm))
        hold hmax'
      exact Or.inl (howner'.trans (hbest.symm.trans howner))

/-- Three nodes, of which the second is the owner for this client. -/
theorem owner_stable_three :
    owner "c".toList ["edge-2".toList, "edge-1".toList, "edge-3".toList] =
      owner "c".toList ["edge-1".toList, "edge-2".toList, "edge-3".toList] := by
  obtain ⟨o, -, howner, hperm, -⟩ := owner_stable "c".toList
    ["edge-1".toList, "edge-2".toList, "edge-3".toList] (by decide) (by decide +kernel)
  rw [howner]
  exact hperm _ (List.Perm.swap _ _ _)

/-! ### Nodes agree -/

open KeelGateway.Membership

/-- `LiveEdgeNodes`. -/
def liveEdgeNodes (members : List NodeMeta) : GoMap Text Bool :=
  members.foldl (fun live node => if node.role = .edge then live.insert node.nodeID true else live)
    ∅

/-- `LiveEdgeNodeIDs`: the keys of `LiveEdgeNodes` in any order, as a map is iterated. -/
def IsLiveEdgeNodeIDs (members : List NodeMeta) (ids : List Text) : Prop :=
  ids.Perm (liveEdgeNodes members).keys

private theorem mem_liveEdgeNodes {members : List NodeMeta} {n : Text} :
    n ∈ liveEdgeNodes members ↔ ∃ node ∈ members, node.role = .edge ∧ node.nodeID = n := by
  induction members using List.reverseRecOn with
  | nil => simp [liveEdgeNodes]
  | append_singleton members node ih =>
    rw [liveEdgeNodes, List.foldl_append, List.foldl_cons, List.foldl_nil, ← liveEdgeNodes]
    split_ifs with hrole
    · rw [AList.mem_insert]
      grind
    · rw [ih]
      grind

theorem IsLiveEdgeNodeIDs.mem_iff {members : List NodeMeta} {ids : List Text}
    (h : IsLiveEdgeNodeIDs members ids) (n : Text) :
    n ∈ ids ↔ ∃ node ∈ members, node.role = .edge ∧ node.nodeID = n := by
  rw [List.Perm.mem_iff h, ← AList.mem_keys, mem_liveEdgeNodes]

/-- Two nodes that know the same live edges agree on the owner of every session, in whatever order
they meet the members and the keys of their maps. -/
theorem owner_eq_of_isLiveEdgeNodeIDs (clientID : Text) {members members' : List NodeMeta}
    {ids ids' : List Text} (h : IsLiveEdgeNodeIDs members ids)
    (h' : IsLiveEdgeNodeIDs members' ids') (hhash : (ids.map fnvHash64).Nodup)
    (hsame : ∀ n, (∃ node ∈ members, node.role = .edge ∧ node.nodeID = n) ↔
      ∃ node ∈ members', node.role = .edge ∧ node.nodeID = n) :
    owner clientID ids' = owner clientID ids := by
  have hnodup : ids.Nodup := h.nodup_iff.2 (liveEdgeNodes members).keys_nodup
  have hnodup' : ids'.Nodup := h'.nodup_iff.2 (liveEdgeNodes members').keys_nodup
  have hperm : ids'.Perm ids := (List.perm_ext_iff_of_nodup hnodup' hnodup).2 fun n => by
    rw [h'.mem_iff, h.mem_iff, hsame]
  exact owner_perm hhash hperm

/-- One node has met a core node besides, and the edges in the other order. -/
theorem owner_eq_edges : owner ['c'] [['B'], ['A']] = owner ['c'] [['A'], ['B']] := by
  have hhere : IsLiveEdgeNodeIDs [⟨['A'], .edge, []⟩, ⟨['B'], .edge, []⟩] [['A'], ['B']] := by
    unfold IsLiveEdgeNodeIDs
    decide +kernel
  have hthere : IsLiveEdgeNodeIDs [⟨['B'], .edge, []⟩, ⟨['C'], .core, []⟩, ⟨['A'], .edge, []⟩]
      [['B'], ['A']] := by
    unfold IsLiveEdgeNodeIDs
    decide +kernel
  exact owner_eq_of_isLiveEdgeNodeIDs ['c'] hhere hthere (by decide +kernel) (by grind)

end KeelGateway.Session
