import Mathlib.Data.Char
import Mathlib.Data.List.Lex
import Mathlib.Data.List.Sort
import KeelGateway.Broker.Subscriptions
import KeelGateway.Redis.OfflineQueue

/-!
# Delivery to offline sessions

A publish is matched against the stored subscriptions of the offline sessions of a node, and queued
for each session at the highest QoS of its matching filters. A shared filter counts for a session
only if the cluster has selected this session for it.

-/

namespace KeelGateway.Session

open Acl Broker Redis

/-- `OfflineSubscription`. -/
structure OfflineSubscription where
  filter : Text
  qos : ℕ

/-- `OfflineSession`. -/
structure OfflineSession where
  clientID : Text
  subscriptions : List OfflineSubscription

/-- `FromStorage`: the rows of other clients are left out. -/
def fromStorage (clientID : Text) (rows : List StoredSubscription) : OfflineSession where
  clientID := clientID
  subscriptions := rows.filterMap fun row =>
    if row.client = clientID then some ⟨row.filter, row.qos⟩ else none

/-- The filter by which a subscription is matched. A shared one counts only for the selected
session, with its underlying filter. -/
def matchedFilter (sharedSelected : GoMap Text Text) (clientID filter : Text) : Option Text :=
  match sharedFilter filter with
  | some (_, underlying) =>
    if (sharedSelected.lookup filter).getD [] = clientID then some underlying else none
  | none => some filter

/-- The subscription covers the topic for the session. -/
def Covers (sharedSelected : GoMap Text Text) (clientID topic : Text)
    (sub : OfflineSubscription) : Prop :=
  ∃ filter ∈ matchedFilter sharedSelected clientID sub.filter, matchTopic filter topic = true

instance (sharedSelected : GoMap Text Text) (clientID topic : Text) (sub : OfflineSubscription) :
    Decidable (Covers sharedSelected clientID topic sub) :=
  inferInstanceAs (Decidable (∃ filter ∈ matchedFilter sharedSelected clientID sub.filter,
    matchTopic filter topic = true))

theorem covers_iff_of_sharedFilter_eq_none {sharedSelected : GoMap Text Text}
    {clientID topic : Text} {sub : OfflineSubscription} (h : sharedFilter sub.filter = none) :
    Covers sharedSelected clientID topic sub ↔ matchTopic sub.filter topic = true := by
  simp [Covers, matchedFilter, h]

/-- One round of `bestMatchQoS`: the QoS so far, and whether anything has matched. -/
def improve (sharedSelected : GoMap Text Text) (clientID topic : Text) (publishQoS : ℕ)
    (best : ℕ × Bool) (sub : OfflineSubscription) : ℕ × Bool :=
  if Covers sharedSelected clientID topic sub then
    let effective := if publishQoS < sub.qos then publishQoS else sub.qos
    (if effective > best.1 then effective else best.1, true)
  else best

/-- `bestMatchQoS`. -/
def bestMatchQoS (s : OfflineSession) (topic : Text) (publishQoS : ℕ)
    (sharedSelected : GoMap Text Text) : ℕ × Bool :=
  s.subscriptions.foldl (improve sharedSelected s.clientID topic publishQoS) (0, false)

/-- `selectSharedSessions`: the least client for every shared filter that matches. -/
def selectSharedSessions (owned : List OfflineSession) (topic : Text) : GoMap Text Text :=
  let candidates : GoMap Text (List Text) := owned.foldl (fun candidates s =>
    s.subscriptions.foldl (fun candidates sub =>
      match sharedFilter sub.filter with
      | none => candidates
      | some (_, filter) =>
        if matchTopic filter topic then
          candidates.insert sub.filter ((candidates.lookup sub.filter).getD [] ++ [s.clientID])
        else candidates) candidates) ∅
  candidates.filterMap fun _ clients => (clients.mergeSort (· ≤ ·)).head?

/-- `OfflineDelivery.Deliver`: the calls of `Queue`, which are made whatever the earlier ones
return. Without a decision of the cluster the sessions are selected here. -/
def deliver (sharedSelected : Option (GoMap Text Text)) (owned : List OfflineSession) (topic : Text)
    (payload : List UInt8) (publishQoS : ℕ) : List (Text × OfflineMessage) :=
  let selected := sharedSelected.getD (selectSharedSessions owned topic)
  owned.filterMap fun s =>
    let (qos, matched) := bestMatchQoS s topic publishQoS selected
    if !matched || qos = 0 then none else some (s.clientID, ⟨topic, payload, qos⟩)

/-! ### The best QoS -/

section Best

variable {s : OfflineSession} {topic : Text} {publishQoS : ℕ} {sharedSelected : GoMap Text Text}

private theorem le_improve_iff {clientID : Text} {best : ℕ × Bool} {sub : OfflineSubscription}
    {qos : ℕ} :
    qos ≤ (improve sharedSelected clientID topic publishQoS best sub).1 ↔
      qos ≤ best.1 ∨
        (Covers sharedSelected clientID topic sub ∧ qos ≤ publishQoS ∧ qos ≤ sub.qos) := by
  unfold improve
  by_cases hcovers : Covers sharedSelected clientID topic sub
  · simp only [hcovers, true_and]
    split_ifs <;> omega
  · simp [hcovers]

private theorem improve_snd {clientID : Text} {best : ℕ × Bool} {sub : OfflineSubscription} :
    (improve sharedSelected clientID topic publishQoS best sub).2 = true ↔
      best.2 = true ∨ Covers sharedSelected clientID topic sub := by
  unfold improve
  by_cases hcovers : Covers sharedSelected clientID topic sub <;> simp [hcovers]

theorem le_bestMatchQoS_iff {qos : ℕ} (hqos : 0 < qos) :
    qos ≤ (bestMatchQoS s topic publishQoS sharedSelected).1 ↔
      ∃ sub ∈ s.subscriptions, Covers sharedSelected s.clientID topic sub ∧
        qos ≤ publishQoS ∧ qos ≤ sub.qos := by
  obtain ⟨clientID, subscriptions⟩ := s
  unfold bestMatchQoS
  induction subscriptions using List.reverseRecOn with
  | nil => simp [hqos.ne']
  | append_singleton subs sub ih =>
    rw [List.foldl_append, List.foldl_cons, List.foldl_nil, le_improve_iff, ih]
    simp only [List.mem_append, List.mem_singleton, or_and_right, exists_or, exists_eq_left]

theorem bestMatchQoS_snd :
    (bestMatchQoS s topic publishQoS sharedSelected).2 = true ↔
      ∃ sub ∈ s.subscriptions, Covers sharedSelected s.clientID topic sub := by
  obtain ⟨clientID, subscriptions⟩ := s
  unfold bestMatchQoS
  induction subscriptions using List.reverseRecOn with
  | nil => simp
  | append_singleton subs sub ih =>
    rw [List.foldl_append, List.foldl_cons, List.foldl_nil, improve_snd, ih]
    simp only [List.mem_append, List.mem_singleton, or_and_right, exists_or, exists_eq_left]

end Best

/-- The session gets a copy of a publish. -/
def Reaches (sharedSelected : GoMap Text Text) (s : OfflineSession) (topic : Text)
    (publishQoS : ℕ) : Prop :=
  ∃ sub ∈ s.subscriptions, Covers sharedSelected s.clientID topic sub ∧ 1 ≤ min publishQoS sub.qos

instance (sharedSelected : GoMap Text Text) (s : OfflineSession) (topic : Text) (publishQoS : ℕ) :
    Decidable (Reaches sharedSelected s topic publishQoS) :=
  inferInstanceAs (Decidable (∃ sub ∈ s.subscriptions, _))

theorem mem_deliver_iff {sharedSelected : GoMap Text Text} {owned : List OfflineSession}
    {topic : Text} {payload : List UInt8} {publishQoS : ℕ} {call : Text × OfflineMessage} :
    call ∈ deliver (some sharedSelected) owned topic payload publishQoS ↔
      ∃ s ∈ owned, Reaches sharedSelected s topic publishQoS ∧
        call = (s.clientID,
          ⟨topic, payload, (bestMatchQoS s topic publishQoS sharedSelected).1⟩) := by
  have hreaches (s : OfflineSession) : Reaches sharedSelected s topic publishQoS ↔
      1 ≤ (bestMatchQoS s topic publishQoS sharedSelected).1 := by
    rw [le_bestMatchQoS_iff Nat.one_pos]
    simp only [Reaches, le_min_iff]
  have hmatched (s : OfflineSession) (h : Reaches sharedSelected s topic publishQoS) :
      (bestMatchQoS s topic publishQoS sharedSelected).2 = true := by
    obtain ⟨sub, hsub, hcovers, -⟩ := h
    exact bestMatchQoS_snd.2 ⟨sub, hsub, hcovers⟩
  simp only [deliver, Option.getD_some, List.mem_filterMap]
  refine exists_congr fun s => and_congr_right fun _ => ?_
  constructor
  · intro hcall
    split_ifs at hcall with hskip
    have hq : (bestMatchQoS s topic publishQoS sharedSelected).1 ≠ 0 := by
      intro hzero
      simp [hzero] at hskip
    exact ⟨(hreaches s).2 (Nat.one_le_iff_ne_zero.2 hq), (Option.some.inj hcall).symm⟩
  · rintro ⟨hr, rfl⟩
    have hq := Nat.one_le_iff_ne_zero.1 ((hreaches s).1 hr)
    rw [if_neg (by simp [hmatched s hr, hq])]

theorem map_fst_deliver_sublist (sharedSelected : Option (GoMap Text Text))
    (owned : List OfflineSession) (topic : Text) (payload : List UInt8) (publishQoS : ℕ) :
    ((deliver sharedSelected owned topic payload publishQoS).map Prod.fst).Sublist
      (owned.map OfflineSession.clientID) := by
  unfold deliver
  -- the decision is made once, from all sessions
  generalize sharedSelected.getD (selectSharedSessions owned topic) = selected
  induction owned with
  | nil => exact List.Sublist.slnil
  | cons s owned ih =>
    rw [List.filterMap_cons]
    dsimp only
    split
    · exact ih.cons _
    · next call hcall =>
      split_ifs at hcall
      cases hcall
      exact ih.cons_cons _

end KeelGateway.Session
