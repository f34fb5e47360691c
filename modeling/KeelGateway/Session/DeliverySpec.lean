import KeelGateway.Lib.Dialogue
import KeelGateway.Session.Delivery

/-!
# What offline delivery does

`Deliver` goes through the sessions of a node and calls the queue for some of them. This module says
which, in terms that do not mention a loop: a session gets one call, at the greatest QoS of the
subscriptions that match, whatever the other calls return. The decision of the cluster about shared
filters is looked up in a map, and a filter that is missing there is read as the empty client ID. So
a session with this ID gets messages of groups for which no session was selected.

-/

namespace KeelGateway.Session

open Acl Broker Redis Dialogue

/-! ### Delivery as a program -/

/-- How a call of `Queue` returns. -/
inductive QueueAnswer where
  | failed
  | deduplicated
  | queued (packetID : ℕ)
  deriving DecidableEq

/-- The call has reported that the message is queued. -/
def QueueAnswer.isQueued : QueueAnswer → Bool
  | queued _ => true
  | failed | deduplicated => false

/-- The loop of `Deliver`, with the number of messages queued so far. -/
def deliverLoop (selected : GoMap Text Text) (topic : Text) (payload : List UInt8)
    (publishQoS : ℕ) : List OfflineSession → ℕ → Prog (Text × OfflineMessage) QueueAnswer ℕ
  | [], delivered => pure delivered
  | s :: owned, delivered =>
    let (qos, matched) := bestMatchQoS s topic publishQoS selected
    if !matched || qos = 0 then deliverLoop selected topic payload publishQoS owned delivered
    else do
      let answer ← Prog.ask (s.clientID, ⟨topic, payload, qos⟩)
      match answer with
      | .failed | .deduplicated => deliverLoop selected topic payload publishQoS owned delivered
      | .queued _ => deliverLoop selected topic payload publishQoS owned (delivered + 1)

/-- `OfflineDelivery.Deliver`. -/
def deliverProgram (sharedSelected : Option (GoMap Text Text)) (owned : List OfflineSession)
    (topic : Text) (payload : List UInt8) (publishQoS : ℕ) :
    Prog (Text × OfflineMessage) QueueAnswer ℕ :=
  deliverLoop (sharedSelected.getD (selectSharedSessions owned topic)) topic payload publishQoS
    owned 0

theorem ensures_deliverLoop (selected : GoMap Text Text) (topic : Text) (payload : List UInt8)
    (publishQoS : ℕ) (owned : List OfflineSession) (delivered : ℕ) :
    Ensures (deliverLoop selected topic payload publishQoS owned delivered) fun t n =>
      t.map Prod.fst = deliver (some selected) owned topic payload publishQoS ∧
        n = delivered + t.countP (·.2.isQueued) := by
  induction owned generalizing delivered with
  | nil => exact Ensures.pure ⟨rfl, rfl⟩
  | cons s owned ih =>
    rw [deliverLoop]
    dsimp only
    split_ifs with hskip
    · refine (ih delivered).imp fun t n ⟨hcalls, hcount⟩ => ⟨?_, hcount⟩
      rw [hcalls, deliver, deliver, List.filterMap_cons]
      dsimp only [Option.getD_some]
      rw [if_pos hskip]
    · refine Ensures.ask_bind fun answer => ?_
      have hcons (t : List ((Text × OfflineMessage) × QueueAnswer))
          (hcalls : t.map Prod.fst = deliver (some selected) owned topic payload publishQoS) :
          (((s.clientID, ⟨topic, payload, (bestMatchQoS s topic publishQoS selected).1⟩),
            answer) :: t).map Prod.fst =
              deliver (some selected) (s :: owned) topic payload publishQoS := by
        rw [List.map_cons, hcalls, deliver, deliver, List.filterMap_cons]
        dsimp only [Option.getD_some]
        rw [if_neg hskip]
      cases answer with
      | failed | deduplicated =>
        refine (ih delivered).imp fun t n h => ⟨hcons t h.1, ?_⟩
        rw [h.2, List.countP_cons_of_neg Bool.false_ne_true]
      | queued packetID =>
        refine (ih (delivered + 1)).imp fun t n h => ⟨hcons t h.1, ?_⟩
        rw [List.countP_cons_of_pos rfl]
        omega

theorem ensures_deliverProgram (sharedSelected : Option (GoMap Text Text))
    (owned : List OfflineSession) (topic : Text) (payload : List UInt8) (publishQoS : ℕ) :
    Ensures (deliverProgram sharedSelected owned topic payload publishQoS) fun t n =>
      t.map Prod.fst = deliver sharedSelected owned topic payload publishQoS ∧
        n = t.countP (·.2.isQueued) := by
  refine (ensures_deliverLoop _ topic payload publishQoS owned 0).imp fun t n h => ⟨h.1, ?_⟩
  rw [h.2, Nat.zero_add]

/-! ### The local selection -/

/-- The filter is a shared one, and its underlying filter matches the topic. -/
def matchesShared (topic filter : Text) : Bool :=
  match sharedFilter filter with
  | some (_, underlying) => matchTopic underlying topic
  | none => false

/-- The session has a subscription with this filter. -/
def OfflineSession.HasFilter (s : OfflineSession) (filter : Text) : Prop :=
  ∃ sub ∈ s.subscriptions, sub.filter = filter

/-- The body of the inner loop of `selectSharedSessions`. -/
def addCandidate (topic clientID : Text) (candidates : GoMap Text (List Text))
    (sub : OfflineSubscription) : GoMap Text (List Text) :=
  if matchesShared topic sub.filter then
    candidates.insert sub.filter ((candidates.lookup sub.filter).getD [] ++ [clientID])
  else candidates

private theorem selectSharedSessions_eq (owned : List OfflineSession) (topic : Text) :
    selectSharedSessions owned topic =
      (owned.foldl (fun candidates s =>
        s.subscriptions.foldl (addCandidate topic s.clientID) candidates)
          (∅ : GoMap Text (List Text))).filterMap
        fun _ clients => (clients.mergeSort (· ≤ ·)).head? := by
  unfold selectSharedSessions
  dsimp only
  congr 2
  funext candidates s
  congr 1
  funext candidates sub
  unfold addCandidate matchesShared
  cases sharedFilter sub.filter with
  | none => simp
  | some p => rfl

/-- What a subscription adds to the candidates for a filter. -/
def candidateOf (topic filter clientID : Text) (sub : OfflineSubscription) : List Text :=
  if sub.filter = filter ∧ matchesShared topic filter then [clientID] else []

/-- The candidates for a filter, in the order of the sessions. -/
def candidatesOf (topic filter : Text) (owned : List OfflineSession) : List Text :=
  owned.flatMap fun s => s.subscriptions.flatMap (candidateOf topic filter s.clientID)

variable {filter : Text} {candidates : GoMap Text (List Text)} {clients : Text → List Text}

theorem mem_candidatesOf {topic clientID : Text} {owned : List OfflineSession} :
    clientID ∈ candidatesOf topic filter owned ↔
      matchesShared topic filter = true ∧ ∃ s ∈ owned, s.HasFilter filter ∧
        s.clientID = clientID := by
  simp only [candidatesOf, candidateOf, List.mem_flatMap]
  constructor
  · rintro ⟨s, hs, sub, hsub, hmem⟩
    split_ifs at hmem with hcand
    · rw [List.mem_singleton] at hmem
      exact ⟨hcand.2, s, hs, ⟨sub, hsub, hcand.1⟩, hmem.symm⟩
    · cases hmem
  · rintro ⟨hmatch, s, hs, ⟨sub, hsub, heq⟩, rfl⟩
    exact ⟨s, hs, sub, hsub, by rw [if_pos ⟨heq, hmatch⟩]; exact List.mem_singleton_self _⟩

/-- The map has these lists, a filter without an entry being one without candidates. -/
def Groups (candidates : GoMap Text (List Text)) (clients : Text → List Text) : Prop :=
  ∀ filter, (candidates.lookup filter).getD [] = clients filter

theorem Groups.addCandidate (h : Groups candidates clients) (topic clientID : Text)
    (sub : OfflineSubscription) :
    Groups (addCandidate topic clientID candidates sub)
      fun filter => clients filter ++ candidateOf topic filter clientID sub := by
  intro filter
  dsimp only
  unfold Session.addCandidate candidateOf
  by_cases heq : sub.filter = filter
  · subst heq
    by_cases hmatch : matchesShared topic sub.filter = true
    · rw [if_pos hmatch, if_pos ⟨rfl, hmatch⟩, AList.lookup_insert, Option.getD_some, h sub.filter]
    · rw [if_neg hmatch, if_neg fun hc => hmatch hc.2, List.append_nil, h sub.filter]
  · have hsame : (if matchesShared topic sub.filter = true then candidates.insert sub.filter
        ((candidates.lookup sub.filter).getD [] ++ [clientID]) else candidates).lookup filter =
          candidates.lookup filter := by
      split_ifs
      · exact AList.lookup_insert_ne fun h => heq h.symm
      · rfl
    rw [hsame, if_neg (heq ·.1), List.append_nil, h filter]

theorem Groups.foldl_addCandidate (h : Groups candidates clients) (topic clientID : Text)
    (subs : List OfflineSubscription) :
    Groups (subs.foldl (Session.addCandidate topic clientID) candidates)
      fun filter => clients filter ++ subs.flatMap (candidateOf topic filter clientID) := by
  induction subs generalizing candidates clients with
  | nil => simpa using h
  | cons sub subs ih => simpa [List.append_assoc] using ih (h.addCandidate topic clientID sub)

private theorem groups_foldl (h : Groups candidates clients) (topic : Text)
    (owned : List OfflineSession) :
    Groups (owned.foldl (fun candidates s =>
        s.subscriptions.foldl (addCandidate topic s.clientID) candidates) candidates)
      fun filter => clients filter ++ candidatesOf topic filter owned := by
  induction owned generalizing candidates clients with
  | nil => simpa [candidatesOf] using h
  | cons s owned ih =>
    simpa [candidatesOf] using
      ih (h.foldl_addCandidate topic s.clientID s.subscriptions)

theorem lookup_selectSharedSessions_eq (owned : List OfflineSession) (topic filter : Text) :
    (selectSharedSessions owned topic).lookup filter =
      ((candidatesOf topic filter owned).mergeSort (· ≤ ·)).head? := by
  have hempty : Groups ∅ fun _ => [] := fun filter => by rw [AList.lookup_empty, Option.getD_none]
  have hgroups := groups_foldl hempty topic owned filter
  dsimp only at hgroups
  rw [List.nil_append] at hgroups
  rw [selectSharedSessions_eq, GoMap.lookup_filterMap, ← hgroups]
  cases AList.lookup filter _ with
  | none => simp
  | some clients => rfl

theorem head?_mergeSort_eq_some_iff {l : List Text} {a : Text} :
    (l.mergeSort (· ≤ ·)).head? = some a ↔ IsLeast {b | b ∈ l} a := by
  have hsorted := List.pairwise_mergeSort' (· ≤ ·) l
  have hmem (b : Text) : b ∈ l.mergeSort (· ≤ ·) ↔ b ∈ l := List.mem_mergeSort
  cases hsort : l.mergeSort (· ≤ ·) with
  | nil =>
    rw [hsort] at hmem
    refine ⟨fun h => (by cases h), fun h => ?_⟩
    exact absurd ((hmem a).2 h.1) List.not_mem_nil
  | cons b rest =>
    rw [hsort] at hmem hsorted
    have hleast : IsLeast {b | b ∈ l} b := by
      refine ⟨(hmem b).1 List.mem_cons_self, fun c hc => ?_⟩
      rcases List.mem_cons.1 ((hmem c).2 hc) with rfl | hrest
      · exact le_rfl
      · exact (List.pairwise_cons.1 hsorted).1 c hrest
    rw [List.head?_cons, Option.some.injEq]
    exact ⟨fun h => h ▸ hleast, fun h => hleast.unique h⟩

theorem lookup_selectSharedSessions {owned : List OfflineSession} {topic clientID : Text} :
    (selectSharedSessions owned topic).lookup filter = some clientID ↔
      matchesShared topic filter = true ∧
        IsLeast {c | ∃ s ∈ owned, s.HasFilter filter ∧ s.clientID = c} clientID := by
  rw [lookup_selectSharedSessions_eq, head?_mergeSort_eq_some_iff]
  simp only [mem_candidatesOf]
  cases hmatch : matchesShared topic filter with
  | true => simp
  | false => simp [IsLeast]

theorem exists_selected {owned : List OfflineSession} {topic : Text}
    (hmatch : matchesShared topic filter = true) (hhas : ∃ s ∈ owned, s.HasFilter filter) :
    ∃ clientID, (selectSharedSessions owned topic).lookup filter = some clientID := by
  obtain ⟨s, hs, hfilter⟩ := hhas
  have hmem : s.clientID ∈ (candidatesOf topic filter owned).mergeSort (· ≤ ·) :=
    List.mem_mergeSort.2 (mem_candidatesOf.2 ⟨hmatch, s, hs, hfilter, rfl⟩)
  rw [lookup_selectSharedSessions_eq]
  exact ⟨_, List.head?_eq_some_head (List.ne_nil_of_mem hmem)⟩

theorem lookup_selectSharedSessions_perm {owned owned' : List OfflineSession}
    (hperm : owned'.Perm owned) (topic filter : Text) :
    (selectSharedSessions owned' topic).lookup filter =
      (selectSharedSessions owned topic).lookup filter := by
  refine Option.ext fun clientID => ?_
  rw [lookup_selectSharedSessions, lookup_selectSharedSessions]
  simp only [hperm.mem_iff]

/-! ### The specification -/

/-- The subscription counts for the client: its filter matches the topic, and a shared one has been
mapped to this client. -/
def Matches (selected : GoMap Text Text) (clientID topic : Text) (sub : OfflineSubscription) :
    Prop :=
  match sharedFilter sub.filter with
  | some (_, underlying) =>
    selected.lookup sub.filter = some clientID ∧ matchTopic underlying topic = true
  | none => matchTopic sub.filter topic = true

/-- The greatest QoS at which a subscription that counts passes the publish on. -/
def IsBest (selected : GoMap Text Text) (s : OfflineSession) (topic : Text) (publishQoS qos : ℕ) :
    Prop :=
  IsGreatest {q | ∃ sub ∈ s.subscriptions, Matches selected s.clientID topic sub ∧
    q = min publishQoS sub.qos} qos

/-- What `Deliver` should do, for all answers of the queue. -/
structure DeliversAsSpecified (sharedSelected : Option (GoMap Text Text))
    (owned : List OfflineSession) (topic : Text) (payload : List UInt8) (publishQoS : ℕ) :
    Prop where
  /-- No client gets two calls. -/
  once : ∀ answers, ((((deliverProgram sharedSelected owned topic payload publishQoS).run
    answers).1.map Prod.fst).map Prod.fst).Nodup
  /-- The calls are those for the sessions whose best QoS is above zero, at this QoS. -/
  calls : ∀ answers call, call ∈ ((deliverProgram sharedSelected owned topic payload publishQoS).run
      answers).1.map Prod.fst ↔
    ∃ s ∈ owned, ∃ qos, 1 ≤ qos ∧
      IsBest (sharedSelected.getD (selectSharedSessions owned topic)) s topic publishQoS qos ∧
      call = (s.clientID, ⟨topic, payload, qos⟩)
  /-- Other answers do not change the calls. -/
  isolated : ∀ answers answers',
    ((deliverProgram sharedSelected owned topic payload publishQoS).run answers).1.map Prod.fst =
      ((deliverProgram sharedSelected owned topic payload publishQoS).run answers').1.map Prod.fst
  /-- The result counts the messages that were queued. -/
  count : ∀ answers, ((deliverProgram sharedSelected owned topic payload publishQoS).run
    answers).2 =
    ((deliverProgram sharedSelected owned topic payload publishQoS).run answers).1.countP
      (·.2.isQueued)
  /-- Without a decision of the cluster, one session is selected for a shared filter. -/
  oneSelected : sharedSelected = none → ∀ filter, matchesShared topic filter = true →
    (∃ s ∈ owned, s.HasFilter filter) →
      ∃! s, s ∈ owned ∧ s.HasFilter filter ∧
        (selectSharedSessions owned topic).lookup filter = some s.clientID
  /-- It does not depend on the order of the sessions. -/
  orderFree : sharedSelected = none → ∀ owned', owned'.Perm owned → ∀ filter,
    (selectSharedSessions owned' topic).lookup filter =
      (selectSharedSessions owned topic).lookup filter

/-- What the session with the empty client ID gets through shared filters that are missing in the
decision, it also gets through other subscriptions. -/
def OnlySelected (selected : GoMap Text Text) (owned : List OfflineSession) (topic : Text)
    (publishQoS : ℕ) : Prop :=
  ∀ s ∈ owned, s.clientID = [] → ∀ sub ∈ s.subscriptions, matchesShared topic sub.filter = true →
    sub.filter ∉ selected → 1 ≤ min publishQoS sub.qos →
      ∃ sub' ∈ s.subscriptions, Matches selected s.clientID topic sub' ∧
        min publishQoS sub.qos ≤ min publishQoS sub'.qos

section Spec

variable {selected : GoMap Text Text} {owned : List OfflineSession} {topic clientID : Text}
  {payload : List UInt8} {publishQoS : ℕ} {s : OfflineSession} {sub : OfflineSubscription}

theorem covers_iff :
    Covers selected clientID topic sub ↔
      Matches selected clientID topic sub ∨
        (clientID = [] ∧ matchesShared topic sub.filter = true ∧ sub.filter ∉ selected) := by
  unfold Covers matchedFilter Matches matchesShared
  cases sharedFilter sub.filter with
  | none => simp
  | some p =>
    rw [← AList.lookup_eq_none]
    cases hlookup : selected.lookup sub.filter with
    | none =>
      simp only [Option.getD_none, reduceCtorEq, and_true]
      split_ifs with hempty
      · simp [← hempty]
      · simp [Ne.symm hempty]
    | some c => simp

theorem covers_of_matches (h : Matches selected clientID topic sub) :
    Covers selected clientID topic sub :=
  covers_iff.2 (Or.inl h)

theorem isGreatest_bestMatchQoS (h : Reaches selected s topic publishQoS) :
    IsGreatest {q | ∃ sub ∈ s.subscriptions, Covers selected s.clientID topic sub ∧
      q = min publishQoS sub.qos} (bestMatchQoS s topic publishQoS selected).1 := by
  have hpos : 0 < (bestMatchQoS s topic publishQoS selected).1 := by
    obtain ⟨sub, hsub, hcovers, hone⟩ := h
    exact (le_bestMatchQoS_iff Nat.one_pos).2 ⟨sub, hsub, hcovers, le_min_iff.1 hone⟩
  have hupper : ∀ sub ∈ s.subscriptions, Covers selected s.clientID topic sub →
      min publishQoS sub.qos ≤ (bestMatchQoS s topic publishQoS selected).1 := by
    intro sub hsub hcovers
    rcases Nat.eq_zero_or_pos (min publishQoS sub.qos) with hzero | hqos
    · rw [hzero]
      exact Nat.zero_le _
    · exact (le_bestMatchQoS_iff hqos).2 ⟨sub, hsub, hcovers, min_le_left _ _, min_le_right _ _⟩
  obtain ⟨sub, hsub, hcovers, hpub, hsubQoS⟩ := (le_bestMatchQoS_iff hpos).1 le_rfl
  refine ⟨⟨sub, hsub, hcovers, (le_min hpub hsubQoS).antisymm (hupper sub hsub hcovers)⟩, ?_⟩
  rintro q ⟨sub', hsub', hcovers', rfl⟩
  exact hupper sub' hsub' hcovers'

theorem one_le_bestMatchQoS (h : Reaches selected s topic publishQoS) :
    1 ≤ (bestMatchQoS s topic publishQoS selected).1 := by
  obtain ⟨sub, hsub, hcovers, hone⟩ := h
  exact hone.trans ((isGreatest_bestMatchQoS ⟨sub, hsub, hcovers, hone⟩).2
    ⟨sub, hsub, hcovers, rfl⟩)

theorem isBest_iff (honly : OnlySelected selected owned topic publishQoS) (hs : s ∈ owned)
    {qos : ℕ} : 1 ≤ qos ∧ IsBest selected s topic publishQoS qos ↔
      Reaches selected s topic publishQoS ∧
        qos = (bestMatchQoS s topic publishQoS selected).1 := by
  -- every subscription that the code counts is matched by one that is specified
  have hdominated : ∀ sub ∈ s.subscriptions, Covers selected s.clientID topic sub →
      1 ≤ min publishQoS sub.qos → ∃ sub' ∈ s.subscriptions,
        Matches selected s.clientID topic sub' ∧
          min publishQoS sub.qos ≤ min publishQoS sub'.qos := by
    intro sub hsub hcovers hone
    rcases covers_iff.1 hcovers with hmatches | ⟨hempty, hshared, hmissing⟩
    · exact ⟨sub, hsub, hmatches, le_rfl⟩
    · exact honly s hs hempty sub hsub hshared hmissing hone
  have hbest (h : Reaches selected s topic publishQoS) :
      IsBest selected s topic publishQoS (bestMatchQoS s topic publishQoS selected).1 := by
    have hgreatest := isGreatest_bestMatchQoS h
    obtain ⟨sub, hsub, hcovers, heq⟩ := hgreatest.1
    obtain ⟨sub', hsub', hmatches, hle⟩ :=
      hdominated sub hsub hcovers (heq ▸ one_le_bestMatchQoS h)
    refine ⟨⟨sub', hsub', hmatches, ?_⟩, ?_⟩
    · exact (heq.le.trans hle).antisymm
        (hgreatest.2 ⟨sub', hsub', covers_of_matches hmatches, rfl⟩)
    · rintro q ⟨sub'', hsub'', hmatches'', rfl⟩
      exact hgreatest.2 ⟨sub'', hsub'', covers_of_matches hmatches'', rfl⟩
  constructor
  · rintro ⟨hone, hqos⟩
    obtain ⟨sub, hsub, hmatches, rfl⟩ := hqos.1
    have hreaches : Reaches selected s topic publishQoS :=
      ⟨sub, hsub, covers_of_matches hmatches, hone⟩
    exact ⟨hreaches, hqos.unique (hbest hreaches)⟩
  · rintro ⟨hreaches, rfl⟩
    exact ⟨one_le_bestMatchQoS hreaches, hbest hreaches⟩

theorem onlySelected_selectSharedSessions (owned : List OfflineSession) (topic : Text)
    (publishQoS : ℕ) :
    OnlySelected (selectSharedSessions owned topic) owned topic publishQoS := by
  intro s hs _ sub hsub hshared hmissing _
  obtain ⟨clientID, hselected⟩ := exists_selected hshared ⟨s, hs, sub, hsub, rfl⟩
  exact absurd (AList.lookup_isSome.1 (by rw [hselected]; rfl)) hmissing

theorem eq_of_clientID_eq (hdistinct : (owned.map OfflineSession.clientID).Nodup)
    {s s' : OfflineSession} (hs : s ∈ owned) (hs' : s' ∈ owned) (h : s.clientID = s'.clientID) :
    s = s' :=
  List.inj_on_of_nodup_map hdistinct hs hs' h

theorem deliver_calls_iff (hdistinct : (owned.map OfflineSession.clientID).Nodup) :
    (∀ call, call ∈ deliver (some selected) owned topic payload publishQoS ↔
      ∃ s ∈ owned, ∃ qos, 1 ≤ qos ∧ IsBest selected s topic publishQoS qos ∧
        call = (s.clientID, ⟨topic, payload, qos⟩)) ↔
      OnlySelected selected owned topic publishQoS := by
  constructor
  · intro h s hs hempty sub hsub hshared hmissing hone
    have hcovers : Covers selected s.clientID topic sub :=
      covers_iff.2 (Or.inr ⟨hempty, hshared, hmissing⟩)
    have hreaches : Reaches selected s topic publishQoS := ⟨sub, hsub, hcovers, hone⟩
    obtain ⟨s', hs', qos, -, hbest, hcall⟩ :=
      (h _).1 (mem_deliver_iff.2 ⟨s, hs, hreaches, rfl⟩)
    obtain ⟨hclient, hmsg⟩ := Prod.mk.inj hcall
    obtain rfl := eq_of_clientID_eq hdistinct hs hs' hclient
    obtain ⟨sub', hsub', hmatches, hqos⟩ := hbest.1
    have hbestQoS : (bestMatchQoS s topic publishQoS selected).1 = min publishQoS sub'.qos :=
      (congrArg OfflineMessage.qos hmsg).trans hqos
    refine ⟨sub', hsub', hmatches, ?_⟩
    rw [← hbestQoS]
    exact (isGreatest_bestMatchQoS hreaches).2 ⟨sub, hsub, hcovers, rfl⟩
  · intro honly call
    rw [mem_deliver_iff]
    refine exists_congr fun s => and_congr_right fun hs => ?_
    constructor
    · rintro ⟨hreaches, rfl⟩
      obtain ⟨hone, hbest⟩ := (isBest_iff honly hs).2 ⟨hreaches, rfl⟩
      exact ⟨_, hone, hbest, rfl⟩
    · rintro ⟨qos, hone, hbest, rfl⟩
      obtain ⟨hreaches, rfl⟩ := (isBest_iff honly hs).1 ⟨hone, hbest⟩
      exact ⟨hreaches, rfl⟩

theorem existsUnique_selected (hdistinct : (owned.map OfflineSession.clientID).Nodup)
    {filter : Text} (hmatch : matchesShared topic filter = true)
    (hhas : ∃ s ∈ owned, s.HasFilter filter) :
    ∃! s, s ∈ owned ∧ s.HasFilter filter ∧
      (selectSharedSessions owned topic).lookup filter = some s.clientID := by
  obtain ⟨clientID, hselected⟩ := exists_selected hmatch hhas
  obtain ⟨s, hs, hfilter, rfl⟩ := (lookup_selectSharedSessions.1 hselected).2.1
  refine ⟨s, ⟨hs, hfilter, hselected⟩, ?_⟩
  rintro s' ⟨hs', -, hselected'⟩
  exact eq_of_clientID_eq hdistinct hs' hs (Option.some.inj (hselected'.symm.trans hselected))

/-- Offline delivery is as specified exactly if the session with the empty client ID gets nothing
through a shared filter for which the cluster has selected nobody. It always is without a decision
of the cluster. -/
theorem deliversAsSpecified_iff (sharedSelected : Option (GoMap Text Text))
    (owned : List OfflineSession) (hdistinct : (owned.map OfflineSession.clientID).Nodup)
    (topic : Text) (payload : List UInt8) (publishQoS : ℕ) :
    DeliversAsSpecified sharedSelected owned topic payload publishQoS ↔
      ∀ selected, sharedSelected = some selected →
        OnlySelected selected owned topic publishQoS := by
  have hprogram := ensures_deliverProgram sharedSelected owned topic payload publishQoS
  constructor
  · rintro h selected rfl
    refine (@deliver_calls_iff selected owned topic payload publishQoS hdistinct).1 fun call => ?_
    have hcalls := h.calls (fun _ => .failed) call
    rwa [(hprogram _).1] at hcalls
  · intro h
    have honly : OnlySelected (sharedSelected.getD (selectSharedSessions owned topic)) owned topic
        publishQoS := by
      cases sharedSelected with
      | none => exact onlySelected_selectSharedSessions owned topic publishQoS
      | some selected => exact h selected rfl
    refine ⟨fun answers => ?_, fun answers call => ?_, fun answers answers' => ?_,
      fun answers => (hprogram answers).2,
      fun _ filter hmatch hhas => existsUnique_selected hdistinct hmatch hhas,
      fun _ owned' hperm filter => lookup_selectSharedSessions_perm hperm topic filter⟩
    · rw [(hprogram answers).1]
      exact (map_fst_deliver_sublist _ _ _ _ _).nodup hdistinct
    · rw [(hprogram answers).1]
      exact (deliver_calls_iff hdistinct).2 honly call
    · rw [(hprogram answers).1, (hprogram answers').1]

end Spec

/-- A session that has a shared filter. -/
def member (clientID : Text) : OfflineSession := ⟨clientID, [⟨"$share/g/a".toList, 1⟩]⟩

/-- The cluster has selected client `c`. -/
def selectedC : GoMap Text Text := (∅ : GoMap Text Text).insert "$share/g/a".toList ['c']

/-- Two members of the group, and a session with the ordinary filter `#`. -/
def threeSessions : List OfflineSession :=
  [member ['c'], member ['d'], ⟨['e'], [⟨['#'], 2⟩]⟩]

/-- The selected member and the ordinary subscriber get the message, the other member does not. -/
theorem deliversAsSpecified_member :
    DeliversAsSpecified (some selectedC) threeSessions ['a'] [7] 1 ∧
      deliver (some selectedC) threeSessions ['a'] [7] 1 =
        [(['c'], ⟨['a'], [7], 1⟩), (['e'], ⟨['a'], [7], 1⟩)] := by
  refine ⟨?_, by decide +kernel⟩
  refine (deliversAsSpecified_iff (some selectedC) threeSessions (by decide) ['a'] [7] 1).2 ?_
  intro _ _ s hs hempty
  have hnamed : ∀ s ∈ threeSessions, s.clientID ≠ [] := by decide
  exact absurd hempty (hnamed s hs)

/-- The empty decision does not suppress the delivery to the empty client ID. -/
theorem not_deliversAsSpecified_empty :
    ¬ DeliversAsSpecified (some ∅) [member []] ['a'] [] 1 := by
  intro h
  have hcall : (([], ⟨['a'], [], 1⟩) : Text × OfflineMessage) ∈
      ((deliverProgram (some ∅) [member []] ['a'] [] 1).run fun _ => .queued 1).1.map Prod.fst := by
    decide +kernel
  obtain ⟨s, hs, qos, -, ⟨⟨sub, hsub, hmatches, -⟩, -⟩, -⟩ := (h.calls _ _).1 hcall
  obtain rfl := List.mem_singleton.1 hs
  obtain rfl := List.mem_singleton.1 hsub
  exact absurd hmatches.1 (by decide)

end KeelGateway.Session
