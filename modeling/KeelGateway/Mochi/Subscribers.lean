import Mathlib.Data.List.Dedup
import Mathlib.Data.List.TakeWhile
import KeelGateway.Mochi.Topics

/-!
# Queries of the topics index

A publish asks the index for the subscribers of its topic. The scan goes through the particles on
the way of the topic and gathers what it meets: ordinary subscriptions by client, shared ones by
full filter. The cluster router asks the same question for node IDs only, and keeps one node for
every shared filter.

-/

namespace KeelGateway.Mochi

open Acl

/-- A topic name: not empty and without wildcards. -/
structure TopicName where
  text : Text
  ne_nil : text ≠ []
  concrete : Concrete text

/-! ### The scan -/

/-- A filter that starts with a wildcard is passed over when the topic starts with `$`. -/
def hidden (topic filter : Text) : Bool :=
  topic.head? = some '$' && (filter.head? = some '+' || filter.head? = some '#')

/-- `Subscribers`: clients by ID, and the members of every shared filter. -/
structure Subscribers where
  subscriptions : GoMap Text Subscription
  shared : GoMap Text (GoMap Text Subscription)

/-- `routingSharedChoice`. -/
structure SharedChoice where
  client : Text := []
  isLocal : Bool := false

namespace TopicsIndex

variable (x : TopicsIndex)

/-- The paths that the scan gathers from. -/
def scanned (topic : Text) : List Path := if topic = [] then [] else visit (levels topic)

/-- What `gatherSubscriptions` meets, in the order of the scan. -/
def ordinaryEntries (topic : Text) : List (Text × Subscription) :=
  (scanned topic).flatMap fun path => x.subscriptions.entries.filterMap fun row =>
    if row.1.1 = path ∧ hidden topic row.2.filter = false then some (row.1.2, row.2) else none

/-- What `gatherSharedSubscriptions` meets. It passes over nothing. -/
def sharedEntries (topic : Text) : List (Text × Subscription) :=
  (scanned topic).flatMap fun path => x.shared.entries.filterMap fun row =>
    if row.1.1 = path then some (row.1.2.2, row.2) else none

/-- `TopicsIndex.Subscribers`. -/
def subscribers (topic : Text) : Subscribers where
  subscriptions := (x.ordinaryEntries topic).foldl (fun subs e =>
    subs.insert e.1 (((subs.lookup e.1).getD e.2).merge e.2)) ∅
  shared := (x.sharedEntries topic).foldl (fun shared e =>
    shared.insert e.2.filter (((shared.lookup e.2.filter).getD ∅).insert e.1 e.2)) ∅

/-- The routing branch of `gatherSharedSubscriptions` for one member: the local member replaces any
choice, another one is chosen if there is no choice yet. -/
def chooseShared (localMember : Text) (choices : GoMap Text SharedChoice)
    (e : Text × Subscription) : GoMap Text SharedChoice :=
  if localMember ≠ [] ∧ e.1 = localMember then choices.insert e.2.filter { isLocal := true }
  else if e.2.filter ∈ choices then choices
  else choices.insert e.2.filter { client := e.1 }

/-- The choices at the end of the scan. -/
def sharedChoices (topic localMember : Text) : GoMap Text SharedChoice :=
  (x.sharedEntries topic).foldl (chooseShared localMember) ∅

/-- `TopicsIndex.SubscriberRoutingPlan`: the nodes to send to, and the node of every shared
filter. -/
def subscriberRoutingPlan (topic localMember : Text) : List Text × GoMap Text Text :=
  let choices := x.sharedChoices topic localMember
  let chosen := choices.entries.filterMap fun row =>
    if row.2.isLocal then none else some row.2.client
  (((x.ordinaryEntries topic).map Prod.fst ++ chosen).dedup,
    choices.filterMap fun _ choice => some (if choice.isLocal then localMember else choice.client))

end TopicsIndex

/-! ### Paths of filters -/

theorem splitN_eq_cons_cons {n : ℕ} {t a b : Text} {rest : List Text}
    (h : splitN (n + 2) t = a :: b :: rest) :
    ∃ t', '/' ∉ a ∧ t = a ++ '/' :: t' ∧ splitN (n + 1) t' = b :: rest := by
  rw [splitN, List.span_eq_takeWhile_dropWhile] at h
  have happend := List.takeWhile_append_dropWhile (p := (· != '/')) (l := t)
  have hpart : '/' ∉ t.takeWhile (· != '/') := by
    intro hmem
    have hne := List.mem_takeWhile_imp hmem
    simp at hne
  cases hdrop : t.dropWhile (· != '/') with
  | nil =>
    rw [hdrop] at h
    simp at h
  | cons c t' =>
    have hslash : c = '/' := by
      have hhead := List.head_dropWhile_not (· != '/') (l := t) (by simp [hdrop])
      simpa [hdrop] using hhead
    rw [hdrop] at h happend
    subst hslash
    simp only [List.cons.injEq] at h
    obtain ⟨rfl, h⟩ := h
    exact ⟨t', hpart, happend.symm, h⟩

theorem levels_of_sharedFilter {filter group underlying : Text}
    (h : sharedFilter filter = some (group, underlying)) :
    ∃ share, equalFoldShare share = true ∧ levels filter = share :: group :: levels underlying := by
  unfold sharedFilter at h
  split at h
  · next share g u hsplit =>
    split_ifs at h with hok
    cases h
    obtain ⟨t, hshare, rfl, htail⟩ := splitN_eq_cons_cons hsplit
    obtain ⟨t', hgroup, rfl, hlast⟩ := splitN_eq_cons_cons htail
    simp only [splitN, List.cons.injEq, and_true] at hlast
    subst hlast
    refine ⟨share, by_contra fun h => hok (Or.inl (by simp [h])), ?_⟩
    rw [levels_slash, levels_slash, levels_of_notMem hshare, levels_of_notMem hgroup]
    rfl
  · cases h

section SharedFilter

variable {filter group underlying : Text}

theorem isSharedFilter_of_levels {t level : Text} {rest : List Text}
    (h : levels t = level :: rest) : isSharedFilter t = equalFoldShare level := by
  simp [isSharedFilter, isolateParticle, h]

theorem isSharedFilter_of_sharedFilter (h : sharedFilter filter = some (group, underlying)) :
    isSharedFilter filter = true := by
  obtain ⟨share, hshare, hlevels⟩ := levels_of_sharedFilter h
  rwa [isSharedFilter_of_levels hlevels]

theorem filterPath_of_sharedFilter (h : sharedFilter filter = some (group, underlying)) :
    filterPath filter = levels underlying := by
  obtain ⟨share, -, hlevels⟩ := levels_of_sharedFilter h
  have hpos : 0 < (levels underlying).length := List.length_pos_of_ne_nil (levels_ne_nil _)
  rw [filterPath, isSharedFilter_of_sharedFilter h, pathFrom, hlevels]
  simp [hpos]

theorem filterPath_of_isSharedFilter_eq_false (h : isSharedFilter filter = false) :
    filterPath filter = levels filter := by
  have hpos : 0 < (levels filter).length := List.length_pos_of_ne_nil (levels_ne_nil _)
  simp [filterPath, h, pathFrom, hpos]

end SharedFilter

/-! ### The two matchers -/

/-- The index finds a subscription with the filter for the topic. -/
def IndexMatch (filter topic : Text) : Prop :=
  levels filter ∈ visit (levels topic) ∧ hidden topic filter = false

instance (filter topic : Text) : Decidable (IndexMatch filter topic) :=
  inferInstanceAs (Decidable (_ ∧ _))

/-- The filter covers the topic as the parent level of a final `/+/#` only. -/
def ParentMatch (filter topic : Text) : Prop :=
  ParentOnly (levels filter) (levels topic) ∧ dollarGuard (levels filter) (levels topic) = false

theorem noWildcard_levels {topic : Text} (h : Concrete topic) : NoWildcard (levels topic) := by
  intro l hl
  constructor
  · rintro rfl
    exact h.2 (mem_of_mem_levels hl (List.mem_singleton_self _))
  · rintro rfl
    exact h.1 (mem_of_mem_levels hl (List.mem_singleton_self _))

variable {ls : List Text} {p : Path}

theorem mem_visit_self (h : ls ≠ []) : ls ∈ visit ls := by
  induction ls with
  | nil => exact absurd rfl h
  | cons key rest ih =>
    by_cases hrest : rest = []
    · rw [hrest, mem_visit_singleton]
      exact Or.inl rfl
    · rw [mem_visit_cons hrest]
      exact Or.inl ⟨rest, rfl, ih hrest⟩

theorem head_of_mem_visit {f key : Text} {rest : List Text} (h : f :: p ∈ visit (key :: rest)) :
    f = key ∨ f = ['+'] ∨ f = ['#'] := by
  by_cases hrest : rest = []
  · rw [hrest, mem_visit_singleton] at h
    simp only [List.cons.injEq] at h
    tauto
  · rw [mem_visit_cons hrest] at h
    rcases h with ⟨q, hq, -⟩ | ⟨q, hq, -⟩ | hq
    · exact Or.inl (List.cons.inj hq).1
    · exact Or.inr (Or.inl (List.cons.inj hq).1)
    · exact Or.inr (Or.inr (List.cons.inj hq).1)

theorem IndexMatch.head?_eq {filter topic : Text} (h : IndexMatch filter topic)
    (hdollar : topic.head? = some '$') : (levels filter).head? = (levels topic).head? := by
  obtain ⟨f, fs, hf⟩ := List.exists_cons_of_ne_nil (levels_ne_nil filter)
  obtain ⟨t, ts, ht⟩ := List.exists_cons_of_ne_nil (levels_ne_nil topic)
  obtain ⟨hmem, hvisible⟩ := h
  rw [hf, ht] at hmem
  rcases head_of_mem_visit hmem with rfl | rfl | rfl
  · rw [hf, ht, List.head?_cons, List.head?_cons]
  · rw [hidden, hdollar, head?_of_levels_cons hf (by decide)] at hvisible
    exact absurd hvisible (by decide)
  · rw [hidden, hdollar, head?_of_levels_cons hf (by decide)] at hvisible
    exact absurd hvisible (by decide)

theorem eq_of_mem_visit (hp : NoWildcard p) (h : p ∈ visit ls) : p = ls := by
  induction ls generalizing p with
  | nil => cases h
  | cons key rest ih =>
    have hwild {l : Text} (hl : l ∈ p) (heq : l = ['+'] ∨ l = ['#']) : False := by
      rcases heq with heq | heq
      · exact (hp l hl).2 heq
      · exact (hp l hl).1 heq
    by_cases hrest : rest = []
    · rw [hrest, mem_visit_singleton] at h
      rcases h with rfl | ⟨rfl, -⟩ | rfl | rfl
      · rw [hrest]
      · exact (hwild (List.mem_cons_of_mem _ List.mem_cons_self) (Or.inr rfl)).elim
      · exact (hwild List.mem_cons_self (Or.inl rfl)).elim
      · exact (hwild List.mem_cons_self (Or.inr rfl)).elim
    · rw [mem_visit_cons hrest] at h
      rcases h with ⟨q, rfl, hq⟩ | ⟨q, rfl, -⟩ | rfl
      · rw [ih (fun l hl => hp l (List.mem_cons_of_mem _ hl)) hq]
      · exact (hwild List.mem_cons_self (Or.inl rfl)).elim
      · exact (hwild List.mem_cons_self (Or.inr rfl)).elim

theorem not_parentOnly_of_mem_visit (hls : NoWildcard ls) (h : p ∈ visit ls) :
    ¬ ParentOnly p ls := by
  induction ls generalizing p with
  | nil => cases h
  | cons key rest ih =>
    have hkey := (hls key List.mem_cons_self).2
    by_cases hrest : rest = []
    · subst hrest
      rintro ⟨q, rfl, hmatch⟩
      rw [mem_visit_singleton] at h
      cases q with
      | nil => simp [Ne.symm hkey] at h
      | cons f q =>
        simp only [List.cons_append, List.cons.injEq, List.append_eq_nil_iff, List.cons_ne_nil,
          and_false, false_or, or_false] at h
        have hlen := congrArg List.length h.1.2
        simp at hlen
    · have htail : NoWildcard rest := fun l hl => hls l (List.mem_cons_of_mem _ hl)
      rw [mem_visit_cons hrest] at h
      rcases h with ⟨q, rfl, hq⟩ | ⟨q, rfl, hq⟩ | rfl
      · rw [parentOnly_cons (hls key List.mem_cons_self).1 hrest]
        exact fun hp => ih htail hq hp.2
      · rw [parentOnly_cons (by decide) hrest]
        exact fun hp => ih htail hq hp.2
      · rintro ⟨q, hq, -⟩
        cases q <;> simp at hq

section Matchers

variable {filter topic : Text}

theorem hidden_of_dollarGuard (h : dollarGuard (levels filter) (levels topic) = true) :
    hidden topic filter = true := by
  obtain ⟨f, fs, hf⟩ := List.exists_cons_of_ne_nil (levels_ne_nil filter)
  obtain ⟨t, ts, ht⟩ := List.exists_cons_of_ne_nil (levels_ne_nil topic)
  rw [hf, ht] at h
  simp only [dollarGuard, Bool.and_eq_true, List.isPrefixOf_iff_prefix, decide_eq_true_eq,
    Bool.or_eq_true] at h
  obtain ⟨⟨t', rfl⟩, -, hwild⟩ := h
  have htopic := head?_of_levels_cons ht (by simp)
  rcases hwild with rfl | rfl
  · simp [hidden, htopic, head?_of_levels_cons hf (by simp)]
  · simp [hidden, htopic, head?_of_levels_cons hf (by simp)]

theorem dollarGuard_of_hidden (hmem : levels filter ∈ visit (levels topic))
    (h : hidden topic filter = true) : dollarGuard (levels filter) (levels topic) = true := by
  obtain ⟨f, fs, hf⟩ := List.exists_cons_of_ne_nil (levels_ne_nil filter)
  obtain ⟨t, ts, ht⟩ := List.exists_cons_of_ne_nil (levels_ne_nil topic)
  simp only [hidden, Bool.and_eq_true, Bool.or_eq_true, decide_eq_true_eq] at h
  obtain ⟨hdollar, hwild⟩ := h
  have htop := head?_level ht (by decide) hdollar
  have hfilter : f.head? = some '+' ∨ f.head? = some '#' :=
    hwild.imp (head?_level hf (by decide)) (head?_level hf (by decide))
  obtain ⟨t', rfl⟩ : ∃ t', t = '$' :: t' := by
    cases t with
    | nil => cases htop
    | cons c t' => exact ⟨t', by simpa using htop⟩
  rw [hf, ht] at hmem ⊢
  rcases head_of_mem_visit hmem with rfl | rfl | rfl
  · simp at hfilter
  · simp [dollarGuard]
  · simp [dollarGuard]

theorem matchTopic_iff (topic : TopicName) :
    matchTopic filter topic.text = true ↔
      IndexMatch filter topic.text ∨ ParentMatch filter topic.text := by
  have hwild := noWildcard_levels topic.concrete
  have hne := levels_ne_nil topic.text
  by_cases heq : filter = topic.text
  · -- the exact-match shortcut: a topic is on its own way and starts with no wildcard
    subst heq
    have hhead (c : Char) (hc : c ∉ topic.text) : topic.text.head? ≠ some c :=
      fun h => hc (List.mem_of_mem_head? h)
    refine iff_of_true (matchTopic_self _) (Or.inl ⟨mem_visit_self hne, ?_⟩)
    simp [hidden, hhead _ topic.concrete.1, hhead _ topic.concrete.2]
  · cases hguard : dollarGuard (levels filter) (levels topic.text) with
    | true =>
      have hhidden := hidden_of_dollarGuard hguard
      simp [matchTopic, heq, IndexMatch, ParentMatch, hguard, hhidden]
    | false =>
      have hvisible (hmem : levels filter ∈ visit (levels topic.text)) :
          hidden topic.text filter = false := by
        by_contra h
        have := dollarGuard_of_hidden hmem (by simpa using h)
        rw [hguard] at this
        cases this
      rw [matchTopic_eq_matchLevels heq hguard, matchLevels_iff hne hwild, ParentMatch,
        and_iff_left hguard]
      exact or_congr_left ⟨fun h => ⟨h, hvisible h⟩, And.left⟩

/-- No filter covers a topic in both ways. -/
theorem not_parentMatch_of_indexMatch {topic : TopicName} (h : IndexMatch filter topic.text) :
    ¬ ParentMatch filter topic.text :=
  fun hparent => not_parentOnly_of_mem_visit (noWildcard_levels topic.concrete) h.1 hparent.1

theorem indexMatch_iff_not_parentMatch {topic : TopicName}
    (h : matchTopic filter topic.text = true) :
    IndexMatch filter topic.text ↔ ¬ ParentMatch filter topic.text :=
  ⟨not_parentMatch_of_indexMatch, fun hparent => ((matchTopic_iff topic).1 h).resolve_right hparent⟩

end Matchers

/-! ### Answers of the queries -/

namespace TopicsIndex

variable {x : TopicsIndex}

section Entries

variable {topic client : Text} {sub : Subscription}

theorem mem_ordinaryEntries (ht : topic ≠ []) :
    (client, sub) ∈ x.ordinaryEntries topic ↔
      x.subscriptions.lookup (levels sub.filter, client) = some sub ∧
        IndexMatch sub.filter topic := by
  simp only [ordinaryEntries, scanned, if_neg ht, List.mem_flatMap, List.mem_filterMap]
  constructor
  · rintro ⟨path, hpath, ⟨⟨p, c⟩, s⟩, hrow, hs⟩
    split_ifs at hs with hcond
    obtain ⟨rfl, hvisible⟩ := hcond
    cases hs
    have hlookup := GoMap.mem_entries.1 hrow
    obtain ⟨hshared, hfilter⟩ := x.subscriptions_path _ _ _ hlookup
    rw [filterPath_of_isSharedFilter_eq_false hshared] at hfilter
    exact ⟨by rw [hfilter]; exact hlookup, by rw [hfilter]; exact hpath, hvisible⟩
  · rintro ⟨hlookup, hpath, hvisible⟩
    exact ⟨_, hpath, ⟨(_, client), sub⟩, GoMap.mem_entries.2 hlookup, if_pos ⟨rfl, hvisible⟩⟩

theorem mem_sharedEntries (ht : topic ≠ []) :
    (client, sub) ∈ x.sharedEntries topic ↔
      x.shared.lookup (filterPath sub.filter, shareGroup sub.filter, client) = some sub ∧
        filterPath sub.filter ∈ visit (levels topic) := by
  simp only [sharedEntries, scanned, if_neg ht, List.mem_flatMap, List.mem_filterMap]
  constructor
  · rintro ⟨path, hpath, ⟨⟨p, g, c⟩, s⟩, hrow, hs⟩
    split_ifs at hs with hp
    obtain rfl := hp
    cases hs
    have hlookup := GoMap.mem_entries.1 hrow
    obtain ⟨-, rfl, rfl⟩ := x.shared_path _ _ _ _ hlookup
    exact ⟨hlookup, hpath⟩
  · rintro ⟨hlookup, hpath⟩
    exact ⟨_, hpath, ⟨(_, _, client), sub⟩, GoMap.mem_entries.2 hlookup, if_pos rfl⟩

theorem exists_mem_ordinaryEntries (ht : topic ≠ []) :
    (∃ sub, (client, sub) ∈ x.ordinaryEntries topic) ↔
      ∃ filter, (levels filter, client) ∈ x.subscriptions ∧ IndexMatch filter topic := by
  constructor
  · rintro ⟨sub, hsub⟩
    obtain ⟨hlookup, hmatch⟩ := (mem_ordinaryEntries ht).1 hsub
    exact ⟨sub.filter, GoMap.mem_iff_exists_lookup.2 ⟨sub, hlookup⟩, hmatch⟩
  · rintro ⟨filter, hmem, hmatch⟩
    obtain ⟨sub, hlookup⟩ := GoMap.mem_iff_exists_lookup.1 hmem
    obtain ⟨hshared, hpath⟩ := x.subscriptions_path _ _ _ hlookup
    rw [filterPath_of_isSharedFilter_eq_false hshared] at hpath
    obtain rfl := levels_injective hpath
    exact ⟨sub, (mem_ordinaryEntries ht).2 ⟨hlookup, hmatch⟩⟩

end Entries

variable {topic : Text}

theorem mem_subscriptions_subscribers (client : Text) :
    client ∈ (x.subscribers topic).subscriptions ↔
      ∃ sub, (client, sub) ∈ x.ordinaryEntries topic := by
  unfold subscribers
  rw [GoMap.mem_foldl_insert]
  simp

theorem mem_shared_subscribers (filter : Text) :
    filter ∈ (x.subscribers topic).shared ↔ ∃ e ∈ x.sharedEntries topic, e.2.filter = filter := by
  unfold subscribers
  rw [GoMap.mem_foldl_insert]
  simp

/-- A client is among the members of a shared filter. -/
def IsMember (es : List (Text × Subscription)) (filter client : Text) : Prop :=
  ∃ e ∈ es, e.1 = client ∧ e.2.filter = filter

private theorem isMember_concat {es : List (Text × Subscription)} {e : Text × Subscription}
    {filter client : Text} :
    IsMember (es ++ [e]) filter client ↔
      IsMember es filter client ∨ (e.1 = client ∧ e.2.filter = filter) := by
  simp only [IsMember, List.mem_append, List.mem_singleton, or_and_right, exists_or,
    exists_eq_left]

theorem lookup_foldl_chooseShared (localMember filter : Text) (es : List (Text × Subscription)) :
    ((es.foldl (chooseShared localMember) ∅).lookup filter = none ∧
      ∀ client, ¬ IsMember es filter client) ∨
    ((es.foldl (chooseShared localMember) ∅).lookup filter = some { isLocal := true } ∧
      localMember ≠ [] ∧ IsMember es filter localMember) ∨
    ∃ client, (es.foldl (chooseShared localMember) ∅).lookup filter = some { client := client } ∧
      IsMember es filter client ∧ ¬ (localMember ≠ [] ∧ IsMember es filter localMember) := by
  induction es using List.reverseRecOn with
  | nil => simp [IsMember]
  | append_singleton es e ih =>
    rw [List.foldl_append, List.foldl_cons, List.foldl_nil]
    simp only [isMember_concat]
    by_cases hfilter : e.2.filter = filter
    · subst hfilter
      simp only [and_true]
      unfold chooseShared
      split_ifs with hlocal hchosen
      · -- the local member comes in
        exact Or.inr (Or.inl ⟨AList.lookup_insert _, hlocal.1, Or.inr hlocal.2⟩)
      · -- some member has been chosen before
        rcases ih with ⟨hnone, -⟩ | ⟨hchoice, hne, hmem⟩ | ⟨client, hchoice, hmem, hno⟩
        · exact absurd hchosen (AList.lookup_eq_none.1 hnone)
        · exact Or.inr (Or.inl ⟨hchoice, hne, Or.inl hmem⟩)
        · refine Or.inr (Or.inr ⟨client, hchoice, Or.inl hmem, ?_⟩)
          rintro ⟨hne, hmem | heq⟩
          · exact hno ⟨hne, hmem⟩
          · exact hlocal ⟨hne, heq⟩
      · -- the first member
        have hnone := AList.lookup_eq_none.2 hchosen
        rcases ih with ⟨-, hno⟩ | ⟨hchoice, -⟩ | ⟨client, hchoice, -⟩
        · refine Or.inr (Or.inr ⟨e.1, AList.lookup_insert _, Or.inr rfl, ?_⟩)
          rintro ⟨hne, hmem | heq⟩
          · exact hno _ hmem
          · exact hlocal ⟨hne, heq⟩
        · cases hnone.symm.trans hchoice
        · cases hnone.symm.trans hchoice
    · have hlookup : (chooseShared localMember (es.foldl (chooseShared localMember) ∅) e).lookup
          filter = (es.foldl (chooseShared localMember) ∅).lookup filter := by
        unfold chooseShared
        split_ifs
        · exact AList.lookup_insert_ne (Ne.symm hfilter)
        · rfl
        · exact AList.lookup_insert_ne (Ne.symm hfilter)
      simpa only [hlookup, hfilter, and_false, or_false] using ih

theorem subscriberRoutingPlan_cases (x : TopicsIndex) (topic localMember filter : Text) :
    ((x.subscriberRoutingPlan topic localMember).2.lookup filter = none ∧
      ∀ client, ¬ IsMember (x.sharedEntries topic) filter client) ∨
    ∃ node, (x.subscriberRoutingPlan topic localMember).2.lookup filter = some node ∧
      IsMember (x.sharedEntries topic) filter node ∧
      (node = localMember ∨ node ∈ (x.subscriberRoutingPlan topic localMember).1) ∧
      (localMember ≠ [] → IsMember (x.sharedEntries topic) filter localMember →
        node = localMember) := by
  unfold subscriberRoutingPlan
  simp only [GoMap.lookup_filterMap, sharedChoices, List.mem_dedup, List.mem_append]
  rcases lookup_foldl_chooseShared localMember filter (x.sharedEntries topic) with
    ⟨hnone, hno⟩ | ⟨hchoice, -, hmem⟩ | ⟨client, hchoice, hmem, hno⟩
  · exact Or.inl ⟨by rw [hnone]; rfl, hno⟩
  · exact Or.inr ⟨localMember, by rw [hchoice]; rfl, hmem, Or.inl rfl, fun _ _ => rfl⟩
  · refine Or.inr ⟨client, by rw [hchoice]; rfl, hmem, Or.inr (Or.inr ?_),
      fun hne hlocal => absurd ⟨hne, hlocal⟩ hno⟩
    exact List.mem_filterMap.2 ⟨⟨filter, { client := client }⟩, GoMap.mem_entries.2 hchoice, rfl⟩

theorem mem_nodes_subscriberRoutingPlan {x : TopicsIndex} {topic localMember node : Text} :
    node ∈ (x.subscriberRoutingPlan topic localMember).1 ↔
      (∃ sub, (node, sub) ∈ x.ordinaryEntries topic) ∨
        ∃ filter, (x.sharedChoices topic localMember).lookup filter = some { client := node } := by
  simp only [subscriberRoutingPlan, List.mem_dedup, List.mem_append, List.mem_map, Prod.exists,
    exists_and_right, exists_eq_right, List.mem_filterMap]
  refine or_congr_right ⟨?_, ?_⟩
  · rintro ⟨⟨filter, ⟨client, isLocal⟩⟩, hrow, hsome⟩
    cases isLocal with
    | true => cases hsome
    | false =>
      cases hsome
      exact ⟨filter, GoMap.mem_entries.1 hrow⟩
  · rintro ⟨filter, hchoice⟩
    exact ⟨⟨filter, { client := node }⟩, GoMap.mem_entries.2 hchoice, rfl⟩

end TopicsIndex

end KeelGateway.Mochi
