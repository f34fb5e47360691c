import KeelGateway.Acl.Evaluate
import KeelGateway.Acl.MqttMatch

/-!
# What an allowed subscription can receive

A subscription is checked by matching the requested filter, as if it were a topic, against the
filters of the rules. A wildcard of the request is then a level like any other, and `+` in a rule
accepts it. For `+` in the request that is right: both stand for one level. A final `#` in the
request stands for any number of levels, and under a `+` of the rule the request reaches topics
that the rule does not.

-/

namespace KeelGateway.Acl

/-- Wildcards stand as whole levels, and `#` as the last one only. -/
structure ValidFilter (filter : Text) : Prop where
  plus : ∀ l ∈ levels filter, '+' ∈ l → l = ['+']
  hash : ∀ l ∈ levels filter, '#' ∈ l → l = ['#']
  last : ['#'] ∉ (levels filter).dropLast

instance (filter : Text) : Decidable (ValidFilter filter) :=
  decidable_of_iff ((∀ l ∈ levels filter, '+' ∈ l → l = ['+']) ∧
      (∀ l ∈ levels filter, '#' ∈ l → l = ['#']) ∧ ['#'] ∉ (levels filter).dropLast)
    ⟨fun h => ⟨h.1, h.2.1, h.2.2⟩, fun h => ⟨h.plus, h.hash, h.last⟩⟩

/-- A `+` of the rule stands where the request has its `#`. The rule `+/#` is not widened by that,
since every topic has a first level. -/
def Widens (rule request : Text) : Prop :=
  (['+'], ['#']) ∈ (levels rule).zip (levels request) ∧ levels rule ≠ [['+'], ['#']]

instance (rule request : Text) : Decidable (Widens rule request) :=
  inferInstanceAs (Decidable (_ ∧ _))

/-- Every topic that the request matches is matched by the rule. -/
def Covers (rule request : Text) : Prop :=
  ∀ topic, Concrete topic → MqttMatch request topic → MqttMatch rule topic

/-! ### Levels -/

variable {fs rs ts : List Text} {l : Text}

theorem LevelsMatch.trans (h : LevelsMatch rs fs) (hts : LevelsMatch fs ts)
    (hno : (['+'], ['#']) ∉ rs.zip fs) : LevelsMatch rs ts := by
  induction h generalizing ts with
  | nil => exact hts
  | literal hl _ ih =>
    rw [List.zip_cons_cons, List.mem_cons, not_or] at hno
    cases hts with
    | literal _ hts => exact .literal hl (ih hts hno.2)
    | plus _ _ => exact absurd (Or.inl rfl) hl
    | hash _ => exact absurd (Or.inr rfl) hl
  | plus f _ ih =>
    rw [List.zip_cons_cons, List.mem_cons, not_or] at hno
    cases hts with
    | literal _ hts => exact .plus _ (ih hts hno.2)
    | plus t hts => exact .plus t (ih hts hno.2)
    | hash _ => exact absurd rfl hno.1
  | hash _ => exact .hash ts

/-- The levels of a valid filter. -/
structure ValidLevels (fs : List Text) : Prop where
  literal : ∀ l ∈ fs, IsWildcard l ∨ ('/' ∉ l ∧ Concrete l)
  last : ['#'] ∉ fs.dropLast

theorem ValidLevels.tail {f : Text} (h : ValidLevels (f :: fs)) : ValidLevels fs := by
  refine ⟨fun l hl => h.literal l (List.mem_cons_of_mem _ hl), fun hmem => h.last ?_⟩
  cases fs with
  | nil => cases hmem
  | cons g fs => exact List.mem_cons_of_mem _ hmem

theorem ValidLevels.eq_nil_of_hash (h : ValidLevels (['#'] :: fs)) : fs = [] := by
  cases fs with
  | nil => rfl
  | cons g fs => exact absurd List.mem_cons_self h.last

theorem ValidLevels.topicLevel (h : ValidLevels (l :: fs)) :
    '/' ∉ exampleLevel ['a'] l ∧ Concrete (exampleLevel ['a'] l) := by
  unfold exampleLevel
  split_ifs with hwild
  · decide
  · exact (h.literal l List.mem_cons_self).resolve_left hwild

theorem LevelsMatch.cons_exampleLevel (hl : l ≠ ['#']) (h : LevelsMatch fs ts) :
    LevelsMatch (l :: fs) (exampleLevel ['a'] l :: ts) := by
  by_cases hplus : l = ['+']
  · exact hplus ▸ .plus _ h
  · have hwild : ¬ IsWildcard l := not_or.2 ⟨hplus, hl⟩
    rw [exampleLevel, if_neg hwild]
    exact .literal hwild h

theorem LevelsMatch.of_cons {t : Text} (hl : l ≠ ['#']) (h : LevelsMatch (l :: rs) (t :: ts)) :
    LevelsMatch rs ts := by
  cases h with
  | literal _ h => exact h
  | plus _ h => exact h
  | hash _ => exact absurd rfl hl

theorem LevelsMatch.exists_of_widened (h : LevelsMatch rs fs) (hwide : (['+'], ['#']) ∈ rs.zip fs)
    (hfs : ValidLevels fs) :
    ∃ ts, TopicLevels ts ∧ LevelsMatch fs ts ∧ ¬ LevelsMatch rs ts ∧
      (ts = [] → rs = [['+'], ['#']]) ∧
      ∀ l ∈ fs.head?, ∀ t ∈ ts.head?, IsWildcard l → t.head? ≠ some '$' := by
  -- the topic of the levels that follow, with a level for the first one
  have hcons {r f : Text} {rs fs : List Text} (hr : r ≠ ['#']) (hf : f ≠ ['#'])
      (hfs : ValidLevels (f :: fs))
      (ih : ∃ ts, TopicLevels ts ∧ LevelsMatch fs ts ∧ ¬ LevelsMatch rs ts) :
      ∃ ts, TopicLevels ts ∧ LevelsMatch (f :: fs) ts ∧ ¬ LevelsMatch (r :: rs) ts ∧
        (ts = [] → r :: rs = [['+'], ['#']]) ∧
        ∀ l ∈ (f :: fs).head?, ∀ t ∈ ts.head?, IsWildcard l → t.head? ≠ some '$' := by
    obtain ⟨ts, hts, hmatch, hno⟩ := ih
    refine ⟨exampleLevel ['a'] f :: ts, List.forall_mem_cons.2 ⟨hfs.topicLevel, hts⟩,
      hmatch.cons_exampleLevel hf, fun h => hno (h.of_cons hr), by simp, ?_⟩
    rintro l hl t ht hwild
    cases Option.mem_some_iff.1 hl
    cases Option.mem_some_iff.1 ht
    rw [exampleLevel, if_pos hwild]
    decide
  induction h with
  | nil => cases hwide
  | @literal l rs fs hl hrs ih =>
    rw [List.zip_cons_cons, List.mem_cons] at hwide
    have hhash : l ≠ ['#'] := fun h => hl (Or.inr h)
    have htail : (['+'], ['#']) ∈ rs.zip fs :=
      hwide.resolve_left fun h => hl (Or.inl (Prod.mk.inj h).1.symm)
    obtain ⟨ts, hts, hmatch, hno, -⟩ := ih htail hfs.tail
    exact hcons hhash hhash hfs ⟨ts, hts, hmatch, hno⟩
  | @plus rs fs f hrs ih =>
    rw [List.zip_cons_cons, List.mem_cons] at hwide
    by_cases hhash : f = ['#']
    · -- below the `+` the rule has no level or a `#`
      subst hhash
      obtain rfl := hfs.eq_nil_of_hash
      cases hrs with
      | nil =>
        refine ⟨[['a'], ['a']], by decide, .hash _, fun h => ?_, by simp, by decide⟩
        cases h.of_cons (by decide)
      | hash =>
        refine ⟨[], by decide, .hash _, fun h => ?_, fun _ => rfl, by decide⟩
        cases h
    · have htail : (['+'], ['#']) ∈ rs.zip fs :=
        hwide.resolve_left fun h => hhash (Prod.mk.inj h).2.symm
      obtain ⟨ts, hts, hmatch, hno, -⟩ := ih htail hfs.tail
      exact hcons (by decide) hhash hfs ⟨ts, hts, hmatch, hno⟩
  | hash ts => cases ts <;> simp at hwide

/-! ### Filters -/

theorem ValidFilter.validLevels {filter : Text} (h : ValidFilter filter) :
    ValidLevels (levels filter) := by
  refine ⟨fun l hl => ?_, h.last⟩
  by_cases hwild : IsWildcard l
  · exact Or.inl hwild
  · refine Or.inr ⟨notMem_of_mem_levels hl, fun hplus => ?_, fun hhash => ?_⟩
    · exact hwild (Or.inl (h.plus l hl hplus))
    · exact hwild (Or.inr (h.hash l hl hhash))

theorem dollar_of_matchTopic {rule request topic : Text} (h : matchTopic rule request = true)
    (hmatch : MqttMatch request topic) :
    ∀ l ∈ (levels rule).head?, ∀ t ∈ (levels topic).head?, IsWildcard l → t.head? ≠ some '$' := by
  by_cases heq : rule = request
  · exact heq ▸ hmatch.dollar
  · intro l hl t ht hwild hdollar
    have hguard : dollarGuard (levels rule) (levels request) = false := by
      by_contra hguard
      simp [matchTopic, heq, hguard] at h
    obtain ⟨f, fs, hf⟩ := List.exists_cons_of_ne_nil (levels_ne_nil request)
    obtain ⟨t', ts, hts⟩ := List.exists_cons_of_ne_nil (levels_ne_nil topic)
    have hlevels := hmatch.levels
    have hrequest := hmatch.dollar
    rw [hf, hts] at hlevels hrequest
    rw [hts, List.head?_cons, Option.mem_some_iff] at ht
    subst ht
    -- the request has the first level of the topic, and so the rule was kept away from it
    cases hlevels with
    | literal _ _ =>
      exact dollarGuard_eq_false_iff.1 hguard l hl _ (by rw [hf]; rfl) hwild hdollar
    | plus _ _ => exact hrequest _ rfl _ rfl (Or.inl rfl) hdollar
    | hash _ => exact hrequest _ rfl _ rfl (Or.inr rfl) hdollar

theorem covers_iff_not_widens {rule request : Text} (hrequest : ValidFilter request)
    (h : matchTopic rule request = true) : Covers rule request ↔ ¬ Widens rule request := by
  by_cases heq : rule = request
  · -- the exact-match shortcut
    subst heq
    refine iff_of_true (fun _ _ hmatch => hmatch) fun hwide => ?_
    have hpair : ∀ ls : List Text, (['+'], ['#']) ∉ ls.zip ls := by
      intro ls hmem
      induction ls with
      | nil => cases hmem
      | cons l ls ih =>
        rw [List.zip_cons_cons, List.mem_cons, Prod.mk.injEq] at hmem
        rcases hmem with ⟨hplus, hhash⟩ | hmem
        · exact absurd (hplus.trans hhash.symm) (by decide)
        · exact ih hmem
    exact hpair _ hwide.1
  have hguard : dollarGuard (levels rule) (levels request) = false := by
    by_contra hguard
    simp [matchTopic, heq, hguard] at h
  have hlevels : LevelsMatch (levels rule) (levels request) := by
    rwa [matchTopic_eq_matchLevels heq hguard, matchLevels_iff_levelsMatch] at h
  constructor
  · rintro hcovers ⟨hwide, hne⟩
    obtain ⟨ts, hts, hmatch, hno, hnil, hdollar⟩ :=
      hlevels.exists_of_widened hwide hrequest.validLevels
    obtain ⟨topic, hconcrete, rfl⟩ := hts.exists_topic fun h => hne (hnil h)
    exact hno (hcovers topic hconcrete ⟨hmatch, hdollar⟩).levels
  · intro hwide topic _ hmatch
    refine ⟨?_, dollar_of_matchTopic h hmatch⟩
    by_cases hplus : levels rule = [['+'], ['#']]
    · -- every topic has a first level
      obtain ⟨t, ts, ht⟩ := List.exists_cons_of_ne_nil (levels_ne_nil topic)
      rw [hplus, ht]
      exact .plus t (.hash ts)
    · exact hlevels.trans hmatch.levels fun hmem => hwide ⟨hmem, hplus⟩

/-! ### Rules -/

/-- A subscription is allowed, and the rule is one of those that allow it. -/
structure AllowedBy (clientID username request : Text) (enabledRulesets : List Role)
    (customRules : List ACLRule) (r : ACLRule) : Prop where
  allowed : (evaluate clientID username request .subscribe enabledRulesets customRules).effect =
    .allow
  mem : r ∈ enabledRulesets.flatMap Role.rules ++ customRules
  effect : r.effect = .allow
  action : r.allowsAction .subscribe = true
  matched : matchTopic (r.resolvedFilter clientID username) request = true

/-- An allowed subscription stays within the rule that allows it, unless a `+` of the rule accepts
the `#` of the request. -/
theorem AllowedBy.covers_iff_not_widens_resolved {clientID username request : Text}
    {enabledRulesets : List Role} {customRules : List ACLRule} {r : ACLRule}
    (h : AllowedBy clientID username request enabledRulesets customRules r)
    (hrequest : ValidFilter request) :
    Covers (r.resolvedFilter clientID username) request ↔
      ¬ Widens (r.resolvedFilter clientID username) request :=
  covers_iff_not_widens hrequest h.matched

/-- A rule that allows subscriptions to a filter. -/
def subscribeRule (filter : Text) : ACLRule := ⟨filter, ["subscribe".toList], .allow⟩

/-- The rule `a/#` allows `a/+` and covers it. -/
theorem covers_below_hash :
    Covers ((subscribeRule "a/#".toList).resolvedFilter [] []) "a/+".toList := by
  have hallowed : AllowedBy [] [] "a/+".toList [] [subscribeRule "a/#".toList]
      (subscribeRule "a/#".toList) :=
    ⟨by decide, by decide, by decide, by decide, by decide⟩
  exact (hallowed.covers_iff_not_widens_resolved (by decide)).2 (by decide)

/-- The rule `a/+` allows `a/#`, which reaches the topic `a/b/c`. -/
theorem not_covers_below_plus :
    AllowedBy [] [] "a/#".toList [] [subscribeRule "a/+".toList] (subscribeRule "a/+".toList) ∧
      ValidFilter ((subscribeRule "a/+".toList).resolvedFilter [] []) ∧
      ValidFilter "a/#".toList ∧ Concrete "a/b/c".toList ∧
      MqttMatch "a/#".toList "a/b/c".toList ∧
      ¬ MqttMatch ((subscribeRule "a/+".toList).resolvedFilter [] []) "a/b/c".toList := by
  refine ⟨⟨by decide, by decide, by decide, by decide, by decide⟩, ?_⟩
  decide

end KeelGateway.Acl
