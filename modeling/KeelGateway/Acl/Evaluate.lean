import KeelGateway.Acl.Match

/-!
# Evaluation of ACL rules

Rules come from the enabled standard rulesets and from the roles bound to a principal. `Evaluate`
walks over all of them: any matching deny wins, otherwise any matching allow, and with no matching
rule the decision is a deny without a rule.

The walk also remembers the most specific rule of each effect. That choice depends on the order of
the rules, which the callers take from Go maps, but the outcome does not:
`evaluate_deny_iff` says which requests get an explicit deny in terms of membership only.

-/

namespace KeelGateway.Acl

/-- What a request wants to do with a topic. -/
inductive Action where
  | publish
  | subscribe
  deriving DecidableEq, Repr

/-- The text of an action in a rule. -/
def Action.text : Action → Text
  | .publish => "publish".toList
  | .subscribe => "subscribe".toList

/-- The effect of a rule. The source's type is a string, so a rule may carry an effect that is
neither of the two; such a rule is never considered. -/
inductive Effect where
  | allow
  | deny
  | unknown (text : Text)
  deriving DecidableEq

/-- One statement about a topic filter. -/
structure ACLRule where
  /-- The filter, with the placeholders `%c` and `%u`. -/
  topicFilter : Text
  actions : List Text
  effect : Effect
  deriving DecidableEq

/-- A named bundle of rules. -/
structure Role where
  name : Text
  rules : List ACLRule
  deriving DecidableEq

/-- The outcome of an evaluation and the rule that explains it. The rule is absent in the
fail-closed default. -/
structure Decision where
  effect : Effect
  rule : Option ACLRule
  deriving DecidableEq

/-- The decision allows the request. -/
def Decision.allowed (d : Decision) : Bool := d.effect = .allow

/-- A deny that names a rule. -/
def Decision.ExplicitDeny (d : Decision) : Prop := d.effect = .deny ∧ d.rule ≠ none

namespace ACLRule

/-- The rule is about this action. -/
def allowsAction (r : ACLRule) (action : Action) : Bool := r.actions.any (· = action.text)

/-- The filter with its placeholders replaced, `%c` first and then `%u`. -/
def resolvedFilter (r : ACLRule) (clientID username : Text) : Text :=
  replaceAll '%' 'u' username (replaceAll '%' 'c' clientID r.topicFilter)

/-- The rule is about the request: its action and its resolved filter match. -/
def applies (r : ACLRule) (clientID username topic : Text) (action : Action) : Bool :=
  r.allowsAction action && matchTopic (r.resolvedFilter clientID username) topic

end ACLRule

/-- The best rules seen so far by `Evaluate`, each with its specificity; `-1` before the first. -/
structure Best where
  bestDeny : Option ACLRule := none
  bestAllow : Option ACLRule := none
  bestDenySpec : ℤ := -1
  bestAllowSpec : ℤ := -1

/-- The closure `consider` of `Evaluate`. -/
def consider (clientID username topic : Text) (action : Action) (b : Best) (r : ACLRule) : Best :=
  if !r.applies clientID username topic action then b
  else
    let s : ℤ := specificity r.topicFilter
    match r.effect with
    | .deny => if s > b.bestDenySpec then { b with bestDenySpec := s, bestDeny := some r } else b
    | .allow =>
      if s > b.bestAllowSpec then { b with bestAllowSpec := s, bestAllow := some r } else b
    | .unknown _ => b

/-- `Evaluate`: the rules of the enabled rulesets in order, then the custom rules. -/
def evaluate (clientID username topic : Text) (action : Action) (enabledRulesets : List Role)
    (customRules : List ACLRule) : Decision :=
  let b := (enabledRulesets.flatMap Role.rules ++ customRules).foldl
    (consider clientID username topic action) {}
  match b.bestDeny, b.bestAllow with
  | some r, _ => ⟨.deny, some r⟩
  | none, some r => ⟨.allow, some r⟩
  | none, none => ⟨.deny, none⟩

section Consider

/-- An effect that evaluation knows. -/
private def Effect.Known (e : Effect) : Prop := e = .allow ∨ e = .deny

/-- The best rule of an effect. -/
private def Best.rule (b : Best) : Effect → Option ACLRule
  | .deny => b.bestDeny
  | .allow => b.bestAllow
  | .unknown _ => none

/-- The specificity of the best rule of an effect. -/
private def Best.spec (b : Best) : Effect → ℤ
  | .deny => b.bestDenySpec
  | .allow => b.bestAllowSpec
  | .unknown _ => -1

/-- The rule is the best one of its effect from now on. -/
private def Best.record (b : Best) (r : ACLRule) : Best :=
  match r.effect with
  | .deny => { b with bestDenySpec := specificity r.topicFilter, bestDeny := some r }
  | .allow => { b with bestAllowSpec := specificity r.topicFilter, bestAllow := some r }
  | .unknown _ => b

variable {e : Effect} {customRules : List ACLRule} {enabledRulesets : List Role}

private theorem Best.rule_record (b : Best) (r : ACLRule) (he : e.Known) :
    (b.record r).rule e = if r.effect = e then some r else b.rule e := by
  rcases he with rfl | rfl <;> cases heff : r.effect <;> simp [record, heff, rule]

private theorem Best.spec_record (b : Best) (r : ACLRule) (he : e.Known) :
    (b.record r).spec e = if r.effect = e then (specificity r.topicFilter : ℤ) else b.spec e := by
  rcases he with rfl | rfl <;> cases heff : r.effect <;> simp [record, heff, spec]

variable (clientID username topic : Text) (action : Action)

/-- The rule is one of the most specific among those with the effect that apply to the request. -/
structure IsBest (rules : List ACLRule) (e : Effect) (r : ACLRule) : Prop where
  mem : r ∈ rules
  effect : r.effect = e
  applies : r.applies clientID username topic action = true
  greatest : ∀ r' ∈ rules, r'.effect = e → r'.applies clientID username topic action = true →
    specificity r'.topicFilter ≤ specificity r.topicFilter

variable {clientID username topic action} in
theorem IsBest.concat {rules : List ACLRule} {r r' : ACLRule}
    (h : IsBest clientID username topic action rules e r)
    (hle : r'.effect = e → r'.applies clientID username topic action = true →
      specificity r'.topicFilter ≤ specificity r.topicFilter) :
    IsBest clientID username topic action (rules ++ [r']) e r := by
  refine ⟨List.mem_append_left _ h.mem, h.effect, h.applies, fun s hs heff happ => ?_⟩
  rcases List.mem_append.1 hs with hs | hs
  · exact h.greatest s hs heff happ
  · rw [List.mem_singleton.1 hs] at heff happ ⊢
    exact hle heff happ

private theorem consider_cases (b : Best) (r : ACLRule) :
    (consider clientID username topic action b r = b.record r ∧
        r.applies clientID username topic action = true ∧
        b.spec r.effect < specificity r.topicFilter) ∨
      (consider clientID username topic action b r = b ∧
        (r.applies clientID username topic action = true → r.effect.Known →
          (specificity r.topicFilter : ℤ) ≤ b.spec r.effect)) := by
  by_cases happ : r.applies clientID username topic action = true
  · cases heff : r.effect with
    | deny =>
      by_cases hlt : (specificity r.topicFilter : ℤ) > b.bestDenySpec
      · exact Or.inl ⟨by simp [consider, happ, heff, hlt, Best.record], happ, hlt⟩
      · exact Or.inr ⟨by simp [consider, heff, hlt], fun _ _ => Int.not_lt.1 hlt⟩
    | allow =>
      by_cases hlt : (specificity r.topicFilter : ℤ) > b.bestAllowSpec
      · exact Or.inl ⟨by simp [consider, happ, heff, hlt, Best.record], happ, hlt⟩
      · exact Or.inr ⟨by simp [consider, heff, hlt], fun _ _ => Int.not_lt.1 hlt⟩
    | unknown text =>
      refine Or.inr ⟨by simp [consider, heff], fun _ hknown => ?_⟩
      rcases hknown with hallow | hdeny
      · cases hallow
      · cases hdeny
  · exact Or.inr ⟨by simp [consider, happ], fun h => absurd h happ⟩

private theorem foldl_consider_spec (rules : List ACLRule) (he : e.Known) :
    ((rules.foldl (consider clientID username topic action) {}).rule e = none ∧
      (rules.foldl (consider clientID username topic action) {}).spec e = -1 ∧
      ∀ r ∈ rules, r.effect = e → ¬ r.applies clientID username topic action) ∨
    ∃ r, (rules.foldl (consider clientID username topic action) {}).rule e = some r ∧
      (rules.foldl (consider clientID username topic action) {}).spec e =
        specificity r.topicFilter ∧
      IsBest clientID username topic action rules e r := by
  induction rules using List.reverseRecOn with
  | nil => rcases he with rfl | rfl <;> exact Or.inl ⟨rfl, rfl, nofun⟩
  | append_singleton rules r ih =>
    rw [List.foldl_append, List.foldl_cons, List.foldl_nil]
    generalize rules.foldl (consider clientID username topic action) {} = b at ih ⊢
    rcases consider_cases clientID username topic action b r with ⟨heq, happ, hlt⟩ | ⟨heq, hle⟩
    · rw [heq, Best.rule_record b r he, Best.spec_record b r he]
      by_cases heff : r.effect = e
      · -- the new rule is more specific than any before it
        rw [if_pos heff, if_pos heff]
        rw [heff] at hlt
        refine Or.inr ⟨r, rfl, rfl, by simp, heff, happ, fun s hs hseff hsapp => ?_⟩
        rcases List.mem_append.1 hs with hs | hs
        · rcases ih with ⟨-, -, hnone⟩ | ⟨r₀, -, hspec, hbest⟩
          · exact absurd hsapp (hnone s hs hseff)
          · have hs₀ := hbest.greatest s hs hseff hsapp
            omega
        · rw [List.mem_singleton.1 hs]
      · rw [if_neg heff, if_neg heff]
        rcases ih with ⟨hrule, hspec, hnone⟩ | ⟨r₀, hrule, hspec, hbest⟩
        · refine Or.inl ⟨hrule, hspec, fun s hs hseff => ?_⟩
          rcases List.mem_append.1 hs with hs | hs
          · exact hnone s hs hseff
          · exact absurd (List.mem_singleton.1 hs ▸ hseff) heff
        · exact Or.inr ⟨r₀, hrule, hspec, hbest.concat fun h => absurd h heff⟩
    · rw [heq]
      rcases ih with ⟨hrule, hspec, hnone⟩ | ⟨r₀, hrule, hspec, hbest⟩
      · refine Or.inl ⟨hrule, hspec, fun s hs hseff hsapp => ?_⟩
        rcases List.mem_append.1 hs with hs | hs
        · exact hnone s hs hseff hsapp
        · obtain rfl := List.mem_singleton.1 hs
          subst hseff
          have hge := hle hsapp he
          omega
      · refine Or.inr ⟨r₀, hrule, hspec, hbest.concat fun heff happ => ?_⟩
        subst heff
        have hge := hle happ he
        omega

private theorem rule_foldl_consider_start (rules : List ACLRule) (he : e.Known) :
    (rules.foldl (consider clientID username topic action) {}).rule e ≠ none ↔
      ∃ r ∈ rules, r.effect = e ∧ r.applies clientID username topic action := by
  rcases foldl_consider_spec clientID username topic action rules he with
    ⟨hrule, -, hnone⟩ | ⟨r, hrule, -, hbest⟩
  · refine iff_of_false (fun h => h hrule) ?_
    rintro ⟨r, hr, heff, happ⟩
    exact hnone r hr heff happ
  · exact iff_of_true (by simp [hrule]) ⟨r, hbest.mem, hbest.effect, hbest.applies⟩

theorem evaluate_deny_iff (enabledRulesets : List Role) (customRules : List ACLRule) :
    (evaluate clientID username topic action enabledRulesets customRules).ExplicitDeny ↔
      ∃ r ∈ enabledRulesets.flatMap Role.rules ++ customRules,
        r.effect = .deny ∧ r.applies clientID username topic action := by
  rw [← rule_foldl_consider_start clientID username topic action _ (Or.inr rfl), evaluate,
    Decision.ExplicitDeny]
  generalize (enabledRulesets.flatMap Role.rules ++ customRules).foldl
    (consider clientID username topic action) {} = b
  obtain ⟨bestDeny, bestAllow, -, -⟩ := b
  cases bestDeny <;> cases bestAllow <;> simp [Best.rule]

theorem evaluate_allow_iff (enabledRulesets : List Role) (customRules : List ACLRule) :
    (evaluate clientID username topic action enabledRulesets customRules).effect = .allow ↔
      (∃ r ∈ enabledRulesets.flatMap Role.rules ++ customRules,
        r.effect = .allow ∧ r.applies clientID username topic action) ∧
      ¬ ∃ r ∈ enabledRulesets.flatMap Role.rules ++ customRules,
        r.effect = .deny ∧ r.applies clientID username topic action := by
  rw [← rule_foldl_consider_start clientID username topic action _ (Or.inl rfl),
    ← rule_foldl_consider_start clientID username topic action _ (Or.inr rfl), evaluate]
  generalize (enabledRulesets.flatMap Role.rules ++ customRules).foldl
    (consider clientID username topic action) {} = b
  obtain ⟨bestDeny, bestAllow, -, -⟩ := b
  cases bestDeny <;> cases bestAllow <;> simp [Best.rule]

private theorem evaluate_cases (enabledRulesets : List Role) (customRules : List ACLRule) :
    let d := evaluate clientID username topic action enabledRulesets customRules
    d.ExplicitDeny ∨ (d.effect = .allow ∧ d.rule ≠ none) ∨ (d.effect = .deny ∧ d.rule = none) := by
  rw [evaluate]
  generalize (enabledRulesets.flatMap Role.rules ++ customRules).foldl
    (consider clientID username topic action) {} = b
  obtain ⟨bestDeny, bestAllow, -, -⟩ := b
  cases bestDeny <;> cases bestAllow <;> simp [Decision.ExplicitDeny]

theorem evaluate_congr {enabledRulesets' : List Role} {customRules' : List ACLRule}
    (h : ∀ r, r ∈ enabledRulesets.flatMap Role.rules ++ customRules ↔
      r ∈ enabledRulesets'.flatMap Role.rules ++ customRules') :
    (evaluate clientID username topic action enabledRulesets customRules).effect =
        (evaluate clientID username topic action enabledRulesets' customRules').effect ∧
      ((evaluate clientID username topic action enabledRulesets customRules).rule = none ↔
        (evaluate clientID username topic action enabledRulesets' customRules').rule = none) := by
  have hdeny := evaluate_deny_iff clientID username topic action enabledRulesets customRules
  have hallow := evaluate_allow_iff clientID username topic action enabledRulesets customRules
  simp only [h] at hdeny hallow
  rw [← evaluate_deny_iff] at hdeny
  rw [← evaluate_allow_iff] at hallow
  have hcases := evaluate_cases clientID username topic action enabledRulesets customRules
  have hcases' := evaluate_cases clientID username topic action enabledRulesets' customRules'
  simp only [Decision.ExplicitDeny] at hdeny hcases hcases'
  rcases hcases with hd | ha | hn <;> rcases hcases' with hd' | ha' | hn' <;> simp_all

theorem isBest_evaluate {r : ACLRule}
    (h : (evaluate clientID username topic action enabledRulesets customRules).rule = some r) :
    IsBest clientID username topic action (enabledRulesets.flatMap Role.rules ++ customRules)
      (evaluate clientID username topic action enabledRulesets customRules).effect r := by
  have hdeny := foldl_consider_spec clientID username topic action
    (enabledRulesets.flatMap Role.rules ++ customRules) (Or.inr rfl)
  have hallow := foldl_consider_spec clientID username topic action
    (enabledRulesets.flatMap Role.rules ++ customRules) (Or.inl rfl)
  rw [evaluate] at h ⊢
  generalize (enabledRulesets.flatMap Role.rules ++ customRules).foldl
    (consider clientID username topic action) {} = b at h hdeny hallow ⊢
  obtain ⟨bestDeny, bestAllow, bestDenySpec, bestAllowSpec⟩ := b
  rcases hdeny with ⟨rfl, -⟩ | ⟨rd, rfl, -, hbest⟩
  · rcases hallow with ⟨rfl, -⟩ | ⟨ra, rfl, -, hbest⟩
    · cases h
    · cases h
      exact hbest
  · cases h
    exact hbest

theorem evaluate_specificity_congr {enabledRulesets' : List Role} {customRules' : List ACLRule}
    (h : ∀ r, r ∈ enabledRulesets.flatMap Role.rules ++ customRules ↔
      r ∈ enabledRulesets'.flatMap Role.rules ++ customRules') :
    (evaluate clientID username topic action enabledRulesets customRules).rule.map
        (fun r => specificity r.topicFilter) =
      (evaluate clientID username topic action enabledRulesets' customRules').rule.map
        (fun r => specificity r.topicFilter) := by
  obtain ⟨heffect, hrule⟩ := evaluate_congr clientID username topic action h
  cases hr : (evaluate clientID username topic action enabledRulesets customRules).rule with
  | none => rw [hrule.1 hr]
  | some r =>
    cases hr' : (evaluate clientID username topic action enabledRulesets' customRules').rule with
    | none => exact absurd (hrule.2 hr') (by simp [hr])
    | some r' =>
      have hbest := isBest_evaluate clientID username topic action hr
      have hbest' := isBest_evaluate clientID username topic action hr'
      rw [← heffect] at hbest'
      have hle := hbest.greatest r' ((h r').2 hbest'.mem) hbest'.effect hbest'.applies
      have hge := hbest'.greatest r ((h r).1 hbest.mem) hbest.effect hbest.applies
      exact congrArg some (Nat.le_antisymm hge hle)

/-- What `Evaluate` decides. A deny comes first, then an allow, then the default without a rule. The
rule is one of the most specific for the decision, and the effect and the specificity depend on
which rules there are, not on where they stand or how often. -/
theorem evaluate_spec (enabledRulesets : List Role) (customRules : List ACLRule) :
    let rules := enabledRulesets.flatMap Role.rules ++ customRules
    let d := evaluate clientID username topic action enabledRulesets customRules
    let matched := fun e => ∃ r ∈ rules, r.effect = e ∧ r.applies clientID username topic action
    (matched .deny → d.effect = .deny ∧ d.rule ≠ none) ∧
    (¬ matched .deny → matched .allow → d.effect = .allow ∧ d.rule ≠ none) ∧
    (¬ matched .deny → ¬ matched .allow → d.effect = .deny ∧ d.rule = none) ∧
    (∀ r, d.rule = some r → IsBest clientID username topic action rules d.effect r) ∧
    ∀ (enabledRulesets' : List Role) (customRules' : List ACLRule),
      (∀ r, r ∈ rules ↔ r ∈ enabledRulesets'.flatMap Role.rules ++ customRules') →
      let d' := evaluate clientID username topic action enabledRulesets' customRules'
      d'.effect = d.effect ∧ d'.rule.map (fun r => specificity r.topicFilter) =
        d.rule.map fun r => specificity r.topicFilter := by
  intro rules d matched
  have hdeny : d.ExplicitDeny ↔ matched .deny :=
    evaluate_deny_iff clientID username topic action enabledRulesets customRules
  have hallow : d.effect = .allow ↔ matched .allow ∧ ¬ matched .deny :=
    evaluate_allow_iff clientID username topic action enabledRulesets customRules
  have hcases : d.ExplicitDeny ∨ (d.effect = .allow ∧ d.rule ≠ none) ∨
      (d.effect = .deny ∧ d.rule = none) :=
    evaluate_cases clientID username topic action enabledRulesets customRules
  refine ⟨hdeny.2, fun hno ha => ?_, fun hno hna => ?_,
    fun r hr => isBest_evaluate clientID username topic action hr, fun roles' rules' h => ?_⟩
  · have heff := hallow.2 ⟨ha, hno⟩
    rcases hcases with hd | ha' | hn
    · exact absurd (hdeny.1 hd) hno
    · exact ha'
    · exact absurd (heff.symm.trans hn.1) (by decide)
  · rcases hcases with hd | ha' | hn
    · exact absurd (hdeny.1 hd) hno
    · exact absurd (hallow.1 ha'.1).1 hna
    · exact hn
  · exact ⟨(evaluate_congr clientID username topic action h).1.symm,
      (evaluate_specificity_congr clientID username topic action h).symm⟩

end Consider

end KeelGateway.Acl
