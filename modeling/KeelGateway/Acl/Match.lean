import Mathlib.Algebra.Ring.Nat
import KeelGateway.Text

/-!
# Topic matching of the ACL engine

`MatchTopic` decides whether a filter covers a topic. The ACL rules, the offline delivery path
and the retained-message store all use it. `SharedFilter` splits a shared subscription
`$share/<group>/<filter>`.

-/

namespace KeelGateway.Acl

/-- `SharedFilter`: the group and the underlying filter, or nothing when the filter is not a
well-formed shared subscription. -/
def sharedFilter (filter : Text) : Option (Text × Text) :=
  match splitN 3 filter with
  | [share, group, topicFilter] =>
    if !equalFoldShare share ∨ group = [] ∨ topicFilter = [] then none
    else some (group, topicFilter)
  | _ => none

/-- The loop of `MatchTopic` over the levels of the filter and of the topic that are left. -/
def matchLevels : List Text → List Text → Bool
  | [], tParts => tParts.isEmpty
  | f :: fParts, tParts =>
    if f = ['#'] then fParts.isEmpty
    else
      match tParts with
      | [] => false
      | t :: tParts =>
        if f = ['+'] then matchLevels fParts tParts
        else if f ≠ t then false
        else matchLevels fParts tParts

/-- A wildcard first level of the filter does not cover a topic whose first level starts
with `$`. -/
def dollarGuard (fParts tParts : List Text) : Bool :=
  match fParts, tParts with
  | f :: _, t :: _ =>
    ['$'].isPrefixOf t && (f ≠ t && (f = ['#'] || f = ['+']))
  | [], t :: _ => ['$'].isPrefixOf t
  | _, [] => false

/-- `MatchTopic`. -/
def matchTopic (filter topic : Text) : Bool :=
  if filter = topic then true
  else if dollarGuard (levels filter) (levels topic) then false
  else matchLevels (levels filter) (levels topic)

/-- The score of one level of a filter. -/
def levelScore (p : Text) : ℕ := if p = ['#'] then 1 else if p = ['+'] then 10 else 100

/-- `specificity`: the sum of the scores of the levels. -/
def specificity (filter : Text) : ℕ := ((levels filter).map levelScore).sum

/-! ### The loop -/

@[simp] theorem matchLevels_nil (ts : List Text) : matchLevels [] ts = ts.isEmpty := rfl

@[simp] theorem matchLevels_hash (fs ts : List Text) :
    matchLevels (['#'] :: fs) ts = fs.isEmpty := by
  cases ts <;> simp [matchLevels]

@[simp] theorem matchLevels_plus (fs ts : List Text) (t : Text) :
    matchLevels (['+'] :: fs) (t :: ts) = matchLevels fs ts := by
  simp [matchLevels]

theorem matchLevels_literal {f : Text} (hf : f ≠ ['#']) (hf' : f ≠ ['+']) (fs ts : List Text)
    (t : Text) : matchLevels (f :: fs) (t :: ts) = (f = t && matchLevels fs ts) := by
  by_cases h : f = t
  · subst h
    simp [matchLevels, hf]
  · simp [matchLevels, hf, hf']

theorem matchLevels_cons_nil {f : Text} (hf : f ≠ ['#']) (fs : List Text) :
    matchLevels (f :: fs) [] = false := by
  simp [matchLevels, hf]

/-- One level of the loop. -/
theorem matchLevels_cons_cons {f : Text} (hf : f ≠ ['#']) (fs ts : List Text) (t : Text) :
    matchLevels (f :: fs) (t :: ts) = true ↔ (f = t ∨ f = ['+']) ∧ matchLevels fs ts = true := by
  by_cases hf' : f = ['+']
  · simp [hf']
  · simp [matchLevels_literal hf hf', hf']

theorem matchLevels_nil_right (fs : List Text) :
    matchLevels fs [] = true ↔ fs = [] ∨ fs = [['#']] := by
  cases fs with
  | nil => simp
  | cons f fs =>
    by_cases hf : f = ['#']
    · simp [hf]
    · simp [matchLevels_cons_nil hf, hf]

theorem matchLevels_eq_of_literal {fs : List Text} (h : ∀ f ∈ fs, f ≠ ['#'] ∧ f ≠ ['+'])
    (ts : List Text) : matchLevels fs ts = decide (fs = ts) := by
  induction fs generalizing ts with
  | nil => cases ts <;> simp
  | cons f fs ih =>
    obtain ⟨hf, hf'⟩ := h f List.mem_cons_self
    have hfs : ∀ g ∈ fs, g ≠ ['#'] ∧ g ≠ ['+'] := fun g hg => h g (List.mem_cons_of_mem _ hg)
    cases ts with
    | nil => simp [matchLevels_cons_nil hf]
    | cons t ts => rw [matchLevels_literal hf hf', ih hfs]; simp

theorem matchLevels_append_hash {fs : List Text} (h : ∀ f ∈ fs, f ≠ ['#'] ∧ f ≠ ['+'])
    (ts : List Text) : matchLevels (fs ++ [['#']]) (fs ++ ts) = true := by
  induction fs with
  | nil => simp
  | cons f fs ih =>
    obtain ⟨hf, hf'⟩ := h f List.mem_cons_self
    rw [List.cons_append, List.cons_append, matchLevels_literal hf hf',
      ih fun g hg => h g (List.mem_cons_of_mem _ hg)]
    simp

/-! ### The matcher -/

@[simp] theorem matchTopic_self (t : Text) : matchTopic t t = true := by
  simp [matchTopic]

theorem matchTopic_eq_matchLevels {filter topic : Text} (h : filter ≠ topic)
    (hd : dollarGuard (levels filter) (levels topic) = false) :
    matchTopic filter topic = matchLevels (levels filter) (levels topic) := by
  simp [matchTopic, h, hd]

end KeelGateway.Acl
