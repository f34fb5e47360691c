import KeelGateway.Acl.Match

/-!
# The matching relation of MQTT

A filter matches a topic level by level. A literal level matches the equal level, `+` matches any
one level, and a final `#` matches whatever is left, also nothing. Topics whose first level starts
with `$` are kept away from filters that start with a wildcard. The relation is stated here on its
own, without the loop of `MatchTopic`, and the matcher is compared with it.

-/

namespace KeelGateway.Acl

/-- The level is one of the two wildcards. -/
def IsWildcard (l : Text) : Prop := l = ['+'] ∨ l = ['#']

instance (l : Text) : Decidable (IsWildcard l) := inferInstanceAs (Decidable (_ ∨ _))

/-- The levels of a filter match the levels of a topic. -/
inductive LevelsMatch : List Text → List Text → Prop
  | nil : LevelsMatch [] []
  | literal {l : Text} {fs ts : List Text} (hl : ¬ IsWildcard l) (h : LevelsMatch fs ts) :
      LevelsMatch (l :: fs) (l :: ts)
  | plus {fs ts : List Text} (t : Text) (h : LevelsMatch fs ts) :
      LevelsMatch (['+'] :: fs) (t :: ts)
  | hash (ts : List Text) : LevelsMatch [['#']] ts

/-- The filter matches the topic. -/
structure MqttMatch (filter topic : Text) : Prop where
  levels : LevelsMatch (levels filter) (levels topic)
  /-- No wildcard at the start matches a topic whose first level starts with `$`. -/
  dollar : ∀ l ∈ (KeelGateway.levels filter).head?, ∀ t ∈ (KeelGateway.levels topic).head?,
    IsWildcard l → t.head? ≠ some '$'

/-! ### The loop -/

theorem matchLevels_iff_levelsMatch (fs ts : List Text) :
    matchLevels fs ts = true ↔ LevelsMatch fs ts := by
  constructor
  · intro h
    induction fs generalizing ts with
    | nil =>
      rw [matchLevels_nil, List.isEmpty_iff] at h
      exact h ▸ .nil
    | cons f fs ih =>
      by_cases hhash : f = ['#']
      · subst hhash
        rw [matchLevels_hash, List.isEmpty_iff] at h
        exact h ▸ .hash ts
      · cases ts with
        | nil => simp [matchLevels_cons_nil hhash] at h
        | cons t ts =>
          obtain ⟨hlevel, htail⟩ := (matchLevels_cons_cons hhash fs ts t).1 h
          by_cases hplus : f = ['+']
          · exact hplus ▸ .plus t (ih ts htail)
          · obtain rfl := hlevel.resolve_right hplus
            exact .literal (not_or.2 ⟨hplus, hhash⟩) (ih ts htail)
  · intro h
    induction h with
    | nil => rfl
    | literal hl _ ih =>
      rw [matchLevels_literal (fun hhash => hl (Or.inr hhash)) fun hplus => hl (Or.inl hplus), ih]
      simp
    | plus t _ ih => rw [matchLevels_plus, ih]
    | hash ts => exact matchLevels_hash [] ts

instance (fs ts : List Text) : Decidable (LevelsMatch fs ts) :=
  decidable_of_iff _ (matchLevels_iff_levelsMatch fs ts)

instance (filter topic : Text) : Decidable (MqttMatch filter topic) :=
  decidable_of_iff (LevelsMatch (levels filter) (levels topic) ∧
      ∀ l ∈ (levels filter).head?, ∀ t ∈ (levels topic).head?, IsWildcard l → t.head? ≠ some '$')
    ⟨fun h => ⟨h.1, h.2⟩, fun h => ⟨h.levels, h.dollar⟩⟩

theorem LevelsMatch.refl {ls : List Text} (h : ∀ l ∈ ls, ¬ IsWildcard l) : LevelsMatch ls ls := by
  induction ls with
  | nil => exact .nil
  | cons l ls ih =>
    exact .literal (h l List.mem_cons_self) (ih fun l hl => h l (List.mem_cons_of_mem _ hl))

/-! ### Topics of given levels -/

/-- Levels of which a topic name can be made. -/
def TopicLevels (ts : List Text) : Prop := ∀ t ∈ ts, '/' ∉ t ∧ Concrete t

instance (ts : List Text) : Decidable (TopicLevels ts) :=
  inferInstanceAs (Decidable (∀ t ∈ ts, '/' ∉ t ∧ Concrete t))

variable {ts : List Text} {l topic : Text}

theorem TopicLevels.exists_topic (h : TopicLevels ts) (hne : ts ≠ []) :
    ∃ topic, Concrete topic ∧ levels topic = ts := by
  have hlevels : levels (['/'].intercalate ts) = ts :=
    List.splitOn_intercalate '/' (fun t ht => (h t ht).1) hne
  have hchar {c : Char} (hslash : c ≠ '/') (hc : ∀ t ∈ ts, c ∉ t) : c ∉ ['/'].intercalate ts := by
    intro hmem
    obtain ⟨t, ht, hct⟩ := exists_mem_levels hmem hslash
    rw [hlevels] at ht
    exact hc t ht hct
  exact ⟨_, ⟨hchar (by decide) fun t ht => (h t ht).2.1,
    hchar (by decide) fun t ht => (h t ht).2.2⟩, hlevels⟩

/-- The level of a topic that takes the place of a level of a filter: a given one for a wildcard. -/
def exampleLevel (z l : Text) : Text := if IsWildcard l then z else l

theorem exampleLevel_of_not_isWildcard (z : Text) (h : ¬ IsWildcard l) : exampleLevel z l = l :=
  if_neg h

theorem LevelsMatch.map_exampleLevel {fs : List Text} (h : LevelsMatch fs ts) (z : Text) :
    LevelsMatch fs (fs.map (exampleLevel z)) := by
  induction h with
  | nil => exact .nil
  | literal hl _ ih =>
    rw [List.map_cons, exampleLevel_of_not_isWildcard z hl]
    exact .literal hl ih
  | plus _ _ ih => exact .plus _ ih
  | hash _ => exact .hash _

theorem LevelsMatch.mem_of_literal {fs : List Text} (h : LevelsMatch fs ts) (hl : l ∈ fs)
    (hliteral : ¬ IsWildcard l) : l ∈ ts := by
  induction h with
  | nil => cases hl
  | literal _ _ ih =>
    rcases List.mem_cons.1 hl with rfl | hl
    · exact List.mem_cons_self
    · exact List.mem_cons_of_mem _ (ih hl)
  | plus _ _ ih =>
    rcases List.mem_cons.1 hl with rfl | hl
    · exact absurd (Or.inl rfl) hliteral
    · exact List.mem_cons_of_mem _ (ih hl)
  | hash _ => exact absurd (Or.inr (List.mem_singleton.1 hl)) hliteral

theorem MqttMatch.exists_example {filter z : Text} (h : MqttMatch filter topic)
    (htopic : Concrete topic) (hz : '/' ∉ z ∧ Concrete z) (hdollar : z.head? ≠ some '$') :
    ∃ topic', Concrete topic' ∧ MqttMatch filter topic' ∧
      KeelGateway.levels topic' = (KeelGateway.levels filter).map (exampleLevel z) := by
  have hlevels : TopicLevels ((KeelGateway.levels filter).map (exampleLevel z)) := by
    refine List.forall_mem_map.2 fun l hl => ?_
    by_cases hwild : IsWildcard l
    · rwa [exampleLevel, if_pos hwild]
    · have hmem := h.levels.mem_of_literal hl hwild
      rw [exampleLevel_of_not_isWildcard z hwild]
      exact ⟨notMem_of_mem_levels hl, fun hc => htopic.1 (mem_of_mem_levels hmem hc),
        fun hc => htopic.2 (mem_of_mem_levels hmem hc)⟩
  obtain ⟨topic', hconcrete, htopic'⟩ :=
    hlevels.exists_topic fun hnil => levels_ne_nil filter (List.map_eq_nil_iff.1 hnil)
  refine ⟨topic', hconcrete, ⟨?_, fun l hl t ht hwild => ?_⟩, htopic'⟩
  · rw [htopic']
    exact h.levels.map_exampleLevel z
  · rw [htopic', List.head?_map, Option.mem_def.1 hl] at ht
    cases ht
    rwa [exampleLevel, if_pos hwild]

/-! ### The matcher -/

theorem not_isWildcard_of_concrete (h : Concrete topic) (hl : l ∈ levels topic) :
    ¬ IsWildcard l := by
  rintro (rfl | rfl)
  · exact h.1 (mem_of_mem_levels hl (List.mem_singleton_self _))
  · exact h.2 (mem_of_mem_levels hl (List.mem_singleton_self _))

theorem dollarGuard_eq_false_iff {filter : Text} :
    dollarGuard (levels filter) (levels topic) = false ↔
      ∀ l ∈ (levels filter).head?, ∀ t ∈ (levels topic).head?,
        IsWildcard l → t.head? ≠ some '$' := by
  obtain ⟨f, fs, hf⟩ := List.exists_cons_of_ne_nil (levels_ne_nil filter)
  obtain ⟨t, ts, ht⟩ := List.exists_cons_of_ne_nil (levels_ne_nil topic)
  have hdollar : ['$'].isPrefixOf t = true ↔ t.head? = some '$' := by
    cases t with
    | nil => simp
    | cons c t => simp [eq_comm (a := '$')]
  -- a level that starts with a dollar sign is no wildcard
  have hne (hhead : t.head? = some '$') (hwild : IsWildcard f) : f ≠ t := by
    rintro rfl
    rcases hwild with rfl | rfl <;> simp at hhead
  rw [hf, ht, ← Bool.not_eq_true]
  simp only [dollarGuard, Bool.and_eq_true, Bool.or_eq_true, decide_eq_true_eq, hdollar,
    List.head?_cons, Option.mem_some_iff, forall_eq']
  constructor
  · intro h hwild hhead
    exact h ⟨hhead, hne hhead hwild, hwild.symm⟩
  · rintro h ⟨hhead, -, hwild⟩
    exact h hwild.symm hhead

/-- On topic names the matcher is the matching relation of MQTT. -/
theorem matchTopic_iff_mqttMatch {topic : Text} (htopic : Concrete topic) (filter : Text) :
    matchTopic filter topic = true ↔ MqttMatch filter topic := by
  by_cases heq : filter = topic
  · -- the exact-match shortcut: such a filter has no wildcards
    subst heq
    have hliteral := fun l => not_isWildcard_of_concrete htopic (l := l)
    refine iff_of_true (matchTopic_self filter) ⟨.refl hliteral, fun l hl _ _ hwild => ?_⟩
    exact absurd hwild (hliteral l (List.mem_of_mem_head? hl))
  · cases hguard : dollarGuard (levels filter) (levels topic) with
    | true =>
      have hdollar := mt dollarGuard_eq_false_iff.2 (by rw [hguard]; decide)
      refine iff_of_false ?_ fun h => hdollar h.dollar
      simp [matchTopic, heq, hguard]
    | false =>
      rw [matchTopic_eq_matchLevels heq hguard, matchLevels_iff_levelsMatch]
      exact ⟨fun h => ⟨h, dollarGuard_eq_false_iff.1 hguard⟩, MqttMatch.levels⟩

/-- The filter `a/#` matches its parent level `a`. -/
theorem mqttMatch_parent_level : MqttMatch "a/#".toList "a".toList :=
  (matchTopic_iff_mqttMatch (by decide) _).1 (by decide)

end KeelGateway.Acl
