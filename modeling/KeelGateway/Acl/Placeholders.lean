import KeelGateway.Acl.Evaluate
import KeelGateway.Acl.MqttMatch

/-!
# Placeholders of rules

The filter of a rule may hold `%c` and `%u` for the client ID and the username of the connection.
They are meant to stand for these texts literally: a level with a placeholder is the level of one
client. The rule is resolved by two passes over the whole filter, and the result is then read as a
filter. An identifier that is a wildcard or holds a slash is therefore read as such, and a client ID
can even bring in a placeholder of its own.

-/

namespace KeelGateway.Acl

/-! ### Two passes and one -/

section Replace

variable {a b : Char} {new : Text}

theorem replaceAll_pair (rest : Text) :
    replaceAll a b new (a :: b :: rest) = new ++ replaceAll a b new rest := by
  simp [replaceAll]

theorem replaceAll_cons {x : Char} {rest : Text} (h : x = a → rest.head? ≠ some b) :
    replaceAll a b new (x :: rest) = x :: replaceAll a b new rest := by
  cases rest with
  | nil => simp [replaceAll]
  | cons y rest =>
    have hpair : ¬ (x = a ∧ y = b) := fun ⟨hx, hy⟩ => h hx (by rw [hy]; rfl)
    rw [replaceAll, if_neg hpair]

theorem replaceAll_slash (ha : a ≠ '/') (hb : b ≠ '/') (t rest : Text) :
    replaceAll a b new (t ++ '/' :: rest) =
      replaceAll a b new t ++ '/' :: replaceAll a b new rest := by
  induction t using replaceAll.induct (a := a) (b := b) with
  | case1 x y t hpair ih =>
    obtain ⟨rfl, rfl⟩ := hpair
    rw [List.cons_append, List.cons_append, replaceAll_pair, ih, replaceAll_pair,
      List.append_assoc]
  | case2 x y t hpair ih =>
    have hhead (s : Text) : x = a → (y :: s).head? ≠ some b :=
      fun hx hy => hpair ⟨hx, by simpa using hy⟩
    rw [List.cons_append] at ih
    rw [List.cons_append, List.cons_append, replaceAll_cons (hhead (t ++ '/' :: rest)), ih,
      replaceAll_cons (hhead t), List.cons_append]
  | case3 t hshort =>
    cases t with
    | nil => exact replaceAll_cons fun h => absurd h.symm ha
    | cons x t =>
      cases t with
      | nil =>
        rw [List.singleton_append, replaceAll_cons fun _ => by simpa using hb.symm,
          replaceAll_cons fun h => absurd h.symm ha]
        rfl
      | cons y t => exact absurd rfl (hshort x y t)

end Replace

section Substitute

variable (clientID username : Text)

/-- The template with the client ID for every `%c` and the username for every `%u`. -/
def substitute : Text → Text
  | x :: y :: rest =>
    if x = '%' ∧ y = 'c' then clientID ++ substitute rest
    else if x = '%' ∧ y = 'u' then username ++ substitute rest
    else x :: substitute (y :: rest)
  | t => t

@[simp] theorem substitute_nil : substitute clientID username [] = [] := by
  simp [substitute]

private theorem substitute_client (rest : Text) :
    substitute clientID username ('%' :: 'c' :: rest) =
      clientID ++ substitute clientID username rest := by
  simp [substitute]

private theorem substitute_user (rest : Text) :
    substitute clientID username ('%' :: 'u' :: rest) =
      username ++ substitute clientID username rest := by
  simp [substitute]

/-- The character starts no placeholder. -/
def Inert (x : Char) (rest : Text) : Prop :=
  x = '%' → rest.head? ≠ some 'c' ∧ rest.head? ≠ some 'u'

variable {x : Char} {t : Text}

theorem substitute_cons {rest : Text} (h : Inert x rest) :
    substitute clientID username (x :: rest) = x :: substitute clientID username rest := by
  cases rest with
  | nil => simp [substitute]
  | cons y rest =>
    have hclient : ¬ (x = '%' ∧ y = 'c') := fun ⟨hx, hy⟩ => (h hx).1 (by rw [hy]; rfl)
    have huser : ¬ (x = '%' ∧ y = 'u') := fun ⟨hx, hy⟩ => (h hx).2 (by rw [hy]; rfl)
    rw [substitute, if_neg hclient, if_neg huser]

@[elab_as_elim]
theorem placeholderInduction {motive : Text → Prop} (nil : motive [])
    (client : ∀ rest, motive rest → motive ('%' :: 'c' :: rest))
    (user : ∀ rest, motive rest → motive ('%' :: 'u' :: rest))
    (char : ∀ x rest, Inert x rest → motive rest → motive (x :: rest)) (t : Text) : motive t := by
  induction t using substitute.induct with
  | case1 x y rest h ih => exact h.1 ▸ h.2 ▸ client rest ih
  | case2 x y rest _ h ih => exact h.1 ▸ h.2 ▸ user rest ih
  | case3 x y rest hclient huser ih =>
    refine char x (y :: rest) (fun hx => ?_) ih
    exact ⟨fun hy => hclient ⟨hx, by simpa using hy⟩, fun hy => huser ⟨hx, by simpa using hy⟩⟩
  | case4 t h =>
    cases t with
    | nil => exact nil
    | cons x rest =>
      cases rest with
      | nil => exact char x [] (fun _ => by simp) nil
      | cons y rest => exact absurd rfl (h x y rest)

theorem substitute_of_notMem (h : '%' ∉ t) : substitute clientID username t = t := by
  induction t with
  | nil => exact substitute_nil clientID username
  | cons x t ih =>
    have hx : x ≠ '%' := fun hx => h (hx ▸ List.mem_cons_self)
    rw [substitute_cons clientID username fun hp => absurd hp hx,
      ih fun hp => h (List.mem_cons_of_mem _ hp)]

/-! ### What the client ID brings in -/

/-- A character, or a `%u` of the template. -/
inductive Piece where
  | char (x : Char)
  | user
  deriving DecidableEq

/-- The template with the client ID put in. The `%u` of the template are kept apart from those that
are made of other characters. -/
def pieces : Text → List Piece
  | x :: y :: rest =>
    if x = '%' ∧ y = 'c' then clientID.map .char ++ pieces rest
    else if x = '%' ∧ y = 'u' then .user :: pieces rest
    else .char x :: pieces (y :: rest)
  | t => t.map .char

/-- The text of the pieces, with the given one for `%u`. -/
def fill (ps : List Piece) : Text :=
  ps.flatMap fun
    | .char x => [x]
    | .user => username

/-- Somewhere `%u` is made of other characters than a `%u` of the template. -/
def Stray (ps : List Piece) : Prop := [.char '%', .char 'u'] <:+: ps

instance (ps : List Piece) : Decidable (Stray ps) := inferInstanceAs (Decidable (_ <:+: _))

@[simp] theorem fill_char (x : Char) (ps : List Piece) :
    fill username (.char x :: ps) = x :: fill username ps := rfl

@[simp] theorem fill_user (ps : List Piece) :
    fill username (.user :: ps) = username ++ fill username ps := rfl

theorem fill_map_char (t : Text) (ps : List Piece) :
    fill username (t.map .char ++ ps) = t ++ fill username ps := by
  induction t with
  | nil => rfl
  | cons x t ih => rw [List.map_cons, List.cons_append, fill_char, ih, List.cons_append]

theorem pieces_client (rest : Text) :
    pieces clientID ('%' :: 'c' :: rest) = clientID.map .char ++ pieces clientID rest := by
  simp [pieces]

theorem pieces_user (rest : Text) :
    pieces clientID ('%' :: 'u' :: rest) = .user :: pieces clientID rest := by
  simp [pieces]

theorem pieces_cons {rest : Text} (h : Inert x rest) :
    pieces clientID (x :: rest) = .char x :: pieces clientID rest := by
  cases rest with
  | nil => simp [pieces]
  | cons y rest =>
    have hclient : ¬ (x = '%' ∧ y = 'c') := fun ⟨hx, hy⟩ => (h hx).1 (by rw [hy]; rfl)
    have huser : ¬ (x = '%' ∧ y = 'u') := fun ⟨hx, hy⟩ => (h hx).2 (by rw [hy]; rfl)
    rw [pieces, if_neg hclient, if_neg huser]

theorem substitute_eq_fill (t : Text) :
    substitute clientID username t = fill username (pieces clientID t) := by
  induction t using placeholderInduction with
  | nil => simp [pieces, fill]
  | client rest ih => rw [substitute_client, pieces_client, fill_map_char, ih]
  | user rest ih => rw [substitute_user, pieces_user, fill_user, ih]
  | char x rest hinert ih =>
    rw [substitute_cons clientID username hinert, pieces_cons clientID hinert, fill_char, ih]

theorem replaceAll_eq_fill (t : Text) :
    replaceAll '%' 'c' clientID t = fill ['%', 'u'] (pieces clientID t) := by
  induction t using placeholderInduction with
  | nil => simp [pieces, fill, replaceAll]
  | client rest ih => rw [replaceAll_pair, pieces_client, fill_map_char, ih]
  | user rest ih =>
    rw [replaceAll_cons (by simp), replaceAll_cons (by simp), pieces_user, fill_user, ih]
    rfl
  | char x rest hinert ih =>
    rw [replaceAll_cons fun hx => (hinert hx).1, pieces_cons clientID hinert, fill_char, ih]

@[elab_as_elim]
theorem pieceInduction {motive : List Piece → Prop} (nil : motive [])
    (user : ∀ ps, motive ps → motive (.user :: ps))
    (stray : ∀ ps, motive ps → motive (.char '%' :: .char 'u' :: ps))
    (char : ∀ x ps, (x = '%' → ps.head? ≠ some (.char 'u')) → motive ps → motive (.char x :: ps))
    (ps : List Piece) : motive ps := by
  induction hn : ps.length using Nat.strong_induction_on generalizing ps with
  | _ n ih =>
    cases ps with
    | nil => exact nil
    | cons p ps =>
      rw [List.length_cons] at hn
      have hps : motive ps := ih ps.length (by omega) ps rfl
      cases p with
      | user => exact user ps hps
      | char x =>
        by_cases hstray : x = '%' ∧ ps.head? = some (.char 'u')
        · obtain ⟨rfl, hhead⟩ := hstray
          obtain ⟨ps, rfl⟩ := List.head?_eq_some_iff.1 hhead
          rw [List.length_cons] at hn
          exact stray ps (ih ps.length (by omega) ps rfl)
        · exact char x ps (fun hx hhead => hstray ⟨hx, hhead⟩) hps

/-! ### The second pass -/

variable {ps : List Piece}

/-- The second pass over pieces. -/
theorem replaceAll_fill_char (h : x = '%' → ps.head? ≠ some (.char 'u')) :
    replaceAll '%' 'u' username (fill ['%', 'u'] (.char x :: ps)) =
      x :: replaceAll '%' 'u' username (fill ['%', 'u'] ps) := by
  rw [fill_char, replaceAll_cons]
  intro hx
  cases ps with
  | nil => simp [fill]
  | cons p ps =>
    cases p with
    | user => simp
    | char y => simpa using h hx

theorem replaceAll_fill_user (ps : List Piece) :
    replaceAll '%' 'u' username (fill ['%', 'u'] (.user :: ps)) =
      username ++ replaceAll '%' 'u' username (fill ['%', 'u'] ps) :=
  replaceAll_pair _

theorem replaceAll_fill_stray (ps : List Piece) :
    replaceAll '%' 'u' username (fill ['%', 'u'] (.char '%' :: .char 'u' :: ps)) =
      username ++ replaceAll '%' 'u' username (fill ['%', 'u'] ps) :=
  replaceAll_pair _

theorem stray_cons {p : Piece} :
    Stray (p :: ps) ↔ (p = .char '%' ∧ ps.head? = some (.char 'u')) ∨ Stray ps := by
  rw [Stray, Stray, List.infix_cons_iff, List.cons_prefix_cons, eq_comm]
  cases ps with
  | nil => simp
  | cons q ps => simp [List.cons_prefix_cons, eq_comm]

theorem replaceAll_fill (h : ¬ Stray ps) :
    replaceAll '%' 'u' username (fill ['%', 'u'] ps) = fill username ps := by
  induction ps using pieceInduction with
  | nil => rfl
  | user ps ih => rw [replaceAll_fill_user, ih fun hps => h (stray_cons.2 (Or.inr hps)), fill_user]
  | stray ps ih => exact absurd (stray_cons.2 (Or.inl ⟨rfl, rfl⟩)) h
  | char x ps hchar ih =>
    rw [replaceAll_fill_char username hchar, ih fun hps => h (stray_cons.2 (Or.inr hps)),
      fill_char]

theorem length_replaceAll_fill_le (h : username.length ≤ 2) (ps : List Piece) :
    (replaceAll '%' 'u' username (fill ['%', 'u'] ps)).length ≤ (fill username ps).length := by
  induction ps using pieceInduction with
  | nil => exact Nat.zero_le _
  | user ps ih =>
    rw [replaceAll_fill_user, fill_user, List.length_append, List.length_append]
    omega
  | stray ps ih =>
    rw [replaceAll_fill_stray, fill_char, fill_char, List.length_append, List.length_cons,
      List.length_cons]
    omega
  | char x ps hchar ih =>
    rw [replaceAll_fill_char username hchar, fill_char, List.length_cons, List.length_cons]
    omega

theorem not_fill_prefix_replaceAll (hname : ¬ ['%', 'u'] <+: username) (h : Stray ps) :
    ¬ fill username ps <+: replaceAll '%' 'u' username (fill ['%', 'u'] ps) := by
  induction ps using pieceInduction with
  | nil => exact absurd h (by decide)
  | user ps ih =>
    rw [replaceAll_fill_user, fill_user, List.prefix_append_right_inj]
    exact ih ((stray_cons.1 h).resolve_left fun hp => nomatch hp.1)
  | stray ps ih =>
    rw [replaceAll_fill_stray, fill_char, fill_char]
    intro hprefix
    by_cases hlong : 2 ≤ username.length
    · -- the username itself starts with the stray `%u`
      have hstart : ['%', 'u'] <+: username ++ replaceAll '%' 'u' username (fill ['%', 'u'] ps) :=
        List.IsPrefix.trans ⟨fill username ps, rfl⟩ hprefix
      exact hname (List.prefix_of_prefix_length_le hstart (List.prefix_append _ _) hlong)
    · have hle := length_replaceAll_fill_le username (by omega) ps
      have hlength := hprefix.length_le
      rw [List.length_append, List.length_cons, List.length_cons] at hlength
      omega
  | char x ps hchar ih =>
    rw [replaceAll_fill_char username hchar, fill_char, List.cons_prefix_cons]
    refine fun hprefix => ih ((stray_cons.1 h).resolve_left ?_) hprefix.2
    rintro ⟨hx, hhead⟩
    exact hchar (Piece.char.inj hx) hhead

/-! ### Both passes -/

/-- The two passes of `resolvedFilter`. -/
def resolve (t : Text) : Text := replaceAll '%' 'u' username (replaceAll '%' 'c' clientID t)

variable {clientID username}

theorem resolve_eq_substitute (h : ¬ Stray (pieces clientID t)) :
    resolve clientID username t = substitute clientID username t := by
  rw [resolve, replaceAll_eq_fill, replaceAll_fill username h, substitute_eq_fill]

theorem not_substitute_prefix_resolve (hname : ¬ ['%', 'u'] <+: username)
    (h : Stray (pieces clientID t)) :
    ¬ substitute clientID username t <+: resolve clientID username t := by
  rw [resolve, replaceAll_eq_fill, substitute_eq_fill]
  exact not_fill_prefix_replaceAll username hname h

theorem levels_resolve (t : Text) :
    levels (resolve clientID username t) =
      (levels t).flatMap fun l => levels (resolve clientID username l) := by
  induction t using levelInduction with
  | level l hl => rw [levels_of_notMem hl, List.flatMap_singleton]
  | slash l rest hl ih =>
    have hslash : resolve clientID username (l ++ '/' :: rest) =
        resolve clientID username l ++ '/' :: resolve clientID username rest := by
      rw [resolve, replaceAll_slash (by decide) (by decide),
        replaceAll_slash (by decide) (by decide), resolve, resolve]
    rw [hslash, levels_slash, ih, levels_append_slash hl, List.flatMap_cons]

/-- A wildcard of the template stays. -/
theorem resolve_of_isWildcard {l : Text} (h : IsWildcard l) : resolve clientID username l = l := by
  rcases h with rfl | rfl <;> rfl

end Substitute

/-! ### Templates -/

section Template

variable (clientID username : Text)

/-- The levels of a template match the levels of a topic. A level that is no wildcard matches the
text that the identifiers make of it; by `substitute_of_notMem` that is the level itself if it holds
no placeholder. -/
inductive TemplateMatch : List Text → List Text → Prop
  | nil : TemplateMatch [] []
  | level {l : Text} {ls ts : List Text} (hl : ¬ IsWildcard l) (h : TemplateMatch ls ts) :
      TemplateMatch (l :: ls) (substitute clientID username l :: ts)
  | plus {ls ts : List Text} (t : Text) (h : TemplateMatch ls ts) :
      TemplateMatch (['+'] :: ls) (t :: ts)
  | hash (ts : List Text) : TemplateMatch [['#']] ts

variable {clientID username} {l : Text} {ls ts : List Text}

theorem TemplateMatch.level_eq {t : Text} (hl : ¬ IsWildcard l)
    (h : TemplateMatch clientID username (l :: ls) (t :: ts)) :
    t = substitute clientID username l ∧ TemplateMatch clientID username ls ts := by
  cases h with
  | level _ h => exact ⟨rfl, h⟩
  | plus _ _ => exact absurd (Or.inl rfl) hl
  | hash _ => exact absurd (Or.inr rfl) hl

variable (clientID username)

/-- A level of a template in which the two passes and the matcher take the identifiers literally. -/
structure LiteralLevel (l : Text) : Prop where
  /-- The identifiers make one level of it. -/
  slash : '/' ∉ substitute clientID username l
  /-- They make no wildcard of it. -/
  wildcard : IsWildcard (substitute clientID username l) → IsWildcard l
  /-- The client ID brings in no `%u`, by itself or with the characters next to it. -/
  stray : ¬ Stray (pieces clientID l)

instance (l : Text) : Decidable (LiteralLevel clientID username l) :=
  decidable_of_iff ('/' ∉ substitute clientID username l ∧
      (IsWildcard (substitute clientID username l) → IsWildcard l) ∧ ¬ Stray (pieces clientID l))
    ⟨fun h => ⟨h.1, h.2.1, h.2.2⟩, fun h => ⟨h.slash, h.wildcard, h.stray⟩⟩

/-- Identifiers that are taken literally in a template. -/
def LiteralIdentifiers (template : Text) : Prop :=
  ∀ l ∈ levels template, LiteralLevel clientID username l

instance (template : Text) : Decidable (LiteralIdentifiers clientID username template) :=
  inferInstanceAs (Decidable (∀ l ∈ levels template, LiteralLevel clientID username l))

/-- With the identifiers put in, the rule only matches topics that its template matches. -/
def StaysInTemplate (r : ACLRule) : Prop :=
  ∀ topic, Concrete topic → matchTopic (r.resolvedFilter clientID username) topic = true →
    TemplateMatch clientID username (levels r.topicFilter) (levels topic)

variable {clientID username}

theorem templateMatch_of_levelsMatch
    (hwild : ∀ l ∈ ls, ¬ IsWildcard l → ¬ IsWildcard (substitute clientID username l))
    (h : LevelsMatch (ls.map (substitute clientID username)) ts) :
    TemplateMatch clientID username ls ts := by
  induction ls generalizing ts with
  | nil =>
    cases h
    exact .nil
  | cons l ls ih =>
    have htail := fun l' hl' => hwild l' (List.mem_cons_of_mem _ hl')
    rw [List.map_cons] at h
    generalize hmap : ls.map (substitute clientID username) = ls' at h
    by_cases hl : IsWildcard l
    · have hpercent : '%' ∉ l := by rcases hl with rfl | rfl <;> decide
      rw [substitute_of_notMem _ _ hpercent] at h
      cases h with
      | literal hliteral _ => exact absurd hl hliteral
      | plus t h => exact .plus t (ih htail (hmap ▸ h))
      | hash ts =>
        rw [List.map_eq_nil_iff.1 hmap]
        exact .hash ts
    · generalize hlevel : substitute clientID username l = l' at h
      have hl' : ¬ IsWildcard l' := hlevel ▸ hwild l List.mem_cons_self hl
      cases h with
      | literal _ h => exact hlevel ▸ .level hl (ih htail (hmap ▸ h))
      | plus _ _ => exact absurd (Or.inl rfl) hl'
      | hash _ => exact absurd (Or.inr rfl) hl'

theorem LiteralLevel.levels_resolve (h : LiteralLevel clientID username l) :
    levels (resolve clientID username l) = [substitute clientID username l] := by
  rw [resolve_eq_substitute h.stray, levels_of_notMem h.slash]

theorem LiteralIdentifiers.levels_resolve {template : Text}
    (h : LiteralIdentifiers clientID username template) :
    levels (resolve clientID username template) =
      (levels template).map (substitute clientID username) := by
  rw [KeelGateway.Acl.levels_resolve, ← List.flatMap_singleton' ((levels template).map _),
    List.flatMap_map]
  exact List.flatMap_congr fun l hl => (h l hl).levels_resolve

private theorem literalLevel_of_isWildcard (h : IsWildcard l) :
    LiteralLevel clientID username l := by
  have hpercent : '%' ∉ l := by rcases h with rfl | rfl <;> decide
  have hlevel : substitute clientID username l = l := substitute_of_notMem _ _ hpercent
  refine ⟨?_, fun _ => h, ?_⟩
  · rw [hlevel]
    rcases h with rfl | rfl <;> decide
  · rcases h with rfl | rfl
    · exact (by decide : ¬ Stray [.char '+'])
    · exact (by decide : ¬ Stray [.char '#'])

theorem literalLevel_of_templateMatch (hname : ¬ ['%', 'u'] <+: username) {z : Text}
    (hz : ∀ l ∈ ls, substitute clientID username l ≠ z)
    (h : TemplateMatch clientID username ls
      ((ls.flatMap fun l => levels (resolve clientID username l)).map (exampleLevel z))) :
    ∀ l ∈ ls, LiteralLevel clientID username l := by
  induction ls with
  | nil => exact nofun
  | cons l ls ih =>
    have htail := fun l' hl' => hz l' (List.mem_cons_of_mem _ hl')
    rw [List.flatMap_cons, List.map_append] at h
    by_cases hl : IsWildcard l
    · have hlevels : levels (resolve clientID username l) = [l] := by
        rw [resolve_of_isWildcard hl]
        rcases hl with rfl | rfl <;> rfl
      rw [hlevels, List.map_singleton, List.singleton_append, exampleLevel, if_pos hl] at h
      refine List.forall_mem_cons.2 ⟨literalLevel_of_isWildcard hl, ?_⟩
      cases h with
      | level hliteral _ => exact absurd hl hliteral
      | plus _ h => exact ih htail h
      | hash _ => exact nofun
    · -- the first level that the passes make of it is the one that is meant
      obtain ⟨t, ts, ht⟩ := List.exists_cons_of_ne_nil (levels_ne_nil (resolve clientID username l))
      rw [ht, List.map_cons, List.cons_append] at h
      obtain ⟨hlevel, h⟩ := h.level_eq hl
      have hliteral : ¬ IsWildcard t := by
        intro hwild
        rw [exampleLevel, if_pos hwild] at hlevel
        exact hz l List.mem_cons_self hlevel.symm
      rw [exampleLevel_of_not_isWildcard z hliteral] at hlevel
      have hprefix : substitute clientID username l <+: resolve clientID username l := by
        rw [← hlevel]
        rcases levels_eq_cons ht with ⟨heq, -⟩ | ⟨rest, heq, -⟩
        · exact ⟨[], by rw [List.append_nil, heq]⟩
        · exact ⟨'/' :: rest, heq.symm⟩
      have hfirst : LiteralLevel clientID username l := by
        refine ⟨?_, fun hwild => absurd (hlevel ▸ hwild) hliteral, fun hstray =>
          not_substitute_prefix_resolve hname hstray hprefix⟩
        rw [← hlevel]
        exact notMem_of_mem_levels (ht ▸ List.mem_cons_self)
      have hts : ts = [] := (List.cons.inj (ht.symm.trans hfirst.levels_resolve)).2
      rw [hts] at h
      exact List.forall_mem_cons.2 ⟨hfirst, ih htail h⟩

theorem exists_fresh_level (ls : List Text) :
    ∃ z : Text, ('/' ∉ z ∧ Concrete z) ∧ z.head? ≠ some '$' ∧ z ∉ ls := by
  have hmem {c : Char} (hc : c ≠ 'x') : c ∉ List.replicate (ls.flatten.length + 1) 'x' :=
    fun h => hc (List.eq_of_mem_replicate h)
  refine ⟨List.replicate (ls.flatten.length + 1) 'x', ⟨hmem (by decide), hmem (by decide),
    hmem (by decide)⟩, by simp [List.replicate_succ], fun h => ?_⟩
  have hle := (List.sublist_flatten_of_mem h).length_le
  rw [List.length_replicate] at hle
  omega

/-- A rule stays in its template for identifiers that are taken literally. Conversely, if it matches
any topic at all and the username does not start with `%u` itself, it stays in its template for
these only. -/
theorem staysInTemplate_iff_literalIdentifiers (r : ACLRule) :
    (LiteralIdentifiers clientID username r.topicFilter → StaysInTemplate clientID username r) ∧
    (¬ ['%', 'u'] <+: username →
      (∃ topic, Concrete topic ∧ matchTopic (r.resolvedFilter clientID username) topic = true) →
      StaysInTemplate clientID username r →
        LiteralIdentifiers clientID username r.topicFilter) := by
  have hresolved : r.resolvedFilter clientID username =
      resolve clientID username r.topicFilter := rfl
  refine ⟨fun hliteral topic htopic hmatch => ?_, fun hname ⟨topic, htopic, hmatch⟩ hstays => ?_⟩
  · have hlevels := ((matchTopic_iff_mqttMatch htopic _).1 hmatch).levels
    rw [hresolved, hliteral.levels_resolve] at hlevels
    exact templateMatch_of_levelsMatch (fun l hl => mt (hliteral l hl).wildcard) hlevels
  · obtain ⟨z, hz, hdollar, hfresh⟩ :=
      exists_fresh_level ((levels r.topicFilter).map (substitute clientID username))
    obtain ⟨topic', htopic', hmatch', hlevels'⟩ :=
      ((matchTopic_iff_mqttMatch htopic _).1 hmatch).exists_example htopic hz hdollar
    have h := hstays topic' htopic' ((matchTopic_iff_mqttMatch htopic' _).2 hmatch')
    rw [hlevels', hresolved, levels_resolve] at h
    refine literalLevel_of_templateMatch hname (fun l hl heq => hfresh ?_) h
    exact List.mem_map.2 ⟨l, hl, heq⟩

theorem not_templateMatch_of_second {template topic m t n : Text}
    (htemplate : levels template = l :: m :: ls) (htopic : levels topic = t :: n :: ts)
    (hl : ¬ IsWildcard l) (hm : ¬ IsWildcard m) (hne : n ≠ substitute clientID username m) :
    ¬ TemplateMatch clientID username (levels template) (levels topic) := by
  intro h
  rw [htemplate, htopic] at h
  exact hne ((h.level_eq hl).2.level_eq hm).1

end Template

/-- A rule that allows publishes to a filter. -/
def publishRule (filter : Text) : ACLRule := ⟨filter, ["publish".toList], .allow⟩

/-- A device publishes below its own level, and stays there. -/
theorem staysInTemplate_own_level :
    StaysInTemplate "dev".toList [] (publishRule "telemetry/%c/#".toList) ∧
      LiteralIdentifiers "dev".toList [] "telemetry/%c/#".toList := by
  have h := @staysInTemplate_iff_literalIdentifiers "dev".toList []
    (publishRule "telemetry/%c/#".toList)
  have hstays := h.1 (by decide)
  exact ⟨hstays, h.2 (by decide) ⟨"telemetry/dev/t".toList, by decide, by decide⟩ hstays⟩

/-- The rule for a client's own telemetry matches the topic `telemetry/other/t` of another client
for the client IDs `+`, `%u` and `other/t`. -/
theorem not_staysInTemplate_foreign_level :
    ¬ StaysInTemplate ['+'] [] (publishRule "telemetry/%c/#".toList) ∧
      ¬ StaysInTemplate "%u".toList "other".toList (publishRule "telemetry/%c/#".toList) ∧
      ¬ StaysInTemplate "other/t".toList [] (publishRule "telemetry/%c/#".toList) := by
  have htemplate : levels "telemetry/%c/#".toList =
      ["telemetry".toList, "%c".toList, ['#']] := by decide
  have htopic : levels "telemetry/other/t".toList =
      ["telemetry".toList, "other".toList, ['t']] := by decide
  refine ⟨fun h => ?_, fun h => ?_, fun h => ?_⟩ <;>
    exact not_templateMatch_of_second htemplate htopic (by decide) (by decide) (by decide)
      (h "telemetry/other/t".toList (by decide) (by decide))

end KeelGateway.Acl
