import KeelGateway.Acl.Match

/-!
# The topics index of the broker library

The index is a tree of particles, one level of a filter per edge. It is given here by its
particles, each under the list of keys on the way from the root (a `Path`); a particle without
subscriptions is the same as no particle. The index is used twice: by a broker for the
subscriptions of its clients, and by the cluster router with node IDs in the place of client IDs.

A filter is stored with its subscription, and the path it is stored under is determined by the
filter. That is an invariant of the index and a field of `TopicsIndex`.

-/

namespace KeelGateway.Mochi

open Acl

/-! ### Filters -/

/-- The part of `packets.Subscription` that a broker keeps for a filter. -/
structure Subscription where
  filter : Text
  identifier : ℕ := 0
  retainHandling : ℕ := 0
  qos : ℕ := 0
  retainAsPublished : Bool := false
  noLocal : Bool := false
  deriving DecidableEq, Repr

/-- `Subscription.Merge`: the subscription by which a client gets a message that several of its
filters match. -/
def Subscription.merge (s n : Subscription) : Subscription :=
  { s with
    qos := if n.qos > s.qos then n.qos else s.qos
    noLocal := if n.noLocal then true else s.noLocal }

/-- `isolateParticle`: level `d` of a filter and whether another level follows. Past the end the
last level is returned once more. -/
def isolateParticle (filter : Text) (d : ℕ) : Text × Bool :=
  let ls := levels filter
  if d < ls.length then (ls.getD d [], d + 1 < ls.length) else (ls.getLastD [], false)

/-- `IsSharedFilter`. -/
def isSharedFilter (filter : Text) : Bool := equalFoldShare (isolateParticle filter 0).1

/-- `IsValidFilter(filter, false)`, the check of a SUBSCRIBE. -/
def isValidFilter (filter : Text) : Bool :=
  if filter.length = 0 then false
  else if '#' ∈ filter ∧ filter.idxOf '#' ≠ filter.length - 1 then false
  else
    let (pre, hasNext) := isolateParticle filter 0
    if !hasNext && equalFoldShare pre then false
    else if hasNext && equalFoldShare pre then
      let (group, hasNext) := isolateParticle filter 1
      if !hasNext then false else !group.any fun c => c = '+' || c = '#'
    else true

/-! ### The particles -/

/-- The keys on the way from the root to a particle. -/
abbrev Path : Type := List Text

/-- The keys under which `set` and `seek` look for a filter from level `d` on. -/
def pathFrom (filter : Text) (d : ℕ) : Path :=
  let ls := levels filter
  if d < ls.length then ls.drop d else [ls.getLastD []]

/-- The path of a filter: a shared filter is stored without its first two levels. -/
def filterPath (filter : Text) : Path := pathFrom filter (if isSharedFilter filter then 2 else 0)

/-- The group of a shared filter. -/
def shareGroup (filter : Text) : Text := (isolateParticle filter 1).1

/-- `TopicsIndex`. -/
structure TopicsIndex where
  subscriptions : GoMap (Path × Text) Subscription
  shared : GoMap (Path × Text × Text) Subscription
  subscriptions_path : ∀ path client sub, subscriptions.lookup (path, client) = some sub →
    isSharedFilter sub.filter = false ∧ filterPath sub.filter = path
  shared_path : ∀ path group client sub, shared.lookup (path, group, client) = some sub →
    isSharedFilter sub.filter = true ∧ filterPath sub.filter = path ∧
      shareGroup sub.filter = group

namespace TopicsIndex

/-- `NewTopicsIndex`. -/
def empty : TopicsIndex := ⟨∅, ∅, by simp, by simp⟩

/-- `TopicsIndex.Subscribe`. -/
def subscribe (x : TopicsIndex) (client : Text) (sub : Subscription) : TopicsIndex :=
  if h : isSharedFilter sub.filter = true then
    { x with
      shared := x.shared.insert (filterPath sub.filter, shareGroup sub.filter, client) sub
      shared_path := by
        intro path group c s hs
        by_cases hk : (path, group, c) = (filterPath sub.filter, shareGroup sub.filter, client)
        · rw [hk, AList.lookup_insert] at hs
          cases hs
          cases hk
          exact ⟨h, rfl, rfl⟩
        · rw [AList.lookup_insert_ne hk] at hs
          exact x.shared_path path group c s hs }
  else
    { x with
      subscriptions := x.subscriptions.insert (filterPath sub.filter, client) sub
      subscriptions_path := by
        intro path c s hs
        by_cases hk : (path, c) = (filterPath sub.filter, client)
        · rw [hk, AList.lookup_insert] at hs
          cases hs
          cases hk
          exact ⟨by simpa using h, rfl⟩
        · rw [AList.lookup_insert_ne hk] at hs
          exact x.subscriptions_path path c s hs }

/-- `TopicsIndex.Unsubscribe`. -/
def unsubscribe (x : TopicsIndex) (filter client : Text) : TopicsIndex :=
  if isSharedFilter filter then
    { x with
      shared := x.shared.erase (filterPath filter, shareGroup filter, client)
      shared_path := by
        intro path group c s hs
        by_cases hk : (path, group, c) = (filterPath filter, shareGroup filter, client)
        · rw [hk, AList.lookup_erase] at hs
          cases hs
        · rw [AList.lookup_erase_ne hk] at hs
          exact x.shared_path path group c s hs }
  else
    { x with
      subscriptions := x.subscriptions.erase (filterPath filter, client)
      subscriptions_path := by
        intro path c s hs
        by_cases hk : (path, c) = (filterPath filter, client)
        · rw [hk, AList.lookup_erase] at hs
          cases hs
        · rw [AList.lookup_erase_ne hk] at hs
          exact x.subscriptions_path path c s hs }

section Updates

variable (x : TopicsIndex) (client filter : Text) (sub : Subscription)

private theorem lookup_subscriptions_subscribe (k : Path × Text) :
    (x.subscribe client sub).subscriptions.lookup k =
      if isSharedFilter sub.filter = false ∧ k = (filterPath sub.filter, client) then some sub
      else x.subscriptions.lookup k := by
  unfold subscribe
  by_cases h : isSharedFilter sub.filter = true
  · rw [dif_pos h]
    simp [h]
  · rw [dif_neg h]
    simpa [h] using GoMap.lookup_insert x.subscriptions (filterPath sub.filter, client) sub k

theorem mem_subscriptions_subscribe (k : Path × Text) :
    k ∈ (x.subscribe client sub).subscriptions ↔
      k ∈ x.subscriptions ∨ (isSharedFilter sub.filter = false ∧
        k = (filterPath sub.filter, client))
      := by
  rw [← AList.lookup_isSome, lookup_subscriptions_subscribe, ← AList.lookup_isSome]
  split_ifs with h <;> simp [h]

theorem lookup_shared_subscribe (k : Path × Text × Text) :
    (x.subscribe client sub).shared.lookup k =
      if isSharedFilter sub.filter = true ∧
          k = (filterPath sub.filter, shareGroup sub.filter, client) then some sub
      else x.shared.lookup k := by
  unfold subscribe
  by_cases h : isSharedFilter sub.filter = true
  · rw [dif_pos h]
    simpa [h] using GoMap.lookup_insert x.shared
      (filterPath sub.filter, shareGroup sub.filter, client) sub k
  · rw [dif_neg h]
    simp [h]

private theorem lookup_subscriptions_unsubscribe (k : Path × Text) :
    (x.unsubscribe filter client).subscriptions.lookup k =
      if isSharedFilter filter = false ∧ k = (filterPath filter, client) then none
      else x.subscriptions.lookup k := by
  unfold unsubscribe
  cases h : isSharedFilter filter with
  | true => simp
  | false => simpa using GoMap.lookup_erase x.subscriptions (filterPath filter, client) k

theorem mem_subscriptions_unsubscribe (k : Path × Text) :
    k ∈ (x.unsubscribe filter client).subscriptions ↔
      k ∈ x.subscriptions ∧ ¬ (isSharedFilter filter = false ∧
        k = (filterPath filter, client)) := by
  rw [← AList.lookup_isSome, lookup_subscriptions_unsubscribe, ← AList.lookup_isSome]
  split_ifs with h <;> simp [h]

theorem lookup_shared_unsubscribe (k : Path × Text × Text) :
    (x.unsubscribe filter client).shared.lookup k =
      if isSharedFilter filter = true ∧ k = (filterPath filter, shareGroup filter, client) then none
      else x.shared.lookup k := by
  unfold unsubscribe
  cases h : isSharedFilter filter with
  | true => simpa using GoMap.lookup_erase x.shared (filterPath filter, shareGroup filter, client) k
  | false => simp

end Updates

end TopicsIndex

/-! ### The visited paths -/

/-- The paths of the particles that `scanSubscribers` gathers from, for the levels of a topic: at
each level the key itself, then `+`, then `#`. At the last level the child `#` of the key is
gathered as well, but not the child `#` of `+`. -/
def visit : List Text → List Path
  | [] => []
  | [key] =>
    ([key, ['+']].flatMap fun partKey =>
      [partKey] :: if partKey ≠ ['+'] then [[partKey, ['#']]] else []) ++ [[['#']]]
  | key :: next :: rest =>
    ([key, ['+']].flatMap fun partKey => (visit (next :: rest)).map (partKey :: ·)) ++ [[['#']]]

variable {key : Text} {p : Path}

theorem mem_visit_singleton :
    p ∈ visit [key] ↔ p = [key] ∨ (p = [key, ['#']] ∧ key ≠ ['+']) ∨ p = [['+']] ∨ p = [['#']] := by
  by_cases hk : key = ['+'] <;> simp [visit, hk]

theorem mem_visit_cons {rest : List Text} (hrest : rest ≠ []) :
    p ∈ visit (key :: rest) ↔
      (∃ q, p = key :: q ∧ q ∈ visit rest) ∨ (∃ q, p = ['+'] :: q ∧ q ∈ visit rest) ∨
        p = [['#']] := by
  cases rest with
  | nil => exact absurd rfl hrest
  | cons next rest =>
    simp only [visit, List.flatMap_cons, List.flatMap_nil, List.append_nil, List.mem_append,
      List.mem_map, List.mem_singleton, or_assoc]
    simp only [eq_comm, and_comm]

/-- The levels of a topic that is published hold no wildcard level. -/
def NoWildcard (ls : List Text) : Prop := ∀ l ∈ ls, l ≠ ['#'] ∧ l ≠ ['+']

/-- The filter ends in `/+/#` and covers the topic as the parent level of the `#` only. -/
def ParentOnly (p : Path) (ls : List Text) : Prop :=
  ∃ q, p = q ++ [['+'], ['#']] ∧ matchLevels (q ++ [['+']]) ls = true

theorem parentOnly_cons {f : Text} {rest : List Text} (hf : f ≠ ['#']) (hrest : rest ≠ []) :
    ParentOnly (f :: p) (key :: rest) ↔ (f = key ∨ f = ['+']) ∧ ParentOnly p rest := by
  constructor
  · rintro ⟨q, hp, hmatch⟩
    cases q with
    | nil =>
      rw [List.nil_append, matchLevels_plus, matchLevels_nil, List.isEmpty_iff] at hmatch
      exact absurd hmatch hrest
    | cons g q =>
      obtain ⟨rfl, rfl⟩ := List.cons.inj hp
      obtain ⟨hhead, htail⟩ := (matchLevels_cons_cons hf _ _ _).1 hmatch
      exact ⟨hhead, q, rfl, htail⟩
  · rintro ⟨hhead, q, rfl, htail⟩
    exact ⟨f :: q, rfl, (matchLevels_cons_cons hf _ _ _).2 ⟨hhead, htail⟩⟩

theorem matchLevels_iff {ls : List Text} (hne : ls ≠ []) (hls : NoWildcard ls) :
    matchLevels p ls = true ↔ p ∈ visit ls ∨ ParentOnly p ls := by
  induction ls generalizing p with
  | nil => exact absurd rfl hne
  | cons key rest ih =>
    obtain ⟨hkey, hkey'⟩ := hls key List.mem_cons_self
    cases p with
    | nil => cases rest with
      | nil => simp [mem_visit_singleton, ParentOnly]
      | cons next rest => simp [mem_visit_cons, ParentOnly]
    | cons f p =>
      by_cases hf : f = ['#']
      · subst hf
        have hparent : ¬ ParentOnly (['#'] :: p) (key :: rest) := by
          rintro ⟨q, hp, hmatch⟩
          cases q with
          | nil => simp at hp
          | cons g q =>
            obtain ⟨rfl, -⟩ := List.cons.inj hp
            simp at hmatch
        rw [or_iff_left hparent]
        cases rest with
        | nil => simp [mem_visit_singleton, hkey.symm]
        | cons next rest => simp [mem_visit_cons, hkey.symm]
      · rw [matchLevels_cons_cons hf]
        cases rest with
        | nil =>
          rw [matchLevels_nil_right, mem_visit_singleton]
          have hparent : ParentOnly (f :: p) [key] ↔ f = ['+'] ∧ p = [['#']] := by
            constructor
            · rintro ⟨q, hp, hmatch⟩
              cases q with
              | nil => simpa using hp
              | cons g q =>
                obtain ⟨rfl, rfl⟩ := List.cons.inj hp
                obtain ⟨-, htail⟩ := (matchLevels_cons_cons hf _ _ _).1 hmatch
                rcases (matchLevels_nil_right _).1 htail with h | h <;>
                · have := congrArg List.getLast? h
                  simp at this
            · rintro ⟨rfl, rfl⟩
              exact ⟨[], rfl, by simp⟩
          simp only [List.cons.injEq, hf]
          tauto
        | cons next rest =>
          have hrest : next :: rest ≠ [] := List.cons_ne_nil _ _
          have hls' : NoWildcard (next :: rest) := fun l hl => hls l (List.mem_cons_of_mem _ hl)
          rw [ih hrest hls', mem_visit_cons hrest, parentOnly_cons hf hrest]
          simp only [List.cons.injEq, hf, false_and, or_false]
          constructor
          · rintro ⟨hhead, h | h⟩
            · rcases hhead with rfl | rfl
              · exact Or.inl (Or.inl ⟨p, ⟨rfl, rfl⟩, h⟩)
              · exact Or.inl (Or.inr ⟨p, ⟨rfl, rfl⟩, h⟩)
            · exact Or.inr ⟨hhead, h⟩
          · rintro ((⟨q, ⟨rfl, rfl⟩, h⟩ | ⟨q, ⟨rfl, rfl⟩, h⟩) | ⟨hhead, h⟩)
            · exact ⟨Or.inl rfl, Or.inl h⟩
            · exact ⟨Or.inr rfl, Or.inl h⟩
            · exact ⟨hhead, Or.inr h⟩

end KeelGateway.Mochi
