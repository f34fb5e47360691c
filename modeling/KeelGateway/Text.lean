import Mathlib.Data.List.AList
import Mathlib.Data.List.GetD
import Mathlib.Data.List.Infix

/-!
# Texts, topic levels and UUIDs

Topics, filters, client IDs and node IDs are texts: lists of characters. MQTT only lets valid
UTF-8 through, so a Go string of the gateway is such a list, and slicing it at `/` never cuts a
character.

-/

namespace KeelGateway

/-- A Go map, together with the order in which a loop meets its keys. Go leaves that order open,
so what holds of every `GoMap` holds for every order. -/
abbrev GoMap (K V : Type) : Type := AList (fun _ : K => V)

namespace GoMap

variable {K V : Type} [DecidableEq K]

theorem lookup_insert (m : GoMap K V) (k : K) (v : V) (k' : K) :
    (m.insert k v).lookup k' = if k' = k then some v else m.lookup k' := by
  split_ifs with h
  · rw [h, AList.lookup_insert]
  · exact AList.lookup_insert_ne h

theorem lookup_erase (m : GoMap K V) (k k' : K) :
    (m.erase k).lookup k' = if k' = k then none else m.lookup k' := by
  split_ifs with h
  · rw [h, AList.lookup_erase]
  · exact AList.lookup_erase_ne h

theorem lookup_foldl_erase (keys : List K) (m : GoMap K V) (k : K) :
    (keys.foldl (fun m k => m.erase k) m).lookup k = if k ∈ keys then none else m.lookup k := by
  induction keys generalizing m with
  | nil => simp
  | cons k' keys ih =>
    rw [List.foldl_cons, ih, lookup_erase]
    by_cases hk : k = k' <;> simp [hk]

variable {k : K} {m : GoMap K V}

theorem mem_foldl_erase {keys : List K} :
    k ∈ keys.foldl (fun m k => m.erase k) m ↔ k ∈ m ∧ k ∉ keys := by
  rw [← AList.lookup_isSome, lookup_foldl_erase]
  split_ifs with hk
  · simp [hk]
  · simp [hk, AList.lookup_isSome]

theorem mem_iff_exists_lookup : k ∈ m ↔ ∃ v, m.lookup k = some v := by
  rw [← AList.lookup_isSome, Option.isSome_iff_exists]

theorem mem_entries {v : V} : ⟨k, v⟩ ∈ m.entries ↔ m.lookup k = some v :=
  AList.mem_lookup_iff.symm

instance decidableForallLookup (m : GoMap K V) (P : K → V → Prop) [∀ k v, Decidable (P k v)] :
    Decidable (∀ k v, m.lookup k = some v → P k v) :=
  decidable_of_iff (∀ row ∈ m.entries, P row.1 row.2)
    ⟨fun h _ _ hkv => h _ (mem_entries.2 hkv), fun h row hrow => h row.1 row.2 (mem_entries.1 hrow)⟩

theorem mem_foldl_insert {A : Type} (key : A → K) (value : GoMap K V → A → V) (as : List A)
    (m : GoMap K V) (k : K) :
    k ∈ as.foldl (fun m a => m.insert (key a) (value m a)) m ↔ k ∈ m ∨ ∃ a ∈ as, key a = k := by
  induction as generalizing m with
  | nil => simp
  | cons a as ih =>
    rw [List.foldl_cons, ih, AList.mem_insert, List.exists_mem_cons_iff]
    tauto

/-- A loop over a map that writes a new map, with at most one entry for every entry of the old. -/
def filterMap {W : Type} (f : K → V → Option W) (m : GoMap K V) : GoMap K W where
  entries := m.entries.filterMap fun row => (f row.1 row.2).map (⟨row.1, ·⟩)
  nodupKeys := by
    have hkeys : (m.entries.filterMap fun row => (f row.1 row.2).map
        fun w => (⟨row.1, w⟩ : Sigma fun _ : K => W)).keys.Sublist m.entries.keys := by
      induction m.entries with
      | nil => exact List.Sublist.slnil
      | cons row rows ih =>
        cases hf : f row.1 row.2 with
        | none => simpa [List.keys, hf] using ih.cons row.1
        | some w => simpa [List.keys, hf] using ih.cons_cons row.1
    exact hkeys.nodup m.keys_nodup

theorem lookup_filterMap {W : Type} (f : K → V → Option W) (m : GoMap K V) (k : K) :
    (m.filterMap f).lookup k = (m.lookup k).bind (f k) := by
  refine Option.ext fun w => ?_
  rw [← mem_entries, Option.bind_eq_some_iff, filterMap, List.mem_filterMap]
  constructor
  · rintro ⟨⟨k', v⟩, hrow, hw⟩
    obtain ⟨w', hf, heq⟩ := Option.map_eq_some_iff.1 hw
    cases heq
    exact ⟨v, mem_entries.1 hrow, hf⟩
  · rintro ⟨v, hv, hf⟩
    exact ⟨⟨k, v⟩, mem_entries.2 hv, by simp [hf]⟩

/-! A map whose values are sets, as it is kept by adding and removing one element at a time. -/

section Sets

variable {A : Type} [DecidableEq A]

/-- The element is in the set under a key. -/
def Holds (m : GoMap K (GoMap A Unit)) (k : K) (a : A) : Prop := a ∈ (m.lookup k).getD ∅

instance (m : GoMap K (GoMap A Unit)) (k : K) (a : A) : Decidable (m.Holds k a) :=
  inferInstanceAs (Decidable (a ∈ (m.lookup k).getD ∅))

/-- The element is added; a missing set is created. -/
def addTo (m : GoMap K (GoMap A Unit)) (k : K) (a : A) : GoMap K (GoMap A Unit) :=
  m.insert k (((m.lookup k).getD ∅).insert a ())

/-- The element is removed; a set that is left empty goes with it. -/
def removeFrom (m : GoMap K (GoMap A Unit)) (k : K) (a : A) : GoMap K (GoMap A Unit) :=
  match m.lookup k with
  | none => m
  | some as => if (as.erase a).entries.isEmpty then m.erase k else m.insert k (as.erase a)

variable {a : A} {k : K} {m : GoMap K (GoMap A Unit)}

theorem holds_addTo {k' : K} {a' : A} :
    (m.addTo k a).Holds k' a' ↔ m.Holds k' a' ∨ (k' = k ∧ a' = a) := by
  unfold Holds addTo
  rw [lookup_insert]
  split_ifs with hk
  · subst hk
    rw [Option.getD_some, AList.mem_insert]
    tauto
  · simp [hk]

theorem holds_removeFrom {k' : K} {a' : A} :
    (m.removeFrom k a).Holds k' a' ↔ m.Holds k' a' ∧ ¬ (k' = k ∧ a' = a) := by
  unfold Holds removeFrom
  cases hset : m.lookup k with
  | none =>
    by_cases hk : k' = k
    · subst hk
      simp [hset]
    · simp [hk]
  | some as =>
    dsimp only
    by_cases hk : k' = k
    · subst hk
      have herase : a' ∈ as.erase a ↔ a' ∈ as ∧ a' ≠ a := by
        rw [AList.mem_erase]
        exact and_comm
      split_ifs with hempty
      · have hnone : a' ∉ as.erase a := by
          rw [AList.mem_keys, AList.keys, List.isEmpty_iff.1 hempty]
          simp
        rw [herase] at hnone
        rw [hset]
        simpa using hnone
      · rw [hset]
        simpa using herase
    · split_ifs with hempty
      · rw [AList.lookup_erase_ne hk]
        simp [hk]
      · rw [AList.lookup_insert_ne hk]
        simp [hk]

/-- No key has an empty set. -/
def NoEmptySet (m : GoMap K (GoMap A Unit)) : Prop := ∀ k ∈ m, ∃ a, m.Holds k a

omit [DecidableEq A] in
theorem mem_of_holds (h : m.Holds k a) : k ∈ m := by
  by_contra hno
  rw [Holds, AList.lookup_eq_none.2 hno] at h
  exact AList.notMem_empty _ h

omit [DecidableEq A] in
theorem noEmptySet_empty : (∅ : GoMap K (GoMap A Unit)).NoEmptySet :=
  fun k hk => absurd hk (AList.notMem_empty k)

theorem NoEmptySet.addTo (h : m.NoEmptySet) (k : K) (a : A) : (m.addTo k a).NoEmptySet := by
  intro k' hk'
  rcases (AList.mem_insert _).1 hk' with rfl | hk'
  · exact ⟨a, holds_addTo.2 (Or.inr ⟨rfl, rfl⟩)⟩
  · obtain ⟨a', ha'⟩ := h k' hk'
    exact ⟨a', holds_addTo.2 (Or.inl ha')⟩

theorem NoEmptySet.removeFrom (h : m.NoEmptySet) (k : K) (a : A) :
    (m.removeFrom k a).NoEmptySet := by
  intro k' hk'
  by_cases hk : k' = k
  · subst hk
    unfold GoMap.removeFrom at hk' ⊢
    split at hk'
    · next hnone => exact absurd hk' (AList.lookup_eq_none.1 hnone)
    · next as hset =>
      split_ifs at hk' ⊢ with hempty
      · exact absurd rfl (AList.mem_erase.1 hk').1
      · obtain ⟨row, hrow⟩ := List.exists_mem_of_ne_nil _ (mt List.isEmpty_iff.2 hempty)
        refine ⟨row.1, ?_⟩
        rw [Holds, AList.lookup_insert]
        exact AList.mem_keys.2 (List.mem_map_of_mem hrow)
  · have hmem : k' ∈ m := by
      unfold GoMap.removeFrom at hk'
      split at hk'
      · exact hk'
      · split_ifs at hk'
        · exact (AList.mem_erase.1 hk').2
        · exact ((AList.mem_insert _).1 hk').resolve_left hk
    obtain ⟨a', ha'⟩ := h k' hmem
    exact ⟨a', holds_removeFrom.2 ⟨ha', fun hboth => hk hboth.1⟩⟩

omit [DecidableEq A] in
theorem NoEmptySet.mem_iff (h : m.NoEmptySet) : k ∈ m ↔ ∃ a, m.Holds k a :=
  ⟨h k, fun ⟨_, ha⟩ => mem_of_holds ha⟩

/-- The same keys, with the same sets. -/
def SameSets (m m' : GoMap K (GoMap A Unit)) : Prop :=
  ∀ k, (k ∈ m ↔ k ∈ m') ∧ ∀ a, m.Holds k a ↔ m'.Holds k a

omit [DecidableEq A] in
theorem NoEmptySet.sameSets {m' : GoMap K (GoMap A Unit)} (h : m.NoEmptySet) (h' : m'.NoEmptySet)
    (hsame : ∀ k a, m.Holds k a ↔ m'.Holds k a) : m.SameSets m' :=
  fun k => ⟨by simp only [h.mem_iff, h'.mem_iff, hsame], hsame k⟩

end Sets

end GoMap

/-- A Go string that passed the MQTT decoder. -/
abbrev Text : Type := List Char

instance : LawfulBEq Text := inferInstance

/-- `strings.Split(t, "/")`. -/
def levels (t : Text) : List Text := t.splitOn '/'

/-- `strings.SplitN(t, "/", n)`: at most `n` parts, the last one unsplit. -/
def splitN : ℕ → Text → List Text
  | 0, _ => []
  | 1, t => [t]
  | n + 2, t =>
    match t.span (· != '/') with
    | (part, []) => [part]
    | (part, _ :: rest) => part :: splitN (n + 1) rest

/-- `strings.ReplaceAll(t, string(a)+string(b), new)`. -/
def replaceAll (a b : Char) (new : Text) : Text → Text
  | x :: y :: rest =>
    if x = a ∧ y = b then new ++ replaceAll a b new rest else x :: replaceAll a b new (y :: rest)
  | t => t

/-- Simple case folding of a character, as far as `$share` can tell: besides the two cases of a
letter, the long s folds to `s`. -/
def foldChar (c : Char) : Char := if c = 'ſ' then 's' else c.toLower

/-- `strings.EqualFold(t, "$share")`, and `strings.EqualFold(t, "$SHARE")` as well. -/
def equalFoldShare (t : Text) : Bool := t.map foldChar = "$share".toList

/-- The text holds no wildcard character, so as a topic it is concrete. -/
def Concrete (t : Text) : Prop := '+' ∉ t ∧ '#' ∉ t

instance (t : Text) : Decidable (Concrete t) := inferInstanceAs (Decidable (_ ∧ _))

/-! ### Levels -/

variable {c : Char} {t l : Text} {ls : List Text}

theorem span_ne {a : Text} (ha : c ∉ a) (b : Text) : (a ++ c :: b).span (· != c) = (a, c :: b) := by
  have hall : ∀ d ∈ a, (d != c) = true := by
    intro d hd
    simpa using fun heq : d = c => ha (heq ▸ hd)
  rw [List.span_eq_takeWhile_dropWhile, List.takeWhile_append_of_pos hall,
    List.dropWhile_append_of_pos hall]
  simp

theorem levels_slash (a b : Text) : levels (a ++ '/' :: b) = levels a ++ levels b :=
  List.splitOn_append_cons_of_beq a b (by decide)

theorem levels_of_notMem (h : '/' ∉ t) : levels t = [t] :=
  List.splitOn_eq_singleton h

theorem levels_ne_nil (t : Text) : levels t ≠ [] := List.splitOn_ne_nil '/' t

theorem levels_injective : Function.Injective levels := by
  intro s t h
  have hs : ['/'].intercalate (levels s) = s := List.intercalate_splitOn '/'
  have ht : ['/'].intercalate (levels t) = t := List.intercalate_splitOn '/'
  rw [← hs, ← ht, h]

theorem levels_eq_cons (h : levels t = l :: ls) :
    t = l ∧ ls = [] ∨ ∃ rest, t = l ++ '/' :: rest ∧ ls = levels rest := by
  by_cases hslash : '/' ∈ t
  · obtain ⟨a, rest, rfl, ha⟩ := List.eq_append_cons_of_mem hslash
    rw [levels_slash, levels_of_notMem ha] at h
    cases h
    exact Or.inr ⟨rest, rfl, rfl⟩
  · rw [levels_of_notMem hslash] at h
    cases h
    exact Or.inl ⟨rfl, rfl⟩

theorem head?_of_levels_cons (h : levels t = l :: ls) (hl : l ≠ []) : t.head? = l.head? := by
  rcases levels_eq_cons h with ⟨rfl, -⟩ | ⟨rest, rfl, -⟩
  · rfl
  · rw [List.head?_append_of_ne_nil _ hl]

theorem head?_level (h : levels t = l :: ls) (hc : c ≠ '/') (ht : t.head? = some c) :
    l.head? = some c := by
  by_cases hl : l = []
  · rcases levels_eq_cons h with ⟨rfl, -⟩ | ⟨rest, rfl, -⟩
    · exact ht
    · simp [hl, Ne.symm hc] at ht
  · rw [← head?_of_levels_cons h hl, ht]

@[elab_as_elim]
theorem levelInduction {motive : Text → Prop} (level : ∀ l, '/' ∉ l → motive l)
    (slash : ∀ l rest, '/' ∉ l → motive rest → motive (l ++ '/' :: rest)) (t : Text) :
    motive t := by
  induction hn : t.length using Nat.strong_induction_on generalizing t with
  | _ n ih =>
    by_cases h : '/' ∈ t
    · obtain ⟨l, rest, rfl, hl⟩ := List.eq_append_cons_of_mem h
      have hlt : rest.length < n := by
        rw [← hn, List.length_append, List.length_cons]
        omega
      exact slash l rest hl (ih rest.length hlt rest rfl)
    · exact level t h

theorem levels_append_slash (hl : '/' ∉ l) (rest : Text) :
    levels (l ++ '/' :: rest) = l :: levels rest := by
  rw [levels_slash, levels_of_notMem hl, List.singleton_append]

theorem mem_of_mem_levels (hl : l ∈ levels t) (hc : c ∈ l) : c ∈ t := by
  induction t using levelInduction with
  | level t ht =>
    rw [levels_of_notMem ht, List.mem_singleton] at hl
    rwa [← hl]
  | slash l' rest hl' ih =>
    rw [levels_append_slash hl', List.mem_cons] at hl
    rcases hl with rfl | hl
    · exact List.mem_append_left _ hc
    · exact List.mem_append_right _ (List.mem_cons_of_mem _ (ih hl))

theorem notMem_of_mem_levels (hl : l ∈ levels t) : '/' ∉ l := by
  induction t using levelInduction with
  | level t ht =>
    rw [levels_of_notMem ht, List.mem_singleton] at hl
    rwa [hl]
  | slash l' rest hl' ih =>
    rw [levels_append_slash hl', List.mem_cons] at hl
    rcases hl with rfl | hl
    · exact hl'
    · exact ih hl

theorem exists_mem_levels (hc : c ∈ t) (hslash : c ≠ '/') : ∃ l ∈ levels t, c ∈ l := by
  induction t using levelInduction with
  | level t ht => exact ⟨t, by rw [levels_of_notMem ht, List.mem_singleton], hc⟩
  | slash l rest hl ih =>
    rw [levels_append_slash hl]
    rcases List.mem_append.1 hc with hc | hc
    · exact ⟨l, List.mem_cons_self, hc⟩
    · obtain ⟨l', hl', hc'⟩ := ih ((List.mem_cons.1 hc).resolve_left hslash)
      exact ⟨l', List.mem_cons_of_mem _ hl', hc'⟩

/-! ### UUIDs -/

/-- A UUID: sixteen bytes. -/
structure UUID where
  bytes : List UInt8
  length_bytes : bytes.length = 16
  deriving DecidableEq

namespace UUID

/-- A lower-case hexadecimal digit. -/
def hexDigit (n : ℕ) : Char := "0123456789abcdef".toList.getD n '0'

/-- The two hexadecimal digits of each byte. -/
def encodeHex (bs : List UInt8) : Text :=
  bs.flatMap fun b => [hexDigit (b.toNat / 16), hexDigit (b.toNat % 16)]

/-- `uuid.UUID.String`: five groups of hexadecimal digits with dashes in between. -/
def string (u : UUID) : Text :=
  encodeHex (u.bytes.take 4) ++ '-' :: encodeHex ((u.bytes.drop 4).take 2) ++
    '-' :: encodeHex ((u.bytes.drop 6).take 2) ++ '-' :: encodeHex ((u.bytes.drop 8).take 2) ++
    '-' :: encodeHex (u.bytes.drop 10)

/-- `uuid.Nil`. -/
def nil : UUID := ⟨List.replicate 16 0, rfl⟩

theorem hexDigit_mem (n : ℕ) : hexDigit n ∈ "0123456789abcdef".toList := by
  unfold hexDigit
  by_cases h : n < "0123456789abcdef".toList.length
  · rw [List.getD_eq_getElem _ _ h]
    exact List.getElem_mem h
  · rw [List.getD_eq_default _ _ (Nat.le_of_not_gt h)]
    decide

private theorem encodeHex_subset (bs : List UInt8) : encodeHex bs ⊆ "0123456789abcdef".toList := by
  intro c hc
  obtain ⟨b, -, hb⟩ := List.mem_flatMap.1 hc
  rcases List.mem_cons.1 hb with rfl | hb
  · exact hexDigit_mem _
  · rw [List.mem_singleton.1 hb]
    exact hexDigit_mem _

theorem string_subset (u : UUID) : u.string ⊆ "0123456789abcdef-".toList := by
  have hex : "0123456789abcdef".toList ⊆ "0123456789abcdef-".toList := by decide
  have dash : '-' ∈ "0123456789abcdef-".toList := by decide
  have hpart (bs : List UInt8) : encodeHex bs ⊆ "0123456789abcdef-".toList :=
    List.Subset.trans (encodeHex_subset bs) hex
  unfold string
  simp only [List.append_subset, List.cons_subset]
  exact ⟨⟨⟨⟨hpart _, dash, hpart _⟩, dash, hpart _⟩, dash, hpart _⟩, dash, hpart _⟩

theorem notMem_string (u : UUID) {c : Char} (hc : c ∉ "0123456789abcdef-".toList) :
    c ∉ u.string :=
  fun h => hc (u.string_subset h)

private theorem length_encodeHex (bs : List UInt8) : (encodeHex bs).length = 2 * bs.length := by
  induction bs with
  | nil => rfl
  | cons b bs ih =>
    simp only [encodeHex, List.flatMap_cons, List.length_append, List.length_cons,
      List.length_nil] at ih ⊢
    omega

@[simp] theorem length_string (u : UUID) : u.string.length = 36 := by
  have h := u.length_bytes
  simp only [string, List.length_append, List.length_cons, length_encodeHex, List.length_take,
    List.length_drop, h]
  decide

end UUID

end KeelGateway
