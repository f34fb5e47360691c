import KeelGateway.Text

/-!
# Spellings of a UUID

A UUID has one canonical form, but `uuid.Parse` takes several: the digits may be in upper or lower
case, in braces, behind `urn:uuid:` or without dashes. Whoever compares texts tells these apart, and
whoever parses them does not.

The parser is not part of this repository. It is described by what its documentation promises, and
`UUIDParser.hexadecimal` is one parser that keeps the promise.

-/

namespace KeelGateway

/-- The documented forms of a UUID, in lower and in upper case. -/
def UUID.spellings (u : UUID) : List Text :=
  [u.string, u.string.map Char.toUpper].flatMap fun s =>
    [s, "urn:uuid:".toList ++ s, '{' :: s ++ ['}'], s.filter (· ≠ '-')]

/-- `uuid.Parse`: a parser that takes every documented form. -/
structure UUIDParser where
  parse : Text → Option UUID
  parse_spelling : ∀ u, ∀ t ∈ UUID.spellings u, parse t = some u

namespace UUIDParser

/-! ### A parser -/

/-- The value of a hexadecimal digit in either case. -/
def hexValue (c : Char) : Option ℕ := "0123456789abcdef".toList.idxOf? c.toLower

/-- The values of the hexadecimal digits of a text. -/
def hexValues (t : Text) : List ℕ := t.filterMap hexValue

/-- The bytes of a list of hexadecimal digits. -/
def ofHexValues : List ℕ → List UInt8
  | high :: low :: rest => UInt8.ofNat (16 * high + low) :: ofHexValues rest
  | _ => []

/-- The two hexadecimal digits of each byte. -/
def nibbles (bs : List UInt8) : List ℕ := bs.flatMap fun b => [b.toNat / 16, b.toNat % 16]

private theorem length_nibbles (bs : List UInt8) : (nibbles bs).length = 2 * bs.length := by
  induction bs with
  | nil => rfl
  | cons b bs ih =>
    rw [nibbles, List.flatMap_cons, List.length_append, ← nibbles, ih]
    simp only [List.length_cons, List.length_nil]
    omega

private theorem ofHexValues_nibbles (bs : List UInt8) : ofHexValues (nibbles bs) = bs := by
  induction bs with
  | nil => rfl
  | cons b bs ih =>
    have hbyte : UInt8.ofNat (16 * (b.toNat / 16) + b.toNat % 16) = b := by
      rw [Nat.div_add_mod, UInt8.ofNat_toNat]
    rw [nibbles, List.flatMap_cons, ← nibbles]
    simp only [List.cons_append, List.nil_append, ofHexValues, hbyte, ih]

section Digits

variable {g : Char → Char}

private theorem hexValues_map_encodeHex (hg : ∀ n < 16, hexValue (g (UUID.hexDigit n)) = some n)
    (bs : List UInt8) : hexValues ((UUID.encodeHex bs).map g) = nibbles bs := by
  induction bs with
  | nil => rfl
  | cons b bs ih =>
    have hhigh : b.toNat / 16 < 16 := by
      have hb := b.toNat_lt
      omega
    have hlow : b.toNat % 16 < 16 := Nat.mod_lt _ (by decide)
    rw [UUID.encodeHex, List.flatMap_cons, ← UUID.encodeHex, List.map_append, hexValues,
      List.filterMap_append, ← hexValues, ← hexValues, ih]
    simp [hexValues, nibbles, hg _ hhigh, hg _ hlow]

private theorem hexValues_map_string (hg : ∀ n < 16, hexValue (g (UUID.hexDigit n)) = some n)
    (hdash : hexValue (g '-') = none) (u : UUID) :
    hexValues (u.string.map g) = nibbles u.bytes := by
  have hparts : u.bytes = u.bytes.take 4 ++ ((u.bytes.drop 4).take 2 ++ ((u.bytes.drop 6).take 2 ++
      ((u.bytes.drop 8).take 2 ++ u.bytes.drop 10))) := by
    conv_lhs => rw [← List.take_append_drop 4 u.bytes, ← List.take_append_drop 2 (u.bytes.drop 4),
      List.drop_drop, ← List.take_append_drop 2 (u.bytes.drop 6), List.drop_drop,
      ← List.take_append_drop 2 (u.bytes.drop 8), List.drop_drop]
  have happend (s t : Text) : hexValues (s ++ t) = hexValues s ++ hexValues t :=
    List.filterMap_append ..
  have hcons (t : Text) : hexValues (g '-' :: t) = hexValues t := by
    rw [hexValues, List.filterMap_cons_none hdash, hexValues]
  have hnibbles (bs cs : List UInt8) : nibbles (bs ++ cs) = nibbles bs ++ nibbles cs :=
    List.flatMap_append ..
  simp only [UUID.string, List.map_append, List.map_cons, happend, hcons,
    hexValues_map_encodeHex hg]
  conv_rhs => rw [hparts]
  simp only [hnibbles, List.append_assoc]

end Digits

private theorem hexValue_hexDigit : ∀ n < 16, hexValue (UUID.hexDigit n) = some n := by decide

private theorem hexValue_upper_hexDigit :
    ∀ n < 16, hexValue (UUID.hexDigit n).toUpper = some n := by decide

/-- The digits without the dashes. -/
private theorem hexValues_filter (t : Text) : hexValues (t.filter (· ≠ '-')) = hexValues t := by
  rw [hexValues, List.filterMap_filter]
  refine List.filterMap_congr fun c _ => ?_
  by_cases hc : c = '-'
  · subst hc
    rfl
  · simp [hc]

theorem exists_hexValues_spelling (u : UUID) {t : Text} (ht : t ∈ u.spellings) :
    ∃ before, hexValues t = before ++ nibbles u.bytes := by
  have hstring : hexValues u.string = nibbles u.bytes := by
    have h := hexValues_map_string (g := id) hexValue_hexDigit rfl u
    rwa [List.map_id] at h
  have hupper : hexValues (u.string.map Char.toUpper) = nibbles u.bytes :=
    hexValues_map_string hexValue_upper_hexDigit rfl u
  -- The four forms of a text with the digits of the UUID.
  have hforms (s : Text) (hs : hexValues s = nibbles u.bytes)
      (hform : t ∈ [s, "urn:uuid:".toList ++ s, '{' :: s ++ ['}'], s.filter (· ≠ '-')]) :
      ∃ before, hexValues t = before ++ nibbles u.bytes := by
    simp only [List.mem_cons, List.not_mem_nil, or_false] at hform
    rcases hform with rfl | rfl | rfl | rfl
    · exact ⟨[], hs⟩
    · exact ⟨[13], by rw [hexValues, List.filterMap_append, ← hexValues, ← hexValues, hs]; rfl⟩
    · refine ⟨[], ?_⟩
      rw [hexValues, List.cons_append, List.filterMap_cons_none rfl, List.filterMap_append,
        ← hexValues, hs]
      exact List.append_nil _
    · exact ⟨[], by rw [hexValues_filter, hs]; rfl⟩
  obtain ⟨s, hs, hform⟩ := List.mem_flatMap.1 ht
  rcases List.mem_cons.1 hs with rfl | hs
  · exact hforms _ hstring hform
  · rw [List.mem_singleton] at hs
    exact hforms s (hs ▸ hupper) hform

/-- The last thirty-two hexadecimal digits of a text. -/
def hexadecimal : UUIDParser where
  parse := fun t =>
    let bytes := ofHexValues ((hexValues t).drop ((hexValues t).length - 32))
    if h : bytes.length = 16 then some ⟨bytes, h⟩ else none
  parse_spelling := by
    intro u t ht
    obtain ⟨before, hbefore⟩ := exists_hexValues_spelling u ht
    have hlength : (hexValues t).length - 32 = before.length := by
      rw [hbefore, List.length_append, length_nibbles, u.length_bytes]
      omega
    have hbytes : ofHexValues ((hexValues t).drop ((hexValues t).length - 32)) = u.bytes := by
      rw [hlength, hbefore, List.drop_left, ofHexValues_nibbles]
    simp only [hbytes, u.length_bytes, dite_true]

end UUIDParser

/-- Different UUIDs have different canonical forms. -/
theorem UUID.string_injective : Function.Injective UUID.string := by
  intro u v h
  have hcanonical (w : UUID) : UUIDParser.hexadecimal.parse w.string = some w :=
    UUIDParser.hexadecimal.parse_spelling w _ (by simp [spellings])
  have hparse := congrArg UUIDParser.hexadecimal.parse h
  rw [hcanonical, hcanonical] at hparse
  exact Option.some.inj hparse

end KeelGateway
