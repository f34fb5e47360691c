import KeelGateway.Lib.Base64

/-!
# JSON objects of strings

The bytes of an object whose values are strings, as an encoder without spaces writes them, and a
parser for such bytes. The encoder escapes what cannot stand in a string, and the characters that
are unsafe in HTML or in a script. The parser gives back what was written, and it takes no proper
beginning of an object: an object is complete with its last brace only.

The parser is for what such an encoder writes. Spaces, values that are no strings and escaped
surrogates are outside it.

-/

open String (utf8EncodeChar)
open Base64 (utf8)

namespace JsonObject

/-- The escapes of one letter that the encoder writes. -/
def letters : List (UInt8 × Char) :=
  [(0x22, '"'), (0x5c, '\\'), (0x62, '\x08'), (0x66, '\x0c'), (0x6e, '\n'), (0x72, '\r'),
    (0x74, '\t')]

/-- The hexadecimal digits. -/
def digits : List UInt8 := utf8 "0123456789abcdef".toList

/-- Four hexadecimal digits. -/
def hex (n : ℕ) : List UInt8 :=
  [n / 4096 % 16, n / 256 % 16, n / 16 % 16, n % 16].map fun d => digits.getD d 0

/-- The value of hexadecimal digits, in lower or upper case. -/
def ofHex (bytes : List UInt8) : Option ℕ :=
  bytes.foldlM (fun n b => (digits.idxOf? (if b < 0x60 ∧ 0x40 < b then b + 0x20 else b)).map
    (16 * n + ·)) 0

/-- A character in a string. -/
def escape (c : Char) : List UInt8 :=
  match letters.find? fun row => row.2 = c with
  | some (letter, _) => [0x5c, letter]
  | none =>
    if c.toNat < 0x20 ∨ c ∈ ['<', '>', '&', '\u2028', '\u2029'] then 0x5c :: 0x75 :: hex c.toNat
    else utf8EncodeChar c

/-- A string after its opening quote. -/
def quote (t : List Char) : List UInt8 := t.flatMap escape ++ [0x22]

/-- The string up to the next quote, and what follows it. -/
def unquote : List UInt8 → Option (List UInt8 × List UInt8)
  | 0x22 :: rest => some ([], rest)
  | 0x5c :: 0x75 :: a :: b :: c :: d :: rest => do
    let n ← ofHex [a, b, c, d]
    if n.isValidChar then (unquote rest).map fun p => (utf8EncodeChar (Char.ofNat n) ++ p.1, p.2)
    else none
  | 0x5c :: letter :: rest => do
    let row ← ((0x2f, '/') :: letters).find? fun row => row.1 = letter
    (unquote rest).map fun p => (utf8EncodeChar row.2 ++ p.1, p.2)
  | b :: rest =>
    if b = 0x5c ∨ b < 0x20 then none else (unquote rest).map fun p => (b :: p.1, p.2)
  | [] => none

/-- The members after the opening brace. -/
def members : List (List Char × List Char) → List UInt8
  | [] => [0x7d]
  | [(key, value)] => 0x22 :: quote key ++ (0x3a :: 0x22 :: quote value ++ [0x7d])
  | (key, value) :: rest =>
    0x22 :: quote key ++ (0x3a :: 0x22 :: quote value ++ (0x2c :: members rest))

/-- An object. -/
def document (rows : List (List Char × List Char)) : List UInt8 := 0x7b :: members rows

/-- The value of a member, and what follows it. -/
def parseValue : List UInt8 → Option (List UInt8 × List UInt8)
  | 0x3a :: 0x22 :: rest => unquote rest
  | _ => none

/-- The members up to the closing brace, and what follows it. -/
def parseMembers : ℕ → List UInt8 → Option (List (List UInt8 × List UInt8) × List UInt8)
  | fuel + 1, 0x22 :: bytes => do
    let (key, bytes) ← unquote bytes
    let (value, bytes) ← parseValue bytes
    match bytes with
    | 0x7d :: rest => some ([(key, value)], rest)
    | 0x2c :: rest => (parseMembers fuel rest).map fun p => ((key, value) :: p.1, p.2)
    | _ => none
  | _, _ => none

/-- The members of an object, if the bytes are one. -/
def parse : List UInt8 → Option (List (List UInt8 × List UInt8))
  | [0x7b, 0x7d] => some []
  | 0x7b :: bytes =>
    match parseMembers bytes.length bytes with
    | some (rows, []) => some rows
    | _ => none
  | _ => none

/-- At most so many characters of the text of bytes. -/
def textAux : ℕ → List UInt8 → List Char
  | fuel + 1, b :: rest =>
    match (b :: rest).toByteArray.utf8DecodeChar? 0 with
    | some c => c :: textAux fuel ((b :: rest).drop c.utf8Size)
    | none => '\ufffd' :: textAux fuel rest
  | _, _ => []

/-- The text of bytes: a byte that begins no character is replaced. -/
def text (bytes : List UInt8) : List Char := textAux bytes.length bytes

/-! ### The text of bytes -/

private theorem textAux_utf8 (t : List Char) :
    ∀ fuel, (utf8 t).length ≤ fuel → textAux fuel (utf8 t) = t := by
  induction t with
  | nil => intro fuel _; cases fuel <;> rfl
  | cons c t ih =>
    intro fuel hfuel
    have hbytes : utf8 (c :: t) = utf8EncodeChar c ++ utf8 t := rfl
    have hdecode : (utf8EncodeChar c ++ utf8 t).toByteArray.utf8DecodeChar? 0 = some c := by
      rw [List.toByteArray_append]
      exact ByteArray.utf8DecodeChar?_utf8EncodeChar_append
    have hdrop : (utf8EncodeChar c ++ utf8 t).drop c.utf8Size = utf8 t :=
      List.drop_left' (String.length_utf8EncodeChar c)
    rw [hbytes] at hfuel ⊢
    cases hfirst : utf8EncodeChar c with
    | nil => exact absurd hfirst String.utf8EncodeChar_ne_nil
    | cons b bs =>
      rw [hfirst] at hfuel hdecode hdrop
      rw [List.cons_append] at hfuel hdecode hdrop ⊢
      obtain ⟨fuel, rfl⟩ : ∃ k, fuel = k + 1 := ⟨fuel - 1, by simp at hfuel; omega⟩
      rw [textAux, hdecode]
      simp only [hdrop]
      rw [ih fuel (by simp at hfuel; omega)]

theorem text_utf8 (t : List Char) : text (utf8 t) = t := textAux_utf8 t _ (Nat.le_refl _)

/-! ### More bytes -/

theorem unquote_append {bytes x rest : List UInt8} (h : unquote bytes = some (x, rest))
    (more : List UInt8) : unquote (bytes ++ more) = some (x, rest ++ more) := by
  fun_induction unquote bytes generalizing x rest with
  | case1 => simp_all [unquote]
  | case2 a b c d bytes ih =>
    obtain ⟨n, hn, h⟩ := Option.bind_eq_some_iff.1 h
    simp only [List.cons_append, unquote, hn, Option.bind_eq_bind, Option.bind_some]
    split_ifs at h ⊢
    obtain ⟨p, hp, h⟩ := Option.map_eq_some_iff.1 h
    cases h
    rw [ih hp, Option.map_some]
  | case3 letter bytes hletter ih =>
    obtain ⟨row, hrow, h⟩ := Option.bind_eq_some_iff.1 h
    obtain ⟨p, hp, h⟩ := Option.map_eq_some_iff.1 h
    cases h
    have hu : letter ≠ 0x75 := by
      rintro rfl
      rw [show List.find? _ _ = none from by decide] at hrow
      cases hrow
    simp [unquote, hu, hrow, ih hp]
  | case4 => cases h
  | case5 b bytes hquote _ _ hplain ih =>
    obtain ⟨p, hp, h⟩ := Option.map_eq_some_iff.1 h
    cases h
    have hback : b ≠ 0x5c := fun hb => hplain (.inl hb)
    rw [List.cons_append, unquote.eq_4 _ _ hquote (by simp [hback]) (by simp [hback]),
      if_neg hplain, ih hp, Option.map_some]
  | case6 => cases h

private theorem parseValue_append {bytes x rest : List UInt8}
    (h : parseValue bytes = some (x, rest))
    (more : List UInt8) : parseValue (bytes ++ more) = some (x, rest ++ more) := by
  fun_cases parseValue bytes with
  | case1 bytes => exact unquote_append h more
  | case2 => simp_all [parseValue]

private theorem parseMembers_append {fuel : ℕ} {bytes rest : List UInt8}
    {rows : List (List UInt8 × List UInt8)} (h : parseMembers fuel bytes = some (rows, rest))
    (extra : ℕ) (more : List UInt8) :
    parseMembers (fuel + extra) (bytes ++ more) = some (rows, rest ++ more) := by
  induction fuel generalizing bytes rows with
  | zero => simp [parseMembers] at h
  | succ fuel ih =>
    obtain ⟨bytes, rfl⟩ : ∃ bs, bytes = 0x22 :: bs := by
      by_contra hne
      rw [parseMembers.eq_2 _ _ (fun _ bs _ hbs => hne ⟨bs, hbs⟩)] at h
      cases h
    rw [parseMembers] at h
    obtain ⟨⟨key, bytes'⟩, hkey, h⟩ := Option.bind_eq_some_iff.1 h
    obtain ⟨⟨value, bytes''⟩, hvalue, h⟩ := Option.bind_eq_some_iff.1 h
    dsimp only at h
    rw [Nat.succ_add, List.cons_append, parseMembers, unquote_append hkey, Option.bind_eq_bind,
      Option.bind_some]
    simp only [parseValue_append hvalue, Option.bind_some]
    split at h
    · cases h
      rfl
    · obtain ⟨p, hp, h⟩ := Option.map_eq_some_iff.1 h
      cases h
      simp [ih hp]
    · cases h

theorem parse_append {bytes : List UInt8} {rows : List (List UInt8 × List UInt8)}
    (h : parse bytes = some rows) {more : List UInt8} (hmore : more ≠ []) :
    parse (bytes ++ more) = none := by
  fun_cases parse bytes with
  | case1 =>
    obtain ⟨b, bs, rfl⟩ := List.exists_cons_of_ne_nil hmore
    rfl
  | case2 bytes _ rows' hrows =>
    have happend := parseMembers_append hrows more.length more
    rw [← List.length_append] at happend
    have hne : bytes ++ more ≠ [0x7d] := by
      intro heq
      rw [heq] at happend
      cases happend
    rw [List.cons_append, parse.eq_2 _ (fun h => hne h), happend]
    cases more with
    | nil => exact absurd rfl hmore
    | cons => rfl
  | case3 => simp_all [parse]
  | case4 => simp_all [parse]

/-! ### The round trip -/

private theorem unquote_plain {bytes : List UInt8}
    (hplain : ∀ b ∈ bytes, b ≠ 0x22 ∧ b ≠ 0x5c ∧ ¬b < 0x20) (rest : List UInt8) :
    unquote (bytes ++ rest) = (unquote rest).map fun p => (bytes ++ p.1, p.2) := by
  induction bytes with
  | nil => simp
  | cons b bytes ih =>
    obtain ⟨hquote, hback, hcontrol⟩ := hplain b List.mem_cons_self
    rw [List.cons_append, unquote.eq_4 _ _ hquote (by simp [hback]) (by simp [hback]),
      if_neg (by simp [hback, hcontrol]), ih fun b hb => hplain b (List.mem_cons_of_mem _ hb),
      Option.map_map]
    rfl

theorem mem_utf8EncodeChar {c : Char} {b : UInt8} (hb : b ∈ utf8EncodeChar c) :
    b.toNat = c.toNat ∨ 0x80 ≤ b.toNat := by
  have hc : c.toNat = c.val.toNat := rfl
  have htoNat (n : ℕ) : (UInt8.ofNat n).toNat = n % 256 := rfl
  rw [utf8EncodeChar] at hb
  split_ifs at hb <;> simp only [List.mem_cons, List.not_mem_nil, or_false] at hb
  · subst hb
    rw [htoNat]
    omega
  all_goals
    right
    rcases hb with rfl | rfl | rfl | rfl <;> rw [htoNat] <;> omega

private theorem unquote_letter : ∀ row ∈ letters, row.1 ≠ 0x75 ∧
    (((0x2f, '/') :: letters).find? fun r => r.1 = row.1) = some row := by
  decide

private theorem ofHex_hex : ∀ n ∈ List.range 0x20 ++ [0x3c, 0x3e, 0x26, 0x2028, 0x2029],
    ofHex (hex n) = some n := by
  decide

private theorem unquote_escape (c : Char) (rest : List UInt8) :
    unquote (escape c ++ rest) = (unquote rest).map fun p => (utf8EncodeChar c ++ p.1, p.2) := by
  rw [escape]
  split
  · next letter _ hfind =>
    obtain ⟨hu, hletter⟩ := unquote_letter _ (List.mem_of_find?_eq_some hfind)
    have hc := List.find?_some hfind
    simp only [decide_eq_true_eq] at hc
    simp [unquote, hu, hletter, hc]
  · next hfind =>
    split_ifs with hnumber
    · have hvalid : c.toNat.isValidChar := c.valid
      have hhex := ofHex_hex c.toNat (by
        simp only [List.mem_append, List.mem_range]
        refine hnumber.imp_right fun hmem => ?_
        simp only [List.mem_cons, List.not_mem_nil, or_false] at hmem ⊢
        rcases hmem with rfl | rfl | rfl | rfl | rfl <;> decide)
      simp only [hex, List.map_cons, List.map_nil, List.cons_append, List.nil_append] at hhex ⊢
      rw [unquote, hhex, Option.bind_eq_bind, Option.bind_some, if_pos hvalid, Char.ofNat_toNat]
    · refine unquote_plain (fun b hb => ?_) rest
      have hcontrol : ¬c.toNat < 0x20 := fun h => hnumber (.inl h)
      have hletter (d : Char) (hd : d ∈ letters.map Prod.snd) : c.toNat ≠ d.toNat := by
        intro heq
        obtain ⟨row, hrow, rfl⟩ := List.mem_map.1 hd
        have hne := List.find?_eq_none.1 hfind row hrow
        exact hne (decide_eq_true (Char.toNat_inj.1 heq).symm)
      have hquote : c.toNat ≠ 0x22 := hletter '"' (by decide)
      have hback : c.toNat ≠ 0x5c := hletter '\\' (by decide)
      have hbyte := mem_utf8EncodeChar hb
      refine ⟨?_, ?_, fun hlt => ?_⟩
      · rintro rfl
        have h : (0x22 : UInt8).toNat = 0x22 := rfl
        omega
      · rintro rfl
        have h : (0x5c : UInt8).toNat = 0x5c := rfl
        omega
      · have h : b.toNat < 0x20 := hlt
        omega

theorem unquote_quote (t : List Char) (rest : List UInt8) :
    unquote (quote t ++ rest) = some (utf8 t, rest) := by
  induction t with
  | nil => rfl
  | cons c t ih =>
    have hquote : quote (c :: t) ++ rest = escape c ++ (quote t ++ rest) := by simp [quote]
    rw [hquote, unquote_escape, ih]
    rfl

theorem parseValue_quote (value : List Char) (rest : List UInt8) :
    parseValue (0x3a :: 0x22 :: (quote value ++ rest)) = some (utf8 value, rest) :=
  unquote_quote value rest

private theorem parseMembers_members {rows : List (List Char × List Char)} (hrows : rows ≠ []) :
    ∀ fuel, (members rows).length ≤ fuel →
      parseMembers fuel (members rows) = some (rows.map (Prod.map utf8 utf8), []) := by
  fun_induction members rows with
  | case1 => exact absurd rfl hrows
  | case2 key value =>
    intro fuel hfuel
    obtain ⟨fuel, rfl⟩ : ∃ k, fuel = k + 1 := ⟨fuel - 1, by simp at hfuel; omega⟩
    rw [List.cons_append, parseMembers, unquote_quote, Option.bind_eq_bind, Option.bind_some]
    simp [parseValue_quote]
  | case3 key value rest hrest ih =>
    intro fuel hfuel
    obtain ⟨fuel, rfl⟩ : ∃ k, fuel = k + 1 := ⟨fuel - 1, by simp at hfuel; omega⟩
    rw [List.cons_append, parseMembers, unquote_quote, Option.bind_eq_bind, Option.bind_some]
    simp [parseValue_quote, ih (fun h => hrest h) fuel (by simp at hfuel; omega)]

/-- A round trip. -/
theorem parse_document (rows : List (List Char × List Char)) :
    parse (document rows) = some (rows.map (Prod.map utf8 utf8)) := by
  cases rows with
  | nil => rfl
  | cons row rows =>
    have hparse := parseMembers_members (List.cons_ne_nil row rows) _ (Nat.le_refl _)
    have hne : members (row :: rows) ≠ [0x7d] := by
      intro heq
      rw [heq] at hparse
      cases hparse
    rw [document, parse.eq_2 _ (fun h => hne h), hparse]

/-- A proper beginning of an object is no object. -/
theorem parse_eq_none {rows : List (List Char × List Char)} {bytes : List UInt8}
    (hstart : bytes <+: document rows) (hne : bytes ≠ document rows) : parse bytes = none := by
  obtain ⟨more, hmore⟩ := hstart
  cases hparse : parse bytes with
  | none => rfl
  | some rows' =>
    have hrest : more ≠ [] := by
      rintro rfl
      exact hne (by rw [← hmore, List.append_nil])
    have hnone := parse_append hparse hrest
    rw [hmore, parse_document] at hnone
    cases hnone

end JsonObject
