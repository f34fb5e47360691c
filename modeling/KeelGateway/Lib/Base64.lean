import Mathlib.Data.List.GetD
import Mathlib.Data.List.Nodup

/-!
# Unpadded URL-safe base64

Three bytes become four characters of a 64-letter alphabet; one or two bytes at the end become two
or three characters, without padding. A text is encoded through its UTF-8 bytes.

-/

namespace Base64

/-- The alphabet. -/
def alphabet : List Char :=
  "ABCDEFGHIJKLMNOPQRSTUVWXYZabcdefghijklmnopqrstuvwxyz0123456789-_".toList

/-- The character of a six-bit number. -/
def digit (n : ℕ) : Char := alphabet.getD n 'A'

/-- `RawURLEncoding.EncodeToString`. -/
def encode : List UInt8 → List Char
  | [] => []
  | [a] => [digit (a.toNat / 4), digit (a.toNat % 4 * 16)]
  | [a, b] =>
    [digit (a.toNat / 4), digit (a.toNat % 4 * 16 + b.toNat / 16), digit (b.toNat % 16 * 4)]
  | a :: b :: c :: rest =>
    digit (a.toNat / 4) :: digit (a.toNat % 4 * 16 + b.toNat / 16) ::
      digit (b.toNat % 16 * 4 + c.toNat / 64) :: digit (c.toNat % 64) :: encode rest

private theorem length_alphabet : alphabet.length = 64 := by decide

private theorem nodup_alphabet : alphabet.Nodup := by decide +kernel

private theorem digit_mem {n : ℕ} (hn : n < 64) : digit n ∈ alphabet := by
  rw [digit, List.getD_eq_getElem _ _ hn]
  exact List.getElem_mem hn

/-- The six-bit number of a character. -/
def value? (c : Char) : Option ℕ := alphabet.idxOf? c

theorem value?_digit {n : ℕ} (hn : n < 64) : value? (digit n) = some n := by
  have hn' : n < alphabet.length := length_alphabet ▸ hn
  rw [value?, digit, List.getD_eq_getElem _ _ hn', List.idxOf?_eq_some_iff]
  refine ⟨hn', rfl, fun j hj heq => ?_⟩
  exact absurd ((List.Nodup.getElem_inj_iff nodup_alphabet).1 heq) (by omega)

/-- The bytes of six-bit numbers. Bits that do not fill a byte at the end are ignored. -/
def ofDigits : List ℕ → Option (List UInt8)
  | [] => some []
  | [_] => none
  | [a, b] => some [UInt8.ofNat (a * 4 + b / 16)]
  | [a, b, c] => some [UInt8.ofNat (a * 4 + b / 16), UInt8.ofNat (b % 16 * 16 + c / 4)]
  | a :: b :: c :: d :: rest =>
    (ofDigits rest).map fun bytes =>
      UInt8.ofNat (a * 4 + b / 16) :: UInt8.ofNat (b % 16 * 16 + c / 4) ::
        UInt8.ofNat (c % 4 * 64 + d) :: bytes

/-- `RawURLEncoding.DecodeString`: line breaks are skipped. -/
def decode (t : List Char) : Option (List UInt8) :=
  ((t.filter fun c => c ≠ '\r' ∧ c ≠ '\n').mapM value?).bind ofDigits

/-- The six-bit numbers of an encoding. -/
def digits : List UInt8 → List ℕ
  | [] => []
  | [a] => [a.toNat / 4, a.toNat % 4 * 16]
  | [a, b] => [a.toNat / 4, a.toNat % 4 * 16 + b.toNat / 16, b.toNat % 16 * 4]
  | a :: b :: c :: rest =>
    (a.toNat / 4) :: (a.toNat % 4 * 16 + b.toNat / 16) :: (b.toNat % 16 * 4 + c.toNat / 64) ::
      (c.toNat % 64) :: digits rest

theorem encode_eq_map_digits (bytes : List UInt8) : encode bytes = (digits bytes).map digit := by
  induction bytes using encode.induct with
  | case1 => rfl
  | case2 a => rfl
  | case3 a b => rfl
  | case4 a b c rest ih => simp only [encode, digits, List.map_cons, ih]

theorem digits_lt (bytes : List UInt8) : ∀ n ∈ digits bytes, n < 64 := by
  induction bytes using digits.induct with
  | case1 => simp [digits]
  | case2 a =>
    have ha := a.toNat_lt
    simp only [digits, List.forall_mem_cons]
    exact ⟨by omega, by omega, by simp⟩
  | case3 a b =>
    have ha := a.toNat_lt
    have hb := b.toNat_lt
    simp only [digits, List.forall_mem_cons]
    exact ⟨by omega, by omega, by omega, by simp⟩
  | case4 a b c rest ih =>
    have ha := a.toNat_lt
    have hb := b.toNat_lt
    have hc := c.toNat_lt
    simp only [digits, List.forall_mem_cons]
    exact ⟨by omega, by omega, by omega, by omega, ih⟩

private theorem ofDigits_digits (bytes : List UInt8) : ofDigits (digits bytes) = some bytes := by
  have hbyte (a : UInt8) {n : ℕ} (h : n = a.toNat) : UInt8.ofNat n = a := by
    rw [h, UInt8.ofNat_toNat]
  induction bytes using digits.induct with
  | case1 => rfl
  | case2 a =>
    simp only [digits, ofDigits, hbyte a
      (show a.toNat / 4 * 4 + a.toNat % 4 * 16 / 16 = _ by omega)]
  | case3 a b =>
    have hb := b.toNat_lt
    simp only [digits, ofDigits]
    rw [hbyte a (by omega), hbyte b (by omega)]
  | case4 a b c rest ih =>
    have hb := b.toNat_lt
    have hc := c.toNat_lt
    simp only [digits, ofDigits, ih, Option.map_some]
    rw [hbyte a (by omega), hbyte b (by omega), hbyte c (by omega)]

theorem notMem_encode {c : Char} (hc : c ∉ alphabet) (bytes : List UInt8) : c ∉ encode bytes := by
  rw [encode_eq_map_digits]
  intro hmem
  obtain ⟨n, hn, rfl⟩ := List.mem_map.1 hmem
  exact hc (digit_mem (digits_lt bytes n hn))

theorem decode_encode (bytes : List UInt8) : decode (encode bytes) = some bytes := by
  have hkeep : (encode bytes).filter (fun c => c ≠ '\r' ∧ c ≠ '\n') = encode bytes := by
    refine List.filter_eq_self.2 fun c hc => ?_
    have hr : c ≠ '\r' := by rintro rfl; exact notMem_encode (by decide) bytes hc
    have hn : c ≠ '\n' := by rintro rfl; exact notMem_encode (by decide) bytes hc
    simp [hr, hn]
  have hvalues (ns : List ℕ) (h : ∀ n ∈ ns, n < 64) : (ns.map digit).mapM value? = some ns := by
    induction ns with
    | nil => rfl
    | cons n ns ih =>
      rw [List.map_cons, List.mapM_cons, value?_digit (h n List.mem_cons_self),
        ih fun m hm => h m (List.mem_cons_of_mem _ hm)]
      rfl
  rw [decode, hkeep, encode_eq_map_digits, hvalues _ (digits_lt bytes), Option.bind_some,
    ofDigits_digits]

theorem encode_injective : Function.Injective encode := by
  intro x y h
  have hdecode := congrArg decode h
  rw [decode_encode, decode_encode] at hdecode
  exact Option.some.inj hdecode

/-- The UTF-8 bytes of a text. -/
def utf8 (t : List Char) : List UInt8 := t.flatMap String.utf8EncodeChar

/-- The text with the given UTF-8 bytes, if there is one. -/
def ofUTF8 (bytes : List UInt8) : Option (List Char) :=
  bytes.toByteArray.utf8Decode?.map Array.toList

theorem ofUTF8_utf8 (t : List Char) : ofUTF8 (utf8 t) = some t := by
  have hbytes : (utf8 t).toByteArray = t.utf8Encode := rfl
  rw [ofUTF8, hbytes, List.utf8Decode?_utf8Encode, Option.map_some]

/-- The text of any bytes. Bytes that are no UTF-8 stand for the characters of their numbers. -/
def text (bytes : List UInt8) : List Char :=
  (ofUTF8 bytes).getD (bytes.map fun b => Char.ofNat b.toNat)

theorem text_utf8 (t : List Char) : text (utf8 t) = t := by
  rw [text, ofUTF8_utf8, Option.getD_some]

theorem utf8_injective : Function.Injective utf8 := by
  intro s t h
  have htext := congrArg ofUTF8 h
  rw [ofUTF8_utf8, ofUTF8_utf8] at htext
  exact Option.some.inj htext

end Base64
