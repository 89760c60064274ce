import Dbmaster.Lib.Hex
import Dbmaster.Lib.Utf8
/-!
# Form encoding

Texts in `application/x-www-form-urlencoded`, and the places of the bytes of a text where
it may be cut.
-/

namespace Dbmaster.Lib

namespace Utf8

/-- `is_char_boundary` at the place before these bytes of a text. -/
def isBoundary (bytes : List UInt8) : Bool := bytes.head?.all fun b => decide b.IsUTF8FirstByte

theorem encode_cons (c : Char) (text : List Char) :
    encode (c :: text) = String.utf8EncodeChar c ++ encode text := rfl

theorem isBoundary_encode (text : List Char) : isBoundary (encode text) = true := by
  cases text with
  | nil => rfl
  | cons c text =>
      have hfirst : ∀ h : 0 < (String.utf8EncodeChar c).length,
          (String.utf8EncodeChar c)[0].IsUTF8FirstByte := fun h =>
        UInt8.isUTF8FirstByte_getElem_utf8EncodeChar.mpr rfl
      cases hencode : String.utf8EncodeChar c with
      | nil => exact absurd hencode String.utf8EncodeChar_ne_nil
      | cons b tail =>
          simp only [hencode] at hfirst
          rw [encode_cons, hencode]
          exact decide_eq_true (hfirst (Nat.zero_lt_succ _))

/-- Inside the bytes of a character there is no boundary. -/
theorem isBoundary_drop (c : Char) (bytes : List UInt8) {k : Nat} (h0 : 0 < k)
    (hk : k < c.utf8Size) :
    isBoundary ((String.utf8EncodeChar c ++ bytes).drop k) = false := by
  have hlength : k < (String.utf8EncodeChar c).length := by
    rw [String.length_utf8EncodeChar]
    exact hk
  have hinner : ¬ ((String.utf8EncodeChar c)[k]).IsUTF8FirstByte := fun h =>
    absurd (UInt8.isUTF8FirstByte_getElem_utf8EncodeChar.mp h) (Nat.pos_iff_ne_zero.mp h0)
  rw [List.drop_append_of_le_length (Nat.le_of_lt hlength), List.drop_eq_getElem_cons hlength,
    List.cons_append]
  exact decide_eq_false hinner

theorem utf8Size_eq_one_iff {c : Char} : c.utf8Size = 1 ↔ c.toNat < 128 := by
  rw [Char.utf8Size_eq_one_iff, UInt32.le_iff_toNat_le]
  exact Nat.lt_succ_iff.symm

/-- A character below 128 is one byte. -/
theorem encodeChar_of_ascii {c : Char} (h : c.toNat < 128) :
    String.utf8EncodeChar c = [UInt8.ofNat c.toNat] := by
  rw [String.utf8EncodeChar_eq_singleton (utf8Size_eq_one_iff.mpr h)]
  rfl

theorem le_toNat_or (a k : UInt8) : k.toNat ≤ (a ||| k).toNat := by
  rw [UInt8.toNat_or]
  exact Nat.right_le_or

/-- A byte below 128 is a character of its own. -/
theorem utf8Size_of_mem {c : Char} {b : UInt8} (hb : b ∈ String.utf8EncodeChar c)
    (hlt : b.toNat < 128) : c.utf8Size = 1 := by
  have hno : ∀ a k : UInt8, 128 ≤ k.toNat → b ≠ a ||| k := by
    intro a k hk heq
    have hle := le_toNat_or a k
    rw [← heq] at hle
    omega
  rcases c.utf8Size_eq with hone | htwo | hthree | hfour
  · exact hone
  · rw [String.utf8EncodeChar_eq_cons_cons htwo] at hb
    simp only [List.mem_cons, List.not_mem_nil, or_false] at hb
    rcases hb with heq | heq <;> exact absurd heq (hno _ _ (by decide))
  · rw [String.utf8EncodeChar_eq_cons_cons_cons hthree] at hb
    simp only [List.mem_cons, List.not_mem_nil, or_false] at hb
    rcases hb with heq | heq | heq <;> exact absurd heq (hno _ _ (by decide))
  · rw [String.utf8EncodeChar_eq_cons_cons_cons_cons hfour] at hb
    simp only [List.mem_cons, List.not_mem_nil, or_false] at hb
    rcases hb with heq | heq | heq | heq <;> exact absurd heq (hno _ _ (by decide))

theorem toNat_of_mem {c : Char} {b : UInt8} (hb : b ∈ String.utf8EncodeChar c)
    (hlt : b.toNat < 128) : c.toNat = b.toNat := by
  have hascii := utf8Size_eq_one_iff.mp (utf8Size_of_mem hb hlt)
  rw [encodeChar_of_ascii hascii] at hb
  rw [List.mem_singleton.mp hb, UInt8.toNat_ofNat']
  exact (Nat.mod_eq_of_lt (Nat.lt_trans hascii (by decide))).symm

end Utf8

namespace FormUrl

/-- A digit of a byte that is written by its number. -/
def upperDigit (n : Nat) : Char := if n < 10 then Char.ofNat (48 + n) else Char.ofNat (55 + n)

/-- The bytes that stand for themselves. -/
def isPlain (b : UInt8) : Bool :=
  let n := b.toNat
  (48 ≤ n && n ≤ 57) || (65 ≤ n && n ≤ 90) || (97 ≤ n && n ≤ 122) ||
    n == 42 || n == 45 || n == 46 || n == 95

def encodeByte (b : UInt8) : List Char :=
  if isPlain b then [Char.ofNat b.toNat]
  else if b.toNat = 32 then ['+']
  else ['%', upperDigit (b.toNat / 16), upperDigit (b.toNat % 16)]

def encode (text : List Char) : List Char := (Utf8.encode text).flatMap encodeByte

theorem value_upperDigit {n : Nat} (h : n < 16) : Hex.value (upperDigit n) = some n := by
  have hall : ∀ k < 16, Hex.value (upperDigit k) = some k := by decide
  exact hall n h

theorem upperDigit_bounds {n : Nat} (h : n < 16) :
    (upperDigit n).toNat < 128 ∧ upperDigit n ≠ '+' ∧ upperDigit n ≠ '&' := by
  have hall : ∀ k < 16, (upperDigit k).toNat < 128 ∧ upperDigit k ≠ '+' ∧ upperDigit k ≠ '&' := by
    decide
  exact hall n h

/-- The two digits of a byte are read back. -/
theorem parseByte_upperDigits (b : UInt8) :
    Hex.parseByte [upperDigit (b.toNat / 16), upperDigit (b.toNat % 16)] = some b := by
  obtain ⟨hhigh, hlow⟩ := Hex.halves_lt b
  have hplus : [upperDigit (b.toNat / 16), upperDigit (b.toNat % 16)].head? ≠ some '+' :=
    fun h => (upperDigit_bounds hhigh).2.1 (Option.some.inj h)
  have hnumber : Hex.number [upperDigit (b.toNat / 16), upperDigit (b.toNat % 16)] =
      some (b.toNat / 16 * 16 + b.toNat % 16) := by
    simp [Hex.number, value_upperDigit hhigh, value_upperDigit hlow]
  have hlt : b.toNat / 16 * 16 + b.toNat % 16 < 256 := by omega
  rw [Hex.parseByte, if_neg hplus, hnumber, Option.bind_some, if_pos hlt, Hex.ofNat_halves]

/-- No separator of pairs is written. -/
theorem ampersand_not_mem_encode (text : List Char) : '&' ∉ encode text := by
  intro hmem
  obtain ⟨b, -, hb⟩ := List.mem_flatMap.mp hmem
  obtain ⟨hhigh, hlow⟩ := Hex.halves_lt b
  unfold encodeByte at hb
  split at hb
  case isTrue hplain =>
    have hcode := congrArg Char.toNat (List.mem_singleton.mp hb)
    have hall : ∀ k < 256, isPlain (UInt8.ofNat k) = true → (Char.ofNat k).toNat ≠ 38 := by
      decide +kernel
    exact hall b.toNat b.toNat_lt (by rwa [UInt8.ofNat_toNat]) hcode.symm
  case isFalse =>
    split at hb
    case isTrue => exact absurd (List.mem_singleton.mp hb) (by decide)
    case isFalse =>
      rcases List.mem_cons.mp hb with hpercent | hdigits
      · exact absurd hpercent (by decide)
      · rcases List.mem_cons.mp hdigits with hdigit | hdigit
        · exact (upperDigit_bounds hhigh).2.2 hdigit.symm
        · exact (upperDigit_bounds hlow).2.2 (List.mem_singleton.mp hdigit).symm

end FormUrl

end Dbmaster.Lib
