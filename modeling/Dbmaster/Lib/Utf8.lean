import Mathlib.Data.List.Basic
/-!
# UTF-8 with replacements

Bytes as a text.  Where they are no character, the longest beginning of one, or else a
single byte, becomes the replacement character.
-/

namespace Dbmaster.Lib.Utf8

def encode (text : List Char) : List UInt8 := text.flatMap String.utf8EncodeChar

/-- U+FFFD -/
def replacement : Char := Char.ofNat 65533

/-- The character at the beginning of the bytes. -/
def decodeChar (bytes : List UInt8) : Option Char := bytes.toByteArray.utf8DecodeChar? 0

def isTail (b : UInt8) : Bool := 0x80 ≤ b && b ≤ 0xBF

/-- The first two of the three bytes of a character. -/
def beginsThree (b c : UInt8) : Bool :=
  b == 0xE0 && 0xA0 ≤ c && c ≤ 0xBF ||
  0xE1 ≤ b && b ≤ 0xEC && isTail c ||
  b == 0xED && 0x80 ≤ c && c ≤ 0x9F ||
  0xEE ≤ b && b ≤ 0xEF && isTail c

/-- The first two of the four bytes of a character. -/
def beginsFour (b c : UInt8) : Bool :=
  b == 0xF0 && 0x90 ≤ c && c ≤ 0xBF ||
  0xF1 ≤ b && b ≤ 0xF3 && isTail c ||
  b == 0xF4 && 0x80 ≤ c && c ≤ 0x8F

/-- How many bytes after the first belong to the beginning of a character that is not
completed. -/
def broken (b : UInt8) : List UInt8 → Nat
  | [] => 0
  | [c] => if beginsThree b c || beginsFour b c then 1 else 0
  | c :: d :: _ =>
      if beginsThree b c then 1
      else if beginsFour b c then (if isTail d then 2 else 1)
      else 0

/-- The text after `skip` more bytes. -/
def lossyFrom : Nat → List UInt8 → List Char
  | _, [] => []
  | skip + 1, _ :: bytes => lossyFrom skip bytes
  | 0, b :: bytes =>
      match decodeChar (b :: bytes) with
      | some c => c :: lossyFrom (c.utf8Size - 1) bytes
      | none => replacement :: lossyFrom (broken b bytes) bytes

/-- `String::from_utf8_lossy` -/
def lossy (bytes : List UInt8) : List Char := lossyFrom 0 bytes

theorem lossyFrom_eq (skip : Nat) (bytes : List UInt8) :
    lossyFrom skip bytes = lossy (bytes.drop skip) := by
  induction bytes generalizing skip with
  | nil => rw [List.drop_nil]; cases skip <;> rfl
  | cons b bytes ih =>
      cases skip with
      | zero => rfl
      | succ skip => exact ih skip

theorem lossy_of_decodeChar {b : UInt8} {bytes : List UInt8} {c : Char}
    (h : decodeChar (b :: bytes) = some c) :
    lossy (b :: bytes) = c :: lossy (bytes.drop (c.utf8Size - 1)) := by
  rw [lossy, lossyFrom, h]
  exact congrArg _ (lossyFrom_eq _ _)

theorem lossy_of_broken {b : UInt8} {bytes : List UInt8} (h : decodeChar (b :: bytes) = none) :
    lossy (b :: bytes) = replacement :: lossy (bytes.drop (broken b bytes)) := by
  rw [lossy, lossyFrom, h]
  exact congrArg _ (lossyFrom_eq _ _)

theorem decodeChar_encodeChar (c : Char) (bytes : List UInt8) :
    decodeChar (String.utf8EncodeChar c ++ bytes) = some c := by
  rw [decodeChar, List.toByteArray_append]
  exact ByteArray.utf8DecodeChar?_utf8EncodeChar_append

theorem lossy_encodeChar (c : Char) (bytes : List UInt8) :
    lossy (String.utf8EncodeChar c ++ bytes) = c :: lossy bytes := by
  have hdecode := decodeChar_encodeChar c bytes
  have hlength := String.length_utf8EncodeChar c
  cases hencode : String.utf8EncodeChar c with
  | nil => exact absurd hencode String.utf8EncodeChar_ne_nil
  | cons b tail =>
      rw [hencode, List.cons_append] at hdecode
      rw [hencode, List.length_cons] at hlength
      rw [List.cons_append, lossy_of_decodeChar hdecode, ← hlength, Nat.add_sub_cancel,
        List.drop_left]

theorem lossy_encode (text : List Char) : lossy (encode text) = text := by
  induction text with
  | nil => rfl
  | cons c text ih =>
      calc lossy (encode (c :: text))
          = lossy (String.utf8EncodeChar c ++ encode text) := rfl
        _ = c :: lossy (encode text) := lossy_encodeChar c (encode text)
        _ = c :: text := by rw [ih]

theorem encodeChar_of_decodeChar {bytes : List UInt8} {c : Char}
    (h : decodeChar bytes = some c) : String.utf8EncodeChar c = bytes.take c.utf8Size := by
  have hextract := String.toByteArray_utf8EncodeChar_of_utf8DecodeChar?_eq_some h
  have hdata := congrArg (fun b : ByteArray => b.data.toList) hextract
  simpa using hdata

/-- Bytes without a replacement are those of their text. -/
theorem encode_lossy {bytes : List UInt8} (h : replacement ∉ lossy bytes) :
    encode (lossy bytes) = bytes := by
  induction hn : bytes.length using Nat.strongRecOn generalizing bytes with
  | ind n ih =>
      cases bytes with
      | nil => rfl
      | cons b bytes =>
          cases hdecode : decodeChar (b :: bytes) with
          | none =>
              rw [lossy_of_broken hdecode] at h
              exact absurd List.mem_cons_self h
          | some c =>
              have hpos := c.utf8Size_pos
              rw [lossy_of_decodeChar hdecode] at h ⊢
              have hrest : encode (lossy (bytes.drop (c.utf8Size - 1))) =
                  bytes.drop (c.utf8Size - 1) := by
                refine ih _ ?_ (fun hmem => h (List.mem_cons_of_mem _ hmem)) rfl
                rw [← hn, List.length_drop, List.length_cons]
                omega
              have hdrop : bytes.drop (c.utf8Size - 1) = (b :: bytes).drop c.utf8Size := by
                conv_rhs => rw [← Nat.sub_add_cancel hpos]
                rfl
              calc encode (c :: lossy (bytes.drop (c.utf8Size - 1)))
                  = String.utf8EncodeChar c ++ encode (lossy (bytes.drop (c.utf8Size - 1))) := rfl
                _ = (b :: bytes).take c.utf8Size ++ (b :: bytes).drop c.utf8Size := by
                    rw [encodeChar_of_decodeChar hdecode, hrest, hdrop]
                _ = b :: bytes := List.take_append_drop _ _

end Dbmaster.Lib.Utf8
