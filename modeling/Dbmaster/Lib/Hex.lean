import Mathlib.Data.List.Basic
/-!
# Hexadecimal

Two digits a byte, the high half first; capitals are read but not written.
-/

namespace Dbmaster.Lib.Hex

/-- The character of a value below 16. -/
def digit (n : Nat) : Char := if n < 10 then Char.ofNat (48 + n) else Char.ofNat (87 + n)

def value (c : Char) : Option Nat :=
  let n := c.toNat
  if 48 ≤ n ∧ n ≤ 57 then some (n - 48)
  else if 97 ≤ n ∧ n ≤ 102 then some (n - 87)
  else if 65 ≤ n ∧ n ≤ 70 then some (n - 55)
  else none

def byte (b : UInt8) : List Char := [digit (b.toNat / 16), digit (b.toNat % 16)]

def encode (bytes : List UInt8) : List Char := bytes.flatMap byte

def decode : List Char → Option (List UInt8)
  | [] => some []
  | [_] => none
  | high :: low :: rest => do
      let x ← value high
      let y ← value low
      let bytes ← decode rest
      return UInt8.ofNat (x * 16 + y) :: bytes

/-- The number that the digits are, when they are some and all of them digits. -/
def number (digits : List Char) : Option Nat :=
  if digits.isEmpty then none
  else digits.foldl (fun acc c => acc.bind fun n => (value c).map fun d => n * 16 + d) (some 0)

/-- `u8::from_str_radix` to the base 16. -/
def parseByte (text : List Char) : Option UInt8 :=
  (number (if text.head? = some '+' then text.tail else text)).bind fun n =>
    if n < 256 then some (UInt8.ofNat n) else none

theorem value_digit {n : Nat} (h : n < 16) : value (digit n) = some n := by
  have hall : ∀ k < 16, value (digit k) = some k := by decide
  exact hall n h

theorem digit_ne_plus {n : Nat} (h : n < 16) : digit n ≠ '+' := by
  have hall : ∀ k < 16, digit k ≠ '+' := by decide
  exact hall n h

theorem halves_lt (b : UInt8) : b.toNat / 16 < 16 ∧ b.toNat % 16 < 16 := by
  have hb : b.toNat < 256 := b.toNat_lt
  omega

theorem ofNat_halves (b : UInt8) : UInt8.ofNat (b.toNat / 16 * 16 + b.toNat % 16) = b := by
  rw [Nat.div_add_mod', UInt8.ofNat_toNat]

theorem decode_encode (bytes : List UInt8) : decode (encode bytes) = some bytes := by
  induction bytes with
  | nil => rfl
  | cons b bytes ih =>
      obtain ⟨hhigh, hlow⟩ := halves_lt b
      show decode (digit (b.toNat / 16) :: digit (b.toNat % 16) :: encode bytes) = _
      rw [decode, value_digit hhigh, value_digit hlow, ih]
      exact congrArg some (congrArg (· :: bytes) (ofNat_halves b))

theorem parseByte_byte (b : UInt8) : parseByte (byte b) = some b := by
  obtain ⟨hhigh, hlow⟩ := halves_lt b
  have hplus : (byte b).head? ≠ some '+' := fun h => digit_ne_plus hhigh (Option.some.inj h)
  have hnumber : number (byte b) = some (b.toNat / 16 * 16 + b.toNat % 16) := by
    simp [number, byte, value_digit hhigh, value_digit hlow]
  have hlt : b.toNat / 16 * 16 + b.toNat % 16 < 256 := by omega
  rw [parseByte, if_neg hplus, hnumber, Option.bind_some, if_pos hlt, ofNat_halves]

theorem number_of_not_digit {digits : List Char} {c : Char} (hmem : c ∈ digits)
    (hc : value c = none) : number digits = none := by
  have hstuck : ∀ rest : List Char, rest.foldl
      (fun acc d => acc.bind fun n => (value d).map fun v => n * 16 + v) (none : Option Nat) =
      none := by
    intro rest
    induction rest with
    | nil => rfl
    | cons d rest ih => exact ih
  obtain ⟨before, after, rfl⟩ := List.append_of_mem hmem
  have hstep : ∀ acc : Option Nat,
      (acc.bind fun n => (value c).map fun v => n * 16 + v) = none := by
    intro acc
    rw [hc]
    cases acc <;> rfl
  rw [number, if_neg (by simp), List.foldl_append, List.foldl_cons, hstep, hstuck]

/-- A text with a character that is neither a digit nor a sign is no byte. -/
theorem parseByte_of_not_digit {text : List Char} {c : Char} (hmem : c ∈ text)
    (hc : value c = none) (hplus : c ≠ '+') : parseByte text = none := by
  have hdigits : c ∈ if text.head? = some '+' then text.tail else text := by
    split
    case isTrue hsign =>
      cases text with
      | nil => cases hmem
      | cons d text =>
          rcases List.mem_cons.mp hmem with rfl | htail
          · exact absurd (Option.some.inj hsign) hplus
          · exact htail
    case isFalse => exact hmem
  rw [parseByte, number_of_not_digit hdigits hc, Option.bind_none]

end Dbmaster.Lib.Hex
