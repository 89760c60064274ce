import Mathlib.Data.List.Basic
/-!
# Base64

The standard alphabet with canonical padding: three bytes are four characters, and the
bits that a padded group leaves over are zero.
-/

namespace Dbmaster.Lib.Base64

/-- The character of a value below 64. -/
def digit (n : Nat) : Char :=
  if n < 26 then Char.ofNat (65 + n)
  else if n < 52 then Char.ofNat (97 + (n - 26))
  else if n < 62 then Char.ofNat (48 + (n - 52))
  else if n = 62 then '+'
  else '/'

def value (c : Char) : Option Nat :=
  let n := c.toNat
  if 65 ≤ n ∧ n ≤ 90 then some (n - 65)
  else if 97 ≤ n ∧ n ≤ 122 then some (n - 97 + 26)
  else if 48 ≤ n ∧ n ≤ 57 then some (n - 48 + 52)
  else if c = '+' then some 62
  else if c = '/' then some 63
  else none

def encode : List UInt8 → List Char
  | [] => []
  | [a] => [digit (a.toNat / 4), digit (a.toNat % 4 * 16), '=', '=']
  | [a, b] =>
      [digit (a.toNat / 4), digit (a.toNat % 4 * 16 + b.toNat / 16), digit (b.toNat % 16 * 4), '=']
  | a :: b :: c :: rest =>
      digit (a.toNat / 4) :: digit (a.toNat % 4 * 16 + b.toNat / 16) ::
        digit (b.toNat % 16 * 4 + c.toNat / 64) :: digit (c.toNat % 64) :: encode rest

/-- The byte of the last group with two padding characters. -/
def decodeOne (a b : Char) : Option (List UInt8) := do
  let x ← value a
  let y ← value b
  if y % 16 = 0 then some [UInt8.ofNat (x * 4 + y / 16)] else none

/-- The bytes of the last group with one padding character. -/
def decodeTwo (a b c : Char) : Option (List UInt8) := do
  let x ← value a
  let y ← value b
  let z ← value c
  if z % 4 = 0 then
    some [UInt8.ofNat (x * 4 + y / 16), UInt8.ofNat (y % 16 * 16 + z / 4)]
  else none

def decodeThree (a b c d : Char) : Option (List UInt8) := do
  let x ← value a
  let y ← value b
  let z ← value c
  let w ← value d
  some [UInt8.ofNat (x * 4 + y / 16), UInt8.ofNat (y % 16 * 16 + z / 4),
    UInt8.ofNat (z % 4 * 64 + w)]

def decode : List Char → Option (List UInt8)
  | [] => some []
  | a :: b :: c :: d :: rest =>
      if rest = [] ∧ c = '=' ∧ d = '=' then decodeOne a b
      else if rest = [] ∧ d = '=' then decodeTwo a b c
      else do
        let group ← decodeThree a b c d
        let bytes ← decode rest
        return group ++ bytes
  | _ => none

/-! ## Digits -/

theorem value_digit {n : Nat} (h : n < 64) : value (digit n) = some n := by
  have hall : ∀ k < 64, value (digit k) = some k := by decide
  exact hall n h

theorem digit_plain {n : Nat} (h : n < 64) : digit n ≠ '=' ∧ digit n ≠ ':' := by
  have hall : ∀ k < 64, digit k ≠ '=' ∧ digit k ≠ ':' := by decide
  exact hall n h

theorem ofNat_eq_of_toNat {n : Nat} {a : UInt8} (h : n = a.toNat) : UInt8.ofNat n = a := by
  rw [h, UInt8.ofNat_toNat]

/-! ## The round trip -/

theorem decodeOne_digit (a : UInt8) :
    decodeOne (digit (a.toNat / 4)) (digit (a.toNat % 4 * 16)) = some [a] := by
  have ha : a.toNat < 256 := a.toNat_lt
  have hx := value_digit (n := a.toNat / 4) (by omega)
  have hy := value_digit (n := a.toNat % 4 * 16) (by omega)
  have hzero : a.toNat % 4 * 16 % 16 = 0 := by omega
  have hback : UInt8.ofNat (a.toNat / 4 * 4 + a.toNat % 4 * 16 / 16) = a :=
    ofNat_eq_of_toNat (by omega)
  simp only [decodeOne, hx, hy, Option.bind_eq_bind, Option.bind_some, hzero, if_true, hback]

theorem decodeTwo_digit (a b : UInt8) :
    decodeTwo (digit (a.toNat / 4)) (digit (a.toNat % 4 * 16 + b.toNat / 16))
      (digit (b.toNat % 16 * 4)) = some [a, b] := by
  have ha : a.toNat < 256 := a.toNat_lt
  have hb : b.toNat < 256 := b.toNat_lt
  have hx := value_digit (n := a.toNat / 4) (by omega)
  have hy := value_digit (n := a.toNat % 4 * 16 + b.toNat / 16) (by omega)
  have hz := value_digit (n := b.toNat % 16 * 4) (by omega)
  have hzero : b.toNat % 16 * 4 % 4 = 0 := by omega
  have hback : UInt8.ofNat (a.toNat / 4 * 4 + (a.toNat % 4 * 16 + b.toNat / 16) / 16) = a :=
    ofNat_eq_of_toNat (by omega)
  have hback' : UInt8.ofNat ((a.toNat % 4 * 16 + b.toNat / 16) % 16 * 16 +
      b.toNat % 16 * 4 / 4) = b := ofNat_eq_of_toNat (by omega)
  simp only [decodeTwo, hx, hy, hz, Option.bind_eq_bind, Option.bind_some, hzero, if_true,
    hback, hback']

theorem decodeThree_digit (a b c : UInt8) :
    decodeThree (digit (a.toNat / 4)) (digit (a.toNat % 4 * 16 + b.toNat / 16))
      (digit (b.toNat % 16 * 4 + c.toNat / 64)) (digit (c.toNat % 64)) = some [a, b, c] := by
  have ha : a.toNat < 256 := a.toNat_lt
  have hb : b.toNat < 256 := b.toNat_lt
  have hc : c.toNat < 256 := c.toNat_lt
  have hx := value_digit (n := a.toNat / 4) (by omega)
  have hy := value_digit (n := a.toNat % 4 * 16 + b.toNat / 16) (by omega)
  have hz := value_digit (n := b.toNat % 16 * 4 + c.toNat / 64) (by omega)
  have hw := value_digit (n := c.toNat % 64) (by omega)
  have hback : UInt8.ofNat (a.toNat / 4 * 4 + (a.toNat % 4 * 16 + b.toNat / 16) / 16) = a :=
    ofNat_eq_of_toNat (by omega)
  have hback' : UInt8.ofNat ((a.toNat % 4 * 16 + b.toNat / 16) % 16 * 16 +
      (b.toNat % 16 * 4 + c.toNat / 64) / 4) = b := ofNat_eq_of_toNat (by omega)
  have hback'' : UInt8.ofNat ((b.toNat % 16 * 4 + c.toNat / 64) % 4 * 64 + c.toNat % 64) = c :=
    ofNat_eq_of_toNat (by omega)
  simp only [decodeThree, hx, hy, hz, hw, Option.bind_eq_bind, Option.bind_some, hback, hback',
    hback'']

theorem decode_encode (bytes : List UInt8) : decode (encode bytes) = some bytes := by
  induction bytes using encode.induct with
  | case1 => rfl
  | case2 a =>
      rw [encode, decode, if_pos ⟨rfl, rfl, rfl⟩]
      exact decodeOne_digit a
  | case3 a b =>
      have hb : b.toNat < 256 := b.toNat_lt
      have hplain := (digit_plain (n := b.toNat % 16 * 4) (by omega)).1
      rw [encode, decode, if_neg (fun h => hplain h.2.1), if_pos ⟨rfl, rfl⟩]
      exact decodeTwo_digit a b
  | case4 a b c rest ih =>
      have hplain := (digit_plain (n := c.toNat % 64) (by omega)).1
      rw [encode, decode, if_neg (fun h => hplain h.2.2), if_neg (fun h => hplain h.2),
        decodeThree_digit, ih]
      rfl

/-- No colon stands in an encoded text. -/
theorem colon_not_mem_encode (bytes : List UInt8) : ':' ∉ encode bytes := by
  induction bytes using encode.induct with
  | case1 => exact List.not_mem_nil
  | case2 a =>
      have ha : a.toNat < 256 := a.toNat_lt
      have hx := (digit_plain (n := a.toNat / 4) (by omega)).2
      have hy := (digit_plain (n := a.toNat % 4 * 16) (by omega)).2
      simp [encode, hx.symm, hy.symm]
  | case3 a b =>
      have ha : a.toNat < 256 := a.toNat_lt
      have hb : b.toNat < 256 := b.toNat_lt
      have hx := (digit_plain (n := a.toNat / 4) (by omega)).2
      have hy := (digit_plain (n := a.toNat % 4 * 16 + b.toNat / 16) (by omega)).2
      have hz := (digit_plain (n := b.toNat % 16 * 4) (by omega)).2
      simp [encode, hx.symm, hy.symm, hz.symm]
  | case4 a b c rest ih =>
      have ha : a.toNat < 256 := a.toNat_lt
      have hb : b.toNat < 256 := b.toNat_lt
      have hc : c.toNat < 256 := c.toNat_lt
      have hx := (digit_plain (n := a.toNat / 4) (by omega)).2
      have hy := (digit_plain (n := a.toNat % 4 * 16 + b.toNat / 16) (by omega)).2
      have hz := (digit_plain (n := b.toNat % 16 * 4 + c.toNat / 64) (by omega)).2
      have hw := (digit_plain (n := c.toNat % 64) (by omega)).2
      simp [encode, hx.symm, hy.symm, hz.symm, hw.symm, ih]

end Dbmaster.Lib.Base64
