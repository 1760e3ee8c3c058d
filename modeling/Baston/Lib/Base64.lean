/-
Base64 over the standard alphabet, with padding.

Three bytes are four digits.  One or two bytes at the end are two or three digits and the
padding that fills the group.  The decoder takes that spelling and no other: a group that is
cut, a character outside the alphabet, padding before the end and bits left over behind the
last byte are all refused.
-/

import Mathlib.Algebra.Group.Nat.Defs

namespace Base64

/-- The digits, in the order of their values: letters, small letters, figures, `+` and `/`. -/
def alphabet : List Char :=
  (List.range' 65 26 ++ List.range' 97 26 ++ List.range' 48 10 ++ [43, 47]).map Char.ofNat

/-- The digit of a value below 64. -/
def digit (value : Nat) : Char := alphabet.getD value '='

/-- The value of a digit. -/
def valueOf (c : Char) : Option Nat := alphabet.idxOf? c

def encode : List UInt8 → List Char
  | [] => []
  | [a] => [digit (a.toNat / 4), digit (a.toNat % 4 * 16), '=', '=']
  | [a, b] =>
    [digit (a.toNat / 4), digit (a.toNat % 4 * 16 + b.toNat / 16), digit (b.toNat % 16 * 4), '=']
  | a :: b :: c :: rest =>
    digit (a.toNat / 4) :: digit (a.toNat % 4 * 16 + b.toNat / 16)
      :: digit (b.toNat % 16 * 4 + c.toNat / 64) :: digit (c.toNat % 64) :: encode rest

/-- The byte of a last group of two digits. -/
def lastByte (c0 c1 : Char) : Option (List UInt8) := do
  let v0 ← valueOf c0
  let v1 ← valueOf c1
  if v1 % 16 = 0 then return [UInt8.ofNat (v0 * 4 + v1 / 16)] else none

/-- The bytes of a last group of three digits. -/
def lastBytes (c0 c1 c2 : Char) : Option (List UInt8) := do
  let v0 ← valueOf c0
  let v1 ← valueOf c1
  let v2 ← valueOf c2
  if v2 % 4 = 0 then
    return [UInt8.ofNat (v0 * 4 + v1 / 16), UInt8.ofNat (v1 % 16 * 16 + v2 / 4)]
  else none

/-- The bytes of a whole group. -/
def group (c0 c1 c2 c3 : Char) : Option (List UInt8) := do
  let v0 ← valueOf c0
  let v1 ← valueOf c1
  let v2 ← valueOf c2
  let v3 ← valueOf c3
  return [UInt8.ofNat (v0 * 4 + v1 / 16), UInt8.ofNat (v1 % 16 * 16 + v2 / 4),
    UInt8.ofNat (v2 % 4 * 64 + v3)]

def decode : List Char → Option (List UInt8)
  | [] => some []
  | c0 :: c1 :: c2 :: c3 :: rest =>
    if c3 = '=' then
      if rest ≠ [] then none
      else if c2 = '=' then lastByte c0 c1 else lastBytes c0 c1 c2
    else do
      let bytes ← group c0 c1 c2 c3
      return bytes ++ (← decode rest)
  | _ => none

/-! ### Digits -/

set_option maxRecDepth 4000 in
theorem valueOf_digit : ∀ {value : Nat}, value < 64 → valueOf (digit value) = some value := by
  decide

theorem digit_ne_padding : ∀ {value : Nat}, value < 64 → digit value ≠ '=' := by
  decide

theorem ofNat_toNat {a : UInt8} {n : Nat} (h : n = a.toNat) : UInt8.ofNat n = a := by
  rw [h, UInt8.ofNat_toNat]

/-! ### What one group reads as -/

theorem lastByte_digits (a : UInt8) :
    lastByte (digit (a.toNat / 4)) (digit (a.toNat % 4 * 16)) = some [a] := by
  have := a.toNat_lt
  have h0 : UInt8.ofNat (a.toNat / 4 * 4 + a.toNat % 4 * 16 / 16) = a := ofNat_toNat (by omega)
  have hcut : a.toNat % 4 * 16 % 16 = 0 := by omega
  simp only [lastByte, valueOf_digit (show a.toNat / 4 < 64 by omega),
    valueOf_digit (show a.toNat % 4 * 16 < 64 by omega), Option.bind_eq_bind, Option.bind_some,
    hcut, if_true, h0]
  rfl

theorem lastBytes_digits (a b : UInt8) :
    lastBytes (digit (a.toNat / 4)) (digit (a.toNat % 4 * 16 + b.toNat / 16))
      (digit (b.toNat % 16 * 4)) = some [a, b] := by
  have := a.toNat_lt
  have := b.toNat_lt
  have h0 : UInt8.ofNat (a.toNat / 4 * 4 + (a.toNat % 4 * 16 + b.toNat / 16) / 16) = a :=
    ofNat_toNat (by omega)
  have h1 : UInt8.ofNat ((a.toNat % 4 * 16 + b.toNat / 16) % 16 * 16 + b.toNat % 16 * 4 / 4) = b :=
    ofNat_toNat (by omega)
  have hcut : b.toNat % 16 * 4 % 4 = 0 := by omega
  simp only [lastBytes, valueOf_digit (show a.toNat / 4 < 64 by omega),
    valueOf_digit (show a.toNat % 4 * 16 + b.toNat / 16 < 64 by omega),
    valueOf_digit (show b.toNat % 16 * 4 < 64 by omega), Option.bind_eq_bind, Option.bind_some,
    hcut, if_true, h0, h1]
  rfl

theorem group_digits (a b c : UInt8) :
    group (digit (a.toNat / 4)) (digit (a.toNat % 4 * 16 + b.toNat / 16))
      (digit (b.toNat % 16 * 4 + c.toNat / 64)) (digit (c.toNat % 64)) = some [a, b, c] := by
  have := a.toNat_lt
  have := b.toNat_lt
  have := c.toNat_lt
  have h0 : UInt8.ofNat (a.toNat / 4 * 4 + (a.toNat % 4 * 16 + b.toNat / 16) / 16) = a :=
    ofNat_toNat (by omega)
  have h1 : UInt8.ofNat ((a.toNat % 4 * 16 + b.toNat / 16) % 16 * 16
      + (b.toNat % 16 * 4 + c.toNat / 64) / 4) = b := ofNat_toNat (by omega)
  have h2 : UInt8.ofNat ((b.toNat % 16 * 4 + c.toNat / 64) % 4 * 64 + c.toNat % 64) = c :=
    ofNat_toNat (by omega)
  simp only [group, valueOf_digit (show a.toNat / 4 < 64 by omega),
    valueOf_digit (show a.toNat % 4 * 16 + b.toNat / 16 < 64 by omega),
    valueOf_digit (show b.toNat % 16 * 4 + c.toNat / 64 < 64 by omega),
    valueOf_digit (show c.toNat % 64 < 64 by omega), Option.bind_eq_bind, Option.bind_some,
    h0, h1, h2]
  rfl

/-- **What was encoded is decoded to itself.** -/
theorem decode_encode (data : List UInt8) : decode (encode data) = some data := by
  induction data using encode.induct with
  | case1 => rfl
  | case2 a =>
      simp only [encode, decode, if_true, ne_eq, not_true_eq_false, if_false]
      exact lastByte_digits a
  | case3 a b =>
      have := b.toNat_lt
      have hne : digit (b.toNat % 16 * 4) ≠ '=' := digit_ne_padding (by omega)
      simp only [encode, decode, if_true, ne_eq, not_true_eq_false, if_false, if_neg hne]
      exact lastBytes_digits a b
  | case4 a b c rest ih =>
      have hne : digit (c.toNat % 64) ≠ '=' := digit_ne_padding (by omega)
      simp only [encode, decode, if_neg hne, group_digits, ih, Option.bind_eq_bind,
        Option.bind_some]
      rfl

end Base64
