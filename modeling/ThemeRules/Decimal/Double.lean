/-!
# ThemeRules.Decimal.Double

Floating-point numbers of 64 bits, held as their bits, so that every statement about them is one
about natural numbers. A finite number is `mantissa · 2 ^ exponent`. `ofDecimal` gives the number
closest to a decimal; of two that are equally close it takes the even one.
-/

namespace ThemeRules

def decimalDigits (n : Nat) : List Char := Nat.toDigits 10 n

namespace Decimal

inductive Tie where
  | up
  | even
  deriving DecidableEq

/-- The integer closest to `num / den`; `tie` decides between two that are equally close. -/
def roundDiv (num den : Nat) (tie : Tie) : Nat :=
  let quotient := num / den
  let twice := 2 * (num % den)
  if twice < den then quotient
  else if den < twice then quotient + 1
  else
    match tie with
    | .up => quotient + 1
    | .even => if quotient % 2 == 0 then quotient else quotient + 1

/-- A decimal: `coefficient · 10 ^ exponent`. -/
structure Scaled where
  coefficient : Nat
  exponent : Int
  deriving DecidableEq

/-- `base ^ e` as a fraction: the numerator for a positive exponent, the denominator for a
negative one. -/
def fraction (n base : Nat) (e : Int) : Nat × Nat :=
  if 0 ≤ e then (n * base.pow e.toNat, 1) else (n, base.pow (-e).toNat)

end Decimal

structure Double where
  bits : UInt64
  deriving DecidableEq

namespace Double

open Decimal

inductive Meaning where
  | nan
  | infinite (negative : Bool)
  | finite (negative : Bool) (mantissa : Nat) (exponent : Int)
  deriving DecidableEq

def meaning (x : Double) : Meaning :=
  let n := x.bits.toNat
  let negative := decide (Nat.pow 2 63 ≤ n)
  let field : Nat := n / Nat.pow 2 52 % Nat.pow 2 11
  let low : Nat := n % Nat.pow 2 52
  if field = 2047 then
    if low = 0 then .infinite negative else .nan
  else if field = 0 then .finite negative low (-1074)
  else .finite negative (Nat.pow 2 52 + low) (field - 1075)

def ofFields (negative : Bool) (low : Nat) : Double :=
  ⟨.ofNat ((if negative then Nat.pow 2 63 else 0) + low)⟩

def infinity (negative : Bool) : Double := ofFields negative (2047 * Nat.pow 2 52)

def nan : Double := ofFields false (2047 * Nat.pow 2 52 + Nat.pow 2 51)

def isFinite (x : Double) : Bool :=
  match x.meaning with
  | .finite .. => true
  | _ => false

def ofFraction (negative : Bool) (num den : Nat) : Double :=
  if num = 0 then ofFields negative 0
  else
    let rounded (q : Int) : Nat :=
      if 0 ≤ q then roundDiv num (den * Nat.pow 2 q.toNat) .even
      else roundDiv (num * Nat.pow 2 (-q).toNat) den .even
    -- The quotient lies strictly between 2 ^ (b - 1) and 2 ^ (b + 1).
    let b : Int := num.log2 - den.log2
    let high : Bool :=
      if 0 ≤ b then decide (den * Nat.pow 2 b.toNat ≤ num)
      else decide (den ≤ num * Nat.pow 2 (-b).toNat)
    let q := max (if high then b - 52 else b - 53) (-1074)
    let n := rounded q
    -- Rounding may reach the next power of two; the carry then runs into the exponent field.
    let low := if n < Nat.pow 2 52 then n else (q + 1074).toNat * Nat.pow 2 52 + n
    if 2047 * Nat.pow 2 52 ≤ low then infinity negative else ofFields negative low

/-- The number closest to `coefficient · 10 ^ exponent`. Decimals beyond the range of all finite
numbers are told by their magnitude alone. -/
def ofDecimal (negative : Bool) (coefficient : Nat) (exponent : Int) : Double :=
  if coefficient = 0 then ofFields negative 0
  else
    let magnitude : Int := (decimalDigits coefficient).length + exponent
    if 400 < magnitude then infinity negative
    else if magnitude < -400 then ofFields negative 0
    else
      let (num, den) := fraction coefficient 10 exponent
      ofFraction negative num den

end Double
end ThemeRules
