import ThemeRules.Decimal.Double

/-!
# ThemeRules.Decimal.Shortest

The shortest decimal that reads back as a given number. The decimals that read back form an
interval around the number, half the distance to each neighbour wide, with its ends if the mantissa
is even. For one digit, two digits and so on the two decimals next to the number on that grid are
tried; the first grid with a hit wins, and of two hits the closer one.
-/

namespace ThemeRules
namespace Decimal

def leadingExponent (num den : Nat) : Int :=
  if den ≤ num then (decimalDigits (num / den)).length - 1
  else -((decimalDigits ((den - 1) / num)).length : Int)

/-- Takes the trailing zeros of a coefficient into the exponent; `fuel` bounds their number. -/
def stripZeros : Nat → Scaled → Scaled
  | 0, x => x
  | fuel + 1, x =>
    if x.coefficient % 10 = 0 && x.coefficient != 0 then
      stripZeros fuel ⟨x.coefficient / 10, x.exponent + 1⟩
    else x

/-- The interval of a number: it and its ends, in quarters of a unit of the mantissa, each times
`2 ^ exponent`. -/
structure Interval where
  low : Nat
  value : Nat
  high : Nat
  closed : Bool
  exponent : Int

/-- The neighbour below a power of two is only half as far away. -/
def interval (mantissa : Nat) (exponent : Int) : Interval where
  low := if mantissa = Nat.pow 2 52 && exponent != -1074 then 4 * mantissa - 1 else 4 * mantissa - 2
  value := 4 * mantissa
  high := 4 * mantissa + 2
  closed := mantissa % 2 == 0
  exponent := exponent - 2

def onGrid? (tie : Tie) (range : Interval) (k : Int) : Option Scaled :=
  let (up, down) := fraction 1 2 range.exponent
  let (ten, tenth) := fraction 1 10 k
  -- `n` in the interval's unit and `d · 10 ^ k` compare as `n * left` and `d * right`.
  let left := up * tenth
  let right := ten * down
  let value := range.value * left
  let inside (d : Nat) : Bool :=
    let x := d * right
    if range.closed then range.low * left ≤ x && x ≤ range.high * left
    else range.low * left < x && x < range.high * left
  let d := value / right
  match inside d, inside (d + 1) with
  | true, true => some ⟨roundDiv value right tie, k⟩
  | true, false => some ⟨d, k⟩
  | false, true => some ⟨d + 1, k⟩
  | false, false => none

/-- The shortest decimal for the positive number `mantissa · 2 ^ exponent`. Seventeen digits always
suffice. -/
def shortest (tie : Tie) (mantissa : Nat) (exponent : Int) : Scaled :=
  let (num, den) := fraction mantissa 2 exponent
  let leading := leadingExponent num den
  let range := interval mantissa exponent
  match (List.range 17).findSome? fun (n : Nat) => onGrid? tie range (leading - n) with
  | some x => stripZeros 20 x
  | none => ⟨mantissa, exponent⟩

end Decimal
end ThemeRules
