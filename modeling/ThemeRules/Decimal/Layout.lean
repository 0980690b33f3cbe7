import ThemeRules.Decimal.Shortest

/-!
# ThemeRules.Decimal.Layout

The two written forms of a number. `Double.plain` is the form of a style value: positional, however
long that gets, and without a fraction where there is none. `Double.json?` is the form of a document:
always recognisable as a fraction, and scientific for very large and very small numbers.
-/

namespace ThemeRules
namespace Decimal

/-- The digits of a decimal with the point where it belongs; `ifIntegral` ends a number without a
fraction. -/
def positional (x : Scaled) (ifIntegral : List Char) : List Char :=
  let digits := decimalDigits x.coefficient
  if 0 ≤ x.exponent then digits ++ List.replicate x.exponent.toNat '0' ++ ifIntegral
  else
    let places := (-x.exponent).toNat
    if digits.length ≤ places then
      '0' :: '.' :: (List.replicate (places - digits.length) '0' ++ digits)
    else digits.take (digits.length - places) ++ '.' :: digits.drop (digits.length - places)

def scientific (x : Scaled) : List Char :=
  let digits := decimalDigits x.coefficient
  let power := x.exponent + (digits.length - 1 : Int)
  let fraction := match digits.drop 1 with
    | [] => []
    | rest => '.' :: rest
  digits.take 1 ++ fraction ++ 'e' :: (if power < 0 then '-' else '+') ::
    decimalDigits power.natAbs

end Decimal

namespace Double

open Decimal

def sign (negative : Bool) : List Char := if negative then ['-'] else []

/-- The positional form; a tie between two shortest forms goes up. -/
def plain (x : Double) : String :=
  match x.meaning with
  | .nan => "NaN"
  | .infinite negative => .ofList (sign negative ++ ['i', 'n', 'f'])
  | .finite negative 0 _ => .ofList (sign negative ++ ['0'])
  | .finite negative mantissa exponent =>
    .ofList (sign negative ++ positional (shortest .up mantissa exponent) [])

/-- The form of a document, which has none for infinities and for what is no number. Numbers from
`1e-5` up to but not including `1e16` are positional; a tie goes to the even digit. -/
def json? (x : Double) : Option String :=
  match x.meaning with
  | .nan | .infinite _ => none
  | .finite negative 0 _ => some (.ofList (sign negative ++ ['0', '.', '0']))
  | .finite negative mantissa exponent =>
    let digits := shortest .even mantissa exponent
    let leading := digits.exponent + ((decimalDigits digits.coefficient).length - 1 : Int)
    let body :=
      if -5 ≤ leading && leading < 16 then positional digits ['.', '0'] else scientific digits
    some (.ofList (sign negative ++ body))

end Double
end ThemeRules
