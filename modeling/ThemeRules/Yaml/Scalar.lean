import ThemeRules.Decimal.Layout
import ThemeRules.Text.Hex

/-!
# ThemeRules.Yaml.Scalar

What a plain scalar means. An empty one and the words for null are null; `true` and `false` are
booleans; digits, also hexadecimal, octal and binary ones, are integers; decimals are floating-point
numbers; everything else is text. Digits behind a leading zero are text as well, since another
version of the language read them as octal.

An integer that 64 bits cannot hold, but 128 bits can, is kept apart (`wide`): hardly any reader
accepts it. Beyond that the digits are read as a floating-point number.
-/

namespace ThemeRules
namespace Yaml

inductive Scalar where
  | null
  | bool (b : Bool)
  | int (n : Int)
  | wide (n : Int)
  | double (x : Double)
  | text (s : String)
  deriving DecidableEq

namespace Scalar

def isNullWord (text : List Char) : Bool :=
  ["null".toList, "Null".toList, "NULL".toList, "~".toList].contains text

def bool? (text : List Char) : Option Bool :=
  if ["true".toList, "True".toList, "TRUE".toList].contains text then some true
  else if ["false".toList, "False".toList, "FALSE".toList].contains text then some false
  else none

def unsign : List Char → Bool × List Char
  | '+' :: rest => (false, rest)
  | '-' :: rest => (true, rest)
  | digits => (false, digits)

/-- Digits with a leading zero, with or without a sign. -/
def hasLeadingZero (text : List Char) : Bool :=
  match (unsign text).2 with
  | '0' :: c :: rest => (c :: rest).all (·.isDigit)
  | _ => false

/-! ## Integers -/

def digitValue? (radix : Nat) (c : Char) : Option Nat :=
  match Text.hexValue? c with
  | some d => if d < radix then some d else none
  | none => none

def natural? (radix : Nat) : List Char → Option Nat
  | [] => none
  | c :: rest => (c :: rest).foldl (fun value c =>
      match value, digitValue? radix c with
      | some v, some d => some (radix * v + d)
      | _, _ => none) (some 0)

/-- The magnitude behind the sign, in the radix that its first two characters name. -/
def magnitude? (text : List Char) : Option Nat :=
  match text with
  | '0' :: 'x' :: digits => natural? 16 digits
  | '0' :: 'o' :: digits => natural? 8 digits
  | '0' :: 'b' :: digits => natural? 2 digits
  | digits => if hasLeadingZero digits then none else natural? 10 digits

def integer? (text : List Char) : Option Int :=
  let (negative, digits) := unsign text
  (magnitude? digits).map fun n => if negative then -(n : Int) else n

/-- An integer by the number of bits it needs. -/
def ofInteger? (n : Int) : Option Scalar :=
  if -Nat.pow 2 63 ≤ n ∧ n < Nat.pow 2 64 then some (.int n)
  else if -Nat.pow 2 127 ≤ n ∧ n < Nat.pow 2 128 then some (.wide n)
  else none

def int? (text : List Char) : Option Scalar := (integer? text).bind ofInteger?

/-! ## Floating-point numbers -/

/-- The power of ten behind the digits; none written is zero. -/
def exponent? : List Char → Option Int
  | [] => some 0
  | c :: rest =>
    if c == 'e' || c == 'E' then
      let (negative, digits) := unsign rest
      (natural? 10 digits).map fun n => if negative then -(n : Int) else n
    else none

/-- A decimal with digits before or behind the point, or both. -/
def decimal? (text : List Char) : Option Double :=
  let (negative, text) := unsign text
  let whole := text.takeWhile (·.isDigit)
  let (places, rest) := match text.dropWhile (·.isDigit) with
    | '.' :: rest => (rest.takeWhile (·.isDigit), rest.dropWhile (·.isDigit))
    | rest => ([], rest)
  match natural? 10 (whole ++ places), exponent? rest with
  | some coefficient, some exponent =>
    let x := Double.ofDecimal negative coefficient (exponent - places.length)
    if x.isFinite then some x else none
  | _, _ => none

def double? (text : List Char) : Option Double :=
  let isInfinity (text : List Char) : Bool :=
    [".inf".toList, ".Inf".toList, ".INF".toList].contains text
  if isInfinity text then some (.infinity false)
  else if [".nan".toList, ".NaN".toList, ".NAN".toList].contains text then some .nan
  else
    match text with
    | '+' :: rest => if isInfinity rest then some (.infinity false) else decimal? text
    | '-' :: rest => if isInfinity rest then some (.infinity true) else decimal? text
    | _ => decimal? text

def ofPlain (s : String) : Scalar :=
  let text := s.toList
  if text.isEmpty || isNullWord text then .null
  else
    match bool? text with
    | some b => .bool b
    | none =>
      match int? text with
      | some n => n
      | none =>
        if hasLeadingZero text then .text s
        else
          match double? text with
          | some x => .double x
          | none => .text s

end Scalar
end Yaml
end ThemeRules
