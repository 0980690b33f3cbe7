import ThemeRules.Text.Hex

/-!
# ThemeRules.Css.Identifier

CSS identifiers. A name is written so that a style sheet reads it as one identifier: a backslash goes
before most characters that are not part of a name, and a control character is written as its code
point in hexadecimal. Which characters need an escape depends on where they stand: a digit does at the
start, also behind a hyphen, and a hyphen does if it is the whole name.
-/

namespace ThemeRules
namespace Css

open Text

/-- U+FFFD, which stands for the code points that CSS text cannot hold. -/
def replacement : Char := '\uFFFD'

/-- A letter, a digit, an underscore, a hyphen or a character beyond ASCII: the characters that
stand for themselves inside a name. -/
def isNameChar (c : Char) : Bool :=
  ('0' ≤ c && c ≤ '9') || ('A' ≤ c && c ≤ 'Z') || ('a' ≤ c && c ≤ 'z') || c == '_' || c == '-' ||
    0x80 ≤ c.toNat

def hexEscape (c : Char) : List Char :=
  if c.toNat < 16 then ['\\', hexDigit c.toNat, ' ']
  else ['\\', hexDigit (c.toNat / 16), hexDigit (c.toNat % 16), ' ']

def escapeChar (c : Char) : List Char :=
  if isNameChar c then [c]
  else if c = '\x00' then [replacement]
  else if c.toNat < 0x20 || c.toNat == 0x7F then hexEscape c
  else ['\\', c]

def escapeName (name : List Char) : List Char := name.flatMap escapeChar

/-- A name whose first character must not be a digit. -/
def escapeStart : List Char → List Char
  | [] => []
  | c :: rest => (if '0' ≤ c && c ≤ '9' then hexEscape c else escapeChar c) ++ escapeName rest

def escape : List Char → List Char
  | ['-'] => ['\\', '-']
  | '-' :: '-' :: rest => '-' :: '-' :: escapeName rest
  | '-' :: rest => '-' :: escapeStart rest
  | name => escapeStart name

end Css

def escapeIdentifier (name : String) : String := .ofList (Css.escape name.toList)

end ThemeRules
