import ThemeRules.Glob.Pattern

/-!
# ThemeRules.Glob.Matching

When a path matches a pattern. Paths are matched byte by byte. `Token.remainders` gives everything a
text can go on with behind a match of the token; a text matches a list of tokens if nothing is left
behind the last one. A branch that can only be empty counts for nothing in a group, so a group
matches the empty text only if all its branches are of that kind.
-/

namespace ThemeRules
namespace Glob

abbrev Bytes := List UInt8

def slash : UInt8 := 0x2F

def encode (text : List Char) : Bytes := text.flatMap String.utf8EncodeChar

/-! ## Classes of bytes -/

/-- A range between two characters holds all bytes from the last of the first character to the first
of the last character, and the other bytes of both. For ASCII characters that is the range itself. -/
def inRange (range : Char × Char) (b : UInt8) : Bool :=
  let low := String.utf8EncodeChar range.1
  let high := String.utf8EncodeChar range.2
  if range.1 = range.2 then low.contains b
  else
    low.contains b || high.contains b ||
      match low.getLast?, high.head? with
      | some x, some y => x ≤ b && b ≤ y
      | _, _ => false

def inClass (negated : Bool) (ranges : List (Char × Char)) (b : UInt8) : Bool :=
  ranges.any (inRange · b) != negated

/-! ## What is left behind a match -/

def suffixes : Bytes → List Bytes
  | [] => [[]]
  | b :: rest => (b :: rest) :: suffixes rest

/-- What is left behind any run of bytes that are no separators. -/
def afterRun : Bytes → List Bytes
  | [] => [[]]
  | b :: rest => (b :: rest) :: if b = slash then [] else afterRun rest

/-- What follows the separators of a text. -/
def afterSlashes : Bytes → List Bytes
  | [] => []
  | b :: rest => if b = slash then rest :: afterSlashes rest else afterSlashes rest

def afterText : (text : Bytes) → Bytes → List Bytes
  | [], rest => [rest]
  | a :: text, b :: rest => if a = b then afterText text rest else []
  | _ :: _, [] => []

mutual

def Token.isVoid : Token → Bool
  | .alternatives branches => allVoid branches
  | _ => false

def isVoid : List Token → Bool
  | [] => true
  | token :: rest => token.isVoid && isVoid rest

def allVoid : List (List Token) → Bool
  | [] => true
  | branch :: rest => isVoid branch && allVoid rest

end

mutual

/-- What is left of a text behind a match of the token. -/
def Token.remainders : Token → Bytes → List Bytes
  | .literal c, text => afterText (String.utf8EncodeChar c) text
  | .anyByte, text =>
    match text with
    | b :: rest => if b = slash then [] else [rest]
    | [] => []
  | .anyRun, text => afterRun text
  | .leading, text => text :: afterSlashes text
  | .trailing, text =>
    match text with
    | b :: rest => if b = slash then suffixes rest else []
    | [] => []
  | .between, text =>
    match text with
    | b :: rest => if b = slash then rest :: afterSlashes rest else []
    | [] => []
  | .oneOf negated ranges, text =>
    match text with
    | b :: rest => if inClass negated ranges b then [rest] else []
    | [] => []
  | .alternatives branches, text =>
    if allVoid branches then [text] else branchRemainders branches text

def remainders : List Token → List Bytes → List Bytes
  | [], texts => texts
  | token :: rest, texts => remainders rest (texts.flatMap fun t => token.remainders t).eraseDups

def branchRemainders : List (List Token) → Bytes → List Bytes
  | [], _ => []
  | branch :: rest, text =>
    (if isVoid branch then [] else remainders branch [text]) ++ branchRemainders rest text

end

/-- The text matches the tokens. Two stars alone match everything. -/
def isMatch (tokens : List Token) (text : Bytes) : Bool :=
  match tokens with
  | [.leading] => true
  | _ => (remainders tokens [text]).contains []

end Glob
end ThemeRules
