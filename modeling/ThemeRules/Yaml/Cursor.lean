import ThemeRules.Text.Hex

/-!
# ThemeRules.Yaml.Cursor

A place in a YAML text, and the classes of characters the text is made of. The place knows its line
and column, because the layout of a document is part of its meaning. The next line and the paragraph
separators of Unicode are line breaks; all breaks but the two separators are read as a line feed.
-/

namespace ThemeRules
namespace Yaml

def isAllowed (c : Char) : Bool :=
  let n := c.toNat
  n == 0x09 || n == 0x0A || n == 0x0D || (0x20 ≤ n && n ≤ 0x7E) || n == 0x85 ||
    (0xA0 ≤ n && n ≤ 0xD7FF) || (0xE000 ≤ n && n ≤ 0xFFFD) || 0x10000 ≤ n

def isBreak (c : Char) : Bool :=
  c == '\n' || c == '\r' || c == '\u0085' || c == '\u2028' || c == '\u2029'

def isBlank (c : Char) : Bool := c == ' ' || c == '\t'

def isNameChar (c : Char) : Bool :=
  ('0' ≤ c && c ≤ '9') || ('A' ≤ c && c ≤ 'Z') || ('a' ≤ c && c ≤ 'z') || c == '_' || c == '-'

/-- The text is over, or goes on with a blank or a line break. -/
def endsWord : List Char → Bool
  | [] => true
  | c :: _ => isBlank c || isBreak c

structure Cursor where
  rest : List Char
  index : Nat
  line : Nat
  column : Nat
  deriving Inhabited

namespace Cursor

def start (text : List Char) : Cursor := ⟨text, 0, 0, 0⟩

def advance (c : Cursor) (n : Nat) : Cursor :=
  { c with rest := c.rest.drop n, index := c.index + n, column := c.column + n }

/-- The longest run of characters of a class, and the place behind it. -/
def span (c : Cursor) (test : Char → Bool) : List Char × Cursor :=
  let taken := c.rest.takeWhile test
  (taken, c.advance taken.length)

def skipWhile (c : Cursor) (test : Char → Bool) : Cursor := (c.span test).2

/-- The line break at this place, as it is read, and the start of the next line. -/
def lineBreak? (c : Cursor) : Option (Char × Cursor) :=
  let next (rest : List Char) (n : Nat) : Cursor := ⟨rest, c.index + n, c.line + 1, 0⟩
  match c.rest with
  | '\r' :: '\n' :: rest => some ('\n', next rest 2)
  | b :: rest =>
    if isBreak b then
      some (if b == '\u2028' || b == '\u2029' then b else '\n', next rest 1)
    else none
  | [] => none

/-- Three characters at the start of a line that begin or end a document. -/
def atMarker (c : Cursor) (marker : List Char) : Bool :=
  c.column == 0 && marker.isPrefixOf c.rest && endsWord (c.rest.drop 3)

def atDocumentStart (c : Cursor) : Bool := c.atMarker ['-', '-', '-']

def atDocumentEnd (c : Cursor) : Bool := c.atMarker ['.', '.', '.']

def atDocumentMarker (c : Cursor) : Bool := c.atDocumentStart || c.atDocumentEnd

/-- A comment runs to the end of its line. -/
def skipComment (c : Cursor) : Cursor :=
  match c.rest with
  | '#' :: _ => c.skipWhile fun x => !isBreak x
  | _ => c

/-- The next line, if nothing but blanks and a comment stands on the rest of this one. -/
def endLine? (c : Cursor) : Option Cursor :=
  let c := (c.skipWhile isBlank).skipComment
  match c.lineBreak? with
  | some (_, next) => some next
  | none => if c.rest.isEmpty then some c else none

end Cursor
end Yaml
end ThemeRules
