import ThemeRules.Yaml.FlowText

/-!
# ThemeRules.Yaml.BlockText

Scalars written as an indented block of lines. Behind the indicator stand, in either order, an
indentation and what becomes of the line breaks at the end (`chomping`). A literal block keeps its
breaks; a folded one turns a single break between two lines that start with text into a space.
-/

namespace ThemeRules
namespace Yaml

/-- What is kept of the line breaks at the end: none, one or all. -/
inductive Chomping where
  | strip
  | clip
  | keep
  deriving DecidableEq

structure BlockHeader where
  chomping : Chomping
  increment : Option Nat

def chomping? : List Char → Option Chomping
  | '+' :: _ => some .keep
  | '-' :: _ => some .strip
  | _ => none

def indentDigit? : List Char → Option Nat
  | c :: _ => if '0' ≤ c && c ≤ '9' then some (c.toNat - '0'.toNat) else none
  | [] => none

def blockHeader (c : Cursor) : Option (BlockHeader × Cursor) :=
  let (chomping, increment, c) :=
    match chomping? c.rest with
    | some chomping =>
      let c := c.advance 1
      match indentDigit? c.rest with
      | some n => (chomping, some n, c.advance 1)
      | none => (chomping, none, c)
    | none =>
      match indentDigit? c.rest with
      | some n =>
        let c := c.advance 1
        match chomping? c.rest with
        | some chomping => (chomping, some n, c.advance 1)
        | none => (.clip, some n, c)
      | none => (.clip, none, c)
  if increment = some 0 then none
  else (c.endLine?).map fun c => (⟨chomping, increment⟩, c)

/-- Skips empty lines and indentation: the breaks passed, the deepest column seen and the place of
the next text. No tab may stand inside the indentation, which is unbounded while it is unknown. -/
def blockBreaks : Nat → (indent : Option Nat) → List Char → (deepest : Nat) → Cursor →
    Option (List Char × Nat × Cursor)
  | 0, _, breaks, deepest, c => some (breaks, deepest, c)
  | fuel + 1, indent, breaks, deepest, c =>
    let spaces := c.rest.takeWhile (· == ' ')
    let n := match indent with
      | none => spaces.length
      | some indent => min spaces.length (indent - c.column)
    let c := c.advance n
    let deepest := max deepest c.column
    let inside := match indent with
      | none => true
      | some indent => c.column < indent
    if inside && c.rest.head? == some '\t' then none
    else
      match c.lineBreak? with
      | some (b, next) => blockBreaks fuel indent (breaks ++ [b]) deepest next
      | none => some (breaks, deepest, c)

/-- What has been read of a block: its text, the break behind the last line, the empty lines after
that, and whether the last line began with a blank. -/
structure BlockLines where
  text : List Char
  lastBreak : Option Char
  emptyLines : List Char
  blankStart : Bool

def BlockLines.joined (lines : BlockLines) (folded nextBlank : Bool) : List Char :=
  if folded && lines.lastBreak == some '\n' && !lines.blankStart && !nextBlank then
    lines.text ++ (if lines.emptyLines.isEmpty then [' '] else []) ++ lines.emptyLines
  else lines.text ++ lines.lastBreak.toList ++ lines.emptyLines

def blockLines : Nat → (folded : Bool) → (indent : Nat) → BlockLines → Cursor →
    Option (BlockLines × Cursor)
  | 0, _, _, lines, c => some (lines, c)
  | fuel + 1, folded, indent, lines, c =>
    if c.column != indent || c.rest.isEmpty then some (lines, c)
    else
      let nextBlank := c.rest.head?.any isBlank
      let text := lines.joined folded nextBlank
      let (line, c) := c.span fun x => !isBreak x
      let (lastBreak, c) := match c.lineBreak? with
        | some (b, next) => (some b, next)
        | none => (none, c)
      match blockBreaks (c.rest.length + 1) (some indent) [] 0 c with
      | none => none
      | some (emptyLines, _, c) =>
        blockLines fuel folded indent ⟨text ++ line, lastBreak, emptyLines, nextBlank⟩ c

/-- A block scalar at its indicator. Its lines stand right of `margin`, the column after that of the
enclosing block. -/
def block (folded : Bool) (margin : Nat) (c : Cursor) : Option Scanned :=
  match blockHeader (c.advance 1) with
  | none => none
  | some (header, c) =>
    let known := header.increment.map fun n => margin - 1 + n
    match blockBreaks (c.rest.length + 1) known [] 0 c with
    | none => none
    | some (breaks, deepest, c) =>
      let indent := known.getD (max deepest (max margin 1))
      match blockLines (c.rest.length + 1) folded indent ⟨[], none, breaks, false⟩ c with
      | none => none
      | some (lines, c) =>
        let tail := match header.chomping with
          | .strip => []
          | .clip => lines.lastBreak.toList
          | .keep => lines.lastBreak.toList ++ lines.emptyLines
        some ⟨lines.text ++ tail, true, c⟩

end Yaml
end ThemeRules
