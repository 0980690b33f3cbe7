import ThemeRules.Yaml.Cursor

/-!
# ThemeRules.Yaml.FlowText

Scalars that may go on over several lines wherever a blank could stand: plain ones and those in
quotes. Between two words there is a gap. A gap inside a line is kept as it is; a gap with one line
break is a space; in a gap with more, the first break is dropped and the others stay. A separator of
Unicode at the first place of the breaks is kept too.
-/

namespace ThemeRules
namespace Yaml

/-- The blanks and line breaks between two words. `blanks` counts while there was no line break;
`first` is the first break, unless a backslash hid it. -/
structure Gap where
  blanks : List Char
  broken : Bool
  first : Option Char
  more : List Char

namespace Gap

def none : Gap := ⟨[], false, .none, []⟩

def hidden : Gap := ⟨[], true, .none, []⟩

def fold (gap : Gap) : List Char :=
  if gap.broken then
    match gap.first with
    | some '\n' => if gap.more.isEmpty then [' '] else gap.more
    | some c => c :: gap.more
    | .none => gap.more
  else gap.blanks

def hasTabBefore (column : Nat) (blanks : List Char) (start : Nat) : Bool :=
  (blanks.take (column - start)).contains '\t'

/-- Reads on in a gap. Behind a line break no tab may stand left of `margin`. -/
def read : Nat → (margin : Nat) → Gap → Cursor → Option (Gap × Cursor)
  | 0, _, gap, c => some (gap, c)
  | fuel + 1, margin, gap, c =>
    let (blanks, next) := c.span isBlank
    if gap.broken && hasTabBefore margin blanks c.column then .none
    else
      let gap := if gap.broken then gap else { gap with blanks := gap.blanks ++ blanks }
      match next.lineBreak? with
      | .none => some (gap, next)
      | some (b, next) =>
        let gap :=
          if gap.broken then { gap with more := gap.more ++ [b] }
          else { gap with broken := true, first := some b }
        read fuel margin gap next

end Gap

/-- A scalar read from the text, and what follows it. `multiline` says that a line break came last,
so that a new key may start here. -/
structure Scanned where
  text : List Char
  multiline : Bool
  next : Cursor

/-! ## Plain scalars -/

def isFlowIndicator (c : Char) : Bool := [',', '[', ']', '{', '}'].contains c

/-- The characters of a plain scalar up to the next gap or the indicator that ends it. -/
def plainWord (inFlow : Bool) : List Char → Option (List Char)
  | [] => some []
  | c :: rest =>
    if isBlank c || isBreak c then some []
    else if inFlow && c == ':' && (rest.head?.any fun d => d == '?' || isFlowIndicator d) then none
    else if (c == ':' && endsWord rest) || (inFlow && isFlowIndicator c) then some []
    else (plainWord inFlow rest).map (c :: ·)

/-- Reads a plain scalar on: `text` has been read, `gap` came last. Outside of flow collections it
ends where a line starts left of `margin`. -/
def plainFrom : Nat → (inFlow : Bool) → (margin : Nat) → List Char → Gap → Cursor → Option Scanned
  | 0, _, _, text, gap, c => some ⟨text, gap.broken, c⟩
  | fuel + 1, inFlow, margin, text, gap, c =>
    if c.atDocumentMarker || c.rest.head? == some '#' then some ⟨text, gap.broken, c⟩
    else
      match plainWord inFlow c.rest with
      | none => none
      | some [] => some ⟨text, gap.broken, c⟩
      | some word =>
        let text := text ++ gap.fold ++ word
        let c := c.advance word.length
        if c.rest.isEmpty || !endsWord c.rest then some ⟨text, false, c⟩
        else
          match Gap.read (c.rest.length + 1) margin Gap.none c with
          | none => none
          | some (gap, c) =>
            if !inFlow && c.column < margin then some ⟨text, gap.broken, c⟩
            else plainFrom fuel inFlow margin text gap c

def plain (inFlow : Bool) (margin : Nat) (c : Cursor) : Option Scanned :=
  plainFrom (c.rest.length + 1) inFlow margin [] Gap.none c

/-! ## Quoted scalars -/

def simpleEscape? : Char → Option Char
  | '0' => some '\x00'
  | 'a' => some '\x07'
  | 'b' => some '\x08'
  | 't' | '\t' => some '\t'
  | 'n' => some '\n'
  | 'v' => some '\x0b'
  | 'f' => some '\x0c'
  | 'r' => some '\r'
  | 'e' => some '\x1b'
  | ' ' => some ' '
  | '"' => some '"'
  | '/' => some '/'
  | '\\' => some '\\'
  | 'N' => some '\u0085'
  | '_' => some '\u00a0'
  | 'L' => some '\u2028'
  | 'P' => some '\u2029'
  | _ => none

def escapeDigits? : Char → Option Nat
  | 'x' => some 2
  | 'u' => some 4
  | 'U' => some 8
  | _ => none

def hexNumber? (n : Nat) (text : List Char) : Option Nat :=
  let digits := text.take n
  if digits.length < n then none
  else digits.foldl (fun value c =>
    match value, Text.hexValue? c with
    | some v, some d => some (16 * v + d)
    | _, _ => none) (some 0)

/-- The character of an escape behind its backslash, and the length of that escape. -/
def escape? : List Char → Option (Char × Nat)
  | [] => none
  | c :: rest =>
    match simpleEscape? c, escapeDigits? c with
    | some x, _ => some (x, 1)
    | none, some n =>
      match hexNumber? n rest with
      | some value => if value.isValidChar then some (Char.ofNat value, n + 1) else none
      | none => none
    | none, none => none

/-- A run of text in quotes up to the next gap or the closing quote: its text and its length.
`hidden` says that a backslash before a line break ended it. -/
structure QuotedWord where
  text : List Char
  length : Nat
  hidden : Bool

def QuotedWord.cons (c : Char) (length : Nat) (word : QuotedWord) : QuotedWord :=
  { word with text := c :: word.text, length := word.length + length }

def quotedWord (single : Bool) : Nat → List Char → Option QuotedWord
  | 0, _ => some ⟨[], 0, false⟩
  | _, [] => some ⟨[], 0, false⟩
  | fuel + 1, c :: rest =>
    if isBlank c || isBreak c then some ⟨[], 0, false⟩
    else if single then
      if c == '\'' then
        match rest with
        | '\'' :: after => (quotedWord single fuel after).map (.cons '\'' 2)
        | _ => some ⟨[], 0, false⟩
      else (quotedWord single fuel rest).map (.cons c 1)
    else if c == '"' then some ⟨[], 0, false⟩
    else if c == '\\' then
      if rest.head?.any isBreak then some ⟨[], 1, true⟩
      else
        match escape? rest with
        | some (x, n) => (quotedWord single fuel (rest.drop n)).map (.cons x (n + 1))
        | none => none
    else (quotedWord single fuel rest).map (.cons c 1)

def quotedFrom : Nat → (single : Bool) → List Char → Cursor → Option Scanned
  | 0, _, _, _ => none
  | fuel + 1, single, text, c =>
    if c.atDocumentMarker || c.rest.isEmpty then none
    else
      match quotedWord single (c.rest.length + 1) c.rest with
      | none => none
      | some word =>
        let text := text ++ word.text
        let c := c.advance word.length
        let (gap, c) :=
          match word.hidden, c.lineBreak? with
          | true, some (_, next) => (Gap.hidden, next)
          | _, _ => (Gap.none, c)
        if c.rest.head? == some (if single then '\'' else '"') then
          some ⟨text, false, c.advance 1⟩
        else
          match Gap.read (c.rest.length + 1) 0 gap c with
          | none => none
          | some (gap, c) => quotedFrom fuel single (text ++ gap.fold) c

def quoted (single : Bool) (c : Cursor) : Option Scanned :=
  let c := c.advance 1
  quotedFrom (c.rest.length + 1) single [] c

end Yaml
end ThemeRules
