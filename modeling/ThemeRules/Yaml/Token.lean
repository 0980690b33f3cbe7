import ThemeRules.Yaml.BlockText
import ThemeRules.Yaml.Property

/-!
# ThemeRules.Yaml.Token

A YAML text as a list of tokens. Block collections show in a text only by their columns; here their
starts and ends are tokens of their own, and every key of a mapping has a token before it.

That a value is a key is only known at the colon behind it. So wherever a key may start, the place
in the token list is remembered (`PendingKey`); at the colon the missing tokens are put there. One
place is pending for the block and one for each open flow collection. A pending key must end on its
line and within 1024 characters.
-/

namespace ThemeRules
namespace Yaml

inductive Token where
  | directive (directive : Directive)
  | documentStart
  | documentEnd
  | blockSequence
  | blockMapping
  | blockEnd
  | flowSequence
  | flowSequenceEnd
  | flowMapping
  | flowMappingEnd
  | blockEntry
  | flowEntry
  | key
  | value
  | alias (name : List Char)
  | anchor (name : List Char)
  | tag (tag : Tag)
  | scalar (isPlain : Bool) (text : List Char)

namespace Token

/-- A place where a key may have started. In a block, what stands at the column of the mapping has
to be a key. -/
structure PendingKey where
  required : Bool
  position : Nat
  index : Nat
  line : Nat
  column : Nat

/-- The state of reading tokens. `margin` is the column after that of the innermost block, and zero
outside of all blocks; `margins` are those of the blocks around it. `pending` belongs to the
innermost flow collection, `outer` to the collections around it and to the block. -/
structure Scanner where
  cursor : Cursor
  tokens : Array Token
  margin : Nat
  margins : List Nat
  pending : Option PendingKey
  outer : List (Option PendingKey)
  keyAllowed : Bool

namespace Scanner

def start (text : List Char) : Scanner :=
  ⟨.start text, #[], 0, [], none, [], true⟩

def inFlow (s : Scanner) : Bool := !s.outer.isEmpty

def push (s : Scanner) (token : Token) : Scanner := { s with tokens := s.tokens.push token }

def emit (s : Scanner) (token : Token) (next : Cursor) : Scanner :=
  { s.push token with cursor := next }

/-! ## Blocks -/

/-- Opens a block at a column right of the innermost one; its start goes to a place in the list. -/
def openBlock (s : Scanner) (column position : Nat) (token : Token) : Scanner :=
  if s.inFlow || column < s.margin then s
  else
    { s with
      margin := column + 1
      margins := s.margin :: s.margins
      tokens := s.tokens.insertIdxIfInBounds position token }

def closeBlocks (s : Scanner) (margin : Nat) : Scanner :=
  if s.inFlow then s else close s.margins s
where
  close : List Nat → Scanner → Scanner
    | [], s => s
    | outer :: margins, s =>
      if margin < s.margin then
        close margins { s.push .blockEnd with margin := outer, margins := margins }
      else s

/-! ## Pending keys -/

def dropKey (s : Scanner) : Option Scanner :=
  match s.pending with
  | some pending => if pending.required then none else some { s with pending := none }
  | none => some s

def noteKey (s : Scanner) : Option Scanner :=
  if s.keyAllowed then
    s.dropKey.map fun s =>
      { s with
        pending := some {
          required := !s.inFlow && s.margin == s.cursor.column + 1
          position := s.tokens.size
          index := s.cursor.index
          line := s.cursor.line
          column := s.cursor.column } }
  else some s

/-- The key that is still pending, if it started on this line and near enough. -/
def fresh? (c : Cursor) : Option PendingKey → Option (Option PendingKey)
  | none => some none
  | some pending =>
    if pending.line < c.line || pending.index + 1024 < c.index then
      if pending.required then none else some none
    else some (some pending)

def dropStale (s : Scanner) : Option Scanner :=
  match fresh? s.cursor s.pending, s.outer.mapM (fresh? s.cursor) with
  | some pending, some outer => some { s with pending, outer }
  | _, _ => none

/-! ## Skipping to the next token -/

/-- Skips blanks, comments and line breaks. Behind a line break of a block a key may start. A tab is
no blank where it could be indentation. A byte order mark at the very start is skipped as well, but
takes up a column. -/
def skipSpace : Nat → Scanner → Scanner
  | 0, s => s
  | fuel + 1, s =>
    let c := s.cursor
    let c := if c.index = 0 && c.rest.head? == some '\uFEFF' then c.advance 1 else c
    let tabs := s.inFlow || !s.keyAllowed
    let c := (c.skipWhile fun x => x == ' ' || (tabs && x == '\t')).skipComment
    match c.lineBreak? with
    | some (_, next) =>
      skipSpace fuel { s with cursor := next, keyAllowed := s.keyAllowed || !s.inFlow }
    | none => { s with cursor := c }

/-! ## One token -/

/-- Before a directive and at the ends of a document all blocks end and no key is pending. -/
def leaveDocument (s : Scanner) : Option Scanner :=
  (s.closeBlocks 0).dropKey.map fun s => { s with keyAllowed := false }

def documentMarker (s : Scanner) (token : Token) : Option Scanner :=
  s.leaveDocument.map fun s => s.emit token (s.cursor.advance 3)

def directive (s : Scanner) : Option Scanner :=
  match s.leaveDocument with
  | none => none
  | some s => (Yaml.directive s.cursor).map fun (directive, next) => s.emit (.directive directive) next

def flowStart (s : Scanner) (token : Token) : Option Scanner :=
  s.noteKey.map fun s =>
    { s.emit token (s.cursor.advance 1) with
      pending := none
      outer := s.pending :: s.outer
      keyAllowed := true }

def flowEnd (s : Scanner) (token : Token) : Option Scanner :=
  s.dropKey.map fun s =>
    let s := match s.outer with
      | [] => s
      | pending :: outer => { s with pending, outer }
    { s.emit token (s.cursor.advance 1) with keyAllowed := false }

def flowEntry (s : Scanner) : Option Scanner :=
  s.dropKey.map fun s => { s.emit .flowEntry (s.cursor.advance 1) with keyAllowed := true }

/-- Opens a block at this place if none is open at its column; fails where no key may start. -/
def blockHere (s : Scanner) (token : Token) : Option Scanner :=
  if s.inFlow then some s
  else if s.keyAllowed then some (s.openBlock s.cursor.column s.tokens.size token)
  else none

def blockEntry (s : Scanner) : Option Scanner :=
  ((s.blockHere .blockSequence).bind dropKey).map fun s =>
    { s.emit .blockEntry (s.cursor.advance 1) with keyAllowed := true }

def explicitKey (s : Scanner) : Option Scanner :=
  ((s.blockHere .blockMapping).bind dropKey).map fun s =>
    { s.emit .key (s.cursor.advance 1) with keyAllowed := !s.inFlow }

/-- The colon: what is pending becomes the key. -/
def value (s : Scanner) : Option Scanner :=
  match s.pending with
  | some pending =>
    let s := { s with
      pending := none
      keyAllowed := false
      tokens := s.tokens.insertIdxIfInBounds pending.position .key }
    let s := s.openBlock pending.column pending.position .blockMapping
    some (s.emit .value (s.cursor.advance 1))
  | none =>
    (s.blockHere .blockMapping).map fun s =>
      { s.emit .value (s.cursor.advance 1) with keyAllowed := !s.inFlow }

/-- A token that may be part of a key and behind which no key starts. -/
def inKey (s : Scanner) (read : Cursor → Option (Token × Cursor)) : Option Scanner :=
  match s.noteKey with
  | none => none
  | some s =>
    (read s.cursor).map fun (token, next) => { s.emit token next with keyAllowed := false }

def flowScalar (s : Scanner) (isPlain : Bool) (read : Cursor → Option Scanned) : Option Scanner :=
  match s.noteKey with
  | none => none
  | some s =>
    (read s.cursor).map fun scanned =>
      { s.emit (.scalar isPlain scanned.text) scanned.next with keyAllowed := scanned.multiline }

def blockScalar (s : Scanner) (folded : Bool) : Option Scanner :=
  match s.dropKey with
  | none => none
  | some s =>
    (block folded s.margin s.cursor).map fun scanned =>
      { s.emit (.scalar false scanned.text) scanned.next with keyAllowed := true }

def startsPlain (inFlow : Bool) (c : Char) (rest : List Char) : Bool :=
  if c == '-' then !rest.head?.any isBlank
  else if c == '?' || c == ':' then !inFlow && !endsWord rest
  else
    !(isBlank c || isBreak c ||
      [',', '[', ']', '{', '}', '#', '&', '*', '!', '|', '>', '\'', '"', '%', '@', '\x60'].contains c)

def token (s : Scanner) (c : Char) (rest : List Char) : Option Scanner :=
  if s.cursor.column = 0 && c == '%' then s.directive
  else if s.cursor.atDocumentStart then s.documentMarker .documentStart
  else if s.cursor.atDocumentEnd then s.documentMarker .documentEnd
  else if c == '[' then s.flowStart .flowSequence
  else if c == '{' then s.flowStart .flowMapping
  else if c == ']' then s.flowEnd .flowSequenceEnd
  else if c == '}' then s.flowEnd .flowMappingEnd
  else if c == ',' then s.flowEntry
  else if c == '-' && endsWord rest then s.blockEntry
  else if c == '?' && (s.inFlow || endsWord rest) then s.explicitKey
  else if c == ':' && (s.inFlow || endsWord rest) then s.value
  else if c == '*' then s.inKey fun c => (anchorName c).map fun (name, c) => (.alias name, c)
  else if c == '&' then s.inKey fun c => (anchorName c).map fun (name, c) => (.anchor name, c)
  else if c == '!' then s.inKey fun c => (Yaml.tag s.inFlow c).map fun (t, c) => (.tag t, c)
  else if c == '|' && !s.inFlow then s.blockScalar false
  else if c == '>' && !s.inFlow then s.blockScalar true
  else if c == '\'' then s.flowScalar false (quoted true)
  else if c == '"' then s.flowScalar false (quoted false)
  else if startsPlain s.inFlow c rest then s.flowScalar true (plain s.inFlow s.margin)
  else none

def run : Nat → Scanner → Option (Array Token)
  | 0, _ => none
  | fuel + 1, s =>
    match (s.skipSpace (s.cursor.rest.length + 1)).dropStale with
    | none => none
    | some s =>
      let s := s.closeBlocks (s.cursor.column + 1)
      match s.cursor.rest with
      | [] => s.leaveDocument.map (·.tokens)
      | c :: rest =>
        match s.token c rest with
        | none => none
        | some s => run fuel s

end Scanner

/-- The tokens of a text. Every token but the last takes at least one character. -/
def scan (text : List Char) : Option (List Token) :=
  if text.all isAllowed then
    (Scanner.run (text.length + 2) (.start text)).map Array.toList
  else none

end Token
end Yaml
end ThemeRules
