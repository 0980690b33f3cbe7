import ThemeRules.Text.Lower
import ThemeRules.Yaml.Cursor
import ThemeRules.Yaml.Scalar

/-!
# ThemeRules.Yaml.ScalarText

How a text is written as a scalar, so that it reads back as the same text. A text with line breaks is
a literal block, a text that would read as something else is in quotes, and any other text is plain.
Where the form does not fit the text, the next stricter one is taken: single quotes for what cannot be
plain, double quotes for what single quotes or a block cannot hold.
-/

namespace ThemeRules
namespace Yaml

def isPrintable (c : Char) : Bool :=
  let n := c.toNat
  n == 0x0A || (0x20 ≤ n && n ≤ 0x7E) || (0xA0 ≤ n && n ≤ 0xD7FF) ||
    (0xE000 ≤ n && n ≤ 0xFFFD && n != 0xFEFF) || 0x10000 ≤ n

structure Obstacles where
  /-- The text looks like structure where collections are blocks. -/
  indicator : Bool
  /-- A space or a line break stands at an end. -/
  looseEnd : Bool
  trailingSpace : Bool
  spaceAfterBreak : Bool
  spaceBeforeBreak : Bool
  unprintable : Bool
  lineBreak : Bool

def indicatesAtStart (c : Char) (next : List Char) : Bool :=
  ['#', ',', '[', ']', '{', '}', '&', '*', '!', '|', '>', '\'', '"', '%', '@', '\x60'].contains c ||
    (['?', ':', '-'].contains c && endsWord next)

def indicatesInside (before c : Char) (next : List Char) : Bool :=
  (c == ':' && endsWord next) || (c == '#' && endsWord [before])

def hasIndicatorFrom (before : Char) : List Char → Bool
  | [] => false
  | c :: rest => indicatesInside before c rest || hasIndicatorFrom c rest

def hasIndicator (text : List Char) : Bool :=
  match text with
  | [] => false
  | c :: rest =>
    indicatesAtStart c rest || hasIndicatorFrom c rest ||
      ['-', '-', '-'].isPrefixOf text || ['.', '.', '.'].isPrefixOf text

def hasPair (first second : Char → Bool) : List Char → Bool
  | a :: b :: rest => (first a && second b) || hasPair first second (b :: rest)
  | _ => false

def isSpace (c : Char) : Bool := c == ' '

def obstacles (text : List Char) : Obstacles where
  indicator := hasIndicator text
  looseEnd := (text.head?.toList ++ text.getLast?.toList).any fun c => isSpace c || isBreak c
  trailingSpace := text.getLast?.any isSpace
  spaceAfterBreak := hasPair isBreak isSpace text
  spaceBeforeBreak := hasPair isSpace isBreak text
  unprintable := text.any fun c => !isPrintable c
  lineBreak := text.any isBreak

inductive ScalarStyle where
  | plain
  | single
  | double
  | literal
  deriving DecidableEq

/-- A plain text that reads as no text, or did so in another version of the language. -/
def isAmbiguous (s : String) : Bool :=
  let lowered := Text.lower s.toList
  let asText := match Scalar.ofPlain s with
    | .text _ => true
    | _ => false
  !asText || (Scalar.bool? lowered).isSome || Scalar.isNullWord lowered || s.isEmpty ||
    Scalar.hasLeadingZero lowered

def wantedStyle (s : String) : ScalarStyle :=
  if s.toList.contains '\n' then .literal else if isAmbiguous s then .single else .plain

/-- The form a text gets; `isKey` says that it stands before a colon on the same line. -/
def scalarStyle (isKey : Bool) (s : String) : ScalarStyle :=
  let o := obstacles s.toList
  let plainFits :=
    !(o.indicator || o.looseEnd || o.spaceAfterBreak || o.spaceBeforeBreak || o.unprintable ||
      o.lineBreak)
  let singleFits := !(o.spaceAfterBreak || o.spaceBeforeBreak || o.unprintable)
  let literalFits := !(o.trailingSpace || o.spaceBeforeBreak || o.unprintable || isKey)
  let style := if isKey && o.lineBreak then .double else wantedStyle s
  match style with
  | .plain => if plainFits then .plain else if singleFits then .single else .double
  | .single => if singleFits then .single else .double
  | .literal => if literalFits then .literal else .double
  | .double => .double

/-! ## The forms -/

def doubleQuotedChar (c : Char) : List Char :=
  let hex (letter : Char) (width : Nat) : List Char :=
    let digits := (Nat.toDigits 16 c.toNat).map Char.toUpper
    '\\' :: letter :: List.replicate (width - digits.length) '0' ++ digits
  let short : List (Char × Char) := [
    ('\x00', '0'), ('\x07', 'a'), ('\x08', 'b'), ('\t', 't'), ('\n', 'n'), ('\x0b', 'v'),
    ('\x0c', 'f'), ('\r', 'r'), ('\x1b', 'e'), ('"', '"'), ('\\', '\\'), ('\u0085', 'N'),
    ('\u2028', 'L'), ('\u2029', 'P')]
  match short.lookup c with
  | some letter => ['\\', letter]
  | none =>
    if isPrintable c then [c]
    else if c.toNat ≤ 0xFF then hex 'x' 2
    else if c.toNat ≤ 0xFFFF then hex 'u' 4
    else hex 'U' 8

def indentation (n : Nat) : List Char := List.replicate n ' '

/-- The inside of single quotes. Behind a line break the text goes on at the indentation. -/
def singleQuotedFrom (indent : Nat) (behindBreak : Bool) : List Char → List Char
  | [] => if behindBreak then indentation indent else []
  | c :: rest =>
    if isBreak c then c :: singleQuotedFrom indent true rest
    else if c == ' ' then c :: singleQuotedFrom indent behindBreak rest
    else
      (if behindBreak then indentation indent else []) ++
        (if c == '\'' then ['\'', '\''] else [c]) ++ singleQuotedFrom indent false rest

/-- The lines of a literal block, without indentation where a line is empty. -/
def literalFrom (indent : Nat) (behindBreak : Bool) : List Char → List Char
  | [] => []
  | c :: rest =>
    if isBreak c then c :: literalFrom indent true rest
    else (if behindBreak then indentation indent else []) ++ c :: literalFrom indent false rest

/-- The hints behind the indicator of a block: the indentation, if the first line could be taken for
more of it, and what becomes of the breaks at the end. -/
def blockHints (text : List Char) : List Char :=
  let indent := if text.head?.any fun c => isSpace c || isBreak c then ['2'] else []
  let chomping := match text.reverse with
    | a :: b :: _ => if !isBreak a then ['-'] else if isBreak b then ['+'] else []
    | [a] => if isBreak a then ['+'] else ['-']
    | [] => ['-']
  indent ++ chomping

def scalarText (isKey : Bool) (indent : Nat) (s : String) : List Char :=
  let text := s.toList
  match scalarStyle isKey s with
  | .plain => text
  | .single => '\'' :: singleQuotedFrom indent false text ++ ['\'']
  | .double => '"' :: text.flatMap doubleQuotedChar ++ ['"']
  | .literal => '|' :: blockHints text ++ '\n' :: literalFrom indent true text

end Yaml
end ThemeRules
