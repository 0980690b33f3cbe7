import ThemeRules.Yaml.Cursor

/-!
# ThemeRules.Yaml.Property

What stands before a value: its anchor and its tag, and what stands before a document: directives. A
tag is a handle and a suffix; the document's directives say what the handle is short for. A tag in
angle brackets has no handle.
-/

namespace ThemeRules
namespace Yaml

def anchorName (c : Cursor) : Option (List Char × Cursor) :=
  let (name, next) := (c.advance 1).span isNameChar
  let ended := endsWord next.rest ||
    next.rest.head?.any fun x => ['?', ':', ',', ']', '}', '%', '@', '\x60'].contains x
  if name.isEmpty || !ended then none else some (name, next)

/-! ## Tags -/

/-- The characters of a tag; `verbatim` admits those that would end a tag elsewhere. -/
def isUriChar (verbatim : Bool) (c : Char) : Bool :=
  isNameChar c ||
    [';', '/', '?', ':', '@', '&', '=', '+', '$', '.', '!', '~', '*', '\'', '(', ')'].contains c ||
    (verbatim && [',', '[', ']'].contains c)

def uriByte? : List Char → Option Nat
  | '%' :: a :: b :: _ =>
    match Text.hexValue? a, Text.hexValue? b with
    | some x, some y => some (16 * x + y)
    | _, _ => none
  | _ => none

def utf8Width? (byte : Nat) : Option Nat :=
  if byte < 0x80 then some 1
  else if byte / 0x20 = 0x06 then some 2
  else if byte / 0x10 = 0x0E then some 3
  else if byte / 0x08 = 0x1E then some 4
  else none

def uriBytes : Nat → List Char → Option (List UInt8)
  | 0, _ => some []
  | n + 1, text =>
    match uriByte? text, uriBytes n (text.drop 3) with
    | some byte, some bytes => some (.ofNat byte :: bytes)
    | _, _ => none

/-- The character written as one or more `%` escapes, and their length. -/
def uriEscape? (text : List Char) : Option (Char × Nat) :=
  match (uriByte? text).bind utf8Width? with
  | none => none
  | some width =>
    match (uriBytes width text).bind fun bytes => String.fromUTF8? ⟨bytes.toArray⟩ with
    | none => none
    | some s =>
      match s.toList with
      | [x] => some (x, 3 * width)
      | _ => none

/-- The text of a tag or of what a handle is short for: decoded, with the length it was read from. -/
def uriText (verbatim : Bool) : Nat → List Char → Option (List Char × Nat)
  | 0, _ => some ([], 0)
  | _, [] => some ([], 0)
  | fuel + 1, c :: rest =>
    if c == '%' then
      match uriEscape? (c :: rest) with
      | none => none
      | some (x, n) =>
        (uriText verbatim fuel ((c :: rest).drop n)).map fun (text, length) => (x :: text, length + n)
    else if isUriChar verbatim c then
      (uriText verbatim fuel rest).map fun (text, length) => (c :: text, length + 1)
    else some ([], 0)

def uri (verbatim : Bool) (c : Cursor) : Option (List Char × Cursor) :=
  (uriText verbatim (c.rest.length + 1) c.rest).map fun (text, length) => (text, c.advance length)

structure Tag where
  handle : List Char
  suffix : List Char

/-- The tag at an exclamation mark, without a look at what ends it. -/
def openTag (c : Cursor) : Option (Tag × Cursor) :=
  match c.rest with
  | '!' :: '<' :: _ =>
    match uri true (c.advance 2) with
    | some (suffix@(_ :: _), next) =>
      if next.rest.head? == some '>' then some (⟨[], suffix⟩, next.advance 1) else none
    | _ => none
  | _ =>
    let (name, next) := (c.advance 1).span isNameChar
    if next.rest.head? == some '!' then
      match uri false (next.advance 1) with
      | some (suffix@(_ :: _), next) => some (⟨'!' :: name ++ ['!'], suffix⟩, next)
      | _ => none
    else
      match uri false next with
      | some (suffix, next) =>
        let suffix := name ++ suffix
        some (if suffix.isEmpty then ⟨[], ['!']⟩ else ⟨['!'], suffix⟩, next)
      | none => none

def tag (inFlow : Bool) (c : Cursor) : Option (Tag × Cursor) :=
  match openTag c with
  | some (tag, next) =>
    if endsWord next.rest || (inFlow && next.rest.head? == some ',') then some (tag, next) else none
  | none => none

/-! ## Directives -/

inductive Directive where
  | version (major minor : Nat)
  | handle (handle start : List Char)

def number? (digits : List Char) : Option Nat :=
  if digits.isEmpty || 9 < digits.length then none
  else some (digits.foldl (fun n c => 10 * n + (c.toNat - '0'.toNat)) 0)

def versionNumber (c : Cursor) : Option (Directive × Cursor) :=
  let (major, c) := c.span (·.isDigit)
  if c.rest.head? != some '.' then none
  else
    let (minor, c) := (c.advance 1).span (·.isDigit)
    match number? major, number? minor with
    | some major, some minor => some (.version major minor, c)
    | _, _ => none

/-- A tag handle: an exclamation mark, or a name between two. -/
def tagHandle (c : Cursor) : Option (List Char × Cursor) :=
  if c.rest.head? != some '!' then none
  else
    let (name, c) := (c.advance 1).span isNameChar
    if c.rest.head? == some '!' then some ('!' :: name ++ ['!'], c.advance 1)
    else if name.isEmpty then some (['!'], c)
    else none

def handleMeaning (c : Cursor) : Option (Directive × Cursor) :=
  match tagHandle c with
  | none => none
  | some (handle, c) =>
    if !c.rest.head?.any isBlank then none
    else
      match uri true (c.skipWhile isBlank) with
      | some (start@(_ :: _), c) =>
        if endsWord c.rest then some (.handle handle start, c) else none
      | _ => none

/-- The directive at a percent sign, and the next line. -/
def directive (c : Cursor) : Option (Directive × Cursor) :=
  let (name, c) := (c.advance 1).span isNameChar
  if !endsWord c.rest then none
  else
    let c := c.skipWhile isBlank
    let read :=
      if name = "YAML".toList then versionNumber c
      else if name = "TAG".toList then handleMeaning c
      else none
    match read with
    | none => none
    | some (directive, c) => (c.endLine?).map fun c => (directive, c)

end Yaml
end ThemeRules
