import ThemeRules.Json.Basic
import ThemeRules.Text.Hex

/-!
# ThemeRules.Json.Printer

The two written forms of a document: `compact` without any space, and `pretty` with one item a line
and an indent of two spaces a level. Strings escape the quote, the backslash and the controls below
the space; everything else stands for itself. A number that has no written form is `null`.
-/

namespace ThemeRules
namespace Json

def escapeChar (c : Char) : List Char :=
  if c = '"' then ['\\', '"']
  else if c = '\\' then ['\\', '\\']
  else if c = '\n' then ['\\', 'n']
  else if c = '\r' then ['\\', 'r']
  else if c = '\t' then ['\\', 't']
  else if c = '\x08' then ['\\', 'b']
  else if c = '\x0c' then ['\\', 'f']
  else if c.toNat < 0x20 then
    ['\\', 'u', '0', '0', Text.hexDigit (c.toNat / 16), Text.hexDigit (c.toNat % 16)]
  else [c]

def quoted (s : String) : String :=
  .ofList ('"' :: s.toList.flatMap escapeChar ++ ['"'])

/-- The text of a document that is neither an array nor an object. -/
def atom : Json → String
  | .bool b => if b then "true" else "false"
  | .int n => toString n
  | .double x => x.json?.getD "null"
  | .string s => quoted s
  | _ => "null"

def openBrace : String := "\x7b"
def closeBrace : String := "\x7d"

mutual

def compact : Json → String
  | .array items => "[" ++ ",".intercalate (compactItems items) ++ "]"
  | .object fields => openBrace ++ ",".intercalate (compactFields fields) ++ closeBrace
  | document => document.atom

def compactItems : List Json → List String
  | [] => []
  | item :: rest => compact item :: compactItems rest

def compactFields : List (String × Json) → List String
  | [] => []
  | (key, value) :: rest => (quoted key ++ ":" ++ compact value) :: compactFields rest

end

/-- Lines between two brackets, each indented and the closing bracket less so. -/
def block (opening closing : String) (depth : Nat) (lines : List String) : String :=
  let indent (n : Nat) : String := .ofList ('\n' :: List.replicate (2 * n) ' ')
  if lines.isEmpty then opening ++ closing
  else
    opening ++ indent (depth + 1) ++ ("," ++ indent (depth + 1)).intercalate lines ++
      indent depth ++ closing

mutual

def prettyAt (depth : Nat) : Json → String
  | .array items => block "[" "]" depth (prettyItems (depth + 1) items)
  | .object fields => block openBrace closeBrace depth (prettyFields (depth + 1) fields)
  | document => document.atom

def prettyItems (depth : Nat) : List Json → List String
  | [] => []
  | item :: rest => prettyAt depth item :: prettyItems depth rest

def prettyFields (depth : Nat) : List (String × Json) → List String
  | [] => []
  | (key, value) :: rest =>
    (quoted key ++ ": " ++ prettyAt depth value) :: prettyFields depth rest

end

def pretty (document : Json) : String := prettyAt 0 document

end Json
end ThemeRules
