import ThemeRules.Json.Basic
import ThemeRules.Yaml.ScalarText

/-!
# ThemeRules.Yaml.Writer

Documents as YAML text. Collections are blocks, with two spaces a level; the items of a sequence in a
mapping stand at the column of the mapping. Empty collections are written with brackets. A key stands
before its colon on one line if it is one line of at most 128 bytes; otherwise it follows a question
mark, and the colon gets a line of its own.
-/

namespace ThemeRules
namespace Yaml

/-- Ends a line, unless a block has done so already. -/
def endLine (text : List Char) : List Char :=
  if text.getLast?.any isBreak then text else text ++ ['\n']

def writeAtom (indent : Nat) : Json → List Char
  | .null => "null".toList
  | .bool b => (if b then "true" else "false").toList
  | .int n => (toString n).toList
  | .double x => (x.json?.getD "null").toList
  | .string s => scalarText false indent s
  | .array _ => ['[', ']']
  | .object _ => ['{', '}']

def isSimpleKey (key : String) : Bool := !key.toList.any isBreak && key.utf8ByteSize ≤ 128

mutual

def writeEntries (indent : Nat) : List (String × Json) → List Char
  | [] => []
  | (key, value) :: rest =>
    let lines :=
      if isSimpleKey key then
        indentation indent ++ scalarText true (indent + 2) key ++ ':' :: writeBelow indent value
      else
        indentation indent ++ '?' :: ' ' :: endLine (scalarText false (indent + 2) key) ++
          indentation indent ++ ':' :: writeBeside indent value
    lines ++ writeEntries indent rest

def writeItems (indent : Nat) : List Json → List Char
  | [] => []
  | item :: rest => indentation indent ++ '-' :: writeBeside indent item ++ writeItems indent rest

/-- A value behind a key; a collection starts on the next line. -/
def writeBelow (indent : Nat) : Json → List Char
  | .object (field :: fields) => '\n' :: writeEntries (indent + 2) (field :: fields)
  | .array (item :: items) => '\n' :: writeItems indent (item :: items)
  | value => ' ' :: endLine (writeAtom (indent + 2) value)

/-- A value behind an indicator; a collection starts on the same line. -/
def writeBeside (indent : Nat) : Json → List Char
  | .object (field :: fields) =>
    ' ' :: (writeEntries (indent + 2) (field :: fields)).drop (indent + 2)
  | .array (item :: items) => ' ' :: (writeItems (indent + 2) (item :: items)).drop (indent + 2)
  | value => ' ' :: endLine (writeAtom (indent + 2) value)

end

def write (document : Json) : String :=
  .ofList <|
    match document with
    | .object (field :: fields) => writeEntries 0 (field :: fields)
    | .array (item :: items) => writeItems 0 (item :: items)
    | document => endLine (writeAtom 2 document)

end Yaml
end ThemeRules
