import ThemeRules.Json.Reader
import ThemeRules.Token.Path

/-!
# ThemeRules.Token.Table

A table of design tokens is a document, usually the resolved theme of a style framework. A path leads
from its root through the keys of objects and the indices of arrays. Only texts serve as values; where
a path leads to anything else, or nowhere, a default takes its place.
-/

namespace ThemeRules

structure TokenTable where
  root : Json
  deriving Inhabited

namespace Token

/-- An index of an array: digits, perhaps behind a plus sign, of a number that 64 bits hold. -/
def index? (segment : List Char) : Option Nat :=
  let digits := match segment with
    | '+' :: rest => rest
    | digits => digits
  if digits.isEmpty || !digits.all (·.isDigit) then none
  else
    let n := digits.foldl (fun n c => 10 * n + (c.toNat - '0'.toNat)) 0
    if n < UInt64.size then some n else none

def child? (document : Json) (segment : List Char) : Option Json :=
  match document with
  | .object fields => fields.lookup (.ofList segment)
  | .array items => (index? segment).bind fun i => items[i]?
  | _ => none

/-- Follows segments from a document on. -/
def descend : Json → List (List Char) → Option Json
  | document, [] => some document
  | document, segment :: rest =>
    match child? document segment with
    | some next => descend next rest
    | none => none

end Token

namespace TokenTable

def lookup (tokens : TokenTable) (path : String) : Option Json :=
  Token.descend tokens.root (Token.parsePath path.toList)

def text? (tokens : TokenTable) (path : String) : Option String :=
  (tokens.lookup path).bind Json.string?

def ofYaml (text : String) : Except Yaml.Fault TokenTable :=
  match Json.ofYaml text with
  | .error fault => .error fault
  | .ok root => .ok ⟨root⟩

end TokenTable
end ThemeRules
