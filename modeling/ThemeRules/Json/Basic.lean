import ThemeRules.Decimal.Layout
import ThemeRules.OrderedMap

/-!
# ThemeRules.Json.Basic

Documents as values: what a token file holds, and what the library writes of its own values before
a printer gives them a text. The fields of an object keep their order.
-/

namespace ThemeRules

inductive Json where
  | null
  | bool (b : Bool)
  | int (n : Int)
  | double (x : Double)
  | string (s : String)
  | array (items : List Json)
  | object (fields : List (String × Json))
  deriving Inhabited

namespace Json

def string? : Json → Option String
  | .string s => some s
  | _ => none

/-- The value of a field of an object; no other document has fields. -/
def field? (document : Json) (key : String) : Option Json :=
  match document with
  | .object fields => fields.lookup key
  | _ => none

def ofStrings (map : OrderedMap String) : Json :=
  .object (map.entries.map fun e => (e.1, .string e.2))

end Json
end ThemeRules
