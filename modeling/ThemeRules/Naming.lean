import ThemeRules.Css.Identifier
import ThemeRules.Text.Kebab

/-!
# ThemeRules.Naming

How the class name of a theme becomes a selector. The authored name may carry the marker `.`; it is
taken off, a modifier is appended behind two hyphens, the name is normalised as the naming says,
escaped as a CSS identifier and marked again.
-/

namespace ThemeRules

/-- What happens to a name before it is escaped: kebab-case, or nothing. -/
inductive Naming where
  | kebab
  | verbatim
  deriving DecidableEq, Inhabited

namespace Naming

def word : Naming → String
  | .kebab => "kebab"
  | .verbatim => "verbatim"

def ofWord? (word : String) : Option Naming :=
  if word = "kebab" then some .kebab
  else if word = "verbatim" then some .verbatim
  else none

def stripMarker : List Char → List Char
  | '.' :: rest => rest
  | name => name

/-- The authored name with its modifier; an empty modifier counts as none. -/
def baseName (className : List Char) : Option (List Char) → List Char
  | none => stripMarker className
  | some [] => stripMarker className
  | some modifier => stripMarker className ++ '-' :: '-' :: modifier

def normalise (naming : Naming) (name : List Char) : List Char :=
  match naming with
  | .kebab => Text.kebab name
  | .verbatim => name

/-- The selector of a class name and an optional modifier, of which the name is escaped by `escape`. -/
def generate (naming : Naming) (escape : String → String) (className : String)
    (modifier : Option String) : String :=
  "." ++ escape (.ofList (naming.normalise (baseName className.toList (modifier.map String.toList))))

def selector (naming : Naming) (className : String) (modifier : Option String) : String :=
  naming.generate escapeIdentifier className modifier

end Naming
end ThemeRules
