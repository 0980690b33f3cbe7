import ThemeRules.Theme.Definition

/-!
# ThemeRules.Theme.Collection

Themes by name. Layering one collection over another replaces the definitions of names that both
have, and keeps every name where it was seen first, so that the order of the rules does not depend
on which source had the last word.
-/

namespace ThemeRules

abbrev Collection := OrderedMap Theme

namespace Collection

/-- The themes with the listed names, in their own order. -/
def select (themes : Collection) (names : List String) : Collection :=
  themes.filter names.contains

/-- The listed names that the collection does not have, in the order of the list. -/
def missing (themes : Collection) (names : List String) : List String :=
  names.filter fun name => !themes.contains name

def toJson (themes : Collection) : Json :=
  .object (themes.map Theme.toJson).entries

open Yaml in
def read : Reader Collection := Node.asMap Theme.read

def ofYaml (text : String) : Except Yaml.Fault Collection := Yaml.decode read text

end Collection
end ThemeRules
