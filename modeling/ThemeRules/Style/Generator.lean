import ThemeRules.Utilities

/-!
# ThemeRules.Style.Generator

How the raw value of a style property becomes CSS declarations. A value names a design token where
the table has a text for it, or a keyword where a list of names has it, and stands for itself
everywhere else. A generator may set several CSS properties, all to the same value.
-/

namespace ThemeRules

abbrev Declarations := OrderedMap String

inductive Resolution where
  /-- The token `section.a.b` for the value `a-b`; only the first hyphen separates keys. -/
  | dotted (tokens : String)
  /-- The token whose key in the section is the whole value. -/
  | indexed (tokens : String)
  | alias (keywords : List (String × String))
  | verbatim
  deriving DecidableEq

namespace Resolution

def dotHyphen : List Char → List Char
  | [] => []
  | c :: rest => if c = '-' then '.' :: rest else c :: dotHyphen rest

/-- The path of the token that a raw value may name. -/
def tokenPath? (resolution : Resolution) (raw : String) : Option String :=
  match resolution with
  | .dotted tokens => some (tokens ++ "." ++ .ofList (dotHyphen raw.toList))
  | .indexed tokens => some (tokens ++ "[" ++ raw ++ "]")
  | .alias _ | .verbatim => none

def resolve (resolution : Resolution) (utilities : Utilities) (raw : String) : String :=
  match resolution with
  | .alias keywords => (keywords.lookup raw).getD raw
  | _ =>
    match resolution.tokenPath? raw with
    | some path => utilities.textOr path raw
    | none => raw

end Resolution

/-- The generator of a style property: how it resolves values and which CSS properties it sets. -/
structure Generator where
  resolution : Resolution
  emits : List String
  deriving DecidableEq

namespace Generator

def resolve (generator : Generator) (utilities : Utilities) (raw : String) : String :=
  generator.resolution.resolve utilities raw

def declare (generator : Generator) (utilities : Utilities) (raw : String) : Declarations :=
  .ofList (generator.emits.map fun property => (property, generator.resolve utilities raw))

end Generator
end ThemeRules
