import ThemeRules.Error
import ThemeRules.Naming
import ThemeRules.Style.Registry
import ThemeRules.Theme.Collection

/-!
# ThemeRules.Style.Component

Compiling themes into rules. A theme has variants: its base styles, if it has any, and each of its
modifiers. Every variant becomes one rule, the declarations of its styles under its selector. A later
rule replaces an earlier one of the same selector as a whole, in its place; that goes for rules of one
theme and for rules of different themes.

A style property without a generator ends the compilation, whether or not its rule would have been
replaced.
-/

namespace ThemeRules

abbrev Component := OrderedMap Declarations

/-- One rule's worth of a theme: its class name, the modifier, if it is not the base, and the styles. -/
structure Variant where
  className : String
  modifier : Option String
  styles : StyleMap

namespace Theme

/-- The variants of a theme: the base first, then the modifiers in order. -/
def variants (theme : Theme) : List Variant :=
  (theme.styles.map fun styles => ⟨theme.className, none, styles⟩).toList ++
    match theme.modifiers with
    | none => []
    | some modifiers => modifiers.entries.map fun e => ⟨theme.className, some e.1, e.2⟩

end Theme

namespace Style

def declareFrom (utilities : Utilities) (className : String) :
    Declarations → List (String × String) → Except Error Declarations
  | declarations, [] => .ok declarations
  | declarations, (property, raw) :: rest =>
    match Generator.find? property with
    | none => .error (.unknownProperty property className)
    | some generator =>
      declareFrom utilities className (declarations.merge (generator.declare utilities raw)) rest

def declare (utilities : Utilities) (className : String) (styles : StyleMap) :
    Except Error Declarations :=
  declareFrom utilities className .empty styles.entries

end Style

namespace Variant

def selector (variant : Variant) (utilities : Utilities) (naming : Naming) : String :=
  naming.generate utilities.escape variant.className variant.modifier

def declare (variant : Variant) (utilities : Utilities) : Except Error Declarations :=
  Style.declare utilities variant.className variant.styles

end Variant

namespace Component

def compileFrom (utilities : Utilities) (naming : Naming) :
    Component → List Variant → Except Error Component
  | component, [] => .ok component
  | component, variant :: rest =>
    match variant.declare utilities with
    | .error error => .error error
    | .ok declarations =>
      compileFrom utilities naming
        (component.insert (variant.selector utilities naming) declarations) rest

def ofTheme (utilities : Utilities) (naming : Naming) (theme : Theme) : Except Error Component :=
  compileFrom utilities naming .empty theme.variants

/-- Layers the rules of themes over each other. -/
def layerFrom (utilities : Utilities) (naming : Naming) :
    Component → List (String × Theme) → Except Error Component
  | component, [] => .ok component
  | component, (_, theme) :: rest =>
    match ofTheme utilities naming theme with
    | .error error => .error error
    | .ok rules => layerFrom utilities naming (component.merge rules) rest

def ofCollection (utilities : Utilities) (naming : Naming) (themes : Collection) :
    Except Error Component :=
  layerFrom utilities naming .empty themes.entries

def toJson (component : Component) : Json :=
  .object (component.map Json.ofStrings).entries

open Yaml in
def read : Reader Component := Node.asMap (Node.asMap (Node.asText "a string"))

def ofYaml (text : String) : Except Yaml.Fault Component := Yaml.decode read text

end Component
end ThemeRules
