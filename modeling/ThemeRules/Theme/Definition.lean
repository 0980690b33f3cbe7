import ThemeRules.Json.Basic
import ThemeRules.Yaml.Reader

/-!
# ThemeRules.Theme.Definition

A theme: the class name its author gave it, its base styles and its modifiers, each of which is a
style map of its own. Base styles and modifiers may be absent, which is not the same as empty: an
empty style map still makes a rule.

Style values are texts. Theme files are written by hand, so a number or a boolean in the place of a
value is taken as the text that shows it.
-/

namespace ThemeRules

abbrev StyleMap := OrderedMap String

structure Theme where
  className : String
  styles : Option StyleMap
  modifiers : Option (OrderedMap StyleMap)
  deriving DecidableEq, Inhabited

namespace Theme

def named (className : String) : Theme := ⟨className, none, none⟩

def style (theme : Theme) (property value : String) : Theme :=
  { theme with styles := some ((theme.styles.getD .empty).insert property value) }

/-- Adds a modifier, or replaces the one of that name. -/
def modifier (theme : Theme) (name : String) (styles : StyleMap) : Theme :=
  { theme with modifiers := some ((theme.modifiers.getD .empty).insert name styles) }

/-- The theme has neither styles nor modifiers, not even empty ones. -/
def isEmpty (theme : Theme) : Bool := theme.styles.isNone && theme.modifiers.isNone

/-! ## Writing -/

/-- The theme as a document; what is absent has no field. -/
def toJson (theme : Theme) : Json :=
  .object <|
    [("className", .string theme.className)] ++
    (theme.styles.map fun styles => ("styles", Json.ofStrings styles)).toList ++
    (theme.modifiers.map fun modifiers =>
      ("modifiers", .object (modifiers.map Json.ofStrings).entries)).toList

/-! ## Reading -/

open Yaml

def readValue : Reader String := fun path node =>
  let expected := "a string, number or boolean style value"
  let tagged : Misfit := .locate path (.wrongType .tagged expected)
  match node.target with
  | .scalar tag isPlain s =>
    if (Node.variant? tag).isSome then .error tagged
    else
      match Node.scalarValue tag isPlain s with
      | .error cause => .error (.locate path cause)
      | .ok (.bool b) => .ok (if b then "true" else "false")
      | .ok (.int n) => .ok (toString n)
      | .ok (.double x) => .ok x.plain
      | .ok (.text s) => .ok s
      | .ok value => .error (.locate path (.wrongType (.scalar value) expected))
  | .sequence tag _ =>
    if (Node.variant? tag).isSome then .error tagged
    else .error (node.wrongType path expected)
  | .mapping tag _ =>
    if (Node.variant? tag).isSome then .error tagged
    else .error (node.wrongType path expected)
  | other => .error (other.wrongType path expected)

def readStyles : Reader StyleMap := Node.asMap readValue

/-- The fields of a theme that have been read; an optional field counts as read when it is null. -/
structure Draft where
  className : Option String
  styles : Option (Option StyleMap)
  modifiers : Option (Option (OrderedMap StyleMap))

namespace Draft

def start : Draft := ⟨none, none, none⟩

def readClassName (draft : Draft) : Option (Path → Node → Except Misfit Draft) :=
  if draft.className.isSome then none
  else some fun path node =>
    (node.asText "a string" path).map fun value => { draft with className := some value }

def readStyles (draft : Draft) : Option (Path → Node → Except Misfit Draft) :=
  if draft.styles.isSome then none
  else some fun path node =>
    (Node.asOption Theme.readStyles path node).map fun value => { draft with styles := some value }

def readModifiers (draft : Draft) : Option (Path → Node → Except Misfit Draft) :=
  if draft.modifiers.isSome then none
  else some fun path node =>
    (Node.asOption (Node.asMap Theme.readStyles) path node).map fun value =>
      { draft with modifiers := some value }

def field (name : String) : Option (Draft → Option (Path → Node → Except Misfit Draft)) :=
  if name = "className" then some readClassName
  else if name = "styles" then some readStyles
  else if name = "modifiers" then some readModifiers
  else none

/-- The theme, once all fields have been read; only the class name has to be there. -/
def finish (path : Path) (draft : Draft) : Except Misfit Theme :=
  match draft.className with
  | some className => .ok ⟨className, draft.styles.join, draft.modifiers.join⟩
  | none => .error (.locate path (.missingField "className"))

end Draft

def read : Reader Theme := fun path node =>
  match node.asEntries "struct ThemeDefinition" path with
  | .error misfit => .error misfit
  | .ok entries =>
    match Node.readFields Draft.field path .start entries with
    | .error misfit => .error misfit
    | .ok draft => draft.finish path

end Theme
end ThemeRules
