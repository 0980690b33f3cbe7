import ThemeRules.Error
import ThemeRules.Json.Reader
import ThemeRules.Naming

/-!
# ThemeRules.Config

A configuration says where themes come from and how their selectors are named: patterns of theme
files, presets, the naming, and directories in which presets are looked for. In a file every field may
be left out. The presets may be one name instead of a list, and an entry of the list may name the
themes it wants; anything else makes the whole configuration invalid.

Relative patterns and directories start at the base directory, which is that of the file, if the
configuration comes from one, and never written to it.
-/

namespace ThemeRules

/-- A preset, and the themes wanted of it. -/
inductive PresetSelector where
  | all (name : String)
  | subset (name : String) (themes : List String)
  deriving DecidableEq

namespace PresetSelector

def name : PresetSelector → String
  | .all name => name
  | .subset name _ => name

/-- The themes wanted, if not all are. -/
def themes? : PresetSelector → Option (List String)
  | .all _ => none
  | .subset _ themes => some themes

def toJson : PresetSelector → Json
  | .all name => .string name
  | .subset name themes =>
    .object [("name", .string name), ("themes", .array (themes.map .string))]

end PresetSelector

structure Config where
  themes : List String
  presets : List PresetSelector
  naming : Naming
  presetDirs : List FilePath
  baseDir : Option FilePath
  deriving DecidableEq

namespace Config

def empty : Config := ⟨[], [], .kebab, [], none⟩

def addTheme (config : Config) (pattern : String) : Config :=
  { config with themes := config.themes ++ [pattern] }

def addPreset (config : Config) (selector : PresetSelector) : Config :=
  { config with presets := config.presets ++ [selector] }

def addPresetDir (config : Config) (directory : FilePath) : Config :=
  { config with presetDirs := config.presetDirs ++ [directory] }

def withNaming (config : Config) (naming : Naming) : Config := { config with naming }

def withBaseDir (config : Config) (directory : FilePath) : Config :=
  { config with baseDir := some directory }

/-- The base directory; the current directory if none is set. -/
def resolvedBaseDir (config : Config) : FilePath := config.baseDir.getD ⟨['.']⟩

/-- The preset directories, starting at the base directory. -/
def resolvedPresetDirs (config : Config) : List FilePath :=
  config.presetDirs.map config.resolvedBaseDir.join

/-- The configuration as a document, without its base directory. -/
def toJson (config : Config) : Json :=
  .object [
    ("themes", .array (config.themes.map .string)),
    ("presets", .array (config.presets.map PresetSelector.toJson)),
    ("naming", .string config.naming.word),
    ("presetDirs", .array (config.presetDirs.map fun d => .string d.toString))]

/-! ## Reading presets

The presets have several forms, so they are read as a whole first, whatever they hold, and then held
against the forms. -/

open Yaml

/-- A value of any form. -/
inductive Form where
  | scalar (value : Scalar)
  | list (items : List Form)
  | map (entries : List (Form × Form))

namespace Form

mutual

def read (path : Path) : Node → Except Misfit Form
  | .scalar tag isPlain s =>
    if (Node.variant? tag).isSome then .error (.locate path .taggedInBuffer)
    else
      match Node.scalarValue tag isPlain s with
      | .error cause => .error (.locate path cause)
      | .ok (.wide n) => .error (.locate path (.wrongType (.scalar (.wide n)) "any value"))
      | .ok value => .ok (.scalar value)
  | .sequence tag items =>
    if (Node.variant? tag).isSome then .error (.locate path .taggedInBuffer)
    else
      match readItems path 0 items with
      | .error misfit => .error misfit
      | .ok items => .ok (.list items)
  | .mapping tag entries =>
    if (Node.variant? tag).isSome then .error (.locate path .taggedInBuffer)
    else
      match readEntries path entries with
      | .error misfit => .error misfit
      | .ok entries => .ok (.map entries)
  | .alias target => read path target
  | .beyond limit => .error (.locate path (Node.limitCause limit))

def readItems (path : Path) : (index : Nat) → List Node → Except Misfit (List Form)
  | _, [] => .ok []
  | index, item :: rest =>
    match read (.item path index) item with
    | .error misfit => .error misfit
    | .ok form =>
      match readItems path (index + 1) rest with
      | .error misfit => .error misfit
      | .ok forms => .ok (form :: forms)

def readEntries (path : Path) : List (Node × Node) → Except Misfit (List (Form × Form))
  | [] => .ok []
  | (key, value) :: rest =>
    match read path key with
    | .error misfit => .error misfit
    | .ok keyForm =>
      match read (Node.valuePath path key) value with
      | .error misfit => .error misfit
      | .ok form =>
        match readEntries path rest with
        | .error misfit => .error misfit
        | .ok forms => .ok ((keyForm, form) :: forms)

end

def string? : Form → Option String
  | .scalar (.text s) => some s
  | _ => none

def strings? : Form → Option (List String)
  | .list items => items.mapM string?
  | _ => none

inductive Field where
  | name
  | themes
  | other

def field? : Form → Option Field
  | .scalar (.text s) =>
    some (if s = "name" then .name else if s = "themes" then .themes else .other)
  | .scalar (.int n) =>
    if n < 0 then none
    else some (if n = 0 then .name else if n = 1 then .themes else .other)
  | _ => none

/-- The fields of a subset behind those that have been read: each at most once, others ignored. -/
def subsetFrom (name : Option String) (themes : Option (List String)) :
    List (Form × Form) → Option PresetSelector
  | [] =>
    match name, themes with
    | some name, some themes => some (.subset name themes)
    | _, _ => none
  | (key, value) :: rest =>
    match field? key with
    | none => none
    | some .other => subsetFrom name themes rest
    | some .name =>
      match name, value.string? with
      | none, some s => subsetFrom (some s) themes rest
      | _, _ => none
    | some .themes =>
      match themes, value.strings? with
      | none, some names => subsetFrom name (some names) rest
      | _, _ => none

def selector? : Form → Option PresetSelector
  | .scalar (.text s) => some (.all s)
  | .map entries => subsetFrom none none entries
  | _ => none

/-- One name, or a list of selectors. -/
def selectors? : Form → Option (List PresetSelector)
  | .scalar (.text s) => some [.all s]
  | .list items => items.mapM selector?
  | _ => none

end Form

/-- The presets; null stands for none. -/
def readPresets : Reader (List PresetSelector) := fun path node =>
  match Node.asOption Form.read path node with
  | .error misfit => .error misfit
  | .ok none => .ok []
  | .ok (some form) =>
    match form.selectors? with
    | some selectors => .ok selectors
    | none => .error ⟨none, .noVariant "Presets"⟩

/-! ## Reading the other fields -/

def namings : List String := ["kebab", "verbatim"]

/-- The naming by its word, or as a tag with that word and nothing behind it. -/
def readNaming : Reader Naming := fun path node =>
  let ofTag (word : String) (content : Except Misfit Unit) : Except Misfit Naming :=
    match Naming.ofWord? word with
    | none => .error ⟨none, .unknownVariant word namings⟩
    | some naming => content.map fun _ => naming
  let expected := "a YAML tag starting with '!'"
  match node.target with
  | .scalar tag isPlain s =>
    match Node.variant? tag with
    | some word =>
      ofTag word <|
        if isPlain && (s.isEmpty || Scalar.isNullWord s.toList) then .ok ()
        else .error (.locate path (.wrongValue s "null"))
    | none =>
      match Naming.ofWord? s with
      | some naming => .ok naming
      | none => .error (.locate path (.unknownVariant s namings))
  | .sequence tag _ =>
    match Node.variant? tag with
    | some word => ofTag word (.error (.locate path (.wrongType .sequence "unit")))
    | none => .error (.locate path (.wrongType .sequence expected))
  | .mapping tag _ =>
    match Node.variant? tag with
    | some word => ofTag word (.error (.locate path (.wrongType .map "unit")))
    | none => .error (.locate path (.wrongType .map expected))
  | other => .error (other.wrongType path expected)

def readDirectory : Reader FilePath := fun path node =>
  match node.asText "path string" path with
  | .error misfit => .error misfit
  | .ok s => .ok (.ofString s)

/-- The fields that have been read. -/
structure Draft where
  themes : Option (List String)
  presets : Option (List PresetSelector)
  naming : Option Naming
  presetDirs : Option (List FilePath)

namespace Draft

def start : Draft := ⟨none, none, none, none⟩

/-- Reads a field that has not been read yet. -/
def once {α : Type} (current : Option α) (read : Reader α) (set : α → Draft) :
    Option (Path → Node → Except Misfit Draft) :=
  if current.isSome then none
  else some fun path node => (read path node).map set

def field (name : String) : Option (Draft → Option (Path → Node → Except Misfit Draft)) :=
  if name = "themes" then
    some fun d => once d.themes (Node.asList (Node.asText "a string")) fun x =>
      { d with themes := some x }
  else if name = "presets" then
    some fun d => once d.presets readPresets fun x => { d with presets := some x }
  else if name = "naming" then
    some fun d => once d.naming readNaming fun x => { d with naming := some x }
  else if name = "presetDirs" then
    some fun d => once d.presetDirs (Node.asList readDirectory) fun x =>
      { d with presetDirs := some x }
  else none

/-- The configuration; a field that has not been read has its default. -/
def finish (draft : Draft) : Config where
  themes := draft.themes.getD []
  presets := draft.presets.getD []
  naming := draft.naming.getD .kebab
  presetDirs := draft.presetDirs.getD []
  baseDir := none

end Draft

def read : Reader Config := fun path node =>
  match node.asEntries "struct ThemeConfig" path with
  | .error misfit => .error misfit
  | .ok entries =>
    match Node.readFields Draft.field path .start entries with
    | .error misfit => .error misfit
    | .ok draft => .ok draft.finish

def ofYaml (text : String) : Except Fault Config := Yaml.decode read text

end Config
end ThemeRules
