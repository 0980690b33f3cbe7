import ThemeRules.Source.Pattern
import ThemeRules.Source.Preset

/-!
# ThemeRules.Source.Resolve

From a configuration to its themes. The theme files come first, the presets after them from left to
right, and each source is layered over those before it, so that presets win over theme files. The
first source that fails ends the run; a run that finds no theme at all has failed too.

A preset that is asked for a theme it does not have says so in a warning, which is kept whatever
becomes of the run.
-/

namespace ThemeRules

/-- A preset does not define a theme that is wanted of it. -/
structure Warning where
  preset : String
  theme : String
  deriving DecidableEq

/-- A result and the warnings on the way to it. -/
structure Report (α : Type) where
  warnings : List Warning
  result : Except Error α

inductive Source where
  | fixed (themes : Collection)
  | files (source : ThemeFiles)
  | preset (selector : PresetSelector)

def ThemeFiles.load (source : ThemeFiles) (fs : FileSystem) : Except Error Collection :=
  match source.files fs with
  | .error error => .error error
  | .ok paths => Collection.ofFiles fs paths

def PresetSelector.load (selector : PresetSelector) (fs : FileSystem) (registry : PresetRegistry) :
    Report Collection :=
  match registry.load fs selector.name, selector.themes? with
  | .error error, _ => ⟨[], .error error⟩
  | .ok themes, none => ⟨[], .ok themes⟩
  | .ok themes, some names =>
    ⟨(Collection.missing themes names).map fun theme => ⟨selector.name, theme⟩,
      .ok (Collection.select themes names)⟩

namespace Source

def load (fs : FileSystem) (registry : PresetRegistry) : Source → Report Collection
  | .fixed themes => ⟨[], .ok themes⟩
  | .files source => ⟨[], source.load fs⟩
  | .preset selector => selector.load fs registry

def describe : Source → String
  | .fixed _ => "fixed"
  | .files source => "theme files " ++ ", ".intercalate source.patterns
  | .preset (.all name) => "preset " ++ name
  | .preset (.subset name themes) => "preset " ++ name ++ " [" ++ ", ".intercalate themes ++ "]"

def layerFrom (fs : FileSystem) (registry : PresetRegistry) :
    Collection → List Source → Report Collection
  | themes, [] => ⟨[], .ok themes⟩
  | themes, source :: rest =>
    let loaded := source.load fs registry
    match loaded.result with
    | .error error => ⟨loaded.warnings, .error error⟩
    | .ok new =>
      let layered := layerFrom fs registry (themes.merge new) rest
      ⟨loaded.warnings ++ layered.warnings, layered.result⟩

/-- The themes of all sources, which have to be some. -/
def resolveAll (fs : FileSystem) (registry : PresetRegistry) (sources : List Source) :
    Report Collection :=
  let layered := layerFrom fs registry .empty sources
  match layered.result with
  | .ok themes => ⟨layered.warnings, if themes.isEmpty then .error .noThemes else .ok themes⟩
  | .error error => ⟨layered.warnings, .error error⟩

end Source

namespace Config

def sources (config : Config) : List Source :=
  (if config.themes.isEmpty then []
    else [.files ⟨config.resolvedBaseDir, config.themes⟩]) ++
    config.presets.map .preset

/-- The themes of a configuration. Its preset directories are searched after those of the
registry. -/
def resolve (config : Config) (fs : FileSystem) (registry : PresetRegistry) : Report Collection :=
  Source.resolveAll fs (registry.addSearchDirs config.resolvedPresetDirs) config.sources

end Config
end ThemeRules
