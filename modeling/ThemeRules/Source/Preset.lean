import ThemeRules.Source.Load

/-!
# ThemeRules.Source.Preset

Presets: theme collections known by a name. A preset registered with its content comes before all
others. After that the search directories are tried in order, and in each of them a file of that name
with the endings `.yaml`, `.yml` and `.json`, and last a directory of that name, of which all theme
files count.
-/

namespace ThemeRules

/-- The endings of theme files, in the order in which they are tried. -/
def themeEndings : List (List Char) := [".yaml".toList, ".yml".toList, ".json".toList]

def FilePath.isThemeFile (path : FilePath) : Bool :=
  themeEndings.any fun ending => ending.isSuffixOf path.chars

inductive PresetPlace where
  | inline (themes : Collection)
  | file (path : FilePath)
  | directory (path : FilePath)

structure PresetRegistry where
  inline : OrderedMap Collection
  searchDirs : List FilePath
  deriving Inhabited

namespace PresetRegistry

def empty : PresetRegistry := ⟨.empty, []⟩

/-- Registers a preset with its content; a later one of the same name replaces it. -/
def addInline (registry : PresetRegistry) (name : String) (themes : Collection) : PresetRegistry :=
  { registry with inline := registry.inline.insert name themes }

/-- Registers a preset with its content as YAML text, or nothing if the text holds no collection. -/
def addYaml (registry : PresetRegistry) (name text : String) : PresetRegistry × Except Error Unit :=
  match Collection.ofYaml text with
  | .error fault => (registry, .error (.invalid ("<preset " ++ name ++ ">") fault))
  | .ok themes => (registry.addInline name themes, .ok ())

def addSearchDirs (registry : PresetRegistry) (dirs : List FilePath) : PresetRegistry :=
  { registry with searchDirs := registry.searchDirs ++ dirs }

def inlineNames (registry : PresetRegistry) : List String :=
  registry.inline.keys.mergeSort fun a b => FilePath.Component.nameLe a.toList b.toList

/-- The places in a directory where a preset may be, in the order in which they are tried. -/
def candidates (directory : FilePath) (name : String) : List PresetPlace :=
  themeEndings.map (fun ending => .file (directory.join ⟨name.toList ++ ending⟩)) ++
    [.directory (directory.join (.ofString name))]

def PresetPlace.present (fs : FileSystem) : PresetPlace → Bool
  | .inline _ => true
  | .file path => fs.isFile path
  | .directory path => fs.isDirectory path

def resolve (registry : PresetRegistry) (fs : FileSystem) (name : String) :
    Except Error PresetPlace :=
  match registry.inline.get? name with
  | some themes => .ok (.inline themes)
  | none =>
    match (registry.searchDirs.flatMap (candidates · name)).find? (PresetPlace.present fs) with
    | some place => .ok place
    | none => .error (.presetNotFound name)

end PresetRegistry

def FileSystem.themeFiles (fs : FileSystem) (directory : FilePath) : List FilePath :=
  FilePath.sort (((fs.filesBelow directory).map directory.below).filter FilePath.isThemeFile)

namespace PresetPlace

def load (fs : FileSystem) : PresetPlace → Except Error Collection
  | .inline themes => .ok themes
  | .file path => Collection.ofFile fs path
  | .directory path => Collection.ofFiles fs (fs.themeFiles path)

end PresetPlace

def PresetRegistry.load (registry : PresetRegistry) (fs : FileSystem) (name : String) :
    Except Error Collection :=
  match registry.resolve fs name with
  | .error error => .error error
  | .ok place => place.load fs

end ThemeRules
