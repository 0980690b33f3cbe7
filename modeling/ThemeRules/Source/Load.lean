import ThemeRules.Config
import ThemeRules.Theme.Collection
import ThemeRules.Token.Table

/-!
# ThemeRules.Source.Load

Reading files: theme collections, token tables and configurations, and several theme files layered
over each other.
-/

namespace ThemeRules

def FileSystem.load {α : Type} (fs : FileSystem) (path : FilePath)
    (read : String → Except Yaml.Fault α) : Except Error α :=
  match fs.read path with
  | .error fault => .error (.unreadable path fault)
  | .ok text =>
    match read text with
    | .error fault => .error (.invalid path.toString fault)
    | .ok value => .ok value

namespace Collection

def ofFile (fs : FileSystem) (path : FilePath) : Except Error Collection :=
  fs.load path ofYaml

def layerFiles (fs : FileSystem) : Collection → List FilePath → Except Error Collection
  | themes, [] => .ok themes
  | themes, path :: rest =>
    match ofFile fs path with
    | .error error => .error error
    | .ok loaded => layerFiles fs (themes.merge loaded) rest

def ofFiles (fs : FileSystem) (paths : List FilePath) : Except Error Collection :=
  layerFiles fs .empty paths

end Collection

def TokenTable.ofFile (fs : FileSystem) (path : FilePath) : Except Error TokenTable :=
  fs.load path TokenTable.ofYaml

/-- Reads a configuration; the directory of the file becomes its base directory. -/
def Config.ofFile (fs : FileSystem) (path : FilePath) : Except Error Config :=
  match fs.load path Config.ofYaml with
  | .error error => .error error
  | .ok config => .ok { config with baseDir := path.parent? }

end ThemeRules
