import ThemeRules.FileSystem
import ThemeRules.Glob.Pattern
import ThemeRules.Yaml.Misfit

/-!
# ThemeRules.Error

What can go wrong between a configuration and its compiled rules. Each of these is a defect of the
configuration or of the files it names, so nothing is tried again: the first error ends the run.
-/

namespace ThemeRules

inductive Error where
  | noThemes
  | unknownProperty (property theme : String)
  | noUtilities
  | presetNotFound (name : String)
  | badPattern (pattern : String) (glob : List Char) (fault : Glob.Fault)
  | unreadable (path : FilePath) (fault : FileFault)
  | invalid (origin : String) (fault : Yaml.Fault)

namespace Error

/-- The text of an error. What exactly is malformed in a text is not told. -/
def message : Error → String
  | .noThemes => "no themes resolved: configure at least one theme pattern or preset"
  | .unknownProperty property theme =>
    "no value generator registered for property '" ++ property ++ "' (theme '" ++ theme ++ "')"
  | .noUtilities =>
    "theme utilities are not available: install them with store_utilities() before compiling"
  | .presetNotFound name => "preset not found: \"" ++ name ++ "\""
  | .badPattern pattern glob fault =>
    "invalid theme pattern \"" ++ pattern ++ "\": error parsing glob '" ++ .ofList glob ++ "': " ++
      fault.message
  | .unreadable path fault => "failed to read " ++ path.toString ++ ": " ++ fault.message
  | .invalid origin .malformed => "failed to parse " ++ origin
  | .invalid origin (.misfit misfit) => "failed to parse " ++ origin ++ ": " ++ misfit.message

end Error
end ThemeRules
