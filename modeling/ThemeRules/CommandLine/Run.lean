import ThemeRules.CommandLine.Arguments
import ThemeRules.Host
import ThemeRules.Json.Printer
import ThemeRules.Yaml.Writer

/-!
# ThemeRules.CommandLine.Run

What the command does with its arguments and the files: it compiles the themes they name and prints
the rules. Sources on the command line come after those of the configuration file. What goes wrong is
told in one line.
-/

namespace ThemeRules
namespace CommandLine

/-- What the command leaves behind: its exit code, what it has written and what it warns of. -/
structure Outcome where
  code : UInt8
  output : String
  error : String
  warnings : List Warning
  deriving DecidableEq

inductive Failure where
  | config (path : FilePath) (error : Error)
  | tokens (path : FilePath) (error : Error)
  | noSources
  | compile (error : Error)

namespace Failure

/-- An error and, behind it, its cause; only a file that cannot be read has one. -/
def withCause (error : Error) : String :=
  match error with
  | .unreadable _ fault => error.message ++ ": " ++ fault.message
  | _ => error.message

def message : Failure → String
  | .config path error => "failed to load config " ++ path.toString ++ ": " ++ withCause error
  | .tokens path error => "failed to load tokens " ++ path.toString ++ ": " ++ withCause error
  | .noSources => "no theme sources: pass --themes, --preset or a --config that names some"
  | .compile error => "failed to compile themes: " ++ withCause error

end Failure

/-- Adds what the command line says to a configuration. A pattern given there starts at the current
directory. -/
def extend (config : Config) (workingDirectory : FilePath) (options : Options) : Config :=
  { config with
    themes := config.themes ++
      options.themes.map fun glob => (workingDirectory.join (.ofString glob)).toString
    presets := config.presets ++ options.presets
    naming := options.naming.getD config.naming }

/-- The configuration of a run, which has to name a source. -/
def buildConfig (fs : FileSystem) (options : Options) : Except Failure Config :=
  let base : Except Failure Config :=
    match options.config with
    | none => .ok .empty
    | some path =>
      match Config.ofFile fs path with
      | .error error => .error (.config path error)
      | .ok config => .ok config
  match base with
  | .error failure => .error failure
  | .ok config =>
    let config := extend config fs.workingDirectory options
    if config.themes.isEmpty && config.presets.isEmpty then .error .noSources else .ok config

def compile (fs : FileSystem) (options : Options) : List Warning × Except Failure Component :=
  match buildConfig fs options with
  | .error failure => ([], .error failure)
  | .ok config =>
    match TokenTable.ofFile fs options.tokens with
    | .error error => ([], .error (.tokens options.tokens error))
    | .ok tokens =>
      let report :=
        config.compile fs (PresetRegistry.empty.addSearchDirs options.presetDirs) tokens
      match report.result with
      | .error error => (report.warnings, .error (.compile error))
      | .ok component => (report.warnings, .ok component)

def render (component : Component) : Format → String
  | .json => component.toJson.pretty ++ "\n"
  | .yaml => Yaml.write component.toJson

def versionText : String := "themecraft 0.3.0\n"

def helpText : String :=
  "Compile theme definitions into component CSS rules\n\n" ++
  "Usage: themecraft [OPTIONS] --tokens <FILE>\n"

def run (fs : FileSystem) (arguments : List String) : Outcome :=
  match parse arguments with
  | .error misuse => ⟨2, "", "error: " ++ misuse.message, []⟩
  | .ok .help => ⟨0, helpText, "", []⟩
  | .ok .version => ⟨0, versionText, "", []⟩
  | .ok (.compile options) =>
    match compile fs options with
    | (warnings, .error failure) => ⟨1, "", "error: " ++ failure.message, warnings⟩
    | (warnings, .ok component) => ⟨0, render component options.format, "", warnings⟩

end CommandLine
end ThemeRules
