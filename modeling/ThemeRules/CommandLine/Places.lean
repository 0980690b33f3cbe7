import ThemeRules.CommandLine.Run

/-!
# ThemeRules.CommandLine.Places

The places in the file system at which a run looks, so that no more than these has to be read into a
`FileSystem` before it. The token file and the configuration are named by the options. The
configuration, once it has been read, names the directories at which patterns start and the places
where presets may be.
-/

namespace ThemeRules
namespace CommandLine

def Options.files (options : Options) : List FilePath := options.tokens :: options.config.toList

def patternPlace (config : Config) (pattern : String) : FilePath :=
  config.resolvedBaseDir.join ⟨(Pattern.split pattern.toList).1⟩

def presetPlaces (directories : List FilePath) (name : String) : List FilePath :=
  (directories.flatMap (PresetRegistry.candidates · name)).filterMap fun
    | .inline _ => none
    | .file path | .directory path => some path

/-- The places at which the sources of a configuration look. -/
def sourcePlaces (config : Config) (options : Options) : List FilePath :=
  config.themes.map (patternPlace config) ++
    config.presets.flatMap fun selector =>
      presetPlaces (options.presetDirs ++ config.resolvedPresetDirs) selector.name

end CommandLine
end ThemeRules
