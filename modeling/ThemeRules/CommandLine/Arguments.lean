import ThemeRules.Config
import ThemeRules.Text.Blank

/-!
# ThemeRules.CommandLine.Arguments

The arguments of the command. An option takes its value from the same argument, behind an equals sign
or right behind its letter, or from the next one, which must not start with a hyphen. A value that
came as an argument of its own is looked at when the next option begins, so a mistake in it is not told
if an argument behind it is unknown.
-/

namespace ThemeRules
namespace CommandLine

inductive Setting where
  | config
  | themes
  | preset
  | presetDir
  | tokens
  | naming
  | format
  deriving DecidableEq

inductive Flag where
  | verbose
  | help
  | version
  deriving DecidableEq

namespace Setting

def longName : Setting → String
  | .config => "config"
  | .themes => "themes"
  | .preset => "preset"
  | .presetDir => "preset-dir"
  | .tokens => "tokens"
  | .naming => "naming"
  | .format => "format"

def valueName : Setting → String
  | .config | .tokens => "FILE"
  | .themes => "GLOB"
  | .preset => "NAME[:THEME,...]"
  | .presetDir => "DIR"
  | .naming => "NAMING"
  | .format => "FORMAT"

def all : List Setting := [.config, .themes, .preset, .presetDir, .tokens, .naming, .format]

def ofLongName? (name : String) : Option Setting := all.find? fun s => s.longName == name

def ofLetter? : Char → Option Setting
  | 'c' => some .config
  | 't' => some .tokens
  | _ => none

def shown (setting : Setting) : String :=
  "--" ++ setting.longName ++ " <" ++ setting.valueName ++ ">"

end Setting

namespace Flag

def longName : Flag → String
  | .verbose => "verbose"
  | .help => "help"
  | .version => "version"

def ofLongName? (name : String) : Option Flag :=
  [verbose, help, version].find? fun f => f.longName == name

def ofLetter? : Char → Option Flag
  | 'v' => some .verbose
  | 'h' => some .help
  | 'V' => some .version
  | _ => none

/-- A flag as messages show it; dots mark the one that may be repeated. -/
def shown : Flag → String
  | .verbose => "--verbose..."
  | flag => "--" ++ flag.longName

end Flag

inductive Format where
  | json
  | yaml
  deriving DecidableEq

def Format.ofWord? (word : String) : Option Format :=
  if word = "json" then some .json else if word = "yaml" then some .yaml else none

inductive Misuse where
  | unexpected (argument : String)
  | valueMissing (setting : Setting)
  | badValue (setting : Setting) (value : String) (reason : Option String)
  | repeated (setting : Setting)
  | valueUnneeded (flag : Flag) (value : String)
  | requiredMissing
  deriving DecidableEq

namespace Misuse

def message : Misuse → String
  | .unexpected argument => "unexpected argument '" ++ argument ++ "' found"
  | .valueMissing setting =>
    "a value is required for '" ++ setting.shown ++ "' but none was supplied"
  | .badValue setting value reason =>
    "invalid value '" ++ value ++ "' for '" ++ setting.shown ++ "'" ++
      match reason with
      | some reason => ": " ++ reason
      | none => ""
  | .repeated setting => "the argument '" ++ setting.shown ++ "' cannot be used multiple times"
  | .valueUnneeded flag value =>
    "unexpected value '" ++ value ++ "' for '" ++ flag.shown ++
      "' found; no more were expected"
  | .requiredMissing => "the following required arguments were not provided:"

end Misuse

/-! ## Presets -/

def splitComma : List Char → List (List Char)
  | [] => [[]]
  | c :: rest =>
    if c = ',' then [] :: splitComma rest
    else
      match splitComma rest with
      | part :: parts => (c :: part) :: parts
      | [] => [[c]]

/-- A preset as an argument: its name, and behind a colon the themes wanted, between commas. Blanks
around a theme and themes without a name do not count. -/
def parsePreset? (text : List Char) : Option PresetSelector :=
  let name := text.takeWhile (· != ':')
  if name.isEmpty then none
  else
    match text.dropWhile (· != ':') with
    | [] => some (.all (.ofList name))
    | _ :: themes =>
      some (.subset (.ofList name)
        (((splitComma themes).map Text.trim).filter (!·.isEmpty) |>.map String.ofList))

/-! ## Reading arguments -/

structure Draft where
  config : Option String
  themes : List String
  presets : List PresetSelector
  presetDirs : List String
  tokens : Option String
  naming : Option Naming
  format : Option Format
  verbosity : Nat

structure Options where
  config : Option FilePath
  themes : List String
  presets : List PresetSelector
  presetDirs : List FilePath
  tokens : FilePath
  naming : Option Naming
  format : Format
  verbosity : Nat

inductive Request where
  | compile (options : Options)
  | help
  | version

namespace Draft

def start : Draft := ⟨none, [], [], [], none, none, none, 0⟩

def has (draft : Draft) : Setting → Bool
  | .config => draft.config.isSome
  | .tokens => draft.tokens.isSome
  | .naming => draft.naming.isSome
  | .format => draft.format.isSome
  | .themes | .preset | .presetDir => false

def assign (draft : Draft) (setting : Setting) (value : String) : Except Misuse Draft :=
  let path (draft : Draft) : Except Misuse Draft :=
    if value.isEmpty then .error (.valueMissing setting) else .ok draft
  let word {α : Type} (found : Option α) (make : α → Draft) : Except Misuse Draft :=
    match found with
    | some x => .ok (make x)
    | none =>
      .error (if value.isEmpty then .valueMissing setting else .badValue setting value none)
  match setting with
  | .config => path { draft with config := some value }
  | .tokens => path { draft with tokens := some value }
  | .presetDir => path { draft with presetDirs := draft.presetDirs ++ [value] }
  | .themes => .ok { draft with themes := draft.themes ++ [value] }
  | .preset =>
    match parsePreset? value.toList with
    | some selector => .ok { draft with presets := draft.presets ++ [selector] }
    | none => .error (.badValue .preset value (some "preset name is empty"))
  | .naming => word (Naming.ofWord? value) fun x => { draft with naming := some x }
  | .format => word (Format.ofWord? value) fun x => { draft with format := some x }

def take (draft : Draft) (setting : Setting) (value : Option String) : Except Misuse Draft :=
  match value with
  | none => .error (.valueMissing setting)
  | some value =>
    if draft.has setting then .error (.repeated setting) else draft.assign setting value

def finish (draft : Draft) : Except Misuse Request :=
  match draft.tokens with
  | none => .error .requiredMissing
  | some tokens =>
    .ok (.compile {
      config := draft.config.map FilePath.ofString
      themes := draft.themes
      presets := draft.presets
      presetDirs := draft.presetDirs.map FilePath.ofString
      tokens := .ofString tokens
      naming := draft.naming
      format := draft.format.getD .json
      verbosity := draft.verbosity })

end Draft

/-- What has been read. `waiting` is a setting whose value is an argument of its own, and that value
once it has come. -/
structure Reading where
  draft : Draft
  waiting : Option (Setting × Option String)

namespace Reading

def settle (reading : Reading) : Except Misuse Draft :=
  match reading.waiting with
  | none => .ok reading.draft
  | some (setting, value) => reading.draft.take setting value

/-- What an argument leads to: more arguments, or a request that needs none of them. -/
inductive Next where
  | goOn (reading : Reading)
  | stop (request : Request)

def setting (reading : Reading) (setting : Setting) (value : Option String) : Except Misuse Next :=
  match reading.settle with
  | .error misuse => .error misuse
  | .ok draft =>
    match value with
    | none => .ok (.goOn ⟨draft, some (setting, none)⟩)
    | some value =>
      match draft.take setting (some value) with
      | .error misuse => .error misuse
      | .ok draft => .ok (.goOn ⟨draft, none⟩)

def flag (reading : Reading) (flag : Flag) : Except Misuse Next :=
  match reading.settle with
  | .error misuse => .error misuse
  | .ok draft =>
    match flag with
    | .verbose => .ok (.goOn ⟨{ draft with verbosity := draft.verbosity + 1 }, none⟩)
    | .help => .ok (.stop .help)
    | .version => .ok (.stop .version)

def long (reading : Reading) (text : List Char) : Except Misuse Next :=
  let name : String := .ofList (text.takeWhile (· != '='))
  let value : Option String := match text.dropWhile (· != '=') with
    | [] => none
    | _ :: value => some (.ofList value)
  match Setting.ofLongName? name, Flag.ofLongName? name, value with
  | some known, _, value => reading.setting known value
  | none, some known, none => reading.flag known
  | none, some known, some value => .error (.valueUnneeded known value)
  | none, none, _ => .error (.unexpected ("--" ++ name))

/-- Letters behind one hyphen. What follows the letter of a setting is its value. -/
def short (reading : Reading) : List Char → Except Misuse Next
  | [] => .ok (.goOn reading)
  | letter :: rest =>
    match Setting.ofLetter? letter, Flag.ofLetter? letter with
    | some known, _ =>
      reading.setting known <|
        match rest with
        | [] => none
        | '=' :: value => some (.ofList value)
        | value => some (.ofList value)
    | none, some known =>
      match reading.flag known with
      | .ok (.goOn reading) => short reading rest
      | other => other
    | none, none => .error (.unexpected (.ofList ['-', letter]))

/-- An argument that is no option: the value that is waited for, or one too many. -/
def plain (reading : Reading) (argument : String) : Except Misuse Next :=
  match reading.waiting with
  | some (setting, none) => .ok (.goOn ⟨reading.draft, some (setting, some argument)⟩)
  | _ => .error (.unexpected argument)

end Reading

/-- Reads the arguments. Behind two hyphens alone no argument is an option or a value. -/
def parseFrom (reading : Reading) : List String → Except Misuse Request
  | [] =>
    match reading.settle with
    | .error misuse => .error misuse
    | .ok draft => draft.finish
  | argument :: rest =>
    let next : Except Misuse Reading.Next :=
      match argument.toList with
      | ['-', '-'] =>
        match rest with
        | [] => .ok (.goOn reading)
        | extra :: _ => .error (.unexpected extra)
      | '-' :: '-' :: text => reading.long text
      | '-' :: letter :: letters => reading.short (letter :: letters)
      | _ => reading.plain argument
    match next with
    | .error misuse => .error misuse
    | .ok (.stop request) => .ok request
    | .ok (.goOn reading) => parseFrom reading rest

def parse (arguments : List String) : Except Misuse Request :=
  parseFrom ⟨.start, none⟩ arguments

end CommandLine
end ThemeRules
