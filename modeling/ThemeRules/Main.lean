import ThemeRules.CommandLine.Places

/-!
# ThemeRules.Main

The command. It reads the places at which a run looks into a value, and everything else happens on
that value. Only this module touches files and streams.
-/

namespace ThemeRules
namespace CommandLine

def absolute (names : List (List Char)) : String := .ofList ('/' :: joinSlash names)

partial def scan (root : Entry) (names : List (List Char)) : IO Entry := do
  let place := (← IO.currentDir) / absolute names
  if ← place.isDir then
    let listing ← place.readDir
    listing.foldlM (fun root item => scan root (names ++ [item.fileName.toList]))
      (Entry.put names .empty root)
  else if ← place.pathExists then
    return .put names (.file (← IO.FS.readBinFile place)) root
  else return root

/-- Adds a directory on the way to a place, or the file that stands in the way. -/
def glance (root : Entry) (names : List (List Char)) : IO Entry := do
  let place := (← IO.currentDir) / absolute names
  if ← place.isDir then return .put names .empty root
  else scan root names

/-- Follows the parts of a path, and adds what is on the way and at its end. The names that have led
to `here` come last first. -/
def look (root : Entry) (here : List (List Char)) : List (List Char) → IO Entry
  | [] => scan root here.reverse
  | part :: rest => do
    let root ← glance root here.reverse
    if part = [] ∨ part = ['.'] then look root here rest
    else if part = ['.', '.'] then look root here.tail rest
    else look root (part :: here) rest

/-- Adds what is at a path. A place that cannot be read counts as empty. -/
def add (fs : FileSystem) (path : FilePath) : IO FileSystem := do
  try
    let root ← look fs.root [] (splitSlash (fs.workingDirectory.join path).chars)
    return { fs with root }
  catch _ => return fs

def snapshot (arguments : List String) : IO FileSystem := do
  let fs : FileSystem := ⟨.empty, .ofString (← IO.currentDir).toString⟩
  match parse arguments with
  | .ok (.compile options) =>
    let fs ← options.files.foldlM add fs
    match buildConfig fs options with
    | .ok config => (sourcePlaces config options).foldlM add fs
    | .error _ => return fs
  | _ => return fs

def warningLine (warning : Warning) : String :=
  "warning: preset " ++ warning.preset ++ " does not define requested theme " ++ warning.theme

end CommandLine
end ThemeRules

open ThemeRules.CommandLine in
def main (arguments : List String) : IO UInt32 := do
  let outcome := run (← snapshot arguments) arguments
  for warning in outcome.warnings do
    IO.eprintln (warningLine warning)
  IO.print outcome.output
  unless outcome.error.isEmpty do
    IO.eprintln outcome.error
  return outcome.code.toUInt32
