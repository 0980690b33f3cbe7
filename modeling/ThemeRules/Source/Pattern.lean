import ThemeRules.Error
import ThemeRules.Glob.Matching

/-!
# ThemeRules.Source.Pattern

The files that a theme pattern names. A pattern is split before its first part that holds a wildcard.
The literal directory before it is looked up, and only the files below that directory are held against
the rest. Without a wildcard a pattern names one file. The files of a pattern are sorted by their
paths, so the order of directory listings does not matter.
-/

namespace ThemeRules
namespace Pattern

def hasWildcard (part : List Char) : Bool :=
  part.any fun c => c == '*' || c == '?' || c == '[' || c == '{'

/-- The literal directory of a pattern and the rest, if that holds a wildcard. -/
def split (pattern : List Char) : List Char × Option (List Char) :=
  let parts := splitSlash pattern
  let literal := parts.takeWhile fun part => !hasWildcard part
  match parts.dropWhile fun part => !hasWildcard part with
  | [] => (pattern, none)
  | rest => (joinSlash literal, some (joinSlash rest))

def accepts (tokens : List Glob.Token) (names : List (List Char)) : Bool :=
  Glob.isMatch tokens (Glob.encode (joinSlash names))

/-- The files that a pattern names, sorted. A relative pattern starts at the base directory. -/
def expand (fs : FileSystem) (base : FilePath) (pattern : String) : Except Error (List FilePath) :=
  let (literal, rest) := split pattern.toList
  let anchor := base.join ⟨literal⟩
  match rest with
  | none => .ok (if fs.isFile anchor then [anchor] else [])
  | some glob =>
    match Glob.parse glob with
    | .error fault => .error (.badPattern pattern glob fault)
    | .ok tokens =>
      .ok (FilePath.sort
        (((fs.filesBelow anchor).filter (accepts tokens)).map (FilePath.below anchor)))

end Pattern

structure ThemeFiles where
  base : FilePath
  patterns : List String

namespace ThemeFiles

def addNew (files new : List FilePath) : List FilePath :=
  new.foldl (fun files file => if files.any file.same then files else files ++ [file]) files

def filesFrom (fs : FileSystem) (base : FilePath) :
    List FilePath → List String → Except Error (List FilePath)
  | files, [] => .ok files
  | files, pattern :: rest =>
    match Pattern.expand fs base pattern with
    | .error error => .error error
    | .ok new => filesFrom fs base (addNew files new) rest

/-- All files the patterns name, each at its first place. A relative base directory starts at the
current directory. -/
def files (source : ThemeFiles) (fs : FileSystem) : Except Error (List FilePath) :=
  filesFrom fs (fs.workingDirectory.join source.base) [] source.patterns

end ThemeFiles
end ThemeRules
