import ThemeRules.FilePath

/-!
# ThemeRules.FileSystem

Files and directories as a value. A directory holds its entries in the order in which a listing shows
them; nothing of what this library does depends on that order. There are no links, and everything may
be read.

A path is followed part by part from the root or from the current directory. Every part but the last
has to be a directory, and so has the last one if a separator or a dot follows.
-/

namespace ThemeRules

inductive Entry where
  | file (content : ByteArray)
  | directory (entries : List (List Char × Entry))
  deriving Inhabited

inductive FileFault where
  | notFound
  | notDirectory
  | isDirectory
  | nameTooLong
  | nulInName
  | notText
  deriving DecidableEq

namespace FileFault

def message : FileFault → String
  | .notFound => "No such file or directory (os error 2)"
  | .notDirectory => "Not a directory (os error 20)"
  | .isDirectory => "Is a directory (os error 21)"
  | .nameTooLong => "File name too long (os error 36)"
  | .nulInName => "file name contained an unexpected NUL byte"
  | .notText => "stream did not contain valid UTF-8"

end FileFault

namespace Entry

def empty : Entry := .directory []

def child? (entry : Entry) (name : List Char) : Option Entry :=
  match entry with
  | .file _ => none
  | .directory entries => entries.lookup name

def isFile : Entry → Bool
  | .file _ => true
  | .directory _ => false

def isDirectory (entry : Entry) : Bool := !entry.isFile

mutual

/-- The files below an entry, by the names that lead to them, in the order of the listings. -/
def files : Entry → List (List (List Char))
  | .file _ => [[]]
  | .directory entries => filesOf entries

def filesOf : List (List Char × Entry) → List (List (List Char))
  | [] => []
  | (name, entry) :: rest => (files entry).map (name :: ·) ++ filesOf rest

end

/-- Puts an entry at a place below a directory, and directories on the way to it. What is there
already is kept, unless a file stands in the way. -/
def put : (place : List (List Char)) → Entry → Entry → Entry
  | [], entry, .directory [] => entry
  | [], .file content, _ => .file content
  | [], _, old => old
  | name :: rest, entry, old =>
    let entries := match old with
      | .directory entries => entries
      | .file _ => []
    match entries.lookup name with
    | none => .directory (entries ++ [(name, put rest entry empty)])
    | some child =>
      let child := put rest entry child
      .directory (entries.map fun e => if e.1 = name then (name, child) else e)

end Entry

def FilePath.below (directory : FilePath) (names : List (List Char)) : FilePath :=
  names.foldl (fun path name => path.join ⟨name⟩) directory

/-- All files, and the directory in which relative paths start. -/
structure FileSystem where
  root : Entry
  workingDirectory : FilePath

namespace FileSystem

def byteLength (name : List Char) : Nat := (name.flatMap String.utf8EncodeChar).length

/-- Follows the parts of a path; `here` is where it has led and `above` the directories around that,
innermost first. -/
def follow : (here : Entry) → (above : List Entry) → List (List Char) → Except FileFault Entry
  | here, _, [] => .ok here
  | here, above, part :: rest =>
    if here.isFile then .error .notDirectory
    else if part = [] ∨ part = ['.'] then follow here above rest
    else if part = ['.', '.'] then
      match above with
      | [] => follow here [] rest
      | outer :: above => follow outer above rest
    else if 255 < byteLength part then .error .nameTooLong
    else
      match here.child? part with
      | none => .error .notFound
      | some entry => follow entry (here :: above) rest

def entry (fs : FileSystem) (path : FilePath) : Except FileFault Entry :=
  if path.chars.contains '\x00' then .error .nulInName
  else if path.chars.isEmpty then .error .notFound
  else if 4096 ≤ byteLength path.chars then .error .nameTooLong
  else
    match (fs.workingDirectory.join path).chars with
    | '/' :: rest => follow fs.root [] (splitSlash rest)
    | chars => follow fs.root [] (splitSlash chars)

def isFile (fs : FileSystem) (path : FilePath) : Bool :=
  match fs.entry path with
  | .ok entry => entry.isFile
  | .error _ => false

def isDirectory (fs : FileSystem) (path : FilePath) : Bool :=
  match fs.entry path with
  | .ok entry => entry.isDirectory
  | .error _ => false

def read (fs : FileSystem) (path : FilePath) : Except FileFault String :=
  match fs.entry path with
  | .error fault => .error fault
  | .ok (.directory _) => .error .isDirectory
  | .ok (.file content) =>
    match String.fromUTF8? content with
    | some text => .ok text
    | none => .error .notText

/-- The files below a directory, by the names that lead to them from there. A file is left out if its
path is too long to be followed. Since every directory may be read, the listing cannot fail: the
`unreadable` error of a walk that meets a directory it may not list has no counterpart here. -/
def filesBelow (fs : FileSystem) (path : FilePath) : List (List (List Char)) :=
  match fs.entry path with
  | .ok (.directory entries) =>
    (Entry.filesOf entries).filter fun names => fs.isFile (path.below names)
  | _ => []

end FileSystem
end ThemeRules
