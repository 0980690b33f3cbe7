/-!
# ThemeRules.FilePath

Paths of files as they are written. Nothing is normalised: a path keeps its dots and doubled
separators when it is joined or shown. Two paths are compared by their components, for which empty
parts and dots behind the start do not count.
-/

namespace ThemeRules

def splitSlash : List Char → List (List Char)
  | [] => [[]]
  | c :: rest =>
    if c = '/' then [] :: splitSlash rest
    else
      match splitSlash rest with
      | part :: parts => (c :: part) :: parts
      | [] => [[c]]

def joinSlash : List (List Char) → List Char
  | [] => []
  | [part] => part
  | part :: rest => part ++ '/' :: joinSlash rest

structure FilePath where
  chars : List Char
  deriving DecidableEq, Inhabited

namespace FilePath

def ofString (s : String) : FilePath := ⟨s.toList⟩

def toString (path : FilePath) : String := .ofList path.chars

def isAbsolute (path : FilePath) : Bool := path.chars.head? == some '/'

/-- Appends a path to a directory; an absolute path stands for itself. -/
def join (base path : FilePath) : FilePath :=
  if path.isAbsolute then path
  else if base.chars.isEmpty || base.chars.getLast? == some '/' then ⟨base.chars ++ path.chars⟩
  else ⟨base.chars ++ '/' :: path.chars⟩

/-! ## Components -/

inductive Component where
  | root
  | current
  | parent
  | normal (name : List Char)
  deriving DecidableEq

/-- A dot counts only at the start of a relative path. -/
def components (path : FilePath) : List Component :=
  let component (part : List Char) : Option Component :=
    if part = [] ∨ part = ['.'] then none
    else if part = ['.', '.'] then some .parent
    else some (.normal part)
  let parts := splitSlash path.chars
  let start : List Component :=
    if path.isAbsolute then [.root]
    else if parts.head? = some ['.'] then [.current]
    else []
  start ++ parts.filterMap component

def same (a b : FilePath) : Bool := a.components = b.components

namespace Component

def rank : Component → Nat
  | .root => 0
  | .current => 1
  | .parent => 2
  | .normal _ => 3

def name : Component → List Char
  | .normal name => name
  | _ => []

/-- Characters in the order of their code points, a shorter name before a longer one. -/
def nameLe : List Char → List Char → Bool
  | [], _ => true
  | _ :: _, [] => false
  | a :: as, b :: bs => a.toNat < b.toNat || (a = b && nameLe as bs)

def le (a b : Component) : Bool :=
  a.rank < b.rank || (a.rank = b.rank && nameLe a.name b.name)

end Component

def componentsLe : List Component → List Component → Bool
  | [], _ => true
  | _ :: _, [] => false
  | a :: as, b :: bs => if a = b then componentsLe as bs else a.le b

def le (a b : FilePath) : Bool := componentsLe a.components b.components

def sort (paths : List FilePath) : List FilePath := paths.mergeSort le

/-! ## The directory of a path -/

/-- Takes off parts at the end that are no components; the parts come last first. -/
def trimParts : List (List Char) → List (List Char)
  | [] => []
  | part :: rest => if part = [] ∨ part = ['.'] then trimParts rest else part :: rest

/-- The path without its last component, if that is not the root. -/
def parent? (path : FilePath) : Option FilePath :=
  let (head, body) : List Char × List (List Char) :=
    match path.chars with
    | '/' :: rest => (['/'], splitSlash rest)
    | ['.'] => (['.'], [])
    | '.' :: '/' :: rest => (['.', '/'], splitSlash rest)
    | chars => ([], splitSlash chars)
  match trimParts body.reverse with
  | _ :: rest =>
    match trimParts rest with
    | [] => some ⟨if head = ['.', '/'] then ['.'] else head⟩
    | kept => some ⟨head ++ joinSlash kept.reverse⟩
  | [] => if head = ['.'] ∨ head = ['.', '/'] then some ⟨[]⟩ else none

end FilePath
end ThemeRules
