/-!
# ThemeRules.Glob.Pattern

Glob patterns. `?` is one byte and `*` any run of bytes that are no separator; `**` between
separators, or at an end, is any number of directories; brackets hold a class of bytes, braces
alternatives, and a backslash takes the next character literally.

`parse` goes through the text once. A class, a run of two stars and an escape are states of the
reader (`Mode`), so that every step takes one character.
-/

namespace ThemeRules
namespace Glob

inductive Token where
  | literal (c : Char)
  | anyByte
  | anyRun
  /-- Directories at the start: nothing, or anything up to a separator. -/
  | leading
  /-- Everything below: a separator and anything. -/
  | trailing
  /-- Directories in the middle: a separator, or anything between two of them. -/
  | between
  | oneOf (negated : Bool) (ranges : List (Char × Char))
  | alternatives (branches : List (List Token))
  deriving Inhabited

inductive Fault where
  | unclosedClass
  | badRange (low high : Char)
  | unopenedGroup
  | unclosedGroup
  | danglingEscape
  deriving DecidableEq

namespace Fault

def message : Fault → String
  | .unclosedClass => "unclosed character class; missing ']'"
  | .badRange low high =>
    .ofList ("invalid range; '".toList ++ low :: "' > '".toList ++ high :: ['\''])
  | .unopenedGroup =>
    "unopened alternate group; missing '\x7b' (maybe escape '\x7d' with '[\x7d]'?)"
  | .unclosedGroup =>
    "unclosed alternate group; missing '\x7d' (maybe escape '\x7b' with '[\x7b]'?)"
  | .danglingEscape => "dangling '\\'"

end Fault

/-! ## Classes -/

/-- A class being read, its ranges in reverse. `inRange` says that the last character was a hyphen that
may make a range of the one before it, `first` that nothing has been read yet. -/
structure ClassDraft where
  negated : Bool
  first : Bool
  inRange : Bool
  ranges : List (Char × Char)

namespace ClassDraft

def start (negated : Bool) : ClassDraft := ⟨negated, true, false, []⟩

def extend (draft : ClassDraft) (c : Char) : Except Fault ClassDraft :=
  match draft.ranges with
  | (low, _) :: rest =>
    if c < low then .error (.badRange low c)
    else .ok { draft with ranges := (low, c) :: rest, inRange := false, first := false }
  | [] => .ok { draft with ranges := [(c, c)], inRange := false, first := false }

def add (draft : ClassDraft) (c : Char) : Except Fault ClassDraft :=
  if draft.inRange then draft.extend c
  else if c == '-' && !draft.first then .ok { draft with inRange := true }
  else .ok { draft with ranges := (c, c) :: draft.ranges, first := false }

/-- A hyphen at the end of a class stands for itself. -/
def token (draft : ClassDraft) : Token :=
  .oneOf draft.negated
    (if draft.inRange then ('-', '-') :: draft.ranges else draft.ranges).reverse

end ClassDraft

/-! ## Patterns -/

/-- An open group: its finished branches and what stands before it, both in reverse. -/
structure Group where
  branches : List (List Token)
  before : List Token

/-- What has been read: the tokens of the current branch in reverse, and the open groups around it,
innermost first. -/
structure Draft where
  tokens : List Token
  groups : List Group

namespace Draft

def push (draft : Draft) (token : Token) : Draft :=
  { draft with tokens := token :: draft.tokens }

def openGroup (draft : Draft) : Draft := ⟨[], ⟨[], draft.tokens⟩ :: draft.groups⟩

/-- Outside of groups a comma stands for itself. -/
def comma (draft : Draft) : Draft :=
  match draft.groups with
  | [] => draft.push (.literal ',')
  | group :: rest =>
    ⟨[], { group with branches := draft.tokens.reverse :: group.branches } :: rest⟩

def closeGroup (draft : Draft) : Except Fault Draft :=
  match draft.groups with
  | [] => .error .unopenedGroup
  | group :: rest =>
    .ok ⟨.alternatives (draft.tokens.reverse :: group.branches).reverse :: group.before, rest⟩

def twoRuns (draft : Draft) : Draft := (draft.push .anyRun).push .anyRun

/-- Replaces the separator before two stars; directories that are already there take in the new
ones. -/
def replaceLast (draft : Draft) (token : Token) : Draft :=
  match draft.tokens with
  | .leading :: rest => { draft with tokens := .leading :: rest }
  | .trailing :: rest => { draft with tokens := .trailing :: rest }
  | _ :: rest => { draft with tokens := token :: rest }
  | [] => { draft with tokens := [token] }

/-- Two stars, the character before them and the one behind. The flag says that the character behind
them, a separator, belongs to them. -/
def twoStars (draft : Draft) (before next : Option Char) : Draft × Bool :=
  if draft.tokens.isEmpty then
    match next with
    | none => (draft.push .leading, false)
    | some '/' => (draft.push .leading, true)
    | some _ => (draft.twoRuns, false)
  else if before != some '/' &&
      (draft.groups.isEmpty || (before != some ',' && before != some '{')) then
    (draft.twoRuns, false)
  else
    match next with
    | none => (draft.replaceLast .trailing, false)
    | some '/' => (draft.replaceLast .between, true)
    | some c =>
      if (c == ',' || c == '}') && !draft.groups.isEmpty then (draft.replaceLast .trailing, false)
      else (draft.twoRuns, false)

def closed (draft : Draft) : Except Fault (List Token) :=
  if draft.groups.isEmpty then .ok draft.tokens.reverse else .error .unclosedGroup

end Draft

/-- What the next character belongs to. `plain` knows the character before it; `star` comes behind a
first star; `classStart` behind an opening bracket. -/
inductive Mode where
  | plain (before : Option Char)
  | star (before : Option Char)
  | twoStars (before : Option Char)
  | escape
  | classStart
  | inClass (draft : ClassDraft)

def plainStep (draft : Draft) (before : Option Char) (c : Char) : Except Fault (Mode × Draft) :=
  match c with
  | '?' => .ok (.plain (some c), draft.push .anyByte)
  | '*' => .ok (.star before, draft)
  | '[' => .ok (.classStart, draft)
  | '{' => .ok (.plain (some c), draft.openGroup)
  | '}' =>
    match draft.closeGroup with
    | .error fault => .error fault
    | .ok draft => .ok (.plain (some c), draft)
  | ',' => .ok (.plain (some c), draft.comma)
  | '\\' => .ok (.escape, draft)
  | c => .ok (.plain (some c), draft.push (.literal c))

def classStep (draft : Draft) (inside : ClassDraft) (c : Char) : Except Fault (Mode × Draft) :=
  if c == ']' && !inside.first then .ok (.plain (some c), draft.push inside.token)
  else
    match inside.add c with
    | .error fault => .error fault
    | .ok inside => .ok (.inClass inside, draft)

def step (draft : Draft) (mode : Mode) (c : Char) : Except Fault (Mode × Draft) :=
  match mode with
  | .plain before => plainStep draft before c
  | .star before =>
    if c == '*' then .ok (.twoStars before, draft)
    else plainStep (draft.push .anyRun) (some '*') c
  | .twoStars before =>
    let (draft, taken) := draft.twoStars before (some c)
    if taken then .ok (.plain (some c), draft) else plainStep draft (some '*') c
  | .escape => .ok (.plain (some c), draft.push (.literal c))
  | .classStart =>
    if c == '!' || c == '^' then .ok (.inClass (.start true), draft)
    else classStep draft (.start false) c
  | .inClass inside => classStep draft inside c

def parseFrom (draft : Draft) (mode : Mode) : List Char → Except Fault (Mode × Draft)
  | [] => .ok (mode, draft)
  | c :: rest =>
    match step draft mode c with
    | .error fault => .error fault
    | .ok (mode, draft) => parseFrom draft mode rest

def finish (mode : Mode) (draft : Draft) : Except Fault (List Token) :=
  match mode with
  | .plain _ => draft.closed
  | .star _ => (draft.push .anyRun).closed
  | .twoStars before => (draft.twoStars before none).1.closed
  | .escape => .error .danglingEscape
  | .classStart | .inClass _ => .error .unclosedClass

def parse (text : List Char) : Except Fault (List Token) :=
  match parseFrom ⟨[], []⟩ (.plain none) text with
  | .error fault => .error fault
  | .ok (mode, draft) => finish mode draft

end Glob
end ThemeRules
