import ThemeRules.Yaml.Token

/-!
# ThemeRules.Yaml.Tree

A YAML document as the tree of its nodes, the way it was written: an alias is a node of its own, and
an anchor and a tag are marks on the node behind them.

An anchor is known by a number: how many different anchors had been named before it. A name that is
given a second time takes a new number, and should another anchor get this number later, the number
means the later node; `resolve` in `ThemeRules.Yaml.Node` looks the numbers up when the whole document
has been read.
-/

namespace ThemeRules
namespace Yaml

structure Mark where
  anchor : Option Nat
  tag : Option String

inductive Tree where
  | alias (anchor : Nat)
  | scalar (mark : Mark) (isPlain : Bool) (text : List Char)
  | sequence (mark : Mark) (items : List Tree)
  | mapping (mark : Mark) (entries : List (Tree × Tree))
  deriving Inhabited

namespace Tree

def nothing : Tree := .scalar ⟨none, none⟩ true []

/-! ## Reading from tokens -/

/-- The tokens that are left, what the tag handles are short for, and the numbers of the anchors by
name. -/
structure Source where
  tokens : List Token
  handles : List (List Char × List Char)
  anchors : List (List Char × Nat)

abbrev Step := StateT Source Option

def peek : Step (Option Token) := fun s => some (s.tokens.head?, s)

def drop : Step Unit := fun s => some ((), { s with tokens := s.tokens.drop 1 })

def nextIs (test : Token → Bool) : Step Bool := fun s => some (s.tokens.head?.any test, s)

def isKey : Token → Bool
  | .key => true
  | _ => false

def isValue : Token → Bool
  | .value => true
  | _ => false

def isBlockEntry : Token → Bool
  | .blockEntry => true
  | _ => false

def isBlockEnd : Token → Bool
  | .blockEnd => true
  | _ => false

def isFlowEntry : Token → Bool
  | .flowEntry => true
  | _ => false

def isFlowSequenceEnd : Token → Bool
  | .flowSequenceEnd => true
  | _ => false

def isFlowMappingEnd : Token → Bool
  | .flowMappingEnd => true
  | _ => false

def nameAnchor (name : List Char) : Step Nat := fun s =>
  let id := s.anchors.length
  some (id, { s with anchors := (name, id) :: s.anchors.filter (·.1 != name) })

def findAnchor (name : List Char) : Step Nat := fun s =>
  (s.anchors.lookup name).map fun id => (id, s)

def tagText (tag : Tag) : Step String := fun s =>
  if tag.handle.isEmpty then some (.ofList tag.suffix, s)
  else (s.handles.lookup tag.handle).map fun start => (.ofList (start ++ tag.suffix), s)

/-- An anchor and a tag, each at most once and in either order. -/
def mark : Step Mark := do
  match ← peek with
  | some (.anchor name) =>
    drop
    match ← peek with
    | some (.tag tag) =>
      drop
      let tag ← tagText tag
      return ⟨some (← nameAnchor name), some tag⟩
    | _ => return ⟨some (← nameAnchor name), none⟩
  | some (.tag tag) =>
    drop
    let tag ← tagText tag
    match ← peek with
    | some (.anchor name) =>
      drop
      return ⟨some (← nameAnchor name), some tag⟩
    | _ => return ⟨none, some tag⟩
  | _ => return ⟨none, none⟩

/-- A lone exclamation mark says nothing about a scalar. -/
def Mark.ofScalar (mark : Mark) : Mark :=
  if mark.tag == some "!" then { mark with tag := none } else mark

/-- Before every entry of a flow collection but the first stands a comma. -/
def comma : (isFirst : Bool) → Step Unit
  | true => return ()
  | false => do
    if ← nextIs isFlowEntry then drop else failure

mutual

/-- Reads a node. `inBlock` admits block collections, `indentless` also a sequence whose entries
stand at the column of the mapping around it. -/
def node : Nat → (inBlock indentless : Bool) → Step Tree
  | 0, _, _ => failure
  | fuel + 1, inBlock, indentless => do
    match ← peek with
    | some (.alias name) =>
      drop
      return .alias (← findAnchor name)
    | _ =>
      let mark ← mark
      match ← peek with
      | some (.scalar isPlain text) =>
        drop
        return .scalar (Mark.ofScalar mark) isPlain text
      | some .flowSequence =>
        drop
        return .sequence mark (← flowItems fuel true)
      | some .flowMapping =>
        drop
        return .mapping mark (← flowEntries fuel true)
      | next =>
        match next, inBlock, indentless with
        | some .blockEntry, _, true => return .sequence mark (← indentlessItems fuel)
        | some .blockSequence, true, _ =>
          drop
          return .sequence mark (← blockItems fuel)
        | some .blockMapping, true, _ =>
          drop
          return .mapping mark (← blockEntries fuel)
        | _, _, _ =>
          if mark.anchor.isSome || mark.tag.isSome then return .scalar mark true []
          else failure

/-- A node, unless one of the tokens comes next that show that there is none. -/
def nodeUnless : Nat → (absent : Token → Bool) → (inBlock indentless : Bool) → Step Tree
  | 0, _, _, _ => failure
  | fuel + 1, absent, inBlock, indentless => do
    if ← nextIs absent then return nothing else node fuel inBlock indentless

def blockItems : Nat → Step (List Tree)
  | 0 => failure
  | fuel + 1 => do
    match ← peek with
    | some .blockEntry =>
      drop
      let item ← nodeUnless fuel (fun t => isBlockEntry t || isBlockEnd t) true false
      return item :: (← blockItems fuel)
    | some .blockEnd =>
      drop
      return []
    | _ => failure

def indentlessItems : Nat → Step (List Tree)
  | 0 => failure
  | fuel + 1 => do
    match ← peek with
    | some .blockEntry =>
      drop
      let item ← nodeUnless fuel
        (fun t => isBlockEntry t || isKey t || isValue t || isBlockEnd t) true false
      return item :: (← indentlessItems fuel)
    | _ => return []

def blockEntries : Nat → Step (List (Tree × Tree))
  | 0 => failure
  | fuel + 1 => do
    let absent (t : Token) : Bool := isKey t || isValue t || isBlockEnd t
    match ← peek with
    | some .key =>
      drop
      let key ← nodeUnless fuel absent true true
      if ← nextIs isValue then
        drop
        let value ← nodeUnless fuel absent true true
        return (key, value) :: (← blockEntries fuel)
      else return (key, nothing) :: (← blockEntries fuel)
    | some .blockEnd =>
      drop
      return []
    | _ => failure

/-- The items of a flow sequence. A pair in it is a mapping with one entry. -/
def flowItems : Nat → (isFirst : Bool) → Step (List Tree)
  | 0, _ => failure
  | fuel + 1, isFirst => do
    if ← nextIs isFlowSequenceEnd then
      drop
      return []
    else
      comma isFirst
      if ← nextIs isKey then
        drop
        let pair ← flowPair fuel
        return .mapping ⟨none, none⟩ [pair] :: (← flowItems fuel false)
      else if ← nextIs isFlowSequenceEnd then
        drop
        return []
      else
        let item ← node fuel false false
        return item :: (← flowItems fuel false)

/-- The pair behind a key token in a flow sequence. If no key follows, the token that shows this is
passed over as well. -/
def flowPair : Nat → Step (Tree × Tree)
  | 0 => failure
  | fuel + 1 => do
    if ← nextIs (fun t => isValue t || isFlowEntry t || isFlowSequenceEnd t) then
      drop
      return (nothing, ← flowValue fuel isFlowSequenceEnd)
    else
      let key ← node fuel false false
      return (key, ← flowValue fuel isFlowSequenceEnd)

def flowValue : Nat → (isEnd : Token → Bool) → Step Tree
  | 0, _ => failure
  | fuel + 1, isEnd => do
    if ← nextIs isValue then
      drop
      nodeUnless fuel (fun t => isFlowEntry t || isEnd t) false false
    else return nothing

/-- The entries of a flow mapping. A key may stand alone. -/
def flowEntries : Nat → (isFirst : Bool) → Step (List (Tree × Tree))
  | 0, _ => failure
  | fuel + 1, isFirst => do
    if ← nextIs isFlowMappingEnd then
      drop
      return []
    else
      comma isFirst
      if ← nextIs isKey then
        drop
        let key ← nodeUnless fuel
          (fun t => isValue t || isFlowEntry t || isFlowMappingEnd t) false false
        let value ← flowValue fuel isFlowMappingEnd
        return (key, value) :: (← flowEntries fuel false)
      else if ← nextIs isFlowMappingEnd then
        drop
        return []
      else
        let key ← node fuel false false
        return (key, nothing) :: (← flowEntries fuel false)

end

/-! ## Whole documents -/

def defaultHandles : List (List Char × List Char) :=
  [(['!'], ['!']), (['!', '!'], "tag:yaml.org,2002:".toList)]

/-- Reads the directives before a document: at most one version, and no handle twice. -/
def directives : List Token → (versioned : Bool) → List (List Char × List Char) →
    Option (List (List Char × List Char) × List Token)
  | .directive (.version major minor) :: rest, versioned, handles =>
    if versioned || major != 1 || (minor != 1 && minor != 2) then none
    else directives rest true handles
  | .directive (.handle handle start) :: rest, versioned, handles =>
    if (handles.lookup handle).isSome then none
    else directives rest versioned ((handle, start) :: handles)
  | rest, _, handles => some (handles, rest)

def isDocumentBound : Token → Bool
  | .directive _ | .documentStart | .documentEnd => true
  | _ => false

def endsDocument (tokens : List Token) : Bool :=
  tokens.all fun t => match t with
    | .documentEnd => true
    | _ => false

/-- The only document of a text: `none` if the tokens are not one document, `some none` if there is
none at all. -/
def ofTokens? (tokens : List Token) : Option (Option Tree) :=
  let fuel := 4 * tokens.length + 8
  let read (step : Step Tree) (source : Source) : Option (Option Tree) :=
    match step.run source with
    | some (tree, source) => if endsDocument source.tokens then some (some tree) else none
    | none => none
  match tokens with
  | [] => some none
  | first :: _ =>
    match first with
    | .directive _ | .documentStart =>
      match directives tokens false [] with
      | some (handles, .documentStart :: rest) =>
        let source : Source := ⟨rest, handles ++ defaultHandles, []⟩
        if rest.isEmpty || rest.head?.any isDocumentBound then read (pure nothing) source
        else read (node fuel true false) source
      | _ => none
    | _ => read (node fuel true false) ⟨tokens, defaultHandles, []⟩

end Tree
end Yaml
end ThemeRules
