import ThemeRules.OrderedMap
import ThemeRules.Yaml.Misfit
import ThemeRules.Yaml.Node

/-!
# ThemeRules.Yaml.Reader

Reading typed values from the nodes of a document. A reader gets the place of its node, for its
errors, and either returns a value or says how the node fails to fit. The first misfit in the order
of the document counts.

An empty plain scalar stands for an empty collection wherever a collection is expected; it also
stands for an optional value that is not there.
-/

namespace ThemeRules
namespace Yaml

abbrev Reader (α : Type) := Path → Node → Except Misfit α

namespace Node

def target : Node → Node
  | .alias target => target
  | node => node

def limitCause : Limit → Cause
  | .nesting => .nestingLimit
  | .repetition => .repetitionLimit

/-- The tag is one of a variant: an exclamation mark and the name of the variant. -/
def variant? (tag : Option String) : Option String :=
  match tag.map String.toList with
  | some ('!' :: name) => some (.ofList name)
  | _ => none

def coreTag (name : String) : String := "tag:yaml.org,2002:" ++ name

/-- The meaning of a scalar. The tags for booleans, numbers and null demand that the text fits them;
any other tag makes it text, but a variant's tag leaves a plain scalar as it is. -/
def scalarValue (tag : Option String) (isPlain : Bool) (s : String) : Except Cause Scalar :=
  let text := s.toList
  let demand (value : Option Scalar) (expected : String) : Except Cause Scalar :=
    match value with
    | some value => .ok value
    | none => .error (.wrongValue s expected)
  match tag with
  | none => .ok (if isPlain then .ofPlain s else .text s)
  | some name =>
    if name = coreTag "bool" then demand ((Scalar.bool? text).map .bool) "a boolean"
    else if name = coreTag "int" then demand (Scalar.int? text) "an integer"
    else if name = coreTag "float" then demand ((Scalar.double? text).map .double) "a float"
    else if name = coreTag "null" then
      demand (if Scalar.isNullWord text then some .null else none) "null"
    else .ok (if isPlain && (variant? tag).isSome then .ofPlain s else .text s)

def wrongType (path : Path) (expected : String) (node : Node) : Misfit :=
  .locate path <|
    match node.target with
    | .scalar tag isPlain s =>
      match scalarValue tag isPlain s with
      | .ok value => .wrongType (.scalar value) expected
      | .error cause => cause
    | .sequence .. => .wrongType .sequence expected
    | .mapping .. => .wrongType .map expected
    | .beyond limit => limitCause limit
    | .alias _ => .repetitionLimit

def asText (expected : String) : Reader String := fun path node =>
  match node.target with
  | .scalar _ _ s => .ok s
  | other => .error (wrongType path expected other)

def asItems (expected : String) : Reader (List Node) := fun path node =>
  match node.target with
  | .sequence _ items => .ok items
  | .scalar _ true "" => .ok []
  | other => .error (wrongType path expected other)

def asEntries (expected : String) : Reader (List (Node × Node)) := fun path node =>
  match node.target with
  | .mapping _ entries => .ok entries
  | .scalar _ true "" => .ok []
  | other => .error (wrongType path expected other)

def valuePath (path : Path) (key : Node) : Path :=
  match key with
  | .scalar _ _ s => .entry path s
  | _ => .unnamed path

/-- Nothing or null stands in the place of an optional value. -/
def isAbsent (node : Node) : Except Misfit Bool :=
  match node.target with
  | .scalar tag true s =>
    if tag = some (coreTag "null") then
      if Scalar.isNullWord s.toList then .ok true
      else .error ⟨none, .wrongValue s "null"⟩
    else .ok (s.isEmpty || Scalar.isNullWord s.toList)
  | .beyond .repetition => .error ⟨none, .repetitionLimit⟩
  | _ => .ok false

def asOption {α : Type} (read : Reader α) : Reader (Option α) := fun path node =>
  match node.isAbsent with
  | .error misfit => .error misfit
  | .ok true => .ok none
  | .ok false =>
    match read path node with
    | .error misfit => .error misfit
    | .ok value => .ok (some value)

/-- Reads items one after the other; `index` is that of the first. -/
def readItems {α : Type} (read : Reader α) (path : Path) :
    (index : Nat) → List Node → Except Misfit (List α)
  | _, [] => .ok []
  | index, item :: rest =>
    match read (.item path index) item with
    | .error misfit => .error misfit
    | .ok value =>
      match readItems read path (index + 1) rest with
      | .error misfit => .error misfit
      | .ok values => .ok (value :: values)

def asList {α : Type} (read : Reader α) : Reader (List α) := fun path node =>
  match node.asItems "a sequence" path with
  | .error misfit => .error misfit
  | .ok items => readItems read path 0 items

def readEntries {α : Type} (read : Reader α) (path : Path) :
    OrderedMap α → List (Node × Node) → Except Misfit (OrderedMap α)
  | map, [] => .ok map
  | map, (key, value) :: rest =>
    match key.asText "a string" path with
    | .error misfit => .error misfit
    | .ok name =>
      match read (valuePath path key) value with
      | .error misfit => .error misfit
      | .ok value => readEntries read path (map.insert name value) rest

def asMap {α : Type} (read : Reader α) : Reader (OrderedMap α) := fun path node =>
  match node.asEntries "a map" path with
  | .error misfit => .error misfit
  | .ok entries => readEntries read path .empty entries

/-- Reads the fields of a record. `field` says what to do with a known field: the draft so far and
the node give the next draft, or nothing if the field has been read before. Unknown fields are passed
over. -/
def readFields {σ : Type}
    (field : String → Option (σ → Option (Path → Node → Except Misfit σ)))
    (path : Path) : σ → List (Node × Node) → Except Misfit σ
  | draft, [] => .ok draft
  | draft, (key, value) :: rest =>
    match key.asText "field identifier" path with
    | .error misfit => .error misfit
    | .ok name =>
      match field name with
      | none => readFields field path draft rest
      | some known =>
        match known draft with
        | none => .error (.locate path (.repeatedField name))
        | some read =>
          match read (valuePath path key) value with
          | .error misfit => .error (misfit.within path)
          | .ok draft => readFields field path draft rest

end Node

def decode {α : Type} (read : Reader α) (text : String) : Except Fault α :=
  match Node.ofText? text with
  | none => .error .malformed
  | some node =>
    match read .root node with
    | .error misfit => .error (.misfit misfit)
    | .ok value => .ok value

end Yaml
end ThemeRules
