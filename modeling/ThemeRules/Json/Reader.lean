import ThemeRules.Json.Basic
import ThemeRules.Yaml.Reader

/-!
# ThemeRules.Json.Reader

Reading any document from the nodes of a YAML text, and the nodes of a document. A key is the text of
its scalar; of two equal keys the first gives the position and the second the value. Numbers have to
fit 64 bits. Infinities, and what is no number, become null.
-/

namespace ThemeRules
namespace Json

open Yaml

def ofScalar : Scalar → Except Cause Json
  | .null => .ok .null
  | .bool b => .ok (.bool b)
  | .int n => .ok (.int n)
  | .wide _ => .error .numberOutOfRange
  | .double x => .ok (if x.isFinite then .double x else .null)
  | .text s => .ok (.string s)

mutual

def read (path : Path) : Node → Except Misfit Json
  | .scalar tag isPlain s =>
    if (Node.variant? tag).isSome then .error (tagged path)
    else
      match Node.scalarValue tag isPlain s with
      | .error cause => .error (.locate path cause)
      | .ok value =>
        match ofScalar value with
        | .error cause => .error (.locate path cause)
        | .ok document => .ok document
  | .sequence tag items =>
    if (Node.variant? tag).isSome then .error (tagged path)
    else
      match readItems path 0 items with
      | .error misfit => .error misfit
      | .ok items => .ok (.array items)
  | .mapping tag entries =>
    if (Node.variant? tag).isSome then .error (tagged path)
    else
      match readEntries path [] entries with
      | .error misfit => .error misfit
      | .ok fields => .ok (.object fields)
  | .alias target => read path target
  | .beyond limit => .error (.locate path (Node.limitCause limit))
where
  tagged (path : Path) : Misfit := .locate path (.wrongType .tagged "any valid JSON value")

def readItems (path : Path) : (index : Nat) → List Node → Except Misfit (List Json)
  | _, [] => .ok []
  | index, item :: rest =>
    match read (.item path index) item with
    | .error misfit => .error misfit
    | .ok value =>
      match readItems path (index + 1) rest with
      | .error misfit => .error misfit
      | .ok values => .ok (value :: values)

/-- Reads entries behind fields that have been read. -/
def readEntries (path : Path) :
    (fields : List (String × Json)) → List (Node × Node) → Except Misfit (List (String × Json))
  | fields, [] => .ok fields
  | fields, (key, value) :: rest =>
    match key.asText (if fields.isEmpty then "a string key" else "a string") path with
    | .error misfit => .error misfit
    | .ok name =>
      match read (Node.valuePath path key) value with
      | .error misfit => .error misfit
      | .ok value => readEntries path (upsert name value fields) rest

end

/-- Reads a document from YAML text, of which JSON text is a special case. -/
def ofYaml (text : String) : Except Fault Json := decode read text

mutual

/-- The document as it reads from a text that holds it: strings are in quotes, everything else is
not. -/
def toNode : Json → Node
  | .null => .scalar none true "null"
  | .bool b => .scalar none true (if b then "true" else "false")
  | .int n => .scalar none true (toString n)
  | .double x => .scalar none true (x.json?.getD "null")
  | .string s => .scalar none false s
  | .array items => .sequence none (itemNodes items)
  | .object fields => .mapping none (fieldNodes fields)

def itemNodes : List Json → List Node
  | [] => []
  | item :: rest => toNode item :: itemNodes rest

def fieldNodes : List (String × Json) → List (Node × Node)
  | [] => []
  | (key, value) :: rest => (.scalar none false key, toNode value) :: fieldNodes rest

end

end Json
end ThemeRules
