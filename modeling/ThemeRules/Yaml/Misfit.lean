import ThemeRules.Text.Quoted
import ThemeRules.Yaml.Scalar

/-!
# ThemeRules.Yaml.Misfit

How a well-formed document can fail to hold what is expected: what was found, what was expected and
where. The place is a path through the keys and indices of the document. A reader that does not know
its own place leaves it open; the next one around it fills it in.
-/

namespace ThemeRules
namespace Yaml

/-- A place in a document. A key that is no plain text of its own leaves its value unnamed. -/
inductive Path where
  | root
  | item (parent : Path) (index : Nat)
  | entry (parent : Path) (key : String)
  | unnamed (parent : Path)
  deriving DecidableEq

namespace Path

def render : Path → String
  | .root => "."
  | .item parent index => parent.render ++ "[" ++ toString index ++ "]"
  | .entry .root key => key
  | .entry parent key => parent.render ++ "." ++ key
  | .unnamed .root => "?"
  | .unnamed parent => parent.render ++ ".?"

end Path

inductive Found where
  | scalar (value : Scalar)
  | sequence
  | map
  | tagged
  deriving DecidableEq

namespace Found

def describe : Found → String
  | .scalar .null => "unit value"
  | .scalar (.bool b) => "boolean \x60" ++ (if b then "true" else "false") ++ "\x60"
  | .scalar (.int n) => "integer \x60" ++ toString n ++ "\x60"
  | .scalar (.wide n) =>
    "integer \x60" ++ toString n ++ "\x60 as " ++ if n < 0 then "i128" else "u128"
  | .scalar (.double x) =>
    let text := x.plain
    let point := if x.isFinite && !text.toList.contains '.' then ".0" else ""
    "floating point \x60" ++ text ++ point ++ "\x60"
  | .scalar (.text s) => "string " ++ Text.quote s
  | .sequence => "sequence"
  | .map => "map"
  | .tagged => "enum"

end Found

inductive Cause where
  | wrongType (found : Found) (expected : String)
  | wrongValue (text : String) (expected : String)
  | missingField (name : String)
  | repeatedField (name : String)
  | unknownVariant (found : String) (known : List String)
  | numberOutOfRange
  | noVariant (name : String)
  | taggedInBuffer
  | nestingLimit
  | repetitionLimit
  deriving DecidableEq

namespace Cause

def inTicks (s : String) : String := "\x60" ++ s ++ "\x60"

def message : Cause → String
  | .wrongType found expected => "invalid type: " ++ found.describe ++ ", expected " ++ expected
  | .wrongValue text expected => "invalid value: string " ++ Text.quote text ++ ", expected " ++ expected
  | .missingField name => "missing field " ++ inTicks name
  | .repeatedField name => "duplicate field " ++ inTicks name
  | .unknownVariant found known =>
    "unknown variant " ++ inTicks found ++ ", expected " ++ " or ".intercalate (known.map inTicks)
  | .numberOutOfRange => "JSON number out of range"
  | .noVariant name => "data did not match any variant of untagged enum " ++ name
  | .taggedInBuffer => "untagged and internally tagged enums do not support enum input"
  | .nestingLimit => "recursion limit exceeded"
  | .repetitionLimit => "repetition limit exceeded"

end Cause

structure Misfit where
  place : Option Path
  cause : Cause
  deriving DecidableEq

namespace Misfit

def locate (path : Path) (cause : Cause) : Misfit := ⟨some path, cause⟩

def within (path : Path) (misfit : Misfit) : Misfit :=
  { misfit with place := misfit.place.or (some path) }

/-- The root is no place worth telling, and the limits belong to the document as a whole. -/
def message (misfit : Misfit) : String :=
  match misfit.cause, misfit.place with
  | .nestingLimit, _ | .repetitionLimit, _ | _, none | _, some .root => misfit.cause.message
  | cause, some path => path.render ++ ": " ++ cause.message

end Misfit

/-- Why a text could not be read: it is no document at all, or not the one expected. -/
inductive Fault where
  | malformed
  | misfit (misfit : Misfit)
  deriving DecidableEq

end Yaml
end ThemeRules
