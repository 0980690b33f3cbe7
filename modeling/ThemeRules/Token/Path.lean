/-!
# ThemeRules.Token.Path

Paths into a document of design tokens, such as `backgroundColor.blue.500` or `height[1/2]`. Dots
separate segments; a segment in brackets is taken as it is, without a pair of equal quotes around
it, so that keys with dots and slashes can be reached. A bracket that is never closed runs to the end
of the path. Between two dots nothing is no segment; between brackets it is one.
-/

namespace ThemeRules
namespace Token

/-- A segment without the pair of equal quotes around it, if there is one. -/
def stripQuotes (segment : List Char) : List Char :=
  match segment with
  | q :: rest =>
    if (q = '\'' ∨ q = '"') ∧ rest.getLast? = some q then rest.dropLast else segment
  | [] => []

/-- Where a path is read: in a segment outside of brackets or in one between brackets. Either holds
what has been read of the segment, in reverse. -/
inductive Place where
  | outside (segment : List Char)
  | inside (segment : List Char)

def ended (segment : List Char) : List (List Char) :=
  if segment.isEmpty then [] else [segment.reverse]

def parseFrom : Place → List Char → List (List Char)
  | .outside segment, [] => ended segment
  | .inside segment, [] => [stripQuotes segment.reverse]
  | .outside segment, c :: rest =>
    if c = '.' then ended segment ++ parseFrom (.outside []) rest
    else if c = '[' then ended segment ++ parseFrom (.inside []) rest
    else parseFrom (.outside (c :: segment)) rest
  | .inside segment, c :: rest =>
    if c = ']' then stripQuotes segment.reverse :: parseFrom (.outside []) rest
    else parseFrom (.inside (c :: segment)) rest

def parsePath (path : List Char) : List (List Char) := parseFrom (.outside []) path

end Token
end ThemeRules
