import ThemeRules.Text.Blank
import ThemeRules.Text.Lower

/-!
# ThemeRules.Text.Kebab

Lower kebab-case. A label becomes a name in three passes and a lower-casing:

* a hyphen between a lower-case letter and a capital (`aB` becomes `a-B`);
* a hyphen before the last capital of a run that a lower-case letter follows (`ABCd` becomes
  `AB-Cd`);
* one hyphen for every run of blanks and underscores.

Letters are those of ASCII in the first two passes, and Unicode in the lower-casing. Each pass reads
from left to right and goes on after what it has replaced.
-/

namespace ThemeRules
namespace Text

def isAsciiLower (c : Char) : Bool := 'a' ≤ c && c ≤ 'z'

def isAsciiUpper (c : Char) : Bool := 'A' ≤ c && c ≤ 'Z'

def isSeparator (c : Char) : Bool := isBlank c || c == '_'

/-- Cuts between a lower-case letter and a capital; both letters are used up by the cut. -/
def cutLowerUpper : List Char → List Char
  | a :: b :: rest =>
    if isAsciiLower a && isAsciiUpper b then a :: '-' :: b :: cutLowerUpper rest
    else a :: cutLowerUpper (b :: rest)
  | rest => rest

/-- Cuts before the last capital of a run that a lower-case letter follows; the three letters are
used up by the cut. -/
def cutUpperRun : List Char → List Char
  | a :: b :: c :: rest =>
    if isAsciiUpper a && isAsciiUpper b && isAsciiLower c then
      a :: '-' :: b :: c :: cutUpperRun rest
    else a :: cutUpperRun (b :: c :: rest)
  | rest => rest

/-- Writes one hyphen for every run of separators; `inRun` says that the run has been written. -/
def joinSeparatorsFrom (inRun : Bool) : List Char → List Char
  | [] => []
  | c :: rest =>
    if isSeparator c then
      if inRun then joinSeparatorsFrom true rest else '-' :: joinSeparatorsFrom true rest
    else c :: joinSeparatorsFrom false rest

def joinSeparators (text : List Char) : List Char := joinSeparatorsFrom false text

def kebab (text : List Char) : List Char :=
  lower (joinSeparators (cutUpperRun (cutLowerUpper text)))

end Text

def kebabCase (text : String) : String := .ofList (Text.kebab text.toList)

end ThemeRules
