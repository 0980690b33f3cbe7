import ThemeRules.Text.CaseTables

/-!
# ThemeRules.Text.Lower

Lower-casing of a text by the full Unicode rules that do not depend on a language. Every character
is mapped by itself, with two exceptions: a capital I with a dot becomes two characters, and a
capital sigma becomes a final sigma when it ends a word.
-/

namespace ThemeRules
namespace Text

def CaseRange.covers (r : CaseRange) (n : Nat) : Bool :=
  r.first ≤ n && n ≤ r.last && (n - r.first) % r.step == 0

def inRanges (ranges : List (Nat × Nat)) (c : Char) : Bool :=
  ranges.any fun r => r.1 ≤ c.toNat && c.toNat ≤ r.2

/-- A letter that has case and is not skipped over. -/
def isCased (c : Char) : Bool := inRanges casedRanges c

def isIgnorable (c : Char) : Bool := inRanges ignorableRanges c

/-- The lower-case letter of a character, if that is one character. -/
def lowerChar (c : Char) : Char :=
  match caseRanges.find? (·.covers c.toNat) with
  | some r => Char.ofNat (Int.toNat (c.toNat + r.offset))
  | none => c

/-- The next character that is not skipped over is a cased letter. -/
def casedFollows : List Char → Bool
  | [] => false
  | c :: rest => if isIgnorable c then casedFollows rest else isCased c

def capitalSigma : Char := 'Σ'
def smallSigma : Char := 'σ'
def finalSigma : Char := 'ς'
def capitalDottedI : Char := 'İ'
def combiningDot : Char := '\u0307'

/-- Lower-cases a text; `casedBefore` says that the last character before it that is not skipped
over is a cased letter. -/
def lowerFrom (casedBefore : Bool) : List Char → List Char
  | [] => []
  | c :: rest =>
    let mapped :=
      if c = capitalSigma then
        [if casedBefore && !casedFollows rest then finalSigma else smallSigma]
      else if c = capitalDottedI then ['i', combiningDot]
      else [lowerChar c]
    mapped ++ lowerFrom (if isIgnorable c then casedBefore else isCased c) rest

def lower (text : List Char) : List Char := lowerFrom false text

end Text
end ThemeRules
