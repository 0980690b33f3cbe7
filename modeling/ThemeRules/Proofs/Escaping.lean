import ThemeRules.Css.Identifier
import ThemeRules.Naming
import ThemeRules.Proofs.WordBoundaries

/-!
# ThemeRules.Proofs.Escaping

Escaped names are read back. `unescape` reads a text by the escape rules of CSS, and `isIdentifier` says
when a text is one whole identifier token; neither knows how a name has been written. Each character is
written so that the reader, wherever the text goes on from there, takes off exactly that character
(`unescape_escapeChar`, `unescape_hexEscape`): an escape in hexadecimal ends with a space of its own, so
it swallows nothing of what follows. The null character alone is not read back; U+FFFD stands for it.

`selector_reads_back` says this of selectors, against the name that is meant by a class name and its
modifier (`intended`).
-/

namespace ThemeRules
namespace Css

open Text

/-! ## Reading

By the rules of CSS, a backslash with one to six hexadecimal digits and at most one blank behind it
stands for that code point, and a backslash before any other character for this character. -/

/-- A name character that may also start a name. -/
def isNameStart (c : Char) : Bool :=
  isNameChar c && !('0' ≤ c && c ≤ '9') && c != '-'

/-- Where the reader stands: in plain text, behind a backslash, or behind `digits` hexadecimal
digits of an escape that are worth `value`. -/
inductive Mode where
  | plain
  | backslash
  | hex (digits value : Nat)
  deriving DecidableEq

/-- The character of an escaped code point. -/
def codePoint (n : Nat) : Char :=
  if n = 0 ∨ ¬ n.isValidChar then replacement else Char.ofNat n

def unescapeFrom : Mode → List Char → List Char
  | .plain, [] => []
  | .backslash, [] => [replacement]
  | .hex _ value, [] => [codePoint value]
  | .plain, c :: rest =>
    if c = '\\' then unescapeFrom .backslash rest else c :: unescapeFrom .plain rest
  | .backslash, c :: rest =>
    match hexValue? c with
    | some d => unescapeFrom (.hex 1 d) rest
    | none => c :: unescapeFrom .plain rest
  | .hex digits value, c :: rest =>
    match hexValue? c with
    | some d =>
      if digits < 6 then unescapeFrom (.hex (digits + 1) (16 * value + d)) rest
      else codePoint value :: c :: unescapeFrom .plain rest
    | none =>
      codePoint value ::
        (if c = ' ' then unescapeFrom .plain rest
          else if c = '\\' then unescapeFrom .backslash rest
          else c :: unescapeFrom .plain rest)

/-- The name that an escaped text stands for. -/
def unescape (text : List Char) : List Char := unescapeFrom .plain text

/-- The text is made of name characters and escapes, to its end; no escape begins with a line
break. -/
def isNameFrom : Mode → List Char → Bool
  | .plain, [] => true
  | .backslash, [] => false
  | .hex _ _, [] => true
  | .plain, c :: rest =>
    if c = '\\' then isNameFrom .backslash rest else isNameChar c && isNameFrom .plain rest
  | .backslash, c :: rest =>
    match hexValue? c with
    | some d => isNameFrom (.hex 1 d) rest
    | none => (c != '\n' && c != '\r' && c != '\x0c') && isNameFrom .plain rest
  | .hex digits value, c :: rest =>
    match hexValue? c with
    | some d =>
      if digits < 6 then isNameFrom (.hex (digits + 1) (16 * value + d)) rest
      else isNameFrom .plain rest
    | none =>
      if c = ' ' then isNameFrom .plain rest
      else if c = '\\' then isNameFrom .backslash rest
      else isNameChar c && isNameFrom .plain rest

/-- The text is one identifier token: two hyphens, or at most one hyphen and then a character that
may start a name or an escape; and name characters and escapes to the end. -/
def isIdentifier (text : List Char) : Bool :=
  isNameFrom .plain text &&
    match text with
    | '-' :: c :: _ => c == '-' || c == '\\' || isNameStart c
    | c :: _ => c == '\\' || isNameStart c
    | [] => false

/-- The character that is read for a written one. -/
def readBack (c : Char) : Char := if c = '\x00' then replacement else c

/-! ## Characters -/

theorem toNat_le {c d : Char} : c ≤ d ↔ c.toNat ≤ d.toNat := Iff.rfl

/-- What stands for itself inside a name is no backslash, and what does not is no hexadecimal
digit. -/
theorem isNameChar_backslash : isNameChar '\\' = false := by decide

theorem hexValue?_eq_none {c : Char} (h : isNameChar c = false) : hexValue? c = none := by
  simp only [isNameChar, toNat_le, Bool.or_eq_false_iff, Bool.and_eq_false_iff,
    decide_eq_false_iff_not] at h
  simp only [hexValue?, toNat_le, Bool.and_eq_true, decide_eq_true_eq]
  simp only [Char.reduceToNat] at h ⊢
  obtain ⟨⟨⟨⟨⟨h0, hA⟩, ha⟩, -⟩, -⟩, -⟩ := h
  rw [if_neg (by omega), if_neg (by omega), if_neg (by omega)]

theorem ne_backslash {c : Char} (h : isNameChar c = true) : c ≠ '\\' := by
  rintro rfl
  rw [isNameChar_backslash] at h
  cases h

theorem codePoint_toNat {c : Char} (h : c ≠ '\x00') : codePoint c.toNat = c := by
  have h0 : c.toNat ≠ 0 := fun h' => h (Char.toNat_inj.mp h')
  have hv : c.toNat.isValidChar := c.valid
  simp only [codePoint, h0, hv, not_true, or_self, if_false, Char.ofNat_toNat]

/-! ## Reading what has been written -/

theorem unescape_hexEscape {c : Char} (h0 : c ≠ '\x00') (h : c.toNat < 256) (rest : List Char) :
    unescapeFrom .plain (hexEscape c ++ rest) = c :: unescapeFrom .plain rest := by
  have hspace : hexValue? ' ' = none := by decide
  unfold hexEscape
  split
  · rename_i hlt
    simp only [List.cons_append, List.nil_append, unescapeFrom, if_true,
      hexValue?_hexDigit _ hlt, hspace, codePoint_toNat h0]
  · have hhigh := hexValue?_hexDigit (c.toNat / 16) (by omega)
    have hlow := hexValue?_hexDigit (c.toNat % 16) (Nat.mod_lt _ (by decide))
    have hvalue : 16 * (c.toNat / 16) + c.toNat % 16 = c.toNat := Nat.div_add_mod ..
    simp only [List.cons_append, List.nil_append, unescapeFrom, if_true, hhigh, hlow, hspace,
      hvalue, codePoint_toNat h0]
    rfl

theorem unescape_escapeChar (c : Char) (rest : List Char) :
    unescapeFrom .plain (escapeChar c ++ rest) = readBack c :: unescapeFrom .plain rest := by
  unfold escapeChar
  split
  · rename_i h
    have h0 : c ≠ '\x00' := by rintro rfl; exact absurd h (by decide)
    simp only [List.cons_append, List.nil_append, unescapeFrom, if_neg (ne_backslash h), readBack,
      if_neg h0]
  · rename_i h
    have h : isNameChar c = false := by simpa using h
    split
    · rename_i h0
      subst h0
      rfl
    · rename_i h0
      rw [readBack, if_neg h0]
      split
      · rename_i hc
        simp only [Bool.or_eq_true, decide_eq_true_eq, beq_iff_eq] at hc
        exact unescape_hexEscape h0 (by omega) rest
      · simp only [List.cons_append, List.nil_append, unescapeFrom, if_true,
          hexValue?_eq_none h]

theorem unescape_escapeName (name rest : List Char) :
    unescapeFrom .plain (escapeName name ++ rest) =
      name.map readBack ++ unescapeFrom .plain rest := by
  induction name with
  | nil => rfl
  | cons c name ih =>
    rw [escapeName, List.flatMap_cons, List.append_assoc, unescape_escapeChar]
    exact congrArg (readBack c :: ·) ih

theorem unescape_escapeStart (name : List Char) :
    unescape (escapeStart name) = name.map readBack := by
  cases name with
  | nil => rfl
  | cons c rest =>
    have hrest : unescapeFrom .plain (escapeName rest) = rest.map readBack := by
      simpa [unescapeFrom] using unescape_escapeName rest []
    simp only [unescape, escapeStart, List.map_cons]
    split
    · rename_i hd
      simp only [toNat_le, Bool.and_eq_true, decide_eq_true_eq, Char.reduceToNat] at hd
      have h0 : c ≠ '\x00' := by rintro rfl; exact absurd hd.1 (by decide)
      rw [unescape_hexEscape h0 (by omega), hrest, readBack, if_neg h0]
    · rw [unescape_escapeChar, hrest]

theorem unescape_hyphen (text : List Char) :
    unescapeFrom .plain ('-' :: text) = '-' :: unescapeFrom .plain text := by
  rw [unescapeFrom, if_neg (by decide)]

/-! ## Names by how they begin -/

theorem name_cases (name : List Char) :
    name = [] ∨ name = ['-'] ∨ (∃ rest, name = '-' :: '-' :: rest) ∨
      (∃ c rest, c ≠ '-' ∧ name = '-' :: c :: rest) ∨ ∃ c rest, c ≠ '-' ∧ name = c :: rest := by
  cases name with
  | nil => exact .inl rfl
  | cons c rest =>
    by_cases hc : c = '-'
    · subst hc
      cases rest with
      | nil => exact .inr (.inl rfl)
      | cons d rest =>
        by_cases hd : d = '-'
        · subst hd; exact .inr (.inr (.inl ⟨rest, rfl⟩))
        · exact .inr (.inr (.inr (.inl ⟨d, rest, hd, rfl⟩)))
    · exact .inr (.inr (.inr (.inr ⟨c, rest, hc, rfl⟩)))

theorem escape_hyphens (rest : List Char) :
    escape ('-' :: '-' :: rest) = '-' :: '-' :: escapeName rest := rfl

theorem escape_hyphen {c : Char} (h : c ≠ '-') (rest : List Char) :
    escape ('-' :: c :: rest) = '-' :: escapeStart (c :: rest) := by
  rw [escape]
  · simp
  · simpa using h

theorem escape_plain {c : Char} (h : c ≠ '-') (rest : List Char) :
    escape (c :: rest) = escapeStart (c :: rest) := by
  unfold escape
  split <;> simp_all

/-- Reading an escaped name gives the name. -/
theorem unescape_escape (name : List Char) : unescape (escape name) = name.map readBack := by
  obtain rfl | rfl | ⟨rest, rfl⟩ | ⟨c, rest, hc, rfl⟩ | ⟨c, rest, hc, rfl⟩ := name_cases name
  · rfl
  · rfl
  · have hrest := unescape_escapeName rest []
    simp only [List.append_nil, unescapeFrom] at hrest
    rw [escape_hyphens, unescape, unescape_hyphen, unescape_hyphen, hrest]
    rfl
  · rw [escape_hyphen hc, unescape, unescape_hyphen]
    exact congrArg ('-' :: ·) (unescape_escapeStart (c :: rest))
  · rw [escape_plain hc, unescape_escapeStart]

/-! ## Identifiers -/

theorem isNameFrom_hexEscape {c : Char} (h : c.toNat < 256) (rest : List Char) :
    isNameFrom .plain (hexEscape c ++ rest) = isNameFrom .plain rest := by
  have hspace : hexValue? ' ' = none := by decide
  unfold hexEscape
  split
  · rename_i hlt
    simp only [List.cons_append, List.nil_append, isNameFrom, if_true, hexValue?_hexDigit _ hlt,
      hspace]
  · have hhigh := hexValue?_hexDigit (c.toNat / 16) (by omega)
    have hlow := hexValue?_hexDigit (c.toNat % 16) (Nat.mod_lt _ (by decide))
    simp only [List.cons_append, List.nil_append, isNameFrom, if_true, hhigh, hlow, hspace]
    rfl

theorem isNameFrom_escapeChar (c : Char) (rest : List Char) :
    isNameFrom .plain (escapeChar c ++ rest) = isNameFrom .plain rest := by
  unfold escapeChar
  split
  · rename_i h
    simp only [List.cons_append, List.nil_append, isNameFrom, if_neg (ne_backslash h), h,
      Bool.true_and]
  · rename_i h
    have h : isNameChar c = false := by simpa using h
    split
    · rfl
    · split
      · rename_i hc
        simp only [Bool.or_eq_true, decide_eq_true_eq, beq_iff_eq] at hc
        exact isNameFrom_hexEscape (by omega) rest
      · rename_i hc
        -- a line break is a control character, which is never behind a bare backslash
        have hbreak : (c != '\n' && c != '\r' && c != '\x0c') = true := by
          simp only [Bool.and_eq_true, bne_iff_ne]
          refine ⟨⟨?_, ?_⟩, ?_⟩ <;> (rintro rfl; exact hc (by decide))
        simp only [List.cons_append, List.nil_append, isNameFrom, if_true,
          hexValue?_eq_none h, hbreak, Bool.true_and]

theorem isNameFrom_escapeName (name : List Char) :
    isNameFrom .plain (escapeName name) = true := by
  induction name with
  | nil => rfl
  | cons c name ih =>
    rw [escapeName, List.flatMap_cons, isNameFrom_escapeChar]
    exact ih

theorem isNameFrom_escapeStart (name : List Char) :
    isNameFrom .plain (escapeStart name) = true := by
  cases name with
  | nil => rfl
  | cons c rest =>
    rw [escapeStart]
    split
    · rename_i hd
      simp only [toNat_le, Bool.and_eq_true, decide_eq_true_eq, Char.reduceToNat] at hd
      rw [isNameFrom_hexEscape (by omega), isNameFrom_escapeName]
    · rw [isNameFrom_escapeChar, isNameFrom_escapeName]

theorem isNameFrom_hyphen (text : List Char) :
    isNameFrom .plain ('-' :: text) = isNameFrom .plain text := by
  rw [isNameFrom, if_neg (by decide)]
  exact Bool.true_and _

/-- The first character of a name that does not begin with a hyphen is written so that a name may
start with it. -/
theorem escapeStart_head {c : Char} (hc : c ≠ '-') (rest : List Char) :
    ∃ d text, escapeStart (c :: rest) = d :: text ∧ (d == '\\' || isNameStart d) = true := by
  have hex : ∀ text, ∃ d more, hexEscape c ++ text = d :: more ∧
      (d == '\\' || isNameStart d) = true := by
    intro text
    unfold hexEscape
    split <;> exact ⟨'\\', _, rfl, rfl⟩
  rw [escapeStart]
  split
  · exact hex _
  · rename_i hd
    unfold escapeChar
    split
    · rename_i h
      have hd : ('0' ≤ c && c ≤ '9') = false := Bool.eq_false_iff.mpr hd
      have hc : (c != '-') = true := by simpa using hc
      have hs : isNameStart c = true := by simp only [isNameStart, h, hd, hc]; rfl
      exact ⟨c, _, rfl, by rw [hs, Bool.or_true]⟩
    · split
      · exact ⟨replacement, _, rfl, by decide⟩
      · split
        · exact hex _
        · exact ⟨'\\', _, rfl, rfl⟩

theorem isIdentifier_hyphen (d : Char) (text : List Char) :
    isIdentifier ('-' :: d :: text) =
      (isNameFrom .plain (d :: text) && (d == '-' || d == '\\' || isNameStart d)) := by
  rw [isIdentifier, isNameFrom_hyphen]

theorem isIdentifier_plain {d : Char} (h : d ≠ '-') (text : List Char) :
    isIdentifier (d :: text) =
      (isNameFrom .plain (d :: text) && (d == '\\' || isNameStart d)) := by
  unfold isIdentifier
  split
  · rename_i heq; exact absurd (List.cons.inj heq).1 h
  · rename_i heq; rw [(List.cons.inj heq).1]
  · rename_i heq; cases heq

/-- An escaped name is an identifier, unless there is nothing to escape. -/
theorem isIdentifier_escape (name : List Char) :
    isIdentifier (escape name) = true ↔ name ≠ [] := by
  obtain rfl | rfl | ⟨rest, rfl⟩ | ⟨c, rest, hc, rfl⟩ | ⟨c, rest, hc, rfl⟩ := name_cases name
  · decide
  · decide
  · refine iff_of_true ?_ (List.cons_ne_nil _ _)
    rw [escape_hyphens, isIdentifier, isNameFrom_hyphen, isNameFrom_hyphen, isNameFrom_escapeName]
    rfl
  · refine iff_of_true ?_ (List.cons_ne_nil _ _)
    have hname := isNameFrom_escapeStart (c :: rest)
    obtain ⟨d, text, ht, hd⟩ := escapeStart_head hc rest
    rw [ht] at hname
    rw [escape_hyphen hc, ht, isIdentifier_hyphen, hname, Bool.true_and, Bool.or_assoc, hd,
      Bool.or_true]
  · refine iff_of_true ?_ (List.cons_ne_nil _ _)
    have hname := isNameFrom_escapeStart (c :: rest)
    obtain ⟨d, text, ht, hd⟩ := escapeStart_head hc rest
    have hd' : d ≠ '-' := by rintro rfl; exact absurd hd (by decide)
    rw [ht] at hname
    rw [escape_plain hc, ht, isIdentifier_plain hd', hname, Bool.true_and, hd]

/-! ## Names that are written alike -/

theorem escapeChar_readBack (c : Char) : escapeChar (readBack c) = escapeChar c := by
  unfold readBack
  split
  · rename_i h; rw [h]; rfl
  · rfl

theorem escapeName_readBack (name : List Char) : escapeName (name.map readBack) = escapeName name := by
  simp only [escapeName, List.flatMap_map, escapeChar_readBack]

theorem readBack_hyphen : readBack '-' = '-' := by decide

theorem readBack_ne_hyphen {c : Char} (h : c ≠ '-') : readBack c ≠ '-' := by
  unfold readBack
  split
  · decide
  · exact h

theorem escapeStart_readBack (name : List Char) :
    escapeStart (name.map readBack) = escapeStart name := by
  cases name with
  | nil => rfl
  | cons c rest =>
    rw [List.map_cons, escapeStart, escapeStart, escapeChar_readBack, escapeName_readBack]
    by_cases h : c = '\x00'
    · subst h; rfl
    · rw [readBack, if_neg h]

theorem escape_readBack (name : List Char) : escape (name.map readBack) = escape name := by
  obtain rfl | rfl | ⟨rest, rfl⟩ | ⟨c, rest, hc, rfl⟩ | ⟨c, rest, hc, rfl⟩ := name_cases name
  · rfl
  · rfl
  · rw [List.map_cons, List.map_cons, readBack_hyphen, escape_hyphens, escape_hyphens,
      escapeName_readBack]
  · rw [List.map_cons, List.map_cons, readBack_hyphen, escape_hyphen (readBack_ne_hyphen hc),
      escape_hyphen hc, ← List.map_cons, escapeStart_readBack]
  · rw [List.map_cons, escape_plain (readBack_ne_hyphen hc), escape_plain hc, ← List.map_cons,
      escapeStart_readBack]

/-- Two names are written alike exactly if they are read alike. -/
theorem escape_eq_iff (first second : List Char) :
    escape first = escape second ↔ first.map readBack = second.map readBack := by
  constructor
  · intro h
    rw [← unescape_escape, ← unescape_escape, h]
  · intro h
    rw [← escape_readBack first, ← escape_readBack second, h]

end Css

/-! ## Selectors -/

namespace Naming

/-- The class name without one leading marker. -/
def unmarked (className : String) : List Char :=
  if className.toList.head? = some '.' then className.toList.tail else className.toList

/-- What a modifier adds to a name; one that is empty, or none, adds nothing. -/
def suffix (modifier : Option String) : List Char :=
  if modifier.getD "" = "" then [] else "--".toList ++ (modifier.getD "").toList

/-- The name that a selector is to stand for. -/
def intended (naming : Naming) (className : String) (modifier : Option String) : List Char :=
  match naming with
  | .kebab => Text.kebabScan (unmarked className ++ suffix modifier)
  | .verbatim => unmarked className ++ suffix modifier

theorem stripMarker_eq (className : String) : stripMarker className.toList = unmarked className := by
  unfold unmarked stripMarker
  split
  · rename_i rest hrest
    rw [hrest]
    rfl
  · rename_i hmarker
    rw [if_neg]
    intro hhead
    obtain ⟨rest, hrest⟩ := List.head?_eq_some_iff.mp hhead
    exact hmarker rest hrest

theorem baseName_eq (className : String) (modifier : Option String) :
    baseName className.toList (modifier.map String.toList) = unmarked className ++ suffix modifier := by
  rw [← stripMarker_eq]
  cases modifier with
  | none => exact (List.append_nil _).symm
  | some modifier =>
    by_cases h : modifier = ""
    · subst h
      exact (List.append_nil _).symm
    · have hsuffix : suffix (some modifier) = '-' :: '-' :: modifier.toList := if_neg h
      have hchars : modifier.toList ≠ [] := by simpa using h
      obtain ⟨c, rest, hc⟩ := List.exists_cons_of_ne_nil hchars
      rw [hsuffix, Option.map_some, hc]
      rfl

theorem normalise_baseName (naming : Naming) (className : String) (modifier : Option String) :
    naming.normalise (baseName className.toList (modifier.map String.toList)) =
      naming.intended className modifier := by
  cases naming with
  | kebab => rw [normalise, Text.kebab_eq_kebabScan, baseName_eq]; rfl
  | verbatim => rw [normalise, baseName_eq]; rfl

theorem selector_eq (naming : Naming) (className : String) (modifier : Option String) :
    naming.selector className modifier =
      .ofList ('.' :: Css.escape (naming.intended className modifier)) := by
  have hmarker : "." = String.ofList ['.'] := rfl
  rw [selector, generate, normalise_baseName, escapeIdentifier, String.toList_ofList, hmarker,
    ← String.ofList_append, List.singleton_append]

/-- A selector is the marker and a text that is read back as the intended name; the text is one
identifier, unless the name is empty. Two selectors are equal exactly if their names are, as they are
read. -/
theorem selector_reads_back (naming : Naming) (className : String) (modifier : Option String) :
    ∃ e, (naming.selector className modifier).toList = '.' :: e ∧
      Css.unescape e = (naming.intended className modifier).map Css.readBack ∧
      (Css.isIdentifier e = true ↔ naming.intended className modifier ≠ []) ∧
      ∀ (naming' : Naming) (className' : String) (modifier' : Option String),
        naming.selector className modifier = naming'.selector className' modifier' ↔
          (naming.intended className modifier).map Css.readBack =
            (naming'.intended className' modifier').map Css.readBack := by
  refine ⟨Css.escape (naming.intended className modifier), ?_, Css.unescape_escape _,
    Css.isIdentifier_escape _, ?_⟩
  · rw [selector_eq, String.toList_ofList]
  · intro naming' className' modifier'
    rw [← Css.escape_eq_iff, selector_eq, selector_eq, String.ofList_inj]
    exact ⟨fun h => (List.cons.inj h).2, congrArg ('.' :: ·)⟩

/-- A digit in front of a letter that is a hexadecimal digit too, a character to escape, a modifier, and a
null character; the same selector for the name as it is read, and another one for a name with a second
marker. -/
theorem columns_read_back :
    ∃ e, (kebab.selector ".2Columns_1/2" (some "onHover\x00")).toList = '.' :: e ∧
      Css.unescape e = "2columns-1/2--on-hover\uFFFD".toList ∧ Css.isIdentifier e = true ∧
      e = "\\32 columns-1\\/2--on-hover\uFFFD".toList ∧
      kebab.selector ".2Columns_1/2" (some "onHover\x00") =
        verbatim.selector "2columns-1/2--on-hover\uFFFD" none ∧
      kebab.selector ".2Columns_1/2" (some "onHover\x00") ≠
        kebab.selector "..2Columns_1/2" (some "onHover\x00") := by
  have hname : kebab.intended ".2Columns_1/2" (some "onHover\x00") =
      "2columns-1/2--on-hover\x00".toList := by decide +kernel
  have hread : (kebab.intended ".2Columns_1/2" (some "onHover\x00")).map Css.readBack =
      "2columns-1/2--on-hover\uFFFD".toList := by rw [hname]; decide +kernel
  obtain ⟨e, he, hunescape, hidentifier, hsame⟩ :=
    kebab.selector_reads_back ".2Columns_1/2" (some "onHover\x00")
  refine ⟨e, he, hunescape.trans hread, ?_, ?_, ?_, ?_⟩
  · rw [hidentifier, hname]
    decide
  · have hselector : (kebab.selector ".2Columns_1/2" (some "onHover\x00")).toList =
        '.' :: "\\32 columns-1\\/2--on-hover\uFFFD".toList := by decide +kernel
    exact (List.cons.inj (he.symm.trans hselector)).2
  · rw [hsame, hread]
    decide +kernel
  · rw [ne_eq, hsame, hread]
    decide +kernel

end Naming
end ThemeRules
