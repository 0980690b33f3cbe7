import ThemeRules.Proofs.WordBoundaries

/-!
# ThemeRules.Proofs.LabelSpellings

All spellings of a label have one name. A label is a row of words with gaps between them: a hyphen, a run
of separators, or nothing where the capital of the next word shows the boundary. Each gap becomes one
hyphen (`hyphenateFrom_gap`), whatever the gaps next to it are: the scan looks no further behind a word than
at its last letter, and no further ahead than at the first two characters of the next word.
-/

namespace ThemeRules
namespace Text

/-! ## ASCII -/

/-- A property of the characters of ASCII, from a check of their code points. -/
theorem forall_ascii {P : Char → Prop} (h : ∀ n < 128, P (Char.ofNat n)) {c : Char}
    (hc : c.toNat < 128) : P c := by
  have hcode := h c.toNat hc
  rwa [Char.ofNat_toNat] at hcode

theorem lowerChar_ascii {c : Char} (hc : c.toNat < 128) : lowerChar c = c.toLower :=
  forall_ascii (P := fun c => lowerChar c = c.toLower) (by decide +kernel) hc

/-- In ASCII lower-casing looks at no neighbours. -/
theorem lowerFrom_ascii {text : List Char} : ∀ {casedBefore : Bool},
    (∀ c ∈ text, c.toNat < 128) → lowerFrom casedBefore text = text.map Char.toLower := by
  induction text with
  | nil => intro _ _; rfl
  | cons c rest ih =>
    intro casedBefore h
    obtain ⟨hc, hrest⟩ := List.forall_mem_cons.mp h
    have hsigma : c ≠ capitalSigma := by rintro rfl; exact absurd hc (by decide)
    have hdotted : c ≠ capitalDottedI := by rintro rfl; exact absurd hc (by decide)
    simp only [lowerFrom, if_neg hsigma, if_neg hdotted, lowerChar_ascii hc, ih hrest]
    rfl

def isAsciiLetter (c : Char) : Bool := isAsciiLower c || isAsciiUpper c

theorem isAsciiLetter_iff {c : Char} :
    isAsciiLetter c = true ↔ isAsciiLower c = true ∨ isAsciiUpper c = true := by
  rw [isAsciiLetter, Bool.or_eq_true]

theorem ascii_of_letter {c : Char} (h : isAsciiLetter c = true) : c.toNat < 128 := by
  rw [isAsciiLetter_iff, isAsciiLower_iff, isAsciiUpper_iff] at h
  omega

theorem isSeparator_of_letter {c : Char} (h : isAsciiLetter c = true) : isSeparator c = false := by
  cases hc : isSeparator c with
  | false => rfl
  | true =>
    obtain ⟨hlower, hupper⟩ := letter_of_separator hc
    rw [isAsciiLetter, hlower, hupper] at h
    cases h

theorem letter_cases {c : Char} (h : isAsciiLetter c = true) :
    isAsciiUpper c.toUpper = true ∧ isAsciiLower c.toLower = true ∧
      c.toUpper.toLower = c.toLower ∧ c.toLower.toLower = c.toLower :=
  forall_ascii
    (P := fun c => isAsciiLetter c = true → isAsciiUpper c.toUpper = true ∧
      isAsciiLower c.toLower = true ∧ c.toUpper.toLower = c.toLower ∧ c.toLower.toLower = c.toLower)
    (by decide +kernel) (ascii_of_letter h) h

theorem toLower_of_lower {c : Char} (h : isAsciiLower c = true) : c.toLower = c :=
  forall_ascii (P := fun c => isAsciiLower c = true → c.toLower = c) (by decide +kernel)
    (ascii_of_letter (isAsciiLetter_iff.mpr (.inl h))) h

/-! ## Labels -/

/-- A letter of ASCII, and lower-case letters behind it. -/
structure Word where
  initial : Char
  rest : List Char
  isLetter_initial : isAsciiLetter initial = true
  isLower_rest : rest.all isAsciiLower = true

namespace Word

def lowered (word : Word) : List Char := word.initial.toLower :: word.rest

theorem isLower_of_mem (word : Word) {c : Char} (hc : c ∈ word.rest) : isAsciiLower c = true :=
  List.all_eq_true.mp word.isLower_rest c hc

end Word

/-- A word, written capitalised or all in lower case. -/
structure SpelledWord extends Word where
  isCapitalised : Bool

namespace SpelledWord

def first (word : SpelledWord) : Char :=
  if word.isCapitalised then word.initial.toUpper else word.initial.toLower

def text (word : SpelledWord) : List Char := word.first :: word.rest

def last (word : SpelledWord) : Char := word.rest.getLastD word.first

/-- The word is written as a single capital. -/
def isCapital (word : SpelledWord) : Bool := word.isCapitalised && word.rest.isEmpty

end SpelledWord

/-- What is between two words. -/
inductive Gap where
  | hyphen
  | separators (run : List Char)
  | nothing

namespace Gap

def text : Gap → List Char
  | hyphen => ['-']
  | separators run => run
  | nothing => []

/-- The gap may stand between the two words. Nothing does so only before a capital, and not between two
words that are both a single capital. -/
def fits (before after : SpelledWord) : Gap → Bool
  | hyphen => true
  | separators run => !run.isEmpty && run.all isSeparator
  | nothing => after.isCapitalised && !(before.isCapital && after.isCapital)

end Gap

/-- A row of words, with gaps between them. -/
inductive Label where
  | last (word : SpelledWord)
  | next (word : SpelledWord) (gap : Gap) (rest : Label)

namespace Label

def first : Label → SpelledWord
  | last word => word
  | next word _ _ => word

def words : Label → List Word
  | last word => [word.toWord]
  | next word _ rest => word.toWord :: rest.words

def text : Label → List Char
  | last word => word.text
  | next word gap rest => word.text ++ gap.text ++ rest.text

/-- Each gap may stand where it does. -/
def fits : Label → Bool
  | last _ => true
  | next word gap rest => gap.fits word rest.first && rest.fits

/-- The words as they are written, with a hyphen for each gap. -/
def hyphenated : Label → List Char
  | last word => word.text
  | next word _ rest => word.text ++ '-' :: rest.hyphenated

end Label

/-! ## Words in the scan -/

namespace SpelledWord

variable (word : SpelledWord)

theorem isLetter_first : isAsciiLetter word.first = true := by
  obtain ⟨hupper, hlower, -, -⟩ := letter_cases word.isLetter_initial
  rw [isAsciiLetter_iff, first]
  split
  · exact .inr hupper
  · exact .inl hlower

theorem isUpper_first (h : word.isCapitalised = true) : isAsciiUpper word.first = true := by
  rw [first, if_pos h]
  exact (letter_cases word.isLetter_initial).1

theorem isLetter_of_mem {c : Char} (hc : c ∈ word.text) : isAsciiLetter c = true := by
  rcases List.mem_cons.mp hc with rfl | hc
  · exact word.isLetter_first
  · exact isAsciiLetter_iff.mpr (.inl (word.isLower_of_mem hc))

/-- A word ends in a lower-case letter, if it is no single capital. -/
theorem isLower_last (h : word.isCapital = false) : isAsciiLower word.last = true := by
  rw [last, List.getLastD_eq_getLast?]
  cases hlast : word.rest.getLast? with
  | some c => exact word.isLower_of_mem (List.mem_of_getLast? hlast)
  | none =>
    have hsmall : word.isCapitalised = false := by
      simpa [isCapital, List.getLast?_eq_none_iff.mp hlast] using h
    rw [Option.getD_none, first, hsmall, if_neg Bool.false_ne_true]
    exact (letter_cases word.isLetter_initial).2.1

theorem map_toLower_text : word.text.map Char.toLower = word.lowered := by
  obtain ⟨-, -, hupper, hlower⟩ := letter_cases word.isLetter_initial
  have hfirst : word.first.toLower = word.initial.toLower := by
    rw [first]
    split
    · exact hupper
    · exact hlower
  have hrest : word.rest.map Char.toLower = word.rest :=
    (List.map_congr_left fun c hc => toLower_of_lower (word.isLower_of_mem hc)).trans (List.map_id _)
  rw [text, List.map_cons, hfirst, hrest, Word.lowered]

end SpelledWord

/-- Inside of lower-case letters there are no boundaries; whether there is one behind them is told by the
last one. -/
theorem hyphenateFrom_letters {rest : List Char} : ∀ {a : Char} {inRun : Bool} (tail : List Char),
    isSeparator a = false → (∀ c ∈ rest, isAsciiLower c = true) →
      hyphenateFrom inRun (a :: rest ++ tail) =
        a :: rest ++ (if isBeforeBoundary (rest.getLastD a) tail then ['-'] else []) ++
          hyphenateFrom false tail := by
  induction rest with
  | nil =>
    intro a inRun tail ha _
    exact hyphenateFrom_cons ha inRun tail
  | cons b rest ih =>
    intro a inRun tail ha h
    obtain ⟨hb, hrest⟩ := List.forall_mem_cons.mp h
    have hseparator : isSeparator b = false :=
      isSeparator_of_letter (isAsciiLetter_iff.mpr (.inl hb))
    have hinside : isBeforeBoundary a (b :: rest ++ tail) = false :=
      isBeforeBoundary_of_not_upper a (isAsciiUpper_of_lower hb) (rest ++ tail)
    rw [List.cons_append, hyphenateFrom_cons ha, hinside, List.getLastD_cons, ih tail hseparator hrest]
    rfl

theorem hyphenateFrom_word (word : SpelledWord) (inRun : Bool) (tail : List Char) :
    hyphenateFrom inRun (word.text ++ tail) =
      word.text ++ (if isBeforeBoundary word.last tail then ['-'] else []) ++
        hyphenateFrom false tail :=
  hyphenateFrom_letters tail (isSeparator_of_letter word.isLetter_first) fun _ => word.isLower_of_mem

/-- Where words have nothing between them there is a boundary. -/
theorem isBeforeBoundary_word {before after : SpelledWord} (h : Gap.nothing.fits before after = true)
    (tail : List Char) : isBeforeBoundary before.last (after.text ++ tail) = true := by
  simp only [Gap.fits, Bool.and_eq_true, Bool.not_eq_true'] at h
  obtain ⟨hcapitalised, hsingle⟩ := h
  have hupper := after.isUpper_first hcapitalised
  rw [SpelledWord.text, List.cons_append, isBeforeBoundary, boundary, hupper]
  cases hbefore : before.isCapital with
  | false => rw [before.isLower_last hbefore]; rfl
  | true =>
    -- a single capital: the word behind it has a second letter, which shows that a word begins
    simp only [SpelledWord.isCapital, Bool.and_eq_true, List.isEmpty_iff] at hbefore
    have hlast : before.last = before.first := by rw [SpelledWord.last, hbefore.2]; rfl
    rw [hlast, before.isUpper_first hbefore.1]
    cases hrest : after.rest with
    | nil => simp [SpelledWord.isCapital, hbefore, hcapitalised, hrest] at hsingle
    | cons c rest =>
      have hc : isAsciiLower c = true := after.isLower_of_mem (hrest ▸ List.mem_cons_self)
      simp [hc]

/-- Behind the first of them, separators write nothing. -/
theorem hyphenateFrom_separators {run : List Char} (h : ∀ c ∈ run, isSeparator c = true)
    (tail : List Char) : hyphenateFrom true (run ++ tail) = hyphenateFrom true tail := by
  induction run with
  | nil => rfl
  | cons c run ih =>
    obtain ⟨hc, hrun⟩ := List.forall_mem_cons.mp h
    rw [List.cons_append, hyphenateFrom_separator hc, ih hrun]
    rfl

/-- A gap is one hyphen. -/
theorem hyphenateFrom_gap {before after : SpelledWord} {gap : Gap}
    (h : gap.fits before after = true) (inRun : Bool) (tail : List Char) :
    hyphenateFrom inRun (before.text ++ gap.text ++ (after.text ++ tail)) =
      before.text ++ '-' :: hyphenateFrom false (after.text ++ tail) := by
  rw [List.append_assoc, hyphenateFrom_word]
  cases gap with
  | hyphen =>
    have hyphen : isSeparator '-' = false := by decide
    have hnone : isBeforeBoundary '-' (after.text ++ tail) = false := rfl
    rw [Gap.text, List.singleton_append, isBeforeBoundary_of_not_upper before.last (by decide),
      hyphenateFrom_cons hyphen, hnone, if_neg Bool.false_ne_true, List.append_nil]
    rfl
  | separators run =>
    cases run with
    | nil => cases h
    | cons c run =>
      simp only [Gap.fits, List.isEmpty_cons, Bool.not_false, Bool.true_and, List.all_cons,
        Bool.and_eq_true, List.all_eq_true] at h
      obtain ⟨hc, hrun⟩ := h
      -- the run is over at the first letter of the next word
      have hletter : hyphenateFrom true (after.text ++ tail) =
          hyphenateFrom false (after.text ++ tail) := by
        rw [hyphenateFrom_word, hyphenateFrom_word]
      rw [Gap.text, List.cons_append, isBeforeBoundary_of_not_upper before.last (letter_of_separator hc).2,
        hyphenateFrom_separator hc, hyphenateFrom_separators hrun, hletter,
        if_neg Bool.false_ne_true, List.append_nil]
      rfl
  | nothing =>
    rw [Gap.text, List.nil_append, isBeforeBoundary_word h, if_pos rfl, List.append_assoc,
      List.singleton_append]

/-! ## Labels in the scan -/

namespace Label

theorem exists_text (label : Label) : ∃ tail, label.text = label.first.text ++ tail := by
  cases label with
  | last word => exact ⟨[], (List.append_nil _).symm⟩
  | next word gap rest => exact ⟨gap.text ++ rest.text, List.append_assoc ..⟩

theorem hyphenateFrom_text {label : Label} (h : label.fits = true) : ∀ inRun : Bool,
    hyphenateFrom inRun label.text = label.hyphenated := by
  induction label with
  | last word =>
    intro inRun
    have hword := hyphenateFrom_word word inRun []
    rwa [List.append_nil, isBeforeBoundary, if_neg Bool.false_ne_true, List.append_nil,
      hyphenateFrom, List.append_nil] at hword
  | next word gap rest ih =>
    intro inRun
    simp only [fits, Bool.and_eq_true] at h
    obtain ⟨tail, htail⟩ := rest.exists_text
    rw [text, htail, hyphenateFrom_gap h.1, ← htail, ih h.2, hyphenated]

theorem ascii_of_mem_hyphenated {label : Label} {c : Char} (hc : c ∈ label.hyphenated) :
    c.toNat < 128 := by
  induction label with
  | last word => exact ascii_of_letter (word.isLetter_of_mem hc)
  | next word gap rest ih =>
    rcases List.mem_append.mp hc with hc | hc
    · exact ascii_of_letter (word.isLetter_of_mem hc)
    · rcases List.mem_cons.mp hc with rfl | hc
      · decide
      · exact ih hc

theorem words_ne_nil (label : Label) : label.words ≠ [] := by
  cases label <;> exact List.cons_ne_nil _ _

theorem map_toLower_hyphenated (label : Label) :
    label.hyphenated.map Char.toLower = ['-'].intercalate (label.words.map Word.lowered) := by
  induction label with
  | last word =>
    rw [hyphenated, word.map_toLower_text, words, List.map_singleton, List.intercalate_singleton]
  | next word gap rest ih =>
    have hwords : rest.words.map Word.lowered ≠ [] := by
      simpa using rest.words_ne_nil
    rw [hyphenated, List.map_append, word.map_toLower_text, List.map_cons, ih, words, List.map_cons,
      List.intercalate_cons_of_ne_nil hwords, List.append_assoc]
    rfl

theorem kebab_text {label : Label} (h : label.fits = true) :
    kebab label.text = ['-'].intercalate (label.words.map Word.lowered) := by
  rw [kebab_eq_kebabScan, kebabScan, hyphenate, hyphenateFrom_text h, lower,
    lowerFrom_ascii fun _ => ascii_of_mem_hyphenated, map_toLower_hyphenated]

end Label
end Text

/-- Whatever way its words are capitalised and the gaps between them are written, the name of a label is its
words in lower case with hyphens between them. -/
theorem kebabCase_label (label : Text.Label) (h : label.fits = true) :
    kebabCase (.ofList label.text) =
      .ofList (['-'].intercalate (label.words.map Text.Word.lowered)) := by
  rw [kebabCase, String.toList_ofList, Text.Label.kebab_text h]

def mixedLabel : Text.Label :=
  .next ⟨⟨'A', [], by decide, by decide⟩, false⟩ .nothing <|
  .next ⟨⟨'b', ['i', 'g'], by decide, by decide⟩, true⟩ .nothing <|
  .next ⟨⟨'a', [], by decide, by decide⟩, true⟩ .nothing <|
  .next ⟨⟨'c', ['a', 'r', 'd'], by decide, by decide⟩, true⟩ (.separators ['_', '\t', ' ']) <|
  .next ⟨⟨'i', ['t', 'e', 'm'], by decide, by decide⟩, false⟩ .hyphen <|
  .last ⟨⟨'b', [], by decide, by decide⟩, true⟩

theorem kebabCase_mixedLabel :
    mixedLabel.fits = true ∧ kebabCase "aBigACard_\t item-B" = "a-big-a-card-item-b" :=
  ⟨by decide, kebabCase_label mixedLabel (by decide)⟩

end ThemeRules
