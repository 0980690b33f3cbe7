import ThemeRules.Text.Kebab

/-!
# ThemeRules.Proofs.WordBoundaries

The three passes of kebab-case are one scan of the text. A pass that goes on behind what it has replaced
misses no boundary: the letter that a cut uses up is never the first letter of another one
(`cutLowerUpper_eq_cut`, `cutUpperRun_eq_cut`). And no pass makes or breaks a boundary for the next: a
hyphen stands only where a capital follows a lower-case letter, which is inside of nothing that the second
pass looks for (`cut_cut`), and separators are no letters (`joinSeparatorsFrom_cut`).

`hyphenateFrom_eq_flatMap` says what the scan writes for each character, from its neighbours alone.
-/

namespace ThemeRules
namespace Text

/-! ## Kebab-case in one scan -/

/-- Two neighbouring characters, with what follows them, stand on the two sides of a word boundary:
a lower-case letter before a capital, or two capitals of which the second starts a word. -/
def boundary (a b : Char) (rest : List Char) : Bool :=
  (isAsciiLower a && isAsciiUpper b) ||
    (isAsciiUpper a && isAsciiUpper b && (rest.head?.map isAsciiLower).getD false)

/-- Hyphens at the word boundaries of the text, and for its runs of separators. `inRun` says that
the character before the text is a separator. -/
def hyphenateFrom (inRun : Bool) : List Char → List Char
  | [] => []
  | a :: rest =>
    if isSeparator a then
      (if inRun then [] else ['-']) ++ hyphenateFrom true rest
    else
      let cut := match rest with
        | b :: after => boundary a b after
        | [] => false
      a :: (if cut then ['-'] else []) ++ hyphenateFrom false rest

def hyphenate (text : List Char) : List Char := hyphenateFrom false text

/-- Kebab-case by looking once at every character. -/
def kebabScan (text : List Char) : List Char := lower (hyphenate text)

/-! ## Letters -/

theorem isAsciiLower_iff {c : Char} : isAsciiLower c = true ↔ 97 ≤ c.toNat ∧ c.toNat ≤ 122 := by
  simp only [isAsciiLower, Bool.and_eq_true, decide_eq_true_eq]
  exact Iff.rfl

theorem isAsciiUpper_iff {c : Char} : isAsciiUpper c = true ↔ 65 ≤ c.toNat ∧ c.toNat ≤ 90 := by
  simp only [isAsciiUpper, Bool.and_eq_true, decide_eq_true_eq]
  exact Iff.rfl

theorem isAsciiLower_of_upper {c : Char} (h : isAsciiUpper c = true) : isAsciiLower c = false := by
  rw [isAsciiUpper_iff] at h
  rw [Bool.eq_false_iff, ne_eq, isAsciiLower_iff]
  omega

theorem isAsciiUpper_of_lower {c : Char} (h : isAsciiLower c = true) : isAsciiUpper c = false := by
  cases hc : isAsciiUpper c with
  | false => rfl
  | true => rw [isAsciiLower_of_upper hc] at h; cases h

theorem isSeparator_iff {c : Char} : isSeparator c = true ↔ isBlank c = true ∨ c = '_' := by
  rw [isSeparator, Bool.or_eq_true, beq_iff_eq]

theorem letter_of_separator {c : Char} (h : isSeparator c = true) :
    isAsciiLower c = false ∧ isAsciiUpper c = false := by
  rw [Bool.eq_false_iff, Bool.eq_false_iff, ne_eq, ne_eq, isAsciiLower_iff, isAsciiUpper_iff]
  rw [isSeparator_iff] at h
  rcases h with h | rfl
  · simp only [isBlank, Bool.or_eq_true, Bool.and_eq_true, decide_eq_true_eq, beq_iff_eq] at h
    omega
  · decide

/-! ## Cuts -/

/-- A hyphen between any two neighbours that pass the test, which also sees what follows them. -/
def cut (test : Char → Char → List Char → Bool) : List Char → List Char
  | a :: b :: rest => a :: (if test a b rest then ['-'] else []) ++ cut test (b :: rest)
  | rest => rest

def lowerUpper (a b : Char) (_ : List Char) : Bool := isAsciiLower a && isAsciiUpper b

def upperRun (a b : Char) (rest : List Char) : Bool :=
  isAsciiUpper a && isAsciiUpper b && (rest.head?.map isAsciiLower).getD false

section Cut

variable {test : Char → Char → List Char → Bool} {a b : Char} {rest : List Char}

theorem cut_here (h : test a b rest = true) :
    cut test (a :: b :: rest) = a :: '-' :: cut test (b :: rest) := by
  rw [cut, if_pos h]
  rfl

theorem cut_behind (h : test a b rest = false) :
    cut test (a :: b :: rest) = a :: cut test (b :: rest) := by
  rw [cut, if_neg (by rw [h]; exact Bool.false_ne_true)]
  rfl

theorem cut_cons (h : ∀ b rest, test a b rest = false) (text : List Char) :
    cut test (a :: text) = a :: cut test text := by
  cases text with
  | nil => rfl
  | cons b rest => exact cut_behind (h b rest)

end Cut

theorem lowerUpper_of_upper {a : Char} (h : isAsciiUpper a = true) (b : Char) (rest : List Char) :
    lowerUpper a b rest = false := by
  rw [lowerUpper, isAsciiLower_of_upper h, Bool.false_and]

theorem upperRun_of_lower {a : Char} (h : isAsciiLower a = true) (b : Char) (rest : List Char) :
    upperRun a b rest = false := by
  rw [upperRun, isAsciiUpper_of_lower h, Bool.false_and, Bool.false_and]

/-- The capital that the first pass uses up is on no left side of a cut. -/
theorem cutLowerUpper_eq_cut (text : List Char) : cutLowerUpper text = cut lowerUpper text := by
  induction text using cutLowerUpper.induct with
  | case1 a b rest h ih =>
    have hb : isAsciiUpper b = true := (Bool.and_eq_true_iff.mp h).2
    rw [cutLowerUpper, if_pos h, cut_here h, cut_cons (lowerUpper_of_upper hb), ih]
  | case2 a b rest h ih =>
    rw [cutLowerUpper, if_neg h, cut_behind (Bool.eq_false_iff.mpr h), ih]
  | case3 rest h =>
    rw [cutLowerUpper, cut] <;> exact h

theorem upperRun_of_second {a b : Char} (h : isAsciiUpper b = false) (rest : List Char) :
    upperRun a b rest = false := by
  rw [upperRun, h, Bool.and_false, Bool.false_and]

/-- Neither of the two letters behind a cut of the second pass is on the left side of another one. -/
theorem cutUpperRun_eq_cut (text : List Char) : cutUpperRun text = cut upperRun text := by
  induction text using cutUpperRun.induct with
  | case1 a b c rest h ih =>
    have hc : isAsciiLower c = true := (Bool.and_eq_true_iff.mp h).2
    have hcut : upperRun a b (c :: rest) = true := h
    rw [cutUpperRun, if_pos h, cut_here hcut,
      cut_behind (upperRun_of_second (isAsciiUpper_of_lower hc) rest),
      cut_cons (upperRun_of_lower hc), ih]
  | case2 a b c rest h ih =>
    have hcut : upperRun a b (c :: rest) = false := Bool.eq_false_iff.mpr h
    rw [cutUpperRun, if_neg h, cut_behind hcut, ih]
  | case3 rest h =>
    match rest with
    | [] | [_] => rfl
    | [a, b] => rw [cut_behind (Bool.and_false _)]; rfl
    | a :: b :: c :: rest => exact absurd rfl (h a b c rest)

theorem boundary_eq (a b : Char) (rest : List Char) :
    boundary a b rest = (lowerUpper a b rest || upperRun a b rest) := rfl

/-- The second pass sees the same behind the first one as in the text itself: nothing is cut off behind
a capital, and nothing else is looked beyond. -/
theorem upperRun_cut (a b : Char) (rest : List Char) :
    ∃ more, cut lowerUpper (b :: rest) = b :: more ∧ upperRun a b more = upperRun a b rest := by
  cases hb : isAsciiUpper b with
  | true =>
    refine ⟨cut lowerUpper rest, cut_cons (lowerUpper_of_upper hb) rest, ?_⟩
    have hhead : (cut lowerUpper rest).head? = rest.head? := by
      match rest with
      | [] | [_] | _ :: _ :: _ => rfl
    rw [upperRun, upperRun, hhead]
  | false =>
    cases rest with
    | nil => exact ⟨[], rfl, rfl⟩
    | cons c rest =>
      exact ⟨_, rfl, by rw [upperRun_of_second hb, upperRun_of_second hb]⟩

theorem cut_cut (text : List Char) : cut upperRun (cut lowerUpper text) = cut boundary text := by
  induction text with
  | nil => rfl
  | cons a text ih =>
    cases text with
    | nil => rfl
    | cons b rest =>
      cases hlower : lowerUpper a b rest with
      | true =>
        have hboundary : boundary a b rest = true := by rw [boundary_eq, hlower, Bool.true_or]
        have ha : isAsciiLower a = true := (Bool.and_eq_true_iff.mp hlower).1
        have hyphen : ∀ b rest, upperRun '-' b rest = false := fun _ _ => rfl
        rw [cut_here hlower, cut_cons (upperRun_of_lower ha), cut_cons hyphen, ih,
          cut_here hboundary]
      | false =>
        have hboundary : boundary a b rest = upperRun a b rest := by
          rw [boundary_eq, hlower, Bool.false_or]
        obtain ⟨more, hmore, hrun⟩ := upperRun_cut a b rest
        rw [cut_behind hlower, cut, hboundary, ← ih, hmore, cut, hrun]

/-! ## The passes and the scan -/

/-- The character is before a word boundary. -/
def isBeforeBoundary (a : Char) : List Char → Bool
  | b :: rest => boundary a b rest
  | [] => false

theorem isBeforeBoundary_of_not_upper (a : Char) {b : Char} (hb : isAsciiUpper b = false)
    (text : List Char) : isBeforeBoundary a (b :: text) = false := by
  simp only [isBeforeBoundary, boundary, hb, Bool.and_false, Bool.false_and, Bool.or_self]

theorem cut_boundary (a : Char) (text : List Char) :
    cut boundary (a :: text) =
      a :: (if isBeforeBoundary a text then ['-'] else []) ++ cut boundary text := by
  cases text <;> rfl

theorem hyphenateFrom_separator {a : Char} (h : isSeparator a = true) (inRun : Bool)
    (text : List Char) :
    hyphenateFrom inRun (a :: text) = (if inRun then [] else ['-']) ++ hyphenateFrom true text := by
  simp only [hyphenateFrom, h, if_true]

theorem hyphenateFrom_cons {a : Char} (h : isSeparator a = false) (inRun : Bool) (text : List Char) :
    hyphenateFrom inRun (a :: text) =
      a :: (if isBeforeBoundary a text then ['-'] else []) ++ hyphenateFrom false text := by
  cases text <;> simp only [hyphenateFrom, h] <;> rfl

/-- No separator is next to a cut. -/
theorem isBeforeBoundary_of_separator {a : Char} (h : isSeparator a = true) (text : List Char) :
    isBeforeBoundary a text = false := by
  obtain ⟨hlower, hupper⟩ := letter_of_separator h
  cases text with
  | nil => rfl
  | cons b rest => simp only [isBeforeBoundary, boundary, hlower, hupper, Bool.false_and, Bool.or_self]

/-- Separators are joined behind the cuts as they are in the scan. -/
theorem joinSeparatorsFrom_cut (text : List Char) :
    ∀ inRun : Bool, joinSeparatorsFrom inRun (cut boundary text) = hyphenateFrom inRun text := by
  induction text with
  | nil => intro inRun; rfl
  | cons a text ih =>
    intro inRun
    cases ha : isSeparator a with
    | true =>
      rw [cut_boundary, isBeforeBoundary_of_separator ha, hyphenateFrom_separator ha, ← ih]
      cases inRun <;> simp [joinSeparatorsFrom, ha]
    | false =>
      have hyphen : isSeparator '-' = false := by decide
      rw [cut_boundary, hyphenateFrom_cons ha, ← ih]
      cases isBeforeBoundary a text <;> simp [joinSeparatorsFrom, ha, hyphen]

theorem kebab_eq_kebabScan (text : List Char) : kebab text = kebabScan text := by
  rw [kebab, kebabScan, hyphenate, joinSeparators, cutLowerUpper_eq_cut, cutUpperRun_eq_cut, cut_cut,
    joinSeparatorsFrom_cut]

/-! ## Each character by its neighbours -/

/-- What is written for the first character of `rest`, behind `before`: for a separator a hyphen, unless
there is one in front of it; for any other character itself, and a hyphen if it is before a boundary. -/
def written (before rest : List Char) : List Char :=
  match rest with
  | [] => []
  | a :: rest =>
    if isSeparator a then if before.getLast?.any isSeparator then [] else ['-']
    else a :: if isBeforeBoundary a rest then ['-'] else []

/-- What is written for the character at a position of the text. -/
def writtenAt (text : List Char) (i : Nat) : List Char := written (text.take i) (text.drop i)

/-- The scan, behind the part of the text that it has read, writes each character by its neighbours. -/
theorem hyphenateFrom_eq_flatMap (rest : List Char) : ∀ before : List Char,
    hyphenateFrom (before.getLast?.any isSeparator) rest =
      (List.range' before.length rest.length).flatMap (writtenAt (before ++ rest)) := by
  induction rest with
  | nil => intro before; rfl
  | cons a rest ih =>
    intro before
    have hfirst : writtenAt (before ++ a :: rest) before.length = written before (a :: rest) := by
      rw [writtenAt, List.take_left, List.drop_left]
    have hnext := ih (before ++ [a])
    rw [List.append_assoc, List.singleton_append, List.length_append, List.length_singleton,
      List.getLast?_concat] at hnext
    rw [List.length_cons, List.range'_succ, List.flatMap_cons, hfirst, ← hnext]
    cases ha : isSeparator a with
    | true => simp only [hyphenateFrom_separator ha, written, ha, Option.any_some, if_true]
    | false =>
      rw [hyphenateFrom_cons ha, written, ha, if_neg Bool.false_ne_true, Option.any_some, ha]

end Text

/-- Kebab-case is one scan of the text, which writes each character by its neighbours and lower-cases the
result. -/
theorem kebabCase_scans_once (text : String) :
    kebabCase text = .ofList (Text.kebabScan text.toList) ∧
      Text.hyphenate text.toList =
        (List.range text.toList.length).flatMap (Text.writtenAt text.toList) := by
  refine ⟨?_, ?_⟩
  · rw [kebabCase, Text.kebab_eq_kebabScan]
  · rw [List.range_eq_range']
    exact Text.hyphenateFrom_eq_flatMap text.toList []

/-- Capitals one by one and in runs, and sigmas, of which the one that ends its word is written in another
way. -/
theorem parserOfOdysseus_scanned :
    kebabCase "aBcDe HTMLParser ΟΔΥΣΣΕΥΣ_ -Ö" = "a-bc-de-html-parser-οδυσσευς--ö" ∧
      Text.hyphenate "aBcDe HTMLParser ΟΔΥΣΣΕΥΣ_ -Ö".toList =
        "a-Bc-De-HTML-Parser-ΟΔΥΣΣΕΥΣ--Ö".toList := by
  obtain ⟨hkebab, hscan⟩ := kebabCase_scans_once "aBcDe HTMLParser ΟΔΥΣΣΕΥΣ_ -Ö"
  refine ⟨?_, ?_⟩
  · rw [hkebab]
    decide +kernel
  · rw [hscan]
    decide +kernel

end ThemeRules
