import ThemeRules.Proofs.KebabNames

/-!
# ThemeRules.Proofs.JoinedNames

Names with a modifier. A hyphen separates what stands in front of it from what follows: it is at no word
boundary and in no run of separators, and lower-casing neither skips it nor takes it for a letter, so a
sigma in front of it ends its word and a letter behind it begins one. Kebab-case therefore treats the two
sides of a hyphen one by one (`kebab_append_hyphen`). Escaping looks at the beginning of a name alone, as
long as there is more of it than a single hyphen (`escape_append_hyphens`).

So the selector of a modifier goes on where the one of the base ends (`selector_modifier`).
-/

namespace ThemeRules
namespace Text

/-! ## Kebab-case on the two sides of a hyphen -/

theorem isBeforeBoundary_append_hyphen (a : Char) (text rest : List Char) :
    isBeforeBoundary a (text ++ '-' :: rest) = isBeforeBoundary a text := by
  match text with
  | [] => exact isBeforeBoundary_of_not_upper a (by decide) rest
  | [b] =>
    -- the hyphen is what follows the second character, and no lower-case letter
    have hyphen : isAsciiLower '-' = false := by decide
    simp only [List.singleton_append, isBeforeBoundary, boundary, List.head?_cons, List.head?_nil,
      Option.map_some, Option.map_none, Option.getD_some, Option.getD_none, hyphen]
  | b :: c :: text => rfl

theorem hyphenateFrom_append_hyphen (text rest : List Char) : ∀ inRun : Bool,
    hyphenateFrom inRun (text ++ '-' :: rest) =
      hyphenateFrom inRun text ++ '-' :: hyphenateFrom false rest := by
  induction text with
  | nil =>
    intro inRun
    have hyphen : isSeparator '-' = false := by decide
    have hnone : isBeforeBoundary '-' rest = false := by cases rest <;> rfl
    rw [List.nil_append, hyphenateFrom_cons hyphen, hnone]
    rfl
  | cons a text ih =>
    intro inRun
    rw [List.cons_append]
    cases ha : isSeparator a with
    | true => rw [hyphenateFrom_separator ha, hyphenateFrom_separator ha, ih, List.append_assoc]
    | false =>
      rw [hyphenateFrom_cons ha, hyphenateFrom_cons ha, isBeforeBoundary_append_hyphen, ih,
        List.append_assoc]

theorem hyphen_not_ignorable : isIgnorable '-' = false := by decide +kernel

theorem hyphen_not_cased : isCased '-' = false := by decide +kernel

theorem lowerChar_hyphen : lowerChar '-' = '-' := by decide +kernel

/-- No letter behind a hyphen is a neighbour of what is in front of it. -/
theorem casedFollows_append_hyphen (text rest : List Char) :
    casedFollows (text ++ '-' :: rest) = casedFollows text := by
  induction text with
  | nil => simp only [List.nil_append, casedFollows, hyphen_not_ignorable, hyphen_not_cased]; rfl
  | cons c text ih => simp only [List.cons_append, casedFollows, ih]

theorem lowerFrom_append_hyphen (text rest : List Char) : ∀ casedBefore : Bool,
    lowerFrom casedBefore (text ++ '-' :: rest) =
      lowerFrom casedBefore text ++ '-' :: lowerFrom false rest := by
  induction text with
  | nil =>
    intro casedBefore
    have hsigma : '-' ≠ capitalSigma := by decide
    have hdotted : '-' ≠ capitalDottedI := by decide
    simp only [List.nil_append, lowerFrom, if_neg hsigma, if_neg hdotted, lowerChar_hyphen,
      hyphen_not_ignorable, hyphen_not_cased]
    rfl
  | cons c text ih =>
    intro casedBefore
    simp only [List.cons_append, lowerFrom, casedFollows_append_hyphen, ih, List.append_assoc]

theorem kebab_append_hyphen (text rest : List Char) :
    kebab (text ++ '-' :: rest) = kebab text ++ '-' :: kebab rest := by
  simp only [kebab_eq_kebabScan, kebabScan, hyphenate, lower, hyphenateFrom_append_hyphen,
    lowerFrom_append_hyphen]

end Text

/-! ## Escapes on the two sides of hyphens -/

namespace Css

theorem escapeName_append (name rest : List Char) :
    escapeName (name ++ rest) = escapeName name ++ escapeName rest := List.flatMap_append

theorem escapeName_hyphens (rest : List Char) :
    escapeName ('-' :: '-' :: rest) = '-' :: '-' :: escapeName rest := rfl

theorem escapeStart_append (c : Char) (name rest : List Char) :
    escapeStart (c :: name ++ rest) = escapeStart (c :: name) ++ escapeName rest := by
  rw [List.cons_append, escapeStart, escapeStart, escapeName_append, List.append_assoc]

/-- A single hyphen is escaped where it is the whole name, and not where it begins one. -/
theorem escape_append_hyphens (name rest : List Char) :
    escape (name ++ '-' :: '-' :: rest) = escape name ++ '-' :: '-' :: escapeName rest ↔
      name ≠ ['-'] := by
  obtain rfl | rfl | ⟨more, rfl⟩ | ⟨c, more, hc, rfl⟩ | ⟨c, more, hc, rfl⟩ := name_cases name
  · exact iff_of_true rfl (by simp)
  · refine iff_of_false (fun h => ?_) (fun h => h rfl)
    cases h
  · refine iff_of_true ?_ (by simp)
    rw [List.cons_append, List.cons_append, escape_hyphens, escape_hyphens, escapeName_append,
      escapeName_hyphens]
    rfl
  · refine iff_of_true ?_ (by simp)
    rw [List.cons_append, List.cons_append, escape_hyphen hc, escape_hyphen hc, ← List.cons_append,
      escapeStart_append, escapeName_hyphens]
    rfl
  · refine iff_of_true ?_ (by simpa using fun h => absurd h hc)
    rw [List.cons_append, escape_plain hc, escape_plain hc, ← List.cons_append, escapeStart_append,
      escapeName_hyphens]

end Css

/-! ## Modifiers -/

namespace Naming

/-- The two parts of a name are normalised by themselves. -/
theorem normalise_append_hyphens (naming : Naming) (name modifier : List Char) :
    naming.normalise (name ++ '-' :: '-' :: modifier) =
      naming.normalise name ++ '-' :: '-' :: naming.normalise modifier := by
  cases naming with
  | verbatim => rfl
  | kebab =>
    have hsecond := Text.kebab_append_hyphen [] modifier
    rw [List.nil_append] at hsecond
    rw [normalise, normalise, normalise, Text.kebab_append_hyphen, hsecond]
    rfl

theorem intended_modifier (naming : Naming) (className : String) {modifier : String}
    (h : modifier ≠ "") :
    naming.intended className (some modifier) =
      naming.intended className none ++ '-' :: '-' :: naming.normalise modifier.toList := by
  have hnone : suffix none = [] := rfl
  have hsome : suffix (some modifier) = '-' :: '-' :: modifier.toList := if_neg h
  rw [← normalise_baseName, ← normalise_baseName, baseName_eq, baseName_eq, hnone, hsome,
    List.append_nil, normalise_append_hyphens]

/-- The name of a modifier is put together from the normalised parts. Its selector is the one of the base,
two hyphens, and the normalised modifier, written as inside a name; but not for a class name that comes to a
single hyphen, which is escaped in the selector of the base and nowhere else. -/
theorem selector_modifier (naming : Naming) (className modifier : String) (h : modifier ≠ "") :
    naming.intended className (some modifier) =
        naming.intended className none ++ '-' :: '-' :: naming.normalise modifier.toList ∧
      (naming.selector className (some modifier) =
          naming.selector className none ++ "--" ++
            .ofList (Css.escapeName (naming.normalise modifier.toList)) ↔
        naming.intended className none ≠ ['-']) := by
  have hintended := naming.intended_modifier className h
  refine ⟨hintended, ?_⟩
  have hyphens : "--".toList = ['-', '-'] := by decide
  rw [← Css.escape_append_hyphens, ← hintended, ← String.toList_inj, String.toList_append,
    String.toList_append, hyphens, selector_eq, selector_eq, String.toList_ofList,
    String.toList_ofList, String.toList_ofList, List.append_assoc, List.cons_append, List.cons.injEq]
  exact and_iff_right rfl

/-- The sigma in front of the joint ends its word, the one behind it begins one, and the separators on both
sides stay apart. -/
theorem greekCard_modifier :
    "_ΣΑΣ Hover" ≠ "" ∧ kebab.selector ".ΟΔΟΣ_" none = ".οδος-" ∧
      kebab.selector ".ΟΔΟΣ_" (some "_ΣΑΣ Hover") = ".οδος----σας-hover" := by
  have hne : "_ΣΑΣ Hover" ≠ "" := by decide
  have hbase : kebab.selector ".ΟΔΟΣ_" none = ".οδος-" := by decide +kernel
  have hname : kebab.intended ".ΟΔΟΣ_" none ≠ ['-'] := by decide +kernel
  have hmodifier : Css.escapeName (kebab.normalise "_ΣΑΣ Hover".toList) = "-σας-hover".toList := by
    decide +kernel
  refine ⟨hne, hbase, ?_⟩
  rw [(kebab.selector_modifier ".ΟΔΟΣ_" "_ΣΑΣ Hover" hne).2.mpr hname, hbase, hmodifier,
    String.ofList_toList]
  rfl

end Naming
end ThemeRules
