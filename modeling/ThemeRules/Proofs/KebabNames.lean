import ThemeRules.Naming
import ThemeRules.Proofs.Escaping
import ThemeRules.Proofs.LowerCasing

/-!
# ThemeRules.Proofs.KebabNames

Names in kebab-case are a canonical form. They are the texts without separators that lower-casing leaves as
they are (`IsKebab`): such a text has no capitals, hence no word boundaries, so kebab-case changes nothing
in it; and every text becomes one. A selector whose name needs no escaping therefore generates itself.
-/

namespace ThemeRules
namespace Text

/-- Nothing in the name is a separator or has a lower-case letter. -/
def IsKebab (name : List Char) : Prop := ∀ c ∈ name, IsSettled c ∧ isSeparator c = false

/-- The scan writes hyphens, and characters of the text that are no separators. -/
theorem mem_hyphenateFrom {c : Char} {text : List Char} : ∀ {inRun : Bool},
    c ∈ hyphenateFrom inRun text → c = '-' ∨ c ∈ text ∧ isSeparator c = false := by
  induction text with
  | nil => intro _ h; cases h
  | cons a text ih =>
    intro inRun h
    cases ha : isSeparator a with
    | true =>
      rw [hyphenateFrom_separator ha, List.mem_append] at h
      rcases h with h | h
      · cases inRun
        · exact .inl (List.mem_singleton.mp h)
        · cases h
      · exact (ih h).imp_right (And.imp_left (List.mem_cons_of_mem a))
    | false =>
      rw [hyphenateFrom_cons ha, List.mem_append, List.mem_cons] at h
      rcases h with (rfl | h) | h
      · exact .inr ⟨List.mem_cons_self, ha⟩
      · split at h
        · exact .inl (List.mem_singleton.mp h)
        · cases h
      · exact (ih h).imp_right (And.imp_left (List.mem_cons_of_mem a))

theorem isSeparator_of_mem_hyphenateFrom {c : Char} {text : List Char} {inRun : Bool}
    (h : c ∈ hyphenateFrom inRun text) : isSeparator c = false := by
  rcases mem_hyphenateFrom h with rfl | ⟨-, hc⟩
  · decide
  · exact hc

theorem isKebab_kebab (text : List Char) : IsKebab (kebab text) := by
  intro c hc
  rw [kebab_eq_kebabScan, kebabScan] at hc
  obtain ⟨a, ha, hlowered⟩ := exists_of_mem_lowerFrom hc
  exact ⟨hlowered.isSettled, hlowered.isSeparator_eq (isSeparator_of_mem_hyphenateFrom ha)⟩

theorem isBeforeBoundary_of_settled (a : Char) {text : List Char} (h : ∀ c ∈ text, IsSettled c) :
    isBeforeBoundary a text = false := by
  cases text with
  | nil => rfl
  | cons b rest =>
    exact isBeforeBoundary_of_not_upper a (h b List.mem_cons_self).isAsciiUpper_eq rest

theorem hyphenateFrom_of_isKebab {name : List Char} : ∀ {inRun : Bool},
    IsKebab name → hyphenateFrom inRun name = name := by
  induction name with
  | nil => intro _ _; rfl
  | cons a name ih =>
    intro inRun h
    obtain ⟨ha, hname⟩ := List.forall_mem_cons.mp h
    rw [hyphenateFrom_cons ha.2, isBeforeBoundary_of_settled a fun c hc => (hname c hc).1, ih hname]
    rfl

theorem kebab_eq_self_iff {name : List Char} : kebab name = name ↔ IsKebab name := by
  constructor
  · intro h
    rw [← h]
    exact isKebab_kebab name
  · intro h
    rw [kebab_eq_kebabScan, kebabScan, hyphenate, hyphenateFrom_of_isKebab h]
    exact lower_settled fun c hc => (h c hc).1

theorem kebab_kebab (text : List Char) : kebab (kebab text) = kebab text :=
  kebab_eq_self_iff.mpr (isKebab_kebab text)

end Text

namespace Naming

/-- A selector whose name is written without escapes, taken for a class name, generates itself. -/
theorem selector_selector {className : String} {modifier : Option String}
    (h : Css.escape (kebab.intended className modifier) = kebab.intended className modifier) :
    kebab.selector (kebab.selector className modifier) none = kebab.selector className modifier := by
  have hchars : (kebab.selector className modifier).toList =
      '.' :: kebab.intended className modifier := by
    rw [selector_eq, String.toList_ofList, h]
  have hagain : kebab.intended (kebab.selector className modifier) none =
      kebab.intended className modifier := by
    rw [← normalise_baseName, hchars, ← normalise_baseName kebab className modifier]
    exact Text.kebab_kebab _
  rw [selector_eq, hagain, ← selector_eq]

end Naming

/-- Kebab-case is a canonical form: it has no capitals, blanks and underscores, it is its own
kebab-case, and a selector in it that needs no escapes generates itself. -/
theorem kebabCase_canonical :
    (∀ (text : String), ∀ c ∈ (kebabCase text).toList,
      ¬('A' ≤ c ∧ c ≤ 'Z') ∧ Text.isBlank c = false ∧ c ≠ '_') ∧
    (∀ text : String, kebabCase (kebabCase text) = kebabCase text) ∧
    ∀ (className : String) (modifier : Option String),
      Css.escape (Naming.kebab.intended className modifier) =
          Naming.kebab.intended className modifier →
        Naming.kebab.selector (Naming.kebab.selector className modifier) none =
          Naming.kebab.selector className modifier := by
  refine ⟨fun text c hc => ?_, fun text => ?_, fun _ _ h => Naming.selector_selector h⟩
  · rw [kebabCase, String.toList_ofList] at hc
    obtain ⟨hsettled, hseparator⟩ := Text.isKebab_kebab _ c hc
    have hupper := hsettled.isAsciiUpper_eq
    simp only [Text.isAsciiUpper, Bool.and_eq_false_iff, decide_eq_false_iff_not] at hupper
    simp only [Text.isSeparator, Bool.or_eq_false_iff, beq_eq_false_iff_ne] at hseparator
    exact ⟨fun h => hupper.elim (· h.1) (· h.2), hseparator⟩
  · rw [kebabCase, kebabCase, String.toList_ofList, Text.kebab_kebab]

theorem greekCard_canonical :
    Naming.kebab.selector ".ΟΔΟΣ_ABCard" (some "onHover") = ".οδος-ab-card--on-hover" ∧
      Naming.kebab.selector ".οδος-ab-card--on-hover" none = ".οδος-ab-card--on-hover" := by
  have hselector :
      Naming.kebab.selector ".ΟΔΟΣ_ABCard" (some "onHover") = ".οδος-ab-card--on-hover" := by
    decide +kernel
  refine ⟨hselector, ?_⟩
  have hagain := kebabCase_canonical.2.2 ".ΟΔΟΣ_ABCard" (some "onHover") (by decide +kernel)
  rwa [hselector] at hagain

end ThemeRules
