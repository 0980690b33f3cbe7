import Mathlib.Data.List.Forall2
import ThemeRules.Proofs.JoinedNames
import ThemeRules.Proofs.UnknownProperties

/-!
# ThemeRules.Proofs.OwnRules

Every variant of a theme has a rule of its own. Rules are kept under their selectors, so one would be lost
if two variants had the same selector. The selector of a modifier is never that of the base, because it goes
on behind it, and two modifiers have the same selector only if they are the same after normalisation
(`selector_modifier_inj`): whatever the class name is, it is in front of both. The null character has to be
left out here. It is written like U+FFFD, and neither kebab-case nor lower-casing makes one
(`null_not_mem_normalise`).
-/

namespace ThemeRules
namespace Text

/-! ## No null characters -/

/-- No lower-case letter of the table is the null character. -/
theorem ranges_positive : ∀ r ∈ caseRanges, 0 < r.first + r.offset := by
  decide +kernel

theorem lowerChar_eq_null {c : Char} (h : lowerChar c = '\x00') : c = '\x00' := by
  unfold lowerChar at h
  split at h
  · rename_i r hr
    have hcovers := List.find?_some (p := fun r : CaseRange => r.covers c.toNat) hr
    have hmem := List.mem_of_find?_eq_some hr
    have hvalid := (lowered_uncovered hmem hcovers).1
    have hfirst := (CaseRange.covers_iff.mp hcovers).1
    have hpositive := ranges_positive r hmem
    have hzero : '\x00'.toNat = 0 := rfl
    rw [← Char.toNat_inj, toNat_ofNat hvalid, hzero] at h
    omega
  · exact h

theorem IsLowered.eq_null {c : Char} (h : IsLowered c '\x00') : c = '\x00' := by
  unfold IsLowered at h
  split at h
  · exact absurd h (by decide)
  · split at h
    · exact absurd h (by decide)
    · exact lowerChar_eq_null h.symm

theorem null_not_mem_kebab {text : List Char} (h : '\x00' ∉ text) : '\x00' ∉ kebab text := by
  intro hnull
  rw [kebab_eq_kebabScan, kebabScan] at hnull
  obtain ⟨c, hc, hlowered⟩ := exists_of_mem_lowerFrom hnull
  rw [hlowered.eq_null] at hc
  rcases mem_hyphenateFrom hc with hhyphen | ⟨hmem, -⟩
  · exact absurd hhyphen (by decide)
  · exact h hmem

end Text

theorem Css.map_readBack {name : List Char} (h : '\x00' ∉ name) : name.map readBack = name := by
  have hself : ∀ c ∈ name, readBack c = c := by
    intro c hc
    rw [readBack, if_neg]
    rintro rfl
    exact h hc
  rw [List.map_congr_left hself, List.map_id']

/-! ## Different selectors -/

namespace Naming

variable (naming : Naming) (className : String)

theorem null_not_mem_normalise {name : List Char} (h : '\x00' ∉ name) :
    '\x00' ∉ naming.normalise name := by
  cases naming with
  | kebab => exact Text.null_not_mem_kebab h
  | verbatim => exact h

theorem selector_eq_iff (modifier modifier' : Option String) :
    naming.selector className modifier = naming.selector className modifier' ↔
      (naming.intended className modifier).map Css.readBack =
        (naming.intended className modifier').map Css.readBack := by
  rw [selector_eq, selector_eq, String.ofList_inj, List.cons.injEq, Css.escape_eq_iff]
  exact and_iff_right rfl

theorem selector_modifier_ne {modifier : String} (h : modifier ≠ "") :
    naming.selector className none ≠ naming.selector className (some modifier) := by
  rw [ne_eq, selector_eq_iff, naming.intended_modifier className h]
  intro heq
  have hlength := congrArg List.length heq
  simp only [List.length_map, List.length_append, List.length_cons] at hlength
  omega

theorem selector_modifier_inj {first second : String} (hfirst : first ≠ "") (hsecond : second ≠ "")
    (hnull : '\x00' ∉ first.toList) (hnull' : '\x00' ∉ second.toList)
    (h : naming.selector className (some first) = naming.selector className (some second)) :
    naming.normalise first.toList = naming.normalise second.toList := by
  rw [selector_eq_iff, naming.intended_modifier className hfirst,
    naming.intended_modifier className hsecond] at h
  simp only [List.map_append, List.map_cons, List.append_cancel_left_eq, List.cons.injEq, true_and]
    at h
  rwa [Css.map_readBack (naming.null_not_mem_normalise hnull),
    Css.map_readBack (naming.null_not_mem_normalise hnull')] at h

end Naming

/-! ## The rules of a theme -/

namespace Theme

/-- The names of the modifiers can be told apart: none is empty or holds a null character, and they are
different after normalisation. -/
structure ModifiersApart (naming : Naming) (theme : Theme) : Prop where
  ne_empty : ∀ m ∈ theme.modifierEntries, m.1 ≠ ""
  no_null : ∀ m ∈ theme.modifierEntries, '\x00' ∉ m.1.toList
  nodup : (theme.modifierEntries.map fun m => naming.normalise m.1.toList).Nodup

/-- The rule is that of the base or of a modifier, with the declarations of its own styles. -/
def IsRule (tokens : TokenTable) (naming : Naming) (theme : Theme) (modifier : Option String)
    (styles : StyleMap) (rule : String × Declarations) : Prop :=
  rule.1 = naming.selector theme.className modifier ∧
    Style.declare tokens theme.className styles = .ok rule.2

theorem IsRule.eq {tokens : TokenTable} {naming : Naming} {theme : Theme} {modifier : Option String}
    {styles : StyleMap} {rule : String × Declarations}
    (h : theme.IsRule tokens naming modifier styles rule) {selector : String}
    {declarations : Declarations} (hselector : naming.selector theme.className modifier = selector)
    (hdeclare : Style.declare tokens theme.className styles = .ok declarations) :
    rule = (selector, declarations) :=
  Prod.ext (h.1.trans hselector) (Except.ok.inj (h.2.symm.trans hdeclare))

theorem nodup_selectors {naming : Naming} {theme : Theme} (h : theme.ModifiersApart naming) :
    (theme.units.map fun v => naming.selector v.className v.modifier).Nodup := by
  rw [units, List.map_append, List.map_map, List.map_map, List.nodup_append]
  refine ⟨?_, ?_, ?_⟩
  · cases theme.styles <;> simp
  · have hapart := List.pairwise_map.mp h.nodup
    refine List.pairwise_map.mpr (hapart.imp_of_mem ?_)
    intro first second hfirst hsecond hne heq
    exact hne (naming.selector_modifier_inj theme.className (h.ne_empty _ hfirst)
      (h.ne_empty _ hsecond) (h.no_null _ hfirst) (h.no_null _ hsecond) heq)
  · intro base hbase other hother
    obtain ⟨styles, -, rfl⟩ := List.mem_map.mp hbase
    obtain ⟨m, hm, rfl⟩ := List.mem_map.mp hother
    exact naming.selector_modifier_ne theme.className (h.ne_empty m hm)

end Theme

/-- No rule replaces another one. -/
theorem ofTheme_entries (tokens : TokenTable) {naming : Naming} {theme : Theme}
    (hunits : ∀ v ∈ theme.units, Style.Registered v.styles)
    (hmodifiers : theme.ModifiersApart naming) :
    ∃ component, Component.ofTheme tokens naming theme = .ok component ∧
      component.entries = theme.units.map (Variant.rule tokens naming) := by
  refine ⟨.ofList (theme.units.map (Variant.rule tokens naming)),
    ofTheme_ok tokens naming hunits, OrderedMap.entries_ofList ?_⟩
  rw [List.map_map]
  exact Theme.nodup_selectors hmodifiers

/-- A theme whose modifiers can be told apart compiles to one rule for its base styles, if it has any, and
then one for each modifier in order; each rule has the declarations of its own styles. -/
theorem ofTheme_own_rules (tokens : TokenTable) {naming : Naming} {theme : Theme}
    (hstyles : ∀ styles ∈ theme.styleMaps, Style.Registered styles)
    (hmodifiers : theme.ModifiersApart naming) :
    ∃ component base others, Component.ofTheme tokens naming theme = .ok component ∧
      component.entries = base ++ others ∧
      List.Forall₂ (theme.IsRule tokens naming none) theme.styles.toList base ∧
      List.Forall₂ (fun m => theme.IsRule tokens naming (some m.1) m.2) theme.modifierEntries
        others := by
  have hunits := Theme.registered_units hstyles
  obtain ⟨component, hcompiled, hentries⟩ := ofTheme_entries tokens hunits hmodifiers
  rw [Theme.units] at hunits
  rw [Theme.units, List.map_append, List.map_map, List.map_map] at hentries
  refine ⟨component, _, _, hcompiled, hentries, ?_, ?_⟩
  · rw [List.forall₂_map_right_iff, List.forall₂_same]
    intro styles hs
    exact ⟨rfl, Variant.declare_ok tokens (hunits _
      (List.mem_append_left _ (List.mem_map_of_mem hs)))⟩
  · rw [List.forall₂_map_right_iff, List.forall₂_same]
    intro m hm
    exact ⟨rfl, Variant.declare_ok tokens (hunits _
      (List.mem_append_right _ (List.mem_map_of_mem hm)))⟩

/-- A class name that comes to a single hyphen, and modifiers that begin alike. -/
def hyphenCard : Theme :=
  (((Theme.named ".-").style "display" "flex").modifier "onHover"
    (.ofList [("paddingX", "4")])).modifier "on hover!" (.ofList [("display", "block")])

theorem hyphenCard_own_rules :
    (∀ styles ∈ hyphenCard.styleMaps, Style.Registered styles) ∧
      hyphenCard.ModifiersApart .kebab ∧
      ∃ component, Component.ofTheme oneRem .kebab hyphenCard = .ok component ∧
        component.entries = [
          (".\\-", .ofList [("display", "flex")]),
          (".---on-hover", .ofList [("paddingRight", "1rem"), ("paddingLeft", "1rem")]),
          (".---on-hover\\!", .ofList [("display", "block")])] := by
  have hstyles : ∀ styles ∈ hyphenCard.styleMaps, Style.Registered styles := by decide
  have hmodifiers : hyphenCard.ModifiersApart .kebab :=
    ⟨by decide, by decide, by decide +kernel⟩
  obtain ⟨component, base, others, hcompiled, hentries, hbase, hothers⟩ :=
    ofTheme_own_rules oneRem hstyles hmodifiers
  refine ⟨hstyles, hmodifiers, component, hcompiled, ?_⟩
  have hselector : Naming.kebab.selector ".-" none = ".\\-" := by decide +kernel
  have honHover : Naming.kebab.selector ".-" (some "onHover") = ".---on-hover" := by decide +kernel
  have honHover' : Naming.kebab.selector ".-" (some "on hover!") = ".---on-hover\\!" := by
    decide +kernel
  obtain _ | ⟨hrule, _ | _⟩ := hbase
  obtain _ | ⟨hfirst, _ | ⟨hsecond, _ | _⟩⟩ := hothers
  rw [hentries, hrule.eq hselector rfl, hfirst.eq honHover rfl, hsecond.eq honHover' rfl]
  rfl

end ThemeRules
