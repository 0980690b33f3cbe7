import ThemeRules.Proofs.Rules

/-!
# ThemeRules.Proofs.UnknownProperties

When a compilation fails. The compiler goes through the themes, through the style maps of each theme and
through the properties of each style map, and ends at the first property that has no generator. The
three loops come to one search through all occurrences of properties (`failure?_layerFrom`). So the
names of the properties decide alone whether a compilation fails and what it reports
(`ofCollection_unknownProperty`): no token, no raw value and no naming has a say, and a rule that a
later one would replace is reported like any other.
-/

namespace ThemeRules

/-! ## Properties where they occur -/

/-- A style property where it occurs, with the class name that the author gave the theme. -/
structure Occurrence where
  property : String
  className : String
  deriving DecidableEq

/-- The property has a generator. -/
def Occurrence.isKnown (o : Occurrence) : Bool := (Generator.find? o.property).isSome

def Theme.occurrences (theme : Theme) : List Occurrence :=
  theme.styleMaps.flatMap fun styles => styles.keys.map fun property => ⟨property, theme.className⟩

/-- All properties of all themes, in the order of the collection. -/
def Collection.occurrences (themes : Collection) : List Occurrence :=
  themes.entries.flatMap fun e => e.2.occurrences

def Variant.occurrences (v : Variant) : List Occurrence :=
  v.styles.keys.map fun property => ⟨property, v.className⟩

theorem occurrences_variants (theme : Theme) :
    theme.variants.flatMap Variant.occurrences = theme.occurrences := by
  unfold Theme.variants Theme.occurrences Theme.styleMaps
  rw [List.flatMap_append, List.flatMap_append]
  congr 1
  · cases theme.styles <;> rfl
  · cases theme.modifiers with
    | none => rfl
    | some modifiers =>
      simp only [Option.elim, List.flatMap_map]
      rfl

/-! ## The first property without a generator -/

/-- The error of a result that is one. -/
def failure? {α : Type} : Except Error α → Option Error
  | .ok _ => none
  | .error error => some error

theorem failure?_eq_some {α : Type} {result : Except Error α} {error : Error} :
    failure? result = some error ↔ result = .error error := by
  cases result <;> simp [failure?]

def firstUnknown (occurrences : List Occurrence) : Option Error :=
  (occurrences.find? fun o => !o.isKnown).map fun o => .unknownProperty o.property o.className

theorem firstUnknown_cons (o : Occurrence) (rest : List Occurrence) :
    firstUnknown (o :: rest) =
      if o.isKnown then firstUnknown rest else some (.unknownProperty o.property o.className) := by
  rw [firstUnknown, List.find?_cons]
  cases o.isKnown <;> rfl

theorem firstUnknown_append (first second : List Occurrence) :
    firstUnknown (first ++ second) = (firstUnknown first).or (firstUnknown second) := by
  rw [firstUnknown, List.find?_append, Option.map_or]
  rfl

theorem firstUnknown_eq_none {occurrences : List Occurrence} :
    firstUnknown occurrences = none ↔ ∀ o ∈ occurrences, o.isKnown = true := by
  simp [firstUnknown]

theorem firstUnknown_split {earlier later : List Occurrence} {o : Occurrence}
    (hearlier : ∀ before ∈ earlier, before.isKnown = true) (ho : o.isKnown = false) :
    firstUnknown (earlier ++ o :: later) = some (.unknownProperty o.property o.className) := by
  rw [firstUnknown_append, firstUnknown_eq_none.mpr hearlier, Option.none_or, firstUnknown_cons, ho]
  rfl

/-! ## Three loops and one search -/

section Loops

variable (utilities : Utilities) (naming : Naming)

theorem failure?_declareFrom (className : String) (entries : List (String × String)) :
    ∀ declarations, failure? (Style.declareFrom utilities className declarations entries) =
      firstUnknown (entries.map fun e => ⟨e.1, className⟩) := by
  induction entries with
  | nil => intro declarations; rfl
  | cons e rest ih =>
    intro declarations
    obtain ⟨property, raw⟩ := e
    rw [List.map_cons, firstUnknown_cons, Occurrence.isKnown, Style.declareFrom]
    cases Generator.find? property with
    | none => rfl
    | some generator => exact ih _

theorem failure?_declare (v : Variant) :
    failure? (v.declare utilities) = firstUnknown v.occurrences := by
  rw [Variant.declare, Style.declare, failure?_declareFrom, Variant.occurrences, OrderedMap.keys,
    List.map_map]
  rfl

theorem failure?_compileFrom (vs : List Variant) :
    ∀ component, failure? (Component.compileFrom utilities naming component vs) =
      firstUnknown (vs.flatMap Variant.occurrences) := by
  induction vs with
  | nil => intro component; rfl
  | cons v rest ih =>
    intro component
    have hv := failure?_declare utilities v
    rw [List.flatMap_cons, firstUnknown_append, ← hv, Component.compileFrom]
    cases v.declare utilities with
    | error error => rfl
    | ok declarations => exact ih _

theorem failure?_layerFrom (entries : List (String × Theme)) :
    ∀ component, failure? (Component.layerFrom utilities naming component entries) =
      firstUnknown (entries.flatMap fun e => e.2.occurrences) := by
  induction entries with
  | nil => intro component; rfl
  | cons e rest ih =>
    intro component
    obtain ⟨name, theme⟩ := e
    have ht : failure? (Component.ofTheme utilities naming theme) = firstUnknown theme.occurrences := by
      rw [Component.ofTheme, failure?_compileFrom, occurrences_variants]
    rw [List.flatMap_cons, firstUnknown_append, ← ht, Component.layerFrom]
    cases Component.ofTheme utilities naming theme with
    | error error => rfl
    | ok rules => exact ih _

theorem failure?_ofCollection (themes : Collection) :
    failure? (Component.ofCollection utilities naming themes) = firstUnknown themes.occurrences :=
  failure?_layerFrom utilities naming themes.entries .empty

end Loops

/-! ## A failed compilation -/

theorem mem_occurrences {themes : Collection} {o : Occurrence} :
    o ∈ themes.occurrences ↔ ∃ e ∈ themes.entries, ∃ styles ∈ e.2.styleMaps,
      o.property ∈ styles.keys ∧ o.className = e.2.className := by
  simp only [Collection.occurrences, Theme.occurrences, List.mem_flatMap, List.mem_map]
  constructor
  · rintro ⟨e, he, styles, hs, property, hp, rfl⟩
    exact ⟨e, he, styles, hs, hp, rfl⟩
  · rintro ⟨e, he, styles, hs, hp, hc⟩
    exact ⟨e, he, styles, hs, o.property, hp, by rw [← hc]⟩

/-- A collection fails to compile if a property of a style map has no generator, and the error names the
first such property and the class name of its theme. Nothing else decides: collections with the same
properties fail alike, whatever the tokens, the naming, the raw values and the selectors are. -/
theorem ofCollection_unknownProperty (tokens : TokenTable) (naming : Naming) (themes : Collection) :
    ((∃ error, Component.ofCollection tokens naming themes = .error error) ↔
      ∃ e ∈ themes.entries, ∃ styles ∈ e.2.styleMaps, ∃ property ∈ styles.keys,
        Generator.find? property = none) ∧
      (∀ earlier o later, themes.occurrences = earlier ++ o :: later →
        (∀ before ∈ earlier, before.isKnown = true) → o.isKnown = false →
        Component.ofCollection tokens naming themes =
          .error (.unknownProperty o.property o.className)) ∧
      ∀ tokens' naming' (themes' : Collection), themes'.occurrences = themes.occurrences →
        failure? (Component.ofCollection tokens' naming' themes') =
          failure? (Component.ofCollection tokens naming themes) := by
  refine ⟨⟨?_, ?_⟩, ?_, ?_⟩
  · rintro ⟨error, he⟩
    rw [← failure?_eq_some, failure?_ofCollection] at he
    obtain ⟨o, ho, -⟩ := Option.map_eq_some_iff.mp he
    obtain ⟨e, hmem, styles, hstyles, hproperty, -⟩ :=
      mem_occurrences.mp (List.mem_of_find?_eq_some ho)
    have hknown := List.find?_some ho
    exact ⟨e, hmem, styles, hstyles, o.property, hproperty, by simpa [Occurrence.isKnown] using hknown⟩
  · rintro ⟨e, hmem, styles, hstyles, property, hproperty, hnone⟩
    have ho : ⟨property, e.2.className⟩ ∈ themes.occurrences :=
      mem_occurrences.mpr ⟨e, hmem, styles, hstyles, hproperty, rfl⟩
    cases hr : Component.ofCollection tokens naming themes with
    | error error => exact ⟨error, rfl⟩
    | ok component =>
      have hfirst := failure?_ofCollection tokens naming themes
      rw [hr] at hfirst
      have hknown := firstUnknown_eq_none.mp hfirst.symm _ ho
      rw [Occurrence.isKnown, hnone] at hknown
      cases hknown
  · intro earlier o later hsplit hearlier ho
    rw [← failure?_eq_some, failure?_ofCollection, hsplit]
    exact firstUnknown_split hearlier ho
  · intro tokens' naming' themes' hsame
    rw [failure?_ofCollection, failure?_ofCollection, hsame]

/-- A property that no generator knows, in a rule that the second theme replaces. -/
def glowingCards : Collection := .ofList [
  ("card", ((Theme.named "card").style "display" "flex").style "glow" "soft"),
  ("cover", (Theme.named ".card").style "display" "grid")]

theorem glowingCards_unknownProperty :
    glowingCards.occurrences = [⟨"display", "card"⟩] ++ ⟨"glow", "card"⟩ :: [⟨"display", ".card"⟩] ∧
      (∃ e ∈ glowingCards.entries, ∃ styles ∈ e.2.styleMaps, ∃ property ∈ styles.keys,
        Generator.find? property = none) ∧
      Component.ofCollection oneRem .kebab glowingCards =
        .error (.unknownProperty "glow" "card") := by
  have hsplit : glowingCards.occurrences =
      [⟨"display", "card"⟩] ++ ⟨"glow", "card"⟩ :: [⟨"display", ".card"⟩] := by
    decide
  obtain ⟨hiff, hfirst, -⟩ := ofCollection_unknownProperty oneRem .kebab glowingCards
  have herror := hfirst _ _ _ hsplit (by decide) (by decide)
  exact ⟨hsplit, hiff.mp ⟨_, herror⟩, herror⟩

end ThemeRules
