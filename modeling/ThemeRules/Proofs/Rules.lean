import ThemeRules.Proofs.DeclaredStyles

/-!
# ThemeRules.Proofs.Rules

What a compiled collection holds. The compiler nests two folds: the rules of one theme are inserted one
after the other, and the rules of the themes are layered over each other. Both come to inserting the
rules of all units one after the other (`layerFrom_ok`), so a selector stands where the first unit
with that selector puts it and has the declarations of the last one, whichever themes the two are of.
-/

namespace ThemeRules

/-! ## What is compiled -/

namespace Theme

/-- The modifiers in order, with their styles. -/
def modifierEntries (theme : Theme) : List (String × StyleMap) :=
  theme.modifiers.elim [] OrderedMap.entries

/-- The style maps of a theme: the base styles first, then the modifiers in order. -/
def styleMaps (theme : Theme) : List StyleMap :=
  theme.styles.toList ++ theme.modifiers.elim [] fun modifiers => modifiers.entries.map Prod.snd

/-- What becomes a rule: the base styles, if there are any, and the styles of each modifier in order. -/
def units (theme : Theme) : List Variant :=
  theme.styles.toList.map (⟨theme.className, none, ·⟩) ++
    theme.modifierEntries.map fun m => ⟨theme.className, some m.1, m.2⟩

theorem variants_eq (theme : Theme) : theme.variants = theme.units := by
  unfold variants units modifierEntries
  congr 1
  · cases theme.styles <;> rfl
  · cases theme.modifiers <;> rfl

theorem mem_styleMaps {theme : Theme} {styles : StyleMap} :
    styles ∈ theme.styleMaps ↔
      styles ∈ theme.styles.toList ∨ ∃ m ∈ theme.modifierEntries, m.2 = styles := by
  rw [styleMaps, List.mem_append, modifierEntries]
  cases theme.modifiers <;> simp

theorem registered_units {theme : Theme} (h : ∀ styles ∈ theme.styleMaps, Style.Registered styles) :
    ∀ v ∈ theme.units, Style.Registered v.styles := by
  intro v hv
  rw [units, List.mem_append, List.mem_map, List.mem_map] at hv
  rcases hv with ⟨styles, hs, rfl⟩ | ⟨m, hm, rfl⟩
  · exact h _ (mem_styleMaps.mpr (.inl hs))
  · exact h _ (mem_styleMaps.mpr (.inr ⟨m, hm, rfl⟩))

end Theme

/-- The units of all themes, in the order of the collection. -/
def Collection.units (themes : Collection) : List Variant :=
  themes.entries.flatMap fun e => e.2.units

/-- Every property of every theme has a generator, in the base styles and in all modifiers. -/
def Collection.Registered (themes : Collection) : Prop :=
  ∀ e ∈ themes.entries, ∀ styles ∈ e.2.styleMaps, Style.Registered styles

instance (themes : Collection) : Decidable themes.Registered :=
  inferInstanceAs (Decidable (∀ e ∈ themes.entries, ∀ styles ∈ e.2.styleMaps, Style.Registered styles))

theorem Collection.registered_units {themes : Collection} (h : themes.Registered) :
    ∀ v ∈ themes.units, Style.Registered v.styles := by
  intro v hv
  obtain ⟨e, he, hv⟩ := List.mem_flatMap.mp hv
  exact Theme.registered_units (h e he) v hv

/-- The declarations of a variant whose properties all have a generator. -/
def Variant.declarations (utilities : Utilities) (v : Variant) : Declarations :=
  (v.declare utilities).toOption.getD .empty

def Variant.rule (utilities : Utilities) (naming : Naming) (v : Variant) : String × Declarations :=
  (v.selector utilities naming, v.declarations utilities)

/-! ## Registered styles compile -/

theorem Variant.declare_ok (utilities : Utilities) {v : Variant} (h : Style.Registered v.styles) :
    v.declare utilities = .ok (v.declarations utilities) := by
  have hd : v.declare utilities = .ok (Style.declared utilities v.styles) :=
    Style.declare_eq utilities v.className h
  rw [Variant.declarations, hd]
  rfl

/-! ## The two folds as one -/

section Folds

variable (utilities : Utilities) (naming : Naming)

theorem compileFrom_ok (vs : List Variant) :
    ∀ component, (∀ v ∈ vs, Style.Registered v.styles) →
      Component.compileFrom utilities naming component vs =
        .ok (component.insertAll (vs.map (Variant.rule utilities naming))) := by
  induction vs with
  | nil => intro component _; rfl
  | cons v rest ih =>
    intro component h
    have hd := Variant.declare_ok utilities (h v List.mem_cons_self)
    simp only [Component.compileFrom, hd]
    exact ih _ fun w hw => h w (List.mem_cons_of_mem _ hw)

theorem ofTheme_ok {theme : Theme} (h : ∀ v ∈ theme.units, Style.Registered v.styles) :
    Component.ofTheme utilities naming theme =
      .ok (.ofList (theme.units.map (Variant.rule utilities naming))) := by
  rw [Component.ofTheme, theme.variants_eq]
  exact compileFrom_ok utilities naming theme.units .empty h

/-- A theme compiles to a component of its own, which is then layered over the others; that is the
same as inserting its rules directly. -/
theorem layerFrom_ok (entries : List (String × Theme)) :
    ∀ component, (∀ v ∈ entries.flatMap (fun e => e.2.units), Style.Registered v.styles) →
      Component.layerFrom utilities naming component entries =
        .ok (component.insertAll
          ((entries.flatMap fun e => e.2.units).map (Variant.rule utilities naming))) := by
  induction entries with
  | nil => intro component _; rfl
  | cons e rest ih =>
    intro component h
    obtain ⟨name, theme⟩ := e
    simp only [List.flatMap_cons, List.mem_append] at h
    simp only [Component.layerFrom, ofTheme_ok utilities naming fun v hv => h v (.inl hv)]
    rw [ih _ fun v hv => h v (.inr hv), OrderedMap.merge_ofList, ← OrderedMap.insertAll_append,
      ← List.map_append, List.flatMap_cons]

end Folds

/-! ## A compiled collection -/

/-- A selector stands where the first unit with it stands, and has the declarations of the last unit with
it, in whichever themes the two are. -/
theorem ofCollection_last_variant_wins (tokens : TokenTable) (naming : Naming) (themes : Collection)
    (h : themes.Registered) :
    ∃ component, Component.ofCollection tokens naming themes = .ok component ∧
      component.keys =
        (themes.units.map fun v => naming.selector v.className v.modifier).eraseDups ∧
      ∀ earlier v later, themes.units = earlier ++ v :: later →
        (∀ w ∈ later, naming.selector w.className w.modifier ≠
          naming.selector v.className v.modifier) →
        ∃ declarations, Style.declare tokens v.className v.styles = .ok declarations ∧
          component.get? (naming.selector v.className v.modifier) = some declarations := by
  have hunits := Collection.registered_units h
  refine ⟨.ofList (themes.units.map (Variant.rule tokens naming)),
    layerFrom_ok tokens naming themes.entries .empty hunits, ?_, ?_⟩
  · rw [OrderedMap.keys_ofList, List.map_map]
    rfl
  · intro earlier v later hv hlast
    have hmem : v ∈ themes.units := by rw [hv]; simp
    refine ⟨v.declarations tokens, Variant.declare_ok tokens (hunits v hmem), ?_⟩
    rw [hv, List.map_append, List.map_cons]
    refine OrderedMap.get?_ofList_last _ _ _ _ ?_
    intro e he
    obtain ⟨w, hw, rfl⟩ := List.mem_map.mp he
    exact hlast w hw

/-- Two themes of one class name, the first with a modifier that is empty: three units with the selector
`.card`, and one beside them. -/
def cards : Collection := .ofList [
  ("card",
    (((Theme.named "card").style "display" "flex").modifier "" (.ofList [("float", "left")])).modifier
      "onHover" (.ofList [("paddingTop", "4")])),
  ("grid", (Theme.named ".card").style "display" "grid")]

theorem cards_last_variant_wins :
    cards.Registered ∧
      ∃ component, Component.ofCollection oneRem .kebab cards = .ok component ∧
        component.keys = [".card", ".card--on-hover"] ∧
        component.get? ".card" = some (.ofList [("display", "grid")]) ∧
        component.get? ".card--on-hover" = some (.ofList [("paddingTop", "1rem")]) := by
  have hr : cards.Registered := by decide
  obtain ⟨component, hcompiled, hkeys, hlast⟩ := ofCollection_last_variant_wins oneRem .kebab cards hr
  have hbase : Naming.kebab.selector ".card" none = ".card" := by decide +kernel
  have hmodifier : Naming.kebab.selector "card" (some "onHover") = ".card--on-hover" := by
    decide +kernel
  obtain ⟨declarations, hdeclare, hgrid⟩ := hlast (cards.units.take 3) _ [] rfl (by simp)
  obtain ⟨declarations', hdeclare', hhover⟩ := hlast (cards.units.take 2)
    ⟨"card", some "onHover", .ofList [("paddingTop", "4")]⟩ (cards.units.drop 3) rfl
    (by decide +kernel)
  refine ⟨hr, component, hcompiled, ?_, ?_, ?_⟩
  · rw [hkeys]
    decide +kernel
  · cases hdeclare
    rw [← hbase]
    exact hgrid
  · cases hdeclare'
    rw [← hmodifier]
    exact hhover

end ThemeRules
