import ThemeRules.Proofs.Layering
import ThemeRules.Style.Component

/-!
# ThemeRules.Proofs.DeclaredStyles

What a style map declares. The compiler layers the declarations of one entry after the other over each
other; that comes to inserting all of them one by one (`declare_eq`), so a CSS property stands where the
first entry that sets it puts it, and has the value of the last one (`keys_declared`, `get?_declared`).
Different style properties may set the same CSS property, as an axis and a side do.
-/

namespace ThemeRules

/-- Every property has a generator. -/
def Style.Registered (styles : StyleMap) : Prop :=
  ∀ e ∈ styles.entries, (Generator.find? e.1).isSome = true

instance (styles : StyleMap) : Decidable (Style.Registered styles) :=
  inferInstanceAs (Decidable (∀ e ∈ styles.entries, (Generator.find? e.1).isSome = true))

namespace Style

/-! ## Style entries -/

/-- The CSS properties that a style property sets, in order; none without a generator. -/
def emitted (property : String) : List String :=
  (Generator.find? property).elim [] Generator.emits

def emittedAll (entries : List (String × String)) : List String :=
  entries.flatMap fun e => emitted e.1

def resolved? (utilities : Utilities) (e : String × String) : Option String :=
  (Generator.find? e.1).map fun generator => generator.resolve utilities e.2

/-- What a style entry declares: its value, for each of its CSS properties. -/
def fragment (utilities : Utilities) (e : String × String) : List (String × String) :=
  (Generator.find? e.1).elim [] fun generator =>
    generator.emits.map fun css => (css, generator.resolve utilities e.2)

theorem emittedAll_split (before : List (String × String)) (e : String × String)
    (after : List (String × String)) :
    emittedAll (before ++ e :: after) = emittedAll before ++ (emitted e.1 ++ emittedAll after) := by
  rw [emittedAll, List.flatMap_append, List.flatMap_cons]
  rfl

theorem mem_emittedAll {entries : List (String × String)} {css : String} :
    css ∈ emittedAll entries ↔ ∃ e ∈ entries, css ∈ emitted e.1 := List.mem_flatMap

theorem keys_fragment (utilities : Utilities) (e : String × String) :
    (fragment utilities e).map Prod.fst = emitted e.1 := by
  unfold fragment emitted
  cases Generator.find? e.1 with
  | none => rfl
  | some generator =>
    rw [Option.elim, Option.elim, List.map_map]
    exact List.map_id _

theorem keys_fragments (utilities : Utilities) (entries : List (String × String)) :
    (entries.flatMap (fragment utilities)).map Prod.fst = emittedAll entries := by
  simp only [List.map_flatMap, keys_fragment, emittedAll]

theorem value_of_mem_fragment {utilities : Utilities} {e d : String × String}
    (h : d ∈ fragment utilities e) : resolved? utilities e = some d.2 := by
  unfold fragment at h
  unfold resolved?
  cases hg : Generator.find? e.1 with
  | none => rw [hg] at h; cases h
  | some generator =>
    rw [hg] at h
    obtain ⟨css, -, rfl⟩ := List.mem_map.mp h
    rfl

theorem declareFrom_eq (utilities : Utilities) (className : String) {entries : List (String × String)}
    (h : ∀ e ∈ entries, (Generator.find? e.1).isSome = true) : ∀ declarations,
      declareFrom utilities className declarations entries =
        .ok (declarations.insertAll (entries.flatMap (fragment utilities))) := by
  induction entries with
  | nil => intro declarations; rfl
  | cons e rest ih =>
    intro declarations
    obtain ⟨he, hrest⟩ := List.forall_mem_cons.mp h
    obtain ⟨generator, hg⟩ := Option.isSome_iff_exists.mp he
    have hmerge : declarations.merge (generator.declare utilities e.2) =
        declarations.insertAll (fragment utilities e) := by
      rw [fragment, hg]
      exact OrderedMap.merge_ofList declarations _
    rw [List.flatMap_cons, OrderedMap.insertAll_append, ← hmerge, ← ih hrest]
    simp only [declareFrom, hg]

theorem declareFrom_congr {utilities utilities' : Utilities} (className : String)
    {entries : List (String × String)}
    (h : ∀ e ∈ entries, ∀ generator, Generator.find? e.1 = some generator →
      generator.resolve utilities e.2 = generator.resolve utilities' e.2) :
    ∀ declarations, declareFrom utilities className declarations entries =
      declareFrom utilities' className declarations entries := by
  induction entries with
  | nil => intro declarations; rfl
  | cons e rest ih =>
    intro declarations
    obtain ⟨property, raw⟩ := e
    obtain ⟨he, hrest⟩ := List.forall_mem_cons.mp h
    simp only [declareFrom]
    cases hg : Generator.find? property with
    | none => rfl
    | some generator =>
      simp only [Generator.declare, he generator hg]
      exact ih hrest _

def declared (utilities : Utilities) (styles : StyleMap) : Declarations :=
  .ofList (styles.entries.flatMap (fragment utilities))

section Declared

variable (utilities : Utilities) {styles : StyleMap}

theorem declare_eq (className : String) (h : Registered styles) :
    declare utilities className styles = .ok (declared utilities styles) :=
  declareFrom_eq utilities className h .empty

theorem keys_declared (styles : StyleMap) :
    (declared utilities styles).keys = (emittedAll styles.entries).eraseDups := by
  rw [declared, OrderedMap.keys_ofList, keys_fragments]

/-- A CSS property has the value of the last entry that sets it. -/
theorem get?_declared {earlier later : List (String × String)} {e : String × String}
    (hsplit : styles.entries = earlier ++ e :: later) {css : String} (hcss : css ∈ emitted e.1)
    (hlater : css ∉ emittedAll later) :
    ∃ value, resolved? utilities e = some value ∧ (declared utilities styles).get? css = some value := by
  rw [← keys_fragment utilities] at hcss
  obtain ⟨d, hd, -⟩ := List.mem_map.mp hcss
  have hresolved := value_of_mem_fragment hd
  refine ⟨d.2, hresolved, ?_⟩
  rw [declared, hsplit, List.flatMap_append, List.flatMap_cons]
  refine OrderedMap.get?_ofList_block _ hcss (fun d' hd' _ => ?_) ?_
  · exact Option.some.inj ((value_of_mem_fragment hd').symm.trans hresolved)
  · rwa [keys_fragments]

end Declared
end Style

/-- A style map declares the CSS properties that its entries set, each once, in the order in which they are
first set; and each has the value of the last entry that sets it. -/
theorem declare_last_entry_wins (tokens : TokenTable) (className : String) {styles : StyleMap}
    (h : Style.Registered styles) :
    ∃ declarations, Style.declare tokens className styles = .ok declarations ∧
      declarations.keys = (Style.emittedAll styles.entries).eraseDups ∧
      ∀ earlier property raw later, styles.entries = earlier ++ (property, raw) :: later →
        ∀ generator, Generator.find? property = some generator →
          ∀ css ∈ generator.emits, css ∉ Style.emittedAll later →
            declarations.get? css = some (generator.resolve tokens raw) := by
  refine ⟨_, Style.declare_eq tokens className h, Style.keys_declared tokens styles, ?_⟩
  intro earlier property raw later hsplit generator hg css hcss hlater
  have hemitted : css ∈ Style.emitted property := by rwa [Style.emitted, hg]
  obtain ⟨value, hresolved, hvalue⟩ := Style.get?_declared tokens hsplit hemitted hlater
  rw [Style.resolved?, hg] at hresolved
  rw [hvalue, ← hresolved]
  rfl

/-- A table with one token. -/
def oneRem : TokenTable := ⟨.object [("padding", .object [("4", .string "1rem")])]⟩

/-- Two colours, and sides that are set in a row and by themselves. -/
def crowdedStyles : StyleMap := .ofList [
  ("paddingTop", "2px"), ("textColor", "red"), ("paddingY", "4"), ("placeholderColor", "blue"),
  ("paddingBottom", "3px")]

theorem crowdedStyles_last_entry_wins :
    Style.Registered crowdedStyles ∧
      ∃ declarations, Style.declare oneRem "card" crowdedStyles = .ok declarations ∧
        declarations.keys = ["paddingTop", "color", "paddingBottom"] ∧
        declarations.get? "paddingTop" = some "1rem" ∧ declarations.get? "color" = some "blue" ∧
        declarations.get? "paddingBottom" = some "3px" := by
  have hstyles : Style.Registered crowdedStyles := by decide
  obtain ⟨declarations, hdeclare, hkeys, hvalues⟩ :=
    declare_last_entry_wins oneRem "card" hstyles
  refine ⟨hstyles, declarations, hdeclare, by rw [hkeys]; decide, ?_, ?_, ?_⟩
  · exact hvalues (crowdedStyles.entries.take 2) "paddingY" "4" (crowdedStyles.entries.drop 3)
      (by decide) _ rfl "paddingTop" (by decide) (by decide)
  · exact hvalues (crowdedStyles.entries.take 3) "placeholderColor" "blue"
      (crowdedStyles.entries.drop 4) (by decide) _ rfl "color" (by decide) (by decide)
  · exact hvalues (crowdedStyles.entries.take 4) "paddingBottom" "3px" [] (by decide) _ rfl
      "paddingBottom" (by decide) (by decide)

end ThemeRules
