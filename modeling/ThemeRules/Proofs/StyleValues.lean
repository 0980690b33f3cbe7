import Mathlib
import ThemeRules.Proofs.WrittenMaps
import ThemeRules.Theme.Definition

/-!
# ThemeRules.Proofs.StyleValues

Which values the styles of a theme can have. A text, a boolean or a number is stored as the text that
shows it, where its key is first seen; one value that is null or a collection makes the whole theme fail,
and so does an integer that 64 bits do not hold. This is shown for a value (`Theme.takes_value`,
`Theme.refuses_value`) and carried through the maps and fields around it (`Theme.read_written`).
-/

namespace ThemeRules

open Yaml

/-! ## Themes as they are written -/

/-- A theme as it is written. -/
structure WrittenTheme where
  className : String
  styles : Option (List (String × Node))
  modifiers : Option (List (String × List (String × Node)))

namespace WrittenTheme

/-- The theme of a node. The fields come in any order, and others are passed over. -/
def ofNode? (node : Node) : Option WrittenTheme :=
  match node.pairs? with
  | none => none
  | some fields =>
    match Node.required? Node.text? (Node.valuesOf "className" fields),
      Node.optional? Node.pairs? (Node.valuesOf "styles" fields),
      Node.optional? (Node.entries? Node.pairs?) (Node.valuesOf "modifiers" fields) with
    | some className, some styles, some modifiers => some ⟨className, styles, modifiers⟩
    | _, _, _ => none

/-- The values of the styles and of every modifier. -/
def values (written : WrittenTheme) : List Node :=
  (written.styles.getD [] ++ (written.modifiers.getD []).flatMap Prod.snd).map Prod.snd

end WrittenTheme

/-! ## Values -/

/-- The text that shows a text, a boolean or a number. -/
def Json.display? : Json → Option String
  | .string s => some s
  | .bool true => some "true"
  | .bool false => some "false"
  | .int n => some (toString n)
  | .double x => some x.plain
  | .null | .array _ | .object _ => none

/-- The document that a scalar holds, also one with the tag of a boolean, a number or null. -/
def Yaml.Node.scalar? (node : Node) : Option Json :=
  match node.target with
  | .scalar tag isPlain s =>
    if (Node.variant? tag).isSome then none
    else
      match Node.scalarValue tag isPlain s with
      | .ok value => some (.ofMeaning value)
      | .error _ => none
  | _ => none

/-- A style value that is shown by this text; an integer is shown only if 64 bits hold it. -/
def Shows (value : Node) (text : String) : Prop :=
  ∃ document, value.scalar? = some document ∧ document.isNarrow = true ∧
    document.display? = some text

theorem Shows.unique {value : Node} {text text' : String} (h : Shows value text)
    (h' : Shows value text') : text = text' := by
  obtain ⟨document, hscalar, -, hdisplay⟩ := h
  obtain ⟨document', hscalar', -, hdisplay'⟩ := h'
  obtain rfl := Option.some.inj (hscalar.symm.trans hscalar')
  exact Option.some.inj (hdisplay.symm.trans hdisplay')

theorem Stores.get?_of_shows {pairs : List (String × Node)} {map : OrderedMap String}
    (h : Stores Shows pairs map) (key : String) {value : Node}
    (hkey : pairs.reverse.lookup key = some value) {text : String} (hshows : Shows value text) :
    map.get? key = some text := by
  obtain ⟨found, hget, hfound⟩ := h.get?_of_lookup key hkey
  rw [hget, hfound.unique hshows]

/-- Null, an integer that 64 bits do not hold, or a collection. -/
inductive IsUnfit (value : Node) : Prop where
  | null : value.scalar? = some .null → IsUnfit value
  | wide {n : Int} : value.scalar? = some (.int n) → (Json.int n).isNarrow = false → IsUnfit value
  | sequence {tag : Option String} {items : List Node} : value.target = .sequence tag items →
      IsUnfit value
  | mapping {tag : Option String} {entries : List (Node × Node)} :
      value.target = .mapping tag entries → IsUnfit value

namespace Yaml.Node

/-- With a tag, too, an integer is wide exactly if 64 bits do not hold it. -/
theorem meaningOf_scalarValue {tag : Option String} {isPlain : Bool} {s : String} {value : Scalar}
    (h : scalarValue tag isPlain s = .ok value) : MeaningOf s value := by
  have hplain : ∀ b : Bool, MeaningOf s (if b then .ofPlain s else .text s) := by
    intro b
    cases b with
    | false => rfl
    | true => exact meaningOf_ofPlain s
  unfold scalarValue at h
  dsimp only at h
  split at h
  · cases h
    exact hplain isPlain
  · split at h
    · cases hb : Scalar.bool? s.toList <;> rw [hb] at h <;> cases h
      trivial
    · split at h
      · cases hn : Scalar.int? s.toList with
        | none => rw [hn] at h; cases h
        | some integer =>
          rw [hn] at h
          cases h
          obtain ⟨n, ⟨rfl, hnarrow⟩ | ⟨rfl, hwide⟩⟩ := int?_cases hn
          · exact hnarrow
          · exact hwide
      · split at h
        · cases hx : Scalar.double? s.toList <;> rw [hx] at h <;> cases h
          trivial
        · split at h
          · cases hnull : Scalar.isNullWord s.toList <;> rw [hnull] at h <;> cases h
            trivial
          · cases h
            exact hplain _

/-- A scalar by its meaning. -/
theorem scalar?_eq_some {node : Node} {document : Json} (h : node.scalar? = some document) :
    ∃ tag isPlain s value, node.target = .scalar tag isPlain s ∧ (variant? tag).isSome = false ∧
      scalarValue tag isPlain s = .ok value ∧ document = .ofMeaning value := by
  unfold scalar? at h
  split at h
  · rename_i tag isPlain s htarget
    split at h
    · cases h
    · rename_i htag
      split at h
      · rename_i value hvalue
        cases h
        exact ⟨tag, isPlain, s, value, htarget, Bool.eq_false_iff.mpr htag, hvalue, rfl⟩
      · cases h
  · cases h

theorem scalar?_plain {s : String} {value : Scalar} (h : Scalar.ofPlain s = value) :
    (Node.scalar none true s).scalar? = some (.ofMeaning value) :=
  h ▸ rfl

end Yaml.Node

namespace Theme

theorem takes_value {value : Node} {text : String} (h : Shows value text) :
    Takes readValue value text := by
  intro path
  obtain ⟨document, hscalar, hnarrow, hdisplay⟩ := h
  obtain ⟨tag, isPlain, s, meaning, htarget, htag, hmeaning, rfl⟩ := Node.scalar?_eq_some hscalar
  have hbits := Node.meaningOf_scalarValue hmeaning
  simp only [readValue, htarget, htag, hmeaning]
  cases meaning with
  | null => cases hdisplay
  | bool b => cases b <;> cases hdisplay <;> rfl
  | int n => cases hdisplay; rfl
  | wide n =>
    have hwide : (Json.int n).isNarrow = false := hbits
    rw [Json.ofMeaning, hwide] at hnarrow
    cases hnarrow
  | double x => cases hdisplay; rfl
  | text t => cases hdisplay; rfl

theorem refuses_value {value : Node} (h : IsUnfit value) : Refuses readValue value := by
  intro path
  cases h with
  | null hscalar =>
    obtain ⟨tag, isPlain, s, meaning, htarget, htag, hmeaning, hnull⟩ :=
      Node.scalar?_eq_some hscalar
    simp only [readValue, htarget, htag, hmeaning]
    cases meaning <;> cases hnull
    exact ⟨_, rfl⟩
  | wide hscalar hwide =>
    obtain ⟨tag, isPlain, s, meaning, htarget, htag, hmeaning, hint⟩ :=
      Node.scalar?_eq_some hscalar
    have hbits := Node.meaningOf_scalarValue hmeaning
    simp only [readValue, htarget, htag, hmeaning]
    cases meaning with
    | int =>
      cases hint
      have hnarrow : (Json.int _).isNarrow = true := hbits
      rw [hnarrow] at hwide
      cases hwide
    | wide => exact ⟨_, rfl⟩
    | null | bool | double | text => cases hint
  | sequence htarget =>
    simp only [readValue, htarget]
    split <;> exact ⟨_, rfl⟩
  | mapping htarget =>
    simp only [readValue, htarget]
    split <;> exact ⟨_, rfl⟩

theorem takes_values {pairs : List (String × Node)} (h : ∀ e ∈ pairs, ∃ text, Shows e.2 text) :
    ∀ e ∈ pairs, ∀ value, some value = some e.2 →
      ∃ text, Takes readValue value text ∧ Shows e.2 text := by
  intro e he value hvalue
  obtain rfl := Option.some.inj hvalue
  obtain ⟨text, htext⟩ := h e he
  exact ⟨text, takes_value htext, htext⟩

theorem refuses_values {e : String × Node} (h : IsUnfit e.2) :
    ∀ value, some value = some e.2 → Refuses readValue value := by
  intro value hvalue
  obtain rfl := Option.some.inj hvalue
  exact refuses_value h

/-! ## Themes -/

namespace Draft

theorem slot_className : Node.IsSlot field "className" (Node.asText "a string") className
    fun draft value => { draft with className := some value } :=
  ⟨readClassName, rfl, fun _ => rfl⟩

theorem slot_styles : Node.IsSlot field "styles" (Node.asOption Theme.readStyles) styles
    fun draft value => { draft with styles := some value } :=
  ⟨readStyles, rfl, fun _ => rfl⟩

theorem slot_modifiers : Node.IsSlot field "modifiers"
    (Node.asOption (Node.asMap Theme.readStyles)) modifiers
    fun draft value => { draft with modifiers := some value } :=
  ⟨readModifiers, rfl, fun _ => rfl⟩

/-- The fields are read in any order. The induction is on the entries: one that fills a field leaves none
to come for it. -/
theorem readFields_fills {entries : List (Node × Node)} {fields : List (String × Node)}
    (hentries : List.Forall₂ (fun e w => Node.pair? some e = some w) entries fields)
    {final : Draft} (path : Path) :
    ∀ draft : Draft,
      Node.Fills (Node.asText "a string") draft.className (Node.valuesOf "className" fields)
        final.className →
      Node.Fills (Node.asOption Theme.readStyles) draft.styles (Node.valuesOf "styles" fields)
        final.styles →
      Node.Fills (Node.asOption (Node.asMap Theme.readStyles)) draft.modifiers
        (Node.valuesOf "modifiers" fields) final.modifiers →
      Node.readFields field path draft entries = .ok final := by
  induction hentries with
  | nil =>
    rintro ⟨className, styles, modifiers⟩ hclassName hstyles hmodifiers
    cases hclassName
    cases hstyles
    cases hmodifiers
    rfl
  | @cons entry e _ rest hentry _ ih =>
    intro draft hclassName hstyles hmodifiers
    obtain ⟨key, node⟩ := entry
    obtain ⟨name, _⟩ := e
    obtain ⟨hkey, hnode⟩ := Node.pair?_eq_some hentry
    obtain rfl := Option.some.inj hnode
    by_cases hfirst : name = "className"
    · subst hfirst
      rw [Node.valuesOf_cons_self] at hclassName
      rw [Node.valuesOf_cons_of_ne (by decide)] at hstyles hmodifiers
      obtain ⟨value, hfills, hread⟩ := Node.readFields_fill slot_className hkey hclassName
      rw [hread]
      exact ih _ hfills hstyles hmodifiers
    by_cases hsecond : name = "styles"
    · subst hsecond
      rw [Node.valuesOf_cons_self] at hstyles
      rw [Node.valuesOf_cons_of_ne (by decide)] at hclassName hmodifiers
      obtain ⟨value, hfills, hread⟩ := Node.readFields_fill slot_styles hkey hstyles
      rw [hread]
      exact ih _ hclassName hfills hmodifiers
    by_cases hthird : name = "modifiers"
    · subst hthird
      rw [Node.valuesOf_cons_self] at hmodifiers
      rw [Node.valuesOf_cons_of_ne (by decide)] at hclassName hstyles
      obtain ⟨value, hfills, hread⟩ := Node.readFields_fill slot_modifiers hkey hmodifiers
      rw [hread]
      exact ih _ hclassName hstyles hfills
    · have hfield : field name = none := by
        rw [field, if_neg hfirst, if_neg hsecond, if_neg hthird]
      rw [Node.valuesOf_cons_of_ne hfirst] at hclassName
      rw [Node.valuesOf_cons_of_ne hsecond] at hstyles
      rw [Node.valuesOf_cons_of_ne hthird] at hmodifiers
      rw [Node.readFields_unknown hkey hfield]
      exact ih draft hclassName hstyles hmodifiers

end Draft

theorem parts_of_written {node : Node} {written : WrittenTheme}
    (h : WrittenTheme.ofNode? node = some written) :
    ∃ fields, node.pairs? = some fields ∧
      Node.required? Node.text? (Node.valuesOf "className" fields) = some written.className ∧
      Node.optional? Node.pairs? (Node.valuesOf "styles" fields) = some written.styles ∧
      Node.optional? (Node.entries? Node.pairs?) (Node.valuesOf "modifiers" fields) =
        some written.modifiers := by
  unfold WrittenTheme.ofNode? at h
  split at h
  · cases h
  · rename_i fields hfields
    split at h
    · rename_i hclassName hstyles hmodifiers
      cases h
      exact ⟨fields, hfields, hclassName, hstyles, hmodifiers⟩
    · cases h

theorem takes_written {node : Node} {written : WrittenTheme}
    (h : WrittenTheme.ofNode? node = some written)
    (hvalues : ∀ value ∈ written.values, ∃ text, Shows value text) :
    ∃ theme, Takes read node theme ∧ theme.className = written.className ∧
      Option.Rel (Stores Shows) written.styles theme.styles ∧
      Option.Rel (Stores (Stores Shows)) written.modifiers theme.modifiers := by
  obtain ⟨fields, hfields, hclassName, hstyles, hmodifiers⟩ := parts_of_written h
  obtain ⟨entries, hentries, hheld⟩ := Node.asEntries_of_entries? hfields
  have hbase : ∀ e ∈ written.styles.getD [], ∃ text, Shows e.2 text := fun e he =>
    hvalues e.2 (List.mem_map_of_mem (List.mem_append_left _ he))
  have hinner : ∀ m ∈ written.modifiers.getD [], ∀ e ∈ m.2, ∃ text, Shows e.2 text :=
    fun m hm e he => hvalues e.2
      (List.mem_map_of_mem (List.mem_append_right _ (List.mem_flatMap.mpr ⟨m, hm, he⟩)))
  obtain ⟨styles, hfillsStyles, hstoresStyles⟩ := Node.fills_optional hstyles (takes_values hbase)
  obtain ⟨modifiers, hfillsModifiers, hstoresModifiers⟩ :=
    Node.fills_optional hmodifiers fun m hm value hvalue =>
      Node.takes_asMap hvalue (takes_values (hinner m hm))
  have hfillsName := Node.fills_required (fun node s hs => Node.asText_of_text? hs "a string")
    hclassName
  refine ⟨⟨written.className, styles.join, modifiers.join⟩, fun path => ?_, rfl, hstoresStyles,
    hstoresModifiers⟩
  have hread : Node.readFields Draft.field path .start entries =
      .ok ⟨some written.className, styles, modifiers⟩ :=
    Draft.readFields_fills hheld path .start hfillsName hfillsStyles hfillsModifiers
  simp only [read, hentries "struct ThemeDefinition" path, hread]
  rfl

/-- A theme is refused if one of its fields is. -/
theorem refuses_of_field {α : Type} {name : String} {reader : Reader α} {get : Draft → Option α}
    {set : Draft → α → Draft} (hslot : Node.IsSlot Draft.field name reader get set) {node : Node}
    {fields : List (String × Node)} (hfields : node.pairs? = some fields) {value : Node}
    (hvalue : value ∈ Node.valuesOf name fields) (h : Refuses reader value) : Refuses read node := by
  intro path
  obtain ⟨entries, hentries, hheld⟩ := Node.asEntries_of_entries? hfields
  obtain ⟨misfit, hmisfit⟩ :=
    Node.readFields_refuses hslot hheld (Node.mem_of_valuesOf hvalue) h path .start
  exact ⟨misfit, by simp only [read, hentries "struct ThemeDefinition" path, hmisfit]⟩

theorem refuses_written {node : Node} {written : WrittenTheme}
    (h : WrittenTheme.ofNode? node = some written) {value : Node} (hvalue : value ∈ written.values)
    (hunfit : IsUnfit value) : Refuses read node := by
  obtain ⟨fields, hfields, -, hstyles, hmodifiers⟩ := parts_of_written h
  obtain ⟨e, he, rfl⟩ := List.mem_map.mp hvalue
  rcases List.mem_append.mp he with hbase | hinner
  · obtain ⟨styles, hmem, hrefuses⟩ :=
      Node.refuses_optional hstyles hbase (refuses_values hunfit)
    exact refuses_of_field Draft.slot_styles hfields hmem hrefuses
  · obtain ⟨modifier, hmodifier, hinner⟩ := List.mem_flatMap.mp hinner
    obtain ⟨modifiers, hmem, hrefuses⟩ := Node.refuses_optional hmodifiers hmodifier
      fun styles hheld => Node.refuses_asMap hheld hinner (refuses_values hunfit)
    exact refuses_of_field Draft.slot_modifiers hfields hmem hrefuses

/-- A theme whose values are texts, booleans and numbers is read, from its node and from its text, and
every value is stored as the text that shows it, under its key. A theme with null, a collection or an
integer of more than 64 bits among its values is refused. -/
theorem read_written {node : Node} {written : WrittenTheme}
    (h : WrittenTheme.ofNode? node = some written) :
    ((∀ value ∈ written.values, ∃ text, Shows value text) →
      ∃ theme, Takes read node theme ∧
        (∀ text, Node.ofText? text = some node → decode read text = .ok theme) ∧
        theme.className = written.className ∧
        Option.Rel (Stores Shows) written.styles theme.styles ∧
        Option.Rel (Stores (Stores Shows)) written.modifiers theme.modifiers) ∧
    ((∃ value ∈ written.values, IsUnfit value) →
      Refuses read node ∧
        ∀ text, Node.ofText? text = some node → ∀ theme, decode read text ≠ .ok theme) := by
  constructor
  · intro hvalues
    obtain ⟨theme, htakes, hstored⟩ := takes_written h hvalues
    exact ⟨theme, htakes, fun text htext => (decode_ok_iff htext theme).mpr (htakes .root), hstored⟩
  · rintro ⟨value, hvalue, hunfit⟩
    have hrefuses := refuses_written h hvalue hunfit
    exact ⟨hrefuses, fun text htext => hrefuses.decode htext⟩

/-! ## A card with a value written twice -/

def cardStyles (first last : String) : List (String × Node) :=
  [("top", .scalar none true first), ("top", .scalar none true last)]

def cardHover (value : String) : List (String × Node) := [("top", .scalar none true value)]

def writtenCard (first last hover : String) : WrittenTheme :=
  ⟨"card", some (cardStyles first last), some [("hover", cardHover hover)]⟩

def cardNode (first last hover : String) : Node :=
  let plain := Node.scalar none true
  let styles := [(plain "top", plain first), (plain "top", plain last)]
  let modifiers := [(plain "hover", .mapping none [(plain "top", plain hover)])]
  .mapping none [(plain "styles", .mapping none styles),
    (plain "modifiers", .mapping none modifiers), (plain "className", plain "card")]

theorem ofNode?_card (first last hover : String) :
    WrittenTheme.ofNode? (cardNode first last hover) = some (writtenCard first last hover) := by
  have hpairs : ∃ styles modifiers, (cardNode first last hover).pairs? =
      some [("styles", .mapping none styles), ("modifiers", .mapping none modifiers),
        ("className", .scalar none true "card")] ∧
      (Node.mapping none styles).pairs? = some (cardStyles first last) ∧
      (Node.mapping none modifiers).entries? Node.pairs? = some [("hover", cardHover hover)] :=
    ⟨_, _, rfl, rfl, rfl⟩
  obtain ⟨styles, modifiers, hfields, hstyles, hmodifiers⟩ := hpairs
  simp [WrittenTheme.ofNode?, hfields, Node.valuesOf, Node.required?, Node.text?, Node.target,
    Node.optional?_mapping, hstyles, hmodifiers, writtenCard]

theorem forall_values_card {P : Node → Prop} {first last hover : String}
    (hfirst : P (.scalar none true first)) (hlast : P (.scalar none true last))
    (hhover : P (.scalar none true hover)) : ∀ node ∈ (writtenCard first last hover).values, P node :=
  List.forall_mem_cons.mpr
    ⟨hfirst, List.forall_mem_cons.mpr ⟨hlast, List.forall_mem_singleton.mpr hhover⟩⟩

theorem ofPlain_half : Scalar.ofPlain "0.50" = .double (.ofDecimal false 50 (-2)) := by
  decide +kernel

theorem ofPlain_true : Scalar.ofPlain "true" = .bool true := by decide +kernel

theorem shows_half : Shows (.scalar none true "0.50") "0.5" :=
  ⟨_, Node.scalar?_plain ofPlain_half, rfl, by decide +kernel⟩

theorem shows_true : Shows (.scalar none true "true") "true" :=
  ⟨_, Node.scalar?_plain ofPlain_true, rfl, rfl⟩

theorem shows_minusFour : Shows (.scalar none true "-4") "-4" := by
  have hplain : Scalar.ofPlain "-4" = .int (-4) := by decide +kernel
  exact ⟨_, Node.scalar?_plain hplain, by decide, rfl⟩

def cardText : String :=
  "\x7bstyles: \x7btop: true, top: -4\x7d, " ++
    "modifiers: \x7bhover: \x7btop: 0.50\x7d\x7d, className: card\x7d"

/-- The card is read, with a number written last and one that is shown otherwise than it is written; and it
is refused with null. -/
theorem card_read :
    (∃ theme styles modifiers hover, decode read cardText = .ok theme ∧ theme.className = "card" ∧
      theme.styles = some styles ∧ styles.keys = ["top"] ∧ styles.get? "top" = some "-4" ∧
      theme.modifiers = some modifiers ∧ modifiers.keys = ["hover"] ∧
      modifiers.get? "hover" = some hover ∧ hover.get? "top" = some "0.5") ∧
    Refuses read (cardNode "true" "~" "0.50") := by
  have hcontent : Node.ofText? cardText = some (cardNode "true" "-4" "0.50") := by cbv
  have hshown : ∀ value ∈ (writtenCard "true" "-4" "0.50").values, ∃ text, Shows value text :=
    forall_values_card ⟨_, shows_true⟩ ⟨_, shows_minusFour⟩ ⟨_, shows_half⟩
  have hnull : IsUnfit (.scalar none true "~") := .null (by rfl)
  have hvalue : Node.scalar none true "~" ∈ (writtenCard "true" "~" "0.50").values :=
    .tail _ (.head _)
  refine ⟨?_, ((read_written (ofNode?_card "true" "~" "0.50")).2 ⟨_, hvalue, hnull⟩).1⟩
  obtain ⟨theme, -, hread, hname, hstyles, hmodifiers⟩ :=
    (read_written (ofNode?_card "true" "-4" "0.50")).1 hshown
  obtain ⟨styles, hsome, hstores⟩ := exists_of_rel_some hstyles
  obtain ⟨modifiers, hmodifiersSome, hmodifiersStore⟩ := exists_of_rel_some hmodifiers
  obtain ⟨hover, hhover, hhoverStores⟩ := hmodifiersStore.get?_of_lookup "hover" rfl
  refine ⟨theme, styles, modifiers, hover, hread _ hcontent, hname, hsome, ?_, ?_, hmodifiersSome,
    ?_, hhover, ?_⟩
  · exact hstores.keys.trans (by decide)
  · exact hstores.get?_of_shows "top" rfl shows_minusFour
  · exact hmodifiersStore.keys.trans (by decide)
  · exact hhoverStores.get?_of_shows "top" rfl shows_half

def wideText : String :=
  "\x7bstyles: \x7btop: 0.50, top: 18446744073709551616\x7d, " ++
    "modifiers: \x7bhover: \x7btop: true\x7d\x7d, className: card\x7d"

def wideCard : WrittenTheme := writtenCard "0.50" "18446744073709551616" "true"

/-- Every value of the card is a number or a boolean, but 64 bits do not hold one of the numbers. -/
theorem wideValue_refused :
    ∃ node, Node.ofText? wideText = some node ∧ WrittenTheme.ofNode? node = some wideCard ∧
      (∀ value ∈ wideCard.values, ∃ document text,
        value.scalar? = some document ∧ document.display? = some text) ∧
      ∀ theme, decode read wideText ≠ .ok theme := by
  have hcontent : Node.ofText? wideText =
      some (cardNode "0.50" "18446744073709551616" "true") := by cbv
  have hlast : Scalar.ofPlain "18446744073709551616" = .wide 18446744073709551616 := by
    decide +kernel
  have hwide : IsUnfit (.scalar none true "18446744073709551616") :=
    .wide (Node.scalar?_plain hlast) (by decide)
  have hvalue : Node.scalar none true "18446744073709551616" ∈ wideCard.values :=
    .tail _ (.head _)
  refine ⟨_, hcontent, ofNode?_card _ _ _, ?_,
    (refuses_written (ofNode?_card _ _ _) hvalue hwide).decode hcontent⟩
  exact forall_values_card ⟨_, "0.5", Node.scalar?_plain ofPlain_half, by decide +kernel⟩
    ⟨_, "18446744073709551616", Node.scalar?_plain hlast, rfl⟩
    ⟨_, "true", Node.scalar?_plain ofPlain_true, rfl⟩

end Theme
end ThemeRules
