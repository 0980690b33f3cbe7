import ThemeRules.Json.Printer
import ThemeRules.Proofs.ConfigDocuments
import ThemeRules.Proofs.Layering
import ThemeRules.Theme.Collection

/-!
# ThemeRules.Proofs.ThemeDocuments

Themes read back from the documents they are written as. The writer leaves out what is absent, and the
reader is made for files written by hand: it takes numbers for texts, null for nothing and nothing for
an empty map. So what has to be seen is that none of this leniency touches a written document.

`ReadsBack` says of a reader and a writer that they fit. It is shown for style values and carried
through the maps around them (`ReadsBack.asMap`); an optional field of a theme is read as absent exactly
if it has not been written (`ReadsBack.readFields`). `written_restored` puts this together.
-/

namespace ThemeRules
namespace Yaml

/-- The reader takes a value back from every node that holds the document it is written as. -/
def ReadsBack {α : Type} (read : Reader α) (write : α → Json) : Prop :=
  ∀ {value : α} {node : Node}, node.document? = some (write value) →
    ∀ path : Path, read path node = .ok value

def documentOf? (text : String) : Option Json := (Node.ofText? text).bind Node.document?

section Maps

variable {α : Type} {read : Reader α} {write : α → Json}

/-- What reads back from nodes reads back from texts. -/
theorem ReadsBack.decode (h : ReadsBack read write) {value : α} {text : String}
    (htext : documentOf? text = some (write value)) : decode read text = .ok value := by
  obtain ⟨node, hnode, hdocument⟩ := Option.bind_eq_some_iff.mp htext
  exact (decode_ok_iff hnode value).mpr (h hdocument .root)

theorem ReadsBack.readEntries (h : ReadsBack read write) (path : Path) :
    ∀ {written : List (String × α)} {entries : List (Node × Node)},
      Node.fields? entries = some (written.map fun e => (e.1, write e.2)) →
        ∀ map : OrderedMap α, Node.readEntries read path map entries = .ok (map.insertAll written) := by
  intro written
  induction written with
  | nil =>
    intro entries hfields map
    rw [Node.fields?_eq_nil hfields]
    rfl
  | cons e written ih =>
    intro entries hfields map
    obtain ⟨key, value, rest, rfl, hkey, hvalue, hrest⟩ := Node.fields?_eq_cons hfields
    simp only [Node.readEntries, Node.asText_of_string hkey, h hvalue, ih hrest]
    rfl

theorem ReadsBack.asMap (h : ReadsBack read write) :
    ReadsBack (Node.asMap read) fun map => .object (map.map write).entries := by
  intro map node hnode path
  obtain ⟨entries, htarget, hfields, -⟩ := Node.target_of_object hnode
  simp only [Node.asMap, Node.asEntries, htarget, h.readEntries path hfields]
  exact congrArg Except.ok (OrderedMap.ofList_entries map)

/-- A value that is not written as null is there. -/
theorem ReadsBack.asOption (h : ReadsBack read write) (hnull : ∀ value, write value ≠ .null) :
    ReadsBack (Node.asOption read) fun value => (value.map write).getD .null := by
  intro value node hnode path
  obtain ⟨hdocument, habsent⟩ | ⟨hdocument, habsent⟩ := Config.isAbsent_of_document hnode
  · cases value with
    | none => simp only [Node.asOption, habsent]
    | some value => exact absurd hdocument (hnull value)
  · cases value with
    | none => exact absurd rfl hdocument
    | some value => simp only [Node.asOption, habsent, h hnode]

/-- An optional field that is written exactly if it is present. `set` puts what has been read of it into
the draft. -/
theorem ReadsBack.readFields {σ : Type}
    {field : String → Option (σ → Option (Path → Node → Except Misfit σ))} {path : Path}
    {known : σ → Option (Path → Node → Except Misfit σ)} {name : String}
    (h : ReadsBack read write) (hnull : ∀ value, write value ≠ .null) (set : Option (Option α) → σ)
    (hfield : field name = some known)
    (hknown : known (set none) = some fun path node =>
      (Node.asOption read path node).map fun value => set (some value))
    {value : Option α} {entries : List (Node × Node)}
    (hentries : Node.fields? entries = some (value.map fun v => (name, write v)).toList) :
    Node.readFields field path (set none) entries = .ok (set (value.map some)) := by
  cases value with
  | none =>
    rw [Node.fields?_eq_nil hentries]
    rfl
  | some value =>
    obtain ⟨key, node, rest, rfl, hkey, hnode, hrest⟩ := Node.fields?_eq_cons hentries
    obtain rfl := Node.fields?_eq_nil hrest
    have hpresent : node.document? = some (((some value).map write).getD .null) := hnode
    rw [Node.readFields_known hkey hfield hknown, h.asOption hnull hpresent]
    rfl

end Maps

end Yaml

open Yaml

theorem Json.isTextual_map {α : Type} {write : α → Json}
    (h : ∀ value, (write value).isTextual = true) (map : OrderedMap α) :
    (Json.object (map.map write).entries).isTextual = true := by
  rw [isTextual_object, Bool.and_eq_true, List.all_eq_true, decide_eq_true_eq]
  refine ⟨fun field hfield => ?_, (map.map write).nodup⟩
  obtain ⟨e, -, rfl⟩ := List.mem_map.mp hfield
  exact h e.2

/-! ## Themes -/

namespace Theme

theorem readsBack_value : ReadsBack readValue .string := by
  intro value node hnode path
  obtain ⟨isPlain, htarget, hmeaning⟩ := Node.scalar_of_string hnode
  have htag : Node.variant? none = none := rfl
  simp only [readValue, htarget, htag, hmeaning]
  rfl

theorem readsBack_styles : ReadsBack readStyles Json.ofStrings :=
  readsBack_value.asMap

theorem readsBack_modifiers : ReadsBack (Node.asMap readStyles) fun modifiers =>
    .object (modifiers.map Json.ofStrings).entries :=
  readsBack_styles.asMap

/-- The document has the class name for its first field, and then those that are present. -/
theorem readsBack : ReadsBack read toJson := by
  intro theme node hnode path
  obtain ⟨entries, htarget, hfields, -⟩ := Node.target_of_object hnode
  obtain ⟨before, third, rfl, hbefore, hthird⟩ := Node.fields?_append hfields
  obtain ⟨first, second, rfl, hfirst, hsecond⟩ := Node.fields?_append hbefore
  obtain ⟨key, value, rest, rfl, hkey, hvalue, hrest⟩ := Node.fields?_eq_cons hfirst
  obtain rfl := Node.fields?_eq_nil hrest
  have hclassName : Node.readFields Draft.field path .start [(key, value)] =
      .ok ⟨some theme.className, none, none⟩ := by
    rw [Node.readFields_known hkey rfl rfl, Node.asText_of_string hvalue]
    rfl
  have hstyles : Node.readFields Draft.field path ⟨some theme.className, none, none⟩ second =
      .ok ⟨some theme.className, theme.styles.map some, none⟩ :=
    readsBack_styles.readFields nofun (fun styles => Draft.mk _ styles none) rfl rfl
      hsecond
  have hmodifiers : Node.readFields Draft.field path
      ⟨some theme.className, theme.styles.map some, none⟩ third =
        .ok ⟨some theme.className, theme.styles.map some, theme.modifiers.map some⟩ :=
    readsBack_modifiers.readFields nofun
      (fun modifiers => Draft.mk _ _ modifiers) rfl rfl hthird
  simp only [read, Node.asEntries, htarget, Node.readFields_append, hclassName, hstyles,
    hmodifiers, Draft.finish]
  cases theme with
  | mk className styles modifiers => cases styles <;> cases modifiers <;> rfl

theorem isTextual_toJson (theme : Theme) : theme.toJson.isTextual = true := by
  have htext : ∀ s : String, (Json.string s).isTextual = true := fun _ => rfl
  have hstyles : ∀ styles : StyleMap, (Json.ofStrings styles).isTextual = true :=
    Json.isTextual_map htext
  have hmodifiers : ∀ modifiers : OrderedMap StyleMap,
      (Json.object (modifiers.map Json.ofStrings).entries).isTextual = true :=
    Json.isTextual_map hstyles
  rw [toJson, Json.isTextual_object]
  cases theme with
  | mk className styles modifiers =>
    cases styles <;> cases modifiers <;> simp [htext, hstyles, hmodifiers]

end Theme

namespace Collection

theorem readsBack : ReadsBack read toJson := Theme.readsBack.asMap

/-- A collection is read back from every node and from every text that holds the document it is written
as, and there is such a node. -/
theorem written_restored (themes : Collection) :
    themes.toJson.toNode.document? = some themes.toJson ∧
      (∀ node : Node, node.document? = some themes.toJson →
        ∀ path : Path, read path node = .ok themes) ∧
      ∀ text : String, documentOf? text = some themes.toJson → ofYaml text = .ok themes :=
  ⟨Json.document?_toNode (Json.isTextual_map Theme.isTextual_toJson themes),
    fun _ hnode path => readsBack hnode path, fun _ htext => readsBack.decode htext⟩

/-- Texts that look like something else, and fields that are absent, empty or hold what is empty. -/
def oddCards : Collection :=
  .ofList [("~", ⟨"4", some (.ofList [("d", "null")]), some .empty⟩),
    ("", ⟨"", none, some (.ofList [("hover", .empty)])⟩)]

theorem documentOf?_oddCards :
    documentOf? oddCards.toJson.compact = some oddCards.toJson := by cbv

theorem oddCards_restored :
    ofYaml oddCards.toJson.compact = .ok oddCards ∧
      read .root oddCards.toJson.toNode = .ok oddCards := by
  obtain ⟨hwritten, hnode, htext⟩ := written_restored oddCards
  exact ⟨htext _ documentOf?_oddCards, hnode _ hwritten .root⟩

end Collection
end ThemeRules
