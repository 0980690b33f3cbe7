import Mathlib
import ThemeRules.Proofs.PresetDocuments

/-!
# ThemeRules.Proofs.ConfigDocuments

Which documents hold a configuration. Its other fields are read as if the presets were not there
(`readFields_setPresets`), so the presets are those that their field stands for, and whatever stands for
none makes the configuration fail (`read_presets_iff`). What is written of a configuration reads back
(`read_toJson`).
-/

namespace ThemeRules

open Yaml

/-! ## Entries and fields -/

namespace Yaml.Node

/-- The key of the entry is this text. -/
def isKey (name : String) (entry : Node × Node) : Bool :=
  match entry.1.target with
  | .scalar _ _ s => s == name
  | _ => false

/-- The node without the entries of one key. -/
def without (name : String) (node : Node) : Node :=
  match node.target with
  | .mapping tag entries => .mapping tag (entries.filter fun e => !isKey name e)
  | other => other

theorem isKey_of_document {key : Node} {s : String} (h : key.document? = some (.string s))
    (name : String) (value : Node) : isKey name (key, value) = (s == name) := by
  obtain ⟨isPlain, ht⟩ := target_of_string h
  rw [isKey, ht]

theorem isKey_of_asText {key value : Node} {expected name : String} {path : Path}
    (hkey : isKey name (key, value) = false) : key.asText expected path ≠ .ok name := by
  intro h
  unfold asText at h
  unfold isKey at hkey
  split at h
  · rename_i htarget
    cases h
    simp [htarget] at hkey
  · cases h

theorem isKey_of_not_mem {name : String} : ∀ {entries : List (Node × Node)}
    {fields : List (String × Json)}, fields? entries = some fields →
      name ∉ fields.map Prod.fst → ∀ e ∈ entries, isKey name e = false
  | [], _, _, _, e, he => by cases he
  | (key, value) :: rest, _, h, hname, e, he => by
    obtain ⟨s, document, fields, hkey, -, hrest, rfl⟩ := fields?_cons h
    rw [List.map_cons, List.mem_cons, not_or] at hname
    rcases List.mem_cons.mp he with rfl | he
    · rw [isKey_of_document hkey]
      exact beq_false_of_ne (Ne.symm hname.1)
    · exact isKey_of_not_mem hrest hname.2 e he

theorem filter_of_isKey {name : String} {entries : List (Node × Node)}
    (h : ∀ e ∈ entries, isKey name e = false) :
    (entries.filter fun e => !isKey name e) = entries := by
  rw [List.filter_eq_self]
  intro e he
  rw [h e he]
  rfl

section Fields

variable {σ : Type} {field : String → Option (σ → Option (Path → Node → Except Misfit σ))}
  {path : Path}

theorem readFields_append (first second : List (Node × Node)) :
    ∀ draft : σ, readFields field path draft (first ++ second) =
      match readFields field path draft first with
      | .error misfit => .error misfit
      | .ok draft => readFields field path draft second := by
  induction first with
  | nil => intro draft; rfl
  | cons e rest ih =>
    obtain ⟨key, value⟩ := e
    intro draft
    simp only [List.cons_append, readFields, ih]
    cases key.asText "field identifier" path with
    | error misfit => rfl
    | ok name =>
      dsimp only
      cases field name with
      | none => rfl
      | some known =>
        dsimp only
        cases known draft with
        | none => rfl
        | some read =>
          dsimp only
          cases read (valuePath path key) value <;> rfl

/-- A known field that has not been read before. -/
theorem readFields_known {key value : Node} {name : String} {draft : σ}
    {known : σ → Option (Path → Node → Except Misfit σ)} {read : Path → Node → Except Misfit σ}
    (hkey : key.document? = some (.string name)) (hfield : field name = some known)
    (hknown : known draft = some read) (rest : List (Node × Node)) :
    readFields field path draft ((key, value) :: rest) =
      match read (valuePath path key) value with
      | .error misfit => .error (misfit.within path)
      | .ok draft => readFields field path draft rest := by
  cases hread : read (valuePath path key) value <;>
    simp only [readFields, asText_of_string hkey, hfield, hknown, hread]

end Fields

end Yaml.Node

/-! ## The other fields -/

namespace Config
namespace Draft

def setPresets (draft : Draft) (presets : Option (List PresetSelector)) : Draft :=
  { draft with presets }

theorem once_map {α : Type} (current : Option α) (read : Reader α) (set : α → Draft)
    (presets : Option (List PresetSelector)) :
    once current read (fun x => (set x).setPresets presets) =
      (once current read set).map fun readInto path node =>
        (readInto path node).map (·.setPresets presets) := by
  unfold once
  split
  · rfl
  · refine congrArg some (funext fun path => funext fun node => ?_)
    dsimp only
    cases read path node <;> rfl

/-- Another field is read in the same way, whatever presets have been read. -/
theorem field_setPresets {name : String} (hname : name ≠ "presets")
    {known : Draft → Option (Path → Node → Except Misfit Draft)} (h : field name = some known)
    (draft : Draft) (presets : Option (List PresetSelector)) :
    known (draft.setPresets presets) =
      (known draft).map fun readInto path node =>
        (readInto path node).map (·.setPresets presets) := by
  unfold field at h
  rw [if_neg hname] at h
  split at h
  · cases h
    exact once_map draft.themes _ (fun x => { draft with themes := some x }) presets
  · split at h
    · cases h
      exact once_map draft.naming _ (fun x => { draft with naming := some x }) presets
    · split at h
      · cases h
        exact once_map draft.presetDirs _ (fun x => { draft with presetDirs := some x }) presets
      · cases h

/-- The other fields are read as if the presets were not there. -/
theorem readFields_setPresets {path : Path} (presets : Option (List PresetSelector))
    {entries : List (Node × Node)} (h : ∀ e ∈ entries, Node.isKey "presets" e = false) :
    ∀ draft : Draft, Node.readFields field path (draft.setPresets presets) entries =
      (Node.readFields field path draft entries).map (·.setPresets presets) := by
  induction entries with
  | nil => intro draft; rfl
  | cons e rest ih =>
    obtain ⟨key, value⟩ := e
    obtain ⟨hkey, hrest⟩ := List.forall_mem_cons.mp h
    intro draft
    simp only [Node.readFields]
    cases hname : key.asText "field identifier" path with
    | error misfit => rfl
    | ok name =>
      have hne : name ≠ "presets" := fun he => Node.isKey_of_asText hkey (he ▸ hname)
      dsimp only
      cases hfield : field name with
      | none => exact ih hrest draft
      | some known =>
        simp only [field_setPresets hne hfield]
        cases known draft with
        | none => rfl
        | some read =>
          simp only [Option.map_some]
          cases read (Node.valuePath path key) value with
          | error misfit => rfl
          | ok next => exact ih hrest next

/-- Without their field, the presets stay unread. -/
theorem presets_of_readFields {path : Path} {entries : List (Node × Node)} {draft out : Draft}
    (h : ∀ e ∈ entries, Node.isKey "presets" e = false) (hdraft : draft.presets = none)
    (hread : Node.readFields field path draft entries = .ok out) : out.presets = none := by
  have hset : draft.setPresets none = draft := by
    rw [setPresets, ← hdraft]
  have hmap : Node.readFields field path (draft.setPresets none) entries = _ :=
    readFields_setPresets none h draft
  rw [hset, hread] at hmap
  have hout : out = out.setPresets none := Except.ok.inj hmap
  rw [hout]
  rfl

end Draft

/-! ## Reading and writing a configuration -/

theorem read_of_target {node : Node} {tag : Option String} {entries : List (Node × Node)}
    (h : node.target = .mapping tag entries) (path : Path) :
    read path node = (Node.readFields Draft.field path .start entries).map Draft.finish := by
  simp only [read, Node.asEntries, h]
  cases Node.readFields Draft.field path .start entries <;> rfl

theorem once_presets {draft : Draft} (h : draft.presets = none) :
    Draft.once draft.presets readPresets (fun x => { draft with presets := some x }) =
      some fun path node => (readPresets path node).map fun x => draft.setPresets (some x) := by
  rw [h]
  rfl

/-- Without their field, no presets are read. -/
theorem presets_of_finish {path : Path} {entries : List (Node × Node)} {config : Config}
    (h : ∀ e ∈ entries, Node.isKey "presets" e = false)
    (hread : (Node.readFields Draft.field path .start entries).map Draft.finish = .ok config) :
    config.presets = [] := by
  cases hfields : Node.readFields Draft.field path .start entries with
  | error misfit =>
    rw [hfields] at hread
    cases hread
  | ok draft =>
    rw [hfields] at hread
    cases hread
    rw [Draft.finish, Draft.presets_of_readFields h rfl hfields]
    rfl

/-- With their field, the presets are what it is read as, and the rest is read without it. -/
theorem readFields_presets_iff {path : Path} {before after : List (Node × Node)} {key value : Node}
    (hkey : key.document? = some (.string "presets"))
    (hbefore : ∀ e ∈ before, Node.isKey "presets" e = false)
    (hafter : ∀ e ∈ after, Node.isKey "presets" e = false) (config : Config) :
    (Node.readFields Draft.field path .start (before ++ (key, value) :: after)).map Draft.finish =
        .ok config ↔
      ∃ rest selectors,
        (Node.readFields Draft.field path .start (before ++ after)).map Draft.finish = .ok rest ∧
        readPresets (Node.valuePath path key) value = .ok selectors ∧
        config = { rest with presets := selectors } := by
  simp only [Node.readFields_append]
  cases hread : Node.readFields Draft.field path .start before with
  | error misfit => simp [Except.map]
  | ok draft =>
    have hnone := Draft.presets_of_readFields hbefore rfl hread
    dsimp only
    rw [Node.readFields_known hkey rfl (once_presets hnone)]
    cases readPresets (Node.valuePath path key) value with
    | error misfit => simp [Except.map]
    | ok selectors =>
      simp only [Except.map, Draft.readFields_setPresets _ hafter]
      cases Node.readFields Draft.field path draft after with
      | error misfit => simp
      | ok out =>
        constructor
        · intro hc
          cases hc
          exact ⟨out.finish, selectors, rfl, rfl, rfl⟩
        · rintro ⟨rest, others, hrest, hothers, rfl⟩
          cases hrest
          cases hothers
          rfl

/-- The presets of a configuration are those that their field stands for. -/
theorem read_presets_iff {node : Node} {fields : List (String × Json)}
    (h : node.document? = some (.object fields)) (path : Path) (config : Config) :
    read path node = .ok config ↔
      ∃ rest selectors, read path (node.without "presets") = .ok rest ∧
        ArePresets (fields.lookup "presets") selectors ∧
        (∀ document ∈ fields.lookup "presets", document.isNarrow = true) ∧
        config = { rest with presets := selectors } := by
  obtain ⟨entries, htarget, hfields, hnodup⟩ := Node.target_of_object h
  have hwithout : (node.without "presets").target =
      .mapping none (entries.filter fun e => !Node.isKey "presets" e) := by
    rw [Node.without, htarget]
    rfl
  rw [read_of_target htarget, read_of_target hwithout]
  cases hlookup : fields.lookup "presets" with
  | none =>
    have hkeys : ∀ e ∈ entries, Node.isKey "presets" e = false := by
      refine Node.isKey_of_not_mem hfields fun hmem => ?_
      obtain ⟨e, he, hname⟩ := List.mem_map.mp hmem
      have hne := List.lookup_eq_none_iff.mp hlookup e he
      simp [hname] at hne
    rw [Node.filter_of_isKey hkeys]
    constructor
    · intro hread
      exact ⟨config, [], hread, .absent, nofun, by rw [← presets_of_finish hkeys hread]⟩
    · rintro ⟨rest, selectors, hread, hpresets, -, rfl⟩
      cases hpresets
      rw [← presets_of_finish hkeys hread]
      exact hread
  | some document =>
    obtain ⟨first, last, rfl, -⟩ := List.lookup_eq_some_iff.mp hlookup
    obtain ⟨before, behind, rfl, hbefore, hbehind⟩ := Node.fields?_append hfields
    obtain ⟨key, value, after, rfl, hkey, hvalue, hafter⟩ := Node.fields?_eq_cons hbehind
    rw [List.map_append, List.map_cons, List.nodup_middle, List.nodup_cons, List.mem_append,
      not_or] at hnodup
    have hkeys := Node.isKey_of_not_mem hbefore hnodup.1.1
    have hlast := Node.isKey_of_not_mem hafter hnodup.1.2
    have hfilter : ((before ++ (key, value) :: after).filter fun e => !Node.isKey "presets" e) =
        before ++ after := by
      rw [List.filter_append, List.filter_cons, Node.isKey_of_document hkey,
        Node.filter_of_isKey hkeys, Node.filter_of_isKey hlast]
      rfl
    rw [hfilter, readFields_presets_iff hkey hkeys hlast]
    refine exists_congr fun rest => exists_congr fun selectors => and_congr_right fun _ => ?_
    rw [readPresets_ok_iff hvalue]
    simp only [Option.mem_def, Option.some.injEq, forall_eq', and_assoc, and_left_comm]

/-! ## Writing -/

theorem asList_of_strings {α : Type} {read : Reader α} {f : String → α}
    (hread : ∀ {item : Node} {s : String}, item.document? = some (.string s) →
      ∀ path : Path, read path item = .ok (f s))
    {node : Node} {texts : List String} (h : node.document? = some (.array (texts.map .string)))
    (path : Path) : Node.asList read path node = .ok (texts.map f) := by
  have hitems : ∀ {texts : List String} {items : List Node},
      Node.documents? items = some (texts.map .string) → ∀ index : Nat,
        Node.readItems read path index items = .ok (texts.map f) := by
    intro texts
    induction texts with
    | nil =>
      intro items h index
      rw [Node.documents?_eq_nil h]
      rfl
    | cons s texts ih =>
      intro items h index
      obtain ⟨item, rest, rfl, hitem, hrest⟩ := Node.documents?_eq_cons h
      simp only [Node.readItems, hread hitem, ih hrest]
      rfl
  obtain ⟨items, htarget, hdocuments⟩ := Node.target_of_array h
  simp only [Node.asList, Node.asItems, htarget]
  exact hitems hdocuments 0

theorem readDirectory_of_string {node : Node} {s : String}
    (h : node.document? = some (.string s)) (path : Path) :
    readDirectory path node = .ok (.ofString s) := by
  simp only [readDirectory, Node.asText_of_string h]

theorem readNaming_of_word {node : Node} {naming : Naming}
    (h : node.document? = some (.string naming.word)) (path : Path) :
    readNaming path node = .ok naming := by
  obtain ⟨isPlain, htarget⟩ := Node.target_of_string h
  have htag : Node.variant? none = none := rfl
  have hword : Naming.ofWord? naming.word = some naming := by cases naming <;> decide
  simp only [readNaming, htarget, htag, hword]

theorem forall_isSelector (selectors : List PresetSelector) :
    List.Forall₂ IsSelector (selectors.map PresetSelector.toJson) selectors := by
  rw [List.forall₂_map_left_iff, List.forall₂_same]
  intro selector _
  cases selector with
  | all name => exact .all name
  | subset name themes => exact .subset rfl rfl

theorem areTextual_presets (selectors : List PresetSelector) :
    Json.areTextual (selectors.map PresetSelector.toJson) = true := by
  induction selectors with
  | nil => rfl
  | cons selector rest ih =>
    rw [List.map_cons, Json.areTextual, ih, Bool.and_true]
    cases selector with
    | all name => rfl
    | subset name themes =>
      simp [PresetSelector.toJson, Json.isTextual, Json.haveTextual, Json.areTextual_strings]

theorem isTextual_toJson (config : Config) : config.toJson.isTextual = true := by
  have hdirectories : Json.areTextual (config.presetDirs.map fun d => .string d.toString) = true := by
    have h := Json.areTextual_strings (config.presetDirs.map FilePath.toString)
    rwa [List.map_map] at h
  simp [toJson, Json.isTextual, Json.haveTextual, Json.areTextual_strings, areTextual_presets,
    hdirectories]

theorem ofString_toString (directory : FilePath) :
    FilePath.ofString directory.toString = directory := by
  rw [FilePath.ofString, FilePath.toString, String.toList_ofList]

/-- What is written of a configuration is the configuration without its base directory. -/
theorem read_toJson {node : Node} {config : Config} (h : node.document? = some config.toJson)
    (path : Path) : read path node = .ok { config with baseDir := none } := by
  obtain ⟨entries, htarget, hfields, -⟩ := Node.target_of_object h
  obtain ⟨k₁, v₁, _, rfl, hk₁, hv₁, hfields⟩ := Node.fields?_eq_cons hfields
  obtain ⟨k₂, v₂, _, rfl, hk₂, hv₂, hfields⟩ := Node.fields?_eq_cons hfields
  obtain ⟨k₃, v₃, _, rfl, hk₃, hv₃, hfields⟩ := Node.fields?_eq_cons hfields
  obtain ⟨k₄, v₄, rest, rfl, hk₄, hv₄, hfields⟩ := Node.fields?_eq_cons hfields
  obtain rfl := Node.fields?_eq_nil hfields
  have hthemes : Node.asList (Node.asText "a string") (Node.valuePath path k₁) v₁ =
      .ok config.themes := by
    have hread := asList_of_strings (fun h => Node.asText_of_string h "a string") hv₁
    rw [hread, List.map_id']
  have hpresets : readPresets (Node.valuePath path k₂) v₂ = .ok config.presets :=
    (readPresets_ok_iff hv₂ _ _).mpr
      ⟨Json.areNarrow_of_areTextual (areTextual_presets _), .list (forall_isSelector _)⟩
  have hnaming := readNaming_of_word hv₃ (Node.valuePath path k₃)
  have hdirectories : Node.asList readDirectory (Node.valuePath path k₄) v₄ =
      .ok config.presetDirs := by
    have hv : v₄.document? =
        some (.array ((config.presetDirs.map FilePath.toString).map .string)) := by
      rw [hv₄, List.map_map]
      rfl
    rw [asList_of_strings readDirectory_of_string hv, List.map_map]
    exact congrArg Except.ok ((List.map_congr_left fun d _ => ofString_toString d).trans
      (List.map_id _))
  rw [read_of_target htarget, Node.readFields_known hk₁ rfl rfl, hthemes]
  simp only [Except.map]
  rw [Node.readFields_known hk₂ rfl rfl, hpresets]
  simp only [Except.map]
  rw [Node.readFields_known hk₃ rfl rfl, hnaming]
  simp only [Except.map]
  rw [Node.readFields_known hk₄ rfl rfl, hdirectories]
  rfl

theorem ofYaml_of_content {text : String} {node : Node} (h : Node.ofText? text = some node)
    (config : Config) : ofYaml text = .ok config ↔ read .root node = .ok config :=
  decode_ok_iff h config

/-- Which documents hold a configuration. What is written of one reads back, without its base
directory. The presets are those that their field stands for, if it stands for any and holds no integer
of more than 64 bits; otherwise there is no configuration. A text is read as the document that it
holds. -/
theorem read_documents :
    (∀ config : Config, config.toJson.toNode.document? = some config.toJson) ∧
      (∀ (config : Config) (node : Node), node.document? = some config.toJson →
        ∀ path : Path, read path node = .ok { config with baseDir := none }) ∧
      (∀ (node : Node) (fields : List (String × Json)), node.document? = some (.object fields) →
        ∀ (path : Path) (config : Config), read path node = .ok config ↔
          ∃ rest selectors, read path (node.without "presets") = .ok rest ∧
            ArePresets (fields.lookup "presets") selectors ∧
            (∀ document ∈ fields.lookup "presets", document.isNarrow = true) ∧
            config = { rest with presets := selectors }) ∧
      ∀ (text : String) (node : Node), Node.ofText? text = some node →
        ∀ config : Config, ofYaml text = .ok config ↔ read .root node = .ok config :=
  ⟨fun config => Json.document?_toNode (isTextual_toJson config),
    fun _ _ h path => read_toJson h path,
    fun _ _ h path config => read_presets_iff h path config,
    fun _ _ h config => ofYaml_of_content h config⟩

/-- A preset with a note, which is none of the fields that are read. -/
def notedText : String :=
  "\x7b\"presets\": [\x7b\"name\": \"forms\", \"themes\": [\"input\"], \"note\": 1\x7d]\x7d"

/-- The same with an integer that needs 65 bits. -/
def wideText : String :=
  "\x7b\"presets\": [\x7b\"name\": \"forms\", \"themes\": [\"input\"], " ++
    "\"note\": 18446744073709551616\x7d]\x7d"

def notedNode (note : String) : Node :=
  .mapping none [(.scalar none false "presets", .sequence none [.mapping none [
    (.scalar none false "name", .scalar none false "forms"),
    (.scalar none false "themes", .sequence none [.scalar none false "input"]),
    (.scalar none false "note", .scalar none true note)]])]

def notedFields (note : Json) : List (String × Json) :=
  [("presets", .array [.object
    [("name", .string "forms"), ("themes", .array [.string "input"]), ("note", note)]])]

theorem document?_noted (note : String) :
    (notedNode note).document? = some (.object (notedFields (.ofMeaning (.ofPlain note)))) := rfl

theorem arePresets_noted (note : Json) :
    ArePresets ((notedFields note).lookup "presets") [.subset "forms" ["input"]] :=
  .list (.cons (.subset rfl rfl) .nil)

/-- Other fields are passed over, and the configuration reads back without its base directory. -/
theorem notedPresets_read :
    ofYaml notedText = .ok ⟨[], [.subset "forms" ["input"]], .kebab, [], none⟩ ∧
      ∃ node, node.document? =
          some (toJson ⟨[], [.subset "forms" ["input"]], .kebab, [], some (.ofString "/site")⟩) ∧
        read .root node = .ok ⟨[], [.subset "forms" ["input"]], .kebab, [], none⟩ := by
  obtain ⟨hwritten, hback, hpresets, htext⟩ := read_documents
  have hcontent : Node.ofText? notedText = some (notedNode "1") := by cbv
  have hnote : Scalar.ofPlain "1" = .int 1 := by decide +kernel
  have hnarrow : ∀ document ∈ (notedFields (.ofMeaning (.ofPlain "1"))).lookup "presets",
      document.isNarrow = true := by
    intro document h
    cases h
    rw [hnote]
    decide
  refine ⟨?_, _, hwritten _, hback _ _ (hwritten _) .root⟩
  rw [htext _ _ hcontent, hpresets _ _ (document?_noted "1")]
  exact ⟨.empty, _, rfl, arePresets_noted _, hnarrow, rfl⟩

/-- The buffer holds no integer of more than 64 bits, so a field that nobody reads makes the
configuration fail. -/
theorem wideNote_refused :
    ∃ node, Node.ofText? wideText = some node ∧
      node.document? = some (.object (notedFields (.int 18446744073709551616))) ∧
      read .root (node.without "presets") = .ok .empty ∧
      ArePresets ((notedFields (.int 18446744073709551616)).lookup "presets")
        [.subset "forms" ["input"]] ∧
      ∀ config : Config, ofYaml wideText ≠ .ok config := by
  have hcontent : Node.ofText? wideText = some (notedNode "18446744073709551616") := by cbv
  have hnote : Scalar.ofPlain "18446744073709551616" = .wide 18446744073709551616 := by
    decide +kernel
  have hdocument : (notedNode "18446744073709551616").document? =
      some (.object (notedFields (.int 18446744073709551616))) := by
    rw [document?_noted, hnote]
    rfl
  refine ⟨_, hcontent, hdocument, rfl, arePresets_noted _, fun config h => ?_⟩
  rw [ofYaml_of_content hcontent, read_presets_iff hdocument] at h
  obtain ⟨_, _, -, -, hnarrow, -⟩ := h
  exact absurd (hnarrow _ rfl) (by decide)

end Config
end ThemeRules
