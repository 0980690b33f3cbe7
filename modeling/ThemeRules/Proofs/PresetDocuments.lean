import Mathlib.Data.List.Forall2
import ThemeRules.Config
import ThemeRules.Proofs.Documents
import ThemeRules.Proofs.Layering

/-!
# ThemeRules.Proofs.PresetDocuments

Which documents stand for presets (`ArePresets`). Presets are read into a buffer before they are held
against their forms. The buffer takes every document as it is, but no integer of more than 64 bits
(`Form.buffers_read`), and what the forms take from the buffer is what `ArePresets` says of the document
(`readPresets_ok_iff`).
-/

namespace ThemeRules

open Yaml

/-! ## The forms of presets -/

/-- An entry of a list of presets. -/
inductive IsSelector : Json → PresetSelector → Prop where
  | all (name : String) : IsSelector (.string name) (.all name)
  | subset {fields : List (String × Json)} {name : String} {themes : List String} :
      fields.lookup "name" = some (.string name) →
      fields.lookup "themes" = some (.array (themes.map .string)) →
      IsSelector (.object fields) (.subset name themes)

/-- The presets that a document stands for, or that no document stands for. -/
inductive ArePresets : Option Json → List PresetSelector → Prop where
  | absent : ArePresets none []
  | null : ArePresets (some .null) []
  | one (name : String) : ArePresets (some (.string name)) [.all name]
  | list {items : List Json} {selectors : List PresetSelector} :
      List.Forall₂ IsSelector items selectors → ArePresets (some (.array items)) selectors

/-- The members of a list, one by one. -/
theorem mapM_eq_some_iff {α β : Type} {f : α → Option β} :
    ∀ {xs : List α} {ys : List β},
      xs.mapM f = some ys ↔ List.Forall₂ (fun x y => f x = some y) xs ys
  | [], ys => by
    rw [List.forall₂_nil_left_iff, List.mapM_nil]
    exact Option.some_inj.trans eq_comm
  | x :: xs, ys => by
    rw [List.mapM_cons, List.forall₂_cons_left_iff]
    simp only [← mapM_eq_some_iff]
    cases hx : f x with
    | none => simp
    | some y =>
      cases hxs : xs.mapM f with
      | none => simp
      | some rest => simp [eq_comm]

namespace Config
namespace Form

/-! ## The buffer -/

mutual

/-- A document as it stands in the buffer. -/
def ofJson : Json → Form
  | .null => .scalar .null
  | .bool b => .scalar (.bool b)
  | .int n => .scalar (.int n)
  | .double x => .scalar (.double x)
  | .string s => .scalar (.text s)
  | .array items => .list (ofItems items)
  | .object fields => .map (ofFields fields)

def ofItems : List Json → List Form
  | [] => []
  | item :: rest => ofJson item :: ofItems rest

def ofFields : List (String × Json) → List (Form × Form)
  | [] => []
  | (key, value) :: rest => (.scalar (.text key), ofJson value) :: ofFields rest

end

theorem ofItems_eq_map (items : List Json) : ofItems items = items.map ofJson := by
  induction items with
  | nil => rfl
  | cons item rest ih => rw [ofItems, ih, List.map_cons]

/-- The result is the value if that is narrow, and an error otherwise. -/
def Buffers {α : Type} (result : Except Misfit α) (value : α) (isNarrow : Bool) : Prop :=
  (isNarrow = true ∧ result = .ok value) ∨ (isNarrow = false ∧ ∃ misfit, result = .error misfit)

theorem buffers_scalar (path : Path) (isPlain : Bool) (s : String) :
    Buffers (read path (.scalar none isPlain s))
      (ofJson (.ofMeaning (if isPlain then .ofPlain s else .text s)))
      (Json.ofMeaning (if isPlain then .ofPlain s else .text s)).isNarrow := by
  have hmeaning : Node.MeaningOf s (if isPlain then .ofPlain s else .text s) := by
    cases isPlain with
    | true => exact Node.meaningOf_ofPlain s
    | false => rfl
  have htag : (Node.variant? none).isSome = false := rfl
  simp only [read, Node.scalarValue, htag, Bool.false_eq_true, if_false]
  generalize (if isPlain then Scalar.ofPlain s else .text s) = value at hmeaning
  cases value with
  | int n =>
    have hnarrow : (Json.int n).isNarrow = true := hmeaning
    exact .inl ⟨hnarrow, rfl⟩
  | wide n =>
    have hwide : (Json.int n).isNarrow = false := hmeaning
    exact .inr ⟨hwide, _, rfl⟩
  | null | bool | double | text => exact .inl ⟨rfl, rfl⟩

mutual

/-- The buffer takes a document as it is, but no integer of more than 64 bits. -/
theorem buffers_read : ∀ {node : Node} {document : Json}, node.document? = some document →
    ∀ path : Path, Buffers (read path node) (ofJson document) document.isNarrow
  | .scalar none isPlain s, _, h, path => by
    cases h
    exact buffers_scalar path isPlain s
  | .sequence none items, _, h, path => by
    obtain ⟨documents, hitems, rfl⟩ := Option.map_eq_some_iff.mp h
    have htag : (Node.variant? none).isSome = false := rfl
    simp only [read, htag, Bool.false_eq_true, if_false, Json.isNarrow, ofJson]
    obtain ⟨hn, hread⟩ | ⟨hn, misfit, hread⟩ := buffers_readItems hitems path 0
    · rw [hread]
      exact .inl ⟨hn, rfl⟩
    · rw [hread]
      exact .inr ⟨hn, misfit, rfl⟩
  | .mapping none entries, _, h, path => by
    simp only [Node.document?] at h
    split at h
    · rename_i fields hfields
      split at h
      · cases h
        have htag : (Node.variant? none).isSome = false := rfl
        simp only [read, htag, Bool.false_eq_true, if_false, Json.isNarrow, ofJson]
        obtain ⟨hn, hread⟩ | ⟨hn, misfit, hread⟩ := buffers_readEntries hfields path
        · rw [hread]
          exact .inl ⟨hn, rfl⟩
        · rw [hread]
          exact .inr ⟨hn, misfit, rfl⟩
      · cases h
    · cases h
  | .alias target, _, h, path => by
    simp only [Node.document?] at h
    split at h
    · cases h
    · exact buffers_read h path

theorem buffers_readItems : ∀ {items : List Node} {documents : List Json},
    Node.documents? items = some documents → ∀ (path : Path) (index : Nat),
      Buffers (readItems path index items) (ofItems documents) (Json.areNarrow documents)
  | [], _, h, path, index => by
    cases h
    exact .inl ⟨rfl, rfl⟩
  | item :: rest, _, h, path, index => by
    obtain ⟨document, documents, hitem, hrest, rfl⟩ := Node.documents?_cons h
    simp only [readItems, Json.areNarrow]
    obtain ⟨hn, hread⟩ | ⟨hn, misfit, hread⟩ := buffers_read hitem (.item path index)
    · rw [hn, hread, Bool.true_and]
      obtain ⟨hns, hreads⟩ | ⟨hns, misfit, hreads⟩ := buffers_readItems hrest path (index + 1)
      · rw [hreads]
        exact .inl ⟨hns, rfl⟩
      · rw [hreads]
        exact .inr ⟨hns, misfit, rfl⟩
    · rw [hn, hread]
      exact .inr ⟨rfl, misfit, rfl⟩

theorem buffers_readEntries : ∀ {entries : List (Node × Node)} {fields : List (String × Json)},
    Node.fields? entries = some fields → ∀ path : Path,
      Buffers (readEntries path entries) (ofFields fields) (Json.haveNarrow fields)
  | [], _, h, path => by
    cases h
    exact .inl ⟨rfl, rfl⟩
  | (key, value) :: rest, _, h, path => by
    obtain ⟨name, document, fields, hkey, hvalue, hrest, rfl⟩ := Node.fields?_cons h
    have hname : read path key = .ok (.scalar (.text name)) := by
      obtain ⟨-, hread⟩ | ⟨hn, -⟩ := buffers_read hkey path
      · exact hread
      · cases hn
    simp only [readEntries, hname, Json.haveNarrow]
    obtain ⟨hn, hread⟩ | ⟨hn, misfit, hread⟩ := buffers_read hvalue (Node.valuePath path key)
    · rw [hn, hread, Bool.true_and]
      obtain ⟨hns, hreads⟩ | ⟨hns, misfit, hreads⟩ := buffers_readEntries hrest path
      · rw [hreads]
        exact .inl ⟨hns, rfl⟩
      · rw [hreads]
        exact .inr ⟨hns, misfit, rfl⟩
    · rw [hn, hread]
      exact .inr ⟨rfl, misfit, rfl⟩

end

/-! ## What the forms take from the buffer -/

theorem string?_ofJson (document : Json) : (ofJson document).string? = document.string? := by
  cases document <;> rfl

theorem string?_eq_some {document : Json} {s : String} :
    document.string? = some s ↔ document = .string s := by
  cases document <;> simp [Json.string?]

theorem strings?_ofJson {document : Json} {texts : List String} :
    (ofJson document).strings? = some texts ↔ document = .array (texts.map .string) := by
  cases document with
  | array items =>
    rw [ofJson, strings?, mapM_eq_some_iff, ofItems_eq_map, List.forall₂_map_left_iff]
    simp only [string?_ofJson, string?_eq_some, Json.array.injEq]
    rw [← List.forall₂_eq_eq_eq, List.forall₂_map_right_iff]
  | _ => simp [ofJson, strings?]

/-- A field of a subset: what has been read of it, or what stands among the fields to come, is this
value. Not both stand there. -/
def Settles {α : Type} (write : α → Json) (value : α) (later : Option Json) : Option α → Prop
  | none => later = some (write value)
  | some current => current = value ∧ later = none

section Subsets

variable (name : Option String) (themes : Option (List String)) (form : Form)
  (rest : List (Form × Form))

theorem subsetFrom_name :
    subsetFrom name themes ((.scalar (.text "name"), form) :: rest) =
      match name, form.string? with
      | none, some s => subsetFrom (some s) themes rest
      | _, _ => none := rfl

theorem subsetFrom_themes :
    subsetFrom name themes ((.scalar (.text "themes"), form) :: rest) =
      match themes, form.strings? with
      | none, some texts => subsetFrom name (some texts) rest
      | _, _ => none := rfl

theorem subsetFrom_other {key : String} (hname : key ≠ "name") (hthemes : key ≠ "themes") :
    subsetFrom name themes ((.scalar (.text key), form) :: rest) =
      subsetFrom name themes rest := by
  have hfield : field? (.scalar (.text key)) = some .other := by
    rw [field?, if_neg hname, if_neg hthemes]
  simp only [subsetFrom, hfield]

end Subsets

/-- A subset is read from fields with different keys as from a map. -/
theorem subsetFrom_ofFields :
    ∀ {fields : List (String × Json)}, (fields.map Prod.fst).Nodup →
      ∀ (name : Option String) (themes : Option (List String)) (selector : PresetSelector),
        subsetFrom name themes (ofFields fields) = some selector ↔
          ∃ n ts, selector = .subset n ts ∧ Settles .string n (fields.lookup "name") name ∧
            Settles (fun ts => .array (ts.map .string)) ts (fields.lookup "themes") themes
  | [], _, name, themes, selector => by
    cases name with
    | none => simp [ofFields, subsetFrom, Settles]
    | some n =>
      cases themes with
      | none => simp [ofFields, subsetFrom, Settles]
      | some ts => simp [ofFields, subsetFrom, Settles, eq_comm]
  | (key, document) :: rest, hnodup, name, themes, selector => by
    obtain ⟨hkey, hrest⟩ := List.nodup_cons.mp hnodup
    have ih := subsetFrom_ofFields hrest
    have hlater : rest.lookup key = none := lookup_eq_none_of_not_mem hkey
    rw [ofFields]
    by_cases hname : key = "name"
    · subst hname
      have hother : ("themes" : String) ≠ "name" := by decide
      rw [subsetFrom_name, string?_ofJson, List.lookup_cons_self, lookup_cons_of_ne _ _ hother]
      cases name with
      | some current => simp [Settles]
      | none =>
        cases hs : document.string? with
        | none =>
          have hne : ∀ s, document ≠ .string s := fun s h => by
            rw [string?_eq_some.mpr h] at hs; cases hs
          simp [Settles, hne]
        | some s =>
          rw [string?_eq_some.mp hs]
          simp [ih, Settles, hlater]
    · by_cases hthemes : key = "themes"
      · subst hthemes
        have hother : ("name" : String) ≠ "themes" := by decide
        rw [subsetFrom_themes, List.lookup_cons_self, lookup_cons_of_ne _ _ hother]
        cases themes with
        | some current => simp [Settles]
        | none =>
          cases hs : (ofJson document).strings? with
          | none =>
            have hne : ∀ ts : List String, document ≠ .array (ts.map .string) := fun ts h => by
              rw [strings?_ofJson.mpr h] at hs; cases hs
            simp [Settles, hne]
          | some texts =>
            have hinj : Function.Injective (List.map Json.string) :=
              List.map_injective_iff.mpr fun _ _ h => Json.string.inj h
            rw [strings?_ofJson.mp hs]
            simp [ih, Settles, hlater, hinj.eq_iff]
      · rw [subsetFrom_other _ _ _ _ hname hthemes, lookup_cons_of_ne _ _ (Ne.symm hname),
          lookup_cons_of_ne _ _ (Ne.symm hthemes)]
        exact ih name themes selector

/-- An entry of a list of presets. -/
theorem selector?_ofJson {node : Node} {document : Json} (h : node.document? = some document)
    (selector : PresetSelector) :
    (ofJson document).selector? = some selector ↔ IsSelector document selector := by
  cases document with
  | string s =>
    constructor
    · intro hs; cases hs
      exact .all s
    · intro hs; cases hs
      rfl
  | object fields =>
    obtain ⟨-, -, -, hnodup⟩ := Node.target_of_object h
    rw [ofJson, selector?, subsetFrom_ofFields hnodup]
    constructor
    · rintro ⟨name, themes, rfl, hname, hthemes⟩
      exact .subset hname hthemes
    · intro hs; cases hs with
      | subset hname hthemes => exact ⟨_, _, rfl, hname, hthemes⟩
  | null | bool | int | double | array =>
    constructor
    · intro hs; cases hs
    · intro hs; cases hs

theorem selectors_ofItems : ∀ {items : List Node} {documents : List Json},
    Node.documents? items = some documents → ∀ selectors : List PresetSelector,
      (ofItems documents).mapM selector? = some selectors ↔
        List.Forall₂ IsSelector documents selectors
  | [], _, h, selectors => by
    cases h
    rw [ofItems, mapM_eq_some_iff, List.forall₂_nil_left_iff, List.forall₂_nil_left_iff]
  | item :: rest, _, h, selectors => by
    obtain ⟨document, documents, hitem, hrest, rfl⟩ := Node.documents?_cons h
    rw [ofItems, mapM_eq_some_iff, List.forall₂_cons_left_iff, List.forall₂_cons_left_iff]
    simp only [selector?_ofJson hitem, ← mapM_eq_some_iff, selectors_ofItems hrest]

/-- The value of the field of the presets, unless it is null. -/
theorem selectors?_ofJson {node : Node} {document : Json} (h : node.document? = some document)
    (hnull : document ≠ .null) (selectors : List PresetSelector) :
    (ofJson document).selectors? = some selectors ↔ ArePresets (some document) selectors := by
  cases document with
  | null => exact absurd rfl hnull
  | string s =>
    constructor
    · intro hs; cases hs
      exact .one s
    · intro hs; cases hs
      rfl
  | array documents =>
    obtain ⟨items, -, hitems⟩ := Node.target_of_array h
    rw [ofJson, selectors?, selectors_ofItems hitems]
    constructor
    · exact .list
    · intro hs; cases hs with
      | list hs => exact hs
  | bool | int | double | object =>
    constructor
    · intro hs; cases hs
    · intro hs; cases hs

end Form

/-! ## Reading presets -/

theorem ofPlain_eq_null_iff {s : String} :
    Scalar.ofPlain s = .null ↔ (s.isEmpty || Scalar.isNullWord s.toList) = true := by
  have hempty : s.toList.isEmpty = s.isEmpty := by
    rw [Bool.eq_iff_iff, List.isEmpty_iff, String.toList_eq_nil_iff, String.isEmpty_iff]
  rw [← hempty]
  unfold Scalar.ofPlain
  dsimp only
  split
  · rename_i hnull
    exact iff_of_true rfl hnull
  · rename_i hnull
    refine iff_of_false (fun h => ?_) hnull
    split at h
    · cases h
    · split at h
      · rename_i value hvalue
        obtain ⟨n, ⟨rfl, -⟩ | ⟨rfl, -⟩⟩ := Node.int?_cases hvalue <;> cases h
      · split at h
        · cases h
        · split at h <;> cases h

theorem isAbsent_of_document {node : Node} {document : Json}
    (h : node.document? = some document) :
    (document = .null ∧ node.isAbsent = .ok true) ∨
      (document ≠ .null ∧ node.isAbsent = .ok false) := by
  have hheld := Node.held_target h
  unfold Node.isAbsent
  generalize node.target = target at hheld
  cases hheld with
  | scalar isPlain s =>
    cases isPlain with
    | false => exact .inr ⟨nofun, rfl⟩
    | true =>
      have htag : (none : Option String) ≠ some (Node.coreTag "null") := nofun
      simp only [if_neg htag, if_true]
      cases hb : s.isEmpty || Scalar.isNullWord s.toList with
      | true => exact .inl ⟨by rw [ofPlain_eq_null_iff.mpr hb]; rfl, rfl⟩
      | false =>
        refine .inr ⟨fun hnull => ?_, rfl⟩
        have hplain : Scalar.ofPlain s = .null := by
          generalize Scalar.ofPlain s = value at hnull
          cases value <;> cases hnull
          rfl
        rw [ofPlain_eq_null_iff, hb] at hplain
        cases hplain
  | array => exact .inr ⟨nofun, rfl⟩
  | object => exact .inr ⟨nofun, rfl⟩

theorem readPresets_ok_iff {node : Node} {document : Json} (h : node.document? = some document)
    (path : Path) (selectors : List PresetSelector) :
    readPresets path node = .ok selectors ↔
      document.isNarrow = true ∧ ArePresets (some document) selectors := by
  unfold readPresets Node.asOption
  obtain ⟨rfl, habsent⟩ | ⟨hnull, habsent⟩ := isAbsent_of_document h
  · rw [habsent]
    constructor
    · intro hs; cases hs
      exact ⟨rfl, .null⟩
    · rintro ⟨-, hs⟩; cases hs
      rfl
  · rw [habsent]
    obtain ⟨hn, hread⟩ | ⟨hn, misfit, hread⟩ := Form.buffers_read h path
    · rw [hn, hread, ← Form.selectors?_ofJson h hnull]
      cases hs : (Form.ofJson document).selectors? with
      | none => simp [hs]
      | some found => simp [hs]
    · rw [hn, hread]
      simp

end Config
end ThemeRules
