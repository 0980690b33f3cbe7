import Mathlib.Data.List.Nodup
import ThemeRules.Json.Reader

/-!
# ThemeRules.Proofs.Documents

The document that a node holds: a tree of null, booleans, numbers, texts, lists and mappings from
different texts, without tags. What lies beyond a limit of the reader is no document. A document of texts
and collections is held by the node it is written as (`document?_toNode`).
-/

namespace ThemeRules

open Yaml

namespace Json

/-- What a scalar means, as a document. Integers are numbers whatever their size. -/
def ofMeaning : Scalar → Json
  | .null => .null
  | .bool b => .bool b
  | .int n => .int n
  | .wide n => .int n
  | .double x => .double x
  | .text s => .string s

mutual

/-- Every integer fits 64 bits, signed or unsigned. -/
def isNarrow : Json → Bool
  | .int n => decide (-Nat.pow 2 63 ≤ n ∧ n < Nat.pow 2 64)
  | .array items => areNarrow items
  | .object fields => haveNarrow fields
  | .null | .bool _ | .double _ | .string _ => true

def areNarrow : List Json → Bool
  | [] => true
  | item :: rest => isNarrow item && areNarrow rest

def haveNarrow : List (String × Json) → Bool
  | [] => true
  | (_, value) :: rest => isNarrow value && haveNarrow rest

end

end Json

namespace Yaml.Node

def isAlias : Node → Bool
  | .alias _ => true
  | _ => false

mutual

/-- The document that a node holds. -/
def document? : Node → Option Json
  | .scalar none isPlain s => some (.ofMeaning (if isPlain then .ofPlain s else .text s))
  | .sequence none items => (documents? items).map .array
  | .mapping none entries =>
    match fields? entries with
    | some fields => if (fields.map Prod.fst).Nodup then some (.object fields) else none
    | none => none
  | .alias target => if target.isAlias then none else document? target
  | _ => none

def documents? : List Node → Option (List Json)
  | [] => some []
  | item :: rest =>
    match document? item, documents? rest with
    | some document, some documents => some (document :: documents)
    | _, _ => none

def fields? : List (Node × Node) → Option (List (String × Json))
  | [] => some []
  | (key, value) :: rest =>
    match document? key, document? value, fields? rest with
    | some (.string name), some document, some fields => some ((name, document) :: fields)
    | _, _, _ => none

end

/-! ## What a node holds -/

/-- A node that is no alias, and the document that it holds. -/
inductive Held : Node → Json → Prop where
  | scalar (isPlain : Bool) (s : String) :
      Held (.scalar none isPlain s) (.ofMeaning (if isPlain then .ofPlain s else .text s))
  | array {items : List Node} {documents : List Json} : documents? items = some documents →
      Held (.sequence none items) (.array documents)
  | object {entries : List (Node × Node)} {fields : List (String × Json)} :
      fields? entries = some fields → (fields.map Prod.fst).Nodup →
      Held (.mapping none entries) (.object fields)

theorem held_of_document? {node : Node} {document : Json} (hn : node.isAlias = false)
    (h : node.document? = some document) : Held node document := by
  cases node with
  | scalar tag isPlain s =>
    cases tag with
    | none => cases h; exact .scalar isPlain s
    | some tag => cases h
  | sequence tag items =>
    cases tag with
    | none =>
      obtain ⟨documents, hd, rfl⟩ := Option.map_eq_some_iff.mp h
      exact .array hd
    | some tag => cases h
  | mapping tag entries =>
    cases tag with
    | none =>
      simp only [document?] at h
      split at h
      · rename_i fields hf
        split at h
        · rename_i hnodup
          cases h
          exact .object hf hnodup
        · cases h
      · cases h
    | some tag => cases h
  | «alias» target => cases hn
  | beyond limit => cases h

theorem held_target {node : Node} {document : Json} (h : node.document? = some document) :
    Held node.target document := by
  cases node with
  | «alias» target =>
    simp only [document?] at h
    split at h
    · cases h
    · rename_i hn
      exact held_of_document? (Bool.eq_false_iff.mpr hn) h
  | scalar | sequence | mapping | beyond => exact held_of_document? rfl h

/-- An integer is wide exactly if 64 bits do not hold it. -/
theorem int?_cases {text : List Char} {value : Scalar} (h : Scalar.int? text = some value) :
    ∃ n, (value = .int n ∧ (Json.int n).isNarrow = true) ∨
      (value = .wide n ∧ (Json.int n).isNarrow = false) := by
  obtain ⟨n, -, hn⟩ := Option.bind_eq_some_iff.mp h
  unfold Scalar.ofInteger? at hn
  split at hn
  · rename_i hnarrow
    cases hn
    exact ⟨n, .inl ⟨rfl, decide_eq_true hnarrow⟩⟩
  · rename_i hwide
    split at hn
    · cases hn
      exact ⟨n, .inr ⟨rfl, decide_eq_false hwide⟩⟩
    · cases hn

/-- A text is the scalar as it stands, and an integer is wide exactly if 64 bits do not hold it. -/
def MeaningOf (s : String) : Scalar → Prop
  | .text t => t = s
  | .int n => (Json.int n).isNarrow = true
  | .wide n => (Json.int n).isNarrow = false
  | .null | .bool _ | .double _ => True

theorem meaningOf_ofPlain (s : String) : MeaningOf s (.ofPlain s) := by
  unfold Scalar.ofPlain
  dsimp only
  split
  · trivial
  · split
    · trivial
    · split
      · rename_i value hvalue
        obtain ⟨n, ⟨rfl, hn⟩ | ⟨rfl, hn⟩⟩ := int?_cases hvalue
        · exact hn
        · exact hn
      · split
        · rfl
        · split
          · trivial
          · rfl

/-- A text is held by a scalar that means it, and is written as it stands. -/
theorem scalar_of_string {node : Node} {s : String} (h : node.document? = some (.string s)) :
    ∃ isPlain, node.target = .scalar none isPlain s ∧
      scalarValue none isPlain s = .ok (.text s) := by
  have hheld := held_target h
  generalize node.target = target at hheld
  generalize hd : Json.string s = document at hheld
  cases hheld with
  | scalar isPlain t =>
    cases isPlain with
    | false => cases hd; exact ⟨false, rfl, rfl⟩
    | true =>
      have hplain := meaningOf_ofPlain t
      rw [if_pos rfl] at hd
      cases hvalue : Scalar.ofPlain t <;> rw [hvalue] at hd hplain <;> cases hd
      obtain rfl : s = t := hplain
      exact ⟨true, rfl, congrArg Except.ok hvalue⟩
  | array => cases hd
  | object => cases hd

theorem target_of_string {node : Node} {s : String} (h : node.document? = some (.string s)) :
    ∃ isPlain, node.target = .scalar none isPlain s := by
  obtain ⟨isPlain, htarget, -⟩ := scalar_of_string h
  exact ⟨isPlain, htarget⟩

theorem target_of_array {node : Node} {documents : List Json}
    (h : node.document? = some (.array documents)) :
    ∃ items, node.target = .sequence none items ∧ documents? items = some documents := by
  have hheld := held_target h
  generalize node.target = target at hheld
  generalize hd : Json.array documents = document at hheld
  cases hheld with
  | scalar isPlain t =>
    generalize (if isPlain then Scalar.ofPlain t else .text t) = value at hd
    cases value <;> cases hd
  | array hitems => cases hd; exact ⟨_, rfl, hitems⟩
  | object => cases hd

theorem target_of_object {node : Node} {fields : List (String × Json)}
    (h : node.document? = some (.object fields)) :
    ∃ entries, node.target = .mapping none entries ∧ fields? entries = some fields ∧
      (fields.map Prod.fst).Nodup := by
  have hheld := held_target h
  generalize node.target = target at hheld
  generalize hd : Json.object fields = document at hheld
  cases hheld with
  | scalar isPlain t =>
    generalize (if isPlain then Scalar.ofPlain t else .text t) = value at hd
    cases value <;> cases hd
  | array => cases hd
  | object hfields hnodup => cases hd; exact ⟨_, rfl, hfields, hnodup⟩

/-- A text reads as it stands. -/
theorem asText_of_string {node : Node} {s : String} (h : node.document? = some (.string s))
    (expected : String) (path : Path) : node.asText expected path = .ok s := by
  obtain ⟨isPlain, ht⟩ := target_of_string h
  rw [asText, ht]

theorem documents?_cons {item : Node} {rest : List Node} {all : List Json}
    (h : documents? (item :: rest) = some all) :
    ∃ document documents, item.document? = some document ∧ documents? rest = some documents ∧
      all = document :: documents := by
  simp only [documents?] at h
  split at h
  · rename_i document documents hitem hrest
    cases h
    exact ⟨document, documents, hitem, hrest, rfl⟩
  · cases h

theorem fields?_cons {key value : Node} {rest : List (Node × Node)} {all : List (String × Json)}
    (h : fields? ((key, value) :: rest) = some all) :
    ∃ name document fields, key.document? = some (.string name) ∧
      value.document? = some document ∧ fields? rest = some fields ∧
      all = (name, document) :: fields := by
  simp only [fields?] at h
  split at h
  · rename_i name document fields hkey hvalue hrest
    cases h
    exact ⟨name, document, fields, hkey, hvalue, hrest, rfl⟩
  · cases h

theorem documents?_eq_nil {items : List Node} (h : documents? items = some []) : items = [] := by
  cases items with
  | nil => rfl
  | cons item rest =>
    obtain ⟨_, _, -, -, hall⟩ := documents?_cons h
    cases hall

theorem fields?_eq_nil {entries : List (Node × Node)} (h : fields? entries = some []) :
    entries = [] := by
  cases entries with
  | nil => rfl
  | cons e rest =>
    obtain ⟨_, _, _, -, -, -, hall⟩ := fields?_cons h
    cases hall

theorem documents?_eq_cons {items : List Node} {document : Json} {documents : List Json}
    (h : documents? items = some (document :: documents)) :
    ∃ item rest, items = item :: rest ∧ item.document? = some document ∧
      documents? rest = some documents := by
  cases items with
  | nil => cases h
  | cons item rest =>
    obtain ⟨_, _, hitem, hrest, hall⟩ := documents?_cons h
    obtain ⟨rfl, rfl⟩ := List.cons.inj hall
    exact ⟨item, rest, rfl, hitem, hrest⟩

theorem fields?_eq_cons {entries : List (Node × Node)} {name : String} {document : Json}
    {fields : List (String × Json)} (h : fields? entries = some ((name, document) :: fields)) :
    ∃ key value rest, entries = (key, value) :: rest ∧ key.document? = some (.string name) ∧
      value.document? = some document ∧ fields? rest = some fields := by
  cases entries with
  | nil => cases h
  | cons e rest =>
    obtain ⟨_, _, _, hkey, hvalue, hrest, hall⟩ := fields?_cons h
    obtain ⟨hfield, rfl⟩ := List.cons.inj hall
    obtain ⟨rfl, rfl⟩ := Prod.mk.inj hfield
    exact ⟨e.1, e.2, rest, rfl, hkey, hvalue, hrest⟩

theorem fields?_append {fields : List (String × Json)} {first : List (String × Json)} :
    ∀ {entries : List (Node × Node)}, fields? entries = some (first ++ fields) →
      ∃ before after, entries = before ++ after ∧ fields? before = some first ∧
        fields? after = some fields := by
  induction first with
  | nil => intro entries h; exact ⟨[], entries, rfl, rfl, h⟩
  | cons field first ih =>
    intro entries h
    obtain ⟨key, value, rest, rfl, hkey, hvalue, hrest⟩ := fields?_eq_cons h
    obtain ⟨before, after, rfl, hbefore, hafter⟩ := ih hrest
    exact ⟨(key, value) :: before, after, rfl, by simp only [fields?, hkey, hvalue, hbefore],
      hafter⟩

end Yaml.Node

/-- A text is read as its content. -/
theorem Yaml.decode_ok_iff {α : Type} {read : Yaml.Reader α} {text : String} {node : Yaml.Node}
    (h : Yaml.Node.ofText? text = some node) (value : α) :
    Yaml.decode read text = .ok value ↔ read .root node = .ok value := by
  rw [decode, h]
  cases hread : read .root node <;> simp [hread]

/-! ## Documents as they are written -/

namespace Json

mutual

/-- The document holds no numbers, and no key twice. -/
def isTextual : Json → Bool
  | .null | .bool _ | .string _ => true
  | .int _ | .double _ => false
  | .array items => areTextual items
  | .object fields => haveTextual fields && decide (fields.map Prod.fst).Nodup

def areTextual : List Json → Bool
  | [] => true
  | item :: rest => isTextual item && areTextual rest

def haveTextual : List (String × Json) → Bool
  | [] => true
  | (_, value) :: rest => isTextual value && haveTextual rest

end

theorem isTextual_object (fields : List (String × Json)) :
    (object fields).isTextual =
      ((fields.all fun e => e.2.isTextual) && decide (fields.map Prod.fst).Nodup) := by
  have hfields : haveTextual fields = fields.all fun e => e.2.isTextual := by
    induction fields with
    | nil => rfl
    | cons field rest ih => rw [haveTextual, List.all_cons, ih]
  rw [isTextual, hfields]

mutual

theorem document?_toNode : ∀ {document : Json}, document.isTextual = true →
    document.toNode.document? = some document
  | .null, _ => by rfl
  | .bool true, _ => by rfl
  | .bool false, _ => by rfl
  | .string _, _ => rfl
  | .array items, h => by
    have hitems : Node.documents? (itemNodes items) = some items := documents?_itemNodes h
    simp only [toNode, Node.document?, hitems, Option.map_some]
  | .object fields, h => by
    simp only [isTextual, Bool.and_eq_true, decide_eq_true_eq] at h
    have hfields : Node.fields? (fieldNodes fields) = some fields := fields?_fieldNodes h.1
    simp only [toNode, Node.document?, hfields, if_pos h.2]

theorem documents?_itemNodes : ∀ {items : List Json}, areTextual items = true →
    Node.documents? (itemNodes items) = some items
  | [], _ => rfl
  | item :: rest, h => by
    simp only [areTextual, Bool.and_eq_true] at h
    have hitem : (toNode item).document? = some item := document?_toNode h.1
    have hrest : Node.documents? (itemNodes rest) = some rest := documents?_itemNodes h.2
    simp only [itemNodes, Node.documents?, hitem, hrest]

theorem fields?_fieldNodes : ∀ {fields : List (String × Json)}, haveTextual fields = true →
    Node.fields? (fieldNodes fields) = some fields
  | [], _ => rfl
  | (key, value) :: rest, h => by
    simp only [haveTextual, Bool.and_eq_true] at h
    have hvalue : (toNode value).document? = some value := document?_toNode h.1
    have hrest : Node.fields? (fieldNodes rest) = some rest := fields?_fieldNodes h.2
    have hkey : (Node.scalar none false key).document? = some (.string key) := rfl
    simp only [fieldNodes, Node.fields?, hkey, hvalue, hrest]

end

mutual

theorem isNarrow_of_isTextual : ∀ {document : Json}, document.isTextual = true →
    document.isNarrow = true
  | .null, _ | .bool _, _ | .string _, _ => rfl
  | .array _, h => areNarrow_of_areTextual h
  | .object fields, h => by
    simp only [isTextual, Bool.and_eq_true, decide_eq_true_eq] at h
    exact haveNarrow_of_haveTextual h.1

theorem areNarrow_of_areTextual : ∀ {items : List Json}, areTextual items = true →
    areNarrow items = true
  | [], _ => rfl
  | item :: rest, h => by
    simp only [areTextual, Bool.and_eq_true] at h
    rw [areNarrow, isNarrow_of_isTextual h.1, areNarrow_of_areTextual h.2]
    rfl

theorem haveNarrow_of_haveTextual : ∀ {fields : List (String × Json)}, haveTextual fields = true →
    haveNarrow fields = true
  | [], _ => rfl
  | (key, value) :: rest, h => by
    simp only [haveTextual, Bool.and_eq_true] at h
    rw [haveNarrow, isNarrow_of_isTextual h.1, haveNarrow_of_haveTextual h.2]
    rfl

end

theorem areTextual_strings (texts : List String) : areTextual (texts.map .string) = true := by
  induction texts with
  | nil => rfl
  | cons text rest ih =>
    rw [List.map_cons, areTextual, ih]
    rfl

end Json
end ThemeRules
