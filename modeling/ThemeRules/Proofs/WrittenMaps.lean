import ThemeRules.Proofs.PresetDocuments

/-!
# ThemeRules.Proofs.WrittenMaps

Maps and records as they are written, where a key may stand more than once. A mapping is described by its
entries (`Node.entries?`), a record by what stands behind the names of its fields (`Node.valuesOf`).

`Takes` and `Refuses` say of a reader what it makes of a node at any place. A map is taken if all its
values are, and refused if one of them is; what it stores of the entries is `Stores`. A record is read
field by field, in any order: each entry fills its field or is passed over (`readFields_fill`,
`readFields_unknown`), and one refused field is enough to refuse it (`readFields_refuses`).
-/

namespace ThemeRules

open Yaml

/-! ## What is written -/

namespace Yaml.Node

/-- The text of a scalar, whatever it means. -/
def text? (node : Node) : Option String :=
  match node.target with
  | .scalar _ _ s => some s
  | _ => none

section Entries

variable {α : Type} (holds? : Node → Option α)

def pair? (entry : Node × Node) : Option (String × α) :=
  match entry.1.text?, holds? entry.2 with
  | some name, some held => some (name, held)
  | _, _ => none

/-- The entries of a mapping as they are written, the values read by `holds?`. Nothing at all is an empty
mapping. -/
def entries? (node : Node) : Option (List (String × α)) :=
  match node.target with
  | .mapping _ entries => entries.mapM (pair? holds?)
  | .scalar none true "" => some []
  | _ => none

/-- What stands in a field that has to be there once. -/
def required? : List Node → Option α
  | [node] => holds? node
  | _ => none

/-- What stands in a field that may be missing or null. -/
def optional? : List Node → Option (Option α)
  | [] => some none
  | [node] =>
    match node.document? with
    | some .null => some none
    | _ => (holds? node).map some
  | _ => none

end Entries

/-- The pairs of a mapping. -/
def pairs? (node : Node) : Option (List (String × Node)) := node.entries? some

def valuesOf (name : String) (fields : List (String × Node)) : List Node :=
  (fields.filter fun e => e.1 == name).map Prod.snd

end Yaml.Node

/-! ## Readers and maps -/

namespace Yaml

/-- The reader takes this value from the node. -/
def Takes {α : Type} (read : Reader α) (node : Node) (value : α) : Prop :=
  ∀ path : Path, read path node = .ok value

def Refuses {α : Type} (read : Reader α) (node : Node) : Prop :=
  ∀ path : Path, ∃ misfit, read path node = .error misfit

theorem Refuses.decode {α : Type} {read : Reader α} {node : Node} (h : Refuses read node)
    {text : String} (htext : Node.ofText? text = some node) (value : α) :
    decode read text ≠ .ok value := by
  obtain ⟨misfit, hmisfit⟩ := h .root
  intro hvalue
  rw [decode_ok_iff htext, hmisfit] at hvalue
  cases hvalue

end Yaml

/-- The map holds the pairs: a key stands where it is first written, with the value that is written
last. -/
structure Stores {α β : Type} (Holds : α → β → Prop) (pairs : List (String × α))
    (map : OrderedMap β) : Prop where
  keys : map.keys = (pairs.map Prod.fst).eraseDups
  values : ∀ key, Option.Rel Holds (pairs.reverse.lookup key) (map.get? key)

section Stores

variable {α β : Type} {Holds : α → β → Prop}

/-- The values of two lists under the same keys. -/
def AlikePair (Holds : α → β → Prop) (e : String × α) (w : String × β) : Prop :=
  e.1 = w.1 ∧ Holds e.2 w.2

theorem lookup_alike {pairs : List (String × α)} {written : List (String × β)}
    (h : List.Forall₂ (AlikePair Holds) pairs written) (key : String) :
    Option.Rel Holds (pairs.lookup key) (written.lookup key) := by
  induction h with
  | nil => exact .none
  | @cons e w _ _ hpair _ ih =>
    obtain ⟨name, a⟩ := e
    obtain ⟨_, b⟩ := w
    obtain ⟨rfl, hheld⟩ : name = _ ∧ Holds a b := hpair
    by_cases hk : key = name
    · subst hk
      rw [List.lookup_cons_self, List.lookup_cons_self]
      exact .some hheld
    · rw [lookup_cons_of_ne _ _ hk, lookup_cons_of_ne _ _ hk]
      exact ih

theorem stores_ofList {pairs : List (String × α)} {written : List (String × β)}
    (h : List.Forall₂ (AlikePair Holds) pairs written) : Stores Holds pairs (.ofList written) where
  keys := by
    have hkeys : pairs.map Prod.fst = written.map Prod.fst := by
      rw [← List.forall₂_eq_eq_eq, List.forall₂_map_left_iff, List.forall₂_map_right_iff]
      exact h.imp fun _ _ hpair => hpair.1
    rw [OrderedMap.keys_ofList, hkeys]
  values key := by
    rw [OrderedMap.get?_ofList]
    exact lookup_alike (List.forall₂_reverse_iff.mpr h) key

theorem exists_of_rel_some {a : α} {found : Option β} (h : Option.Rel Holds (some a) found) :
    ∃ b, found = some b ∧ Holds a b := by
  cases h with
  | some hholds => exact ⟨_, rfl, hholds⟩

theorem Stores.get?_of_lookup {pairs : List (String × α)} {map : OrderedMap β}
    (h : Stores Holds pairs map) (key : String) {a : α} (hkey : pairs.reverse.lookup key = some a) :
    ∃ b, map.get? key = some b ∧ Holds a b :=
  exists_of_rel_some (hkey ▸ h.values key)

end Stores

namespace Yaml.Node

theorem asText_of_text? {node : Node} {s : String} (h : node.text? = some s) (expected : String) :
    Takes (asText expected) node s := by
  intro path
  unfold text? at h
  split at h
  · rename_i htarget
    cases h
    rw [asText, htarget]
  · cases h

section Maps

variable {α β : Type} {holds? : Node → Option α} {Holds : α → β → Prop} {read : Reader β}

theorem pair?_eq_some {key value : Node} {name : String} {held : α}
    (h : pair? holds? (key, value) = some (name, held)) :
    key.text? = some name ∧ holds? value = some held := by
  unfold pair? at h
  split at h
  · rename_i hname hheld
    cases h
    exact ⟨hname, hheld⟩
  · cases h

theorem asEntries_of_entries? {node : Node} {held : List (String × α)}
    (h : node.entries? holds? = some held) :
    ∃ entries, (∀ expected, Takes (asEntries expected) node entries) ∧
      List.Forall₂ (fun e w => pair? holds? e = some w) entries held := by
  unfold entries? at h
  split at h
  · rename_i entries htarget
    exact ⟨entries, fun expected path => by rw [asEntries, htarget], mapM_eq_some_iff.mp h⟩
  · rename_i htarget
    cases h
    exact ⟨[], fun expected path => by rw [asEntries, htarget]; rfl, .nil⟩
  · cases h

theorem takes_readEntries {entries : List (Node × Node)} {held : List (String × α)}
    (hentries : List.Forall₂ (fun e w => pair? holds? e = some w) entries held)
    (h : ∀ e ∈ held, ∀ node, holds? node = some e.2 →
      ∃ value, Takes read node value ∧ Holds e.2 value) :
    ∃ written : List (String × β), List.Forall₂ (AlikePair Holds) held written ∧
      ∀ path map, readEntries read path map entries = .ok (map.insertAll written) := by
  induction hentries with
  | nil => exact ⟨[], .nil, fun _ _ => rfl⟩
  | @cons entry e _ _ hentry _ ih =>
    obtain ⟨key, node⟩ := entry
    obtain ⟨name, a⟩ := e
    obtain ⟨hname, hheld⟩ := pair?_eq_some hentry
    obtain ⟨value, htakes, hholds⟩ := h (name, a) List.mem_cons_self node hheld
    obtain ⟨written, hwritten, hread⟩ := ih fun e he => h e (List.mem_cons_of_mem _ he)
    refine ⟨(name, value) :: written, .cons ⟨rfl, hholds⟩ hwritten, fun path map => ?_⟩
    simp only [readEntries, asText_of_text? hname _ path, htakes (valuePath path key), hread]
    rfl

/-- A map is taken if all its values are, and then it stores them. -/
theorem takes_asMap {node : Node} {held : List (String × α)}
    (hnode : node.entries? holds? = some held)
    (h : ∀ e ∈ held, ∀ node, holds? node = some e.2 →
      ∃ value, Takes read node value ∧ Holds e.2 value) :
    ∃ map, Takes (asMap read) node map ∧ Stores Holds held map := by
  obtain ⟨entries, hentries, hheld⟩ := asEntries_of_entries? hnode
  obtain ⟨written, hwritten, hread⟩ := takes_readEntries hheld h
  refine ⟨.ofList written, fun path => ?_, stores_ofList hwritten⟩
  simp only [asMap, hentries "a map" path, hread]
  rfl

theorem refuses_readEntries {entries : List (Node × Node)} {held : List (String × α)}
    (hentries : List.Forall₂ (fun e w => pair? holds? e = some w) entries held)
    {e : String × α} (he : e ∈ held) (h : ∀ node, holds? node = some e.2 → Refuses read node)
    (path : Path) : ∀ map, ∃ misfit, readEntries read path map entries = .error misfit := by
  induction hentries with
  | nil => cases he
  | @cons entry e' _ _ hentry _ ih =>
    intro map
    obtain ⟨key, node⟩ := entry
    obtain ⟨name, a⟩ := e'
    obtain ⟨hname, hheld⟩ := pair?_eq_some hentry
    rcases List.mem_cons.mp he with rfl | he
    · obtain ⟨misfit, hmisfit⟩ := h node hheld (valuePath path key)
      exact ⟨misfit, by simp only [readEntries, asText_of_text? hname _ path, hmisfit]⟩
    · cases hread : read (valuePath path key) node with
      | error misfit =>
        exact ⟨misfit, by simp only [readEntries, asText_of_text? hname _ path, hread]⟩
      | ok value =>
        obtain ⟨misfit, hmisfit⟩ := ih he (map.insert name value)
        exact ⟨misfit, by
          simp only [readEntries, asText_of_text? hname _ path, hread, hmisfit]⟩

/-- A map is refused if one of its values is. -/
theorem refuses_asMap {node : Node} {held : List (String × α)}
    (hnode : node.entries? holds? = some held) {e : String × α} (he : e ∈ held)
    (h : ∀ node, holds? node = some e.2 → Refuses read node) : Refuses (asMap read) node := by
  intro path
  obtain ⟨entries, hentries, hheld⟩ := asEntries_of_entries? hnode
  obtain ⟨misfit, hmisfit⟩ := refuses_readEntries hheld he h path .empty
  exact ⟨misfit, by simp only [asMap, hentries "a map" path, hmisfit]⟩

/-! ## Optional fields -/

theorem document?_nothing {node : Node} (h : node.target = .scalar none true "") :
    node.document? = some .null := by
  have hnull : (Node.scalar none true "").document? = some .null := by rfl
  cases node with
  | «alias» target =>
    obtain rfl : target = .scalar none true "" := h
    exact hnull
  | scalar tag isPlain s => rw [← hnull]; exact congrArg document? h
  | sequence | mapping | beyond => cases h

/-- A mapping stands for itself, unless it is written as nothing at all. -/
theorem isAbsent_of_entries? {node : Node} {held : List (String × α)}
    (h : node.entries? holds? = some held) (hnull : node.document? ≠ some .null) :
    node.isAbsent = .ok false := by
  unfold entries? at h
  split at h
  · rename_i htarget
    rw [isAbsent, htarget]
  · rename_i htarget
    exact absurd (document?_nothing htarget) hnull
  · cases h

theorem takes_asOption {node : Node} {value : β} (habsent : node.isAbsent = .ok false)
    (h : Takes read node value) : Takes (asOption read) node (some value) := by
  intro path
  simp only [asOption, habsent, h path]

theorem refuses_asOption {node : Node} (habsent : node.isAbsent = .ok false)
    (h : Refuses read node) : Refuses (asOption read) node := by
  intro path
  obtain ⟨misfit, hmisfit⟩ := h path
  exact ⟨misfit, by simp only [asOption, habsent, hmisfit]⟩

theorem takes_null {node : Node} (h : node.document? = some .null) :
    Takes (asOption read) node none := by
  intro path
  obtain ⟨-, habsent⟩ | ⟨hnull, -⟩ := Config.isAbsent_of_document h
  · simp only [asOption, habsent]
  · exact absurd rfl hnull

end Maps

/-! ## Fields -/

/-- The nodes fill a field, of which `current` has been read: either there are none, or there is one and
nothing has been read before. -/
inductive Fills {α : Type} (read : Reader α) : Option α → List Node → Option α → Prop where
  | kept (current : Option α) : Fills read current [] current
  | read {node : Node} {value : α} : Takes read node value → Fills read none [node] (some value)

theorem fills_required {α : Type} {holds? : Node → Option α} {read : Reader α}
    (hread : ∀ node value, holds? node = some value → Takes read node value)
    {nodes : List Node} {value : α} (h : required? holds? nodes = some value) :
    Fills read none nodes (some value) := by
  match nodes, h with
  | [node], h => exact .read (hread node value h)

theorem optional?_eq_some {α : Type} {holds? : Node → Option α} {nodes : List Node} {held : α}
    (h : optional? holds? nodes = some (some held)) :
    ∃ node, nodes = [node] ∧ holds? node = some held ∧ node.document? ≠ some .null := by
  match nodes, h with
  | [node], h =>
    rw [optional?] at h
    split at h
    · cases h
    · rename_i hnull
      obtain ⟨_, hheld, hsome⟩ := Option.map_eq_some_iff.mp h
      cases hsome
      exact ⟨node, rfl, hheld, hnull⟩

theorem optional?_eq_none {α : Type} {holds? : Node → Option α} {nodes : List Node}
    (h : optional? holds? nodes = some none) :
    nodes = [] ∨ ∃ node, nodes = [node] ∧ node.document? = some .null := by
  match nodes, h with
  | [], _ => exact .inl rfl
  | [node], h =>
    rw [optional?] at h
    split at h
    · rename_i hnull
      exact .inr ⟨node, rfl, hnull⟩
    · obtain ⟨_, -, hsome⟩ := Option.map_eq_some_iff.mp h
      cases hsome

theorem optional?_mapping {α : Type} (holds? : Node → Option α) (entries : List (Node × Node)) :
    optional? holds? [.mapping none entries] = (holds? (.mapping none entries)).map some := by
  rw [optional?]
  split
  · rename_i hnull
    obtain ⟨-, habsent⟩ | ⟨hne, -⟩ := Config.isAbsent_of_document hnull
    · cases habsent
    · exact absurd rfl hne
  · rfl

/-- An optional map is taken if all its values are. -/
theorem fills_optional {α β : Type} {holds? : Node → Option α} {Holds : α → β → Prop}
    {read : Reader β} {nodes : List Node} {held : Option (List (String × α))}
    (hnodes : optional? (entries? holds?) nodes = some held)
    (h : ∀ e ∈ held.getD [], ∀ node, holds? node = some e.2 →
      ∃ value, Takes read node value ∧ Holds e.2 value) :
    ∃ final : Option (Option (OrderedMap β)), Fills (asOption (asMap read)) none nodes final ∧
      Option.Rel (Stores Holds) held final.join := by
  cases held with
  | none =>
    obtain rfl | ⟨node, rfl, hnull⟩ := optional?_eq_none hnodes
    · exact ⟨none, .kept none, .none⟩
    · exact ⟨some none, .read (takes_null hnull), .none⟩
  | some held =>
    obtain ⟨node, rfl, hheld, hnull⟩ := optional?_eq_some hnodes
    obtain ⟨map, htakes, hstores⟩ := takes_asMap hheld h
    have habsent := isAbsent_of_entries? hheld hnull
    exact ⟨some (some map), .read (takes_asOption habsent htakes), .some hstores⟩

/-- An optional map is refused if one of its values is. -/
theorem refuses_optional {α β : Type} {holds? : Node → Option α} {read : Reader β}
    {nodes : List Node} {held : Option (List (String × α))}
    (hnodes : optional? (entries? holds?) nodes = some held) {e : String × α}
    (he : e ∈ held.getD []) (h : ∀ node, holds? node = some e.2 → Refuses read node) :
    ∃ node ∈ nodes, Refuses (asOption (asMap read)) node := by
  cases held with
  | none => cases he
  | some held =>
    obtain ⟨node, rfl, hheld, hnull⟩ := optional?_eq_some hnodes
    have hrefuses := refuses_asMap hheld he h
    exact ⟨node, List.mem_singleton_self node,
      refuses_asOption (isAbsent_of_entries? hheld hnull) hrefuses⟩

theorem valuesOf_cons_self (name : String) (node : Node) (rest : List (String × Node)) :
    valuesOf name ((name, node) :: rest) = node :: valuesOf name rest := by
  simp [valuesOf]

theorem valuesOf_cons_of_ne {key name : String} (h : key ≠ name) (node : Node)
    (rest : List (String × Node)) : valuesOf name ((key, node) :: rest) = valuesOf name rest := by
  simp [valuesOf, h]

theorem mem_of_valuesOf {name : String} {fields : List (String × Node)} {node : Node}
    (h : node ∈ valuesOf name fields) : (name, node) ∈ fields := by
  obtain ⟨e, he, rfl⟩ := List.mem_map.mp h
  obtain ⟨hmem, hname⟩ := List.mem_filter.mp he
  obtain rfl := eq_of_beq hname
  exact hmem

section Records

variable {σ α : Type} {field : String → Option (σ → Option (Path → Node → Except Misfit σ))}
  {name : String} {read : Reader α} {get : σ → Option α} {set : σ → α → σ}

/-- The field of this name is read once, by `read`; `set` puts what has been read into the draft. -/
def IsSlot (field : String → Option (σ → Option (Path → Node → Except Misfit σ))) (name : String)
    (read : Reader α) (get : σ → Option α) (set : σ → α → σ) : Prop :=
  ∃ known, field name = some known ∧ ∀ draft, known draft =
    if (get draft).isSome then none else some fun path node => (read path node).map (set draft)

/-- An entry that fills a field leaves none to come for it. -/
theorem readFields_fill (hslot : IsSlot field name read get set) {key node : Node}
    (hkey : key.text? = some name) {draft : σ} {nodes : List Node} {final : Option α}
    (h : Fills read (get draft) (node :: nodes) final) :
    ∃ value, Fills read (some value) nodes final ∧ ∀ path rest,
      readFields field path draft ((key, node) :: rest) =
        readFields field path (set draft value) rest := by
  obtain ⟨known, hfield, hknown⟩ := hslot
  generalize hcurrent : get draft = current at h
  cases h with
  | @read _ value htakes =>
    have hread : known draft = some fun path node => (read path node).map (set draft) := by
      rw [hknown draft, hcurrent]
      rfl
    refine ⟨value, .kept _, fun path rest => ?_⟩
    simp only [readFields, asText_of_text? hkey _ path, hfield, hread,
      htakes (valuePath path key), Except.map]

theorem readFields_unknown {key : Node} (hkey : key.text? = some name) (hfield : field name = none)
    (node : Node) (draft : σ) (path : Path) (rest : List (Node × Node)) :
    readFields field path draft ((key, node) :: rest) = readFields field path draft rest := by
  simp only [readFields, asText_of_text? hkey _ path, hfield]

/-- A record is refused if one of its known fields is. -/
theorem readFields_refuses (hslot : IsSlot field name read get set)
    {entries : List (Node × Node)} {fields : List (String × Node)}
    (hentries : List.Forall₂ (fun e w => pair? some e = some w) entries fields) {node : Node}
    (hmem : (name, node) ∈ fields) (h : Refuses read node) (path : Path) :
    ∀ draft, ∃ misfit, readFields field path draft entries = .error misfit := by
  obtain ⟨known, hfield, hknown⟩ := hslot
  induction hentries with
  | nil => cases hmem
  | @cons entry e _ _ hentry _ ih =>
    intro draft
    obtain ⟨key, node'⟩ := entry
    obtain ⟨name', _⟩ := e
    obtain ⟨hkey, hnode⟩ := pair?_eq_some hentry
    obtain rfl := Option.some.inj hnode
    simp only [readFields, asText_of_text? hkey _ path]
    rcases List.mem_cons.mp hmem with heq | hmem
    · cases heq
      obtain ⟨misfit, hmisfit⟩ := h (valuePath path key)
      simp only [hfield, hknown draft]
      split
      · exact ⟨_, rfl⟩
      · rename_i hread
        split at hread <;> cases hread
        simp only [hmisfit]
        exact ⟨_, rfl⟩
    · -- whatever is read of this entry, the refused one is still to come
      cases field name' with
      | none => exact ih hmem draft
      | some other =>
        dsimp only
        cases other draft with
        | none => exact ⟨_, rfl⟩
        | some read =>
          dsimp only
          cases read (valuePath path key) node' with
          | error misfit => exact ⟨_, rfl⟩
          | ok next => exact ih hmem next

end Records

end Yaml.Node

end ThemeRules
