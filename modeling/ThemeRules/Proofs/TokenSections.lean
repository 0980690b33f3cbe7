import ThemeRules.Proofs.DeclaredStyles
import ThemeRules.Proofs.TokenPaths

/-!
# ThemeRules.Proofs.TokenSections

What a style value can reach in a token table. The path of a token is put together from the name of a
section and the raw value as it was written, and is then taken apart again; the raw value may hold
dots, brackets and quotes. Still the first segment of the path is the name of the section, whatever
follows (`parsePath_dotted`, `parsePath_indexed`), so no value reaches anything outside of the section of
its property (`lookup_tokenPath`, `declare_inside_sections`).
-/

namespace ThemeRules

/-! ## Sections -/

/-- The name of the section in which a resolution looks for tokens. -/
def Resolution.section? : Resolution → Option String
  | .dotted tokens | .indexed tokens => some tokens
  | .alias _ | .verbatim => none

/-- What a table has under the name of a section; only an object has sections. -/
def TokenTable.section? (tokens : TokenTable) (name : String) : Option Json :=
  tokens.root.field? name

/-- A style property has a generator that looks for tokens in the section. -/
def Style.LooksIn (styles : StyleMap) (name : String) : Prop :=
  ∃ e ∈ styles.entries, ∃ generator, Generator.find? e.1 = some generator ∧
    generator.resolution.section? = some name

/-- The text is the document itself or a leaf somewhere inside it. -/
inductive Json.HasText : Json → String → Prop where
  | text (s : String) : HasText (.string s) s
  | field {fields : List (String × Json)} {key s : String} {value : Json} :
      (key, value) ∈ fields → HasText value s → HasText (.object fields) s
  | item {items : List Json} {s : String} {value : Json} :
      value ∈ items → HasText value s → HasText (.array items) s

namespace Token

/-! ## The first segment of a path -/

/-- A name that stands for one key at the start of a path, and for no index. -/
structure IsKey (name : List Char) : Prop where
  ne_nil : name ≠ []
  no_dot : '.' ∉ name
  no_bracket : '[' ∉ name
  not_index : index? name = none

instance (name : List Char) : Decidable (IsKey name) :=
  decidable_of_iff (name ≠ [] ∧ '.' ∉ name ∧ '[' ∉ name ∧ index? name = none)
    ⟨fun ⟨hne, hdot, hbracket, hindex⟩ => ⟨hne, hdot, hbracket, hindex⟩,
      fun h => ⟨h.ne_nil, h.no_dot, h.no_bracket, h.not_index⟩⟩

/-- Behind a dot, a path goes on like a path of its own. -/
theorem parsePath_dotted {name : List Char} (h : IsKey name) (rest : List Char) :
    parsePath (name ++ '.' :: rest) = name :: parsePath rest := by
  rw [parsePath_append_dot (closesBrackets_plain h.no_bracket),
    parsePath_plain h.ne_nil h.no_dot h.no_bracket]
  rfl

theorem parsePath_indexed {name : List Char} (h : IsKey name) (rest : List Char) :
    parsePath (name ++ '[' :: rest) = name :: parseFrom (.inside []) rest := by
  rw [parsePath_append_bracket (closesBrackets_plain h.no_bracket),
    parsePath_plain h.ne_nil h.no_dot h.no_bracket]
  rfl

/-- A key leads into a section, since no array has it for an index. -/
theorem descend_key (document : Json) {name : String} (h : IsKey name.toList)
    (segments : List (List Char)) :
    descend document (name.toList :: segments) =
      (document.field? name).bind fun value => descend value segments := by
  have hchild : child? document name.toList = document.field? name := by
    cases document with
    | object fields => rw [child?, String.ofList_toList]; rfl
    | array items => rw [child?, h.not_index]; rfl
    | _ => rfl
  rw [descend, hchild]
  cases document.field? name <;> rfl

theorem hasText_of_descend {segments : List (List Char)} :
    ∀ {document : Json} {s : String}, descend document segments = some (.string s) →
      document.HasText s := by
  induction segments with
  | nil =>
    intro document s h
    cases h
    exact .text s
  | cons segment rest ih =>
    intro document s h
    rw [descend] at h
    split at h
    · rename_i child hchild
      cases document with
      | object fields =>
        exact .field (mem_of_lookup hchild) (ih h)
      | array items =>
        obtain ⟨i, -, hi⟩ := Option.bind_eq_some_iff.mp hchild
        exact .item (List.mem_of_getElem? hi) (ih h)
      | _ => cases hchild
    · cases h

end Token

/-! ## Values and sections -/

theorem isKey_of_registered : ∀ e ∈ Generator.all, ∀ name, e.2.resolution.section? = some name →
    Token.IsKey name.toList := by
  have hall : Generator.all.all (fun e => e.2.resolution.section?.all fun name =>
      decide (Token.IsKey name.toList)) = true := by
    decide +kernel
  intro e he name hname
  have := List.all_eq_true.mp hall e he
  rw [hname] at this
  exact of_decide_eq_true this

theorem isKey_of_find? {property name : String} {generator : Generator}
    (hg : Generator.find? property = some generator)
    (hs : generator.resolution.section? = some name) : Token.IsKey name.toList :=
  isKey_of_registered (property, generator) (mem_of_lookup hg) name hs

section Section

variable {resolution : Resolution} {name : String}

theorem lookup_dotted (hkey : Token.IsKey name.toList) (tokens : TokenTable) (rest : List Char) :
    tokens.lookup (name ++ "." ++ .ofList rest) =
      (tokens.section? name).bind fun value => Token.descend value (Token.parsePath rest) := by
  rw [TokenTable.lookup, TokenTable.section?, ← Token.descend_key _ hkey,
    ← Token.parsePath_dotted hkey]
  simp

theorem lookup_indexed (hkey : Token.IsKey name.toList) (tokens : TokenTable) (raw : String) :
    tokens.lookup (name ++ "[" ++ raw ++ "]") = (tokens.section? name).bind fun value =>
      Token.descend value (Token.parseFrom (.inside []) (raw.toList ++ [']'])) := by
  rw [TokenTable.lookup, TokenTable.section?, ← Token.descend_key _ hkey,
    ← Token.parsePath_indexed hkey]
  simp

/-- The path of a token leads into the section and on by segments that the raw value decides alone. -/
theorem lookup_tokenPath (hs : resolution.section? = some name) (hkey : Token.IsKey name.toList)
    (raw : String) :
    ∃ path segments, resolution.tokenPath? raw = some path ∧ ∀ tokens : TokenTable,
      tokens.lookup path =
        (tokens.section? name).bind fun value => Token.descend value segments := by
  -- the raw value is read in the state behind a dot or behind a bracket, whatever was read before
  cases resolution with
  | dotted _ => cases hs; exact ⟨_, _, rfl, fun tokens => lookup_dotted hkey tokens _⟩
  | indexed _ => cases hs; exact ⟨_, _, rfl, fun tokens => lookup_indexed hkey tokens raw⟩
  | _ => cases hs

theorem resolve_eq_text {path raw : String} (hs : resolution.section? = some name)
    (hpath : resolution.tokenPath? raw = some path) (tokens : TokenTable) :
    resolution.resolve tokens raw = (tokens.text? path).getD raw := by
  cases resolution with
  | dotted _ => simp only [Resolution.resolve, hpath]; rfl
  | indexed _ => simp only [Resolution.resolve, hpath]; rfl
  | _ => cases hs

theorem resolve_congr (hs : resolution.section? = some name) (hkey : Token.IsKey name.toList)
    {tokens tokens' : TokenTable} (h : tokens.section? name = tokens'.section? name) (raw : String) :
    resolution.resolve tokens raw = resolution.resolve tokens' raw := by
  obtain ⟨path, segments, hpath, hlookup⟩ := lookup_tokenPath hs hkey raw
  rw [resolve_eq_text hs hpath, resolve_eq_text hs hpath]
  simp only [TokenTable.text?, hlookup, h]

theorem resolve_hasText (hs : resolution.section? = some name) (hkey : Token.IsKey name.toList)
    (tokens : TokenTable) (raw : String) :
    resolution.resolve tokens raw = raw ∨ ∃ value, tokens.section? name = some value ∧
      value.HasText (resolution.resolve tokens raw) := by
  obtain ⟨path, segments, hpath, hlookup⟩ := lookup_tokenPath hs hkey raw
  rw [resolve_eq_text hs hpath]
  cases htext : tokens.text? path with
  | none => exact .inl rfl
  | some s =>
    obtain ⟨document, hdocument, hs⟩ := Option.bind_eq_some_iff.mp htext
    rw [hlookup, Option.bind_eq_some_iff] at hdocument
    obtain ⟨value, hvalue, hdescend⟩ := hdocument
    cases document with
    | string s' =>
      cases hs
      exact .inr ⟨value, hvalue, Token.hasText_of_descend hdescend⟩
    | _ => cases hs

end Section

/-! ## Declarations -/

theorem Generator.resolve_congr_tables {property : String} {generator : Generator}
    (hg : Generator.find? property = some generator) {tokens tokens' : TokenTable}
    (h : ∀ name, generator.resolution.section? = some name →
      tokens.section? name = tokens'.section? name) (raw : String) :
    generator.resolve tokens raw = generator.resolve tokens' raw := by
  unfold Generator.resolve
  cases hs : generator.resolution.section? with
  | some name => exact resolve_congr hs (isKey_of_find? hg hs) (h name hs) raw
  | none =>
    cases hr : generator.resolution with
    | dotted _ => rw [hr] at hs; cases hs
    | indexed _ => rw [hr] at hs; cases hs
    | _ => rfl

theorem value_of_mem_declare {generator : Generator} {tokens : TokenTable} {raw : String}
    {d : String × String} (h : d ∈ (generator.declare tokens raw).entries) :
    d.2 = generator.resolve tokens raw := by
  obtain ⟨property, -, hd⟩ := List.mem_map.mp (OrderedMap.mem_ofList h)
  rw [← hd]

/-- Styles have the same declarations under two tables that agree on the sections of their properties,
and what a property with a section declares is its raw value or a text of the section. -/
theorem declare_inside_sections {styles : StyleMap} (hstyles : Style.Registered styles)
    (className : String) {tokens tokens' : TokenTable}
    (h : ∀ name, Style.LooksIn styles name → tokens.section? name = tokens'.section? name) :
    (∃ declarations, Style.declare tokens className styles = .ok declarations ∧
      Style.declare tokens' className styles = .ok declarations) ∧
      ∀ e ∈ styles.entries, ∀ generator name, Generator.find? e.1 = some generator →
        generator.resolution.section? = some name →
        ∀ d ∈ (generator.declare tokens e.2).entries, d.2 = e.2 ∨
          ∃ value, tokens.section? name = some value ∧ value.HasText d.2 := by
  constructor
  · have hd := Style.declare_eq tokens className hstyles
    refine ⟨Style.declared tokens styles, hd, ?_⟩
    rw [← hd]
    refine Style.declareFrom_congr className (fun e he generator hg => ?_) .empty
    exact Generator.resolve_congr_tables hg
      (fun name hs => (h name ⟨e, he, generator, hg, hs⟩).symm) e.2
  · intro e he generator name hg hs d hd
    rw [value_of_mem_declare hd]
    exact resolve_hasText hs (isKey_of_find? hg hs) tokens e.2

/-- A value that is written like a path out of its section. -/
def sneakyStyles : StyleMap := .ofList [("paddingTop", "4].margin[4"), ("textColor", "blue-500")]

def spacingTokens (margin : String) : TokenTable where
  root := .object [
    ("padding", .object [("4", .object [("margin", .object [("4", .string "1rem")])])]),
    ("margin", .object [("4", .string margin)])]

theorem sneakyStyles_inside_sections :
    Style.Registered sneakyStyles ∧
      (∀ name, Style.LooksIn sneakyStyles name →
        (spacingTokens "2rem").section? name = (spacingTokens "3rem").section? name) ∧
      (∃ declarations,
        Style.declare (spacingTokens "2rem") "card" sneakyStyles = .ok declarations ∧
          Style.declare (spacingTokens "3rem") "card" sneakyStyles = .ok declarations) ∧
      ∃ value, (spacingTokens "2rem").section? "padding" = some value ∧ value.HasText "1rem" := by
  have hstyles : Style.Registered sneakyStyles := by decide
  have hsections : ∀ name, Style.LooksIn sneakyStyles name →
      (spacingTokens "2rem").section? name = (spacingTokens "3rem").section? name := by
    rintro name ⟨e, he, generator, hg, hs⟩
    have hentries : sneakyStyles.entries = [("paddingTop", "4].margin[4"), ("textColor", "blue-500")] :=
      by decide
    rw [hentries, List.mem_cons, List.mem_singleton] at he
    rcases he with rfl | rfl
    · cases hg; cases hs; rfl
    · cases hg; cases hs; rfl
  obtain ⟨hdeclare, hvalues⟩ := declare_inside_sections hstyles "card" hsections
  refine ⟨hstyles, hsections, hdeclare, ?_⟩
  have hvalue := hvalues ("paddingTop", "4].margin[4") (by decide) ⟨.indexed "padding", ["paddingTop"]⟩
    "padding" rfl rfl ("paddingTop", "1rem") (by decide)
  exact hvalue.resolve_left (by decide)

end ThemeRules
