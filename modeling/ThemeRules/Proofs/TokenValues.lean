import ThemeRules.Proofs.TokenSections

/-!
# ThemeRules.Proofs.TokenValues

What a style value stands for. A value with a section is written into the path of a token and read back
from there. The keys of a colour are the parts around its first hyphen (`resolve_dotted`). Every other
value is meant as one key, and is one where it could be written between bare brackets; no other
value is (`resolve_indexed_iff`).
-/

namespace ThemeRules

/-! ## Keys into a document -/

/-- Keys lead from a document to a value in it, by names through objects and by indices through
arrays. -/
inductive Json.LeadsTo : Json → List (List Char) → Json → Prop where
  | here (value : Json) : LeadsTo value [] value
  | field {fields : List (String × Json)} {key : List Char} {keys : List (List Char)}
      {next value : Json} :
      fields.lookup (.ofList key) = some next → LeadsTo next keys value →
        LeadsTo (.object fields) (key :: keys) value
  | item {items : List Json} {i : Nat} {key : List Char} {keys : List (List Char)}
      {next value : Json} :
      Token.index? key = some i → items[i]? = some next → LeadsTo next keys value →
        LeadsTo (.array items) (key :: keys) value

/-- The keys lead to the text, from the section of that name. -/
def TokenTable.HasToken (tokens : TokenTable) (name : String) (keys : List (List Char))
    (text : String) : Prop :=
  ∃ value, tokens.section? name = some value ∧ value.LeadsTo keys (.string text)

namespace Token

theorem descend_eq_some_iff {keys : List (List Char)} :
    ∀ {document value : Json}, descend document keys = some value ↔ document.LeadsTo keys value := by
  induction keys with
  | nil =>
    intro document value
    constructor
    · intro h; cases h; exact .here document
    · intro h; cases h; rfl
  | cons key keys ih =>
    intro document value
    rw [descend]
    constructor
    · intro h
      split at h
      · rename_i next hnext
        cases document with
        | object fields => exact .field hnext (ih.mp h)
        | array items =>
          obtain ⟨i, hi, hitem⟩ := Option.bind_eq_some_iff.mp hnext
          exact .item hi hitem (ih.mp h)
        | _ => cases hnext
      · cases h
    · intro h
      cases h with
      | field hfield hrest => simp only [child?, hfield, ih.mpr hrest]
      | item hi hitem hrest => simp only [child?, hi, Option.bind_some, hitem, ih.mpr hrest]

end Token

theorem text?_eq_some_iff {tokens : TokenTable} {path name : String} {keys : List (List Char)}
    (h : tokens.lookup path = (tokens.section? name).bind fun value => Token.descend value keys)
    (text : String) : tokens.text? path = some text ↔ tokens.HasToken name keys text := by
  rw [TokenTable.text?, h]
  constructor
  · intro htext
    obtain ⟨document, hdocument, hstring⟩ := Option.bind_eq_some_iff.mp htext
    obtain ⟨value, hvalue, hdescend⟩ := Option.bind_eq_some_iff.mp hdocument
    cases document with
    | string s => cases hstring; exact ⟨value, hvalue, Token.descend_eq_some_iff.mp hdescend⟩
    | _ => cases hstring
  · rintro ⟨value, hvalue, hleads⟩
    rw [hvalue, Option.bind_some, Token.descend_eq_some_iff.mpr hleads]
    rfl

/-! ## Colours -/

/-- The keys that a colour stands for: what is in front of its first hyphen and what is behind it, or
all of it if it has none. -/
def hyphenKeys (raw : List Char) : List (List Char) :=
  match raw.dropWhile (· != '-') with
  | [] => [raw]
  | _ :: behind => [raw.takeWhile (· != '-'), behind]

section Hyphen

variable {front raw : List Char}

theorem ne_hyphen (h : '-' ∉ raw) : ∀ c ∈ raw, (c != '-') = true :=
  fun _ hc => bne_iff_ne.mpr fun heq => h (heq ▸ hc)

theorem hyphenKeys_plain (h : '-' ∉ raw) : hyphenKeys raw = [raw] := by
  have hrest : (raw ++ []).dropWhile (· != '-') = [] := List.dropWhile_append_of_pos (ne_hyphen h)
  rw [List.append_nil] at hrest
  rw [hyphenKeys, hrest]

theorem hyphenKeys_append (h : '-' ∉ front) (behind : List Char) :
    hyphenKeys (front ++ '-' :: behind) = [front, behind] := by
  have hrest : (front ++ '-' :: behind).dropWhile (· != '-') = '-' :: behind :=
    List.dropWhile_append_of_pos (ne_hyphen h)
  have hfront : (front ++ '-' :: behind).takeWhile (· != '-') = front ++ [] :=
    List.takeWhile_append_of_pos (ne_hyphen h)
  rw [List.append_nil] at hfront
  rw [hyphenKeys, hrest, hfront]

theorem dotHyphen_append (h : '-' ∉ front) (rest : List Char) :
    Resolution.dotHyphen (front ++ rest) = front ++ Resolution.dotHyphen rest := by
  induction front with
  | nil => rfl
  | cons c front ih =>
    simp only [List.mem_cons, not_or] at h
    rw [List.cons_append, Resolution.dotHyphen, if_neg (Ne.symm h.1), ih h.2, List.cons_append]

/-- A colour is read as its keys, where they are not empty and have no dot and no bracket in them. -/
theorem parsePath_dotHyphen (hdot : '.' ∉ raw) (hbracket : '[' ∉ raw)
    (hkeys : ∀ key ∈ hyphenKeys raw, key ≠ []) :
    Token.parsePath (Resolution.dotHyphen raw) = hyphenKeys raw := by
  by_cases hhyphen : '-' ∈ raw
  · obtain ⟨front, behind, rfl, hfront⟩ := List.eq_append_cons_of_mem hhyphen
    rw [hyphenKeys_append hfront] at hkeys ⊢
    simp only [List.mem_append, List.mem_cons, not_or] at hdot hbracket
    have hread : Resolution.dotHyphen (front ++ '-' :: behind) = front ++ '.' :: behind := by
      rw [dotHyphen_append hfront]
      rfl
    rw [hread, Token.parsePath_append_dot (Token.closesBrackets_plain hbracket.1),
      Token.parsePath_plain (hkeys front (by simp)) hdot.1 hbracket.1,
      Token.parsePath_plain (hkeys behind (by simp)) hdot.2.2 hbracket.2.2]
    rfl
  · rw [hyphenKeys_plain hhyphen] at hkeys ⊢
    have hread : Resolution.dotHyphen raw = raw := by
      have h := dotHyphen_append hhyphen []
      rwa [List.append_nil, Resolution.dotHyphen, List.append_nil] at h
    rw [hread, Token.parsePath_plain (hkeys raw (by simp)) hdot hbracket]

end Hyphen

/-- A colour without dots and brackets stands for the text to which its keys lead in the section of its
property, and for itself if they lead to no text. -/
theorem resolve_dotted {property name : String} {generator : Generator}
    (hg : Generator.find? property = some generator) (hr : generator.resolution = .dotted name)
    {raw : String} (hdot : '.' ∉ raw.toList) (hbracket : '[' ∉ raw.toList)
    (hkeys : ∀ key ∈ hyphenKeys raw.toList, key ≠ []) (tokens : TokenTable) :
    (∀ text, tokens.HasToken name (hyphenKeys raw.toList) text →
      generator.resolve tokens raw = text) ∧
    ((∀ text, ¬ tokens.HasToken name (hyphenKeys raw.toList) text) →
      generator.resolve tokens raw = raw) := by
  have hs : generator.resolution.section? = some name := by rw [hr]; rfl
  have hpath : generator.resolution.tokenPath? raw =
      some (name ++ "." ++ .ofList (Resolution.dotHyphen raw.toList)) := by rw [hr]; rfl
  have hlookup := lookup_dotted (isKey_of_find? hg hs) tokens (Resolution.dotHyphen raw.toList)
  rw [parsePath_dotHyphen hdot hbracket hkeys] at hlookup
  rw [Generator.resolve, resolve_eq_text hs hpath]
  constructor
  · intro text h
    rw [(text?_eq_some_iff hlookup text).mpr h]
    rfl
  · intro h
    rw [Option.eq_none_iff_forall_ne_some.mpr fun text htext =>
      h text ((text?_eq_some_iff hlookup text).mp htext)]
    rfl

/-- A colour with a list of shades, and one with a shade whose name has a hyphen. -/
def shades : TokenTable where
  root := .object [("textColor", .object [
    ("blue", .array [.string "#eff6ff", .string "#3b82f6"]),
    ("gray", .object [("warm-500", .string "#78716c"), ("warm", .null)])])]

def Generator.textColor : Generator := ⟨.dotted "textColor", ["color"]⟩

theorem shades_resolve :
    Generator.find? "textColor" = some .textColor ∧
      Generator.textColor.resolve shades "gray-warm-500" = "#78716c" ∧
      Generator.textColor.resolve shades "blue-1" = "#3b82f6" ∧
      Generator.textColor.resolve shades "gray-warm" = "gray-warm" := by
  have hg : Generator.find? "textColor" = some .textColor := by decide
  have hgray : shades.HasToken "textColor" ["gray".toList, "warm-500".toList] "#78716c" :=
    ⟨_, rfl, .field rfl (.field rfl (.here _))⟩
  have hblue : shades.HasToken "textColor" ["blue".toList, "1".toList] "#3b82f6" :=
    ⟨_, rfl, .field rfl (.item (by decide : Token.index? "1".toList = some 1) rfl (.here _))⟩
  -- the value is there, but it is no text
  have hwarm : ∀ text, ¬ shades.HasToken "textColor" ["gray".toList, "warm".toList] text := by
    rintro text ⟨value, hvalue, hleads⟩
    cases hvalue
    cases Token.descend_eq_some_iff.mpr hleads
  exact ⟨hg, (resolve_dotted hg rfl (by decide) (by decide) (by decide) shades).1 "#78716c" hgray,
    (resolve_dotted hg rfl (by decide) (by decide) (by decide) shades).1 "#3b82f6" hblue,
    (resolve_dotted hg rfl (by decide) (by decide) (by decide) shades).2 hwarm⟩

/-! ## Single keys -/

section Indexed

variable {name : String}

/-- What is read first of a value that bare brackets cannot hold is not that value. -/
theorem parseFrom_not_canWrite {raw : List Char} (h : ¬ Token.Spelling.bracketed.CanWrite raw) :
    ∃ key keys, Token.parseFrom (.inside []) (raw ++ [']']) = key :: keys ∧ key ≠ raw := by
  by_cases hbracket : ']' ∈ raw
  · obtain ⟨inner, rest, heq, hinner⟩ := List.eq_append_cons_of_mem hbracket
    refine ⟨Token.stripQuotes inner, Token.parsePath (rest ++ [']']), ?_, fun hkey => ?_⟩
    · rw [heq, List.append_assoc, List.cons_append, Token.parseFrom_bracket hinner]
      rfl
    · exact hinner ((Token.stripQuotes_sublist inner).mem (hkey ▸ hbracket))
  · refine ⟨Token.stripQuotes raw, [], Token.parseFrom_bracket hbracket [] [], fun heq => ?_⟩
    exact h ⟨hbracket, (Token.stripQuotes_eq_self_iff raw).mp heq⟩

theorem lookup_canWrite (hkey : Token.IsKey name.toList) {tokens : TokenTable}
    {fields : List (String × Json)} (hsection : tokens.section? name = some (.object fields))
    {raw : String} (h : Token.Spelling.bracketed.CanWrite raw.toList) :
    tokens.lookup (name ++ "[" ++ raw ++ "]") = fields.lookup raw := by
  have hread : Token.parseFrom (.inside []) (raw.toList ++ [']']) = [raw.toList] := by
    rw [Token.parseFrom_bracket h.1]
    exact congrArg (· :: []) ((Token.stripQuotes_eq_self_iff raw.toList).mpr h.2)
  rw [lookup_indexed hkey, hread, hsection, Option.bind_some, Token.descend, Token.child?,
    String.ofList_toList]
  cases fields.lookup raw <;> rfl

/-- A table with one key in one section. -/
def TokenTable.single (name key : String) (value : Json) : TokenTable where
  root := .object [(name, .object [(key, value)])]

theorem section?_single (name key : String) (value : Json) :
    (TokenTable.single name key value).section? name = some (.object [(key, value)]) := by
  simp [TokenTable.single, TokenTable.section?, Json.field?]

/-- A value that bare brackets cannot hold is not found, even if no other key is there. -/
theorem lookup_not_canWrite (hkey : Token.IsKey name.toList) {raw : String} (value : Json)
    (h : ¬ Token.Spelling.bracketed.CanWrite raw.toList) :
    (TokenTable.single name raw value).lookup (name ++ "[" ++ raw ++ "]") = none := by
  obtain ⟨key, keys, hread, hne⟩ := parseFrom_not_canWrite h
  have hother : (String.ofList key == raw) = false := by
    rw [beq_eq_false_iff_ne]
    rintro rfl
    exact hne String.toList_ofList.symm
  rw [lookup_indexed hkey, hread, section?_single, Option.bind_some, Token.descend, Token.child?,
    List.lookup_cons, hother]
  rfl

end Indexed

/-- A value is looked up as one key of its section, and stands for itself where the section has no text
under that key; exactly for the values that bare brackets can hold, this is so in every table. -/
theorem resolve_indexed_iff {property name : String} {generator : Generator}
    (hg : Generator.find? property = some generator) (hr : generator.resolution = .indexed name)
    (raw : String) :
    (∀ (tokens : TokenTable) (fields : List (String × Json)),
      tokens.section? name = some (.object fields) →
        generator.resolve tokens raw = ((fields.lookup raw).bind Json.string?).getD raw) ↔
      Token.Spelling.bracketed.CanWrite raw.toList := by
  have hs : generator.resolution.section? = some name := by rw [hr]; rfl
  have hpath : generator.resolution.tokenPath? raw = some (name ++ "[" ++ raw ++ "]") := by
    rw [hr]
    rfl
  have hkey : Token.IsKey name.toList := isKey_of_find? hg hs
  have hresolve : ∀ tokens : TokenTable, generator.resolve tokens raw =
      ((tokens.lookup (name ++ "[" ++ raw ++ "]")).bind Json.string?).getD raw :=
    resolve_eq_text hs hpath
  constructor
  · intro hlaw
    by_contra hwrite
    have hvalue := hlaw (.single name raw (.string (raw ++ "!"))) _ (section?_single name raw _)
    rw [hresolve, lookup_not_canWrite hkey _ hwrite] at hvalue
    have hlonger : raw = raw ++ "!" := by simpa [Json.string?] using hvalue
    exact absurd (congrArg String.length hlonger) (by simp)
  · intro hwrite tokens fields hsection
    rw [hresolve, lookup_canWrite hkey hsection hwrite]

/-- Keys and values as they stand in style sheets. -/
def literalNames : TokenTable where
  root := .object [
    ("fontFamily", .object [("Inter", .string "Inter, sans-serif"),
      ("'Fira Code', a.b[c", .string "monospace")]),
    ("cursor", .object [("a]", .string "grab")])]

def Generator.fontFamily : Generator := ⟨.indexed "fontFamily", ["fontFamily"]⟩

def Generator.cursor : Generator := ⟨.indexed "cursor", ["cursor"]⟩

theorem literalNames_resolve :
    Generator.find? "fontFamily" = some .fontFamily ∧
      Generator.fontFamily.resolve literalNames "'Fira Code', a.b[c" = "monospace" ∧
      Generator.fontFamily.resolve literalNames "Inter, 'x" = "Inter, 'x" := by
  have hg : Generator.find? "fontFamily" = some .fontFamily := by decide
  have hkey := (resolve_indexed_iff hg rfl "'Fira Code', a.b[c").mpr (by decide) literalNames _ rfl
  have hother := (resolve_indexed_iff hg rfl "Inter, 'x").mpr (by decide) literalNames _ rfl
  exact ⟨hg, hkey, hother⟩

/-- Quotes around a value are taken for quotes around a key, so that a value that is no key of its section
is replaced; a bracket in a value ends the key, so that a value that is a key is not found. -/
theorem literalNames_misread :
    (∃ fields, Generator.find? "fontFamily" = some .fontFamily ∧
      literalNames.section? "fontFamily" = some (.object fields) ∧
      fields.lookup "'Inter'" = none ∧
      Generator.fontFamily.resolve literalNames "'Inter'" = "Inter, sans-serif") ∧
    ∃ fields, Generator.find? "cursor" = some .cursor ∧
      literalNames.section? "cursor" = some (.object fields) ∧
      fields.lookup "a]" = some (.string "grab") ∧
      Generator.cursor.resolve literalNames "a]" = "a]" :=
  ⟨⟨_, by decide, rfl, rfl, by decide⟩, ⟨_, by decide, rfl, rfl, by decide⟩⟩

end ThemeRules
