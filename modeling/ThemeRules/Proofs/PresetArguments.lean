import Mathlib.Data.Set.List
import ThemeRules.CommandLine.Arguments

/-!
# ThemeRules.Proofs.PresetArguments

Presets as they are written on the command line: a name alone, or a name, a colon and a row of items with
commas between them. An item is blank, or a theme with blanks around it. The first colon ends the name, so a
theme may have colons in it; commas are looked for before blanks are cut off, so each item comes out of the
row as it went in (`themesOf_row`). What is written is read back (`parsePreset?_text`), and every text is
written in this way, but for those without a name (`nameless_or_written`).
-/

namespace ThemeRules

/-! ## Blanks around a text -/

namespace Text

/-- Blanks and nothing else. -/
structure Blanks where
  chars : List Char
  isBlank_of_mem : ∀ c ∈ chars, isBlank c = true

/-- The text neither begins nor ends with a blank. -/
structure IsTrimmed (text : List Char) : Prop where
  head : ∀ c ∈ text.head?, isBlank c = false
  last : ∀ c ∈ text.getLast?, isBlank c = false

theorem dropWhile_blanks {blanks text : List Char} (hblanks : ∀ c ∈ blanks, isBlank c = true)
    (hhead : ∀ c ∈ text.head?, isBlank c = false) : (blanks ++ text).dropWhile isBlank = text := by
  rw [List.dropWhile_append_of_pos hblanks]
  cases text with
  | nil => rfl
  | cons c rest => exact List.dropWhile_cons_of_neg (Bool.eq_false_iff.mp (hhead c rfl))

theorem trim_blanks (blanks : Blanks) : trim blanks.chars = [] := by
  have hdrop : (blanks.chars ++ []).dropWhile isBlank = [] :=
    dropWhile_blanks blanks.isBlank_of_mem (fun _ hc => nomatch hc)
  rw [List.append_nil] at hdrop
  rw [trim, hdrop]
  rfl

theorem trim_padded {text : List Char} (h : IsTrimmed text) (hne : text ≠ [])
    (before behind : Blanks) : trim (before.chars ++ text ++ behind.chars) = text := by
  have hhead : ∀ c ∈ (text ++ behind.chars).head?, isBlank c = false := by
    cases text with
    | nil => exact absurd rfl hne
    | cons c rest => exact h.head
  have hlast : ∀ c ∈ text.reverse.head?, isBlank c = false := by
    rw [List.head?_reverse]
    exact h.last
  have hbehind : ∀ c ∈ behind.chars.reverse, isBlank c = true :=
    fun c hc => behind.isBlank_of_mem c (List.mem_reverse.mp hc)
  rw [trim, List.append_assoc, dropWhile_blanks before.isBlank_of_mem hhead, List.reverse_append,
    dropWhile_blanks hbehind hlast, List.reverse_reverse]

theorem isBlank_head?_dropWhile (text : List Char) :
    ∀ c ∈ (text.dropWhile isBlank).head?, isBlank c = false := by
  intro c hc
  have hfirst := List.head?_dropWhile_not isBlank text
  rw [hc] at hfirst
  exact hfirst

/-- A text is what is left of it without blanks, between the blanks that were cut off. -/
theorem exists_blanks_around (text : List Char) :
    ∃ before behind : Blanks, before.chars ++ trim text ++ behind.chars = text := by
  have hblank : ∀ (t : List Char), ∀ c ∈ t.takeWhile isBlank, isBlank c = true :=
    fun _ => List.all_eq_true.mp List.all_takeWhile
  refine ⟨⟨text.takeWhile isBlank, hblank text⟩,
    ⟨((text.dropWhile isBlank).reverse.takeWhile isBlank).reverse,
      fun c hc => hblank _ c (List.mem_reverse.mp hc)⟩, ?_⟩
  rw [trim, List.append_assoc, ← List.reverse_append, List.takeWhile_append_dropWhile,
    List.reverse_reverse, List.takeWhile_append_dropWhile]

theorem isTrimmed_trim (text : List Char) : IsTrimmed (trim text) where
  head := by
    intro c hc
    have hprefix : trim text <+: text.dropWhile isBlank := by
      rw [trim, ← List.reverse_suffix, List.reverse_reverse]
      exact List.dropWhile_suffix isBlank
    obtain ⟨behind, hbehind⟩ := hprefix
    refine isBlank_head?_dropWhile text c ?_
    rw [← hbehind, List.head?_append, hc]
    rfl
  last := by
    rw [trim, List.getLast?_reverse]
    exact isBlank_head?_dropWhile _

end Text

namespace CommandLine

/-! ## Parts between commas -/

theorem splitComma_eq_splitOn (text : List Char) : splitComma text = text.splitOn ',' := by
  induction text with
  | nil => rfl
  | cons c rest ih =>
    rw [splitComma, List.splitOn_cons_eq_if_modifyHead, ih]
    by_cases hc : c = ','
    · rw [if_pos hc, if_pos (beq_iff_eq.mpr hc)]
    · obtain ⟨part, parts, hparts⟩ := List.exists_cons_of_ne_nil (List.splitOn_ne_nil ',' rest)
      rw [if_neg hc, if_neg (mt beq_iff_eq.mp hc), hparts]
      rfl

theorem comma_not_mem_of_mem_splitComma {text : List Char} :
    ∀ part ∈ splitComma text, ',' ∉ part := by
  induction text with
  | nil => simp [splitComma]
  | cons c rest ih =>
    rw [splitComma]
    split
    · exact List.forall_mem_cons.mpr ⟨List.not_mem_nil, ih⟩
    · next hc =>
      split
      · next part parts hparts =>
        rw [hparts, List.forall_mem_cons] at ih
        refine List.forall_mem_cons.mpr ⟨?_, ih.2⟩
        simp [Ne.symm hc, ih.1]
      · simp [Ne.symm hc]

/-! ## Presets as they are written -/

/-- A name of a preset that an argument can hold. -/
structure PresetName where
  chars : List Char
  ne_nil : chars ≠ []
  no_colon : ':' ∉ chars

/-- A name of a theme that an argument can hold. -/
structure ThemeName where
  chars : List Char
  ne_nil : chars ≠ []
  no_comma : ',' ∉ chars
  isTrimmed : Text.IsTrimmed chars

/-- What is between two commas: blanks alone, or a theme with blanks around it. -/
inductive Item where
  | blank (blanks : Text.Blanks)
  | theme (before : Text.Blanks) (name : ThemeName) (behind : Text.Blanks)

namespace Item

def text : Item → List Char
  | blank blanks => blanks.chars
  | theme before name behind => before.chars ++ name.chars ++ behind.chars

def theme? : Item → Option String
  | blank _ => none
  | theme _ name _ => some (.ofList name.chars)

/-- The items with commas between them. -/
def row (items : List Item) : List Char := [','].intercalate (items.map text)

end Item

/-- A preset as an argument: a name alone, or with a colon and a row of items behind it. -/
inductive PresetArgument where
  | all (name : PresetName)
  | subset (name : PresetName) (items : List Item)

namespace PresetArgument

def text : PresetArgument → List Char
  | all name => name.chars
  | subset name items => name.chars ++ ':' :: Item.row items

/-- What the argument selects: all themes, or those among its items, in their order. -/
def selector : PresetArgument → PresetSelector
  | all name => .all (.ofList name.chars)
  | subset name items => .subset (.ofList name.chars) (items.filterMap Item.theme?)

/-- The argument as the value of its option. -/
def option (argument : PresetArgument) : String := "--preset=" ++ .ofList argument.text

end PresetArgument

/-! ## Rows of items -/

/-- The themes that parts of a text are read as. -/
def themesOf (parts : List (List Char)) : List String :=
  ((parts.map Text.trim).filter (!·.isEmpty)).map String.ofList

theorem Item.comma_not_mem_text (item : Item) : ',' ∉ item.text := by
  have hblanks : ∀ blanks : Text.Blanks, ',' ∉ blanks.chars :=
    fun blanks h => absurd (blanks.isBlank_of_mem ',' h) (by decide)
  cases item with
  | blank blanks => exact hblanks blanks
  | theme before name behind => simp [text, hblanks, name.no_comma]

theorem themesOf_map_text (items : List Item) :
    themesOf (items.map Item.text) = items.filterMap Item.theme? := by
  induction items with
  | nil => rfl
  | cons item rest ih =>
    cases item with
    | blank blanks =>
      have htrim : Text.trim (Item.blank blanks).text = [] := Text.trim_blanks blanks
      rw [List.filterMap_cons_none rfl, ← ih]
      simp [themesOf, htrim]
    | theme before name behind =>
      have htrim : Text.trim (Item.theme before name behind).text = name.chars :=
        Text.trim_padded name.isTrimmed name.ne_nil before behind
      have htheme : (Item.theme before name behind).theme? = some (.ofList name.chars) := rfl
      rw [List.filterMap_cons_some htheme, ← ih]
      simp [themesOf, htrim, name.ne_nil]

theorem themesOf_row (items : List Item) :
    themesOf (splitComma (Item.row items)) = items.filterMap Item.theme? := by
  cases items with
  | nil =>
    -- the empty text is one blank part, not none
    rfl
  | cons item rest =>
    have hcommas : ∀ part ∈ (item :: rest).map Item.text, ',' ∉ part :=
      List.forall_mem_map.mpr fun item _ => item.comma_not_mem_text
    rw [Item.row, splitComma_eq_splitOn,
      List.splitOn_intercalate ',' hcommas (List.cons_ne_nil _ _), ← themesOf_map_text]

theorem exists_item {part : List Char} (h : ',' ∉ part) : ∃ item : Item, item.text = part := by
  obtain ⟨before, behind, hpart⟩ := Text.exists_blanks_around part
  by_cases hempty : Text.trim part = []
  · -- nothing stands between the blanks that are cut off on the two sides
    rw [hempty, List.append_nil] at hpart
    refine ⟨.blank ⟨part, fun c hc => ?_⟩, rfl⟩
    rw [← hpart, List.mem_append] at hc
    exact hc.elim (before.isBlank_of_mem c) (behind.isBlank_of_mem c)
  · have hcomma : ',' ∉ Text.trim part := by
      intro hc
      rw [← hpart] at h
      simp [hc] at h
    exact ⟨.theme before ⟨Text.trim part, hempty, hcomma, Text.isTrimmed_trim part⟩ behind, hpart⟩

theorem exists_row (text : List Char) : ∃ items, Item.row items = text := by
  have hrange : splitComma text ∈ Set.range (List.map Item.text) := by
    rw [Set.range_list_map]
    exact fun part hpart => exists_item (comma_not_mem_of_mem_splitComma part hpart)
  obtain ⟨items, hitems⟩ := hrange
  exact ⟨items, by rw [Item.row, hitems, splitComma_eq_splitOn, List.intercalate_splitOn]⟩

/-! ## Arguments read back -/

section Name

variable {name : List Char}

theorem ne_colon_of_not_mem (h : ':' ∉ name) : ∀ c ∈ name, (c != ':') = true :=
  fun _ hc => bne_iff_ne.mpr fun heq => h (heq ▸ hc)

theorem parsePreset?_alone (hne : name ≠ []) (hcolon : ':' ∉ name) :
    parsePreset? name = some (.all (.ofList name)) := by
  have htake : (name ++ []).takeWhile (· != ':') = name ++ [] :=
    List.takeWhile_append_of_pos (ne_colon_of_not_mem hcolon)
  have hdrop : (name ++ []).dropWhile (· != ':') = [] :=
    List.dropWhile_append_of_pos (ne_colon_of_not_mem hcolon)
  rw [List.append_nil] at htake hdrop
  simp [parsePreset?, htake, hdrop, hne]

theorem parsePreset?_colon (hne : name ≠ []) (hcolon : ':' ∉ name) (themes : List Char) :
    parsePreset? (name ++ ':' :: themes) =
      some (.subset (.ofList name) (themesOf (splitComma themes))) := by
  have htake : (name ++ ':' :: themes).takeWhile (· != ':') = name ++ [] :=
    List.takeWhile_append_of_pos (ne_colon_of_not_mem hcolon)
  have hdrop : (name ++ ':' :: themes).dropWhile (· != ':') = ':' :: themes :=
    List.dropWhile_append_of_pos (ne_colon_of_not_mem hcolon)
  rw [List.append_nil] at htake
  simp [parsePreset?, htake, hdrop, hne, themesOf]

end Name

theorem parsePreset?_text (argument : PresetArgument) :
    parsePreset? argument.text = some argument.selector := by
  cases argument with
  | all name => exact parsePreset?_alone name.ne_nil name.no_colon
  | subset name items =>
    rw [PresetArgument.text, parsePreset?_colon name.ne_nil name.no_colon, themesOf_row]
    rfl

/-- A text without a name is empty or begins with a colon; every other text is an argument. -/
theorem nameless_or_written (text : List Char) :
    (text = [] ∨ ∃ themes, text = ':' :: themes) ∨
      ∃ argument : PresetArgument, argument.text = text := by
  cases text with
  | nil => exact .inl (.inl rfl)
  | cons c rest =>
    by_cases hc : c = ':'
    · exact .inl (.inr ⟨rest, by rw [hc]⟩)
    · refine .inr ?_
      by_cases hcolon : ':' ∈ c :: rest
      · obtain ⟨name, themes, htext, hname⟩ := List.eq_append_cons_of_mem hcolon
        -- in front of the first colon there is at least the first character
        have hne : name ≠ [] := by
          rintro rfl
          exact hc (List.cons.inj htext).1
        obtain ⟨items, rfl⟩ := exists_row themes
        exact ⟨.subset ⟨name, hne, hname⟩ items, htext.symm⟩
      · exact ⟨.all ⟨c :: rest, List.cons_ne_nil c rest, hcolon⟩, rfl⟩

theorem parsePreset?_eq_some_iff (text : List Char) (selector : PresetSelector) :
    parsePreset? text = some selector ↔
      ∃ argument : PresetArgument, argument.text = text ∧ argument.selector = selector := by
  constructor
  · intro h
    rcases nameless_or_written text with (rfl | ⟨themes, rfl⟩) | ⟨argument, rfl⟩
    · cases h
    · cases h
    · rw [parsePreset?_text] at h
      exact ⟨argument, rfl, Option.some.inj h⟩
  · rintro ⟨argument, rfl, rfl⟩
    exact parsePreset?_text argument

theorem parsePreset?_eq_none_iff (text : List Char) :
    parsePreset? text = none ↔ text = [] ∨ ∃ themes, text = ':' :: themes := by
  constructor
  · intro h
    refine (nameless_or_written text).resolve_right ?_
    rintro ⟨argument, rfl⟩
    rw [parsePreset?_text] at h
    cases h
  · rintro (rfl | ⟨themes, rfl⟩)
    · rfl
    · rfl

/-! ## Options of the command -/

/-- An argument behind two hyphens that leads on is read, and then the others are. -/
theorem parseFrom_long {reading next : Reading} {argument : String} {c : Char} {text : List Char}
    (hargument : argument.toList = '-' :: '-' :: c :: text)
    (hlong : reading.long (c :: text) = .ok (.goOn next)) (rest : List String) :
    parseFrom reading (argument :: rest) = parseFrom next rest := by
  conv_lhs => unfold parseFrom
  simp only [hargument, hlong]

theorem toList_option (argument : PresetArgument) :
    argument.option.toList = "--preset=".toList ++ argument.text := by
  rw [PresetArgument.option, String.toList_append]
  exact congrArg _ String.toList_ofList

theorem long_preset (draft : Draft) (argument : PresetArgument) :
    (Reading.mk draft none).long ("preset=".toList ++ argument.text) =
      .ok (.goOn ⟨{ draft with presets := draft.presets ++ [argument.selector] }, none⟩) := by
  have hname : ("preset=".toList ++ argument.text).takeWhile (· != '=') = "preset".toList := rfl
  have hvalue : ("preset=".toList ++ argument.text).dropWhile (· != '=') = '=' :: argument.text := rfl
  have hsetting : Setting.ofLongName? (.ofList "preset".toList) = some .preset := by decide
  have htake : draft.take .preset (some (.ofList argument.text)) =
      .ok { draft with presets := draft.presets ++ [argument.selector] } := by
    simp [Draft.take, Draft.has, Draft.assign, parsePreset?_text]
  simp only [Reading.long, hname, hvalue, hsetting, Reading.setting, Reading.settle, htake]

/-- Options behind one another are read in their order. -/
theorem parseFrom_presets (arguments : List PresetArgument) : ∀ (draft : Draft) (rest : List String),
    parseFrom ⟨draft, none⟩ (arguments.map PresetArgument.option ++ rest) =
      parseFrom
        ⟨{ draft with presets := draft.presets ++ arguments.map PresetArgument.selector }, none⟩
        rest := by
  -- each option leaves a draft behind with which the next one begins
  induction arguments with
  | nil =>
    intro draft rest
    rw [List.map_nil, List.map_nil, List.append_nil, List.nil_append]
  | cons argument arguments ih =>
    intro draft rest
    rw [List.map_cons, List.cons_append,
      parseFrom_long (toList_option argument) (long_preset draft argument), ih, List.map_cons,
      List.append_assoc, List.singleton_append]

/-- Every preset selection with names that an argument can hold can be written on the command line. A text
is read as a selection exactly if it is an argument for it, and as none exactly if the text in front of its
first colon, or the whole text if there is no colon in it, is empty. Options with arguments add their
selections to those of the draft, in the order of the options. -/
theorem presetSelections_expressible :
    (∀ text selector, parsePreset? text = some selector ↔
      ∃ argument : PresetArgument, argument.text = text ∧ argument.selector = selector) ∧
    (∀ text, parsePreset? text = none ↔ text = [] ∨ ∃ themes, text = ':' :: themes) ∧
    ∀ (arguments : List PresetArgument) (draft : Draft) (rest : List String),
      parseFrom ⟨draft, none⟩ (arguments.map PresetArgument.option ++ rest) =
        parseFrom
          ⟨{ draft with presets := draft.presets ++ arguments.map PresetArgument.selector }, none⟩
          rest :=
  ⟨parsePreset?_eq_some_iff, parsePreset?_eq_none_iff, parseFrom_presets⟩

/-- A theme with a colon in it is wanted twice, between blanks of several kinds and blank items. Where only
blank items are left no theme is wanted, and without a colon all are. -/
example :
    parsePreset? "forms:\u3000a:b ,, select\u0085, ,a:b\t".toList =
        some (.subset "forms" ["a:b", "select", "a:b"]) ∧
      parsePreset? "forms: ,".toList = some (.subset "forms" []) ∧
      parsePreset? "forms".toList = some (.all "forms") := by
  decide

end CommandLine
end ThemeRules
