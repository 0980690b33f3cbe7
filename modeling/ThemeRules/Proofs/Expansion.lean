import ThemeRules.Proofs.FileTree
import ThemeRules.Proofs.GlobMatching
import ThemeRules.Source.Pattern

/-!
# ThemeRules.Proofs.Expansion

Which files a pattern names. The search looks up the parts before the first wildcard and holds the files
below that directory against the rest of the pattern. It finds what a search of the whole base directory
for the whole pattern would find (`expand_selects`): a text matches the whole pattern if it is those parts
and a text that matches the rest (`accepts_behind`), and the files below the directory are the files
below the base whose names start with those parts.
-/

namespace ThemeRules
namespace Pattern

/-- The parts of a pattern before the first one that holds a wildcard. -/
def leadingParts (pattern : List Char) : List (List Char) :=
  (splitSlash pattern).takeWhile fun part => !hasWildcard part

/-- The parts from the first one on that holds a wildcard. -/
def wildParts (pattern : List Char) : List (List Char) :=
  (splitSlash pattern).dropWhile fun part => !hasWildcard part

/-- A relative pattern of names; those before the first wildcard stand for themselves. -/
structure Plain (pattern : List Char) : Prop where
  names : ∀ part ∈ splitSlash pattern, IsName part
  literal : ∀ part ∈ leadingParts pattern, '\\' ∉ part ∧ '}' ∉ part

/-- The files are those below a directory whose names match, each once and in the order of their
paths. -/
structure Selects (fs : FileSystem) (base : FilePath) (tokens : List Glob.Token)
    (files : List FilePath) : Prop where
  mem_iff : ∀ path, path ∈ files ↔ ∃ names, names ≠ [] ∧ (∀ name ∈ names, IsName name) ∧
    path = base.below names ∧ fs.isFile path = true ∧ accepts tokens names = true
  ordered : files.Pairwise fun a b => a.le b = true ∧ a.same b = false

/-! ## The parts of a pattern -/

theorem leadingParts_append_wildParts (pattern : List Char) :
    leadingParts pattern ++ wildParts pattern = splitSlash pattern :=
  List.takeWhile_append_dropWhile

theorem split_literal {pattern : List Char} (h : wildParts pattern = []) :
    split pattern = (pattern, none) := by
  unfold wildParts at h
  simp only [split, h]

theorem split_wild {pattern : List Char} (h : wildParts pattern ≠ []) :
    split pattern = (joinSlash (leadingParts pattern), some (joinSlash (wildParts pattern))) := by
  obtain ⟨part, parts, hw⟩ := List.exists_cons_of_ne_nil h
  rw [hw]
  unfold wildParts at hw
  simp only [split, hw, leadingParts]

theorem isName_of_mem_leadingParts {pattern : List Char} (hp : Plain pattern) :
    ∀ part ∈ leadingParts pattern, IsName part := by
  intro part h
  apply hp.names
  rw [← leadingParts_append_wildParts]
  exact List.mem_append_left _ h

theorem isName_of_mem_wildParts {pattern : List Char} (hp : Plain pattern) :
    ∀ part ∈ wildParts pattern, IsName part := by
  intro part h
  apply hp.names
  rw [← leadingParts_append_wildParts]
  exact List.mem_append_right _ h

theorem literal_of_mem_leadingParts {pattern : List Char} (hp : Plain pattern) {c : Char}
    (h : c ∈ joinSlash (leadingParts pattern)) : Glob.Literal c := by
  rcases mem_joinSlash h with rfl | ⟨part, hpart, hc⟩
  · constructor <;> decide
  · have hwild : hasWildcard part = false := by
      have := List.all_eq_true.mp List.all_takeWhile part hpart
      simpa using this
    have hchars := List.any_eq_false.mp hwild c hc
    simp only [Bool.or_eq_true, beq_iff_eq, not_or] at hchars
    obtain ⟨⟨⟨hstar, hbyte⟩, hclass⟩, hopen⟩ := hchars
    obtain ⟨hescape, hclose⟩ := hp.literal part hpart
    exact ⟨hbyte, hstar, hclass, hopen, fun h => hclose (h ▸ hc), fun h => hescape (h ▸ hc)⟩

/-! ## Reading and matching the rest -/

theorem parse_literalPattern {pattern : List Char} (hp : Plain pattern)
    (h : wildParts pattern = []) : Glob.parse pattern = .ok (pattern.map .literal) := by
  apply Glob.parse_literal
  intro c hc
  apply literal_of_mem_leadingParts hp
  have hparts := leadingParts_append_wildParts pattern
  rw [h, List.append_nil] at hparts
  rw [hparts, joinSlash_splitSlash]
  exact hc

/-- The tokens of the rest and of the whole pattern accept the same names, behind the parts before. -/
def AcceptBehind (leading : List (List Char)) (rest whole : List Glob.Token) : Prop :=
  ∀ names, names ≠ [] → (∀ name ∈ names, IsName name) →
    (accepts whole names = true ↔
      ∃ tail, tail ≠ [] ∧ names = leading ++ tail ∧ accepts rest tail = true)

theorem acceptBehind_anchored {leading : List (List Char)} (hne : leading ≠ [])
    (hl : ∀ part ∈ leading, IsName part) {rest whole : List Glob.Token}
    (h : Glob.Anchored ((joinSlash leading).map .literal) rest whole) :
    AcceptBehind leading rest whole := by
  intro names hn hnames
  unfold accepts
  rw [Glob.isMatch_behind h]
  constructor
  · rintro ⟨text, ht, hm⟩
    refine ⟨splitSlash text, splitSlash_ne_nil text, ?_, ?_⟩
    · rw [← splitSlash_names hn hnames, ht, splitSlash_append_slash, splitSlash_names hne hl]
    · rw [joinSlash_splitSlash]
      exact hm
  · rintro ⟨tail, htail, rfl, hm⟩
    exact ⟨joinSlash tail, joinSlash_append hne htail, hm⟩

theorem parse_wildPattern {pattern : List Char} (hp : Plain pattern) (h : wildParts pattern ≠ []) :
    Glob.Agree (AcceptBehind (leadingParts pattern)) (Glob.parse (joinSlash (wildParts pattern)))
      (Glob.parse pattern) := by
  have hparts := leadingParts_append_wildParts pattern
  have hjoin := joinSlash_splitSlash pattern
  rw [← hparts] at hjoin
  by_cases hl : leadingParts pattern = []
  · rw [hl, List.nil_append] at hjoin
    rw [hl, hjoin]
    cases Glob.parse pattern with
    | error fault => exact .error fault
    | ok tokens =>
      refine .ok fun names hn _ => ⟨fun ha => ⟨names, hn, rfl, ha⟩, ?_⟩
      rintro ⟨tail, _, rfl, ha⟩
      exact ha
  · rw [joinSlash_append hl h] at hjoin
    obtain ⟨hne, hlast⟩ := joinSlash_names h (isName_of_mem_wildParts hp)
    have hagree := Glob.parse_behind (fun c => literal_of_mem_leadingParts hp) hne hlast
    rw [hjoin] at hagree
    rcases hagree.outcomes with ⟨fault, hr, hw⟩ | ⟨rest, whole, hr, hw, ha⟩
    · rw [hr, hw]
      exact .error fault
    · rw [hr, hw]
      exact .ok (acceptBehind_anchored hl (isName_of_mem_leadingParts hp) ha)

/-! ## The files of a pattern -/

theorem accepts_literal {pattern : List Char} {names : List (List Char)}
    (hn : names ≠ []) (hnames : ∀ name ∈ names, IsName name) :
    accepts (pattern.map .literal) names = true ↔ names = splitSlash pattern := by
  rw [accepts, Glob.isMatch_literal]
  constructor
  · intro h
    rw [← h, splitSlash_names hn hnames]
  · intro h
    rw [h, joinSlash_splitSlash]

theorem selects_literal (fs : FileSystem) (base : FilePath) {pattern : List Char}
    (hp : Plain pattern) :
    Selects fs base (pattern.map .literal)
      (if fs.isFile (base.join ⟨pattern⟩) then [base.join ⟨pattern⟩] else []) := by
  have hne := splitSlash_ne_nil pattern
  have hanchor : base.join ⟨pattern⟩ = base.below (splitSlash pattern) := by
    have hhead := FilePath.head?_joinSlash_ne_slash hp.names
    rw [FilePath.below_eq base hne hp.names, joinSlash_splitSlash]
    rw [joinSlash_splitSlash] at hhead
    exact FilePath.join_eq base hhead
  constructor
  · intro path
    constructor
    · intro h
      split at h
      · rename_i hfile
        rw [List.mem_singleton] at h
        rw [h]
        exact ⟨splitSlash pattern, hne, hp.names, hanchor, hfile,
          (accepts_literal hne hp.names).mpr rfl⟩
      · cases h
    · rintro ⟨names, hn, hnames, rfl, hfile, ha⟩
      rw [(accepts_literal hn hnames).mp ha, ← hanchor] at hfile ⊢
      rw [if_pos hfile]
      exact List.mem_singleton_self _
  · split
    · exact List.pairwise_singleton _ _
    · exact .nil

theorem selects_wild {fs : FileSystem} (hfs : fs.root.WellFormed) {base : FilePath}
    (hb : base.chars ≠ []) {leading : List (List Char)} (hl : ∀ name ∈ leading, IsName name)
    {rest whole : List Glob.Token} (h : AcceptBehind leading rest whole) :
    Selects fs base whole
      (FilePath.sort (((fs.filesBelow (base.join ⟨joinSlash leading⟩)).filter (accepts rest)).map
        (base.join ⟨joinSlash leading⟩).below)) := by
  constructor
  · intro path
    rw [FilePath.mem_sort, List.mem_map]
    constructor
    · rintro ⟨tail, ht, rfl⟩
      obtain ⟨hmem, ha⟩ := List.mem_filter.mp ht
      obtain ⟨hne, htail, hfile⟩ := (FileSystem.mem_filesBelow_join hfs hb hl).mp hmem
      have hnames : ∀ name ∈ leading ++ tail, IsName name := fun name hn =>
        (List.mem_append.mp hn).elim (hl name) (htail name)
      have hne' : leading ++ tail ≠ [] := by simp [hne]
      rw [FilePath.below_join base hne hl htail]
      exact ⟨leading ++ tail, hne', hnames, rfl, hfile, (h _ hne' hnames).mpr ⟨tail, hne, rfl, ha⟩⟩
    · rintro ⟨names, hn, hnames, rfl, hfile, ha⟩
      obtain ⟨tail, hne, rfl, hrest⟩ := (h names hn hnames).mp ha
      have htail : ∀ name ∈ tail, IsName name := fun name hm =>
        hnames name (List.mem_append_right _ hm)
      refine ⟨tail, List.mem_filter.mpr ⟨?_, hrest⟩, FilePath.below_join base hne hl htail⟩
      exact (FileSystem.mem_filesBelow_join hfs hb hl).mpr ⟨hne, htail, hfile⟩
  · apply FilePath.sort_pairwise
    rw [List.pairwise_map]
    have hnodup := (FileSystem.nodup_filesBelow hfs (base.join ⟨joinSlash leading⟩)).filter
      (accepts rest)
    refine hnodup.imp_of_mem ?_
    intro first second hfirst hsecond hne
    have h1 := FileSystem.isName_of_mem_filesBelow hfs (List.mem_filter.mp hfirst).1
    have h2 := FileSystem.isName_of_mem_filesBelow hfs (List.mem_filter.mp hsecond).1
    rw [← Bool.not_eq_true, FilePath.same_below _ h1.2 h2.2]
    exact hne

/-- Accepted names start with every run of parts that hold no wildcard. -/
theorem names_of_accepts {pattern : List Char} (hp : Plain pattern) {tokens : List Glob.Token}
    (hparse : Glob.parse pattern = .ok tokens) {front back : List (List Char)}
    (hparts : splitSlash pattern = front ++ back) (hback : back ≠ [])
    (hfront : ∀ part ∈ front, hasWildcard part = false) {names : List (List Char)}
    (hn : names ≠ []) (hnames : ∀ name ∈ names, IsName name)
    (ha : accepts tokens names = true) : ∃ tail, tail ≠ [] ∧ names = front ++ tail := by
  by_cases hw : wildParts pattern = []
  · rw [parse_literalPattern hp hw] at hparse
    cases hparse
    exact ⟨back, hback, by rw [(accepts_literal hn hnames).mp ha, hparts]⟩
  · have hlead : leadingParts pattern = front ++ back.takeWhile fun part => !hasWildcard part := by
      rw [leadingParts, hparts, List.takeWhile_append_of_pos]
      intro part hpart
      rw [hfront part hpart]
      rfl
    rcases (parse_wildPattern hp hw).outcomes with ⟨fault, _, hf⟩ | ⟨rest, whole, _, hwhole, h⟩
    · rw [hf] at hparse
      cases hparse
    · rw [hwhole] at hparse
      cases hparse
      obtain ⟨tail, htail, rfl, _⟩ := (h names hn hnames).mp ha
      refine ⟨(back.takeWhile fun part => !hasWildcard part) ++ tail, by simp [htail], ?_⟩
      rw [hlead, List.append_assoc]

/-- A part that leads to no directory leaves no files. -/
theorem Selects.eq_nil {fs : FileSystem} {base : FilePath} (hb : fs.isDirectory base = true)
    {pattern : List Char} (hp : Plain pattern) {tokens : List Glob.Token}
    (hparse : Glob.parse pattern = .ok tokens) {files : List FilePath}
    (h : Selects fs base tokens files) {front back : List (List Char)}
    (hparts : splitSlash pattern = front ++ back) (hback : back ≠ [])
    (hfront : ∀ part ∈ front, hasWildcard part = false)
    (hmissing : fs.isDirectory (base.below front) = false) : files = [] := by
  cases files with
  | nil => rfl
  | cons file files =>
    obtain ⟨names, hn, hnames, rfl, hfile, ha⟩ := (h.mem_iff file).mp List.mem_cons_self
    obtain ⟨tail, htail, rfl⟩ := names_of_accepts hp hparse hparts hback hfront hn hnames ha
    have hdir := FileSystem.isDirectory_of_isFile fs hb htail
      (fun name hm => hnames name (List.mem_append_left _ hm))
      (fun name hm => hnames name (List.mem_append_right _ hm)) hfile
    rw [hmissing] at hdir
    cases hdir

theorem expand_selects (fs : FileSystem) (hfs : fs.root.WellFormed) {base : FilePath}
    (hb : fs.isDirectory base = true) {pattern : String} (hp : Plain pattern.toList) :
    match Glob.parse pattern.toList with
    | .error fault => expand fs base pattern =
        .error (.badPattern pattern (joinSlash (wildParts pattern.toList)) fault)
    | .ok tokens => ∃ files, expand fs base pattern = .ok files ∧ Selects fs base tokens files ∧
        ∀ front back, splitSlash pattern.toList = front ++ back → back ≠ [] →
          (∀ part ∈ front, hasWildcard part = false) →
          fs.isDirectory (base.below front) = false → files = [] := by
  have hne := FileSystem.ne_nil_of_isDirectory hb
  by_cases hw : wildParts pattern.toList = []
  · have hparse := parse_literalPattern hp hw
    have hselects := selects_literal fs base hp
    rw [hparse]
    refine ⟨_, ?_, hselects, fun front back => hselects.eq_nil hb hp hparse⟩
    simp only [expand, split_literal hw]
  · rcases (parse_wildPattern hp hw).outcomes with
      ⟨fault, hrest, hwhole⟩ | ⟨rest, whole, hrest, hwhole, h⟩
    · rw [hwhole]
      simp only [expand, split_wild hw, hrest]
    · have hselects := selects_wild hfs hne (isName_of_mem_leadingParts hp) h
      rw [hwhole]
      refine ⟨_, ?_, hselects, fun front back => hselects.eq_nil hb hp hwhole⟩
      simp only [expand, split_wild hw, hrest]

/-- Theme files in two directories, and another file beside them. -/
def siteFiles : FileSystem where
  root := .directory [("site".toList, .directory [
    ("ui".toList, .directory [
      ("dark".toList, .directory [("b.yml".toList, .file .empty)]),
      ("a.yml".toList, .file .empty)]),
    ("notes.txt".toList, .file .empty)])]
  workingDirectory := .ofString "/"

theorem siteFiles_wellFormed : siteFiles.root.WellFormed := by
  have hfile : Entry.WellFormed (.file .empty) := .file .empty
  refine .directory (by decide) (by decide) (List.forall_mem_singleton.mpr ?_)
  refine .directory (by decide) (by decide) (List.forall_mem_cons.mpr ⟨?_, ?_⟩)
  · refine .directory (by decide) (by decide) (List.forall_mem_cons.mpr ⟨?_, ?_⟩)
    · exact .directory (by decide) (by decide) (List.forall_mem_singleton.mpr hfile)
    · exact List.forall_mem_singleton.mpr hfile
  · exact List.forall_mem_singleton.mpr hfile

/-- Stars behind a directory find what is in it and what is further down. -/
theorem expand_siteFiles :
    siteFiles.root.WellFormed ∧ siteFiles.isDirectory (.ofString "/site") = true ∧
      Plain "ui/**/*.yml".toList ∧
      ∃ files, expand siteFiles (.ofString "/site") "ui/**/*.yml" = .ok files ∧
        .ofString "/site/ui/a.yml" ∈ files ∧
        .ofString "/site/ui/dark/b.yml" ∈ files := by
  have hb : siteFiles.isDirectory (.ofString "/site") = true := by decide
  have hp : Plain "ui/**/*.yml".toList := ⟨by decide, by decide⟩
  have h := expand_selects siteFiles siteFiles_wellFormed hb hp
  have hparse : Glob.parse "ui/**/*.yml".toList =
      .ok ("ui".toList.map .literal ++ .between :: .anyRun :: ".yml".toList.map .literal) := by rfl
  rw [hparse] at h
  obtain ⟨files, he, hselects, -⟩ := h
  refine ⟨siteFiles_wellFormed, hb, hp, files, he, ?_, ?_⟩
  · refine (hselects.mem_iff _).mpr ⟨["ui".toList, "a.yml".toList], ?_⟩
    decide
  · refine (hselects.mem_iff _).mpr ⟨["ui".toList, "dark".toList, "b.yml".toList], ?_⟩
    decide

end Pattern
end ThemeRules
