import ThemeRules.Proofs.Expansion

/-!
# ThemeRules.Proofs.Anchoring

Where a pattern starts. An absolute pattern whose first part behind the separator holds no wildcard
starts at the root, and no base directory has a say in what it names (`expand_absolute`). If that part
does hold one, nothing is left of the leading separator when the literal directory is cut off, and the
pattern starts at the base directory as if it were relative (`expand_wild_behind_slash`).
-/

namespace ThemeRules

namespace FilePath

theorem join_absolute (base : FilePath) (s : List Char) : base.join ⟨'/' :: s⟩ = ⟨'/' :: s⟩ := rfl

theorem isAbsolute_slashed {path : FilePath} (h : path.isAbsolute = true) (s : List Char) :
    isAbsolute ⟨path.slashed ++ s⟩ = true := by
  have hhead : path.chars.head? = some '/' := by simpa [isAbsolute] using h
  unfold slashed
  split <;> simp [isAbsolute, List.head?_append, hhead]

theorem join_slashed (base : FilePath) {path : FilePath} (h : path.isAbsolute = true)
    (s : List Char) : base.join ⟨path.slashed ++ s⟩ = ⟨path.slashed ++ s⟩ := by
  rw [join, if_pos (isAbsolute_slashed h s)]

theorem chars_ne_nil {path : FilePath} (h : path.isAbsolute = true) : path.chars ≠ [] := by
  intro hnil
  rw [isAbsolute, hnil] at h
  cases h

theorem isAbsolute_join {base : FilePath} (h : base.isAbsolute = true) (path : FilePath) :
    (base.join path).isAbsolute = true := by
  obtain ⟨chars⟩ := base
  cases chars with
  | nil => cases h
  | cons c rest =>
    unfold join
    split
    · assumption
    · split <;> exact h

theorem isAbsolute_below {names : List (List Char)} :
    ∀ {directory : FilePath}, directory.isAbsolute = true →
      (directory.below names).isAbsolute = true := by
  induction names with
  | nil => intro directory h; exact h
  | cons name rest ih =>
    intro directory h
    rw [below_cons]
    exact ih (isAbsolute_join h _)

theorem join_nil (base : FilePath) : base.join ⟨[]⟩ = ⟨base.slashed⟩ := by
  rw [join_eq base (by simp), List.append_nil]

end FilePath

namespace Pattern

/-! ## Expanding -/

/-- The files below a directory that the tokens accept, sorted. -/
def found (fs : FileSystem) (directory : FilePath) (tokens : List Glob.Token) : List FilePath :=
  FilePath.sort (((fs.filesBelow directory).filter (accepts tokens)).map directory.below)

theorem expand_literal (fs : FileSystem) (base : FilePath) {pattern : String}
    (h : wildParts pattern.toList = []) :
    expand fs base pattern = .ok (if fs.isFile (base.join ⟨pattern.toList⟩) then
      [base.join ⟨pattern.toList⟩] else []) := by
  simp only [expand, split_literal h]

theorem expand_wild (fs : FileSystem) (base : FilePath) {pattern : String}
    (h : wildParts pattern.toList ≠ []) :
    expand fs base pattern =
      match Glob.parse (joinSlash (wildParts pattern.toList)) with
      | .error fault => .error (.badPattern pattern (joinSlash (wildParts pattern.toList)) fault)
      | .ok tokens =>
        .ok (found fs (base.join ⟨joinSlash (leadingParts pattern.toList)⟩) tokens) := by
  simp only [expand, split_wild h]
  rfl

theorem found_slashed {fs : FileSystem} (hfs : fs.root.WellFormed) {directory : FilePath}
    (hne : directory.chars ≠ []) (tokens : List Glob.Token) :
    found fs ⟨directory.slashed⟩ tokens = found fs directory tokens := by
  unfold found
  rw [FileSystem.filesBelow_slashed hfs hne]
  congr 1
  apply List.map_congr_left
  intro names hmem
  obtain ⟨hn, hnames⟩ := FileSystem.isName_of_mem_filesBelow hfs (List.mem_filter.mp hmem).1
  rw [FilePath.below_eq _ hn hnames, FilePath.below_eq _ hn hnames, FilePath.slashed_slashed]

theorem selects_found {fs : FileSystem} (hfs : fs.root.WellFormed) {directory : FilePath}
    (hne : directory.chars ≠ []) (tokens : List Glob.Token) :
    Selects fs directory tokens (found fs directory tokens) := by
  have hall : AcceptBehind [] tokens tokens := by
    intro names hn _
    constructor
    · intro ha
      exact ⟨names, hn, rfl, ha⟩
    · rintro ⟨tail, _, rfl, ha⟩
      exact ha
  have hselects := selects_wild hfs hne (fun _ h => by cases h) hall
  rw [joinSlash, FilePath.join_nil] at hselects
  have hfound := found_slashed hfs hne tokens
  unfold found at hfound ⊢
  rw [← hfound]
  exact hselects

/-! ## Absolute patterns -/

/-- Parts without wildcards in front of a pattern come before its own leading parts. -/
theorem leadingParts_behind {front : List Char}
    (h : ∀ part ∈ splitSlash front, hasWildcard part = false) (behind : List Char) :
    leadingParts (front ++ '/' :: behind) = splitSlash front ++ leadingParts behind := by
  rw [leadingParts, splitSlash_append_slash, List.takeWhile_append_of_pos]
  · rfl
  · intro part hpart
    simp [h part hpart]

theorem wildParts_behind {front : List Char}
    (h : ∀ part ∈ splitSlash front, hasWildcard part = false) (behind : List Char) :
    wildParts (front ++ '/' :: behind) = wildParts behind := by
  rw [wildParts, splitSlash_append_slash, List.dropWhile_append_of_pos]
  · rfl
  · intro part hpart
    simp [h part hpart]

theorem hasWildcard_nil : ∀ part ∈ splitSlash [], hasWildcard part = false := by decide

theorem head?_leadingParts {pattern : List Char} (hhead : pattern.head? ≠ some '/')
    (hwild : wildParts pattern ≠ []) (hleading : leadingParts pattern ≠ []) :
    (joinSlash (leadingParts pattern)).head? ≠ some '/' := by
  have hjoin : joinSlash (leadingParts pattern) ++ '/' :: joinSlash (wildParts pattern) =
      pattern := by
    rw [← joinSlash_append hleading hwild, leadingParts_append_wildParts, joinSlash_splitSlash]
  intro h
  apply hhead
  rw [← hjoin, List.head?_append, h, Option.some_or]

theorem leadingParts_slash (behind : List Char) :
    leadingParts ('/' :: behind) = [] :: leadingParts behind :=
  leadingParts_behind hasWildcard_nil behind

theorem wildParts_slash (behind : List Char) : wildParts ('/' :: behind) = wildParts behind :=
  wildParts_behind hasWildcard_nil behind

theorem joinSlash_leadingParts_slash {behind : List Char} (h : leadingParts behind ≠ []) :
    joinSlash (leadingParts ('/' :: behind)) = '/' :: joinSlash (leadingParts behind) := by
  rw [leadingParts_slash, joinSlash_cons h, List.nil_append]

/-- What the parts of a pattern name from the root on: those before the first wildcard a directory, and
the others the files below it; without a wildcard, one file. -/
def NamesFromRoot (fs : FileSystem) (pattern : String) (result : Except Error (List FilePath)) :
    Prop :=
  if wildParts pattern.toList = [] then
    result = .ok (if fs.isFile ⟨pattern.toList⟩ then [⟨pattern.toList⟩] else [])
  else
    match Glob.parse (joinSlash (wildParts pattern.toList)) with
    | .error fault =>
      result = .error (.badPattern pattern (joinSlash (wildParts pattern.toList)) fault)
    | .ok tokens => ∃ files, result = .ok files ∧
        Selects fs ⟨joinSlash (leadingParts pattern.toList)⟩ tokens files

/-- What a whole pattern selects from the root on. -/
def SelectsFromRoot (fs : FileSystem) (pattern : String) (behind : List Char)
    (result : Except Error (List FilePath)) : Prop :=
  match Glob.parse behind with
  | .error fault => result = .error (.badPattern pattern (joinSlash (wildParts behind)) fault)
  | .ok tokens => ∃ files, result = .ok files ∧ Selects fs ⟨['/']⟩ tokens files

section Absolute

variable {fs : FileSystem} {pattern : String} {behind : List Char}

theorem anchor_absolute (hp : pattern.toList = '/' :: behind) (hfirst : leadingParts behind ≠ [])
    (base : FilePath) :
    base.join ⟨joinSlash (leadingParts pattern.toList)⟩ =
      ⟨joinSlash (leadingParts pattern.toList)⟩ := by
  rw [hp, joinSlash_leadingParts_slash hfirst]
  rfl

theorem namesFromRoot_expand (hfs : fs.root.WellFormed) (hp : pattern.toList = '/' :: behind)
    (hfirst : leadingParts behind ≠ []) (base : FilePath) :
    NamesFromRoot fs pattern (expand fs base pattern) := by
  unfold NamesFromRoot
  by_cases hw : wildParts pattern.toList = []
  · rw [if_pos hw, expand_literal fs base hw, hp, FilePath.join_absolute]
  · rw [if_neg hw, expand_wild fs base hw, anchor_absolute hp hfirst]
    cases Glob.parse (joinSlash (wildParts pattern.toList)) with
    | error fault => rfl
    | ok tokens =>
      refine ⟨_, rfl, selects_found hfs ?_ tokens⟩
      rw [hp, joinSlash_leadingParts_slash hfirst]
      exact List.cons_ne_nil _ _

theorem selectsFromRoot_expand (hfs : fs.root.WellFormed) (hp : pattern.toList = '/' :: behind)
    (hfirst : leadingParts behind ≠ []) (hplain : Plain behind) (base : FilePath) :
    SelectsFromRoot fs pattern behind (expand fs base pattern) := by
  have hroot : ∀ s : List Char, s.head? ≠ some '/' →
      FilePath.join ⟨['/']⟩ ⟨s⟩ = ⟨'/' :: s⟩ := fun s hs => FilePath.join_eq ⟨['/']⟩ hs
  unfold SelectsFromRoot
  by_cases hw : wildParts behind = []
  · have hselects := selects_literal fs ⟨['/']⟩ hplain
    have hhead := FilePath.head?_joinSlash_ne_slash hplain.names
    rw [joinSlash_splitSlash] at hhead
    rw [hroot _ hhead, ← hp] at hselects
    rw [parse_literalPattern hplain hw]
    rw [← wildParts_slash, ← hp] at hw
    exact ⟨_, by rw [expand_literal fs base hw, hp, FilePath.join_absolute], hselects⟩
  · have hwild : wildParts pattern.toList ≠ [] := by rwa [hp, wildParts_slash]
    rw [expand_wild fs base hwild, hp, wildParts_slash]
    rcases (parse_wildPattern hplain hw).outcomes with
      ⟨fault, hrest, hwhole⟩ | ⟨rest, whole, hrest, hwhole, h⟩
    · rw [hrest, hwhole]
    · rw [hrest, hwhole]
      have hnames := isName_of_mem_leadingParts hplain
      have hselects := @selects_wild fs hfs ⟨['/']⟩ (List.cons_ne_nil _ _) _ hnames _ _ h
      rw [hroot _ (FilePath.head?_joinSlash_ne_slash hnames)] at hselects
      rw [joinSlash_leadingParts_slash hfirst]
      exact ⟨_, rfl, hselects⟩

/-- An absolute pattern that does not begin with a wildcard names the same files under every base
directory, and they are what it names from the root on. -/
theorem expand_absolute (hfs : fs.root.WellFormed) (hp : pattern.toList = '/' :: behind)
    (hfirst : leadingParts behind ≠ []) :
    (∀ base base', expand fs base pattern = expand fs base' pattern) ∧
      (∀ base, NamesFromRoot fs pattern (expand fs base pattern)) ∧
      (Plain behind → ∀ base, SelectsFromRoot fs pattern behind (expand fs base pattern)) := by
  refine ⟨?_, namesFromRoot_expand hfs hp hfirst, selectsFromRoot_expand hfs hp hfirst⟩
  intro base base'
  by_cases hw : wildParts pattern.toList = []
  · rw [expand_literal fs base hw, expand_literal fs base' hw, hp]
    rfl
  · rw [expand_wild fs base hw, expand_wild fs base' hw, anchor_absolute hp hfirst,
      anchor_absolute hp hfirst]

end Absolute

theorem expand_siteFiles_absolute :
    siteFiles.root.WellFormed ∧ "/site/ui/**/*.yml".toList = '/' :: "site/ui/**/*.yml".toList ∧
      leadingParts "site/ui/**/*.yml".toList ≠ [] ∧ Plain "site/ui/**/*.yml".toList ∧
      expand siteFiles (.ofString "/site") "/site/ui/**/*.yml" =
        expand siteFiles (.ofString "/elsewhere") "/site/ui/**/*.yml" ∧
      ∃ files, expand siteFiles (.ofString "/elsewhere") "/site/ui/**/*.yml" = .ok files ∧
        .ofString "/site/ui/dark/b.yml" ∈ files := by
  have hslash : "/site/ui/**/*.yml".toList = '/' :: "site/ui/**/*.yml".toList := by decide
  have hfirst : leadingParts "site/ui/**/*.yml".toList ≠ [] := by decide
  have hplain : Plain "site/ui/**/*.yml".toList := ⟨by decide, by decide⟩
  obtain ⟨hbase, -, hroot⟩ := expand_absolute siteFiles_wellFormed hslash hfirst
  refine ⟨siteFiles_wellFormed, hslash, hfirst, hplain, hbase _ _, ?_⟩
  have h := hroot hplain (.ofString "/elsewhere")
  have hparse : Glob.parse "site/ui/**/*.yml".toList =
      .ok ("site/ui".toList.map .literal ++ .between :: .anyRun :: ".yml".toList.map .literal) := by
    rfl
  rw [SelectsFromRoot, hparse] at h
  obtain ⟨files, he, hselects⟩ := h
  refine ⟨files, he, (hselects.mem_iff _).mpr ?_⟩
  exact ⟨["site".toList, "ui".toList, "dark".toList, "b.yml".toList], by decide +kernel⟩

/-- The same files, or the same fault of the same wildcards. -/
inductive SameFiles : Except Error (List FilePath) → Except Error (List FilePath) → Prop where
  | ok (files : List FilePath) : SameFiles (.ok files) (.ok files)
  | badPattern (pattern pattern' : String) (glob : List Char) (fault : Glob.Fault) :
      SameFiles (.error (.badPattern pattern glob fault)) (.error (.badPattern pattern' glob fault))

theorem SameFiles.of_wild {fs : FileSystem} {base base' : FilePath} {pattern pattern' : String}
    (hw : wildParts pattern.toList ≠ []) (hsame : wildParts pattern'.toList = wildParts pattern.toList)
    (h : ∀ tokens, found fs (base.join ⟨joinSlash (leadingParts pattern.toList)⟩) tokens =
      found fs (base'.join ⟨joinSlash (leadingParts pattern'.toList)⟩) tokens) :
    SameFiles (expand fs base pattern) (expand fs base' pattern') := by
  rw [expand_wild fs base hw, expand_wild fs base' (hsame ▸ hw), hsame]
  cases Glob.parse (joinSlash (wildParts pattern.toList)) with
  | error fault => exact .badPattern _ _ _ fault
  | ok tokens =>
    simp only [h tokens]
    exact .ok _

theorem wildParts_ne_nil {pattern : List Char} (h : leadingParts pattern = []) :
    wildParts pattern ≠ [] := by
  have hparts := leadingParts_append_wildParts pattern
  rw [h, List.nil_append] at hparts
  rw [hparts]
  exact splitSlash_ne_nil pattern

/-- A wildcard right behind the separator at the start makes the pattern a relative one. -/
theorem expand_wild_behind_slash (fs : FileSystem) (base : FilePath) {pattern relative : String}
    (hp : pattern.toList = '/' :: relative.toList) (hfirst : leadingParts relative.toList = []) :
    SameFiles (expand fs base pattern) (expand fs base relative) := by
  have hw := wildParts_ne_nil hfirst
  apply SameFiles.of_wild
  · rwa [hp, wildParts_slash]
  · rw [hp, wildParts_slash]
  · intro tokens
    rw [hp, leadingParts_slash, hfirst]
    rfl

/-- So it is not the root that is searched, but the base directory. -/
theorem expand_star_behind_slash :
    expand siteFiles (.ofString "/site") "/*.txt" = .ok [.ofString "/site/notes.txt"] ∧
      expand siteFiles (.ofString "/") "/*.txt" = .ok [] := by
  have hwild : wildParts "/*.txt".toList = ["*.txt".toList] := by decide
  have hleading : leadingParts "/*.txt".toList = [[]] := by decide
  have hne : wildParts "/*.txt".toList ≠ [] := by decide
  have hparse : Glob.parse "*.txt".toList = .ok (.anyRun :: ".txt".toList.map .literal) := by rfl
  have hexpand : ∀ base, expand siteFiles base "/*.txt" =
      .ok (found siteFiles ⟨base.slashed⟩ (.anyRun :: ".txt".toList.map .literal)) := by
    intro base
    rw [expand_wild _ _ hne, hwild, hleading, joinSlash, hparse, joinSlash, FilePath.join_nil]
  constructor
  · have hfiles : (siteFiles.filesBelow ⟨(FilePath.ofString "/site").slashed⟩).filter
        (accepts (.anyRun :: ".txt".toList.map .literal)) = [["notes.txt".toList]] := by
      decide +kernel
    have hpath : FilePath.below ⟨(FilePath.ofString "/site").slashed⟩ ["notes.txt".toList] =
        .ofString "/site/notes.txt" := by
      decide
    rw [hexpand, found, hfiles, FilePath.sort, List.map_singleton, List.mergeSort_singleton, hpath]
  · have hfiles : (siteFiles.filesBelow ⟨(FilePath.ofString "/").slashed⟩).filter
        (accepts (.anyRun :: ".txt".toList.map .literal)) = [] := by
      decide +kernel
    rw [hexpand, found, hfiles, FilePath.sort, List.map_nil, List.mergeSort_nil]

end Pattern
end ThemeRules
