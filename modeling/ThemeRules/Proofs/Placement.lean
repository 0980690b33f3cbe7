import ThemeRules.Proofs.Anchoring
import ThemeRules.Proofs.Loading
import ThemeRules.Proofs.Locations
import ThemeRules.Source.Preset

/-!
# ThemeRules.Proofs.Placement

What can be seen from a base directory. A relative path that never leads upwards is followed from the
tree at the base directory, wherever that tree stands (`entry_join_iff`). Lists of files below such a
path come in an order that only the names behind the path decide (`sort_below`).
-/

namespace ThemeRules

namespace FilePath

/-! ## Paths that stay inside -/

/-- A relative path that never leads upwards. -/
structure IsInner (path : FilePath) : Prop where
  relative : path.isAbsolute = false
  no_climb : Component.parent ∉ path.components

instance (path : FilePath) : Decidable path.IsInner :=
  decidable_of_iff (path.isAbsolute = false ∧ Component.parent ∉ path.components)
    ⟨fun ⟨hrelative, hclimb⟩ => ⟨hrelative, hclimb⟩, fun h => ⟨h.relative, h.no_climb⟩⟩

theorem parent_mem_steps (path : FilePath) :
    Component.parent ∈ path.steps ↔ Component.parent ∈ path.components := by
  rw [steps_eq_filter, List.mem_filter]
  exact and_iff_left rfl

theorem parent_mem_steps_iff_part (path : FilePath) :
    Component.parent ∈ path.steps ↔ ['.', '.'] ∈ splitSlash path.chars := by
  rw [steps, List.mem_filterMap]
  constructor
  · rintro ⟨part, hpart, hc⟩
    unfold component? at hc
    split at hc
    · cases hc
    · split at hc
      · rename_i hdots
        exact hdots ▸ hpart
      · cases hc
  · intro h
    exact ⟨_, h, rfl⟩

theorem slashed_join (base : FilePath) {path : FilePath} (h : path.isAbsolute = false) :
    (base.join path).slashed = base.slashed ++ path.slashed := by
  rw [join_of_relative base h]
  obtain ⟨s⟩ := path
  cases hs : s.isEmpty with
  | true =>
    obtain rfl := List.isEmpty_iff.mp hs
    rw [List.append_nil, slashed_slashed]
    exact (List.append_nil _).symm
  | false =>
    have hne : s ≠ [] := List.isEmpty_eq_false_iff.mp hs
    generalize base.slashed = front
    have hempty : (front ++ s).isEmpty = false := by simp [hne]
    have hlast : (front ++ s).getLast? = s.getLast? := by
      rw [List.getLast?_append, List.getLast?_eq_some_getLast hne, Option.some_or]
    simp only [slashed, hempty, hs, hlast]
    split
    · rfl
    · rw [List.append_assoc]

theorem isAbsolute_join_eq (first second : FilePath) :
    (first.join second).isAbsolute = (first.isAbsolute || second.isAbsolute) := by
  cases h2 : second.isAbsolute with
  | true => rw [join_of_isAbsolute _ h2, h2, Bool.or_true]
  | false =>
    cases h1 : first.isAbsolute with
    | true => rw [isAbsolute_join h1, Bool.or_false]
    | false =>
      rw [join_of_relative first h2, Bool.or_false]
      obtain ⟨s⟩ := first
      apply isAbsolute_eq_false
      cases s with
      | nil => exact head?_ne_of_relative h2
      | cons c cs =>
        have hc : (c :: cs).head? ≠ some '/' := head?_ne_of_relative h1
        unfold slashed
        split <;> exact hc

/-- It does not matter in which order paths are joined. -/
theorem join_join (base first second : FilePath) :
    (base.join first).join second = base.join (first.join second) := by
  cases h2 : second.isAbsolute with
  | true =>
    simp only [join_of_isAbsolute _ h2]
  | false =>
    cases h1 : first.isAbsolute with
    | true =>
      rw [join_of_isAbsolute base h1, join_of_isAbsolute base (isAbsolute_join h1 second)]
    | false =>
      have hrelative : (first.join second).isAbsolute = false := by
        rw [isAbsolute_join_eq, h1, h2]
        rfl
      rw [join_of_relative base hrelative, join_of_relative _ h2, join_of_relative first h2,
        slashed_join base h1, List.append_assoc]

theorem join_below (base path : FilePath) (names : List (List Char)) :
    (base.join path).below names = base.join (path.below names) := by
  induction names generalizing path with
  | nil => rfl
  | cons name rest ih => rw [below_cons, below_cons, join_join, ih]

theorem IsInner.join {first second : FilePath} (h1 : first.IsInner) (h2 : second.IsInner) :
    (first.join second).IsInner := by
  refine ⟨by rw [isAbsolute_join_eq, h1.relative, h2.relative]; rfl, ?_⟩
  rw [← parent_mem_steps, steps_join, h2.relative, if_neg Bool.false_ne_true, List.mem_append,
    parent_mem_steps, parent_mem_steps]
  exact not_or.mpr ⟨h1.no_climb, h2.no_climb⟩

theorem isInner_of_isName {name : List Char} (h : IsName name) : IsInner ⟨name⟩ := by
  have hhead : name.head? ≠ some '/' := by simpa using head?_ne_slash h []
  refine ⟨isAbsolute_eq_false hhead, ?_⟩
  rw [← parent_mem_steps, parent_mem_steps_iff_part, splitSlash_of_no_slash h.no_slash,
    List.mem_singleton]
  exact fun hdots => h.ne_dots hdots.symm

theorem IsInner.below {path : FilePath} (h : path.IsInner) {names : List (List Char)}
    (hnames : ∀ name ∈ names, IsName name) : (path.below names).IsInner := by
  induction names generalizing path with
  | nil => exact h
  | cons name rest ih =>
    obtain ⟨hname, hrest⟩ := List.forall_mem_cons.mp hnames
    rw [below_cons]
    exact ih (h.join (isInner_of_isName hname)) hrest

/-- A text is one part, or its last part comes behind a separator. -/
theorem last_part (s : List Char) : '/' ∉ s ∨ ∃ front part, s = front ++ '/' :: part ∧ '/' ∉ part := by
  induction s with
  | nil => exact .inl List.not_mem_nil
  | cons c rest ih =>
    obtain h | ⟨front, part, rfl, hpart⟩ := ih
    · by_cases hc : c = '/'
      · exact .inr ⟨[], rest, by rw [hc]; rfl, h⟩
      · exact .inl (by simp [h, Ne.symm hc])
    · exact .inr ⟨c :: front, part, rfl, hpart⟩

/-- The ending of a theme file leaves a path inside. -/
theorem IsInner.append_ending {s : List Char} (h : IsInner ⟨s⟩) {ending : List Char}
    (hending : ending ∈ themeEndings) : IsInner ⟨s ++ ending⟩ := by
  have hslash : '/' ∉ ending := (show ∀ e ∈ themeEndings, '/' ∉ e by decide) ending hending
  have hhead : ending.head? ≠ some '/' :=
    (show ∀ e ∈ themeEndings, e.head? ≠ some '/' by decide) ending hending
  have hdots : ¬ ending <:+ ['.', '.'] :=
    (show ∀ e ∈ themeEndings, ¬ e <:+ ['.', '.'] by decide) ending hending
  -- the ending makes the last part longer than two dots
  have hlast : ∀ part : List Char, '/' ∉ part → Component.parent ∉ steps ⟨part ++ ending⟩ := by
    intro part hpart
    have hnone : '/' ∉ part ++ ending := by simp [hpart, hslash]
    rw [parent_mem_steps_iff_part, splitSlash_of_no_slash hnone, List.mem_singleton]
    exact fun heq => hdots (heq ▸ List.suffix_append part ending)
  refine ⟨?_, ?_⟩
  · cases s with
    | nil => exact isAbsolute_eq_false hhead
    | cons c rest => exact h.relative
  · rw [← parent_mem_steps]
    obtain hs | ⟨front, part, rfl, hpart⟩ := last_part s
    · exact hlast s hs
    · have hfront : Component.parent ∉ steps ⟨front⟩ := fun hclimb => h.no_climb (by
        rw [← parent_mem_steps, steps_append_slash]
        exact List.mem_append_left _ hclimb)
      rw [List.append_assoc, List.cons_append, steps_append_slash, List.mem_append]
      exact not_or.mpr ⟨hfront, hlast part hpart⟩

/-- Below an absolute path, relative ones are told apart by their steps. -/
theorem same_join_iff {base : FilePath} (hbase : base.isAbsolute = true) {a b : FilePath}
    (ha : a.isAbsolute = false) (hb : b.isAbsolute = false) :
    (base.join a).same (base.join b) = true ↔ a.steps = b.steps := by
  have hstart : ∀ p : FilePath, (base.join p).start = [.root] := fun p => by
    rw [start, if_pos (isAbsolute_join hbase p)]
  rw [same_iff, components_eq, components_eq, hstart, hstart, List.append_cancel_left_eq, steps_join,
    steps_join, ha, hb, if_neg Bool.false_ne_true, if_neg Bool.false_ne_true,
    List.append_cancel_left_eq]

/-! ## The order of files below a directory -/

/-- The order of the names that lead to files. -/
def namesLe (first second : List (List Char)) : Bool :=
  componentsLe (first.map .normal) (second.map .normal)

theorem componentsLe_append (front first second : List Component) :
    componentsLe (front ++ first) (front ++ second) = componentsLe first second := by
  induction front with
  | nil => rfl
  | cons c rest ih => simp only [List.cons_append, componentsLe, if_true, ih]

theorem sort_below (directory : FilePath) {found : List (List (List Char))}
    (h : ∀ names ∈ found, ∀ name ∈ names, IsName name) :
    sort (found.map directory.below) = (found.mergeSort namesLe).map directory.below := by
  refine (List.map_mergeSort fun first hfirst second hsecond => ?_).symm
  rw [le, components_below directory (h first hfirst), components_below directory (h second hsecond),
    componentsLe_append]
  rfl

theorem slashed_eq_append {directory : FilePath} (h : directory.chars ≠ []) :
    ∃ front, directory.slashed = front ++ ['/'] := by
  unfold slashed
  split
  · rename_i hl
    rw [List.isEmpty_eq_false_iff.mpr h, Bool.false_or, beq_iff_eq] at hl
    exact List.getLast?_eq_some_iff.mp hl
  · exact ⟨_, rfl⟩

theorem isSuffixOf_slash {ending : List Char} (h : '/' ∉ ending) (front s : List Char) :
    ending.isSuffixOf (front ++ '/' :: s) = ending.isSuffixOf s := by
  rw [Bool.eq_iff_iff, List.isSuffixOf_iff_suffix, List.isSuffixOf_iff_suffix]
  constructor
  · intro hsuffix
    rcases List.suffix_or_suffix_of_suffix hsuffix (List.suffix_append front ('/' :: s)) with hs | hs
    · rcases List.suffix_cons_iff.mp hs with rfl | hs
      · exact absurd List.mem_cons_self h
      · exact hs
    · exact absurd (hs.mem List.mem_cons_self) h
  · intro hsuffix
    exact hsuffix.trans ((List.suffix_cons '/' s).trans (List.suffix_append front _))

/-- Whether a file below a directory is a theme file can be told from the names behind it. -/
theorem isThemeFile_below {directory : FilePath} (hd : directory.chars ≠ [])
    {names : List (List Char)} (hne : names ≠ []) (hnames : ∀ name ∈ names, IsName name) :
    (directory.below names).isThemeFile = isThemeFile ⟨joinSlash names⟩ := by
  obtain ⟨front, hfront⟩ := slashed_eq_append hd
  have hslash : ∀ ending ∈ themeEndings, '/' ∉ ending := by decide
  rw [below_eq directory hne hnames, hfront, List.append_assoc, List.singleton_append, isThemeFile,
    isThemeFile, Bool.eq_iff_iff, List.any_eq_true, List.any_eq_true]
  refine exists_congr fun ending => and_congr_right fun hending => ?_
  rw [isSuffixOf_slash (hslash ending hending)]

end FilePath

/-! ## The tree at a base directory -/

/-- Where an inner path leads from a directory. -/
def Entry.reach (tree : Entry) (path : FilePath) : Except FileFault Entry :=
  FileSystem.follow tree [] (splitSlash path.chars)

namespace FileSystem

theorem follow_of_no_climb {parts : List (List Char)} (h : ['.', '.'] ∉ parts) :
    ∀ (here : Entry) (above above' : List Entry),
      follow here above parts = follow here above' parts := by
  induction parts with
  | nil => intro here above above'; rfl
  | cons part rest ih =>
    intro here above above'
    obtain ⟨hpart, hrest⟩ := not_or.mp (List.mem_cons.not.mp h)
    simp only [follow, if_neg (Ne.symm hpart)]
    split
    · rfl
    · split
      · exact ih hrest here above above'
      · split
        · rfl
        · split
          · rfl
          · exact ih hrest _ _ _

instance (path : FilePath) : Decidable (Fits path) :=
  decidable_of_iff ('\x00' ∉ path.chars ∧ path.chars ≠ [] ∧ byteLength path.chars < 4096)
    ⟨fun ⟨hnul, hne, hshort⟩ => ⟨hnul, hne, hshort⟩, fun h => ⟨h.no_nul, h.ne_nil, h.short⟩⟩

/-- The tree is what a file system holds at a base directory. -/
structure Placed (tree : Entry) (fs : FileSystem) (base : FilePath) : Prop where
  wellFormed : fs.root.WellFormed
  absolute : base.isAbsolute = true
  entry : fs.entry base = .ok tree

variable {tree : Entry} {fs : FileSystem} {base : FilePath}

/-- Paths below the base directory are followed as it is, and then from its tree. -/
theorem Placed.follow_inside (h : Placed tree fs base) :
    ∃ start above, (∀ rest, fs.parts ⟨base.slashed ++ rest⟩ = start ++ splitSlash rest) ∧
      ∀ others, follow fs.root [] (start ++ others) = follow tree above others := by
  have hne := FilePath.chars_ne_nil h.absolute
  obtain ⟨start, hparts⟩ := parts_slashed fs hne
  have hend := hparts []
  rw [List.append_nil] at hend
  obtain ⟨-, hfollow⟩ := (entry_ok_iff fs base tree).mp h.entry
  cases hslashed : base.slashed == base.chars with
  | true =>
    -- the separator at the end of the base directory is an empty part behind `start`
    rw [beq_iff_eq.mp hslashed] at hend
    rw [hend] at hfollow
    obtain ⟨between, above, -, hlast, hothers⟩ := follow_append hfollow
    have htree : between = tree := by
      simp only [follow, splitSlash] at hlast
      split at hlast
      · cases hlast
      · simpa using hlast
    exact ⟨start, above, hparts, fun others => by rw [hothers, htree]⟩
  | false =>
    have hslash : base.slashed = base.chars ++ ['/'] := by
      unfold FilePath.slashed at hslashed ⊢
      split
      · rename_i hl
        rw [if_pos hl] at hslashed
        simp at hslashed
      · rfl
    rw [hslash, parts_trailing fs hne] at hend
    have hstart : fs.parts base = start := List.append_cancel_right hend
    rw [hstart, ← List.append_nil start] at hfollow
    obtain ⟨between, above, -, hlast, hothers⟩ := follow_append hfollow
    have htree : between = tree := by simpa [follow] using hlast
    exact ⟨start, above, hparts, fun others => by rw [hothers, htree]⟩

theorem Placed.entry_join_iff (h : Placed tree fs base) {path : FilePath} (hp : path.IsInner)
    (result : Entry) :
    fs.entry (base.join path) = .ok result ↔
      Fits (base.join path) ∧ tree.reach path = .ok result := by
  obtain ⟨start, above, hparts, hothers⟩ := h.follow_inside
  have hclimb : ['.', '.'] ∉ splitSlash path.chars := by
    rw [← FilePath.parent_mem_steps_iff_part, FilePath.parent_mem_steps]
    exact hp.no_climb
  rw [entry_ok_iff, FilePath.join_of_relative base hp.relative, hparts, hothers,
    follow_of_no_climb hclimb tree above []]
  rfl

/-! ## Sorted files -/

theorem sort_filesBelow (hfs : fs.root.WellFormed) (directory : FilePath)
    (p : List (List Char) → Bool) :
    FilePath.sort (((fs.filesBelow directory).filter p).map directory.below) =
      (((fs.filesBelow directory).filter p).mergeSort FilePath.namesLe).map directory.below :=
  FilePath.sort_below directory fun _ hnames =>
    (isName_of_mem_filesBelow hfs (List.mem_filter.mp hnames).1).2

theorem themeFiles_eq_sort (hfs : fs.root.WellFormed) {directory : FilePath}
    (hne : directory.chars ≠ []) :
    fs.themeFiles directory =
      FilePath.sort (((fs.filesBelow directory).filter fun names =>
        FilePath.isThemeFile ⟨joinSlash names⟩).map directory.below) := by
  have hfilter : (fs.filesBelow directory).filter (FilePath.isThemeFile ∘ directory.below) =
      (fs.filesBelow directory).filter fun names => FilePath.isThemeFile ⟨joinSlash names⟩ := by
    refine List.filter_congr fun names hmem => ?_
    obtain ⟨hn, hnames⟩ := isName_of_mem_filesBelow hfs hmem
    exact FilePath.isThemeFile_below hne hn hnames
  rw [themeFiles, List.filter_map, hfilter]

end FileSystem

namespace PresetPlace

/-- The path of a place that has one. -/
def path? : PresetPlace → Option FilePath
  | .inline _ => none
  | .file path => some path
  | .directory path => some path

/-- The place below a directory. -/
def under (base : FilePath) : PresetPlace → PresetPlace
  | .inline themes => .inline themes
  | .file path => .file (base.join path)
  | .directory path => .directory (base.join path)

end PresetPlace

theorem PresetRegistry.candidates_join (base directory : FilePath) (name : String) :
    candidates (base.join directory) name =
      (candidates directory name).map (PresetPlace.under base) := by
  simp only [candidates, List.map_append, List.map_map, FilePath.join_join]
  rfl

theorem PresetRegistry.isInner_candidates {directory : FilePath} (hd : directory.IsInner)
    {name : String} (hname : (FilePath.ofString name).IsInner) :
    ∀ place ∈ candidates directory name, ∀ path ∈ place.path?, path.IsInner := by
  intro place hplace path hpath
  rcases List.mem_append.mp hplace with hfile | hdirectory
  · obtain ⟨ending, hending, rfl⟩ := List.mem_map.mp hfile
    cases hpath
    exact hd.join (hname.append_ending hending)
  · rw [List.mem_singleton] at hdirectory
    subst hdirectory
    cases hpath
    exact hd.join hname

/-- Every pattern that stays inside is looked up from an inner path. -/
theorem Pattern.isInner_split {pattern : String} (h : (FilePath.ofString pattern).IsInner) :
    FilePath.IsInner ⟨(split pattern.toList).1⟩ := by
  by_cases hw : wildParts pattern.toList = []
  · rw [split_literal hw]
    exact h
  · rw [split_wild hw]
    by_cases hl : leadingParts pattern.toList = []
    · rw [hl]
      show FilePath.IsInner ⟨[]⟩
      decide
    · have hhead : pattern.toList.head? ≠ some '/' := FilePath.head?_ne_of_relative h.relative
      refine ⟨FilePath.isAbsolute_eq_false (head?_leadingParts hhead hw hl), fun hclimb => ?_⟩
      have hsplit : pattern.toList =
          joinSlash (leadingParts pattern.toList) ++ '/' :: joinSlash (wildParts pattern.toList) := by
        rw [← joinSlash_append hl hw, leadingParts_append_wildParts, joinSlash_splitSlash]
      apply h.no_climb
      rw [← FilePath.parent_mem_steps, FilePath.ofString, hsplit, FilePath.steps_append_slash]
      exact List.mem_append_left _ ((FilePath.parent_mem_steps _).mpr hclimb)

end ThemeRules
