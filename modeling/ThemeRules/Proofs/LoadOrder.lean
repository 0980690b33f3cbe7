import ThemeRules.Proofs.Anchoring
import ThemeRules.Proofs.Loading
import ThemeRules.Proofs.Locations

/-!
# ThemeRules.Proofs.LoadOrder

Which theme files are loaded, and in which order. Paths that were added before are left out by comparing
components, so a file is loaded once if its paths all climb the same way; however they spell it otherwise
does not matter. That is also necessary (`files_loadOrder`): a file with paths that climb in different
ways is loaded once for each of these ways (`siteFiles_loaded_twice`).

Where every file has one climb, each is loaded at the place of the first pattern that finds it, and the
files of a pattern in the order of their paths. The induction is on the patterns, from the last one:
it finds nothing new in files that have a place already, and all others come behind those.
-/

namespace ThemeRules

/-! ## What a pattern expands to -/

namespace Pattern

/-- A pattern finds files, by absolute paths in the order of their components. -/
theorem expand_files {fs : FileSystem} {base : FilePath} (hbase : base.isAbsolute = true)
    {pattern : String} {files : List FilePath} (h : expand fs base pattern = .ok files) :
    (∀ file ∈ files, file.isAbsolute = true ∧ fs.isFile file = true) ∧
      files.Pairwise fun a b => a.le b = true := by
  by_cases hw : wildParts pattern.toList = []
  · rw [expand_literal fs base hw] at h
    cases h
    split
    · rename_i hfile
      refine ⟨List.forall_mem_singleton.mpr ⟨FilePath.isAbsolute_join hbase _, hfile⟩, ?_⟩
      exact List.pairwise_singleton _ _
    · exact ⟨fun file hmem => (by cases hmem), .nil⟩
  · rw [expand_wild fs base hw] at h
    split at h
    · cases h
    · cases h
      refine ⟨fun file hmem => ?_, FilePath.sort_le _⟩
      obtain ⟨names, hnames, rfl⟩ := List.mem_map.mp (FilePath.mem_sort.mp hmem)
      refine ⟨FilePath.isAbsolute_below (FilePath.isAbsolute_join hbase _), ?_⟩
      exact (FileSystem.mem_filesBelow.mp (List.mem_filter.mp hnames).1).2

end Pattern

/-! ## Paths to one file -/

namespace FileSystem

/-- All paths to one file climb the same way. -/
def OneClimb (fs : FileSystem) (files : List FilePath) : Prop :=
  ∀ a ∈ files, ∀ b ∈ files, fs.location a = fs.location b → a.climb = b.climb

instance (fs : FileSystem) (files : List FilePath) : Decidable (fs.OneClimb files) :=
  inferInstanceAs (Decidable (∀ a ∈ files, ∀ b ∈ files,
    fs.location a = fs.location b → a.climb = b.climb))

variable {fs : FileSystem}

theorem OneClimb.mono {files others : List FilePath} (h : fs.OneClimb files)
    (hsub : ∀ file ∈ others, file ∈ files) : fs.OneClimb others :=
  fun a ha b hb => h a (hsub a ha) b (hsub b hb)

theorem OneClimb.same {files : List FilePath} (h : fs.OneClimb files)
    (habs : ∀ file ∈ files, file.isAbsolute = true) {a b : FilePath} (ha : a ∈ files)
    (hb : b ∈ files) (hlocation : fs.location a = fs.location b) : a.same b = true :=
  same_of_location (habs a ha) (habs b hb) (h a ha b hb hlocation) hlocation

/-- Each file is there once just if all paths to it climb the same way. -/
theorem oneClimb_iff {files : List FilePath} (habs : ∀ file ∈ files, file.isAbsolute = true) :
    fs.OneClimb files ↔ ((ThemeFiles.addNew [] files).map fs.location).Nodup := by
  constructor
  · intro h
    rw [List.Nodup, List.pairwise_map]
    refine (ThemeFiles.addNew_pairwise files).imp_of_mem ?_
    intro a b ha hb hsame hlocation
    rw [h.same habs (ThemeFiles.mem_of_mem_addNew ha) (ThemeFiles.mem_of_mem_addNew hb) hlocation]
      at hsame
    cases hsame
  · intro h a ha b hb hlocation
    obtain ⟨first, hfirst, hsame⟩ := ThemeFiles.exists_same_of_mem a ha
    obtain ⟨second, hsecond, hsame'⟩ := ThemeFiles.exists_same_of_mem b hb
    have heq : first = second := by
      apply List.inj_on_of_nodup_map h hfirst hsecond
      rw [← location_eq_of_same fs hsame, hlocation, location_eq_of_same fs hsame']
    rw [FilePath.climb_eq_of_same hsame, heq, FilePath.climb_eq_of_same hsame']

/-! ## The first pattern -/

/-- The number of the first pattern that finds the file of a path, by what each pattern has found. -/
def firstPattern (fs : FileSystem) (found : List (List FilePath)) (path : FilePath) : Nat :=
  found.findIdx fun files => files.any fun file => fs.location file = fs.location path

/-- Each path is one of its first pattern, and the paths come in the order of their first patterns;
those of one pattern are sorted. -/
structure LoadOrder (fs : FileSystem) (found : List (List FilePath)) (paths : List FilePath) :
    Prop where
  first : ∀ path ∈ paths, ∃ files, found[fs.firstPattern found path]? = some files ∧ path ∈ files
  ordered : paths.Pairwise fun a b => fs.firstPattern found a < fs.firstPattern found b ∨
    fs.firstPattern found a = fs.firstPattern found b ∧ a.le b = true

theorem firstPattern_lt_length {found : List (List FilePath)} {path : FilePath} :
    fs.firstPattern found path < found.length ↔
      ∃ file ∈ found.flatten, fs.location file = fs.location path := by
  rw [firstPattern, List.findIdx_lt_length]
  simp only [List.any_eq_true, decide_eq_true_eq, List.mem_flatten]
  constructor
  · rintro ⟨files, hfiles, file, hfile, h⟩
    exact ⟨file, ⟨files, hfiles, hfile⟩, h⟩
  · rintro ⟨file, ⟨files, hfiles, hfile⟩, h⟩
    exact ⟨files, hfiles, file, hfile, h⟩

theorem firstPattern_old {found : List (List FilePath)} (files : List FilePath) {path : FilePath}
    (h : path ∈ ThemeFiles.addNew [] found.flatten) :
    fs.firstPattern (found ++ [files]) path = fs.firstPattern found path ∧
      fs.firstPattern found path < found.length := by
  have hlt : fs.firstPattern found path < found.length :=
    firstPattern_lt_length.mpr ⟨path, ThemeFiles.mem_of_mem_addNew h, rfl⟩
  refine ⟨?_, hlt⟩
  unfold firstPattern at hlt ⊢
  rw [List.findIdx_append, if_pos hlt]

theorem firstPattern_new {found : List (List FilePath)} {files : List FilePath}
    (h : fs.OneClimb (found ++ [files]).flatten)
    (habs : ∀ file ∈ (found ++ [files]).flatten, file.isAbsolute = true) {path : FilePath}
    (hpath : path ∈ files)
    (hnew : (ThemeFiles.addNew [] found.flatten).any path.same = false) :
    fs.firstPattern (found ++ [files]) path = found.length := by
  rw [List.flatten_concat] at h habs
  have hge : ¬ fs.firstPattern found path < found.length := by
    rw [firstPattern_lt_length]
    rintro ⟨file, hfile, hlocation⟩
    -- an earlier path to the file has the same components, so this one would not be new
    have hsame := h.same habs (List.mem_append_left _ hfile) (List.mem_append_right _ hpath) hlocation
    obtain ⟨other, hother, hsame'⟩ := ThemeFiles.exists_same_of_mem file hfile
    refine Bool.eq_false_iff.mp hnew (List.any_eq_true.mpr ⟨other, hother, ?_⟩)
    rw [FilePath.same_iff] at hsame hsame' ⊢
    exact hsame.symm.trans hsame'
  have hhere : (files.any fun file => fs.location file = fs.location path) = true :=
    List.any_eq_true.mpr ⟨path, hpath, decide_eq_true rfl⟩
  unfold firstPattern at hge ⊢
  rw [List.findIdx_append, if_neg hge, List.findIdx_cons, hhere]
  exact Nat.zero_add _

theorem loadOrder_addNew {found : List (List FilePath)} (h : fs.OneClimb found.flatten)
    (habs : ∀ file ∈ found.flatten, file.isAbsolute = true)
    (hsorted : ∀ files ∈ found, files.Pairwise fun a b => a.le b = true) :
    fs.LoadOrder found (ThemeFiles.addNew [] found.flatten) := by
  induction found using List.reverseRecOn with
  | nil => exact ⟨fun path hpath => (by cases hpath), .nil⟩
  | append_singleton found files ih =>
    have hearlier : ∀ file ∈ found.flatten, file ∈ (found ++ [files]).flatten := by
      intro file hfile
      rw [List.flatten_concat]
      exact List.mem_append_left _ hfile
    obtain ⟨hfirst, hordered⟩ := ih (h.mono hearlier) (fun file hfile => habs file (hearlier file hfile))
      (fun others hothers => hsorted others (List.mem_append_left _ hothers))
    have hnew : ∀ path ∈ (ThemeFiles.addNew [] files).filter fun file =>
          !(ThemeFiles.addNew [] found.flatten).any file.same,
        fs.firstPattern (found ++ [files]) path = found.length ∧ path ∈ files := by
      intro path hpath
      obtain ⟨hmem, hany⟩ := List.mem_filter.mp hpath
      have hfiles := ThemeFiles.mem_of_mem_addNew hmem
      rw [Bool.not_eq_true'] at hany
      exact ⟨firstPattern_new h habs hfiles hany, hfiles⟩
    rw [List.flatten_concat, ThemeFiles.addNew_append, ThemeFiles.addNew_eq_filter]
    constructor
    · intro path hpath
      rcases List.mem_append.mp hpath with hpath | hpath
      · obtain ⟨hsame, hlt⟩ := firstPattern_old files hpath
        rw [hsame, List.getElem?_append_left hlt]
        exact hfirst path hpath
      · obtain ⟨hlast, hfiles⟩ := hnew path hpath
        rw [hlast, List.getElem?_concat_length]
        exact ⟨files, rfl, hfiles⟩
    · refine List.pairwise_append.mpr ⟨?_, ?_, ?_⟩
      · refine hordered.imp_of_mem ?_
        intro a b ha hb hab
        rw [(firstPattern_old files ha).1, (firstPattern_old files hb).1]
        exact hab
      · refine List.Pairwise.imp_of_mem ?_ ((hsorted files (by simp)).sublist
          (List.filter_sublist.trans (ThemeFiles.addNew_sublist files)))
        intro a b ha hb hab
        exact .inr ⟨(hnew a ha).1.trans (hnew b hb).1.symm, hab⟩
      · intro a ha b hb
        obtain ⟨hsame, hlt⟩ := firstPattern_old files ha
        rw [hsame, (hnew b hb).1]
        exact .inl hlt

end FileSystem

/-! ## The files of a source -/

open Pattern (siteFiles siteFiles_wellFormed)

/-- Every file that a pattern finds is loaded, by a path that ends where the file stands. If all paths to
a file climb the same way, and only then, each is loaded once; the order is then that of the patterns,
each with its files sorted. -/
theorem files_loadOrder {fs : FileSystem} (hcwd : fs.workingDirectory.isAbsolute = true)
    {source : ThemeFiles} {found : List (List FilePath)}
    (hfound : source.patterns.mapM (Pattern.expand fs (fs.workingDirectory.join source.base)) =
      .ok found) :
    ∃ paths, source.files fs = .ok paths ∧
      (∀ path ∈ paths, ∃ content, fs.entry path = .ok (.file content) ∧
        fs.root.descend? (fs.location path) = some (.file content)) ∧
      (∀ file ∈ found.flatten, ∃ path ∈ paths, fs.location path = fs.location file) ∧
      (fs.OneClimb found.flatten ↔ (paths.map fs.location).Nodup) ∧
      (fs.OneClimb found.flatten → fs.LoadOrder found paths) := by
  have hexpand : ∀ files ∈ found, (∀ file ∈ files, file.isAbsolute = true ∧ fs.isFile file = true) ∧
      files.Pairwise fun a b => a.le b = true := by
    intro files hfiles
    obtain ⟨pattern, -, hpattern⟩ := exists_of_mem_mapM hfound files hfiles
    exact Pattern.expand_files (FilePath.isAbsolute_join hcwd _) hpattern
  have hfiles : ∀ file ∈ found.flatten, file.isAbsolute = true ∧ fs.isFile file = true := by
    intro file hfile
    obtain ⟨files, hmem, hfile⟩ := List.mem_flatten.mp hfile
    exact (hexpand files hmem).1 file hfile
  have habs : ∀ file ∈ found.flatten, file.isAbsolute = true := fun file h => (hfiles file h).1
  refine ⟨ThemeFiles.addNew [] found.flatten, ?_, ?_, ?_, FileSystem.oneClimb_iff habs, ?_⟩
  · rw [ThemeFiles.files, ThemeFiles.filesFrom_eq, hfound]
  · intro path hpath
    have hfile := (hfiles path (ThemeFiles.mem_of_mem_addNew hpath)).2
    obtain ⟨content, hentry⟩ := (FileSystem.isFile_iff fs path).mp hfile
    exact ⟨content, hentry, FileSystem.descend?_location hentry⟩
  · intro file hfile
    obtain ⟨path, hpath, hsame⟩ := ThemeFiles.exists_same_of_mem file hfile
    exact ⟨path, hpath, (FileSystem.location_eq_of_same fs hsame).symm⟩
  · intro h
    exact FileSystem.loadOrder_addNew h habs fun files hmem => (hexpand files hmem).2

/-- Two files, one of them by two spellings of its path. -/
def siteSource : ThemeFiles where
  base := .ofString "/site"
  patterns := ["ui//./a.yml", "ui/dark/*.yml", "/site/ui/a.yml"]

/-- What its patterns find. -/
def siteFound : List (List FilePath) :=
  [[.ofString "/site/ui//./a.yml"], [.ofString "/site/ui/dark/b.yml"], [.ofString "/site/ui/a.yml"]]

theorem expand_dark :
    Pattern.expand siteFiles (.ofString "/site") "ui/dark/*.yml" =
      .ok [.ofString "/site/ui/dark/b.yml"] := by
  have hparse : Glob.parse (joinSlash (Pattern.wildParts "ui/dark/*.yml".toList)) =
      .ok (.anyRun :: ".yml".toList.map .literal) := by rfl
  have hdirectory : FilePath.join (.ofString "/site")
      ⟨joinSlash (Pattern.leadingParts "ui/dark/*.yml".toList)⟩ = .ofString "/site/ui/dark" := by
    rfl
  have hfiles : (siteFiles.filesBelow (.ofString "/site/ui/dark")).filter
      (Pattern.accepts (.anyRun :: ".yml".toList.map .literal)) = [["b.yml".toList]] := by decide
  rw [Pattern.expand_wild _ _ (by decide), hparse, hdirectory]
  simp only [Pattern.found, hfiles, List.map_singleton, FilePath.sort, List.mergeSort_singleton]
  rfl

theorem siteSource_loadOrder :
    siteFiles.workingDirectory.isAbsolute = true ∧
      siteSource.patterns.mapM
          (Pattern.expand siteFiles (siteFiles.workingDirectory.join siteSource.base)) =
        .ok siteFound ∧
      siteFiles.OneClimb siteFound.flatten ∧
      ∃ paths, siteSource.files siteFiles = .ok paths ∧ (paths.map siteFiles.location).Nodup ∧
        siteFiles.LoadOrder siteFound paths := by
  have hcwd : siteFiles.workingDirectory.isAbsolute = true := rfl
  have hfirst : Pattern.expand siteFiles (.ofString "/site") "ui//./a.yml" =
      .ok [.ofString "/site/ui//./a.yml"] := by rfl
  have hlast : Pattern.expand siteFiles (.ofString "/site") "/site/ui/a.yml" =
      .ok [.ofString "/site/ui/a.yml"] := by rfl
  have hfound : siteSource.patterns.mapM
      (Pattern.expand siteFiles (siteFiles.workingDirectory.join siteSource.base)) =
        .ok siteFound := by
    have hbase : siteFiles.workingDirectory.join siteSource.base = .ofString "/site" := rfl
    rw [hbase]
    simp only [siteSource, mapM_cons_eq, hfirst, expand_dark, hlast]
    rfl
  have hclimb : siteFiles.OneClimb siteFound.flatten := by decide
  obtain ⟨paths, hpaths, -, -, hnodup, horder⟩ := files_loadOrder hcwd hfound
  exact ⟨hcwd, hfound, hclimb, paths, hpaths, hnodup.mp hclimb, horder hclimb⟩

/-- A path that goes down and up again is not recognised, so the file is loaded again behind the others,
and overrides what they define. -/
theorem siteFiles_loaded_twice :
    siteFiles.root.WellFormed ∧
      ThemeFiles.files ⟨.ofString "/site", ["ui/a.yml", "ui/dark/b.yml", "ui/dark/../a.yml"]⟩
          siteFiles =
        .ok [.ofString "/site/ui/a.yml", .ofString "/site/ui/dark/b.yml",
          .ofString "/site/ui/dark/../a.yml"] ∧
      siteFiles.location (.ofString "/site/ui/a.yml") =
        siteFiles.location (.ofString "/site/ui/dark/../a.yml") :=
  ⟨siteFiles_wellFormed, by rfl, by rfl⟩

end ThemeRules
