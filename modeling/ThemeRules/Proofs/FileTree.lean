import Mathlib.Data.List.Nodup
import ThemeRules.Proofs.FilePaths

/-!
# ThemeRules.Proofs.FileTree

What a path leads to. A path below a directory is followed as that directory is and then name by name
(`parts_slashed`, `follow_append`), so looking for files from a directory further down finds the same
ones (`isFile_split`). A listing of everything below a directory has every file once (`nodup_filesOf`),
provided the tree is one that a file system can hold (`Entry.WellFormed`).
-/

namespace ThemeRules

/-! ## Trees -/

namespace Entry

/-- A tree that a file system can hold: in every directory the names are names, and different. -/
inductive WellFormed : Entry → Prop where
  | file (content : ByteArray) : WellFormed (.file content)
  | directory {entries : List (List Char × Entry)} :
      (entries.map Prod.fst).Nodup → (∀ e ∈ entries, IsName e.1) →
      (∀ e ∈ entries, WellFormed e.2) → WellFormed (.directory entries)

theorem filesOf_eq_flatMap (entries : List (List Char × Entry)) :
    filesOf entries = entries.flatMap fun e => (files e.2).map (e.1 :: ·) := by
  induction entries with
  | nil => rfl
  | cons e rest ih =>
    obtain ⟨name, entry⟩ := e
    rw [filesOf, ih, List.flatMap_cons]

theorem ne_nil_of_mem_filesOf {entries : List (List Char × Entry)} {names : List (List Char)}
    (h : names ∈ filesOf entries) : names ≠ [] := by
  rw [filesOf_eq_flatMap, List.mem_flatMap] at h
  obtain ⟨e, _, he⟩ := h
  obtain ⟨rest, _, rfl⟩ := List.mem_map.mp he
  exact List.cons_ne_nil _ _

theorem isName_of_mem_files {entry : Entry} (h : entry.WellFormed) :
    ∀ names ∈ files entry, ∀ name ∈ names, IsName name := by
  induction h with
  | file content =>
    intro names hn name hm
    rw [files, List.mem_singleton] at hn
    rw [hn] at hm
    cases hm
  | @directory entries _ hnames _ ih =>
    intro names hn name hm
    rw [files, filesOf_eq_flatMap, List.mem_flatMap] at hn
    obtain ⟨e, he, hn⟩ := hn
    obtain ⟨rest, hr, rfl⟩ := List.mem_map.mp hn
    rcases List.mem_cons.mp hm with rfl | hm
    · exact hnames e he
    · exact ih e he rest hr name hm

theorem nodup_files {entry : Entry} (h : entry.WellFormed) : (files entry).Nodup := by
  induction h with
  | file content => exact List.nodup_singleton _
  | @directory entries hd _ _ ih =>
    rw [files, filesOf_eq_flatMap, List.nodup_flatMap]
    refine ⟨fun e he => (ih e he).map fun _ _ h => (List.cons.inj h).2, ?_⟩
    refine (List.pairwise_map.mp hd).imp ?_
    intro a b hab names ha hb
    obtain ⟨_, _, rfl⟩ := List.mem_map.mp ha
    obtain ⟨_, _, hb⟩ := List.mem_map.mp hb
    exact hab (List.cons.inj hb).1.symm

/-- The entry that names lead to. -/
def descend? : Entry → List (List Char) → Option Entry
  | entry, [] => some entry
  | entry, name :: rest => (entry.child? name).bind fun child => child.descend? rest

theorem mem_files_of_descend? {entry : Entry} {names : List (List Char)} {content : ByteArray}
    (h : entry.descend? names = some (.file content)) : names ∈ files entry := by
  induction names generalizing entry with
  | nil =>
    cases h
    exact List.mem_singleton_self _
  | cons name rest ih =>
    obtain ⟨child, hc, hr⟩ := Option.bind_eq_some_iff.mp h
    cases entry with
    | file content => cases hc
    | directory entries =>
      rw [files, filesOf_eq_flatMap, List.mem_flatMap]
      obtain ⟨before, after, he, _⟩ := List.lookup_eq_some_iff.mp hc
      exact ⟨(name, child), by rw [he]; simp, List.mem_map_of_mem (ih hr)⟩

end Entry

/-! ## Following names -/

namespace FileSystem

theorem follow_append {first second : List (List Char)} :
    ∀ {here result : Entry} {above : List Entry},
      follow here above (first ++ second) = .ok result →
      ∃ between above', follow here above first = .ok between ∧
        follow between above' second = .ok result ∧
        ∀ others, follow here above (first ++ others) = follow between above' others := by
  induction first with
  | nil => intro here result above h; exact ⟨here, above, rfl, h, fun _ => rfl⟩
  | cons part rest ih =>
    intro here result above h
    simp only [List.cons_append, follow] at h ⊢
    split at h
    · cases h
    · rename_i hdir
      simp only [if_neg hdir]
      split at h
      · rename_i hskip
        simp only [if_pos hskip]
        exact ih h
      · rename_i hskip
        simp only [if_neg hskip]
        split at h
        · rename_i hup
          simp only [if_pos hup]
          split at h
          · exact ih h
          · exact ih h
        · rename_i hup
          simp only [if_neg hup]
          split at h
          · cases h
          · rename_i hlong
            simp only [if_neg hlong]
            split at h
            · cases h
            · exact ih h

/-- Names that are names lead downwards. -/
theorem descend?_of_follow {names : List (List Char)} (hn : ∀ name ∈ names, IsName name) :
    ∀ {here result : Entry} {above : List Entry}, follow here above names = .ok result →
      here.descend? names = some result := by
  induction names with
  | nil => intro here result above h; cases h; rfl
  | cons name rest ih =>
    intro here result above h
    have hname := hn name List.mem_cons_self
    have hskip : ¬ (name = [] ∨ name = ['.']) := not_or.mpr ⟨hname.ne_nil, hname.ne_dot⟩
    simp only [follow, if_neg hskip, if_neg hname.ne_dots] at h
    split at h
    · cases h
    · split at h
      · cases h
      · split at h
        · cases h
        · rename_i child hc
          rw [Entry.descend?, hc, Option.bind_some]
          exact ih (fun q hq => hn q (List.mem_cons_of_mem _ hq)) h

/-! ## Paths as parts -/

/-- The parts of a path from the root on. -/
def parts (fs : FileSystem) (path : FilePath) : List (List Char) :=
  match (fs.workingDirectory.join path).chars with
  | '/' :: rest => splitSlash rest
  | chars => splitSlash chars

/-- The system takes the path at all. -/
structure Fits (path : FilePath) : Prop where
  no_nul : '\x00' ∉ path.chars
  ne_nil : path.chars ≠ []
  short : byteLength path.chars < 4096

theorem Fits.left {first second : List Char} (h : Fits ⟨first ++ second⟩) (hne : first ≠ []) :
    Fits ⟨first⟩ := by
  obtain ⟨hnul, -, hshort⟩ := h
  refine ⟨fun hm => hnul (List.mem_append_left _ hm), hne, ?_⟩
  simp only [byteLength, List.flatMap_append, List.length_append] at hshort ⊢
  omega

theorem entry_ok_iff (fs : FileSystem) (path : FilePath) (result : Entry) :
    fs.entry path = .ok result ↔ Fits path ∧ follow fs.root [] (fs.parts path) = .ok result := by
  unfold entry
  by_cases hnul : path.chars.contains '\x00' = true
  · rw [if_pos hnul]
    exact ⟨fun h => (by cases h), fun h => absurd (List.contains_iff_mem.mp hnul) h.1.no_nul⟩
  · rw [if_neg hnul]
    by_cases hnil : path.chars.isEmpty = true
    · rw [if_pos hnil]
      exact ⟨fun h => (by cases h), fun h => absurd (List.isEmpty_iff.mp hnil) h.1.ne_nil⟩
    · rw [if_neg hnil]
      by_cases hlong : 4096 ≤ byteLength path.chars
      · rw [if_pos hlong]
        exact ⟨fun h => (by cases h), fun h => absurd h.1.short (Nat.not_lt.mpr hlong)⟩
      · rw [if_neg hlong]
        have hfits : Fits path :=
          ⟨fun h => hnul (List.contains_iff_mem.mpr h), fun h => hnil (List.isEmpty_iff.mpr h),
            Nat.not_le.mp hlong⟩
        unfold parts
        cases hc : (fs.workingDirectory.join path).chars with
        | nil => exact ⟨fun h => ⟨hfits, h⟩, fun h => h.2⟩
        | cons c rest =>
          by_cases hs : c = '/'
          · subst hs
            exact ⟨fun h => ⟨hfits, h⟩, fun h => h.2⟩
          · simp [hs, hfits]

theorem isFile_iff (fs : FileSystem) (path : FilePath) :
    fs.isFile path = true ↔ ∃ content, fs.entry path = .ok (.file content) := by
  unfold isFile
  cases fs.entry path with
  | error fault => simp
  | ok entry => cases entry <;> simp [Entry.isFile]

theorem isDirectory_iff (fs : FileSystem) (path : FilePath) :
    fs.isDirectory path = true ↔ ∃ entries, fs.entry path = .ok (.directory entries) := by
  unfold isDirectory
  cases fs.entry path with
  | error fault => simp
  | ok entry => cases entry <;> simp [Entry.isDirectory, Entry.isFile]

theorem ne_nil_of_isDirectory {fs : FileSystem} {path : FilePath}
    (h : fs.isDirectory path = true) : path.chars ≠ [] := by
  obtain ⟨entries, he⟩ := (isDirectory_iff fs path).mp h
  exact ((entry_ok_iff fs path _).mp he).1.ne_nil

/-- Appending to a directory appends parts to its parts. -/
theorem parts_slashed (fs : FileSystem) {directory : FilePath} (h : directory.chars ≠ []) :
    ∃ start, ∀ rest, fs.parts ⟨directory.slashed ++ rest⟩ = start ++ splitSlash rest := by
  obtain ⟨w, hw⟩ : ∃ w, directory.slashed = w ++ ['/'] := by
    unfold FilePath.slashed
    split
    · rename_i hl
      rw [List.isEmpty_eq_false_iff.mpr h, Bool.false_or, beq_iff_eq] at hl
      exact List.getLast?_eq_some_iff.mp hl
    · exact ⟨_, rfl⟩
  obtain ⟨u, hu⟩ : ∃ u, ∀ rest,
      (fs.workingDirectory.join ⟨directory.slashed ++ rest⟩).chars = u ++ '/' :: rest := by
    by_cases ha : (w ++ ['/']).head? = some '/'
    · refine ⟨w, fun rest => ?_⟩
      have habs : FilePath.isAbsolute ⟨w ++ ['/'] ++ rest⟩ = true := by
        rw [FilePath.isAbsolute, List.head?_append, ha]
        rfl
      rw [hw, FilePath.join, if_pos habs, List.append_assoc, List.singleton_append]
    · refine ⟨fs.workingDirectory.slashed ++ w, fun rest => ?_⟩
      have hhead : (w ++ ['/'] ++ rest).head? ≠ some '/' := by
        rw [List.head?_append]
        cases w with
        | nil => exact absurd rfl ha
        | cons c cs => exact ha
      rw [hw, FilePath.join_eq _ hhead, List.append_assoc, List.append_assoc,
        List.singleton_append]
  unfold parts
  cases u with
  | nil => exact ⟨[], fun rest => by rw [hu]; rfl⟩
  | cons c u =>
    by_cases hc : c = '/'
    · subst hc
      exact ⟨splitSlash u, fun rest => by rw [hu]; exact splitSlash_append_slash u rest⟩
    · refine ⟨splitSlash (c :: u), fun rest => ?_⟩
      rw [hu, ← splitSlash_append_slash]
      simp [hc]

/-- A separator at the end of a path is one more empty part. -/
theorem parts_trailing (fs : FileSystem) {s : List Char} (hs : s ≠ []) :
    fs.parts ⟨s ++ ['/']⟩ = fs.parts ⟨s⟩ ++ [[]] := by
  obtain ⟨d, ds, rfl⟩ := List.exists_cons_of_ne_nil hs
  have hjoin : (fs.workingDirectory.join ⟨d :: ds ++ ['/']⟩).chars =
      (fs.workingDirectory.join ⟨d :: ds⟩).chars ++ ['/'] := by
    have habs : FilePath.isAbsolute ⟨d :: ds ++ ['/']⟩ = FilePath.isAbsolute ⟨d :: ds⟩ := rfl
    simp only [FilePath.join, habs]
    split
    · rfl
    · split <;> simp
  have hne : (fs.workingDirectory.join ⟨d :: ds⟩).chars ≠ [] := by
    simp only [FilePath.join]
    split
    · exact hs
    · split <;> simp
  obtain ⟨c, cs, hc⟩ := List.exists_cons_of_ne_nil hne
  unfold parts
  rw [hjoin, hc]
  by_cases hslash : c = '/'
  · subst hslash
    exact splitSlash_append_slash cs []
  · have hsplit : splitSlash (c :: cs ++ ['/']) = splitSlash (c :: cs) ++ [[]] :=
      splitSlash_append_slash (c :: cs) []
    simpa [hslash] using hsplit

/-! ## Files below a directory -/

theorem wellFormed_follow {names : List (List Char)} :
    ∀ {here result : Entry} {above : List Entry}, here.WellFormed →
      (∀ e ∈ above, Entry.WellFormed e) → follow here above names = .ok result →
      result.WellFormed := by
  induction names with
  | nil => intro here result above hh _ h; cases h; exact hh
  | cons part rest ih =>
    intro here result above hh ha h
    simp only [follow] at h
    split at h
    · cases h
    · split at h
      · exact ih hh ha h
      · split at h
        · split at h
          · exact ih hh (fun e he => by cases he) h
          · exact ih (ha _ List.mem_cons_self) (fun e he => ha e (List.mem_cons_of_mem _ he)) h
        · split at h
          · cases h
          · split at h
            · cases h
            · rename_i child hc
              refine ih ?_ (fun e he => ?_) h
              · cases hh with
                | file content => cases hc
                | directory _ _ hall =>
                  obtain ⟨before, after, he, _⟩ := List.lookup_eq_some_iff.mp hc
                  exact hall (part, child) (by rw [he]; simp)
              · rcases List.mem_cons.mp he with rfl | he
                · exact hh
                · exact ha e he

theorem wellFormed_entry {fs : FileSystem} (hfs : fs.root.WellFormed) {path : FilePath}
    {result : Entry} (h : fs.entry path = .ok result) : result.WellFormed :=
  wellFormed_follow hfs (fun e he => by cases he) ((entry_ok_iff fs path result).mp h).2

theorem mem_filesBelow {fs : FileSystem} {directory : FilePath} {names : List (List Char)} :
    names ∈ fs.filesBelow directory ↔
      (∃ entries, fs.entry directory = .ok (.directory entries) ∧ names ∈ Entry.filesOf entries) ∧
        fs.isFile (directory.below names) = true := by
  unfold filesBelow
  cases fs.entry directory with
  | error fault => simp
  | ok entry => cases entry <;> simp

theorem isName_of_mem_filesBelow {fs : FileSystem} (hfs : fs.root.WellFormed)
    {directory : FilePath} {names : List (List Char)} (h : names ∈ fs.filesBelow directory) :
    names ≠ [] ∧ ∀ name ∈ names, IsName name := by
  obtain ⟨⟨entries, he, hn⟩, _⟩ := mem_filesBelow.mp h
  exact ⟨Entry.ne_nil_of_mem_filesOf hn, Entry.isName_of_mem_files (wellFormed_entry hfs he) names hn⟩

theorem nodup_filesBelow {fs : FileSystem} (hfs : fs.root.WellFormed) (directory : FilePath) :
    (fs.filesBelow directory).Nodup := by
  unfold filesBelow
  split
  · rename_i entries he
    exact (Entry.nodup_files (wellFormed_entry hfs he)).filter _
  · exact List.nodup_nil

/-- A file that names lead to lies in a directory, from where everything else can be followed too. -/
theorem follow_to_directory {here : Entry} {above : List Entry} {start names : List (List Char)}
    {content : ByteArray} (hne : names ≠ []) (hn : ∀ name ∈ names, IsName name)
    (h : follow here above (start ++ names) = .ok (.file content)) :
    ∃ entries above', names ∈ Entry.filesOf entries ∧
      ∀ others, follow here above (start ++ others) = follow (.directory entries) above' others := by
  obtain ⟨between, above', -, hrest, hothers⟩ := follow_append h
  have hmem := Entry.mem_files_of_descend? (descend?_of_follow hn hrest)
  cases between with
  | file content' =>
    rw [Entry.files, List.mem_singleton] at hmem
    exact absurd hmem hne
  | directory entries => exact ⟨entries, above', hmem, hothers⟩

theorem Fits.of_below {base : FilePath} (hb : base.chars ≠ []) {first second : List (List Char)}
    (hne : second ≠ []) (h : Fits ⟨base.slashed ++ joinSlash (first ++ second)⟩) :
    Fits ⟨base.slashed ++ joinSlash first⟩ := by
  have hslashed : base.slashed ≠ [] := by
    unfold FilePath.slashed
    split
    · exact hb
    · simp
  obtain ⟨t, ht⟩ : ∃ t, joinSlash (first ++ second) = joinSlash first ++ t := by
    cases first with
    | nil => exact ⟨_, rfl⟩
    | cons name rest => exact ⟨_, joinSlash_append (List.cons_ne_nil _ _) hne⟩
  rw [ht, ← List.append_assoc] at h
  exact h.left (by simp [hslashed])

/-- A file below a directory is a file below every directory on the way. -/
theorem isFile_split (fs : FileSystem) {base : FilePath} (hb : base.chars ≠ [])
    {first second : List (List Char)} (hne : second ≠ [])
    (h1 : ∀ name ∈ first, IsName name) (h2 : ∀ name ∈ second, IsName name)
    (h : fs.isFile (base.below (first ++ second)) = true) :
    ∃ entries, fs.entry (base.join ⟨joinSlash first⟩) = .ok (.directory entries) ∧
      second ∈ Entry.filesOf entries := by
  obtain ⟨content, hc⟩ := (isFile_iff fs _).mp h
  have hnames : ∀ name ∈ first ++ second, IsName name := fun name hn =>
    (List.mem_append.mp hn).elim (h1 name) (h2 name)
  have hne' : first ++ second ≠ [] := by simp [hne]
  obtain ⟨start, hs⟩ := parts_slashed fs hb
  rw [FilePath.below_eq base hne' hnames, entry_ok_iff, hs, splitSlash_names hne' hnames,
    ← List.append_assoc] at hc
  obtain ⟨hfits, hfollow⟩ := hc
  obtain ⟨entries, above, hmem, hothers⟩ := follow_to_directory hne h2 hfollow
  refine ⟨entries, ?_, hmem⟩
  rw [FilePath.join_eq base (FilePath.head?_joinSlash_ne_slash h1), entry_ok_iff, hs]
  refine ⟨hfits.of_below hb hne, ?_⟩
  cases first with
  | nil =>
    -- nothing is appended to the base directory but a separator, which is an empty part
    rw [List.append_nil] at hothers
    exact hothers [[]]
  | cons name rest =>
    rw [splitSlash_names (List.cons_ne_nil _ _) h1]
    have hend := hothers []
    rw [List.append_nil] at hend
    exact hend

/-- The files below a directory further down are the files below the first one whose names start with
the names on the way. -/
theorem mem_filesBelow_join {fs : FileSystem} (hfs : fs.root.WellFormed) {base : FilePath}
    (hb : base.chars ≠ []) {first names : List (List Char)} (h1 : ∀ name ∈ first, IsName name) :
    names ∈ fs.filesBelow (base.join ⟨joinSlash first⟩) ↔
      names ≠ [] ∧ (∀ name ∈ names, IsName name) ∧
        fs.isFile (base.below (first ++ names)) = true := by
  constructor
  · intro h
    obtain ⟨hne, hnames⟩ := isName_of_mem_filesBelow hfs h
    have hfile := (mem_filesBelow.mp h).2
    rw [FilePath.below_join base hne h1 hnames] at hfile
    exact ⟨hne, hnames, hfile⟩
  · rintro ⟨hne, hnames, hfile⟩
    refine mem_filesBelow.mpr ⟨isFile_split fs hb hne h1 hnames hfile, ?_⟩
    rw [FilePath.below_join base hne h1 hnames]
    exact hfile

theorem isDirectory_of_isFile (fs : FileSystem) {base : FilePath}
    (hb : fs.isDirectory base = true) {first second : List (List Char)} (hne : second ≠ [])
    (h1 : ∀ name ∈ first, IsName name) (h2 : ∀ name ∈ second, IsName name)
    (h : fs.isFile (base.below (first ++ second)) = true) :
    fs.isDirectory (base.below first) = true := by
  cases first with
  | nil => exact hb
  | cons name rest =>
    obtain ⟨entries, he, _⟩ := isFile_split fs (ne_nil_of_isDirectory hb) hne h1 h2 h
    rw [FilePath.join_eq base (FilePath.head?_joinSlash_ne_slash h1),
      ← FilePath.below_eq base (List.cons_ne_nil _ _) h1] at he
    exact (isDirectory_iff fs _).mpr ⟨entries, he⟩

theorem entry_of_slashed {fs : FileSystem} {directory : FilePath} (hne : directory.chars ≠ [])
    {result : Entry} (h : fs.entry ⟨directory.slashed⟩ = .ok result) :
    fs.entry directory = .ok result := by
  unfold FilePath.slashed at h
  split at h
  · exact h
  · rw [entry_ok_iff, parts_trailing fs hne] at h
    obtain ⟨hfits, hfollow⟩ := h
    obtain ⟨between, above, hbetween, hrest, -⟩ := follow_append hfollow
    have hresult : between = result := by
      simp only [follow] at hrest
      split at hrest
      · cases hrest
      · simpa using hrest
    rw [entry_ok_iff, ← hresult]
    exact ⟨hfits.left hne, hbetween⟩

/-- What is below a directory does not depend on a separator at its end. -/
theorem filesBelow_slashed {fs : FileSystem} (hfs : fs.root.WellFormed) {directory : FilePath}
    (hne : directory.chars ≠ []) :
    fs.filesBelow ⟨directory.slashed⟩ = fs.filesBelow directory := by
  have hbelow : ∀ names, names ≠ [] → (∀ name ∈ names, IsName name) →
      FilePath.below ⟨directory.slashed⟩ names = directory.below names := by
    intro names hn hnames
    rw [FilePath.below_eq _ hn hnames, FilePath.below_eq _ hn hnames, FilePath.slashed_slashed]
  unfold filesBelow
  cases hs : fs.entry ⟨directory.slashed⟩ with
  | ok entry =>
    rw [entry_of_slashed hne hs]
    cases entry with
    | file content => rfl
    | directory entries =>
      apply List.filter_congr
      intro names hmem
      have hnames := Entry.isName_of_mem_files (wellFormed_entry hfs hs) names hmem
      rw [hbelow names (Entry.ne_nil_of_mem_filesOf hmem) hnames]
  | error fault =>
    cases hd : fs.entry directory with
    | error fault => rfl
    | ok entry =>
      cases entry with
      | file content => rfl
      | directory entries =>
        symm
        apply List.filter_eq_nil_iff.mpr
        intro names hmem hfile
        have hnames := Entry.isName_of_mem_files (wellFormed_entry hfs hd) names hmem
        have hbelow : fs.isFile (directory.below ([] ++ names)) = true := hfile
        obtain ⟨_, he, _⟩ := isFile_split fs hne (Entry.ne_nil_of_mem_filesOf hmem)
          (fun _ h => by cases h) hnames hbelow
        rw [FilePath.join_eq _ (by simp [joinSlash]), joinSlash, List.append_nil, hs] at he
        cases he

end FileSystem
end ThemeRules
