import Mathlib.Data.List.Forall2
import ThemeRules.Proofs.Placement

/-!
# ThemeRules.Proofs.Counterparts

Two runs over one tree, placed at different base directories. A path of either run is its base directory
joined with the same inner path, so both find the same files in the same order (`Counterparts`), read the
same texts and fail with the same error, about the same place below the one base directory or the other
(`Error.Moved`). The places can differ in one thing only, the limit on the length of a path: an inner path
may fit below the one and not below the other (`FitsAlike`).
-/

namespace ThemeRules

open FileSystem (Fits Placed)

/-- The paths that a run may find something at, when it starts from an inner path: where that leads, and
the files below. -/
def Entry.pathsFrom (tree : Entry) (path : FilePath) : List FilePath :=
  match tree.reach path with
  | .error _ => []
  | .ok entry => path :: entry.files.map path.below

theorem Entry.mem_pathsFrom {tree entry : Entry} {path : FilePath} (h : tree.reach path = .ok entry) :
    path ∈ tree.pathsFrom path := by
  rw [pathsFrom, h]
  exact List.mem_cons_self

theorem Entry.below_mem_pathsFrom {tree entry : Entry} {path : FilePath}
    (h : tree.reach path = .ok entry) {names : List (List Char)} (hnames : names ∈ entry.files) :
    path.below names ∈ tree.pathsFrom path := by
  rw [pathsFrom, h]
  exact List.mem_cons_of_mem _ (List.mem_map_of_mem hnames)

/-- The system takes the path below both directories or below neither. -/
def FilePath.FitsAlike (path base base' : FilePath) : Prop :=
  Fits (base.join path) ↔ Fits (base'.join path)

/-- Files below two directories, by the same inner paths, at which both file systems hold the same. -/
def Counterparts (fs fs' : FileSystem) (base base' : FilePath) (files files' : List FilePath) : Prop :=
  ∃ paths : List FilePath, files = paths.map base.join ∧ files' = paths.map base'.join ∧
    ∀ path ∈ paths, path.IsInner ∧ ∃ content, fs.entry (base.join path) = .ok (.file content) ∧
      fs'.entry (base'.join path) = .ok (.file content)

/-- The same error, about the same place below two directories. -/
inductive Error.Moved (base base' : FilePath) : Error → Error → Prop where
  | noThemes : Moved base base' .noThemes .noThemes
  | presetNotFound (name : String) : Moved base base' (.presetNotFound name) (.presetNotFound name)
  | badPattern (pattern : String) (glob : List Char) (fault : Glob.Fault) :
      Moved base base' (.badPattern pattern glob fault) (.badPattern pattern glob fault)
  | unreadable (path : FilePath) (fault : FileFault) :
      Moved base base' (.unreadable (base.join path) fault) (.unreadable (base'.join path) fault)
  | invalid (path : FilePath) (fault : Yaml.Fault) :
      Moved base base' (.invalid (base.join path).toString fault)
        (.invalid (base'.join path).toString fault)

/-- Results that correspond, or errors that do. -/
inductive Alike {ε α β : Type} (errors : ε → ε → Prop) (results : α → β → Prop) :
    Except ε α → Except ε β → Prop where
  | ok {a : α} {b : β} : results a b → Alike errors results (.ok a) (.ok b)
  | error {e e' : ε} : errors e e' → Alike errors results (.error e) (.error e')

theorem Alike.outcomes {ε α β : Type} {errors : ε → ε → Prop} {results : α → β → Prop}
    {x : Except ε α} {y : Except ε β} (h : Alike errors results x y) :
    (∃ a b, x = .ok a ∧ y = .ok b ∧ results a b) ∨
      ∃ e e', x = .error e ∧ y = .error e' ∧ errors e e' := by
  cases h with
  | ok h => exact .inl ⟨_, _, rfl, rfl, h⟩
  | error h => exact .inr ⟨_, _, rfl, rfl, h⟩

theorem mapM_alike {ε α β γ : Type} {errors : ε → ε → Prop} {results : β → γ → Prop}
    {f : α → Except ε β} {g : α → Except ε γ} {xs : List α}
    (h : ∀ x ∈ xs, Alike errors results (f x) (g x)) :
    Alike errors (List.Forall₂ results) (xs.mapM f) (xs.mapM g) := by
  induction xs with
  | nil => exact .ok .nil
  | cons x rest ih =>
    obtain ⟨hx, hrest⟩ := List.forall_mem_cons.mp h
    rw [mapM_cons_eq, mapM_cons_eq]
    obtain ⟨a, b, hf, hg, hab⟩ | ⟨e, e', hf, hg, he⟩ := hx.outcomes
    · rw [hf, hg]
      obtain ⟨as, bs, hfs, hgs, habs⟩ | ⟨e, e', hfs, hgs, he⟩ := (ih hrest).outcomes
      · rw [hfs, hgs]
        exact .ok (.cons hab habs)
      · rw [hfs, hgs]
        exact .error he
    · rw [hf, hg]
      exact .error he

section TwoPlaces

variable {tree : Entry} {fs fs' : FileSystem} {base base' : FilePath}

/-! ## Paths below both base directories -/

namespace FileSystem

theorem entry_relocated (h : Placed tree fs base) (h' : Placed tree fs' base') {path : FilePath}
    (hp : path.IsInner) (hfits : ∀ entry, tree.reach path = .ok entry → path.FitsAlike base base')
    (result : Entry) :
    fs.entry (base.join path) = .ok result ↔ fs'.entry (base'.join path) = .ok result := by
  rw [h.entry_join_iff hp, h'.entry_join_iff hp]
  exact and_congr_left fun hreach => hfits result hreach

theorem isFile_relocated (h : Placed tree fs base) (h' : Placed tree fs' base') {path : FilePath}
    (hp : path.IsInner) (hfits : ∀ entry, tree.reach path = .ok entry → path.FitsAlike base base') :
    fs.isFile (base.join path) = fs'.isFile (base'.join path) := by
  rw [Bool.eq_iff_iff, isFile_iff, isFile_iff]
  exact exists_congr fun content => entry_relocated h h' hp hfits _

theorem isDirectory_relocated (h : Placed tree fs base) (h' : Placed tree fs' base')
    {path : FilePath} (hp : path.IsInner)
    (hfits : ∀ entry, tree.reach path = .ok entry → path.FitsAlike base base') :
    fs.isDirectory (base.join path) = fs'.isDirectory (base'.join path) := by
  rw [Bool.eq_iff_iff, isDirectory_iff, isDirectory_iff]
  exact exists_congr fun entries => entry_relocated h h' hp hfits _

/-- So it is for the files below a directory that one run finds. -/
theorem entry_below_relocated (h : Placed tree fs base) (h' : Placed tree fs' base')
    {path : FilePath} (hp : path.IsInner)
    (hfits : ∀ p ∈ tree.pathsFrom path, p.FitsAlike base base') {entries : List (List Char × Entry)}
    (hentry : fs.entry (base.join path) = .ok (.directory entries)) {names : List (List Char)}
    (hmem : names ∈ Entry.filesOf entries) (result : Entry) :
    fs.entry (base.join (path.below names)) = .ok result ↔
      fs'.entry (base'.join (path.below names)) = .ok result := by
  have hall := Entry.isName_of_mem_files (wellFormed_entry h.wellFormed hentry) names hmem
  have hreach := ((h.entry_join_iff hp _).mp hentry).2
  exact entry_relocated h h' (hp.below hall)
    (fun _ _ => hfits _ (Entry.below_mem_pathsFrom hreach hmem)) result

/-- Below an inner path both runs find the same files, by the same names. -/
theorem filesBelow_relocated (h : Placed tree fs base) (h' : Placed tree fs' base')
    {path : FilePath} (hp : path.IsInner)
    (hfits : ∀ p ∈ tree.pathsFrom path, p.FitsAlike base base') :
    fs.filesBelow (base.join path) = fs'.filesBelow (base'.join path) ∧
      ∀ names ∈ fs.filesBelow (base.join path), ∃ content,
        fs.entry (base.join (path.below names)) = .ok (.file content) ∧
          fs'.entry (base'.join (path.below names)) = .ok (.file content) := by
  have hanchor := entry_relocated h h' hp fun entry hreach => hfits path (Entry.mem_pathsFrom hreach)
  have hfiles : ∀ entries, fs.entry (base.join path) = .ok (.directory entries) →
      ∀ names ∈ Entry.filesOf entries,
        fs.isFile ((base.join path).below names) = fs'.isFile ((base'.join path).below names) := by
    intro entries hentry names hmem
    rw [FilePath.join_below, FilePath.join_below, Bool.eq_iff_iff, isFile_iff, isFile_iff]
    exact exists_congr fun content => entry_below_relocated h h' hp hfits hentry hmem _
  constructor
  · cases hentry : fs.entry (base.join path) with
    | ok entry =>
      have hentry' := (hanchor entry).mp hentry
      unfold filesBelow
      rw [hentry, hentry']
      cases entry with
      | file content => rfl
      | directory entries => exact List.filter_congr (hfiles entries hentry)
    | error fault =>
      cases hentry' : fs'.entry (base'.join path) with
      | ok entry =>
        rw [(hanchor entry).mpr hentry'] at hentry
        cases hentry
      | error fault' =>
        unfold filesBelow
        rw [hentry, hentry']
  · intro names hmem
    obtain ⟨⟨entries, hentry, hbelow⟩, hfile⟩ := mem_filesBelow.mp hmem
    rw [FilePath.join_below] at hfile
    obtain ⟨content, hcontent⟩ := (isFile_iff fs _).mp hfile
    exact ⟨content, hcontent, (entry_below_relocated h h' hp hfits hentry hbelow _).mp hcontent⟩

/-- Sorted, they come in the same order. -/
theorem counterparts_sort (h : Placed tree fs base) (h' : Placed tree fs' base')
    {path : FilePath} (hp : path.IsInner)
    (hfits : ∀ p ∈ tree.pathsFrom path, p.FitsAlike base base') (p : List (List Char) → Bool) :
    Counterparts fs fs' base base'
      (FilePath.sort (((fs.filesBelow (base.join path)).filter p).map (base.join path).below))
      (FilePath.sort (((fs'.filesBelow (base'.join path)).filter p).map (base'.join path).below)) := by
  obtain ⟨hsame, hfiles⟩ := filesBelow_relocated h h' hp hfits
  have hbelow : ∀ directory : FilePath,
      (directory.join path).below = directory.join ∘ path.below := fun directory =>
    funext fun names => FilePath.join_below directory path names
  rw [sort_filesBelow h.wellFormed, sort_filesBelow h'.wellFormed, ← hsame, hbelow, hbelow,
    ← List.map_map, ← List.map_map]
  refine ⟨_, rfl, rfl, fun q hq => ?_⟩
  obtain ⟨names, hmem, rfl⟩ := List.mem_map.mp hq
  have hnames := (List.mem_filter.mp (List.mem_mergeSort.mp hmem)).1
  exact ⟨hp.below (isName_of_mem_filesBelow h.wellFormed hnames).2, hfiles names hnames⟩

end FileSystem

/-! ## Theme files -/

theorem Counterparts.append {files files' others others' : List FilePath}
    (h : Counterparts fs fs' base base' files files')
    (ho : Counterparts fs fs' base base' others others') :
    Counterparts fs fs' base base' (files ++ others) (files' ++ others') := by
  obtain ⟨paths, rfl, rfl, hpaths⟩ := h
  obtain ⟨more, rfl, rfl, hmore⟩ := ho
  exact ⟨paths ++ more, List.map_append.symm, List.map_append.symm, fun path hmem =>
    (List.mem_append.mp hmem).elim (hpaths path) (hmore path)⟩

theorem Counterparts.flatten {found found' : List (List FilePath)}
    (h : List.Forall₂ (Counterparts fs fs' base base') found found') :
    Counterparts fs fs' base base' found.flatten found'.flatten := by
  induction h with
  | nil => exact ⟨[], rfl, rfl, fun path hmem => by cases hmem⟩
  | cons hfiles _ ih => exact hfiles.append ih

/-- The same files are left out as repeated. -/
theorem Counterparts.addNew (hbase : base.isAbsolute = true) (hbase' : base'.isAbsolute = true)
    {new new' : List FilePath} (hnew : Counterparts fs fs' base base' new new') :
    Counterparts fs fs' base base' (ThemeFiles.addNew [] new) (ThemeFiles.addNew [] new') := by
  obtain ⟨paths, rfl, rfl, hpaths⟩ := hnew
  induction paths using List.reverseRecOn with
  | nil => exact ⟨[], rfl, rfl, fun path hmem => by cases hmem⟩
  | append_singleton paths path ih =>
    have hpath := hpaths path (List.mem_append_right _ (List.mem_singleton_self _))
    obtain ⟨kept, hkept, hkept', hall⟩ := ih fun p hp => hpaths p (List.mem_append_left _ hp)
    have hany : (kept.map base.join).any (base.join path).same =
        (kept.map base'.join).any (base'.join path).same := by
      rw [List.any_map, List.any_map, Bool.eq_iff_iff, List.any_eq_true, List.any_eq_true]
      refine exists_congr fun p => and_congr_right fun hp => ?_
      have hp := (hall p hp).1.relative
      exact (FilePath.same_join_iff hbase hpath.1.relative hp).trans
        (FilePath.same_join_iff hbase' hpath.1.relative hp).symm
    rw [List.map_append, List.map_append, List.map_singleton, List.map_singleton,
      ThemeFiles.addNew_concat, ThemeFiles.addNew_concat, hkept, hkept', ← hany]
    split
    · exact ⟨kept, rfl, rfl, hall⟩
    · have hlast : Counterparts fs fs' base base' [base.join path] [base'.join path] :=
        ⟨[path], rfl, rfl, List.forall_mem_singleton.mpr hpath⟩
      exact Counterparts.append ⟨kept, rfl, rfl, hall⟩ hlast

open FileSystem in
theorem Pattern.expand_relocated (h : Placed tree fs base) (h' : Placed tree fs' base')
    {pattern : String} (hp : (FilePath.ofString pattern).IsInner)
    (hfits : ∀ p ∈ tree.pathsFrom ⟨(split pattern.toList).1⟩, p.FitsAlike base base') :
    Alike (Error.Moved base base') (Counterparts fs fs' base base') (expand fs base pattern)
      (expand fs' base' pattern) := by
  have hinner := isInner_split hp
  by_cases hw : wildParts pattern.toList = []
  · rw [split_literal hw] at hfits
    have hanchor : ∀ entry, tree.reach ⟨pattern.toList⟩ = .ok entry →
        FilePath.FitsAlike ⟨pattern.toList⟩ base base' := fun entry hreach =>
      hfits _ (Entry.mem_pathsFrom hreach)
    have hentry := entry_relocated h h' hp hanchor
    have hsame : fs.isFile (base.join ⟨pattern.toList⟩) = fs'.isFile (base'.join ⟨pattern.toList⟩) :=
      isFile_relocated h h' hp hanchor
    rw [expand_literal fs base hw, expand_literal fs' base' hw, ← hsame]
    cases hfile : fs.isFile (base.join ⟨pattern.toList⟩) with
    | true =>
      obtain ⟨content, hcontent⟩ := (isFile_iff fs _).mp hfile
      exact .ok ⟨[⟨pattern.toList⟩], rfl, rfl, List.forall_mem_singleton.mpr
        ⟨hp, content, hcontent, (hentry _).mp hcontent⟩⟩
    | false => exact .ok ⟨[], rfl, rfl, fun path hmem => by cases hmem⟩
  · rw [expand_wild fs base hw, expand_wild fs' base' hw]
    rw [split_wild hw] at hinner hfits
    cases Glob.parse (joinSlash (wildParts pattern.toList)) with
    | error fault => exact .error (.badPattern _ _ fault)
    | ok tokens => exact .ok (counterparts_sort h h' hinner hfits _)

/-! ## Loading -/

theorem Collection.ofFile_relocated {path : FilePath} {content : ByteArray}
    (h : fs.entry (base.join path) = .ok (.file content))
    (h' : fs'.entry (base'.join path) = .ok (.file content)) :
    Alike (Error.Moved base base') Eq (ofFile fs (base.join path)) (ofFile fs' (base'.join path)) := by
  simp only [ofFile, FileSystem.load, FileSystem.read, h, h']
  cases String.fromUTF8? content with
  | none => exact .error (.unreadable path _)
  | some text =>
    dsimp only
    cases ofYaml text with
    | error fault => exact .error (.invalid path fault)
    | ok themes => exact .ok rfl

theorem Counterparts.mapM_ofFile {files files' : List FilePath}
    (h : Counterparts fs fs' base base' files files') :
    Alike (Error.Moved base base') Eq (files.mapM (Collection.ofFile fs))
      (files'.mapM (Collection.ofFile fs')) := by
  obtain ⟨paths, rfl, rfl, hpaths⟩ := h
  rw [List.mapM_map, List.mapM_map]
  have halike : ∀ path ∈ paths, Alike (Error.Moved base base') Eq
      ((Collection.ofFile fs ∘ base.join) path) ((Collection.ofFile fs' ∘ base'.join) path) := by
    intro path hmem
    obtain ⟨-, content, hcontent, hcontent'⟩ := hpaths path hmem
    exact Collection.ofFile_relocated hcontent hcontent'
  have hmapM := mapM_alike halike
  rwa [List.forall₂_eq_eq_eq] at hmapM

end TwoPlaces

end ThemeRules
