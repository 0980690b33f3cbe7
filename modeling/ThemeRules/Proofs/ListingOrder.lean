import ThemeRules.Host
import ThemeRules.Proofs.FileTree
import ThemeRules.Proofs.Resolution

/-!
# ThemeRules.Proofs.ListingOrder

The order in which directories are listed. `Entry.Reordered` relates trees that differ in nothing else.
Paths lead to the same entries in both (`entry_reordered`), and below a directory both hold the same
files, in some order (`filesBelow_perm`). All lists of files are sorted before they are used, and sorting
forgets that order, so whatever a configuration resolves or compiles to is the same (`compile_reordered`).
-/

namespace ThemeRules

namespace Entry

/-- The same entries under the same names, listed in another order. -/
inductive Reordered : Entry → Entry → Prop where
  | file (content : ByteArray) : Reordered (.file content) (.file content)
  | directory {first second : List (List Char × Entry)} :
      (first.map Prod.fst).Perm (second.map Prod.fst) →
      (∀ a ∈ first, ∀ b ∈ second, a.1 = b.1 → Reordered a.2 b.2) →
      Reordered (.directory first) (.directory second)

theorem exists_same_name {first second : List (List Char × Entry)}
    (h : (first.map Prod.fst).Perm (second.map Prod.fst)) {a : List Char × Entry}
    (ha : a ∈ first) : ∃ b ∈ second, b.1 = a.1 :=
  List.mem_map.mp (h.mem_iff.mp (List.mem_map_of_mem ha))

theorem Reordered.wellFormed {first second : Entry} (h : first.Reordered second) :
    first.WellFormed → second.WellFormed := by
  induction h with
  | file content => exact id
  | @directory first second hperm _ ih =>
    rintro (_ | ⟨hnodup, hnames, hall⟩)
    refine .directory (hperm.nodup_iff.mp hnodup) ?_ ?_
    · intro b hb
      obtain ⟨a, ha, hab⟩ := exists_same_name hperm.symm hb
      rw [← hab]
      exact hnames a ha
    · intro b hb
      obtain ⟨a, ha, hab⟩ := exists_same_name hperm.symm hb
      exact ih a ha b hb hab (hall a ha)

theorem child?_reordered {first second : Entry} (h : first.Reordered second) (name : List Char) :
    Option.Rel Reordered (first.child? name) (second.child? name) := by
  cases h with
  | file content => exact .none
  | @directory first second hperm hchild =>
    simp only [child?]
    cases hf : first.lookup name with
    | none =>
      have hs : second.lookup name = none := by
        rw [List.lookup_eq_none_iff] at hf ⊢
        intro b hb
        obtain ⟨a, ha, hab⟩ := exists_same_name hperm.symm hb
        rw [← hab]
        exact hf a ha
      rw [hs]
      exact .none
    | some x =>
      obtain ⟨before, after, rfl, -⟩ := List.lookup_eq_some_iff.mp hf
      obtain ⟨b, hb, hab⟩ := exists_same_name hperm (a := (name, x)) (by simp)
      cases hs : second.lookup name with
      | none =>
        have := List.lookup_eq_none_iff.mp hs b hb
        simp [hab] at this
      | some y =>
        obtain ⟨before', after', rfl, -⟩ := List.lookup_eq_some_iff.mp hs
        exact .some (hchild (name, x) (by simp) (name, y) (by simp) rfl)

theorem mem_files_reordered {first second : Entry} (h : first.Reordered second) :
    ∀ names, names ∈ files first ↔ names ∈ files second := by
  induction h with
  | file content => intro names; exact Iff.rfl
  | @directory first second hperm _ ih =>
    intro names
    simp only [files, filesOf_eq_flatMap, List.mem_flatMap, List.mem_map]
    constructor
    · rintro ⟨a, ha, rest, hrest, rfl⟩
      obtain ⟨b, hb, hab⟩ := exists_same_name hperm ha
      exact ⟨b, hb, rest, (ih a ha b hb hab.symm rest).mp hrest, by rw [hab]⟩
    · rintro ⟨b, hb, rest, hrest, rfl⟩
      obtain ⟨a, ha, hab⟩ := exists_same_name hperm.symm hb
      exact ⟨a, ha, rest, (ih a ha b hb hab rest).mpr hrest, by rw [hab]⟩

theorem files_perm {first second : Entry} (h : first.Reordered second) (hf : first.WellFormed) :
    (files first).Perm (files second) :=
  (List.perm_ext_iff_of_nodup (nodup_files hf) (nodup_files (h.wellFormed hf))).mpr
    (mem_files_reordered h)

end Entry

namespace FileSystem

/-- The same files, listed in another order. -/
structure Reordered (first second : FileSystem) : Prop where
  root : first.root.Reordered second.root
  workingDirectory : first.workingDirectory = second.workingDirectory

/-! ## Following a path -/

/-- Paths that end alike: in the same fault or in the same entry. -/
inductive EndAlike : Except FileFault Entry → Except FileFault Entry → Prop where
  | error (fault : FileFault) : EndAlike (.error fault) (.error fault)
  | ok {first second : Entry} : first.Reordered second → EndAlike (.ok first) (.ok second)

theorem EndAlike.outcomes {first second : Except FileFault Entry} (h : EndAlike first second) :
    (∃ fault, first = .error fault ∧ second = .error fault) ∨
      ∃ a b, first = .ok a ∧ second = .ok b ∧ a.Reordered b := by
  cases h with
  | error fault => exact .inl ⟨fault, rfl, rfl⟩
  | ok h => exact .inr ⟨_, _, rfl, rfl, h⟩

theorem isFile_reordered {first second : Entry} (h : first.Reordered second) :
    first.isFile = second.isFile := by
  cases h <;> rfl

theorem follow_reordered {names : List (List Char)} :
    ∀ {first second : Entry} {above above' : List Entry}, first.Reordered second →
      List.Forall₂ Entry.Reordered above above' →
      EndAlike (follow first above names) (follow second above' names) := by
  induction names with
  | nil => intro first second above above' h _; exact .ok h
  | cons part rest ih =>
    intro first second above above' h habove
    simp only [follow, ← isFile_reordered h]
    split
    · exact .error _
    · split
      · exact ih h habove
      · split
        · cases habove with
          | nil => exact ih h .nil
          | cons houter hrest => exact ih houter hrest
        · split
          · exact .error _
          · have hchild := Entry.child?_reordered h part
            generalize first.child? part = child at hchild ⊢
            generalize second.child? part = child' at hchild ⊢
            cases hchild with
            | none => exact .error _
            | some hsame => exact ih hsame (.cons h habove)

variable {first second : FileSystem}

theorem entry_reordered (h : first.Reordered second) (path : FilePath) :
    EndAlike (first.entry path) (second.entry path) := by
  unfold entry
  rw [h.workingDirectory]
  split
  · exact .error _
  · split
    · exact .error _
    · split
      · exact .error _
      · split <;> exact follow_reordered h.root .nil

theorem isFile_eq (h : first.Reordered second) : first.isFile = second.isFile := by
  funext path
  unfold isFile
  rcases (entry_reordered h path).outcomes with ⟨fault, hf, hs⟩ | ⟨a, b, hf, hs, hab⟩
  · rw [hf, hs]
  · rw [hf, hs]
    exact isFile_reordered hab

theorem isDirectory_eq (h : first.Reordered second) : first.isDirectory = second.isDirectory := by
  funext path
  unfold isDirectory
  rcases (entry_reordered h path).outcomes with ⟨fault, hf, hs⟩ | ⟨a, b, hf, hs, hab⟩
  · rw [hf, hs]
  · rw [hf, hs]
    exact congrArg not (isFile_reordered hab)

theorem read_eq (h : first.Reordered second) (path : FilePath) :
    first.read path = second.read path := by
  unfold read
  rcases (entry_reordered h path).outcomes with ⟨fault, hf, hs⟩ | ⟨a, b, hf, hs, hab⟩
  · rw [hf, hs]
  · rw [hf, hs]
    cases hab <;> rfl

/-! ## Lists of files -/

theorem filesBelow_perm (hfs : first.root.WellFormed) (h : first.Reordered second)
    (directory : FilePath) : (first.filesBelow directory).Perm (second.filesBelow directory) := by
  unfold filesBelow
  rw [isFile_eq h]
  rcases (entry_reordered h directory).outcomes with ⟨fault, hf, hs⟩ | ⟨a, b, hf, hs, hab⟩
  · rw [hf, hs]
  · have hperm := Entry.files_perm hab (wellFormed_entry hfs hf)
    rw [hf, hs]
    cases hab with
    | file content => exact .nil
    | directory _ _ => exact hperm.filter _

theorem themeFiles_eq (hfs : first.root.WellFormed) (h : first.Reordered second)
    (directory : FilePath) : first.themeFiles directory = second.themeFiles directory := by
  apply FilePath.sort_eq_of_perm directory (((filesBelow_perm hfs h directory).map _).filter _)
  intro path hpath
  obtain ⟨names, hnames, rfl⟩ := List.mem_map.mp (List.mem_filter.mp hpath).1
  exact ⟨names, (isName_of_mem_filesBelow hfs hnames).2, rfl⟩

end FileSystem

theorem Pattern.expand_eq {first second : FileSystem} (hfs : first.root.WellFormed)
    (h : first.Reordered second) : Pattern.expand first = Pattern.expand second := by
  funext base pattern
  simp only [expand, FileSystem.isFile_eq h]
  generalize base.join ⟨(split pattern.toList).1⟩ = anchor
  split
  · rfl
  · split
    · rfl
    · rename_i tokens _
      congr 1
      apply FilePath.sort_eq_of_perm anchor
        (((FileSystem.filesBelow_perm hfs h anchor).filter _).map _)
      intro path hpath
      obtain ⟨names, hnames, rfl⟩ := List.mem_map.mp hpath
      exact ⟨names, (FileSystem.isName_of_mem_filesBelow hfs (List.mem_filter.mp hnames).1).2, rfl⟩

/-! ## Loading -/

section Loading

variable {first second : FileSystem}

theorem Collection.ofFile_eq (h : first.Reordered second) :
    Collection.ofFile first = Collection.ofFile second := by
  funext path
  simp only [ofFile, FileSystem.load, FileSystem.read_eq h]

theorem PresetPlace.load_eq (hfs : first.root.WellFormed) (h : first.Reordered second)
    (place : PresetPlace) : place.load first = place.load second := by
  cases place with
  | inline themes => rfl
  | file path => exact congrFun (Collection.ofFile_eq h) path
  | directory path =>
    simp only [load, Collection.ofFiles, layerFiles_eq, Collection.ofFile_eq h,
      FileSystem.themeFiles_eq hfs h]

theorem PresetRegistry.present_eq (h : first.Reordered second) :
    PresetPlace.present first = PresetPlace.present second := by
  funext place
  cases place with
  | inline themes => rfl
  | file path => exact congrFun (FileSystem.isFile_eq h) path
  | directory path => exact congrFun (FileSystem.isDirectory_eq h) path

theorem PresetRegistry.load_eq (hfs : first.root.WellFormed) (h : first.Reordered second)
    (registry : PresetRegistry) : registry.load first = registry.load second := by
  funext name
  have hplace : registry.resolve first name = registry.resolve second name := by
    simp only [resolve, present_eq h]
  simp only [load, hplace, PresetPlace.load_eq hfs h]

theorem Config.fileLayers_eq (hfs : first.root.WellFormed) (h : first.Reordered second)
    (config : Config) : config.fileLayers first = config.fileLayers second := by
  simp only [fileLayers, themeFiles, Pattern.expand_eq hfs h, Collection.ofFile_eq h,
    h.workingDirectory]

theorem Config.resolve_reordered (hfs : first.root.WellFormed) (h : first.Reordered second)
    (config : Config) (registry : PresetRegistry) :
    config.resolve first registry = config.resolve second registry := by
  have hload := PresetRegistry.load_eq hfs h (config.searched registry)
  have hlayer : PresetSelector.layer first (config.searched registry) =
      PresetSelector.layer second (config.searched registry) := by
    funext selector
    simp only [PresetSelector.layer, hload]
  have hloads : PresetSelector.loads first (config.searched registry) =
      PresetSelector.loads second (config.searched registry) := by
    funext selector
    simp only [PresetSelector.loads, hload]
  have hundefined : PresetSelector.undefinedThemes first (config.searched registry) =
      PresetSelector.undefinedThemes second (config.searched registry) := by
    funext selector
    simp only [PresetSelector.undefinedThemes, hload]
  simp only [resolve_eq, warnings, layers, Config.fileLayers_eq hfs h, hlayer, hloads, hundefined]

end Loading

/-- Whatever the order in which directories are listed, a configuration resolves to the same themes and
compiles to the same rules, with the same warnings, or fails with the same error. -/
theorem compile_reordered {first second : FileSystem} (hfs : first.root.WellFormed)
    (h : first.Reordered second) (config : Config) (registry : PresetRegistry)
    (tokens : TokenTable) :
    config.resolve first registry = config.resolve second registry ∧
      config.compile first registry tokens = config.compile second registry tokens := by
  have hresolve := Config.resolve_reordered hfs h config registry
  exact ⟨hresolve, by simp only [Config.compile, hresolve]⟩

/-- A preset directory that holds two definitions of a card, listed in the given order. -/
def cardFiles (listing : List (List Char × Entry)) : FileSystem where
  root := .directory [("brand".toList, .directory listing)]
  workingDirectory := .ofString "/"

def darkCard : List Char × Entry := ("dark.yaml".toList, .file "card: {className: dark}".toUTF8)

def lightCard : List Char × Entry := ("light.yaml".toList, .file "card: {className: light}".toUTF8)

theorem cardFiles_wellFormed : (cardFiles [darkCard, lightCard]).root.WellFormed := by
  refine .directory (by decide) (by decide) (List.forall_mem_singleton.mpr ?_)
  exact .directory (by decide) (by decide)
    (List.forall_mem_cons.mpr ⟨.file _, List.forall_mem_singleton.mpr (.file _)⟩)

theorem cardFiles_reordered :
    (cardFiles [darkCard, lightCard]).Reordered (cardFiles [lightCard, darkCard]) := by
  refine ⟨.directory (.refl _) ?_, rfl⟩
  rintro a ha b hb -
  rw [List.mem_singleton.mp ha, List.mem_singleton.mp hb]
  refine .directory (.swap _ _ []) ?_
  rintro a ha b hb hab
  simp only [List.mem_cons, List.not_mem_nil, or_false] at ha hb
  rcases ha with rfl | rfl <;> rcases hb with rfl | rfl
  · exact absurd hab (by decide)
  · exact .file _
  · exact .file _
  · exact absurd hab (by decide)

def cardConfig : Config := (Config.empty.addTheme "brand/*.yaml").addPreset (.all "brand")

def cardRegistry : PresetRegistry := PresetRegistry.empty.addSearchDirs [.ofString "/"]

/-- The last card wins, and which one is last does not depend on the listing. -/
theorem cardFiles_compile :
    (cardFiles [darkCard, lightCard]).root.WellFormed ∧
      (cardFiles [darkCard, lightCard]).Reordered (cardFiles [lightCard, darkCard]) ∧
      cardConfig.resolve (cardFiles [darkCard, lightCard]) cardRegistry =
        cardConfig.resolve (cardFiles [lightCard, darkCard]) cardRegistry ∧
      cardConfig.compile (cardFiles [darkCard, lightCard]) cardRegistry (⟨.null⟩ : TokenTable) =
        cardConfig.compile (cardFiles [lightCard, darkCard]) cardRegistry (⟨.null⟩ : TokenTable) :=
  ⟨cardFiles_wellFormed, cardFiles_reordered,
    compile_reordered cardFiles_wellFormed cardFiles_reordered cardConfig cardRegistry ⟨.null⟩⟩

end ThemeRules
