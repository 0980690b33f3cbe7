import Mathlib.Data.List.Find
import ThemeRules.Proofs.Counterparts
import ThemeRules.Proofs.Resolution

/-!
# ThemeRules.Proofs.Relocation

Resolving over one tree that is placed at different base directories. A configuration that asks for
nothing outside its base directory looks at inner paths only (`Config.anchors`), and what it finds there
does not depend on the place (`resolve_relocated`). A pattern may be so long that it finds a file from one
place and not from another (`longPattern_out_of_reach`).
-/

namespace ThemeRules

open FileSystem (Fits Placed)

section TwoPlaces

variable {tree : Entry} {fs fs' : FileSystem} {base base' : FilePath}

/-! ## Theme files -/

/-- The configuration asks for nothing outside its base directory. -/
structure Config.StaysInside (config : Config) : Prop where
  themes : ∀ pattern ∈ config.themes, (FilePath.ofString pattern).IsInner
  presets : ∀ selector ∈ config.presets, (FilePath.ofString selector.name).IsInner
  presetDirs : ∀ directory ∈ config.presetDirs, directory.IsInner

theorem Config.fileLayers_relocated (h : Placed tree fs base) (h' : Placed tree fs' base')
    {config : Config} (hinside : ∀ pattern ∈ config.themes, (FilePath.ofString pattern).IsInner)
    (hfits : ∀ pattern ∈ config.themes,
      ∀ p ∈ tree.pathsFrom ⟨(Pattern.split pattern.toList).1⟩, p.FitsAlike base base') :
    Alike (Error.Moved base base') Eq ((config.withBaseDir base).fileLayers fs)
      ((config.withBaseDir base').fileLayers fs') := by
  have hbase : ∀ (fs : FileSystem) {base : FilePath}, base.isAbsolute = true →
      fs.workingDirectory.join (config.withBaseDir base).resolvedBaseDir = base :=
    fun fs _ habs => FilePath.join_of_isAbsolute fs.workingDirectory habs
  have hpatterns := mapM_alike fun pattern hmem =>
    Pattern.expand_relocated h h' (hinside pattern hmem) (hfits pattern hmem)
  simp only [fileLayers, themeFiles, hbase fs h.absolute, hbase fs' h'.absolute]
  obtain ⟨found, found', hf, hf', hfound⟩ | ⟨e, e', hf, hf', he⟩ := hpatterns.outcomes
  · have hfiles := (Counterparts.flatten hfound).addNew h.absolute h'.absolute
    rw [ThemeFiles.addNew_nil, ThemeFiles.addNew_nil] at hfiles
    have hthemes : (config.withBaseDir base).themes.mapM (Pattern.expand fs base) = .ok found := hf
    have hthemes' : (config.withBaseDir base').themes.mapM (Pattern.expand fs' base') = .ok found' :=
      hf'
    rw [hthemes, hthemes']
    exact hfiles.mapM_ofFile
  · have hthemes : (config.withBaseDir base).themes.mapM (Pattern.expand fs base) = .error e := hf
    have hthemes' : (config.withBaseDir base').themes.mapM (Pattern.expand fs' base') = .error e' :=
      hf'
    rw [hthemes, hthemes']
    exact .error he

/-! ## Presets -/

/-- The paths at which a configuration looks for the files of its patterns and for its presets. -/
def Config.anchors (config : Config) : List FilePath :=
  config.themes.map (fun pattern => ⟨(Pattern.split pattern.toList).1⟩) ++
    config.presets.flatMap fun selector => config.presetDirs.flatMap fun directory =>
      (PresetRegistry.candidates directory selector.name).filterMap PresetPlace.path?

namespace PresetPlace

theorem present_relocated (h : Placed tree fs base) (h' : Placed tree fs' base') {place : PresetPlace}
    (hinner : ∀ path ∈ place.path?, path.IsInner)
    (hfits : ∀ path ∈ place.path?, ∀ p ∈ tree.pathsFrom path, p.FitsAlike base base') :
    PresetRegistry.PresetPlace.present fs (place.under base) =
      PresetRegistry.PresetPlace.present fs' (place.under base') := by
  have hanchor : ∀ path ∈ place.path?, ∀ entry, tree.reach path = .ok entry →
      path.FitsAlike base base' := fun path hpath entry hreach =>
    hfits path hpath path (Entry.mem_pathsFrom hreach)
  cases place with
  | inline themes => rfl
  | file path => exact FileSystem.isFile_relocated h h' (hinner path rfl) (hanchor path rfl)
  | directory path =>
    exact FileSystem.isDirectory_relocated h h' (hinner path rfl) (hanchor path rfl)

theorem load_relocated (h : Placed tree fs base) (h' : Placed tree fs' base') {place : PresetPlace}
    (hinner : ∀ path ∈ place.path?, path.IsInner)
    (hfits : ∀ path ∈ place.path?, ∀ p ∈ tree.pathsFrom path, p.FitsAlike base base')
    (hpresent : PresetRegistry.PresetPlace.present fs (place.under base) = true) :
    Alike (Error.Moved base base') Eq ((place.under base).load fs) ((place.under base').load fs') := by
  cases place with
  | inline themes => exact .ok rfl
  | file path =>
    obtain ⟨content, hcontent⟩ := (FileSystem.isFile_iff fs _).mp hpresent
    have hentry := FileSystem.entry_relocated h h' (hinner path rfl) fun entry hreach =>
      hfits path rfl path (Entry.mem_pathsFrom hreach)
    exact Collection.ofFile_relocated hcontent ((hentry _).mp hcontent)
  | directory path =>
    have hne : ∀ {b : FilePath}, b.isAbsolute = true → (b.join path).chars ≠ [] := fun hb =>
      FilePath.chars_ne_nil (FilePath.isAbsolute_join hb path)
    have hfiles := (FileSystem.counterparts_sort h h' (hinner path rfl) (hfits path rfl)
      fun names => FilePath.isThemeFile ⟨joinSlash names⟩).mapM_ofFile
    rw [← FileSystem.themeFiles_eq_sort h.wellFormed (hne h.absolute),
      ← FileSystem.themeFiles_eq_sort h'.wellFormed (hne h'.absolute)] at hfiles
    simp only [under, load, Collection.ofFiles, layerFiles_eq]
    obtain ⟨layers, layers', hl, hl', rfl⟩ | ⟨e, e', hl, hl', he⟩ := hfiles.outcomes
    · rw [hl, hl']
      exact .ok rfl
    · rw [hl, hl']
      exact .error he

end PresetPlace

theorem PresetRegistry.load_relocated (h : Placed tree fs base) (h' : Placed tree fs' base')
    (inline : OrderedMap Collection) {presetDirs : List FilePath}
    (hdirs : ∀ directory ∈ presetDirs, directory.IsInner) {name : String}
    (hname : (FilePath.ofString name).IsInner)
    (hfits : ∀ directory ∈ presetDirs, ∀ place ∈ candidates directory name, ∀ path ∈ place.path?,
      ∀ p ∈ tree.pathsFrom path, p.FitsAlike base base') :
    Alike (Error.Moved base base') Eq (load ⟨inline, presetDirs.map base.join⟩ fs name)
      (load ⟨inline, presetDirs.map base'.join⟩ fs' name) := by
  have hplaces : ∀ b : FilePath, (presetDirs.map b.join).flatMap (candidates · name) =
      (presetDirs.flatMap (candidates · name)).map (PresetPlace.under b) := by
    intro b
    rw [List.flatMap_map, List.map_flatMap]
    exact List.flatMap_congr fun directory _ => candidates_join b directory name
  have hplace : ∀ place ∈ presetDirs.flatMap (candidates · name), ∀ path ∈ place.path?,
      path.IsInner ∧ ∀ p ∈ tree.pathsFrom path, p.FitsAlike base base' := by
    intro place hmem path hpath
    obtain ⟨directory, hd, hcandidate⟩ := List.mem_flatMap.mp hmem
    exact ⟨isInner_candidates (hdirs directory hd) hname place hcandidate path hpath,
      hfits directory hd place hcandidate path hpath⟩
  have hpresent : ∀ place ∈ presetDirs.flatMap (candidates · name),
      (PresetPlace.present fs ∘ PresetPlace.under base) place =
        (PresetPlace.present fs' ∘ PresetPlace.under base') place := fun place hmem =>
    PresetPlace.present_relocated h h' (fun path hpath => (hplace place hmem path hpath).1)
      fun path hpath => (hplace place hmem path hpath).2
  unfold load resolve
  dsimp only
  cases inline.get? name with
  | some themes => exact .ok rfl
  | none =>
    dsimp only
    rw [hplaces, hplaces, List.find?_map, List.find?_map, ← List.find?_congr hpresent]
    cases hfound : (presetDirs.flatMap (candidates · name)).find?
        (PresetPlace.present fs ∘ PresetPlace.under base) with
    | none => exact .error (.presetNotFound name)
    | some place =>
      have hmem := List.mem_of_find?_eq_some hfound
      have hthere := List.find?_some hfound
      exact PresetPlace.load_relocated h h' (fun path hpath => (hplace place hmem path hpath).1)
        (fun path hpath => (hplace place hmem path hpath).2) hthere

/-! ## Resolving -/

section Selectors

variable {registry registry' : PresetRegistry} {selector : PresetSelector}

theorem PresetSelector.layer_relocated
    (h : Alike (Error.Moved base base') Eq (registry.load fs selector.name)
      (registry'.load fs' selector.name)) :
    Alike (Error.Moved base base') Eq (selector.layer fs registry) (selector.layer fs' registry') := by
  unfold layer
  obtain ⟨themes, _, hl, hl', rfl⟩ | ⟨e, e', hl, hl', he⟩ := h.outcomes
  · rw [hl, hl']
    cases selector.themes? <;> exact .ok rfl
  · rw [hl, hl']
    exact .error he

theorem PresetSelector.loads_relocated
    (h : Alike (Error.Moved base base') Eq (registry.load fs selector.name)
      (registry'.load fs' selector.name)) :
    selector.loads fs registry = selector.loads fs' registry' ∧
      selector.undefinedThemes fs registry = selector.undefinedThemes fs' registry' := by
  unfold loads undefinedThemes
  obtain ⟨themes, _, hl, hl', rfl⟩ | ⟨e, e', hl, hl', he⟩ := h.outcomes
  · rw [hl, hl']
    exact ⟨rfl, rfl⟩
  · rw [hl, hl']
    exact ⟨rfl, rfl⟩

theorem undefinedThemes_relocated {presets : List PresetSelector}
    (h : ∀ selector ∈ presets, Alike (Error.Moved base base') Eq (registry.load fs selector.name)
      (registry'.load fs' selector.name)) :
    (presets.takeWhile (PresetSelector.loads fs registry)).flatMap
        (PresetSelector.undefinedThemes fs registry) =
      (presets.takeWhile (PresetSelector.loads fs' registry')).flatMap
        (PresetSelector.undefinedThemes fs' registry') := by
  induction presets with
  | nil => rfl
  | cons selector rest ih =>
    obtain ⟨hselector, hrest⟩ := List.forall_mem_cons.mp h
    obtain ⟨hloads, hundefined⟩ := PresetSelector.loads_relocated hselector
    rw [List.takeWhile_cons, List.takeWhile_cons, ← hloads]
    split
    · rw [List.flatMap_cons, List.flatMap_cons, hundefined, ih hrest]
    · rfl

end Selectors

section Configured

variable {config : Config} {registry : PresetRegistry}

theorem Config.loads_relocated (h : Placed tree fs base) (h' : Placed tree fs' base')
    (hdirs : registry.searchDirs = []) (hinside : config.StaysInside)
    (hfits : ∀ anchor ∈ config.anchors, ∀ path ∈ tree.pathsFrom anchor,
      path.FitsAlike base base') :
    ∀ selector ∈ config.presets, Alike (Error.Moved base base') Eq
      (((config.withBaseDir base).searched registry).load fs selector.name)
      (((config.withBaseDir base').searched registry).load fs' selector.name) := by
  intro selector hselector
  have hsearched : ∀ b : FilePath, (config.withBaseDir b).searched registry =
      ⟨registry.inline, config.presetDirs.map b.join⟩ := fun b => by
    rw [searched, PresetRegistry.addSearchDirs, hdirs]
    rfl
  rw [hsearched, hsearched]
  refine PresetRegistry.load_relocated h h' registry.inline hinside.presetDirs
    (hinside.presets selector hselector) fun directory hd place hplace path hpath => hfits path ?_
  refine List.mem_append_right _ (List.mem_flatMap.mpr ⟨selector, hselector, ?_⟩)
  exact List.mem_flatMap.mpr ⟨directory, hd, List.mem_filterMap.mpr ⟨place, hplace, hpath⟩⟩

variable
  (hfiles : Alike (Error.Moved base base') Eq ((config.withBaseDir base).fileLayers fs)
    ((config.withBaseDir base').fileLayers fs'))
  (hloads : ∀ selector ∈ config.presets, Alike (Error.Moved base base') Eq
    (((config.withBaseDir base).searched registry).load fs selector.name)
    (((config.withBaseDir base').searched registry).load fs' selector.name))

include hfiles hloads

theorem Config.warnings_relocated :
    (config.withBaseDir base).warnings fs registry =
      (config.withBaseDir base').warnings fs' registry := by
  unfold warnings
  obtain ⟨layers, _, hl, hl', -⟩ | ⟨e, e', hl, hl', -⟩ := hfiles.outcomes
  · rw [hl, hl']
    exact undefinedThemes_relocated hloads
  · rw [hl, hl']

theorem Config.layers_relocated :
    Alike (Error.Moved base base') Eq ((config.withBaseDir base).layers fs registry)
      ((config.withBaseDir base').layers fs' registry) := by
  have hpresets := mapM_alike fun selector hmem =>
    PresetSelector.layer_relocated (hloads selector hmem)
  rw [List.forall₂_eq_eq_eq] at hpresets
  have hselectors : ∀ b : FilePath, (config.withBaseDir b).presets = config.presets := fun _ => rfl
  unfold layers
  obtain ⟨files, _, hl, hl', rfl⟩ | ⟨e, e', hl, hl', he⟩ := hfiles.outcomes
  · rw [hl, hl']
    obtain ⟨presets, _, hp, hp', rfl⟩ | ⟨e, e', hp, hp', he⟩ := hpresets.outcomes
    · rw [hselectors, hselectors, hp, hp']
      exact .ok rfl
    · rw [hselectors, hselectors, hp, hp']
      exact .error he
  · rw [hl, hl']
    exact .error he

end Configured

/-- Resolving depends on nothing but the tree at the base directory. Wherever that stands, the themes
and the warnings are the same, or the error is, about the same place below the base directory; provided
that the limit on the length of paths bears on both places alike. -/
theorem Config.resolve_relocated (h : Placed tree fs base) (h' : Placed tree fs' base')
    (config : Config) (registry : PresetRegistry) (hdirs : registry.searchDirs = [])
    (hinside : config.StaysInside)
    (hfits : ∀ anchor ∈ config.anchors, ∀ path ∈ tree.pathsFrom anchor,
      path.FitsAlike base base') :
    ((config.withBaseDir base).resolve fs registry).warnings =
        ((config.withBaseDir base').resolve fs' registry).warnings ∧
      Alike (Error.Moved base base') Eq ((config.withBaseDir base).resolve fs registry).result
        ((config.withBaseDir base').resolve fs' registry).result := by
  have hfiles := fileLayers_relocated h h' hinside.themes fun pattern hmem =>
    hfits _ (List.mem_append_left _ (List.mem_map_of_mem hmem))
  have hloads := loads_relocated h h' hdirs hinside hfits
  rw [resolve_eq, resolve_eq]
  refine ⟨warnings_relocated hfiles hloads, ?_⟩
  obtain ⟨layers, _, hl, hl', rfl⟩ | ⟨e, e', hl, hl', he⟩ :=
    (layers_relocated hfiles hloads).outcomes
  · simp only [hl, hl']
    split
    · exact .error .noThemes
    · exact .ok rfl
  · simp only [hl, hl']
    exact .error he

end TwoPlaces

instance (path base base' : FilePath) : Decidable (path.FitsAlike base base') :=
  inferInstanceAs (Decidable (Fits (base.join path) ↔ Fits (base'.join path)))

/-- A theme file, and a preset with the same theme. -/
def galleryTree : Entry :=
  .directory [("card.yaml".toList, .file "card: {className: card}".toUTF8),
    ("presets".toList, .directory [
      ("brand.yml".toList, .file "card: {className: brand}".toUTF8)])]

/-- The tree below directories with these names. -/
def galleryAt (names : List String) : FileSystem where
  root := names.foldr (fun name entry => .directory [(name.toList, entry)]) galleryTree
  workingDirectory := .ofString "/"

theorem galleryTree_wellFormed : galleryTree.WellFormed := by
  refine .directory (by decide) (by decide) (List.forall_mem_cons.mpr ⟨.file _, ?_⟩)
  refine List.forall_mem_singleton.mpr (.directory (by decide) (by decide) ?_)
  exact List.forall_mem_singleton.mpr (.file _)

theorem galleryAt_wellFormed {names : List String} (h : ∀ name ∈ names, IsName name.toList) :
    (galleryAt names).root.WellFormed := by
  induction names with
  | nil => exact galleryTree_wellFormed
  | cons name rest ih =>
    obtain ⟨hname, hrest⟩ := List.forall_mem_cons.mp h
    exact .directory (List.nodup_singleton _) (List.forall_mem_singleton.mpr hname)
      (List.forall_mem_singleton.mpr (ih hrest))

def galleryConfig : Config :=
  ((Config.empty.addTheme "**/*.yaml").addPreset (.all "brand")).addPresetDir (.ofString "presets")

/-- Neither a star nor brackets in the base directory change what is found. -/
theorem gallery_relocated :
    Placed galleryTree (galleryAt ["a*b"]) (.ofString "/a*b") ∧
      Placed galleryTree (galleryAt ["site", "[x]"]) (.ofString "/site/[x]") ∧
      ((galleryConfig.withBaseDir (.ofString "/a*b")).resolve (galleryAt ["a*b"]) .empty).result =
        .ok (.ofList [("card", .named "brand")]) ∧
      ((galleryConfig.withBaseDir (.ofString "/site/[x]")).resolve (galleryAt ["site", "[x]"])
        .empty).result = .ok (.ofList [("card", .named "brand")]) := by
  have h : Placed galleryTree (galleryAt ["a*b"]) (.ofString "/a*b") :=
    ⟨galleryAt_wellFormed (by decide), by decide, rfl⟩
  have h' : Placed galleryTree (galleryAt ["site", "[x]"]) (.ofString "/site/[x]") :=
    ⟨galleryAt_wellFormed (by decide), by decide, rfl⟩
  have hinside : galleryConfig.StaysInside := ⟨by decide, by decide, by decide⟩
  have hfits : ∀ anchor ∈ galleryConfig.anchors, ∀ path ∈ galleryTree.pathsFrom anchor,
      path.FitsAlike (.ofString "/a*b") (.ofString "/site/[x]") := by decide +kernel
  have hfirst : ((galleryConfig.withBaseDir (.ofString "/a*b")).resolve (galleryAt ["a*b"])
      .empty).result.toOption = some (.ofList [("card", .named "brand")]) := by decide +kernel
  obtain ⟨-, halike⟩ := Config.resolve_relocated h h' galleryConfig .empty rfl hinside hfits
  refine ⟨h, h', ?_⟩
  obtain ⟨themes, _, hr, hr', rfl⟩ | ⟨e, e', hr, hr', -⟩ := halike.outcomes
  · rw [hr] at hfirst
    rw [hr, hr', Option.some.inj hfirst]
    exact ⟨rfl, rfl⟩
  · rw [hr] at hfirst
    cases hfirst

/-! ## A path that is too long -/

/-- A path behind steps that lead nowhere. -/
def dotted : Nat → List Char → List Char
  | 0, s => s
  | n + 1, s => '.' :: '/' :: dotted n s

theorem splitSlash_dotted (n : Nat) (s : List Char) :
    splitSlash (dotted n s) = List.replicate n ['.'] ++ splitSlash s := by
  induction n with
  | zero => rfl
  | succ n ih =>
    have hstep : splitSlash (dotted (n + 1) s) = ['.'] :: splitSlash (dotted n s) :=
      splitSlash_append_slash ['.'] (dotted n s)
    rw [hstep, ih, List.replicate_succ, List.cons_append]

theorem byteLength_dotted (n : Nat) (s : List Char) :
    FileSystem.byteLength (dotted n s) = 2 * n + FileSystem.byteLength s := by
  induction n with
  | zero => simp [dotted]
  | succ n ih =>
    have hstep : FileSystem.byteLength (dotted (n + 1) s) =
        2 + FileSystem.byteLength (dotted n s) := by
      simp [FileSystem.byteLength, dotted, String.utf8EncodeChar]
      omega
    rw [hstep, ih]
    omega

theorem nul_not_mem_dotted {s : List Char} (h : '\x00' ∉ s) (n : Nat) : '\x00' ∉ dotted n s := by
  induction n with
  | zero => exact h
  | succ n ih => simp [dotted, ih]

theorem isInner_dotted {s : List Char} (h : FilePath.IsInner ⟨s⟩) (n : Nat) :
    FilePath.IsInner ⟨dotted n s⟩ := by
  refine ⟨?_, ?_⟩
  · cases n with
    | zero => exact h.relative
    | succ n => rfl
  · rw [← FilePath.parent_mem_steps, FilePath.parent_mem_steps_iff_part, splitSlash_dotted,
      List.mem_append]
    refine not_or.mpr ⟨fun hmem => ?_, ?_⟩
    · cases List.eq_of_mem_replicate hmem
    · rw [← FilePath.parent_mem_steps_iff_part ⟨s⟩, FilePath.parent_mem_steps]
      exact h.no_climb

theorem reach_dotted {tree : Entry} (h : tree.isFile = false) (n : Nat) (s : List Char) :
    tree.reach ⟨dotted n s⟩ = tree.reach ⟨s⟩ := by
  unfold Entry.reach
  rw [splitSlash_dotted]
  induction n with
  | zero => rfl
  | succ n ih =>
    rw [List.replicate_succ, List.cons_append, FileSystem.follow, h]
    exact ih

theorem wildParts_dotted {s : List Char} (h : Pattern.wildParts s = []) (n : Nat) :
    Pattern.wildParts (dotted n s) = [] := by
  unfold Pattern.wildParts at h ⊢
  rw [splitSlash_dotted, List.dropWhile_append_of_pos, h]
  intro part hpart
  rw [List.eq_of_mem_replicate hpart]
  decide

/-- The path of the theme file, in 4093 bytes. -/
def longPath : FilePath := ⟨dotted 2042 "card.yaml".toList⟩

def longConfig : Config := Config.empty.addTheme longPath.toString

theorem isInner_longPath : longPath.IsInner := isInner_dotted (by decide) 2042

theorem expand_longPath (fs : FileSystem) (base : FilePath) :
    Pattern.expand fs base longPath.toString =
      .ok (if fs.isFile (base.join longPath) then [base.join longPath] else []) := by
  have htext : longPath.toString.toList = longPath.chars := String.toList_ofList
  have hw : Pattern.wildParts longPath.toString.toList = [] := by
    rw [htext]
    exact wildParts_dotted (by decide) 2042
  rw [Pattern.expand_literal fs base hw, htext]

/-- The path fits below directories whose text is short enough. -/
theorem fits_longPath {base : FilePath} (hnul : '\x00' ∉ base.slashed) :
    Fits (base.join longPath) ↔ FileSystem.byteLength base.slashed ≤ 2 := by
  have hlength : FileSystem.byteLength (base.slashed ++ longPath.chars) =
      FileSystem.byteLength base.slashed + 4093 := by
    have hcard : FileSystem.byteLength "card.yaml".toList = 9 := by decide
    have hlong : FileSystem.byteLength longPath.chars = 4093 := by
      rw [longPath, byteLength_dotted, hcard]
    rw [← hlong]
    simp [FileSystem.byteLength]
  rw [FilePath.join_of_relative base isInner_longPath.relative]
  constructor
  · intro h
    have hshort := h.short
    rw [hlength] at hshort
    omega
  · intro h
    refine ⟨?_, ?_, by rw [hlength]; omega⟩
    · rw [List.mem_append]
      exact not_or.mpr ⟨hnul, nul_not_mem_dotted (by decide) 2042⟩
    · exact List.append_ne_nil_of_right_ne_nil _ (List.cons_ne_nil _ _)

theorem longConfig_layers (fs : FileSystem) {base : FilePath} (h : base.isAbsolute = true) :
    (longConfig.withBaseDir base).layers fs .empty =
      (if fs.isFile (base.join longPath) then [base.join longPath] else []).mapM
        (Collection.ofFile fs) := by
  have hbase : fs.workingDirectory.join (longConfig.withBaseDir base).resolvedBaseDir = base :=
    FilePath.join_of_isAbsolute fs.workingDirectory h
  have hthemes : (longConfig.withBaseDir base).themes = [longPath.toString] := rfl
  have hpresets : (longConfig.withBaseDir base).presets = [] := rfl
  have hfiles : (longConfig.withBaseDir base).themeFiles fs =
      .ok (if fs.isFile (base.join longPath) then [base.join longPath] else []) := by
    rw [Config.themeFiles, hthemes, mapM_cons_eq, hbase, expand_longPath]
    cases fs.isFile (base.join longPath) <;> rfl
  rw [Config.layers, Config.fileLayers, hfiles, hpresets]
  dsimp only
  cases (if fs.isFile (base.join longPath) then [base.join longPath] else []).mapM
      (Collection.ofFile fs) with
  | error error => rfl
  | ok layers => exact congrArg Except.ok (List.append_nil layers)

/-- Below one base directory the pattern finds its file, and below another its path is too long. -/
theorem longPattern_out_of_reach :
    Placed galleryTree (galleryAt []) (.ofString "/") ∧
      Placed galleryTree (galleryAt ["b"]) (.ofString "/b") ∧ longConfig.StaysInside ∧
      ((longConfig.withBaseDir (.ofString "/")).resolve (galleryAt []) .empty).result =
        .ok (.ofList [("card", .named "card")]) ∧
      ((longConfig.withBaseDir (.ofString "/b")).resolve (galleryAt ["b"]) .empty).result =
        .error .noThemes := by
  have h : Placed galleryTree (galleryAt []) (.ofString "/") :=
    ⟨galleryAt_wellFormed (by decide), by decide, rfl⟩
  have h' : Placed galleryTree (galleryAt ["b"]) (.ofString "/b") :=
    ⟨galleryAt_wellFormed (by decide), by decide, rfl⟩
  have hinside : longConfig.StaysInside := by
    refine ⟨List.forall_mem_singleton.mpr ?_, nofun, nofun⟩
    rw [FilePath.ofString, FilePath.toString, String.toList_ofList]
    exact isInner_longPath
  have hreach : galleryTree.reach longPath = .ok (.file "card: {className: card}".toUTF8) :=
    reach_dotted rfl 2042 "card.yaml".toList
  refine ⟨h, h', hinside, ?_, ?_⟩
  · have hfits : Fits (FilePath.join (.ofString "/") longPath) :=
      (fits_longPath (by decide)).mpr (by decide)
    have hentry := (h.entry_join_iff isInner_longPath _).mpr ⟨hfits, hreach⟩
    have hload : Collection.ofFile (galleryAt []) (FilePath.join (.ofString "/") longPath) =
        .ok (.ofList [("card", .named "card")]) := by
      have htext : String.fromUTF8? "card: {className: card}".toUTF8 =
          some "card: {className: card}" := by decide +kernel
      have hyaml : (Collection.ofYaml "card: {className: card}").toOption =
          some (.ofList [("card", .named "card")]) := by decide +kernel
      simp only [Collection.ofFile, FileSystem.load, FileSystem.read, hentry, htext]
      cases hthemes : Collection.ofYaml "card: {className: card}" with
      | error fault =>
        rw [hthemes] at hyaml
        cases hyaml
      | ok themes =>
        rw [hthemes] at hyaml
        exact congrArg Except.ok (Option.some.inj hyaml)
    rw [resolve_eq, longConfig_layers _ h.absolute, if_pos ((FileSystem.isFile_iff _ _).mpr ⟨_, hentry⟩),
      mapM_cons_eq, hload]
    rfl
  · have hfile : (galleryAt ["b"]).isFile (FilePath.join (.ofString "/b") longPath) = false := by
      rw [Bool.eq_false_iff, ne_eq, FileSystem.isFile_iff]
      rintro ⟨content, hentry⟩
      have hfits := ((h'.entry_join_iff isInner_longPath _).mp hentry).1
      exact absurd ((fits_longPath (by decide)).mp hfits) (by decide)
    rw [resolve_eq, longConfig_layers _ h'.absolute, hfile]
    rfl

end ThemeRules
