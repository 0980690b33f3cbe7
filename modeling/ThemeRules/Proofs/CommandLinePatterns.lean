import ThemeRules.CommandLine.Run
import ThemeRules.Proofs.Anchoring

/-!
# ThemeRules.Proofs.CommandLinePatterns

Patterns of the command line. They are written behind the current directory before they are added to a
configuration, and start there, whatever its base directory is (`buildConfig_patterns`). Two current
directories are apart from this: one with a wildcard in its own name, which then counts as one, and the
root in front of a part with a wildcard.
-/

namespace ThemeRules

namespace CommandLine

/-! ## What the command line adds -/

/-- The configuration that the options name, or an empty one. -/
def Configured (fs : FileSystem) (options : Options) (configured : Config) : Prop :=
  match options.config with
  | none => configured = .empty
  | some path => Config.ofFile fs path = .ok configured

theorem buildConfig_ok {fs : FileSystem} {options : Options} {config : Config}
    (h : buildConfig fs options = .ok config) :
    ∃ configured, Configured fs options configured ∧
      config = extend configured fs.workingDirectory options := by
  unfold buildConfig at h
  unfold Configured
  cases hc : options.config with
  | none =>
    simp only [hc] at h
    split at h
    · cases h
    · cases h
      exact ⟨.empty, rfl, rfl⟩
  | some path =>
    simp only [hc] at h
    cases hfile : Config.ofFile fs path with
    | error error =>
      simp only [hfile] at h
      cases h
    | ok configured =>
      simp only [hfile] at h
      split at h
      · cases h
      · cases h
        exact ⟨configured, hfile, rfl⟩

/-- A pattern of the command line, behind the current directory. -/
def patternAt (workingDirectory : FilePath) (glob : String) : String :=
  (workingDirectory.join (.ofString glob)).toString

theorem themes_extend (config : Config) (workingDirectory : FilePath) (options : Options) :
    (extend config workingDirectory options).themes =
      config.themes ++ options.themes.map (patternAt workingDirectory) := rfl

/-! ## Patterns behind the current directory -/

/-- A path that can be a current directory: absolute, and with a separator at its end only if it is the
root. -/
structure IsWorkingDirectory (path : FilePath) : Prop where
  absolute : path.isAbsolute = true
  trimmed : path.chars.getLast? = some '/' → path.chars = ['/']

theorem IsWorkingDirectory.slashed_eq {path : FilePath} (h : IsWorkingDirectory path) :
    ∃ front, path.slashed = front ++ ['/'] ∧
      (path.chars = ['/'] ∧ front = [] ∨ path.chars ≠ ['/'] ∧ front = path.chars) := by
  obtain ⟨chars⟩ := path
  by_cases hroot : chars = ['/']
  · subst hroot
    exact ⟨[], rfl, .inl ⟨rfl, rfl⟩⟩
  · have hlast : chars.getLast? ≠ some '/' := fun hl => hroot (h.trimmed hl)
    refine ⟨chars, ?_, .inr ⟨hroot, rfl⟩⟩
    simp [FilePath.slashed, FilePath.chars_ne_nil h.absolute, hlast]

theorem head?_of_relative {glob : String} (h : (FilePath.ofString glob).isAbsolute = false) :
    glob.toList.head? ≠ some '/' :=
  FilePath.head?_ne_of_relative h

theorem toList_patternAt (workingDirectory : FilePath) {glob : String}
    (hrelative : (FilePath.ofString glob).isAbsolute = false) :
    (patternAt workingDirectory glob).toList = workingDirectory.slashed ++ glob.toList := by
  rw [patternAt, FilePath.ofString, FilePath.join_eq _ (head?_of_relative hrelative),
    FilePath.toString, String.toList_ofList]

section WorkingDirectory

variable {fs : FileSystem} {workingDirectory : FilePath} {glob : String}

theorem parts_patternAt (hcwd : IsWorkingDirectory workingDirectory)
    (hplain : ∀ part ∈ splitSlash workingDirectory.chars, Pattern.hasWildcard part = false)
    (hrelative : (FilePath.ofString glob).isAbsolute = false) :
    ∃ front, workingDirectory.slashed = front ++ ['/'] ∧
      (workingDirectory.chars ≠ ['/'] → front = workingDirectory.chars) ∧
      Pattern.leadingParts (patternAt workingDirectory glob).toList =
        splitSlash front ++ Pattern.leadingParts glob.toList ∧
      Pattern.wildParts (patternAt workingDirectory glob).toList =
        Pattern.wildParts glob.toList := by
  obtain ⟨front, hslashed, hfront⟩ := hcwd.slashed_eq
  have hparts : ∀ part ∈ splitSlash front, Pattern.hasWildcard part = false := by
    rcases hfront with ⟨-, rfl⟩ | ⟨-, rfl⟩
    · exact Pattern.hasWildcard_nil
    · exact hplain
  have hne : workingDirectory.chars ≠ ['/'] → front = workingDirectory.chars := by
    rcases hfront with ⟨hroot, -⟩ | ⟨-, rfl⟩
    · exact fun hne => absurd hroot hne
    · exact fun _ => rfl
  have hsplit : (patternAt workingDirectory glob).toList = front ++ '/' :: glob.toList := by
    rw [toList_patternAt workingDirectory hrelative, hslashed, List.append_assoc,
      List.singleton_append]
  rw [hsplit]
  exact ⟨front, hslashed, hne, Pattern.leadingParts_behind hparts glob.toList,
    Pattern.wildParts_behind hparts glob.toList⟩

/-- Without wildcards in the current directory, a pattern behind it names the same files under every
base directory as the pattern itself does at the current directory. -/
theorem expand_patternAt (hfs : fs.root.WellFormed) (hcwd : IsWorkingDirectory workingDirectory)
    (hplain : ∀ part ∈ splitSlash workingDirectory.chars, Pattern.hasWildcard part = false)
    (hrelative : (FilePath.ofString glob).isAbsolute = false)
    (hroot : workingDirectory.chars = ['/'] → Pattern.leadingParts glob.toList ≠ [])
    (base : FilePath) :
    Pattern.SameFiles (Pattern.expand fs base (patternAt workingDirectory glob))
      (Pattern.expand fs workingDirectory glob) := by
  have hhead := head?_of_relative hrelative
  obtain ⟨front, hslashed, hfront, hleadingParts, hwildParts⟩ :=
    parts_patternAt hcwd hplain hrelative
  by_cases hwild : Pattern.wildParts glob.toList = []
  · -- both name one file, and its path is the same text
    rw [Pattern.expand_literal fs base (hwildParts.trans hwild), Pattern.expand_literal fs _ hwild,
      toList_patternAt workingDirectory hrelative, FilePath.join_slashed base hcwd.absolute,
      FilePath.join_eq _ hhead]
    exact .ok _
  · apply Pattern.SameFiles.of_wild (hwildParts ▸ hwild) hwildParts.symm
    intro tokens
    rw [hleadingParts]
    by_cases hleading : Pattern.leadingParts glob.toList = []
    · -- the walk starts at the current directory, written with or without a separator at its end
      obtain rfl := hfront fun h => hroot h hleading
      rw [hleading, List.append_nil, joinSlash_splitSlash, joinSlash, FilePath.join_nil,
        Pattern.found_slashed hfs (FilePath.chars_ne_nil hcwd.absolute), FilePath.join,
        if_pos hcwd.absolute]
    · rw [joinSlash_append (splitSlash_ne_nil front) hleading, joinSlash_splitSlash,
        FilePath.join_eq _ (Pattern.head?_leadingParts hhead hwild hleading),
        ← FilePath.join_slashed base hcwd.absolute, hslashed, List.append_assoc,
        List.singleton_append]

end WorkingDirectory

/-- Each pattern of the command line stands behind those of the configuration, in order, and names the
same files as at the current directory. -/
theorem buildConfig_patterns {fs : FileSystem} (hfs : fs.root.WellFormed) {options : Options}
    {config : Config} (hbuild : buildConfig fs options = .ok config)
    (hcwd : IsWorkingDirectory fs.workingDirectory)
    (hplain : ∀ part ∈ splitSlash fs.workingDirectory.chars, Pattern.hasWildcard part = false) :
    ∃ configured added, Configured fs options configured ∧
      config.themes = configured.themes ++ added ∧
      List.Forall₂ (fun glob pattern =>
        (FilePath.ofString glob).isAbsolute = false →
        (fs.workingDirectory.chars = ['/'] → Pattern.leadingParts glob.toList ≠ []) →
        ∀ base, Pattern.SameFiles (Pattern.expand fs base pattern)
          (Pattern.expand fs fs.workingDirectory glob)) options.themes added := by
  obtain ⟨configured, hconfigured, rfl⟩ := buildConfig_ok hbuild
  refine ⟨configured, _, hconfigured, themes_extend configured fs.workingDirectory options, ?_⟩
  rw [List.forall₂_map_right_iff, List.forall₂_same]
  intro glob _ hrelative hroot base
  exact expand_patternAt hfs hcwd hplain hrelative hroot base

def onePattern (glob : String) : Options where
  config := none
  themes := [glob]
  presets := []
  presetDirs := []
  tokens := .ofString "tokens.yaml"
  naming := none
  format := .json
  verbosity := 0

/-- A theme file in a directory of the given name, which is the current one. -/
def workshop (name : String) : FileSystem where
  root := .directory [("work".toList, .directory [(name.toList, .directory [
    ("card.yml".toList, .file .empty)])])]
  workingDirectory := .ofString ("/work/" ++ name)

theorem workshop_wellFormed {name : String} (h : IsName name.toList) :
    (workshop name).root.WellFormed := by
  have hwork : IsName "work".toList := by decide
  refine .directory (List.nodup_singleton _) (List.forall_mem_singleton.mpr hwork)
    (List.forall_mem_singleton.mpr ?_)
  refine .directory (List.nodup_singleton _) (List.forall_mem_singleton.mpr h)
    (List.forall_mem_singleton.mpr ?_)
  exact .directory (by decide) (by decide) (List.forall_mem_singleton.mpr (.file _))

theorem workshop_patterns :
    (workshop "shop").root.WellFormed ∧ IsWorkingDirectory (workshop "shop").workingDirectory ∧
      ∃ config, buildConfig (workshop "shop") (onePattern "*.yml") = .ok config ∧
        config.themes = ["/work/shop/*.yml"] ∧
        Pattern.SameFiles
          (Pattern.expand (workshop "shop") (.ofString "/elsewhere") "/work/shop/*.yml")
          (Pattern.expand (workshop "shop") (workshop "shop").workingDirectory "*.yml") := by
  have hfs : (workshop "shop").root.WellFormed := workshop_wellFormed (by decide)
  have hcwd : IsWorkingDirectory (workshop "shop").workingDirectory := ⟨by decide, by decide⟩
  have hbuild : buildConfig (workshop "shop") (onePattern "*.yml") =
      .ok (extend .empty (workshop "shop").workingDirectory (onePattern "*.yml")) := rfl
  have hthemes : (extend .empty (workshop "shop").workingDirectory (onePattern "*.yml")).themes =
      ["/work/shop/*.yml"] := by
    decide
  refine ⟨hfs, hcwd, _, hbuild, hthemes, ?_⟩
  obtain ⟨configured, added, hconfigured, hadded, hall⟩ :=
    buildConfig_patterns hfs hbuild hcwd (by decide)
  cases hconfigured
  rw [hthemes] at hadded
  cases hadded
  cases hall with
  | cons h _ => exact h (by decide) (by decide) _

/-- Brackets in the name of the current directory are read as a class of characters. -/
theorem workshop_brackets :
    patternAt (workshop "a[b]").workingDirectory "card.yml" = "/work/a[b]/card.yml" ∧
      Pattern.expand (workshop "a[b]") (.ofString "/") "/work/a[b]/card.yml" = .ok [] ∧
      Pattern.expand (workshop "a[b]") (workshop "a[b]").workingDirectory "card.yml" =
        .ok [.ofString "/work/a[b]/card.yml"] := by
  refine ⟨by decide, ?_, ?_⟩
  · have hwild : Pattern.wildParts "/work/a[b]/card.yml".toList =
        ["a[b]".toList, "card.yml".toList] := by
      decide
    have hparse : Glob.parse (joinSlash ["a[b]".toList, "card.yml".toList]) =
        .ok (.literal 'a' :: .oneOf false [('b', 'b')] :: "/card.yml".toList.map .literal) := by
      rfl
    have hfiles : ((workshop "a[b]").filesBelow (.ofString "/work")).filter (Pattern.accepts
        (.literal 'a' :: .oneOf false [('b', 'b')] :: "/card.yml".toList.map .literal)) = [] := by
      decide +kernel
    have hleading : FilePath.join (.ofString "/")
        ⟨joinSlash (Pattern.leadingParts "/work/a[b]/card.yml".toList)⟩ = .ofString "/work" := by
      decide
    rw [Pattern.expand_wild _ _ (by rw [hwild]; exact List.cons_ne_nil _ _), hwild, hparse, hleading]
    simp only [Pattern.found, hfiles, List.map_nil, FilePath.sort, List.mergeSort_nil]
  · have hfile : (workshop "a[b]").isFile
        ((workshop "a[b]").workingDirectory.join ⟨"card.yml".toList⟩) = true := by
      decide +kernel
    rw [Pattern.expand_literal _ _ (by decide), if_pos hfile]
    exact congrArg (fun path => Except.ok [path]) (by decide)

end CommandLine
end ThemeRules
