import ThemeRules.Proofs.CommandLinePatterns
import ThemeRules.Proofs.Resolution
import ThemeRules.Proofs.SamePath

/-!
# ThemeRules.Proofs.LastWord

Which source has the last word on a theme. It is the last preset that defines the theme and, if none
does, the last theme file (`get?_of_resolve`).

What the command line adds to a configuration comes last, but among the theme files and among the
presets, each apart. So a preset of the command line has the last word on its themes. A theme file of
the command line has it unless a preset of the configuration knows the theme, or the configuration
loads the same file at an earlier place and another file behind that knows the theme
(`commandLine_lastWord`).
-/

namespace ThemeRules

/-! ## The last that defines -/

/-- Of the list, `x` is the last that defines something, and what it defines is `y`. -/
def LastDefines {α β : Type} (define : α → Option β) (xs : List α) (x : α) (y : β) : Prop :=
  ∃ earlier later, xs = earlier ++ x :: later ∧ define x = some y ∧
    ∀ other ∈ later, define other = none

namespace LastDefines

variable {α β : Type} {define : α → Option β} {xs : List α} {x : α} {y : β}

theorem findSome?_reverse (h : LastDefines define xs x y) :
    xs.reverse.findSome? define = some y := by
  obtain ⟨earlier, later, rfl, hx, hlater⟩ := h
  have hnone : later.reverse.findSome? define = none := by
    rw [List.findSome?_eq_none_iff]
    intro other hother
    exact hlater other (List.mem_reverse.mp hother)
  simp [List.findSome?_append, hnone, hx]

theorem append_left (h : LastDefines define xs x y) (front : List α) :
    LastDefines define (front ++ xs) x y := by
  obtain ⟨earlier, later, rfl, hx, hlater⟩ := h
  exact ⟨front ++ earlier, later, by rw [List.append_assoc], hx, hlater⟩

theorem filter (h : LastDefines define xs x y) {test : α → Bool} (htest : test x = true) :
    LastDefines define (xs.filter test) x y := by
  obtain ⟨earlier, later, rfl, hx, hlater⟩ := h
  refine ⟨earlier.filter test, later.filter test, ?_, hx, ?_⟩
  · rw [List.filter_append, List.filter_cons_of_pos htest]
  · intro other hother
    exact hlater other (List.mem_filter.mp hother).1

end LastDefines

/-! ## Definitions of a theme -/

def FileSystem.theme? (fs : FileSystem) (name : String) (path : FilePath) : Option Theme :=
  (Collection.ofFile fs path).toOption.bind fun themes => themes.get? name

def PresetSelector.theme? (fs : FileSystem) (registry : PresetRegistry) (name : String)
    (selector : PresetSelector) : Option Theme :=
  (selector.layer fs registry).toOption.bind fun themes => themes.get? name

theorem get?_layers (layers : List Collection) (name : String) :
    (OrderedMap.ofList (Collection.allEntries layers)).get? name =
      layers.reverse.findSome? fun layer => layer.get? name := by
  induction layers using List.reverseRecOn with
  | nil => rfl
  | append_singleton layers layer ih =>
    rw [get?_ofList_allEntries layers [] layer name (fun _ h => by cases h), ih,
      List.reverse_append, List.findSome?_append, List.reverse_singleton,
      List.findSome?_singleton]

section Resolved

variable {config : Config} {fs : FileSystem} {registry : PresetRegistry}

theorem layers_ok {layers : List Collection} (h : config.layers fs registry = .ok layers) :
    ∃ files fileLayers presetLayers, config.themeFiles fs = .ok files ∧
      files.mapM (Collection.ofFile fs) = .ok fileLayers ∧
      config.presets.mapM (PresetSelector.layer fs (config.searched registry)) =
        .ok presetLayers ∧
      layers = fileLayers ++ presetLayers := by
  unfold Config.layers Config.fileLayers at h
  split at h
  · cases h
  · rename_i fileLayers hfiles
    split at hfiles
    · cases hfiles
    · rename_i files hf
      split at h
      · cases h
      · rename_i presetLayers hpresets
        cases h
        exact ⟨files, fileLayers, presetLayers, hf, hfiles, hpresets, rfl⟩

theorem resolve_ok {themes : Collection} (h : (config.resolve fs registry).result = .ok themes) :
    ∃ layers, config.layers fs registry = .ok layers ∧
      themes = .ofList (Collection.allEntries layers) := by
  rw [resolve_eq] at h
  split at h
  · cases h
  · rename_i layers hlayers
    split at h
    · cases h
    · cases h
      exact ⟨layers, hlayers, rfl⟩

/-- The last preset with the name decides, and without one the last theme file with it. -/
theorem get?_of_resolve {themes : Collection}
    (h : (config.resolve fs registry).result = .ok themes) :
    ∃ files, config.themeFiles fs = .ok files ∧
      (∀ file ∈ files, ∃ layer, Collection.ofFile fs file = .ok layer) ∧
      ∀ name, themes.get? name =
        (config.presets.reverse.findSome?
          (PresetSelector.theme? fs (config.searched registry) name)).or
        (files.reverse.findSome? (fs.theme? name)) := by
  obtain ⟨layers, hlayers, rfl⟩ := resolve_ok h
  obtain ⟨files, fileLayers, presetLayers, hf, hfiles, hpresets, rfl⟩ := layers_ok hlayers
  refine ⟨files, hf, exists_ok_of_mapM hfiles, ?_⟩
  intro name
  rw [get?_layers, List.reverse_append, List.findSome?_append, findSome?_reverse_mapM _ hfiles,
    findSome?_reverse_mapM _ hpresets]
  rfl

end Resolved

theorem read_of_ofFile {fs : FileSystem} {path : FilePath} {themes : Collection}
    (h : Collection.ofFile fs path = .ok themes) :
    ∃ text, fs.read path = .ok text ∧ Collection.ofYaml text = .ok themes := by
  unfold Collection.ofFile FileSystem.load at h
  split at h
  · cases h
  · rename_i text hread
    split at h
    · cases h
    · rename_i hyaml
      cases h
      exact ⟨text, hread, hyaml⟩

/-- A file has the same themes under every spelling of its path. -/
theorem theme?_of_same {fs : FileSystem} {name : String} {first second : FilePath} {theme : Theme}
    {themes : Collection} (hsame : first.same second = true)
    (hfirst : fs.theme? name first = some theme)
    (hsecond : Collection.ofFile fs second = .ok themes) : fs.theme? name second = some theme := by
  unfold FileSystem.theme? at hfirst ⊢
  cases h : Collection.ofFile fs first with
  | error error =>
    rw [h] at hfirst
    cases hfirst
  | ok themes' =>
    obtain ⟨text, hread, hyaml⟩ := read_of_ofFile h
    obtain ⟨text', hread', hyaml'⟩ := read_of_ofFile hsecond
    rw [FileSystem.read_eq_of_same hsame hread hread', hyaml'] at hyaml
    cases hyaml
    rw [h] at hfirst
    rw [hsecond]
    exact hfirst

/-! ## The command line -/

namespace CommandLine

/-- What the command line adds, without the sources of the configuration. -/
def alone (configured : Config) (workingDirectory : FilePath) (options : Options) : Config :=
  extend { configured with themes := [], presets := [] } workingDirectory options

theorem resolvedBaseDir_extend (config : Config) (workingDirectory : FilePath)
    (options : Options) :
    (extend config workingDirectory options).resolvedBaseDir = config.resolvedBaseDir := rfl

/-- The theme files of the command line come behind those of the configuration, as far as these are
other files. -/
theorem themeFiles_extend {fs : FileSystem} {configured : Config} {options : Options}
    {files : List FilePath}
    (h : (extend configured fs.workingDirectory options).themeFiles fs = .ok files) :
    ∃ given added, configured.themeFiles fs = .ok given ∧
      (alone configured fs.workingDirectory options).themeFiles fs = .ok added ∧
      files = given ++ added.filter fun file => !given.any file.same := by
  simp only [Config.themeFiles, themes_extend, resolvedBaseDir_extend] at h
  split at h
  · cases h
  · rename_i found hfound
    cases h
    obtain ⟨first, second, hfirst, hsecond, rfl⟩ := mapM_append_ok hfound
    refine ⟨first.flatten.eraseDupsBy FilePath.same, second.flatten.eraseDupsBy FilePath.same,
      ?_, ?_, ?_⟩
    · rw [Config.themeFiles, hfirst]
    · have hbase : (alone configured fs.workingDirectory options).resolvedBaseDir =
          configured.resolvedBaseDir := rfl
      have hthemes : (alone configured fs.workingDirectory options).themes =
          options.themes.map (patternAt fs.workingDirectory) := List.nil_append _
      rw [Config.themeFiles, hbase, hthemes, hsecond]
    · rw [List.flatten_append, ← ThemeFiles.addNew_nil, ThemeFiles.addNew_append,
        ThemeFiles.addNew_eq_filter, ThemeFiles.addNew_nil, ThemeFiles.addNew_nil]

/-- No file that is loaded behind the place of `file` among the given ones knows the theme. -/
def Unsurpassed (fs : FileSystem) (name : String) (given files : List FilePath) (file : FilePath) :
    Prop :=
  ∀ before first behind, files = before ++ first :: behind → first ∈ given →
    file.same first = true → ∀ other ∈ behind, fs.theme? name other = none

/-- The last file of the command line with a theme is also the last one of all files, unless it is
surpassed at an earlier place. -/
theorem findSome?_unsurpassed {fs : FileSystem} {name : String} {given added : List FilePath}
    (hloads : ∀ file ∈ given, ∃ layer, Collection.ofFile fs file = .ok layer)
    {file : FilePath} {theme : Theme} (hlast : LastDefines (fs.theme? name) added file theme)
    (hplace : Unsurpassed fs name given
      (given ++ added.filter fun file => !given.any file.same) file) :
    (given ++ added.filter fun file => !given.any file.same).reverse.findSome? (fs.theme? name) =
      some theme := by
  by_cases hgiven : given.any file.same = true
  · obtain ⟨first, hfirst, hsame⟩ := List.any_eq_true.mp hgiven
    obtain ⟨before, behind, rfl⟩ := List.append_of_mem hfirst
    obtain ⟨layer, hlayer⟩ := hloads first hfirst
    have htheme : fs.theme? name file = some theme := by
      obtain ⟨_, _, _, htheme, _⟩ := hlast
      exact htheme
    rw [List.append_assoc, List.cons_append] at hplace ⊢
    apply LastDefines.findSome?_reverse
    exact ⟨before, _, rfl, theme?_of_same hsame htheme hlayer,
      hplace before first _ rfl hfirst hsame⟩
  · apply LastDefines.findSome?_reverse
    apply LastDefines.append_left
    exact hlast.filter (by simpa using hgiven)

/-- A theme has the definition of the last source of the command line that knows it: always, if that is a
preset; and if it is a theme file, where no preset of the configuration knows the theme and no other
file behind an earlier place of the same file. Each file of the command line counts at the first place
where its patterns name it. -/
theorem commandLine_lastWord {fs : FileSystem} {options : Options} {config : Config}
    (hbuild : buildConfig fs options = .ok config) {registry : PresetRegistry}
    {themes : Collection} (hresolve : (config.resolve fs registry).result = .ok themes) :
    ∃ configured files given added, Configured fs options configured ∧
      config.themeFiles fs = .ok files ∧ configured.themeFiles fs = .ok given ∧
      (alone configured fs.workingDirectory options).themeFiles fs = .ok added ∧
      ∀ name theme,
        (∀ selector,
          LastDefines (PresetSelector.theme? fs (config.searched registry) name) options.presets
            selector theme →
          themes.get? name = some theme) ∧
        (∀ file, LastDefines (fs.theme? name) added file theme →
          (∀ selector ∈ configured.presets ++ options.presets,
            selector.theme? fs (config.searched registry) name = none) →
          Unsurpassed fs name given files file →
          themes.get? name = some theme) := by
  obtain ⟨configured, hconfigured, rfl⟩ := buildConfig_ok hbuild
  obtain ⟨files, hfiles, hloads, hget⟩ := get?_of_resolve hresolve
  obtain ⟨given, added, hgiven, hadded, rfl⟩ := themeFiles_extend hfiles
  refine ⟨configured, _, given, added, hconfigured, hfiles, hgiven, hadded, fun name theme => ?_⟩
  constructor
  · intro selector hlast
    have hpresets := (hlast.append_left configured.presets).findSome?_reverse
    rw [hget name]
    exact Option.or_eq_some_iff.mpr (.inl hpresets)
  · intro file hlast hpresets hplace
    have hnone : (configured.presets ++ options.presets).reverse.findSome?
        (PresetSelector.theme? fs
          ((extend configured fs.workingDirectory options).searched registry) name) = none := by
      rw [List.findSome?_eq_none_iff]
      intro selector hmem
      exact hpresets selector (List.mem_reverse.mp hmem)
    have hfirst : ∀ file ∈ given, ∃ layer, Collection.ofFile fs file = .ok layer := fun file hm =>
      hloads file (List.mem_append_left _ hm)
    rw [hget name]
    exact Option.or_eq_some_iff.mpr (.inr ⟨hnone, findSome?_unsurpassed hfirst hlast hplace⟩)

def cardSite (configuration : String) : FileSystem where
  root := .directory [
    ("site.yaml".toList, .file configuration.toUTF8),
    ("dark.yaml".toList, .file "card: {className: dark}".toUTF8),
    ("light.yaml".toList, .file "card: {className: light}".toUTF8),
    ("brand.yaml".toList, .file "card: {className: brand}".toUTF8)]
  workingDirectory := .ofString "/"

def lightCards : Options := { onePattern "light.yaml" with config := some (.ofString "/site.yaml") }

def darkCards : Config := ⟨["dark.yaml"], [], .kebab, [], some (.ofString "/")⟩

/-- The configuration names the dark card, the command line the light one. -/
theorem lightCards_lastWord :
    ∃ config themes, buildConfig (cardSite "themes: [dark.yaml]") lightCards = .ok config ∧
      config.themes = ["dark.yaml", "/light.yaml"] ∧
      (config.resolve (cardSite "themes: [dark.yaml]") .empty).result = .ok themes ∧
      themes.get? "card" = some (.named "light") := by
  have hbuild : buildConfig (cardSite "themes: [dark.yaml]") lightCards =
      .ok { darkCards with themes := ["dark.yaml", "/light.yaml"] } :=
    ok_of_toOption (by decide +kernel)
  have hresolve : (Config.resolve { darkCards with themes := ["dark.yaml", "/light.yaml"] }
      (cardSite "themes: [dark.yaml]") .empty).result =
        .ok (.ofList [("card", .named "light")]) :=
    ok_of_toOption (by decide +kernel)
  refine ⟨_, _, hbuild, rfl, hresolve, ?_⟩
  obtain ⟨configured, files, given, added, hconfigured, hfiles, hgiven, hadded, h⟩ :=
    commandLine_lastWord hbuild hresolve
  have hfile : Config.ofFile (cardSite "themes: [dark.yaml]") (.ofString "/site.yaml") =
      .ok darkCards :=
    ok_of_toOption (by decide +kernel)
  have hdark : darkCards.themeFiles (cardSite "themes: [dark.yaml]") =
      .ok [.ofString "/dark.yaml"] :=
    ok_of_toOption (by decide +kernel)
  have hlight : (alone darkCards (.ofString "/") lightCards).themeFiles
      (cardSite "themes: [dark.yaml]") = .ok [.ofString "/light.yaml"] :=
    ok_of_toOption (by decide +kernel)
  cases hfile.symm.trans hconfigured
  cases hdark.symm.trans hgiven
  cases hlight.symm.trans hadded
  refine (h "card" (.named "light")).2 (.ofString "/light.yaml") ?_ ?_ ?_
  · exact ⟨[], [], rfl, by decide +kernel, fun _ hm => by cases hm⟩
  · intro selector hm
    cases hm
  · intro before first behind _ hfirst hsame
    rw [List.mem_singleton.mp hfirst] at hsame
    exact absurd hsame (by decide)

/-- The definition of a theme in the collection that a run compiles. -/
def compiledTheme? (fs : FileSystem) (options : Options) (name : String) : Option Theme :=
  (buildConfig fs options).toOption.bind fun config =>
    (config.resolve fs (PresetRegistry.empty.addSearchDirs options.presetDirs)).result.toOption.bind
      fun themes => themes.get? name

/-- A preset of the configuration is layered over the theme file of the command line, and so is a theme
file of the configuration behind an earlier place of that file. -/
theorem lightCards_outdone :
    (cardSite "{presets: brand, presetDirs: [.]}").theme? "card" (.ofString "/light.yaml") =
        some (.named "light") ∧
      compiledTheme? (cardSite "{presets: brand, presetDirs: [.]}") lightCards "card" =
        some (.named "brand") ∧
      compiledTheme? (cardSite "themes: [light.yaml, dark.yaml]") lightCards "card" =
        some (.named "dark") := by
  decide +kernel

end CommandLine
end ThemeRules
