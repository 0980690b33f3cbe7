import Mathlib
import ThemeRules.Proofs.Loading

/-!
# ThemeRules.Proofs.Resolution

What a configuration resolves to. Everything it names is a layer: each theme file, in load order, and
then each preset, reduced to the themes wanted of it. `Config.layers` lists them or gives the error of
the first that fails; all patterns are expanded before any file is read, and no preset is loaded before
all files are. `resolve_layers` says that the resolved themes are the layers over each other, whatever
sources they come from, and which warnings are raised on the way.
-/

namespace ThemeRules

/-! ## Layers -/

/-- The themes that a selector wants of its preset. -/
def PresetSelector.layer (fs : FileSystem) (registry : PresetRegistry) (selector : PresetSelector) :
    Except Error Collection :=
  match registry.load fs selector.name with
  | .error error => .error error
  | .ok themes =>
    match selector.themes? with
    | none => .ok themes
    | some names => .ok (Collection.select themes names)

/-- The preset can be loaded. -/
def PresetSelector.loads (fs : FileSystem) (registry : PresetRegistry) (selector : PresetSelector) :
    Bool :=
  (registry.load fs selector.name).isOk

/-- A warning for each theme that is wanted of the preset and that it does not define. -/
def PresetSelector.undefinedThemes (fs : FileSystem) (registry : PresetRegistry)
    (selector : PresetSelector) : List Warning :=
  match registry.load fs selector.name with
  | .error _ => []
  | .ok themes =>
    ((selector.themes?.getD []).filter fun name => !themes.contains name).map fun name =>
      ⟨selector.name, name⟩

namespace Config

/-- The registry in which a configuration looks for its presets. -/
def searched (config : Config) (registry : PresetRegistry) : PresetRegistry :=
  registry.addSearchDirs config.resolvedPresetDirs

/-- The theme files of a configuration, in load order. -/
def themeFiles (config : Config) (fs : FileSystem) : Except Error (List FilePath) :=
  match config.themes.mapM
      (Pattern.expand fs (fs.workingDirectory.join config.resolvedBaseDir)) with
  | .error error => .error error
  | .ok found => .ok (found.flatten.eraseDupsBy FilePath.same)

def fileLayers (config : Config) (fs : FileSystem) : Except Error (List Collection) :=
  match config.themeFiles fs with
  | .error error => .error error
  | .ok paths => paths.mapM (Collection.ofFile fs)

/-- The layers of a configuration: its theme files, then its presets. -/
def layers (config : Config) (fs : FileSystem) (registry : PresetRegistry) :
    Except Error (List Collection) :=
  match config.fileLayers fs with
  | .error error => .error error
  | .ok files =>
    match config.presets.mapM (PresetSelector.layer fs (config.searched registry)) with
    | .error error => .error error
    | .ok presets => .ok (files ++ presets)

/-- The warnings of the presets that are loaded before the end or the first failure. -/
def warnings (config : Config) (fs : FileSystem) (registry : PresetRegistry) : List Warning :=
  match config.fileLayers fs with
  | .error _ => []
  | .ok _ =>
    (config.presets.takeWhile (PresetSelector.loads fs (config.searched registry))).flatMap
      (PresetSelector.undefinedThemes fs (config.searched registry))

end Config

/-! ## Sources -/

theorem ThemeFiles.load_eq (config : Config) (fs : FileSystem) :
    ThemeFiles.load ⟨config.resolvedBaseDir, config.themes⟩ fs =
      match config.fileLayers fs with
      | .error error => .error error
      | .ok layers => .ok (.ofList (Collection.allEntries layers)) := by
  rw [ThemeFiles.load, ThemeFiles.files, ThemeFiles.filesFrom_eq, Config.fileLayers,
    Config.themeFiles]
  cases config.themes.mapM
      (Pattern.expand fs (fs.workingDirectory.join config.resolvedBaseDir)) with
  | error error => rfl
  | ok found =>
    simp only [ThemeFiles.addNew_nil]
    exact layerFiles_eq fs _ .empty

theorem PresetSelector.load_eq (fs : FileSystem) (registry : PresetRegistry)
    (selector : PresetSelector) :
    selector.load fs registry = ⟨selector.undefinedThemes fs registry, selector.layer fs registry⟩ := by
  unfold PresetSelector.load PresetSelector.undefinedThemes PresetSelector.layer
  cases registry.load fs selector.name with
  | error error => rfl
  | ok themes => cases selector.themes? <;> rfl

theorem PresetSelector.loads_of_layer_ok {fs : FileSystem} {registry : PresetRegistry}
    {selector : PresetSelector} {layer : Collection} (h : selector.layer fs registry = .ok layer) :
    selector.loads fs registry = true := by
  unfold PresetSelector.layer at h
  unfold PresetSelector.loads
  split at h
  · cases h
  · rename_i hl; rw [hl]; rfl

theorem PresetSelector.of_layer_error {fs : FileSystem} {registry : PresetRegistry}
    {selector : PresetSelector} {error : Error} (h : selector.layer fs registry = .error error) :
    selector.loads fs registry = false ∧ selector.undefinedThemes fs registry = [] ∧
      registry.load fs selector.name = .error error := by
  unfold PresetSelector.layer at h
  unfold PresetSelector.loads PresetSelector.undefinedThemes
  split at h
  · rename_i hl; rw [hl]; exact ⟨rfl, rfl, h⟩
  · split at h <;> cases h

/-- Presets are layered from left to right until one fails. -/
theorem layerFrom_presets (fs : FileSystem) (registry : PresetRegistry)
    (presets : List PresetSelector) :
    ∀ themes : Collection, Source.layerFrom fs registry themes (presets.map .preset) =
      ⟨(presets.takeWhile (PresetSelector.loads fs registry)).flatMap
          (PresetSelector.undefinedThemes fs registry),
        match presets.mapM (PresetSelector.layer fs registry) with
        | .error error => .error error
        | .ok layers => .ok (themes.insertAll (Collection.allEntries layers))⟩ := by
  induction presets with
  | nil => intro themes; rfl
  | cons selector rest ih =>
    intro themes
    rw [List.map_cons, mapM_cons_eq]
    simp only [Source.layerFrom, Source.load, PresetSelector.load_eq]
    cases hl : selector.layer fs registry with
    | error error =>
      obtain ⟨hf, hn, -⟩ := PresetSelector.of_layer_error hl
      simp [hf, hn]
    | ok layer =>
      have ht := PresetSelector.loads_of_layer_ok hl
      simp only [ih, List.takeWhile_cons, ht, if_true, List.flatMap_cons]
      cases rest.mapM (PresetSelector.layer fs registry) with
      | error error => rfl
      | ok layers =>
        simp only [Collection.allEntries, List.flatMap_cons, OrderedMap.insertAll_append]
        rfl

/-- All sources of a configuration come to its layers. -/
theorem layerFrom_sources (config : Config) (fs : FileSystem) (registry : PresetRegistry) :
    Source.layerFrom fs (config.searched registry) .empty config.sources =
      ⟨config.warnings fs registry,
        match config.layers fs registry with
        | .error error => .error error
        | .ok layers => .ok (.ofList (Collection.allEntries layers))⟩ := by
  unfold Config.sources Config.warnings Config.layers
  cases hn : config.themes.isEmpty with
  | true =>
    have hfiles : config.fileLayers fs = .ok [] := by
      rw [Config.fileLayers, Config.themeFiles, List.isEmpty_iff.mp hn]
      rfl
    rw [if_pos rfl, List.nil_append, layerFrom_presets, hfiles]
    simp only [List.nil_append]
    cases config.presets.mapM (PresetSelector.layer fs (config.searched registry)) <;> rfl
  | false =>
    rw [if_neg (by simp), List.singleton_append]
    simp only [Source.layerFrom, Source.load, ThemeFiles.load_eq]
    cases config.fileLayers fs with
    | error error => rfl
    | ok files =>
      simp only [layerFrom_presets, List.nil_append, OrderedMap.merge_ofList]
      cases config.presets.mapM (PresetSelector.layer fs (config.searched registry)) with
      | error error => rfl
      | ok presets =>
        simp only [Collection.allEntries, List.flatMap_append, OrderedMap.ofList,
          OrderedMap.insertAll_append]

/-! ## Layers over each other -/

theorem keys_ofList_allEntries (layers : List Collection) :
    (OrderedMap.ofList (Collection.allEntries layers)).keys =
      (layers.flatMap OrderedMap.keys).eraseDups := by
  rw [OrderedMap.keys_ofList, Collection.allEntries, List.map_flatMap]
  rfl

theorem get?_ofList_allEntries (earlier later : List Collection) (layer : Collection)
    (name : String) (h : ∀ other ∈ later, other.get? name = none) :
    (OrderedMap.ofList (Collection.allEntries (earlier ++ layer :: later))).get? name =
      (layer.get? name).or ((OrderedMap.ofList (Collection.allEntries earlier)).get? name) := by
  have hlater : (Collection.allEntries later).reverse.lookup name = none := by
    rw [List.lookup_eq_none_iff]
    intro e he
    obtain ⟨other, ho, he⟩ := List.mem_flatMap.mp (List.mem_reverse.mp he)
    exact List.lookup_eq_none_iff.mp (h other ho) e he
  simp only [Collection.allEntries, List.flatMap_append, List.flatMap_cons] at hlater ⊢
  rw [OrderedMap.ofList, OrderedMap.insertAll_append, OrderedMap.insertAll_append,
    OrderedMap.get?_insertAll, hlater, Option.none_or, OrderedMap.get?_insertAll,
    lookup_reverse _ layer.nodup]
  rfl

theorem isEmpty_iff_keys {α : Type} (map : OrderedMap α) : map.isEmpty = true ↔ map.keys = [] := by
  rw [OrderedMap.isEmpty, List.isEmpty_iff, OrderedMap.keys, List.map_eq_nil_iff]

theorem eraseDups_eq_nil {keys : List String} : keys.eraseDups = [] ↔ keys = [] := by
  cases keys <;> simp [List.eraseDups_cons]

theorem isEmpty_ofList_allEntries (layers : List Collection) :
    (OrderedMap.ofList (Collection.allEntries layers)).isEmpty = true ↔
      ∀ layer ∈ layers, layer.isEmpty = true := by
  rw [isEmpty_iff_keys, keys_ofList_allEntries, eraseDups_eq_nil, List.flatMap_eq_nil_iff]
  simp only [isEmpty_iff_keys]

theorem layers_error {config : Config} {fs : FileSystem} {registry : PresetRegistry} {error : Error}
    (h : config.layers fs registry = .error error) : error.ofSource = true := by
  unfold Config.layers Config.fileLayers Config.themeFiles at h
  split at h
  · rename_i hf; cases h
    split at hf
    · rename_i hp; cases hf
      split at hp
      · rename_i hm; cases hp
        obtain ⟨pattern, _, he⟩ := exists_of_mapM_error hm
        exact expand_error he
      · cases hp
    · obtain ⟨path, _, he⟩ := exists_of_mapM_error hf
      exact load_error he
  · split at h
    · rename_i hm; cases h
      obtain ⟨selector, _, he⟩ := exists_of_mapM_error hm
      exact registry_load_error (PresetSelector.of_layer_error he).2.2
    · cases h

theorem layers_ne_noThemes (config : Config) (fs : FileSystem) (registry : PresetRegistry) :
    config.layers fs registry ≠ .error .noThemes := by
  intro h
  cases layers_error h

/-! ## A resolved configuration -/

theorem resolve_eq (config : Config) (fs : FileSystem) (registry : PresetRegistry) :
    config.resolve fs registry =
      ⟨config.warnings fs registry,
        match config.layers fs registry with
        | .error error => .error error
        | .ok layers =>
          if (OrderedMap.ofList (Collection.allEntries layers)).isEmpty then .error .noThemes
          else .ok (.ofList (Collection.allEntries layers))⟩ := by
  have hs := layerFrom_sources config fs registry
  unfold Config.searched at hs
  unfold Config.resolve Source.resolveAll
  rw [hs]
  cases config.layers fs registry <;> rfl

/-- A run over a configuration fails with the first failure, or with `noThemes` if all layers are
empty. Otherwise a theme name stands where the first layer with it stands, and has the definition of
the last layer with it. -/
theorem resolve_layers (config : Config) (fs : FileSystem) (registry : PresetRegistry) :
    (config.resolve fs registry).warnings = config.warnings fs registry ∧
      ((config.resolve fs registry).result = .error .noThemes ↔
        ∃ layers, config.layers fs registry = .ok layers ∧ ∀ layer ∈ layers, layer.isEmpty = true) ∧
      match config.layers fs registry with
      | .error error => (config.resolve fs registry).result = .error error
      | .ok layers =>
        (∃ layer ∈ layers, layer.isEmpty = false) →
          ∃ themes, (config.resolve fs registry).result = .ok themes ∧
            themes.keys = (layers.flatMap OrderedMap.keys).eraseDups ∧
            ∀ earlier layer later name theme, layers = earlier ++ layer :: later →
              layer.get? name = some theme → (∀ other ∈ later, other.get? name = none) →
              themes.get? name = some theme := by
  refine ⟨by rw [resolve_eq], ?_⟩
  cases hl : config.layers fs registry with
  | error error =>
    have hr : (config.resolve fs registry).result = .error error := by rw [resolve_eq, hl]
    rw [hr]
    refine ⟨⟨fun h => ?_, fun ⟨layers, h, _⟩ => by cases h⟩, rfl⟩
    have : error = .noThemes := Except.error.inj h
    exact absurd (this ▸ hl) (layers_ne_noThemes config fs registry)
  | ok layers =>
    have hempty := isEmpty_ofList_allEntries layers
    by_cases he : (OrderedMap.ofList (Collection.allEntries layers)).isEmpty = true
    · have hr : (config.resolve fs registry).result = .error .noThemes := by
        rw [resolve_eq, hl]
        exact if_pos he
      refine ⟨⟨fun _ => ⟨layers, rfl, hempty.mp he⟩, fun _ => hr⟩, ?_⟩
      rintro ⟨layer, hm, hn⟩
      rw [hempty.mp he layer hm] at hn
      cases hn
    · have hr : (config.resolve fs registry).result =
          .ok (.ofList (Collection.allEntries layers)) := by
        rw [resolve_eq, hl]
        exact if_neg he
      rw [hr]
      refine ⟨⟨fun h => (by cases h), fun ⟨layers', h, hall⟩ => ?_⟩, fun _ => ?_⟩
      · cases h
        exact absurd (hempty.mpr hall) he
      · refine ⟨_, rfl, keys_ofList_allEntries layers, ?_⟩
        rintro earlier layer later name theme rfl hg hlater
        rw [get?_ofList_allEntries earlier later layer name hlater, hg, Option.some_or]

/-- A theme file that defines a card and a grid, and a file that is no text. -/
def brandedSite : FileSystem where
  root := .directory [
    ("site.yaml".toList, .file "card: {className: a}\ngrid: {className: b}".toUTF8),
    ("broken.yaml".toList, .file ⟨#[0xFF]⟩)]
  workingDirectory := .ofString "/"

def brandPreset : PresetRegistry :=
  PresetRegistry.empty.addInline "brand" (.ofList [("link", .named "c"), ("card", .named "d")])

/-- The preset is named behind the theme files; a theme is wanted of it that it does not define. -/
def withBrand (patterns : List String) : Config :=
  { Config.empty with themes := patterns }.addPreset (.subset "brand" ["card", "menu", "menu"])

/-- The card of the preset wins over that of the file. A bad pattern ends the run before the broken file in
front of it is read. -/
theorem brand_card_wins :
    (∃ themes, ((withBrand ["site.yaml"]).resolve brandedSite brandPreset).result = .ok themes ∧
      themes.keys = ["card", "grid"] ∧ themes.get? "card" = some (.named "d") ∧
      themes.get? "grid" = some (.named "b") ∧
      ((withBrand ["site.yaml"]).resolve brandedSite brandPreset).warnings =
        [⟨"brand", "menu"⟩, ⟨"brand", "menu"⟩]) ∧
      ((withBrand ["broken.yaml"]).resolve brandedSite brandPreset).result =
        .error (.unreadable (.ofString "/./broken.yaml") .notText) ∧
      ((withBrand ["broken.yaml", "[.yaml"]).resolve brandedSite brandPreset).result =
        .error (.badPattern "[.yaml" "[.yaml".toList .unclosedClass) := by
  refine ⟨?_, ?_, ?_⟩
  · have hlayers : (withBrand ["site.yaml"]).layers brandedSite brandPreset =
        .ok [.ofList [("card", .named "a"), ("grid", .named "b")], .ofList [("card", .named "d")]] :=
      ok_of_toOption (by decide +kernel)
    obtain ⟨hwarnings, -, hresolve⟩ := resolve_layers (withBrand ["site.yaml"]) brandedSite brandPreset
    rw [hlayers] at hresolve
    obtain ⟨themes, hthemes, hkeys, hlast⟩ := hresolve ⟨_, List.mem_cons_self, rfl⟩
    refine ⟨themes, hthemes, ?_, ?_, ?_, ?_⟩
    · rw [hkeys]
      decide
    · exact hlast _ _ [] "card" (.named "d") (List.singleton_append (l := _)).symm rfl (by simp)
    · exact hlast [] _ _ "grid" (.named "b") (List.nil_append _).symm rfl (by decide)
    · rw [hwarnings]
      decide +kernel
  · have hlayers : (withBrand ["broken.yaml"]).layers brandedSite brandPreset =
        .error (.unreadable (.ofString "/./broken.yaml") .notText) := by cbv
    obtain ⟨-, -, hresolve⟩ := resolve_layers (withBrand ["broken.yaml"]) brandedSite brandPreset
    rwa [hlayers] at hresolve
  · have hlayers : (withBrand ["broken.yaml", "[.yaml"]).layers brandedSite brandPreset =
        .error (.badPattern "[.yaml" "[.yaml".toList .unclosedClass) := by cbv
    obtain ⟨-, -, hresolve⟩ :=
      resolve_layers (withBrand ["broken.yaml", "[.yaml"]) brandedSite brandPreset
    rwa [hlayers] at hresolve

end ThemeRules
