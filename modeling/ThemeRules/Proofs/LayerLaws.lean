import ThemeRules.Proofs.Resolution
import ThemeRules.Style.Component

/-!
# ThemeRules.Proofs.LayerLaws

The laws of layering. A map layered over another keeps the keys beneath where they are and puts its new
keys behind them (`keys_merge_append`), while its values win (`get?_merge`). The two pull in opposite
directions, and yet layers may be put together in any grouping (`merge_assoc`). So sources may be
resolved group by group: what a run over some sources adds to the themes beneath does not depend on these
(`layerFrom_merge`), and the themes of the groups, layered over each other, are those of all sources
(`layering_grouped`).
-/

namespace ThemeRules

/-! ## Maps -/

namespace OrderedMap

universe u

variable {α : Type u}

theorem contains_iff {map : OrderedMap α} {key : String} :
    map.contains key = true ↔ key ∈ map.keys :=
  List.contains_iff_mem

/-- The keys beneath stay where they are; the new keys come behind them, in their own order. -/
theorem keys_merge_append (map other : OrderedMap α) :
    (map.merge other).keys = map.keys ++ other.keys.filter fun key => !map.contains key := by
  have hnew : (other.keys.filter fun key => !map.contains key).Nodup := other.nodup_keys.filter _
  rw [keys_merge, List.eraseDups_append, eraseDups_of_nodup map.nodup_keys]
  exact congrArg (map.keys ++ ·) (eraseDups_of_nodup hnew)

theorem mem_keys_merge {map other : OrderedMap α} {key : String} :
    key ∈ (map.merge other).keys ↔ key ∈ map.keys ∨ key ∈ other.keys := by
  rw [keys_merge, List.mem_eraseDups, List.mem_append]

theorem contains_merge (map other : OrderedMap α) (key : String) :
    (map.merge other).contains key = (map.contains key || other.contains key) := by
  rw [Bool.eq_iff_iff, Bool.or_eq_true, contains_iff, contains_iff, contains_iff, mem_keys_merge]

theorem merge_empty (map : OrderedMap α) : map.merge empty = map := rfl

theorem empty_merge (map : OrderedMap α) : empty.merge map = map := ofList_entries map

/-- Of three layers, the keys of the last that are new are those that neither of the others has. -/
theorem merge_assoc (a b c : OrderedMap α) : (a.merge b).merge c = a.merge (b.merge c) := by
  refine ext_get? ?_ fun key => ?_
  · simp only [keys_merge_append, contains_merge, Bool.not_or, List.filter_append,
      List.filter_filter, List.append_assoc]
  · rw [get?_merge, get?_merge, get?_merge, get?_merge, Option.or_assoc]

theorem merge_self (map : OrderedMap α) : map.merge map = map := by
  refine ext_get? ?_ fun key => ?_
  · have hnone : (map.keys.filter fun key => !map.contains key) = [] := by
      rw [List.filter_eq_nil_iff]
      intro key hkey
      rw [contains_iff.mpr hkey]
      exact Bool.false_ne_true
    rw [keys_merge_append, hnone, List.append_nil]
  · rw [get?_merge, Option.or_self]

theorem isEmpty_merge {α : Type} {map : OrderedMap α} (h : map.isEmpty = false) (other : OrderedMap α) :
    (map.merge other).isEmpty = false := by
  rw [← Bool.not_eq_true, isEmpty_iff_keys] at h ⊢
  rw [keys_merge_append, List.append_eq_nil_iff]
  exact fun hnil => h hnil.1

theorem isEmpty_foldl_merge {α : Type} {map : OrderedMap α} (h : map.isEmpty = false)
    (layers : List (OrderedMap α)) : (layers.foldl merge map).isEmpty = false := by
  induction layers generalizing map with
  | nil => exact h
  | cons layer rest ih => exact ih (isEmpty_merge h layer)

end OrderedMap

open OrderedMap in
/-- Layering maps is a monoid in which nothing changes when a layer is put over itself, and in which
what is beneath decides the order. -/
structure LayeringLaws (α : Type) : Prop where
  assoc : ∀ a b c : OrderedMap α, (a.merge b).merge c = a.merge (b.merge c)
  empty_left : ∀ a : OrderedMap α, empty.merge a = a
  empty_right : ∀ a : OrderedMap α, a.merge empty = a
  self : ∀ a : OrderedMap α, a.merge a = a
  keys : ∀ a b : OrderedMap α,
    (a.merge b).keys = a.keys ++ b.keys.filter fun key => !a.contains key

theorem layeringLaws (α : Type) : LayeringLaws α where
  assoc := OrderedMap.merge_assoc
  empty_left := OrderedMap.empty_merge
  empty_right := OrderedMap.merge_empty
  self := OrderedMap.merge_self
  keys := OrderedMap.keys_merge_append

/-! ## Sources -/

namespace Source

variable (fs : FileSystem) (registry : PresetRegistry)

/-- What sources add to the themes beneath does not depend on these. -/
theorem layerFrom_merge (sources : List Source) :
    ∀ themes : Collection, layerFrom fs registry themes sources =
      ⟨(layerFrom fs registry .empty sources).warnings,
        (layerFrom fs registry .empty sources).result.map themes.merge⟩ := by
  induction sources with
  | nil => intro themes; rfl
  | cons source rest ih =>
    intro themes
    simp only [layerFrom]
    cases (source.load fs registry).result with
    | error error => rfl
    | ok new =>
      dsimp only
      rw [OrderedMap.empty_merge, ih (themes.merge new), ih new]
      cases (layerFrom fs registry .empty rest).result with
      | error error => rfl
      | ok layers => simp only [Except.map, OrderedMap.merge_assoc]

/-- The run over two lists of sources is a run over the first, and if that succeeds, one over the
second. -/
theorem layerFrom_append {first : List Source} {themes layered : Collection}
    (h : (layerFrom fs registry themes first).result = .ok layered) (second : List Source) :
    layerFrom fs registry themes (first ++ second) =
      ⟨(layerFrom fs registry themes first).warnings ++
          (layerFrom fs registry layered second).warnings,
        (layerFrom fs registry layered second).result⟩ := by
  induction first generalizing themes with
  | nil =>
    cases h
    rfl
  | cons source rest ih =>
    simp only [List.cons_append, layerFrom] at h ⊢
    cases hload : (source.load fs registry).result with
    | error error =>
      rw [hload] at h
      cases h
    | ok new =>
      rw [hload] at h
      simp only [ih h, List.append_assoc]

theorem layerFrom_fixed (layers : List Collection) :
    ∀ themes : Collection, layerFrom fs registry themes (layers.map .fixed) =
      ⟨[], .ok (layers.foldl OrderedMap.merge themes)⟩ := by
  induction layers with
  | nil => intro themes; rfl
  | cons layer rest ih =>
    intro themes
    simp only [List.map_cons, layerFrom, load, ih, List.foldl_cons, List.nil_append]

theorem resolveAll_eq (sources : List Source) :
    resolveAll fs registry sources =
      ⟨(layerFrom fs registry .empty sources).warnings,
        match (layerFrom fs registry .empty sources).result with
        | .ok themes => if themes.isEmpty then .error .noThemes else .ok themes
        | .error error => .error error⟩ := by
  simp only [resolveAll]
  cases (layerFrom fs registry .empty sources).result <;> rfl

theorem resolveAll_ok {sources : List Source} {themes : Collection}
    (h : (resolveAll fs registry sources).result = .ok themes) :
    (layerFrom fs registry .empty sources).result = .ok themes ∧ themes.isEmpty = false := by
  simp only [resolveAll_eq] at h
  split at h
  · split at h
    · cases h
    · rename_i hlayered hne
      cases h
      exact ⟨hlayered, Bool.eq_false_iff.mpr hne⟩
  · cases h

/-- Each of the groups resolves, to the layer in its place. -/
def GroupsResolve (groups : List (List Source)) (layers : List Collection) : Prop :=
  List.Forall₂ (fun group layer => (resolveAll fs registry group).result = .ok layer) groups layers

/-- A run over all sources of some groups is a run over the layers that the groups resolve to. -/
theorem layerFrom_groups {groups : List (List Source)} {layers : List Collection}
    (h : GroupsResolve fs registry groups layers) :
    ∀ themes : Collection, layerFrom fs registry themes groups.flatten =
      ⟨groups.flatMap fun group => (resolveAll fs registry group).warnings,
        .ok (layers.foldl OrderedMap.merge themes)⟩ := by
  induction h with
  | nil => intro themes; rfl
  | @cons group layer groups layers hgroup _ ih =>
    intro themes
    have hover : layerFrom fs registry themes group =
        ⟨(resolveAll fs registry group).warnings, .ok (themes.merge layer)⟩ := by
      rw [layerFrom_merge, (resolveAll_ok fs registry hgroup).1, resolveAll_eq]
      rfl
    have hresult : (layerFrom fs registry themes group).result = .ok (themes.merge layer) :=
      congrArg Report.result hover
    rw [List.flatten_cons, layerFrom_append fs registry hresult, hover, ih, List.flatMap_cons,
      List.foldl_cons]

theorem resolveAll_groups {groups : List (List Source)} {layers : List Collection}
    (h : GroupsResolve fs registry groups layers) (hne : groups ≠ []) :
    (resolveAll fs registry groups.flatten).result =
      .ok (layers.foldl OrderedMap.merge .empty) := by
  simp only [resolveAll_eq, layerFrom_groups fs registry h]
  cases h with
  | nil => exact absurd rfl hne
  | @cons group layer groups layers hgroup _ =>
    have hlayer := (resolveAll_ok fs registry hgroup).2
    rw [List.foldl_cons, OrderedMap.empty_merge, OrderedMap.isEmpty_foldl_merge hlayer layers]
    rfl

end Source

/-- Theme collections and compiled components are layered by the same laws. If sources are cut into
groups, each of which resolves, then the themes of the groups, resolved in order, are the themes of all
sources, with the warnings of all groups; and there are such themes, unless there is no group. -/
theorem layering_grouped :
    LayeringLaws Theme ∧ LayeringLaws Declarations ∧
      ∀ (fs : FileSystem) (registry : PresetRegistry) (groups : List (List Source))
        (layers : List Collection), Source.GroupsResolve fs registry groups layers →
          (Source.resolveAll fs registry groups.flatten).result =
            (Source.resolveAll fs registry (layers.map .fixed)).result ∧
          (groups ≠ [] → (Source.resolveAll fs registry groups.flatten).result =
            .ok (layers.foldl OrderedMap.merge .empty)) ∧
          (Source.resolveAll fs registry groups.flatten).warnings =
            groups.flatMap fun group => (Source.resolveAll fs registry group).warnings := by
  refine ⟨layeringLaws Theme, layeringLaws Declarations, fun fs registry groups layers h => ?_⟩
  refine ⟨?_, Source.resolveAll_groups fs registry h, ?_⟩
  · simp only [Source.resolveAll_eq, Source.layerFrom_groups fs registry h, Source.layerFrom_fixed]
  · simp only [Source.resolveAll_eq, Source.layerFrom_groups fs registry h]

def twoPresets : PresetRegistry :=
  (PresetRegistry.empty.addInline "base" (.ofList [("card", .named "a"), ("grid", .named "b")]))
    |>.addInline "brand" (.ofList [("link", .named "c"), ("card", .named "d")])

/-- The second group has a theme of the first one, which keeps its place, and one that is wanted of a
preset without being there. -/
def cardGroups : List (List Source) :=
  [[.preset (.all "base")],
    [.preset (.subset "brand" ["card", "link", "menu"]), .fixed (.ofList [("grid", .named "e")])]]

def cardLayers : List Collection :=
  [.ofList [("card", .named "a"), ("grid", .named "b")],
    .ofList [("link", .named "c"), ("card", .named "d"), ("grid", .named "e")]]

theorem cardGroups_layered :
    Source.GroupsResolve ⟨.empty, ⟨['/']⟩⟩ twoPresets cardGroups cardLayers ∧
      (Source.resolveAll ⟨.empty, ⟨['/']⟩⟩ twoPresets cardGroups.flatten).result =
        .ok (.ofList [("card", .named "d"), ("grid", .named "e"), ("link", .named "c")]) ∧
      (Source.resolveAll ⟨.empty, ⟨['/']⟩⟩ twoPresets cardGroups.flatten).warnings =
        [⟨"brand", "menu"⟩] := by
  have hgroups : Source.GroupsResolve ⟨.empty, ⟨['/']⟩⟩ twoPresets cardGroups cardLayers :=
    .cons rfl (.cons rfl .nil)
  obtain ⟨-, -, h⟩ := layering_grouped
  obtain ⟨-, hresult, hwarnings⟩ := h _ _ _ _ hgroups
  refine ⟨hgroups, (hresult (by simp [cardGroups])).trans rfl, hwarnings.trans rfl⟩

end ThemeRules
