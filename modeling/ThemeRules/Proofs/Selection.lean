import ThemeRules.Proofs.LayerLaws

/-!
# ThemeRules.Proofs.Selection

Selecting themes by name. Two orders meet in a selection: what is kept stands as in the collection, what
is missing stands as in the list of names. `Keeps` says the same of both, that nothing is added, moved
or kept less often than it was there. Taking out keys can be done before or after layering
(`filter_merge`), since a key that is taken out of both layers neither has a place nor a value in the
result.
-/

namespace ThemeRules

/-! ## Some of a list -/

/-- What is kept of a list are the elements that pass, each as often as it was there, in their order. -/
structure Keeps {β : Type} [DecidableEq β] (Passes : β → Prop) (all kept : List β) : Prop where
  sublist : kept.Sublist all
  passes : ∀ x ∈ kept, Passes x
  count : ∀ x, Passes x → kept.count x = all.count x

theorem keeps_filter {β : Type} [DecidableEq β] {Passes : β → Prop} {test : β → Bool} (all : List β)
    (h : ∀ x, test x = true ↔ Passes x) : Keeps Passes all (all.filter test) where
  sublist := List.filter_sublist
  passes x hx := (h x).mp (List.mem_filter.mp hx).2
  count x hx := List.count_filter ((h x).mpr hx)

/-! ## Some of a map -/

namespace OrderedMap

universe u

variable {α : Type u}

theorem contains_filter (map : OrderedMap α) (test : String → Bool) (key : String) :
    (map.filter test).contains key = (map.contains key && test key) := by
  rw [Bool.eq_iff_iff, Bool.and_eq_true, contains_iff, contains_iff, keys_filter, List.mem_filter]

/-- Taking out keys commutes with layering. -/
theorem filter_merge (map other : OrderedMap α) (test : String → Bool) :
    (map.merge other).filter test = (map.filter test).merge (other.filter test) := by
  refine ext_get? ?_ fun key => ?_
  · have hnew : (other.keys.filter fun key => !map.contains key).filter test =
        (other.keys.filter test).filter fun key => !(map.filter test).contains key := by
      rw [List.filter_filter, List.filter_filter]
      refine List.filter_congr fun key _ => ?_
      rw [contains_filter]
      cases test key
      · rw [Bool.false_and, Bool.and_false]
      · rw [Bool.true_and, Bool.and_true, Bool.and_true]
    rw [keys_filter, keys_merge_append, keys_merge_append, keys_filter, keys_filter,
      List.filter_append, hnew]
  · rw [get?_filter, get?_merge, get?_merge, get?_filter, get?_filter]
    cases test key <;> rfl

end OrderedMap

/-! ## Selections -/

namespace Collection

theorem not_contains_iff {themes : Collection} {name : String} :
    (!themes.contains name) = true ↔ name ∉ themes.keys := by
  rw [Bool.not_eq_true', ← Bool.not_eq_true, OrderedMap.contains_iff]

theorem keeps_select (themes : Collection) (names : List String) :
    Keeps (fun e => e.1 ∈ names) themes.entries (select themes names).entries :=
  keeps_filter themes.entries fun _ => List.contains_iff_mem

theorem keeps_select_select (themes : Collection) (names others : List String) :
    Keeps (fun e => e.1 ∈ names ∧ e.1 ∈ others) themes.entries
      (select (select themes names) others).entries := by
  have htwice : (select (select themes names) others).entries =
      themes.entries.filter fun e => others.contains e.1 && names.contains e.1 :=
    List.filter_filter ..
  rw [htwice]
  refine keeps_filter themes.entries fun e => ?_
  rw [Bool.and_eq_true, List.contains_iff_mem, List.contains_iff_mem, and_comm]

theorem keeps_missing (themes : Collection) (names : List String) :
    Keeps (fun name => name ∉ themes.keys) names (missing themes names) :=
  keeps_filter names fun _ => not_contains_iff

theorem keeps_missing_merge (themes other : Collection) (names : List String) :
    Keeps (fun name => name ∉ themes.keys ∧ name ∉ other.keys) names
      (missing (themes.merge other) names) := by
  refine keeps_filter names fun name => ?_
  rw [not_contains_iff, OrderedMap.mem_keys_merge, not_or]

/-- A selection keeps the entries whose name is listed, and the listed names that the collection does not
have are missing from it. Selecting from layers is layering selections, and what is missing from the
layers is missing from both. Of two selections, one behind the other, the entries listed in both
remain. -/
theorem selection_laws (a b : Collection) (names others : List String) :
    Keeps (fun e => e.1 ∈ names) a.entries (select a names).entries ∧
      Keeps (fun name => name ∉ a.keys) names (missing a names) ∧
      select (a.merge b) names = (select a names).merge (select b names) ∧
      Keeps (fun name => name ∉ a.keys ∧ name ∉ b.keys) names (missing (a.merge b) names) ∧
      Keeps (fun e => e.1 ∈ names ∧ e.1 ∈ others) a.entries
        (select (select a names) others).entries :=
  ⟨keeps_select a names, keeps_missing a names, OrderedMap.filter_merge a b names.contains,
    keeps_missing_merge a b names, keeps_select_select a names others⟩

/-- The names are listed in another order than the themes have, one of them twice. -/
example :
    let themes : Collection := .ofList [("card", .named "a"), ("grid", .named "b"), ("link", .named "c")]
    (select themes ["link", "menu", "card", "menu"]).keys = ["card", "link"] ∧
      missing themes ["link", "menu", "card", "menu"] = ["menu", "menu"] := by
  decide

end Collection
end ThemeRules
