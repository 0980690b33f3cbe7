import Mathlib.Data.List.DropRight
import ThemeRules.Proofs.SamePath

/-!
# ThemeRules.Proofs.Locations

Where a path ends in the tree. There are no links, so a step upwards takes back the name before it, and
what is left are the names from the root to the entry (`descend?_location`). They tell files apart where
paths do not: one file has many paths.

Paths with the same components end at the same location. The converse holds for absolute paths that climb
the same way, that is, have the same steps up to the last one upwards (`same_of_location`).
-/

namespace ThemeRules

namespace FilePath

/-- The steps of a path up to the last one that leads upwards. -/
def climb (path : FilePath) : List Component := path.steps.rdropWhile fun c => c ≠ .parent

/-- The steps behind the climb; all of them lead downwards. -/
def descent (path : FilePath) : List Component := path.steps.rtakeWhile fun c => c ≠ .parent

theorem climb_append_descent (path : FilePath) : path.climb ++ path.descent = path.steps :=
  List.rdropWhile_append_rtakeWhile

theorem climb_eq_of_same {a b : FilePath} (h : a.same b = true) : a.climb = b.climb := by
  rw [climb, climb, steps_eq_filter, steps_eq_filter, same_iff.mp h]

theorem normal_of_mem_descent {path : FilePath} {c : Component} (h : c ∈ path.descent) :
    c = .normal c.name := by
  have hstep : c.isStep = true := isStep_of_mem_steps ((List.rtakeWhile_suffix _ _).mem h)
  have hdown : c ≠ .parent := by simpa using List.mem_rtakeWhile_imp h
  cases c with
  | root | current => cases hstep
  | parent => exact absurd rfl hdown
  | normal name => rfl

theorem map_normal_descent (path : FilePath) :
    (path.descent.map Component.name).map Component.normal = path.descent := by
  have hnormal : ∀ c ∈ path.descent, (Component.normal ∘ Component.name) c = id c :=
    fun c hc => (normal_of_mem_descent hc).symm
  rw [List.map_map, List.map_congr_left hnormal, List.map_id]

theorem join_of_isAbsolute (base : FilePath) {path : FilePath} (h : path.isAbsolute = true) :
    base.join path = path := by
  rw [join, if_pos h]

theorem same_of_steps {a b : FilePath} (ha : a.isAbsolute = true) (hb : b.isAbsolute = true)
    (h : a.steps = b.steps) : a.same b = true := by
  rw [same_iff, components_eq, components_eq, start, start, if_pos ha, if_pos hb, h]

end FilePath

namespace Entry

theorem descend?_concat {entry between : Entry} {names : List (List Char)} (name : List Char)
    (h : entry.descend? names = some between) :
    entry.descend? (names ++ [name]) = between.child? name := by
  induction names generalizing entry with
  | nil =>
    cases h
    simp [descend?]
  | cons first rest ih =>
    obtain ⟨child, hchild, hrest⟩ := Option.bind_eq_some_iff.mp h
    rw [List.cons_append, descend?, hchild, Option.bind_some]
    exact ih hrest

end Entry

namespace FileSystem

open FilePath (Component)

/-- The names from the root to where components lead, the last name first; `names` are those to where
they start. -/
def trail : (names : List (List Char)) → List Component → List (List Char)
  | names, [] => names
  | names, .parent :: rest => trail names.tail rest
  | names, .normal name :: rest => trail (name :: names) rest
  | names, _ :: rest => trail names rest

/-- The names from the root to where a path ends. -/
def location (fs : FileSystem) (path : FilePath) : List (List Char) :=
  (trail [] (fs.workingDirectory.join path).steps).reverse

theorem trail_append (first second : List Component) :
    ∀ names, trail names (first ++ second) = trail (trail names first) second := by
  induction first with
  | nil => intro names; rfl
  | cons c rest ih =>
    intro names
    cases c <;> exact ih _

theorem trail_normal (down : List (List Char)) :
    ∀ names, trail names (down.map Component.normal) = down.reverse ++ names := by
  induction down with
  | nil => intro names; rfl
  | cons name rest ih =>
    intro names
    rw [List.map_cons, trail, ih, List.reverse_cons, List.append_assoc, List.singleton_append]

/-! ## The entry at a location -/

/-- `above` are the directories around `here`, and `names` lead to it from the root; both start with the
innermost. -/
inductive Ascent (root : Entry) : (here : Entry) → (above : List Entry) →
    (names : List (List Char)) → Prop where
  | root : Ascent root root [] []
  | child {here entry : Entry} {above : List Entry} {name : List Char} {names : List (List Char)} :
      Ascent root here above names → here.child? name = some entry →
      Ascent root entry (here :: above) (name :: names)

theorem Ascent.descend? {root here : Entry} {above : List Entry} {names : List (List Char)}
    (h : Ascent root here above names) : root.descend? names.reverse = some here := by
  induction h with
  | root => rfl
  | child _ hchild ih => rw [List.reverse_cons, Entry.descend?_concat _ ih, hchild]

/-- A walk keeps to its trail. -/
theorem Ascent.walk {root result : Entry} {components : List Component} :
    ∀ {here : Entry} {above : List Entry} {names : List (List Char)}, Ascent root here above names →
      walk here above components = some result →
      ∃ above', Ascent root result above' (trail names components) := by
  induction components with
  | nil =>
    intro here above names h hwalk
    cases hwalk
    exact ⟨above, h⟩
  | cons c rest ih =>
    intro here above names h hwalk
    cases c with
    | root | current => exact ih h hwalk
    | parent =>
      cases h with
      | root => exact ih .root hwalk
      | child h _ => exact ih h hwalk
    | normal name =>
      simp only [FileSystem.walk] at hwalk
      split at hwalk
      · cases hwalk
      · rename_i entry hentry
        exact ih (.child h hentry) hwalk

/-- What a path leads to is what stands at its location. -/
theorem descend?_location {fs : FileSystem} {path : FilePath} {entry : Entry}
    (h : fs.entry path = .ok entry) : fs.root.descend? (fs.location path) = some entry := by
  obtain ⟨_, hascent⟩ := Ascent.root.walk (walk_of_entry h)
  exact hascent.descend?

/-! ## Paths to one location -/

theorem location_eq_of_same (fs : FileSystem) {a b : FilePath} (h : a.same b = true) :
    fs.location a = fs.location b := by
  rw [location, location, FilePath.steps_join_of_same _ h]

theorem location_eq_append (fs : FileSystem) {path : FilePath} (h : path.isAbsolute = true) :
    fs.location path = (trail [] path.climb).reverse ++ path.descent.map Component.name := by
  have hdescent := trail_normal (path.descent.map Component.name) (trail [] path.climb)
  rw [path.map_normal_descent, ← trail_append, path.climb_append_descent] at hdescent
  rw [location, FilePath.join_of_isAbsolute _ h, hdescent, List.reverse_append, List.reverse_reverse]

/-- Paths that climb the same way end at the same location only if they have the same components. -/
theorem same_of_location {fs : FileSystem} {a b : FilePath} (ha : a.isAbsolute = true)
    (hb : b.isAbsolute = true) (hclimb : a.climb = b.climb)
    (h : fs.location a = fs.location b) : a.same b = true := by
  rw [location_eq_append fs ha, location_eq_append fs hb, hclimb] at h
  have hdescent : a.descent = b.descent := by
    rw [← a.map_normal_descent, ← b.map_normal_descent, List.append_cancel_left h]
  apply FilePath.same_of_steps ha hb
  rw [← a.climb_append_descent, ← b.climb_append_descent, hclimb, hdescent]

end FileSystem
end ThemeRules
