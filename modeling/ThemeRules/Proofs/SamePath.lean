import ThemeRules.Proofs.FileTree

/-!
# ThemeRules.Proofs.SamePath

Spellings of a path. Two paths with the same components may differ in dots and doubled separators. A
path is followed part by part, but where it leads is decided by its components alone
(`walk_of_entry`), so both lead to the same entry, if they lead anywhere (`entry_eq_of_same`).
-/

namespace ThemeRules

namespace FilePath

/-- The component that a part stands for, if it counts. -/
def component? (part : List Char) : Option Component :=
  if part = [] ∨ part = ['.'] then none
  else if part = ['.', '.'] then some .parent
  else some (.normal part)

def steps (path : FilePath) : List Component := (splitSlash path.chars).filterMap component?

/-- What a path starts with. -/
def start (path : FilePath) : List Component :=
  if path.isAbsolute then [.root]
  else if (splitSlash path.chars).head? = some ['.'] then [.current]
  else []

theorem components_eq (path : FilePath) : path.components = path.start ++ path.steps := rfl

namespace Component

def isStep : Component → Bool
  | .root | .current => false
  | .parent | .normal _ => true

end Component

theorem isStep_of_component? {part : List Char} {component : Component}
    (h : component? part = some component) : component.isStep = true := by
  unfold component? at h
  split at h
  · cases h
  · split at h
    · cases h; rfl
    · cases h; rfl

theorem isStep_of_mem_steps {path : FilePath} {component : Component}
    (h : component ∈ path.steps) : component.isStep = true := by
  obtain ⟨part, _, hp⟩ := List.mem_filterMap.mp h
  exact isStep_of_component? hp

theorem steps_eq_filter (path : FilePath) : path.steps = path.components.filter Component.isStep := by
  have hstart : path.start.filter Component.isStep = [] := by
    unfold start
    split
    · rfl
    · split <;> rfl
  rw [components_eq, List.filter_append, hstart, List.nil_append]
  exact (List.filter_eq_self.mpr fun component => isStep_of_mem_steps).symm

theorem isAbsolute_iff_mem (path : FilePath) :
    path.isAbsolute = true ↔ Component.root ∈ path.components := by
  have hsteps : Component.root ∉ path.steps := fun h => by cases isStep_of_mem_steps h
  rw [components_eq, List.mem_append, or_iff_left hsteps, start]
  split
  · simp [*]
  · split <;> simp [*]

theorem steps_append_slash (first second : List Char) :
    steps ⟨first ++ '/' :: second⟩ = steps ⟨first⟩ ++ steps ⟨second⟩ := by
  simp only [steps, splitSlash_append_slash, List.filterMap_append]

theorem steps_slashed (directory : FilePath) (s : List Char) :
    steps ⟨directory.slashed ++ s⟩ = directory.steps ++ steps ⟨s⟩ := by
  unfold slashed
  split
  · rename_i h
    rcases Bool.or_eq_true_iff.mp h with hempty | hlast
    · obtain ⟨chars⟩ := directory
      obtain rfl : chars = [] := List.isEmpty_iff.mp hempty
      rfl
    · obtain ⟨chars⟩ := directory
      obtain ⟨front, rfl⟩ := List.getLast?_eq_some_iff.mp (beq_iff_eq.mp hlast)
      have hfront : steps ⟨front ++ ['/']⟩ = steps ⟨front⟩ := by
        rw [steps_append_slash]
        exact List.append_nil _
      rw [List.append_assoc, List.singleton_append, steps_append_slash, hfront]
  · rw [List.append_assoc, List.singleton_append, steps_append_slash]

theorem steps_join (base path : FilePath) :
    (base.join path).steps = if path.isAbsolute then path.steps else base.steps ++ path.steps := by
  by_cases h : path.isAbsolute = true
  · rw [join, if_pos h, if_pos h]
  · rw [if_neg h, join_of_relative base (Bool.eq_false_iff.mpr h), steps_slashed]

theorem steps_join_of_same (base : FilePath) {first second : FilePath}
    (h : first.same second = true) : (base.join first).steps = (base.join second).steps := by
  have hcomponents : first.components = second.components := of_decide_eq_true h
  have habs : first.isAbsolute = second.isAbsolute := by
    rw [Bool.eq_iff_iff, isAbsolute_iff_mem, isAbsolute_iff_mem, hcomponents]
  rw [steps_join, steps_join, habs, steps_eq_filter first, steps_eq_filter second, hcomponents]

end FilePath

namespace FileSystem

open FilePath (Component component? steps)

/-- Where components lead. -/
def walk : (here : Entry) → (above : List Entry) → List Component → Option Entry
  | here, _, [] => some here
  | here, above, .parent :: rest =>
    match above with
    | [] => walk here [] rest
    | outer :: above => walk outer above rest
  | here, above, .normal name :: rest =>
    match here.child? name with
    | none => none
    | some entry => walk entry (here :: above) rest
  | here, above, _ :: rest => walk here above rest

theorem walk_of_follow {parts : List (List Char)} :
    ∀ {here result : Entry} {above : List Entry}, follow here above parts = .ok result →
      walk here above (parts.filterMap component?) = some result := by
  induction parts with
  | nil =>
    intro here result above h
    cases h
    rfl
  | cons part rest ih =>
    intro here result above h
    simp only [follow] at h
    split at h
    · cases h
    · split at h
      · rename_i hskip
        rw [List.filterMap_cons, component?, if_pos hskip]
        exact ih h
      · rename_i hskip
        split at h
        · rename_i hup
          rw [List.filterMap_cons, component?, if_neg hskip, if_pos hup]
          cases above with
          | nil => exact ih h
          | cons outer above => exact ih h
        · rename_i hup
          rw [List.filterMap_cons, component?, if_neg hskip, if_neg hup]
          split at h
          · cases h
          · cases hchild : here.child? part with
            | none =>
              rw [hchild] at h
              cases h
            | some child =>
              rw [hchild] at h
              simp only [walk, hchild]
              exact ih h

theorem filterMap_parts (fs : FileSystem) (path : FilePath) :
    (fs.parts path).filterMap component? = (fs.workingDirectory.join path).steps := by
  unfold parts steps
  split
  · rename_i rest hchars
    rw [hchars, splitSlash_slash]
    rfl
  · rfl

theorem walk_of_entry {fs : FileSystem} {path : FilePath} {result : Entry}
    (h : fs.entry path = .ok result) :
    walk fs.root [] (fs.workingDirectory.join path).steps = some result := by
  rw [← filterMap_parts]
  exact walk_of_follow ((entry_ok_iff fs path result).mp h).2

/-- Paths with the same components lead to the same entry. -/
theorem entry_eq_of_same {fs : FileSystem} {first second : FilePath} {entry entry' : Entry}
    (h : first.same second = true) (h1 : fs.entry first = .ok entry)
    (h2 : fs.entry second = .ok entry') : entry = entry' := by
  have hwalk := walk_of_entry h1
  rw [FilePath.steps_join_of_same _ h, walk_of_entry h2] at hwalk
  exact (Option.some.inj hwalk).symm

theorem read_eq_of_same {fs : FileSystem} {first second : FilePath} {text text' : String}
    (h : first.same second = true) (h1 : fs.read first = .ok text)
    (h2 : fs.read second = .ok text') : text = text' := by
  unfold read at h1 h2
  cases he : fs.entry first with
  | error fault =>
    rw [he] at h1
    cases h1
  | ok entry =>
    cases he' : fs.entry second with
    | error fault =>
      rw [he'] at h2
      cases h2
    | ok entry' =>
      cases entry_eq_of_same h he he'
      rw [he] at h1
      rw [he'] at h2
      exact Except.ok.inj (h1.symm.trans h2)

end FileSystem
end ThemeRules
