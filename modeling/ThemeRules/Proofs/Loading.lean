import ThemeRules.Proofs.FilePaths
import ThemeRules.Proofs.Layering
import ThemeRules.Source.Resolve

/-!
# ThemeRules.Proofs.Loading

Loops that end at the first error, told without their accumulators. Each of them does something to every
member of a list, in order, and so comes to a `List.mapM`: expanding patterns (`filesFrom_eq`), layering
theme files (`layerFiles_eq`).
-/

namespace ThemeRules

/-! ## Until the first error -/

section FirstError

variable {ε α β : Type}

theorem ok_of_toOption {result : Except ε α} {value : α} (h : result.toOption = some value) :
    result = .ok value := by
  cases result with
  | error error => cases h
  | ok value' =>
    cases h
    rfl

theorem mapM_cons_eq (f : α → Except ε β) (x : α) (xs : List α) :
    (x :: xs).mapM f =
      match f x with
      | .error error => .error error
      | .ok y =>
        match xs.mapM f with
        | .error error => .error error
        | .ok ys => .ok (y :: ys) := by
  rw [List.mapM_cons]
  cases f x with
  | error error => rfl
  | ok y => cases xs.mapM f <;> rfl

/-- The error of a list is that of a member. -/
theorem exists_of_mapM_error {f : α → Except ε β} {xs : List α} {error : ε}
    (h : xs.mapM f = .error error) : ∃ x ∈ xs, f x = .error error := by
  induction xs with
  | nil => cases h
  | cons x rest ih =>
    rw [mapM_cons_eq] at h
    split at h
    · rename_i hx; cases h
      exact ⟨x, List.mem_cons_self, hx⟩
    · split at h
      · rename_i hrest; cases h
        obtain ⟨w, hw, he⟩ := ih hrest
        exact ⟨w, List.mem_cons_of_mem _ hw, he⟩
      · cases h

theorem mapM_cons_ok {f : α → Except ε β} {x : α} {xs : List α} {ys : List β}
    (h : (x :: xs).mapM f = .ok ys) :
    ∃ y rest, f x = .ok y ∧ xs.mapM f = .ok rest ∧ ys = y :: rest := by
  rw [mapM_cons_eq] at h
  split at h
  · cases h
  · rename_i y hy
    split at h
    · cases h
    · rename_i rest hrest
      cases h
      exact ⟨y, rest, hy, hrest, rfl⟩

theorem exists_ok_of_mapM {f : α → Except ε β} {xs : List α} {ys : List β}
    (h : xs.mapM f = .ok ys) : ∀ x ∈ xs, ∃ y, f x = .ok y := by
  induction xs generalizing ys with
  | nil => intro x hx; cases hx
  | cons w rest ih =>
    intro x hx
    obtain ⟨y, _, hy, hrest, -⟩ := mapM_cons_ok h
    rcases List.mem_cons.mp hx with rfl | hx
    · exact ⟨y, hy⟩
    · exact ih hrest x hx

theorem exists_of_mem_mapM {f : α → Except ε β} {xs : List α} {ys : List β}
    (h : xs.mapM f = .ok ys) : ∀ y ∈ ys, ∃ x ∈ xs, f x = .ok y := by
  induction xs generalizing ys with
  | nil =>
    cases h
    intro y hy
    cases hy
  | cons w rest ih =>
    intro y hy
    obtain ⟨first, _, hfirst, hrest, rfl⟩ := mapM_cons_ok h
    rcases List.mem_cons.mp hy with rfl | hy
    · exact ⟨w, List.mem_cons_self, hfirst⟩
    · obtain ⟨x, hx, he⟩ := ih hrest y hy
      exact ⟨x, List.mem_cons_of_mem _ hx, he⟩

/-- All results of two lists, one behind the other. -/
theorem mapM_append_ok {f : α → Except ε β} {first second : List α} {ys : List β}
    (h : (first ++ second).mapM f = .ok ys) :
    ∃ ys1 ys2, first.mapM f = .ok ys1 ∧ second.mapM f = .ok ys2 ∧ ys = ys1 ++ ys2 := by
  rw [List.mapM_append] at h
  cases h1 : first.mapM f with
  | error error =>
    rw [h1] at h
    cases h
  | ok ys1 =>
    cases h2 : second.mapM f with
    | error error =>
      rw [h1, h2] at h
      cases h
    | ok ys2 =>
      rw [h1, h2] at h
      cases h
      exact ⟨ys1, ys2, rfl, rfl, rfl⟩

/-- What the last result has to say is what the last member with a result has to say. -/
theorem findSome?_reverse_mapM {γ : Type} {f : α → Except ε β} (g : β → Option γ) {xs : List α}
    {ys : List β} (h : xs.mapM f = .ok ys) :
    ys.reverse.findSome? g = xs.reverse.findSome? fun x => (f x).toOption.bind g := by
  induction xs generalizing ys with
  | nil =>
    cases h
    rfl
  | cons x rest ih =>
    obtain ⟨y, ys', hy, hrest, rfl⟩ := mapM_cons_ok h
    simp only [List.reverse_cons, List.findSome?_append, ih hrest, List.findSome?_singleton, hy]
    rfl

end FirstError

/-! ## Patterns -/

namespace ThemeFiles

theorem addNew_append (files first second : List FilePath) :
    addNew files (first ++ second) = addNew (addNew files first) second := by
  simp [addNew]

theorem addNew_eq_loop (new : List FilePath) :
    ∀ files, addNew files new = List.eraseDupsBy.loop FilePath.same new files.reverse := by
  induction new with
  | nil => intro files; simp [addNew, List.eraseDupsBy.loop]
  | cons file rest ih =>
    intro files
    have hstep : addNew files (file :: rest) =
        addNew (if files.any file.same then files else files ++ [file]) rest := rfl
    rw [hstep, ih, List.eraseDupsBy.loop, List.any_reverse]
    cases files.any file.same <;> simp

/-- Adding files one after the other keeps each at its first place. -/
theorem addNew_nil (new : List FilePath) : addNew [] new = new.eraseDupsBy FilePath.same :=
  addNew_eq_loop new []

theorem addNew_concat (files new : List FilePath) (file : FilePath) :
    addNew files (new ++ [file]) =
      if (addNew files new).any file.same then addNew files new else addNew files new ++ [file] := by
  simp [addNew]

/-- Of the paths that are added, those count that are not there yet. -/
theorem addNew_eq_filter (files new : List FilePath) :
    addNew files new =
      files ++ (addNew [] new).filter fun file => !files.any file.same := by
  induction new using List.reverseRecOn with
  | nil => simp [addNew]
  | append_singleton new file ih =>
    have hany : (files ++ (addNew [] new).filter fun f => !files.any f.same).any file.same =
        (files.any file.same || (addNew [] new).any file.same) := by
      rw [Bool.eq_iff_iff]
      simp only [List.any_append, Bool.or_eq_true, List.any_eq_true, List.mem_filter,
        Bool.not_eq_true', List.any_eq_false, FilePath.same_iff]
      constructor
      · rintro (h | ⟨other, ⟨hmem, -⟩, hsame⟩)
        · exact .inl h
        · exact .inr ⟨other, hmem, hsame⟩
      · rintro (h | ⟨other, hmem, hsame⟩)
        · exact .inl h
        · by_cases hfiles : ∃ f ∈ files, file.components = f.components
          · exact .inl hfiles
          · refine .inr ⟨other, ⟨hmem, fun f hf hother => hfiles ⟨f, hf, hsame.trans hother⟩⟩, hsame⟩
    rw [addNew_concat, addNew_concat, ih, hany]
    cases hfiles : files.any file.same <;> cases hnew : (addNew [] new).any file.same <;>
      simp [hfiles]

theorem addNew_sublist (new : List FilePath) : (addNew [] new).Sublist new := by
  induction new using List.reverseRecOn with
  | nil => exact .slnil
  | append_singleton new file ih =>
    rw [addNew_concat]
    split
    · exact ih.trans (List.sublist_append_left new [file])
    · exact ih.append (.refl [file])

theorem mem_of_mem_addNew {new : List FilePath} {path : FilePath} (h : path ∈ addNew [] new) :
    path ∈ new :=
  (addNew_sublist new).mem h

theorem exists_same_of_mem {new : List FilePath} :
    ∀ file ∈ new, ∃ path ∈ addNew [] new, file.same path = true := by
  induction new using List.reverseRecOn with
  | nil => intro file h; cases h
  | append_singleton new last ih =>
    intro file h
    rw [addNew_concat]
    rcases List.mem_append.mp h with h | h
    · obtain ⟨path, hpath, hsame⟩ := ih file h
      refine ⟨path, ?_, hsame⟩
      split
      · exact hpath
      · exact List.mem_append_left _ hpath
    · rw [List.mem_singleton.mp h]
      split
      · rename_i hany
        exact List.any_eq_true.mp hany
      · exact ⟨last, List.mem_append_right _ (List.mem_singleton_self _), FilePath.same_iff.mpr rfl⟩

theorem addNew_pairwise (new : List FilePath) :
    (addNew [] new).Pairwise fun a b => a.same b = false := by
  induction new using List.reverseRecOn with
  | nil => exact .nil
  | append_singleton new file ih =>
    rw [addNew_concat]
    split
    · exact ih
    · rename_i hany
      rw [Bool.not_eq_true, List.any_eq_false] at hany
      refine List.pairwise_append.mpr ⟨ih, List.pairwise_singleton _ _, fun a ha b hb => ?_⟩
      rw [List.mem_singleton.mp hb, Bool.eq_false_iff]
      intro hsame
      exact hany a ha (FilePath.same_iff.mpr (FilePath.same_iff.mp hsame).symm)

/-- All patterns are expanded, unless one is bad. -/
theorem filesFrom_eq (fs : FileSystem) (base : FilePath) (patterns : List String) :
    ∀ files, filesFrom fs base files patterns =
      match patterns.mapM (Pattern.expand fs base) with
      | .error error => .error error
      | .ok found => .ok (addNew files found.flatten) := by
  induction patterns with
  | nil => intro files; rfl
  | cons pattern rest ih =>
    intro files
    rw [filesFrom, mapM_cons_eq]
    cases Pattern.expand fs base pattern with
    | error error => rfl
    | ok new =>
      simp only [ih]
      cases rest.mapM (Pattern.expand fs base) with
      | error error => rfl
      | ok found => simp only [List.flatten_cons, addNew_append]

end ThemeFiles

/-! ## Theme files -/

/-- All entries of some collections, in order. -/
def Collection.allEntries (layers : List Collection) : List (String × Theme) :=
  layers.flatMap fun layer => layer.entries

theorem layerFiles_eq (fs : FileSystem) (paths : List FilePath) :
    ∀ themes : Collection, Collection.layerFiles fs themes paths =
      match paths.mapM (Collection.ofFile fs) with
      | .error error => .error error
      | .ok layers => .ok (themes.insertAll (Collection.allEntries layers)) := by
  induction paths with
  | nil => intro themes; rfl
  | cons path rest ih =>
    intro themes
    rw [Collection.layerFiles, mapM_cons_eq]
    cases Collection.ofFile fs path with
    | error error => rfl
    | ok loaded =>
      simp only [ih]
      cases rest.mapM (Collection.ofFile fs) with
      | error error => rfl
      | ok layers =>
        simp only [Collection.allEntries, List.flatMap_cons, OrderedMap.insertAll_append]
        rfl

/-! ## What loading can fail with -/

/-- The error is about a pattern, a file or a preset. -/
def Error.ofSource : Error → Bool
  | .presetNotFound _ | .badPattern .. | .unreadable .. | .invalid .. => true
  | .noThemes | .unknownProperty .. | .noUtilities => false

theorem load_error {α : Type} {fs : FileSystem} {path : FilePath}
    {read : String → Except Yaml.Fault α} {error : Error} (h : fs.load path read = .error error) :
    error.ofSource = true := by
  unfold FileSystem.load at h
  split at h
  · cases h; rfl
  · split at h <;> cases h
    rfl

theorem layerFiles_error {fs : FileSystem} {paths : List FilePath} {themes : Collection}
    {error : Error} (h : Collection.layerFiles fs themes paths = .error error) :
    error.ofSource = true := by
  rw [layerFiles_eq] at h
  split at h
  · rename_i hm; cases h
    obtain ⟨path, _, hp⟩ := exists_of_mapM_error hm
    exact load_error hp
  · cases h

theorem expand_error {fs : FileSystem} {base : FilePath} {pattern : String} {error : Error}
    (h : Pattern.expand fs base pattern = .error error) : error.ofSource = true := by
  simp only [Pattern.expand] at h
  split at h
  · cases h
  · split at h <;> cases h
    rfl

theorem registry_load_error {registry : PresetRegistry} {fs : FileSystem} {name : String}
    {error : Error} (h : registry.load fs name = .error error) : error.ofSource = true := by
  unfold PresetRegistry.load at h
  split at h
  · rename_i hr; cases h
    unfold PresetRegistry.resolve at hr
    split at hr
    · cases hr
    · split at hr <;> cases hr
      rfl
  · rename_i place _
    cases place with
    | inline themes => cases h
    | file path => exact load_error h
    | directory path => exact layerFiles_error h

end ThemeRules
