import ThemeRules.Proofs.Layering
import ThemeRules.Source.Preset

/-!
# ThemeRules.Proofs.PresetLookup

Where a registry finds a preset after any run of registrations. What was registered last with its content
counts; if nothing was, the places that may hold the preset are compared by their search directories first
and by their forms second, and the first of them at which there is something counts (`run_resolve`).

All places stand in one list, the forms of the first directory before those of the next. A place is known
by its number in that list, so that the order of places is an order of numbers (`before_iff_position`).
-/

namespace ThemeRules
namespace PresetRegistry

/-! ## Registrations -/

inductive Step where
  | addInline (name : String) (themes : Collection)
  | addYaml (name text : String)
  | addSearchDir (directory : FilePath)
  | withSearchDirs (directories : List FilePath)

def step (registry : PresetRegistry) : Step → PresetRegistry × Except Error Unit
  | .addInline name themes => (registry.addInline name themes, .ok ())
  | .addYaml name text => registry.addYaml name text
  | .addSearchDir directory => (registry.addSearchDirs [directory], .ok ())
  | .withSearchDirs directories => (registry.addSearchDirs directories, .ok ())

def run (registry : PresetRegistry) (steps : List Step) : PresetRegistry :=
  steps.foldl (fun registry s => (registry.step s).1) registry

def Step.registered? (name : String) : Step → Option Collection
  | .addInline n themes => if n = name then some themes else none
  | .addYaml n text => if n = name then (Collection.ofYaml text).toOption else none
  | .addSearchDir _ | .withSearchDirs _ => none

def Step.directories : Step → List FilePath
  | .addInline .. | .addYaml .. => []
  | .addSearchDir directory => [directory]
  | .withSearchDirs directories => directories

def lastRegistered? (steps : List Step) (name : String) : Option Collection :=
  steps.reverse.findSome? (Step.registered? name)

theorem get?_addInline (registry : PresetRegistry) (n : String) (themes : Collection)
    (name : String) :
    (registry.addInline n themes).inline.get? name =
      (if n = name then some themes else none).or (registry.inline.get? name) := by
  rw [addInline, OrderedMap.get?_insert]
  by_cases h : n = name
  · simp [h]
  · have h' : ¬ name = n := fun hn => h hn.symm
    simp [h, h']

theorem get?_step (registry : PresetRegistry) (s : Step) (name : String) :
    (registry.step s).1.inline.get? name =
      (s.registered? name).or (registry.inline.get? name) := by
  cases s with
  | addInline n themes => exact get?_addInline registry n themes name
  | addYaml n text =>
    simp only [step, addYaml, Step.registered?]
    cases Collection.ofYaml text with
    | error fault => simp [Except.toOption]
    | ok themes => exact get?_addInline registry n themes name
  | addSearchDir directory => rfl
  | withSearchDirs directories => rfl

theorem searchDirs_step (registry : PresetRegistry) (s : Step) :
    (registry.step s).1.searchDirs = registry.searchDirs ++ s.directories := by
  cases s with
  | addInline n themes => exact (List.append_nil _).symm
  | addYaml n text =>
    simp only [step, addYaml, Step.directories, List.append_nil]
    cases Collection.ofYaml text <;> rfl
  | addSearchDir directory => rfl
  | withSearchDirs directories => rfl

theorem get?_run (registry : PresetRegistry) (steps : List Step) (name : String) :
    (registry.run steps).inline.get? name =
      (lastRegistered? steps name).or (registry.inline.get? name) := by
  induction steps using List.reverseRecOn with
  | nil => rfl
  | append_singleton steps s ih =>
    rw [run, List.foldl_append, List.foldl_cons, List.foldl_nil, get?_step, lastRegistered?,
      List.reverse_concat, List.findSome?_cons]
    cases s.registered? name with
    | none => exact ih
    | some themes => rfl

theorem searchDirs_run (registry : PresetRegistry) (steps : List Step) :
    (registry.run steps).searchDirs = registry.searchDirs ++ steps.flatMap Step.directories := by
  induction steps using List.reverseRecOn with
  | nil => exact (List.append_nil _).symm
  | append_singleton steps s ih =>
    rw [run, List.foldl_append, List.foldl_cons, List.foldl_nil, searchDirs_step,
      List.flatMap_append, List.flatMap_singleton, ← List.append_assoc]
    exact congrArg (· ++ s.directories) ih

/-- A step that is refused changes nothing. -/
theorem step_error {registry : PresetRegistry} {s : Step} {error : Error}
    (h : (registry.step s).2 = .error error) : (registry.step s).1 = registry := by
  cases s with
  | addYaml name text =>
    simp only [step, addYaml] at h ⊢
    cases hread : Collection.ofYaml text with
    | error fault => rfl
    | ok themes => rw [hread] at h; cases h
  | addInline | addSearchDir | withSearchDirs => cases h

/-! ## Places -/

/-- What a preset may be in a search directory. -/
inductive Form where
  | yaml
  | yml
  | json
  | directory

namespace Form

/-- Forms of a lower rank go first. -/
def rank : Form → Nat
  | .yaml => 0
  | .yml => 1
  | .json => 2
  | .directory => 3

def place (form : Form) (directory : FilePath) (name : String) : PresetPlace :=
  match form with
  | .yaml => .file (directory.join (.ofString (name ++ ".yaml")))
  | .yml => .file (directory.join (.ofString (name ++ ".yml")))
  | .json => .file (directory.join (.ofString (name ++ ".json")))
  | .directory => .directory (directory.join (.ofString name))

theorem rank_lt (form : Form) : form.rank < 4 := by
  cases form <;> decide

theorem exists_rank {n : Nat} (h : n < 4) : ∃ form : Form, form.rank = n := by
  match n with
  | 0 => exact ⟨.yaml, rfl⟩
  | 1 => exact ⟨.yml, rfl⟩
  | 2 => exact ⟨.json, rfl⟩
  | 3 => exact ⟨.directory, rfl⟩

end Form

/-- A form in the search directory with an index. -/
structure Candidate where
  index : Nat
  form : Form

namespace Candidate

/-- The place of a candidate, if there is such a directory. -/
def place? (candidate : Candidate) (directories : List FilePath) (name : String) :
    Option PresetPlace :=
  directories[candidate.index]?.map fun directory => candidate.form.place directory name

/-- Directories come first, forms second. -/
def Before (first second : Candidate) : Prop :=
  first.index < second.index ∨ first.index = second.index ∧ first.form.rank < second.form.rank

/-- There is something at the place of the candidate. -/
def Exists (fs : FileSystem) (directories : List FilePath) (name : String)
    (candidate : Candidate) : Prop :=
  ∃ place, candidate.place? directories name = some place ∧ PresetPlace.present fs place = true

/-- The number of a candidate among all of them. -/
def position (candidate : Candidate) : Nat := 4 * candidate.index + candidate.form.rank

theorem before_iff_position {first second : Candidate} :
    first.Before second ↔ first.position < second.position := by
  have hfirst := first.form.rank_lt
  have hsecond := second.form.rank_lt
  unfold Before position
  omega

theorem exists_position (n : Nat) : ∃ candidate : Candidate, candidate.position = n := by
  obtain ⟨form, hform⟩ := Form.exists_rank (Nat.mod_lt n (show 0 < 4 by decide))
  refine ⟨⟨n / 4, form⟩, ?_⟩
  rw [position, hform]
  exact Nat.div_add_mod n 4

end Candidate

theorem candidates_rank (directory : FilePath) (name : String) (form : Form) :
    (candidates directory name)[form.rank]? = some (form.place directory name) := by
  cases form <;> simp [candidates, themeEndings, Form.rank, Form.place, FilePath.ofString]

/-- The places of all search directories, in the order in which they are tried. -/
def places (directories : List FilePath) (name : String) : List PresetPlace :=
  directories.flatMap (candidates · name)

theorem place?_eq (directories : List FilePath) (name : String) (candidate : Candidate) :
    candidate.place? directories name = (places directories name)[candidate.position]? := by
  obtain ⟨index, form⟩ := candidate
  induction directories generalizing index with
  | nil => rfl
  | cons directory rest ih =>
    have hlength : (candidates directory name).length = 4 := rfl
    have hrank := form.rank_lt
    rw [places, List.flatMap_cons]
    cases index with
    | zero =>
      have hposition : Candidate.position ⟨0, form⟩ = form.rank := by simp [Candidate.position]
      rw [hposition, List.getElem?_append_left (by omega), candidates_rank]
      rfl
    | succ index =>
      have hposition : Candidate.position ⟨index + 1, form⟩ - (candidates directory name).length =
          Candidate.position ⟨index, form⟩ := by
        simp only [Candidate.position, hlength]
        omega
      rw [List.getElem?_append_right (by simp only [Candidate.position]; omega), hposition]
      exact ih index

/-! ## The first place -/

/-- The candidate is the first at whose place there is something. -/
def First (fs : FileSystem) (directories : List FilePath) (name : String) (candidate : Candidate)
    (place : PresetPlace) : Prop :=
  candidate.place? directories name = some place ∧ PresetPlace.present fs place = true ∧
    ∀ other : Candidate, other.Before candidate → ¬ other.Exists fs directories name

section Search

variable (fs : FileSystem) (directories : List FilePath) (name : String)

theorem exists_iff_getElem? (candidate : Candidate) :
    candidate.Exists fs directories name ↔
      ∃ place, (places directories name)[candidate.position]? = some place ∧
        PresetPlace.present fs place = true := by
  simp only [Candidate.Exists, place?_eq]

theorem find?_eq_some (place : PresetPlace) :
    (places directories name).find? (PresetPlace.present fs) = some place ↔
      ∃ candidate, First fs directories name candidate place := by
  rw [List.find?_eq_some_iff_getElem]
  constructor
  · rintro ⟨hpresent, n, hn, rfl, hbefore⟩
    obtain ⟨candidate, rfl⟩ := Candidate.exists_position n
    refine ⟨candidate, (place?_eq ..).trans (List.getElem?_eq_getElem hn), hpresent, ?_⟩
    intro other hother hexists
    obtain ⟨place, hplace, hpresent⟩ := (exists_iff_getElem? ..).mp hexists
    obtain ⟨_, rfl⟩ := List.getElem?_eq_some_iff.mp hplace
    have := hbefore _ (Candidate.before_iff_position.mp hother)
    rw [hpresent] at this
    cases this
  · rintro ⟨candidate, hplace, hpresent, hfirst⟩
    rw [place?_eq] at hplace
    obtain ⟨hn, rfl⟩ := List.getElem?_eq_some_iff.mp hplace
    refine ⟨hpresent, candidate.position, hn, rfl, fun n hlt => ?_⟩
    obtain ⟨other, rfl⟩ := Candidate.exists_position n
    rw [Bool.not_eq_true', Bool.eq_false_iff]
    intro hother
    refine hfirst other (Candidate.before_iff_position.mpr hlt) ((exists_iff_getElem? ..).mpr ?_)
    exact ⟨_, List.getElem?_eq_getElem (Nat.lt_trans hlt hn), hother⟩

theorem find?_eq_none :
    (places directories name).find? (PresetPlace.present fs) = none ↔
      ∀ candidate : Candidate, ¬ candidate.Exists fs directories name := by
  rw [List.find?_eq_none]
  constructor
  · intro h candidate hexists
    obtain ⟨place, hplace, hpresent⟩ := (exists_iff_getElem? ..).mp hexists
    exact h place (List.mem_of_getElem? hplace) hpresent
  · intro h place hmem hpresent
    obtain ⟨n, hn⟩ := List.mem_iff_getElem?.mp hmem
    obtain ⟨candidate, rfl⟩ := Candidate.exists_position n
    exact h candidate ((exists_iff_getElem? ..).mpr ⟨place, hn, hpresent⟩)

end Search

theorem resolve_inline {registry : PresetRegistry} {name : String} {themes : Collection}
    (h : registry.inline.get? name = some themes) (fs : FileSystem) :
    registry.resolve fs name = .ok (.inline themes) := by
  rw [resolve, h]

theorem resolve_searched {registry : PresetRegistry} {name : String}
    (h : registry.inline.get? name = none) (fs : FileSystem) (place : PresetPlace) :
    registry.resolve fs name = .ok place ↔
      (places registry.searchDirs name).find? (PresetPlace.present fs) = some place := by
  simp only [resolve, h, places]
  split
  · rename_i hfound
    rw [hfound, Except.ok.injEq, Option.some.injEq]
  · rename_i hmissing
    rw [hmissing]
    exact ⟨fun h => (by cases h), fun h => (by cases h)⟩

theorem resolve_missing {registry : PresetRegistry} {name : String}
    (h : registry.inline.get? name = none) (fs : FileSystem) :
    registry.resolve fs name = .error (.presetNotFound name) ↔
      (places registry.searchDirs name).find? (PresetPlace.present fs) = none := by
  simp only [resolve, h, places]
  split
  · rename_i hfound
    rw [hfound]
    exact ⟨fun h => (by cases h), fun h => (by cases h)⟩
  · rename_i hmissing
    exact ⟨fun _ => hmissing, fun _ => rfl⟩

/-- Directories that are searched last do not matter for a preset that is found without them. -/
theorem resolve_addSearchDirs {registry : PresetRegistry} {fs : FileSystem} {name : String}
    {place : PresetPlace} (h : registry.resolve fs name = .ok place)
    (directories : List FilePath) :
    (registry.addSearchDirs directories).resolve fs name = .ok place := by
  cases hinline : registry.inline.get? name with
  | some themes =>
    rw [resolve_inline hinline] at h
    cases h
    exact resolve_inline (by exact hinline) fs
  | none =>
    have hplaces : places (registry.addSearchDirs directories).searchDirs name =
        places registry.searchDirs name ++ places directories name := List.flatMap_append
    rw [resolve_searched hinline] at h
    rw [resolve_searched (by exact hinline), hplaces, List.find?_append, h, Option.some_or]

theorem load_of_resolve {registry : PresetRegistry} {fs : FileSystem} {name : String}
    {place : PresetPlace} (h : registry.resolve fs name = .ok place) :
    registry.load fs name = place.load fs := by
  rw [load, h]

/-- After any registrations, a preset that was registered with its content is what was registered last.
Any other is found at the first place with something in it, search directories compared first, and is
missing if there is none. A refused registration changes nothing, and neither do further search
directories for a preset that has been found. -/
theorem run_resolve (steps : List Step) (fs : FileSystem) (name : String) :
    (match lastRegistered? steps name with
      | some themes => (run empty steps).resolve fs name = .ok (.inline themes)
      | none =>
        (∀ place, (run empty steps).resolve fs name = .ok place ↔
          ∃ candidate, First fs (steps.flatMap Step.directories) name candidate place) ∧
        ((run empty steps).resolve fs name = .error (.presetNotFound name) ↔
          ∀ candidate : Candidate,
            ¬ candidate.Exists fs (steps.flatMap Step.directories) name)) ∧
      (∀ s error, ((run empty steps).step s).2 = .error error →
        ((run empty steps).step s).1 = run empty steps) ∧
      ∀ directories place, (run empty steps).resolve fs name = .ok place →
        ((run empty steps).addSearchDirs directories).resolve fs name = .ok place ∧
          ((run empty steps).addSearchDirs directories).load fs name =
            (run empty steps).load fs name := by
  refine ⟨?_, fun s error => step_error, fun directories place h => ?_⟩
  · have hinline : (run empty steps).inline.get? name = lastRegistered? steps name :=
      (get?_run empty steps name).trans (Option.or_none ..)
    split
    · rename_i themes hlast
      exact resolve_inline (hinline.trans hlast) fs
    · rename_i hlast
      have hdirs : (run empty steps).searchDirs = steps.flatMap Step.directories :=
        (searchDirs_run empty steps).trans (List.nil_append _)
      rw [resolve_missing (hinline.trans hlast), hdirs, find?_eq_none]
      refine ⟨fun place => ?_, Iff.rfl⟩
      rw [resolve_searched (hinline.trans hlast), hdirs, find?_eq_some]
  · have hmore := resolve_addSearchDirs h directories
    exact ⟨hmore, by rw [load_of_resolve hmore, load_of_resolve h]⟩

/-- A directory with the name of a theme file, a preset directory beside it, and a theme file of that
name elsewhere. -/
def confusingForms : FileSystem where
  root := .directory [
    ("first".toList, .directory [
      ("forms.yaml".toList, .directory []), ("forms".toList, .directory [])]),
    ("second".toList, .directory [("forms.yaml".toList, .file .empty)])]
  workingDirectory := .ofString "/"

def formSteps : List Step :=
  [.addSearchDir (.ofString "/first"), .addYaml "form" "input: [",
    .withSearchDirs [.ofString "/second"]]

/-- The preset directory comes first: the other one is no file, and the file is in a later search
directory. -/
theorem confusingForms_resolve :
    lastRegistered? formSteps "forms" = none ∧
      (run empty formSteps).resolve confusingForms "forms" =
        .ok (.directory (.ofString "/first/forms")) ∧
      ((run empty formSteps).addSearchDirs [.ofString "/third"]).resolve confusingForms "forms" =
        .ok (.directory (.ofString "/first/forms")) := by
  have hlast : lastRegistered? formSteps "forms" = none := by rfl
  obtain ⟨hfound, -, hmore⟩ := run_resolve formSteps confusingForms "forms"
  rw [hlast] at hfound
  have hresolve : (run empty formSteps).resolve confusingForms "forms" =
      .ok (.directory (.ofString "/first/forms")) := by
    refine (hfound.1 _).mpr ⟨⟨0, .directory⟩, by rfl, by decide +kernel, ?_⟩
    rintro ⟨index, form⟩ hbefore ⟨place, hplace, hpresent⟩
    rcases hbefore with hindex | ⟨hindex, hrank⟩
    · cases hindex
    · subst hindex
      cases hplace
      revert hrank hpresent
      cases form <;> decide +kernel
  exact ⟨hlast, hresolve, (hmore _ _ hresolve).1⟩

end PresetRegistry
end ThemeRules
