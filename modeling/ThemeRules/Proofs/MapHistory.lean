import ThemeRules.Proofs.Layering
import ThemeRules.Style.Component

/-!
# ThemeRules.Proofs.MapHistory

What an ordered map is after a run of steps: insertions, layers, selections and whole constructions. All of
them come down to two kinds of events, a key that is inserted and keys that are kept while the others are
removed (`step_eq_foldl`). A key has the value of its latest insertion, if it has not been removed since,
and the keys stand in the order in which they came in, that is, were inserted while they were absent
(`run_recalls`). Theme collections and compiled components are both such maps.
-/

namespace ThemeRules

universe u

namespace OrderedMap

variable {α : Type u}

/-- What can be done to a map; of a component, only the first two are. -/
inductive Step (α : Type u) where
  | insert (key : String) (value : α)
  | merge (other : OrderedMap α)
  | select (keys : List String)
  | build (pairs : List (String × α))

def step (map : OrderedMap α) : Step α → OrderedMap α
  | .insert key value => map.insert key value
  | .merge other => map.merge other
  | .select keys => map.filter keys.contains
  | .build pairs => ofList pairs

theorem step_select (themes : Collection) (names : List String) :
    step themes (.select names) = Collection.select themes names := rfl

/-- Takes steps one after the other. -/
def run (map : OrderedMap α) (steps : List (Step α)) : OrderedMap α := steps.foldl step map

/-! ## Events -/

/-- What happens to keys: one is inserted, or all but some are removed. -/
inductive Event (α : Type u) where
  | inserted (key : String) (value : α)
  | kept (keys : List String)

namespace Event

def Inserts (key : String) : Event α → Prop
  | .inserted k _ => k = key
  | .kept _ => False

def Removes (key : String) : Event α → Prop
  | .inserted _ _ => False
  | .kept keys => key ∉ keys

end Event

/-- The events of a step. A construction removes all keys that have been there. -/
def Step.events : Step α → List (Event α)
  | .insert key value => [.inserted key value]
  | .merge other => other.entries.map fun e => .inserted e.1 e.2
  | .select keys => [.kept keys]
  | .build pairs => .kept [] :: pairs.map fun e => .inserted e.1 e.2

def history (steps : List (Step α)) : List (Event α) := steps.flatMap Step.events

def apply (map : OrderedMap α) : Event α → OrderedMap α
  | .inserted key value => map.insert key value
  | .kept keys => map.filter keys.contains

theorem foldl_inserted (map : OrderedMap α) (entries : List (String × α)) :
    (entries.map fun e => Event.inserted e.1 e.2).foldl apply map = map.insertAll entries := by
  rw [List.foldl_map]
  rfl

theorem filter_none (map : OrderedMap α) : (map.filter ([] : List String).contains) = empty :=
  ext_entries (List.filter_eq_nil_iff.mpr fun _ _ => by simp)

theorem step_eq_foldl (map : OrderedMap α) (s : Step α) : map.step s = s.events.foldl apply map := by
  cases s with
  | insert key value => rfl
  | merge other => rw [Step.events, foldl_inserted]; rfl
  | select keys => rfl
  | build pairs =>
    rw [Step.events, List.foldl_cons, foldl_inserted, apply, filter_none]
    rfl

theorem run_eq_foldl (steps : List (Step α)) :
    ∀ map : OrderedMap α, map.run steps = (history steps).foldl apply map := by
  induction steps with
  | nil => intro map; rfl
  | cons s rest ih =>
    intro map
    rw [history, List.flatMap_cons, List.foldl_append, ← step_eq_foldl]
    exact ih _

/-! ## Insertions that count -/

/-- The key was inserted with this value, and neither inserted again nor removed since. -/
def Latest (events : List (Event α)) (key : String) (value : α) : Prop :=
  ∃ before after, events = before ++ .inserted key value :: after ∧
    ∀ e ∈ after, ¬ e.Inserts key ∧ ¬ e.Removes key

/-- The key was inserted at this time, while it was absent, and has not been removed since. -/
def Entered (events : List (Event α)) (key : String) (time : Nat) : Prop :=
  ∃ before value after, events = before ++ .inserted key value :: after ∧ before.length = time ∧
    (∀ v, ¬ Latest before key v) ∧ ∀ e ∈ after, ¬ e.Removes key

/-- The last of some events is the one in the middle, or it comes after that. -/
theorem concat_eq_append_cons {β : Type u} {events before after : List β} {last e : β} :
    events ++ [last] = before ++ e :: after ↔
      (after = [] ∧ before = events ∧ e = last) ∨
        ∃ rest, after = rest ++ [last] ∧ events = before ++ e :: rest := by
  rcases List.eq_nil_or_concat after with rfl | ⟨rest, x, rfl⟩
  · constructor
    · intro h
      obtain ⟨hbefore, he⟩ := List.append_inj' h rfl
      exact .inl ⟨rfl, hbefore.symm, (List.cons.inj he).1.symm⟩
    · rintro (⟨-, rfl, rfl⟩ | ⟨rest, hrest, -⟩)
      · rfl
      · simp at hrest
  · rw [List.concat_eq_append, ← List.cons_append, ← List.append_assoc]
    constructor
    · intro h
      obtain ⟨hevents, hlast⟩ := List.append_inj' h rfl
      exact .inr ⟨rest, by rw [(List.cons.inj hlast).1], hevents⟩
    · rintro (⟨hnil, -, -⟩ | ⟨rest', hrest, rfl⟩)
      · simp at hnil
      · obtain ⟨rfl, hlast⟩ := List.append_inj' hrest rfl
        rw [(List.cons.inj hlast).1]

theorem latest_concat {events : List (Event α)} {e : Event α} {key : String} {value : α} :
    Latest (events ++ [e]) key value ↔
      e = .inserted key value ∨ Latest events key value ∧ ¬ e.Inserts key ∧ ¬ e.Removes key := by
  constructor
  · rintro ⟨before, after, hevents, hafter⟩
    rcases concat_eq_append_cons.mp hevents with ⟨-, -, he⟩ | ⟨rest, rfl, hrest⟩
    · exact .inl he.symm
    · exact .inr ⟨⟨before, rest, hrest, fun x hx => hafter x (List.mem_append_left _ hx)⟩,
        hafter e (List.mem_append_right _ (List.mem_singleton_self e))⟩
  · rintro (rfl | ⟨⟨before, after, rfl, hafter⟩, he⟩)
    · exact ⟨events, [], rfl, fun x hx => by cases hx⟩
    · refine ⟨before, after ++ [e], by simp, fun x hx => ?_⟩
      rcases List.mem_append.mp hx with hx | hx
      · exact hafter x hx
      · rwa [List.mem_singleton.mp hx]

theorem entered_concat {events : List (Event α)} {e : Event α} {key : String} {time : Nat} :
    Entered (events ++ [e]) key time ↔
      (time = events.length ∧ e.Inserts key ∧ ∀ v, ¬ Latest events key v) ∨
        Entered events key time ∧ ¬ e.Removes key := by
  constructor
  · rintro ⟨before, value, after, hevents, rfl, habsent, hafter⟩
    rcases concat_eq_append_cons.mp hevents with ⟨-, rfl, rfl⟩ | ⟨rest, rfl, hrest⟩
    · exact .inl ⟨rfl, rfl, habsent⟩
    · exact .inr ⟨⟨before, value, rest, hrest, rfl, habsent,
        fun x hx => hafter x (List.mem_append_left _ hx)⟩,
        hafter e (List.mem_append_right _ (List.mem_singleton_self e))⟩
  · rintro (⟨rfl, he, habsent⟩ | ⟨⟨before, value, after, rfl, rfl, habsent, hafter⟩, he⟩)
    · cases e with
      | inserted k v =>
        obtain rfl : k = key := he
        exact ⟨events, v, [], rfl, rfl, habsent, fun x hx => by cases hx⟩
      | kept keys => exact he.elim
    · refine ⟨before, value, after ++ [e], by simp, rfl, habsent, fun x hx => ?_⟩
      rcases List.mem_append.mp hx with hx | hx
      · exact hafter x hx
      · rwa [List.mem_singleton.mp hx]

theorem Entered.lt_length {events : List (Event α)} {key : String} {time : Nat}
    (h : Entered events key time) : time < events.length := by
  obtain ⟨before, value, after, rfl, rfl, -, -⟩ := h
  simp

/-- What has come in is still there. -/
theorem Entered.exists_latest {events : List (Event α)} {key : String} {time : Nat}
    (h : Entered events key time) : ∃ value, Latest events key value := by
  induction events using List.reverseRecOn with
  | nil => exact absurd h.lt_length (Nat.not_lt_zero _)
  | append_singleton events e ih =>
    cases e with
    | inserted k v =>
      by_cases hk : k = key
      · subst hk
        exact ⟨v, latest_concat.mpr (.inl rfl)⟩
      · rcases entered_concat.mp h with ⟨-, he, -⟩ | ⟨hold, he⟩
        · exact absurd he hk
        · obtain ⟨value, hvalue⟩ := ih hold
          exact ⟨value, latest_concat.mpr (.inr ⟨hvalue, hk, he⟩)⟩
    | kept keys =>
      rcases entered_concat.mp h with ⟨-, he, -⟩ | ⟨hold, he⟩
      · exact he.elim
      · obtain ⟨value, hvalue⟩ := ih hold
        exact ⟨value, latest_concat.mpr (.inr ⟨hvalue, id, he⟩)⟩

/-! ## What a map recalls -/

/-- The map holds what is left of some events. -/
structure Recalls (map : OrderedMap α) (events : List (Event α)) : Prop where
  nodup : map.keys.Nodup
  get?_iff : ∀ key value, map.get? key = some value ↔ Latest events key value
  entered : ∀ key ∈ map.keys, ∃ time, Entered events key time
  ordered : map.keys.Pairwise fun first second =>
    ∀ s t, Entered events first s → Entered events second t → s < t

theorem Recalls.mem_keys {map : OrderedMap α} {events : List (Event α)} (h : Recalls map events)
    {key : String} : key ∈ map.keys ↔ ∃ value, Latest events key value := by
  simp only [mem_keys_iff, h.get?_iff]

/-- A key that is there has come in earlier than the next event. -/
theorem Recalls.entered_earlier {map : OrderedMap α} {events : List (Event α)} (h : Recalls map events)
    {e : Event α} {key : String} (hkey : key ∈ map.keys) {time : Nat}
    (ht : Entered (events ++ [e]) key time) : Entered events key time := by
  rcases entered_concat.mp ht with ⟨-, -, habsent⟩ | ⟨hold, -⟩
  · obtain ⟨value, hvalue⟩ := h.mem_keys.mp hkey
    exact absurd hvalue (habsent value)
  · exact hold

theorem Recalls.ordered_earlier {map : OrderedMap α} {events : List (Event α)} (h : Recalls map events)
    (e : Event α) : map.keys.Pairwise fun first second =>
      ∀ s t, Entered (events ++ [e]) first s → Entered (events ++ [e]) second t → s < t :=
  h.ordered.imp_of_mem fun ha hb hab s t hs ht =>
    hab s t (h.entered_earlier ha hs) (h.entered_earlier hb ht)

theorem Recalls.insert {map : OrderedMap α} {events : List (Event α)} (h : Recalls map events)
    (key : String) (value : α) :
    Recalls (map.insert key value) (events ++ [.inserted key value]) := by
  refine ⟨nodup_keys _, fun k v => ?_, fun k hk => ?_, ?_⟩
  · rw [get?_insert, latest_concat]
    by_cases hk : k = key
    · subst hk
      simp [Event.Inserts]
    · have hk' : ¬ key = k := fun h => hk h.symm
      simp [hk, hk', h.get?_iff, Event.Inserts, Event.Removes]
  · by_cases hold : k ∈ map.keys
    · obtain ⟨time, ht⟩ := h.entered k hold
      exact ⟨time, entered_concat.mpr (.inr ⟨ht, id⟩)⟩
    · have hkey : k = key := by
        rw [keys_insert] at hk
        split at hk
        · exact absurd hk hold
        · exact List.mem_singleton.mp ((List.mem_append.mp hk).resolve_left hold)
      have habsent : ∀ v, ¬ Latest events k v := fun v hv => hold (h.mem_keys.mpr ⟨v, hv⟩)
      exact ⟨events.length, entered_concat.mpr (.inl ⟨rfl, hkey.symm, habsent⟩)⟩
  · rw [keys_insert]
    split
    · exact h.ordered_earlier _
    · rename_i hnew
      refine List.pairwise_append.mpr ⟨h.ordered_earlier _, List.pairwise_singleton _ _, ?_⟩
      intro first hfirst second hsecond s t hs ht
      rw [List.mem_singleton.mp hsecond] at ht
      have hlt := (h.entered_earlier hfirst hs).lt_length
      rcases entered_concat.mp ht with ⟨rfl, -, -⟩ | ⟨hold, -⟩
      · exact hlt
      · exact absurd (h.mem_keys.mpr hold.exists_latest) hnew

theorem Recalls.filter {map : OrderedMap α} {events : List (Event α)} (h : Recalls map events)
    (keys : List String) : Recalls (map.filter keys.contains) (events ++ [.kept keys]) := by
  refine ⟨nodup_keys _, fun k v => ?_, fun k hk => ?_, ?_⟩
  · rw [get?_filter, latest_concat]
    by_cases hk : k ∈ keys <;> simp [hk, h.get?_iff, Event.Inserts, Event.Removes]
  · rw [keys_filter, List.mem_filter] at hk
    obtain ⟨time, ht⟩ := h.entered k hk.1
    exact ⟨time, entered_concat.mpr (.inr ⟨ht, fun hn => hn (List.contains_iff_mem.mp hk.2)⟩)⟩
  · rw [keys_filter]
    exact (h.ordered_earlier _).filter _

theorem Recalls.apply {map : OrderedMap α} {events : List (Event α)} (h : Recalls map events)
    (e : Event α) : Recalls (map.apply e) (events ++ [e]) := by
  cases e with
  | inserted key value => exact h.insert key value
  | kept keys => exact h.filter keys

theorem recalls_foldl (events : List (Event α)) : Recalls (events.foldl apply empty) events := by
  induction events using List.reverseRecOn with
  | nil =>
    refine ⟨List.nodup_nil, fun key value => ?_, fun key hkey => (by cases hkey), .nil⟩
    constructor
    · intro h
      cases h
    · rintro ⟨before, after, h, -⟩
      simp at h
  | append_singleton events e ih =>
    rw [List.foldl_append]
    exact ih.apply e

/-- After any steps from nothing, the keys are different; each has the value of its latest insertion,
and they stand in the order in which they came in. An insertion moves no key that is there, and puts
a key that is not behind all others. -/
theorem run_recalls (steps : List (Step α)) :
    Recalls (run empty steps) (history steps) ∧
      ∀ key value, (run empty (steps ++ [.insert key value])).keys =
        if key ∈ (run empty steps).keys then (run empty steps).keys
        else (run empty steps).keys ++ [key] := by
  constructor
  · rw [run_eq_foldl]
    exact recalls_foldl (history steps)
  · intro key value
    rw [run, List.foldl_append]
    exact keys_insert _ key value

/-- A card that is removed and comes back with another definition. -/
def movedCard : List (Step Theme) :=
  [.build [("card", .named "first"), ("grid", .named "grid")], .select ["grid"],
    .merge (.ofList [("card", .named "second")])]

theorem movedCard_recalled :
    (run empty movedCard).keys = ["grid", "card"] ∧
      (run empty movedCard).get? "card" = some (.named "second") := by
  obtain ⟨h, -⟩ := run_recalls movedCard
  refine ⟨by decide, (h.get?_iff _ _).mpr ⟨(history movedCard).take 4, [], rfl, ?_⟩⟩
  intro e he
  cases he

end OrderedMap
end ThemeRules
