import Mathlib.Data.List.Induction
import ThemeRules.OrderedMap

/-!
# ThemeRules.Proofs.Layering

Ordered maps by what can be seen of them: their keys, in order, and the value of each key. Both are
given here for every way of building a map. Inserting a list of entries leaves the keys in the order in
which each is first seen, and under each key the value that comes last (`keys_insertAll`,
`get?_insertAll`). Two maps that agree on both are equal (`ext_get?`), so layering maps over each other
is the same as inserting all their entries one after the other (`merge_ofList`).
-/

namespace ThemeRules

universe u

/-! ## Entries -/

theorem lookup_cons_of_ne {α : Type u} {key k : String} (value : α) (rest : List (String × α))
    (h : k ≠ key) : ((key, value) :: rest).lookup k = rest.lookup k := by
  have hb : (k == key) = false := by simpa using h
  simp only [List.lookup_cons, hb]

theorem lookup_eq_none_of_not_mem {α : Type u} {entries : List (String × α)} {k : String}
    (h : k ∉ entries.map Prod.fst) : entries.lookup k = none := by
  rw [List.lookup_eq_none_iff]
  intro e he
  have hk : k ≠ e.1 := fun hke => h (hke ▸ List.mem_map_of_mem he)
  simpa using hk

theorem mem_of_lookup {α : Type u} {entries : List (String × α)} {k : String} {value : α}
    (h : entries.lookup k = some value) : (k, value) ∈ entries := by
  obtain ⟨before, after, rfl, -⟩ := List.lookup_eq_some_iff.mp h
  exact List.mem_append_right _ List.mem_cons_self

theorem lookup_upsert {α : Type u} (key : String) (value : α) (entries : List (String × α))
    (k : String) :
    (upsert key value entries).lookup k = if k = key then some value else entries.lookup k := by
  induction entries with
  | nil =>
    by_cases h : k = key
    · simp [upsert, h]
    · rw [upsert, lookup_cons_of_ne _ _ h, if_neg h]
  | cons e rest ih =>
    obtain ⟨k', v'⟩ := e
    by_cases hk : k' = key
    · subst hk
      simp only [upsert, if_true]
      by_cases h : k = k'
      · simp [h]
      · rw [lookup_cons_of_ne _ _ h, lookup_cons_of_ne _ _ h, if_neg h]
    · simp only [upsert, if_neg hk]
      by_cases h : k = k'
      · subst h; simp [hk]
      · rw [lookup_cons_of_ne _ _ h, lookup_cons_of_ne _ _ h, ih]

theorem keys_upsert {α : Type u} (key : String) (value : α) (entries : List (String × α)) :
    (upsert key value entries).map Prod.fst =
      if key ∈ entries.map Prod.fst then entries.map Prod.fst
      else entries.map Prod.fst ++ [key] := by
  induction entries with
  | nil => simp [upsert]
  | cons e rest ih =>
    obtain ⟨k', v'⟩ := e
    by_cases hk : k' = key
    · simp [upsert, hk]
    · have hk' : ¬ key = k' := fun h => hk h.symm
      simp only [upsert, if_neg hk, List.map_cons, ih, List.mem_cons, hk', false_or]
      split <;> simp

/-- Among different keys it does not matter from which end one is looked up. -/
theorem lookup_reverse {α : Type u} (entries : List (String × α))
    (h : (entries.map Prod.fst).Nodup) (k : String) :
    entries.reverse.lookup k = entries.lookup k := by
  induction entries with
  | nil => rfl
  | cons e rest ih =>
    obtain ⟨k', v'⟩ := e
    simp only [List.map_cons, List.nodup_cons] at h
    rw [List.reverse_cons, List.lookup_append, ih h.2]
    by_cases hk : k = k'
    · subst hk
      simp [lookup_eq_none_of_not_mem h.1]
    · rw [lookup_cons_of_ne _ _ hk, lookup_cons_of_ne _ _ hk, List.lookup_nil, Option.or_none]

theorem eraseDups_concat (keys : List String) (key : String) :
    (keys ++ [key]).eraseDups =
      if key ∈ keys then keys.eraseDups else keys.eraseDups ++ [key] := by
  rw [List.eraseDups_append]
  by_cases h : key ∈ keys <;> simp [List.removeAll, h, List.eraseDups_cons]

/-- The first occurrence of a key is where it stands without repetitions; behind it there are keys that were
not seen before. -/
theorem eraseDups_split {before : List String} {key : String} (after : List String)
    (h : key ∉ before) :
    ∃ rest, (before ++ key :: after).eraseDups = before.eraseDups ++ key :: rest ∧
      ∀ k ∈ rest, k ∈ after ∧ k ≠ key ∧ k ∉ before := by
  refine ⟨((after.removeAll before).filter fun k => !k == key).eraseDups, ?_, ?_⟩
  · rw [List.eraseDups_append]
    simp [List.removeAll, h, List.eraseDups_cons]
  · intro k hk
    simpa [List.removeAll, and_assoc, and_comm] using hk

theorem eraseDups_of_nodup {keys : List String} (h : keys.Nodup) : keys.eraseDups = keys := by
  induction keys with
  | nil => rfl
  | cons key rest ih =>
    rw [List.nodup_cons] at h
    have hf : rest.filter (fun k => !k == key) = rest := by
      rw [List.filter_eq_self]
      intro k hk
      have : k ≠ key := fun hkk => h.1 (hkk ▸ hk)
      simpa using this
    rw [List.eraseDups_cons, hf, ih h.2]

theorem mem_upsert {α : Type u} {key : String} {value : α} {entries : List (String × α)}
    {e : String × α} (h : e ∈ upsert key value entries) : e = (key, value) ∨ e ∈ entries := by
  induction entries with
  | nil => exact .inl (List.mem_singleton.mp h)
  | cons e' rest ih =>
    obtain ⟨k', v'⟩ := e'
    by_cases hk : k' = key
    · subst hk
      simp only [upsert, if_true, List.mem_cons] at h
      exact h.imp_right (List.mem_cons_of_mem _)
    · simp only [upsert, if_neg hk, List.mem_cons] at h
      rcases h with rfl | h
      · exact .inr List.mem_cons_self
      · exact (ih h).imp_right (List.mem_cons_of_mem _)

namespace OrderedMap

variable {α : Type u}

theorem nodup_keys (map : OrderedMap α) : map.keys.Nodup := map.nodup

/-- A key is in one place. -/
theorem ne_key_of_split {map : OrderedMap α} {key : String} {value : α}
    {before after : List (String × α)} (h : map.entries = before ++ (key, value) :: after) :
    (∀ e ∈ before, e.1 ≠ key) ∧ ∀ e ∈ after, e.1 ≠ key := by
  have hnodup := map.nodup
  rw [h, List.map_append, List.map_cons, List.nodup_append, List.nodup_cons] at hnodup
  obtain ⟨-, ⟨hafter, -⟩, hbefore⟩ := hnodup
  exact ⟨fun e he => hbefore e.1 (List.mem_map_of_mem he) key List.mem_cons_self,
    fun e he heq => hafter (List.mem_map.mpr ⟨e, he, heq⟩)⟩

/-! ## Keys -/

@[simp] theorem keys_empty : (empty : OrderedMap α).keys = [] := rfl

theorem keys_insert (map : OrderedMap α) (key : String) (value : α) :
    (map.insert key value).keys = if key ∈ map.keys then map.keys else map.keys ++ [key] :=
  keys_upsert key value map.entries

theorem insertAll_append (map : OrderedMap α) (first second : List (String × α)) :
    map.insertAll (first ++ second) = (map.insertAll first).insertAll second := by
  simp [insertAll]

theorem insertAll_concat (map : OrderedMap α) (entries : List (String × α)) (e : String × α) :
    map.insertAll (entries ++ [e]) = (map.insertAll entries).insert e.1 e.2 := by
  simp [insertAll]

/-- Every key stands where it is first seen. -/
theorem keys_insertAll (map : OrderedMap α) (entries : List (String × α)) :
    (map.insertAll entries).keys = (map.keys ++ entries.map Prod.fst).eraseDups := by
  induction entries using List.reverseRecOn with
  | nil => simp [insertAll, eraseDups_of_nodup map.nodup_keys]
  | append_singleton entries e ih =>
    rw [insertAll_concat, keys_insert, ih, List.map_append, List.map_singleton,
      ← List.append_assoc, eraseDups_concat]
    simp only [List.mem_eraseDups]

/-! ## Values -/

@[simp] theorem get?_empty (k : String) : (empty : OrderedMap α).get? k = none := rfl

theorem mem_keys_iff {map : OrderedMap α} {k : String} :
    k ∈ map.keys ↔ ∃ value, map.get? k = some value := by
  constructor
  · intro h
    cases hv : map.get? k with
    | none =>
      obtain ⟨e, he, rfl⟩ := List.mem_map.mp h
      simpa using List.lookup_eq_none_iff.mp hv e he
    | some value => exact ⟨value, rfl⟩
  · rintro ⟨value, hv⟩
    by_contra h
    rw [get?, lookup_eq_none_of_not_mem h] at hv
    cases hv

theorem get?_of_split {map : OrderedMap α} {key : String} {value : α}
    {before after : List (String × α)} (h : map.entries = before ++ (key, value) :: after) :
    map.get? key = some value := by
  have hnone : before.lookup key = none := by
    apply lookup_eq_none_of_not_mem
    rw [List.mem_map]
    rintro ⟨e, he, heq⟩
    exact (ne_key_of_split h).1 e he heq
  rw [get?, h, List.lookup_append, hnone, Option.none_or, List.lookup_cons_self]

theorem get?_insert (map : OrderedMap α) (key : String) (value : α) (k : String) :
    (map.insert key value).get? k = if k = key then some value else map.get? k :=
  lookup_upsert key value map.entries k

/-- Every key has the value that comes last. -/
theorem get?_insertAll (map : OrderedMap α) (entries : List (String × α)) (k : String) :
    (map.insertAll entries).get? k = (entries.reverse.lookup k).or (map.get? k) := by
  induction entries using List.reverseRecOn with
  | nil => rfl
  | append_singleton entries e ih =>
    obtain ⟨key, value⟩ := e
    rw [insertAll_concat, get?_insert, ih, List.reverse_append, List.reverse_singleton,
      List.singleton_append]
    by_cases h : k = key
    · simp [h]
    · rw [lookup_cons_of_ne _ _ h, if_neg h]

/-! ## Some of the keys -/

theorem keys_filter (map : OrderedMap α) (test : String → Bool) :
    (map.filter test).keys = map.keys.filter test := by
  rw [keys, keys, List.filter_map]
  rfl

theorem get?_filter (map : OrderedMap α) (test : String → Bool) (k : String) :
    (map.filter test).get? k = if test k then map.get? k else none := by
  simp only [get?, filter]
  induction map.entries with
  | nil => split <;> rfl
  | cons e rest ih =>
    obtain ⟨key, value⟩ := e
    by_cases hk : k = key
    · subst hk
      cases ht : test k <;> simp [ht, ih]
    · rw [lookup_cons_of_ne _ _ hk, ← ih, List.filter_cons]
      split
      · rw [lookup_cons_of_ne _ _ hk]
      · rfl

/-! ## Maps that look alike -/

theorem entries_eq_of_get? {first second : List (String × α)}
    (hn : (first.map Prod.fst).Nodup) (hk : first.map Prod.fst = second.map Prod.fst)
    (hv : ∀ k, first.lookup k = second.lookup k) : first = second := by
  induction first generalizing second with
  | nil =>
    cases second with
    | nil => rfl
    | cons e rest => simp at hk
  | cons e rest ih =>
    cases second with
    | nil => simp at hk
    | cons e' rest' =>
      obtain ⟨key, value⟩ := e
      obtain ⟨key', value'⟩ := e'
      simp only [List.map_cons, List.cons.injEq] at hk
      obtain ⟨rfl, hk⟩ := hk
      have hvalue : value = value' := by simpa using hv key
      have hrest : ∀ k, rest.lookup k = rest'.lookup k := by
        intro k
        by_cases h : k = key
        · subst h
          have hn' : k ∉ rest.map Prod.fst := (List.nodup_cons.mp hn).1
          rw [lookup_eq_none_of_not_mem hn', lookup_eq_none_of_not_mem (hk ▸ hn')]
        · have := hv k
          rwa [lookup_cons_of_ne _ _ h, lookup_cons_of_ne _ _ h] at this
      rw [hvalue, ih (List.nodup_cons.mp hn).2 hk hrest]

theorem ext_get? {a b : OrderedMap α} (hk : a.keys = b.keys) (hv : ∀ k, a.get? k = b.get? k) :
    a = b :=
  ext_entries (entries_eq_of_get? a.nodup hk hv)

/-! ## Layers -/

theorem keys_merge (map other : OrderedMap α) :
    (map.merge other).keys = (map.keys ++ other.keys).eraseDups :=
  keys_insertAll map other.entries

theorem get?_merge (map other : OrderedMap α) (k : String) :
    (map.merge other).get? k = (other.get? k).or (map.get? k) := by
  rw [merge, get?_insertAll, lookup_reverse _ other.nodup]
  rfl

theorem merge_insert (map other : OrderedMap α) (key : String) (value : α) :
    map.merge (other.insert key value) = (map.merge other).insert key value := by
  apply ext_get?
  · rw [keys_merge, keys_insert, keys_insert, keys_merge]
    by_cases h : key ∈ other.keys
    · simp [h]
    · simp only [h, if_false, ← List.append_assoc, eraseDups_concat, List.mem_eraseDups]
  · intro k
    rw [get?_merge, get?_insert, get?_insert, get?_merge]
    split <;> rfl

/-- Layering a map built from a list is inserting that list. -/
theorem merge_ofList (map : OrderedMap α) (entries : List (String × α)) :
    map.merge (ofList entries) = map.insertAll entries := by
  induction entries using List.reverseRecOn with
  | nil => rfl
  | append_singleton entries e ih =>
    rw [ofList, insertAll_concat, merge_insert, insertAll_concat]
    exact congrArg (fun m : OrderedMap α => m.insert e.1 e.2) ih

theorem keys_ofList (entries : List (String × α)) :
    (ofList entries).keys = (entries.map Prod.fst).eraseDups := by
  rw [ofList, keys_insertAll, keys_empty, List.nil_append]

theorem get?_ofList (entries : List (String × α)) (k : String) :
    (ofList entries).get? k = entries.reverse.lookup k := by
  rw [ofList, get?_insertAll, get?_empty, Option.or_none]

/-- A map is built from its own entries. -/
theorem ofList_entries (map : OrderedMap α) : ofList map.entries = map := by
  refine ext_get? ?_ fun k => ?_
  · rw [keys_ofList]
    exact eraseDups_of_nodup map.nodup
  · rw [get?_ofList, lookup_reverse map.entries map.nodup]
    rfl

theorem entries_ofList {entries : List (String × α)} (h : (entries.map Prod.fst).Nodup) :
    (ofList entries).entries = entries :=
  congrArg OrderedMap.entries (ofList_entries ⟨entries, h⟩)

/-- A map built from a list holds nothing but pairs of the list. -/
theorem mem_ofList {entries : List (String × α)} {e : String × α}
    (h : e ∈ (ofList entries).entries) : e ∈ entries := by
  induction entries using List.reverseRecOn with
  | nil => exact h
  | append_singleton entries last ih =>
    rw [ofList, insertAll_concat, entries_insert] at h
    rcases mem_upsert h with rfl | h
    · exact List.mem_append_right _ List.mem_cons_self
    · exact List.mem_append_left _ (ih h)

/-- A map built from a list has the value of the last pairs with the key, if they have the same. -/
theorem get?_ofList_block (earlier : List (String × α)) {block later : List (String × α)}
    {key : String} {value : α} (hkey : key ∈ block.map Prod.fst)
    (hvalue : ∀ e ∈ block, e.1 = key → e.2 = value) (hlater : key ∉ later.map Prod.fst) :
    (ofList (earlier ++ (block ++ later))).get? key = some value := by
  have hnone : later.reverse.lookup key = none := by
    apply lookup_eq_none_of_not_mem
    rwa [List.map_reverse, List.mem_reverse]
  have hsome : block.reverse.lookup key = some value := by
    obtain ⟨e, he, rfl⟩ := List.mem_map.mp hkey
    have hfound : (block.reverse.lookup e.1).isSome = true :=
      List.lookup_isSome_iff.mpr ⟨e, List.mem_reverse.mpr he, beq_self_eq_true _⟩
    obtain ⟨v, hv⟩ := Option.isSome_iff_exists.mp hfound
    rw [hv, ← hvalue _ (List.mem_reverse.mp (mem_of_lookup hv)) rfl]
  rw [get?_ofList, List.reverse_append, List.reverse_append, List.lookup_append,
    List.lookup_append, hnone, hsome]
  rfl

/-- A map built from a list has the value of the last pair with the key. -/
theorem get?_ofList_last (earlier later : List (String × α)) (key : String) (value : α)
    (h : ∀ e ∈ later, e.1 ≠ key) :
    (ofList (earlier ++ (key, value) :: later)).get? key = some value := by
  have hkey : key ∈ [(key, value)].map Prod.fst := List.mem_singleton_self key
  refine get?_ofList_block earlier hkey (by simp) ?_
  rw [List.mem_map]
  rintro ⟨e, he, heq⟩
  exact h e he heq

end OrderedMap
end ThemeRules
