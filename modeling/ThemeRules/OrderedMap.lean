/-!
# ThemeRules.OrderedMap

Maps from strings that remember their order. A theme collection, a style map, a rule set and an
object of a document are all read by people who care for the order in which the keys were written,
so a map here is its list of entries, with no key twice.

The rule for a repeated key is the same everywhere: the first occurrence fixes the position, the
last one the value. `upsert` is that rule on lists; `insert`, `merge` and `ofList` repeat it.
-/

namespace ThemeRules

universe u v

/-- Gives `key` the value `value`: in place if the key is present, else at the end. -/
def upsert {α : Type u} (key : String) (value : α) : List (String × α) → List (String × α)
  | [] => [(key, value)]
  | (k, v) :: rest => if k = key then (k, value) :: rest else (k, v) :: upsert key value rest

theorem mem_keys_upsert {α : Type u} (key : String) (value : α) (entries : List (String × α))
    (k : String) :
    k ∈ (upsert key value entries).map Prod.fst ↔ k ∈ entries.map Prod.fst ∨ k = key := by
  induction entries with
  | nil => simp [upsert]
  | cons e rest ih =>
    obtain ⟨k', v'⟩ := e
    simp only [upsert]
    split
    · rename_i h; subst h; simp [or_comm]
    · simp only [List.map_cons, List.mem_cons, ih, or_assoc]

theorem nodup_keys_upsert {α : Type u} (key : String) (value : α) (entries : List (String × α))
    (h : (entries.map Prod.fst).Nodup) : ((upsert key value entries).map Prod.fst).Nodup := by
  induction entries with
  | nil => simp [upsert]
  | cons e rest ih =>
    obtain ⟨k', v'⟩ := e
    simp only [List.map_cons, List.nodup_cons] at h
    simp only [upsert]
    split
    · simpa using h
    · rename_i hne
      simp only [List.map_cons, List.nodup_cons, mem_keys_upsert]
      exact ⟨fun hk => hk.elim h.1 hne, ih h.2⟩

/-- A map from strings that keeps its entries in order of insertion. -/
structure OrderedMap (α : Type u) where
  entries : List (String × α)
  nodup : (entries.map Prod.fst).Nodup

namespace OrderedMap

variable {α : Type u} {β : Type v}

theorem ext_entries {a b : OrderedMap α} (h : a.entries = b.entries) : a = b := by
  cases a; cases b; cases h; rfl

instance [DecidableEq α] : DecidableEq (OrderedMap α) := fun a b =>
  decidable_of_iff (a.entries = b.entries) ⟨ext_entries, fun h => h ▸ rfl⟩

def empty : OrderedMap α := ⟨[], List.nodup_nil⟩

instance : Inhabited (OrderedMap α) := ⟨empty⟩

/-- A present key keeps its position and takes the new value; a new key goes last. -/
def insert (map : OrderedMap α) (key : String) (value : α) : OrderedMap α :=
  ⟨upsert key value map.entries, nodup_keys_upsert key value map.entries map.nodup⟩

/-- Inserts a list of entries, one after the other. -/
def insertAll (map : OrderedMap α) (entries : List (String × α)) : OrderedMap α :=
  entries.foldl (fun m e => m.insert e.1 e.2) map

/-- Layers `other` over `map`: the keys of `map` stay where they are, the values of `other` win. -/
def merge (map other : OrderedMap α) : OrderedMap α :=
  map.insertAll other.entries

def ofList (entries : List (String × α)) : OrderedMap α :=
  empty.insertAll entries

def get? (map : OrderedMap α) (key : String) : Option α :=
  map.entries.lookup key

def keys (map : OrderedMap α) : List String :=
  map.entries.map Prod.fst

def contains (map : OrderedMap α) (key : String) : Bool :=
  map.keys.contains key

def size (map : OrderedMap α) : Nat :=
  map.entries.length

def isEmpty (map : OrderedMap α) : Bool :=
  map.entries.isEmpty

/-- The entries whose key passes the test, in their order. -/
def filter (map : OrderedMap α) (test : String → Bool) : OrderedMap α :=
  ⟨map.entries.filter fun e => test e.1, by
    have := (List.filter_sublist (p := fun e : String × α => test e.1) (l := map.entries)).map
      Prod.fst
    exact this.nodup map.nodup⟩

def map (f : α → β) (m : OrderedMap α) : OrderedMap β :=
  ⟨m.entries.map fun e => (e.1, f e.2), by
    simpa [Function.comp_def, List.map_map] using m.nodup⟩

/-- Equality of the contents, whatever the order. -/
def sameEntries [BEq α] (a b : OrderedMap α) : Bool :=
  a.size == b.size && a.entries.all fun e => b.get? e.1 == some e.2

@[simp] theorem entries_insert (map : OrderedMap α) (key : String) (value : α) :
    (map.insert key value).entries = upsert key value map.entries := rfl

end OrderedMap
end ThemeRules
