/-!
# Maps that remember the order of their keys

A map is a list of entries with distinct keys, in the order in which the keys were first written.
Writing an existing key replaces its value in place; a new key goes to the end. So the entries of
`ofList` stand where their key first occurs and carry the value with which it last occurs.
-/

namespace OptionDefaults

/-- Entries with distinct keys, oldest key first. -/
structure OrderedMap (α : Type) where
  entries : List (String × α)
  distinct : (entries.map Prod.fst).Nodup
deriving Repr

namespace OrderedMap

variable {α : Type}

@[ext] theorem ext {m n : OrderedMap α} (h : m.entries = n.entries) : m = n := by
  cases m; cases n; cases h; rfl

instance [DecidableEq α] : DecidableEq (OrderedMap α) := fun m n =>
  decidable_of_iff (m.entries = n.entries) ⟨ext, fun h => h ▸ rfl⟩

def empty : OrderedMap α := ⟨[], .nil⟩

instance : Inhabited (OrderedMap α) := ⟨empty⟩
instance : EmptyCollection (OrderedMap α) := ⟨empty⟩

def size (m : OrderedMap α) : Nat := m.entries.length

def isEmpty (m : OrderedMap α) : Bool := m.entries.isEmpty

def keys (m : OrderedMap α) : List String := m.entries.map Prod.fst

def values (m : OrderedMap α) : List α := m.entries.map Prod.snd

def get? (m : OrderedMap α) (key : String) : Option α := m.entries.lookup key

def contains (m : OrderedMap α) (key : String) : Bool := (m.get? key).isSome

/-- Writes a value over the entry with the key, or at the end. -/
def write (key : String) (value : α) : List (String × α) → List (String × α)
  | [] => [(key, value)]
  | (k, v) :: rest => if k = key then (k, value) :: rest else (k, v) :: write key value rest

theorem mem_keys_write {key k : String} {value : α} {entries : List (String × α)} :
    k ∈ (write key value entries).map Prod.fst ↔ k = key ∨ k ∈ entries.map Prod.fst := by
  induction entries with
  | nil => simp [write]
  | cons e es ih =>
    obtain ⟨l, v⟩ := e
    by_cases h : l = key
    · simp [write, h]
    · rw [write, if_neg h, List.map_cons, List.mem_cons, ih, List.map_cons, List.mem_cons]
      exact or_left_comm

theorem nodup_keys_write {key : String} {value : α} {entries : List (String × α)}
    (h : (entries.map Prod.fst).Nodup) : ((write key value entries).map Prod.fst).Nodup := by
  induction entries with
  | nil => simp [write]
  | cons e es ih =>
    obtain ⟨l, v⟩ := e
    rw [List.map_cons, List.nodup_cons] at h
    by_cases hl : l = key
    · simp only [write, if_pos hl, List.map_cons, List.nodup_cons]
      exact h
    · rw [write, if_neg hl, List.map_cons, List.nodup_cons, mem_keys_write]
      exact ⟨fun hk => hk.elim hl h.1, ih h.2⟩

theorem lookup_cons_ite (key k : String) (value : α) (entries : List (String × α)) :
    List.lookup k ((key, value) :: entries) = if k = key then some value else entries.lookup k := by
  by_cases h : k = key
  · subst h; simp
  · have hb : (k == key) = false := by simpa using h
    simp only [List.lookup_cons, hb, if_neg h]

theorem lookup_write {key k : String} {value : α} {entries : List (String × α)} :
    (write key value entries).lookup k = if k = key then some value else entries.lookup k := by
  induction entries with
  | nil => rw [write, lookup_cons_ite]
  | cons e es ih =>
    obtain ⟨l, v⟩ := e
    by_cases hl : l = key
    · subst hl
      rw [write, if_pos rfl, lookup_cons_ite, lookup_cons_ite]
      by_cases h : k = l <;> simp [h]
    · rw [write, if_neg hl, lookup_cons_ite, lookup_cons_ite, ih]
      by_cases h : k = l
      · subst h
        simp [hl]
      · simp [h]

def insert (m : OrderedMap α) (key : String) (value : α) : OrderedMap α :=
  ⟨write key value m.entries, nodup_keys_write m.distinct⟩

/-- The written key has the written value, and every other key what it had. -/
theorem get?_insert (m : OrderedMap α) (key k : String) (value : α) :
    (m.insert key value).get? k = if k = key then some value else m.get? k :=
  lookup_write

def insertAll (m : OrderedMap α) (entries : List (String × α)) : OrderedMap α :=
  entries.foldl (fun m e => m.insert e.1 e.2) m

/-- The map after writing the entries one after the other. -/
def ofList (entries : List (String × α)) : OrderedMap α := insertAll empty entries

theorem write_of_not_mem {key : String} {value : α} {entries : List (String × α)}
    (h : key ∉ entries.map Prod.fst) : write key value entries = entries ++ [(key, value)] := by
  induction entries with
  | nil => rfl
  | cons e es ih =>
    obtain ⟨l, v⟩ := e
    simp only [List.map_cons, List.mem_cons, not_or] at h
    rw [write, if_neg (Ne.symm h.1), ih h.2, List.cons_append]

theorem entries_insert_of_not_mem {m : OrderedMap α} {key : String} {value : α}
    (h : key ∉ m.keys) : (m.insert key value).entries = m.entries ++ [(key, value)] :=
  write_of_not_mem h

theorem entries_insertAll {m : OrderedMap α} {entries : List (String × α)}
    (h : ((m.entries ++ entries).map Prod.fst).Nodup) :
    (m.insertAll entries).entries = m.entries ++ entries := by
  induction entries generalizing m with
  | nil => simp [insertAll]
  | cons e es ih =>
    obtain ⟨k, v⟩ := e
    have hk : k ∉ m.keys := by
      rw [List.map_append, List.nodup_append] at h
      intro hm
      exact h.2.2 k hm k (by simp) rfl
    have hi : (m.insert k v).entries = m.entries ++ [(k, v)] := entries_insert_of_not_mem hk
    rw [insertAll, List.foldl_cons]
    have := ih (m := m.insert k v) (by rw [hi]; simpa using h)
    rw [insertAll, hi] at this
    simpa using this

/-- Distinct keys are kept with their values in their order. -/
theorem entries_ofList {entries : List (String × α)} (h : (entries.map Prod.fst).Nodup) :
    (ofList entries).entries = entries := by
  have hall : ((empty : OrderedMap α).insertAll entries).entries = [] ++ entries :=
    entries_insertAll h
  exact hall

@[simp] theorem ofList_entries (m : OrderedMap α) : ofList m.entries = m :=
  ext (entries_ofList m.distinct)

def erase (m : OrderedMap α) (key : String) : OrderedMap α :=
  ⟨m.entries.filter (·.1 ≠ key), m.distinct.sublist (List.filter_sublist.map _)⟩

/-- The number of entries before the one with the key. -/
def indexOf (m : OrderedMap α) (key : String) : Nat := m.entries.findIdx (·.1 == key)

end OrderedMap

end OptionDefaults
