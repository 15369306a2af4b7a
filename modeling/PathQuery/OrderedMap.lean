/-!
# Maps that remember arrival order

A finite map whose entries stay in the order in which their keys first arrived. Writing to a key
that is already there replaces its value in place; a new key goes to the end. The keys are pairwise
distinct by construction, so the entry list is the whole view: lookups, sizes and listings are all
read off it.
-/

namespace PathQuery

/-- Entries in order of first arrival, no key twice. -/
@[ext] structure OrderedMap (α : Type) (β : Type) where
  toList : List (α × β)
  nodup_keys : (toList.map Prod.fst).Nodup

namespace OrderedMap

variable {α β : Type}

/-- The entry list after a write: the value under `key` is replaced, or a new entry is appended. -/
def write [DecidableEq α] (key : α) (value : β) : List (α × β) → List (α × β)
  | [] => [(key, value)]
  | (k, v) :: rest => if k = key then (k, value) :: rest else (k, v) :: write key value rest

theorem map_fst_write [DecidableEq α] (key : α) (value : β) (entries : List (α × β)) :
    (write key value entries).map Prod.fst =
      if key ∈ entries.map Prod.fst then entries.map Prod.fst
      else entries.map Prod.fst ++ [key] := by
  induction entries with
  | nil => simp [write]
  | cons entry rest ih =>
    obtain ⟨k, v⟩ := entry
    by_cases h : k = key
    · simp [write, h]
    · have h' : key ≠ k := fun e => h e.symm
      simp only [write, if_neg h, List.map_cons, ih, List.mem_cons, h', false_or]
      split <;> simp

def empty : OrderedMap α β := ⟨[], List.nodup_nil⟩

instance : EmptyCollection (OrderedMap α β) := ⟨empty⟩

instance : Inhabited (OrderedMap α β) := ⟨empty⟩

def keys (m : OrderedMap α β) : List α := m.toList.map Prod.fst

def values (m : OrderedMap α β) : List β := m.toList.map Prod.snd

def size (m : OrderedMap α β) : Nat := m.toList.length

def isEmpty (m : OrderedMap α β) : Bool := m.toList.isEmpty

variable [DecidableEq α]

def get? (m : OrderedMap α β) (key : α) : Option β :=
  (m.toList.find? (fun entry => entry.1 = key)).map Prod.snd

def contains (m : OrderedMap α β) (key : α) : Bool := m.keys.contains key

/-- Put `value` under `key`, in place if the key is known and at the end otherwise. -/
def insert (m : OrderedMap α β) (key : α) (value : β) : OrderedMap α β where
  toList := write key value m.toList
  nodup_keys := by
    rw [map_fst_write]
    split
    · exact m.nodup_keys
    · rename_i h
      rw [List.nodup_append]
      refine ⟨m.nodup_keys, by simp, ?_⟩
      intro a ha b hb e
      rw [List.mem_singleton] at hb
      exact h (hb ▸ e ▸ ha)

/-- Entries written one after the other: a repeated key keeps its first place and its last value. -/
def ofList (entries : List (α × β)) : OrderedMap α β :=
  entries.foldl (fun m entry => m.insert entry.1 entry.2) empty

omit [DecidableEq α] in
@[simp] theorem toList_empty : (∅ : OrderedMap α β).toList = [] := rfl

@[simp] theorem contains_eq_true_iff {m : OrderedMap α β} {key : α} :
    m.contains key = true ↔ key ∈ m.keys := by
  simp [contains]

theorem keys_insert (m : OrderedMap α β) (key : α) (value : β) :
    (m.insert key value).keys = if key ∈ m.keys then m.keys else m.keys ++ [key] :=
  map_fst_write key value m.toList

theorem toList_insert_of_not_mem {m : OrderedMap α β} {key : α} (h : key ∉ m.keys) (value : β) :
    (m.insert key value).toList = m.toList ++ [(key, value)] := by
  suffices ∀ entries : List (α × β), key ∉ entries.map Prod.fst →
      write key value entries = entries ++ [(key, value)] from this m.toList h
  intro entries hentries
  induction entries with
  | nil => rfl
  | cons entry rest ih =>
    simp only [List.map_cons, List.mem_cons, not_or] at hentries
    have hne : entry.1 ≠ key := fun e => hentries.1 e.symm
    simp [write, hne, ih hentries.2]

theorem get?_insert_self (m : OrderedMap α β) (key : α) (value : β) :
    (m.insert key value).get? key = some value := by
  suffices ∀ entries : List (α × β),
      ((write key value entries).find? (fun entry => decide (entry.1 = key))).map Prod.snd =
        some value from this m.toList
  intro entries
  induction entries with
  | nil => simp [write]
  | cons entry rest ih => by_cases h : entry.1 = key <;> simp [write, h, ih]

theorem get?_insert_of_ne (m : OrderedMap α β) {key other : α} (h : other ≠ key) (value : β) :
    (m.insert key value).get? other = m.get? other := by
  suffices ∀ entries : List (α × β),
      (write key value entries).find? (fun entry => decide (entry.1 = other)) =
        entries.find? (fun entry => decide (entry.1 = other)) by
    simp only [get?, insert, this]
  intro entries
  induction entries with
  | nil => simp [write, Ne.symm h]
  | cons entry rest ih =>
    obtain ⟨k, v⟩ := entry
    by_cases hk : k = key
    · have : key ≠ other := Ne.symm h
      simp [write, hk, this]
    · by_cases ho : k = other
      · simp [write, ho, h]
      · simp [write, hk, ho, ih]

/-- Entries under new and distinct keys are appended. -/
theorem toList_foldl_insert {entries : List (α × β)} (m : OrderedMap α β)
    (hnodup : (entries.map Prod.fst).Nodup) (hnew : ∀ entry ∈ entries, entry.1 ∉ m.keys) :
    (entries.foldl (fun m entry => m.insert entry.1 entry.2) m).toList = m.toList ++ entries := by
  induction entries generalizing m with
  | nil => simp
  | cons entry rest ih =>
    rw [List.map_cons, List.nodup_cons] at hnodup
    rw [List.forall_mem_cons] at hnew
    have hrest : ∀ other ∈ rest, other.1 ∉ (m.insert entry.1 entry.2).keys := by
      intro other hother
      rw [keys_insert, if_neg hnew.1, List.mem_append, List.mem_singleton, not_or]
      refine ⟨hnew.2 other hother, ?_⟩
      intro hsame
      exact hnodup.1 (hsame ▸ List.mem_map_of_mem hother)
    rw [List.foldl_cons, ih _ hnodup.2 hrest, toList_insert_of_not_mem hnew.1, List.append_assoc,
      List.singleton_append]

theorem get?_eq_none_iff {m : OrderedMap α β} {key : α} : m.get? key = none ↔ key ∉ m.keys := by
  simp only [get?, Option.map_eq_none_iff, List.find?_eq_none, decide_eq_true_eq, keys,
    List.mem_map, not_exists, not_and]

theorem exists_get?_of_mem_keys {m : OrderedMap α β} {key : α} (h : key ∈ m.keys) :
    ∃ value, m.get? key = some value := by
  cases hvalue : m.get? key with
  | none => exact absurd h (get?_eq_none_iff.mp hvalue)
  | some value => exact ⟨value, rfl⟩

theorem mem_keys_of_get? {m : OrderedMap α β} {key : α} {value : β}
    (h : m.get? key = some value) : key ∈ m.keys := by
  apply Decidable.byContradiction
  intro hkey
  rw [get?_eq_none_iff.mpr hkey] at h
  contradiction

theorem mem_values_of_get? {m : OrderedMap α β} {key : α} {value : β}
    (h : m.get? key = some value) : value ∈ m.values := by
  obtain ⟨entry, hentry, rfl⟩ := Option.map_eq_some_iff.mp h
  exact List.mem_map_of_mem (List.mem_of_find?_eq_some hentry)

end OrderedMap

end PathQuery
