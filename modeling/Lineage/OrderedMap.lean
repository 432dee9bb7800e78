/-
  Insertion-ordered maps.

  A map is its list of entries, oldest key first, with no key twice.  Writing a key that is
  already there replaces its value IN PLACE; a new key goes to the end; erasing a key leaves the
  order of the others.  The order is part of the value because answers show it: declarations are
  reported in the order in which they were first made, modules in the order of registration.

  Distinctness of the keys is carried by the type (`distinct`), so that a look-up never has to
  say which of several entries it means.
-/

namespace Lineage

/-! ## Entry lists -/

namespace Entries

variable {κ ν : Type} [DecidableEq κ]

/-- The value under `key`. -/
def find (key : κ) : List (κ × ν) → Option ν
  | [] => none
  | (k, v) :: rest => if k = key then some v else find key rest

/-- Replace the value under `key` where it stands, or append the pair. -/
def put (key : κ) (value : ν) : List (κ × ν) → List (κ × ν)
  | [] => [(key, value)]
  | (k, v) :: rest => if k = key then (k, value) :: rest else (k, v) :: put key value rest

/-- Take the entry of `key` out. -/
def drop (key : κ) : List (κ × ν) → List (κ × ν)
  | [] => []
  | (k, v) :: rest => if k = key then rest else (k, v) :: drop key rest

/-- The keys of a list of entries, in order. -/
def keys (entries : List (κ × ν)) : List κ := entries.map Prod.fst

omit [DecidableEq κ] in
@[simp] theorem keys_nil : keys ([] : List (κ × ν)) = [] := rfl

omit [DecidableEq κ] in
@[simp] theorem keys_cons (k : κ) (v : ν) (rest : List (κ × ν)) :
    keys ((k, v) :: rest) = k :: keys rest := rfl

/-- Writing keeps the keys if `key` is among them and appends it otherwise. -/
theorem keys_put (key : κ) (value : ν) (entries : List (κ × ν)) :
    keys (put key value entries) =
      if key ∈ keys entries then keys entries else keys entries ++ [key] := by
  induction entries with
  | nil => simp [put]
  | cons e rest ih =>
    obtain ⟨k, v⟩ := e
    by_cases hk : k = key
    · simp [put, hk]
    · have hk' : ¬ key = k := fun h => hk h.symm
      simp only [put, hk, if_false, keys_cons, ih, List.mem_cons, hk', false_or]
      by_cases hm : key ∈ keys rest <;> simp [hm]

/-- Taking an entry out takes its key out and leaves the others in their order. -/
theorem keys_drop (key : κ) (entries : List (κ × ν)) :
    keys (drop key entries) = (keys entries).erase key := by
  induction entries with
  | nil => rfl
  | cons e rest ih =>
    obtain ⟨k, v⟩ := e
    by_cases hk : k = key
    · simp [drop, hk]
    · simp [drop, hk, ih]

theorem find_put_self (key : κ) (value : ν) (entries : List (κ × ν)) :
    find key (put key value entries) = some value := by
  induction entries with
  | nil => simp [put, find]
  | cons e rest ih =>
    obtain ⟨k, v⟩ := e
    by_cases hk : k = key <;> simp [put, find, hk, ih]

/-- Writing one key leaves the values of the others. -/
theorem find_put_of_ne {key other : κ} (hne : other ≠ key) (value : ν)
    (entries : List (κ × ν)) : find other (put key value entries) = find other entries := by
  induction entries with
  | nil => simp [put, find, hne.symm]
  | cons e rest ih =>
    obtain ⟨k, v⟩ := e
    by_cases hk : k = key
    · subst hk; simp [put, find, hne.symm]
    · rw [put, if_neg hk, find, find, ih]

/-- Of two values for one key the later one stays, in the same place. -/
theorem put_put (key : κ) (first second : ν) (entries : List (κ × ν)) :
    put key second (put key first entries) = put key second entries := by
  induction entries with
  | nil => simp [put]
  | cons e rest ih =>
    obtain ⟨k, v⟩ := e
    by_cases hk : k = key <;> simp [put, hk, ih]

/-- Taking one key out leaves the values of the others. -/
theorem find_drop_of_ne {key other : κ} (hne : other ≠ key) (entries : List (κ × ν)) :
    find other (drop key entries) = find other entries := by
  induction entries with
  | nil => rfl
  | cons e rest ih =>
    obtain ⟨k, v⟩ := e
    by_cases hk : k = key
    · subst hk; simp [drop, find, hne.symm]
    · rw [drop, if_neg hk, find, find, ih]

/-- There is nothing to take out for a key that is not there. -/
theorem drop_of_not_mem {key : κ} {entries : List (κ × ν)} (hKey : key ∉ keys entries) :
    drop key entries = entries := by
  induction entries with
  | nil => rfl
  | cons e rest ih =>
    obtain ⟨k, v⟩ := e
    rw [keys_cons, List.mem_cons, not_or] at hKey
    rw [drop, if_neg (Ne.symm hKey.1), ih hKey.2]

/-- A new key goes to the end. -/
theorem put_of_not_mem {key : κ} {entries : List (κ × ν)} (hKey : key ∉ keys entries)
    (value : ν) : put key value entries = entries ++ [(key, value)] := by
  induction entries with
  | nil => rfl
  | cons e rest ih =>
    obtain ⟨k, v⟩ := e
    rw [keys_cons, List.mem_cons, not_or] at hKey
    rw [put, if_neg (Ne.symm hKey.1), ih hKey.2, List.cons_append]

/-- A key without a value is one that does not occur. -/
theorem find_eq_none_iff {key : κ} {entries : List (κ × ν)} :
    find key entries = none ↔ key ∉ keys entries := by
  induction entries with
  | nil => simp [find]
  | cons e rest ih =>
    obtain ⟨k, v⟩ := e
    by_cases hk : k = key
    · simp [find, hk]
    · have hk' : ¬ key = k := fun h => hk h.symm
      simp [find, hk, hk', ih]

/-- A value that is found stands in an entry with its key. -/
theorem mem_of_find {key : κ} {value : ν} {entries : List (κ × ν)}
    (hfind : find key entries = some value) : (key, value) ∈ entries := by
  induction entries with
  | nil => simp [find] at hfind
  | cons e rest ih =>
    obtain ⟨k, v⟩ := e
    by_cases hk : k = key
    · subst hk
      simp only [find, if_true, Option.some.injEq] at hfind
      simp [hfind]
    · simp only [find, hk, if_false] at hfind
      exact List.mem_cons_of_mem _ (ih hfind)

/-- Where no key occurs twice, a key has the value that it stands with. -/
theorem find_of_mem {key : κ} {value : ν} {entries : List (κ × ν)}
    (hDistinct : (keys entries).Nodup) (hMem : (key, value) ∈ entries) :
    find key entries = some value := by
  induction entries with
  | nil => simp at hMem
  | cons e rest ih =>
    obtain ⟨k, v⟩ := e
    obtain ⟨hHead, hRest⟩ := List.nodup_cons.1 hDistinct
    rcases List.mem_cons.1 hMem with hFirst | hMem
    · cases hFirst
      rw [find, if_pos rfl]
    · have hk : ¬ k = key := by
        rintro rfl
        exact hHead (List.mem_map.2 ⟨_, hMem, rfl⟩)
      rw [find, if_neg hk, ih hRest hMem]

end Entries

/-! ## The map -/

/-- A map that remembers the order in which its keys were first written. -/
structure OrderedMap (κ ν : Type) where
  entries : List (κ × ν)
  distinct : (Entries.keys entries).Nodup

namespace OrderedMap

variable {κ ν : Type}

/-- The map without entries. -/
def empty : OrderedMap κ ν := ⟨[], List.nodup_nil⟩

instance : EmptyCollection (OrderedMap κ ν) := ⟨empty⟩
instance : Inhabited (OrderedMap κ ν) := ⟨empty⟩

/-- The keys, first written first. -/
def keys (m : OrderedMap κ ν) : List κ := Entries.keys m.entries

/-- The values, in the order of their keys. -/
def values (m : OrderedMap κ ν) : List ν := m.entries.map Prod.snd

/-- The number of keys. -/
def size (m : OrderedMap κ ν) : Nat := m.entries.length

/-- Are there no keys? -/
def isEmpty (m : OrderedMap κ ν) : Bool := m.entries.isEmpty

/-- A map is its entries; that they are distinct is no further data. -/
theorem ext_entries {m n : OrderedMap κ ν} (h : m.entries = n.entries) : m = n := by
  cases m; cases n; cases h; rfl

variable [DecidableEq κ]

/-- The value of a key. -/
def get? (m : OrderedMap κ ν) (key : κ) : Option ν := Entries.find key m.entries

/-- Has the key a value? -/
def contains (m : OrderedMap κ ν) (key : κ) : Bool := (m.get? key).isSome

/-- Write `value` under `key`: in place if the key is known, at the end otherwise. -/
def insert (m : OrderedMap κ ν) (key : κ) (value : ν) : OrderedMap κ ν where
  entries := Entries.put key value m.entries
  distinct := by
    rw [Entries.keys_put]
    split
    · exact m.distinct
    · rename_i hm
      refine List.nodup_append.2 ⟨m.distinct, by simp, ?_⟩
      intro a ha b hb
      rw [List.mem_singleton] at hb
      exact fun hab => hm (hb ▸ hab ▸ ha)

/-- Forget `key`; the other keys keep their order. -/
def erase (m : OrderedMap κ ν) (key : κ) : OrderedMap κ ν where
  entries := Entries.drop key m.entries
  distinct := by
    rw [Entries.keys_drop]
    exact m.distinct.erase key

/-- The map of a list of pairs; of two pairs with one key the later value stays, in the place
    of the earlier pair. -/
def ofList (pairs : List (κ × ν)) : OrderedMap κ ν :=
  pairs.foldl (fun m p => m.insert p.1 p.2) empty

@[simp] theorem get?_empty (key : κ) : (empty : OrderedMap κ ν).get? key = none := rfl

omit [DecidableEq κ] in
@[simp] theorem keys_empty : (empty : OrderedMap κ ν).keys = [] := rfl

@[simp] theorem get?_insert_self (m : OrderedMap κ ν) (key : κ) (value : ν) :
    (m.insert key value).get? key = some value := Entries.find_put_self key value m.entries

theorem get?_insert_of_ne (m : OrderedMap κ ν) {key other : κ} (hne : other ≠ key) (value : ν) :
    (m.insert key value).get? other = m.get? other :=
  Entries.find_put_of_ne hne value m.entries

/-- The value of a key after a write, of that key or another. -/
theorem get?_insert (m : OrderedMap κ ν) (key other : κ) (value : ν) :
    (m.insert key value).get? other = if other = key then some value else m.get? other := by
  split
  · rename_i h; rw [h, get?_insert_self]
  · rename_i h; exact get?_insert_of_ne m h value

theorem insert_insert_self (m : OrderedMap κ ν) (key : κ) (first second : ν) :
    (m.insert key first).insert key second = m.insert key second :=
  ext_entries (Entries.put_put key first second m.entries)

theorem keys_insert (m : OrderedMap κ ν) (key : κ) (value : ν) :
    (m.insert key value).keys = if key ∈ m.keys then m.keys else m.keys ++ [key] :=
  Entries.keys_put key value m.entries

theorem entries_insert_of_not_mem {m : OrderedMap κ ν} {key : κ} (hKey : key ∉ m.keys)
    (value : ν) : (m.insert key value).entries = m.entries ++ [(key, value)] :=
  Entries.put_of_not_mem hKey value

theorem get?_eq_none_iff {m : OrderedMap κ ν} {key : κ} : m.get? key = none ↔ key ∉ m.keys :=
  Entries.find_eq_none_iff

/-- As keys are distinct, the value of a key and its entry say the same. -/
theorem get?_eq_some_iff_mem {m : OrderedMap κ ν} {key : κ} {value : ν} :
    m.get? key = some value ↔ (key, value) ∈ m.entries :=
  ⟨Entries.mem_of_find, Entries.find_of_mem m.distinct⟩

theorem contains_iff {m : OrderedMap κ ν} {key : κ} : m.contains key = true ↔ key ∈ m.keys := by
  rw [contains, Option.isSome_iff_ne_none, ne_eq, get?_eq_none_iff, Decidable.not_not]

theorem erase_of_get?_eq_none {m : OrderedMap κ ν} {key : κ} (hKey : m.get? key = none) :
    m.erase key = m :=
  ext_entries (Entries.drop_of_not_mem (get?_eq_none_iff.1 hKey))

theorem keys_erase (m : OrderedMap κ ν) (key : κ) : (m.erase key).keys = m.keys.erase key :=
  Entries.keys_drop key m.entries

theorem get?_erase_self (m : OrderedMap κ ν) (key : κ) : (m.erase key).get? key = none := by
  rw [get?_eq_none_iff, keys_erase]
  exact m.distinct.not_mem_erase

theorem get?_erase_of_ne (m : OrderedMap κ ν) {key other : κ} (hne : other ≠ key) :
    (m.erase key).get? other = m.get? other := Entries.find_drop_of_ne hne m.entries

/-! ### Maps of lists of pairs -/

theorem ofList_concat (pairs : List (κ × ν)) (pair : κ × ν) :
    ofList (pairs ++ [pair]) = (ofList pairs).insert pair.1 pair.2 := by
  rw [ofList, List.foldl_append]
  rfl

/-- One more element is kept if it was not there before. -/
theorem eraseDups_concat (list : List κ) (last : κ) :
    (list ++ [last]).eraseDups =
      if last ∈ list then list.eraseDups else list.eraseDups ++ [last] := by
  rw [List.eraseDups_append, List.removeAll]
  split
  · rename_i hMem
    rw [List.filter_cons_of_neg (by simp [hMem]), List.filter_nil, List.eraseDups_nil,
      List.append_nil]
  · rename_i hMem
    rw [List.filter_cons_of_pos (by simp [hMem]), List.filter_nil, List.eraseDups_cons,
      List.filter_nil, List.eraseDups_nil]

/-- The keys stand in the order in which they first occur, each of them once. -/
theorem keys_ofList (pairs : List (κ × ν)) :
    (ofList pairs).keys = (pairs.map Prod.fst).eraseDups := by
  rw [← List.reverse_reverse pairs]
  induction pairs.reverse with
  | nil => rfl
  | cons pair rest ih =>
    rw [List.reverse_cons, ofList_concat, keys_insert, List.map_append, List.map_singleton,
      eraseDups_concat, ih]
    simp only [List.mem_eraseDups]

/-- Where no key occurs twice, each pair is kept where it was written. -/
theorem entries_ofList {pairs : List (κ × ν)} (hDistinct : (Entries.keys pairs).Nodup) :
    (ofList pairs).entries = pairs := by
  rw [← List.reverse_reverse pairs] at hDistinct ⊢
  generalize pairs.reverse = backwards at hDistinct ⊢
  induction backwards with
  | nil => rfl
  | cons pair rest ih =>
    rw [List.reverse_cons, Entries.keys, List.map_append, List.nodup_append] at hDistinct
    obtain ⟨hRest, -, hApart⟩ := hDistinct
    have hNew : pair.1 ∉ (ofList rest.reverse).keys := by
      rw [keys_ofList, List.mem_eraseDups]
      exact fun hMem => hApart _ hMem pair.1 List.mem_cons_self rfl
    rw [List.reverse_cons, ofList_concat, entries_insert_of_not_mem hNew, ih hRest]

/-- The first key with a property is the first one written that has it. -/
theorem find?_keys_ofList (p : κ → Bool) (pairs : List (κ × ν)) :
    (ofList pairs).keys.find? p = (pairs.map Prod.fst).find? p := by
  rw [← List.reverse_reverse pairs]
  induction pairs.reverse with
  | nil => rfl
  | cons pair rest ih =>
    rw [List.reverse_cons, ofList_concat, keys_insert, List.map_append, List.find?_append, ← ih]
    split
    · rename_i hKey
      -- A key that is there already comes too late to be the first one.
      cases hFound : (ofList rest.reverse).keys.find? p with
      | some key => rfl
      | none => simp [List.find?_eq_none.1 hFound pair.1 hKey]
    · rw [List.find?_append]
      rfl

/-- A key has the value that it occurs with last. -/
theorem get?_ofList (key : κ) (pairs : List (κ × ν)) :
    (ofList pairs).get? key = (pairs.filter (·.1 = key)).getLast?.map Prod.snd := by
  rw [← List.reverse_reverse pairs]
  induction pairs.reverse with
  | nil => rfl
  | cons pair rest ih =>
    rw [List.reverse_cons, ofList_concat, get?_insert, List.filter_append]
    split
    · rename_i hKey
      simp [hKey]
    · rename_i hKey
      rw [ih, List.filter_cons_of_neg (by simpa using Ne.symm hKey), List.filter_nil,
        List.append_nil]

/-- Each entry is a key with its value. -/
theorem map_entries {m : OrderedMap κ ν} {ρ : Type} {f : κ × ν → ρ} {g : κ → ρ}
    (hSame : ∀ key value, m.get? key = some value → f (key, value) = g key) :
    m.entries.map f = m.keys.map g := by
  rw [keys, Entries.keys, List.map_map]
  exact List.map_congr_left fun entry hEntry =>
    hSame entry.1 entry.2 (get?_eq_some_iff_mem.2 hEntry)

/-- The first entry whose key has a property is that of the first such key. -/
theorem find?_entries {m : OrderedMap κ ν} {p : κ → Bool} {key : κ}
    (hFound : m.keys.find? p = some key) :
    ∃ value, m.get? key = some value ∧ m.entries.find? (fun e => p e.1) = some (key, value) := by
  rw [keys, Entries.keys, List.find?_map, Option.map_eq_some_iff] at hFound
  obtain ⟨⟨key, value⟩, hEntry, rfl⟩ := hFound
  exact ⟨value, get?_eq_some_iff_mem.2 (List.mem_of_find?_eq_some hEntry), hEntry⟩

example : ((((empty : OrderedMap String Nat).insert "a" 1).insert "b" 2).insert "a" 3).entries =
    [("a", 3), ("b", 2)] := by decide

end OrderedMap

end Lineage
