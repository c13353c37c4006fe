/-!
# Dictionaries in insertion order

A dictionary lists its entries in the order their keys came first; a key that comes again takes
the new value and keeps its place.
-/

namespace ScriptWriter

variable {α : Type}

/-- Gives `key` the value, in its place if it has one, at the end otherwise. -/
def insertEntry (key : String) (value : α) : List (String × α) → List (String × α)
  | [] => [(key, value)]
  | (k, v) :: rest => if k = key then (k, value) :: rest else (k, v) :: insertEntry key value rest

theorem mem_keys_insertEntry {key k : String} {value : α} {entries : List (String × α)} :
    k ∈ (insertEntry key value entries).map Prod.fst ↔ k = key ∨ k ∈ entries.map Prod.fst := by
  induction entries with
  | nil => simp [insertEntry]
  | cons e rest ih =>
    obtain ⟨k', v⟩ := e
    by_cases h : k' = key
    · subst h; simp [insertEntry]
    · simp only [insertEntry, h, if_false, List.map_cons, List.mem_cons, ih]
      constructor <;> (rintro (h | h | h) <;> simp [h])

theorem nodup_keys_insertEntry {key : String} {value : α} {entries : List (String × α)}
    (h : (entries.map Prod.fst).Nodup) : ((insertEntry key value entries).map Prod.fst).Nodup := by
  induction entries with
  | nil => simp [insertEntry]
  | cons e rest ih =>
    obtain ⟨k, v⟩ := e
    simp only [List.map_cons, List.nodup_cons] at h
    by_cases hk : k = key
    · simpa only [insertEntry, hk, if_true, List.map_cons, List.nodup_cons] using hk ▸ h
    · simp only [insertEntry, hk, if_false, List.map_cons, List.nodup_cons, mem_keys_insertEntry]
      exact ⟨not_or.2 ⟨not_false, h.1⟩, ih h.2⟩

theorem lookup_cons_eq_if (k key : String) (value : α) (entries : List (String × α)) :
    ((key, value) :: entries).lookup k = if k = key then some value else entries.lookup k := by
  by_cases h : k = key
  · simp [h]
  · rw [List.lookup_cons, beq_false_of_ne h, if_neg h]

theorem lookup_insertEntry {key k : String} {value : α} {entries : List (String × α)} :
    (insertEntry key value entries).lookup k =
      if k = key then some value else entries.lookup k := by
  induction entries with
  | nil => exact lookup_cons_eq_if k key value []
  | cons e rest ih =>
    obtain ⟨k', v⟩ := e
    unfold insertEntry
    split
    · next h => subst h; simp only [lookup_cons_eq_if]; split <;> rfl
    · next h =>
      simp only [lookup_cons_eq_if, ih]
      by_cases hk : k = k'
      · simp [hk, h]
      · simp [hk]

/-- A new key comes last. -/
theorem insertEntry_of_notMem {key : String} {value : α} {entries : List (String × α)}
    (h : key ∉ entries.map Prod.fst) :
    insertEntry key value entries = entries ++ [(key, value)] := by
  induction entries with
  | nil => rfl
  | cons e rest ih =>
    obtain ⟨k, v⟩ := e
    simp only [List.map_cons, List.mem_cons, not_or] at h
    rw [insertEntry, if_neg (Ne.symm h.1), ih h.2, List.cons_append]

/-- Entries in insertion order, each key once. -/
structure Dict (α : Type) where
  entries : List (String × α)
  distinct : (entries.map Prod.fst).Nodup

namespace Dict

def empty : Dict α := ⟨[], by simp⟩

instance : Inhabited (Dict α) := ⟨empty⟩

def insert (d : Dict α) (key : String) (value : α) : Dict α :=
  ⟨insertEntry key value d.entries, nodup_keys_insertEntry d.distinct⟩

theorem entries_insert (d : Dict α) (key : String) (value : α) :
    (d.insert key value).entries = insertEntry key value d.entries := rfl

/-- Inserts the entries one after another, so the last value of a key counts. -/
def insertAll (d : Dict α) (entries : List (String × α)) : Dict α :=
  entries.foldl (fun d e => d.insert e.1 e.2) d

def ofList (entries : List (String × α)) : Dict α := empty.insertAll entries

theorem entries_insertAll {entries : List (String × α)} {d : Dict α}
    (h : ((d.entries ++ entries).map Prod.fst).Nodup) :
    (d.insertAll entries).entries = d.entries ++ entries := by
  induction entries generalizing d with
  | nil => exact (List.append_nil _).symm
  | cons e rest ih =>
    have hnew : e.1 ∉ d.entries.map Prod.fst := by
      rw [List.map_append, List.map_cons] at h
      exact fun hm => (List.nodup_append.1 h).2.2 e.1 hm e.1 List.mem_cons_self rfl
    have hinsert : (d.insert e.1 e.2).entries = d.entries ++ [e] := insertEntry_of_notMem hnew
    have hrest := ih (d := d.insert e.1 e.2) (by rw [hinsert, List.append_assoc]; exact h)
    rw [hinsert, List.append_assoc] at hrest
    exact hrest

/-- Entries with distinct keys are kept as they are. -/
theorem entries_ofList {entries : List (String × α)} (h : (entries.map Prod.fst).Nodup) :
    (ofList entries).entries = entries :=
  entries_insertAll (d := empty) h

def get? (d : Dict α) (key : String) : Option α := d.entries.lookup key

@[simp] theorem get?_empty (k : String) : (empty : Dict α).get? k = none := rfl

@[simp] theorem get?_insert (d : Dict α) (key k : String) (value : α) :
    (d.insert key value).get? k = if k = key then some value else d.get? k :=
  lookup_insertEntry

def contains (d : Dict α) (key : String) : Bool := (d.get? key).isSome

def size (d : Dict α) : Nat := d.entries.length

def isEmpty (d : Dict α) : Bool := d.entries.isEmpty

def keys (d : Dict α) : List String := d.entries.map Prod.fst

/-- Two dictionaries agree if they have the same keys, in any order, and related values. -/
def agrees (same : α → α → Bool) (a b : Dict α) : Bool :=
  a.size == b.size && a.entries.all fun e =>
    match b.get? e.1 with
    | some v => same e.2 v
    | none => false

end Dict

end ScriptWriter
