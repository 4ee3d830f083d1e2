/-!
# Maps with ascending text keys

A finite map from text to values, kept as the list of its entries with strictly ascending keys. Text is
ordered by its code points, which is also the order of its UTF-8 bytes. Writing a key twice keeps the last
value. The main statements say what a look-up finds after a write or an erasure, and that the keys are
strictly ascending, so that each key occurs once and two maps with the same entries are equal.
-/
namespace RecordRules

namespace Entries

variable {α β : Type}

/-- Writes one entry into an ascending list, replacing an entry of the same key. -/
def put (key : String) (a : α) : List (String × α) → List (String × α)
  | [] => [(key, a)]
  | (k, b) :: rest =>
      if key < k then (key, a) :: (k, b) :: rest
      else if key = k then (key, a) :: rest
      else (k, b) :: put key a rest

/-- Removes every entry of a key. -/
def remove (key : String) (es : List (String × α)) : List (String × α) :=
  es.filter fun e => e.1 != key

/-- The keys of the list are strictly ascending. -/
def Ascending (es : List (String × α)) : Prop :=
  es.Pairwise fun a b => a.1 < b.1

theorem mem_put {key : String} {a : α} {e : String × α} {es : List (String × α)} (h : e ∈ put key a es) :
    e = (key, a) ∨ e ∈ es := by
  induction es with
  | nil => simpa [put] using h
  | cons d rest ih =>
      obtain ⟨k, b⟩ := d
      simp only [put] at h
      split at h
      · simpa using h
      · split at h
        · rcases List.mem_cons.1 h with h | h
          · exact .inl h
          · exact .inr (List.mem_cons_of_mem _ h)
        · rcases List.mem_cons.1 h with h | h
          · exact .inr (h ▸ List.mem_cons_self)
          · exact (ih h).imp id (List.mem_cons_of_mem _)

theorem lt_of_not_lt_of_ne {a b : String} (h : ¬ a < b) (hne : a ≠ b) : b < a := by
  by_cases hba : b < a
  · exact hba
  · exact absurd (String.le_antisymm (String.not_lt.1 hba) (String.not_lt.1 h)) hne

theorem Ascending.put {key : String} {a : α} {es : List (String × α)} (h : Ascending es) :
    Ascending (put key a es) := by
  induction es with
  | nil => simp [Entries.put, Ascending]
  | cons d rest ih =>
      obtain ⟨k, b⟩ := d
      obtain ⟨hk, hrest⟩ := List.pairwise_cons.1 h
      simp only [Entries.put]
      split
      · rename_i hlt
        refine List.pairwise_cons.2 ⟨fun e he => ?_, h⟩
        rcases List.mem_cons.1 he with rfl | he
        · exact hlt
        · exact String.lt_trans hlt (hk e he)
      · split
        · rename_i heq
          exact List.pairwise_cons.2 ⟨fun e he => heq ▸ hk e he, hrest⟩
        · rename_i hlt hne
          refine List.pairwise_cons.2 ⟨fun e he => ?_, ih hrest⟩
          rcases mem_put he with rfl | he
          · exact lt_of_not_lt_of_ne hlt hne
          · exact hk e he

theorem Ascending.remove {key : String} {es : List (String × α)} (h : Ascending es) :
    Ascending (remove key es) :=
  List.Pairwise.filter _ h

theorem lookup_put_self (key : String) (a : α) (es : List (String × α)) :
    (put key a es).lookup key = some a := by
  induction es with
  | nil => exact List.lookup_cons_self
  | cons d rest ih =>
      obtain ⟨k, b⟩ := d
      simp only [put]
      split
      · exact List.lookup_cons_self
      · split
        · exact List.lookup_cons_self
        · rename_i hne
          rw [List.lookup_cons, beq_false_of_ne hne]
          exact ih

theorem lookup_put_of_ne {key other : String} (a : α) (es : List (String × α)) (h : other ≠ key) :
    (put key a es).lookup other = es.lookup other := by
  have hk : (other == key) = false := beq_false_of_ne h
  induction es with
  | nil => simp [put, List.lookup_cons, hk]
  | cons d rest ih =>
      obtain ⟨k, b⟩ := d
      simp only [put]
      split
      · simp [List.lookup_cons, hk]
      · split
        · rename_i heq
          subst heq
          simp [List.lookup_cons, hk]
        · simp only [List.lookup_cons, ih]

theorem lookup_remove_self (key : String) (es : List (String × α)) : (remove key es).lookup key = none := by
  induction es with
  | nil => rfl
  | cons d rest ih =>
      obtain ⟨k, b⟩ := d
      by_cases h : k = key
      · have : remove key ((k, b) :: rest) = remove key rest := by simp [remove, h]
        rw [this]
        exact ih
      · have : remove key ((k, b) :: rest) = (k, b) :: remove key rest := by simp [remove, h]
        rw [this, List.lookup_cons, beq_false_of_ne (Ne.symm h)]
        exact ih

theorem lookup_remove_of_ne {key other : String} (es : List (String × α)) (h : other ≠ key) :
    (remove key es).lookup other = es.lookup other := by
  induction es with
  | nil => rfl
  | cons d rest ih =>
      obtain ⟨k, b⟩ := d
      by_cases hk : k = key
      · subst hk
        have : remove k ((k, b) :: rest) = remove k rest := by simp [remove]
        rw [this, List.lookup_cons, beq_false_of_ne h]
        exact ih
      · have : remove key ((k, b) :: rest) = (k, b) :: remove key rest := by simp [remove, hk]
        rw [this, List.lookup_cons, List.lookup_cons, ih]

end Entries

/-- A finite map from text to `α`. -/
structure SortedMap (α : Type) where
  entries : List (String × α)
  ascending : Entries.Ascending entries

namespace SortedMap

variable {α β : Type}

@[ext] theorem ext {m n : SortedMap α} (h : m.entries = n.entries) : m = n := by
  obtain ⟨_, _⟩ := m
  obtain ⟨_, _⟩ := n
  simpa using h

def empty : SortedMap α := ⟨[], List.Pairwise.nil⟩

instance : EmptyCollection (SortedMap α) := ⟨empty⟩

def get? (m : SortedMap α) (key : String) : Option α := m.entries.lookup key

/-- Writes a key; an older value of the key is replaced. -/
def insert (m : SortedMap α) (key : String) (a : α) : SortedMap α :=
  ⟨Entries.put key a m.entries, m.ascending.put⟩

def erase (m : SortedMap α) (key : String) : SortedMap α :=
  ⟨Entries.remove key m.entries, m.ascending.remove⟩

def contains (m : SortedMap α) (key : String) : Bool := (m.get? key).isSome

def keys (m : SortedMap α) : List String := m.entries.map Prod.fst

/-- The map of a list of entries; of two entries with one key the later one counts. -/
def ofList (es : List (String × α)) : SortedMap α :=
  es.foldl (fun m e => m.insert e.1 e.2) empty

/-- The same keys with other values. -/
def map (f : α → β) (m : SortedMap α) : SortedMap β where
  entries := m.entries.map fun e => (e.1, f e.2)
  ascending := by
    simpa [Entries.Ascending, List.pairwise_map] using m.ascending

@[simp] theorem get?_empty (key : String) : (empty : SortedMap α).get? key = none := rfl

@[simp] theorem get?_insert_self (m : SortedMap α) (key : String) (a : α) :
    (m.insert key a).get? key = some a :=
  Entries.lookup_put_self key a m.entries

theorem get?_insert_of_ne (m : SortedMap α) {key other : String} (a : α) (h : other ≠ key) :
    (m.insert key a).get? other = m.get? other :=
  Entries.lookup_put_of_ne a m.entries h

@[simp] theorem get?_erase_self (m : SortedMap α) (key : String) : (m.erase key).get? key = none :=
  Entries.lookup_remove_self key m.entries

theorem get?_erase_of_ne (m : SortedMap α) {key other : String} (h : other ≠ key) :
    (m.erase key).get? other = m.get? other :=
  Entries.lookup_remove_of_ne m.entries h

theorem keys_ascending (m : SortedMap α) : m.keys.Pairwise (· < ·) :=
  List.pairwise_map.2 m.ascending

end SortedMap

end RecordRules
