/-!
# Lists of field names

Field names collected in the order of their first occurrence, each once.
-/
namespace RecordRules

/-- Appends a name unless it is there already. -/
def addName (names : List String) (name : String) : List String :=
  if names.contains name then names else names ++ [name]

/-- Appends several names, one after the other. -/
def addNames (names more : List String) : List String := more.foldl addName names

theorem mem_addName {names : List String} {name other : String} :
    other ∈ addName names name ↔ other ∈ names ∨ other = name := by
  unfold addName
  split
  · rename_i h
    constructor
    · exact .inl
    · rintro (h' | rfl)
      · exact h'
      · simpa using h
  · simp

theorem addName_of_mem {names : List String} {name : String} (h : name ∈ names) :
    addName names name = names := by
  simp [addName, h]

/-- Adding a name keeps the list free of repetitions. -/
theorem nodup_addName {names : List String} (h : names.Nodup) (name : String) :
    (addName names name).Nodup := by
  unfold addName
  split
  · exact h
  · rename_i hc
    refine List.nodup_append.2 ⟨h, by simp, ?_⟩
    intro a ha b hb hab
    have hb' : b = name := by simpa using hb
    subst hb'
    subst hab
    exact hc (by simpa using ha)

theorem mem_addNames {names more : List String} {other : String} :
    other ∈ addNames names more ↔ other ∈ names ∨ other ∈ more := by
  induction more generalizing names with
  | nil => simp [addNames]
  | cons a rest ih =>
      have : addNames names (a :: rest) = addNames (addName names a) rest := rfl
      rw [this, ih, mem_addName]
      simp [or_assoc]

end RecordRules
