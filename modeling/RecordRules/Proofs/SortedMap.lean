import Mathlib.Data.List.Sort
import RecordRules.SortedMap

/-!
# Look-ups in maps with ascending keys

A look-up finds exactly the entries of the map, so that a map is determined by what its look-ups find.
-/
namespace RecordRules

namespace Entries

variable {α : Type} {es : List (String × α)}

/-- No two entries of an ascending list have one key. -/
theorem Ascending.eq_of_mem {key : String} {a b : α} (h : Ascending es) (ha : (key, a) ∈ es)
    (hb : (key, b) ∈ es) : a = b := by
  induction es with
  | nil => exact nomatch ha
  | cons e rest ih =>
      obtain ⟨hfirst, hrest⟩ := List.pairwise_cons.1 h
      rcases List.mem_cons.1 ha with rfl | hatail
      · rcases List.mem_cons.1 hb with hb | hbtail
        · exact (congrArg Prod.snd hb).symm
        · exact absurd (hfirst (key, b) hbtail) (String.lt_irrefl key)
      · rcases List.mem_cons.1 hb with rfl | hbtail
        · exact absurd (hfirst (key, a) hatail) (String.lt_irrefl key)
        · exact ih hrest hatail hbtail

end Entries

namespace SortedMap

variable {α : Type} {m n : SortedMap α} {key : String} {a : α}

theorem get?_eq_some_iff : m.get? key = some a ↔ (key, a) ∈ m.entries := by
  constructor
  · intro h
    obtain ⟨before, after, hentries, -⟩ := List.lookup_eq_some_iff.1 h
    rw [hentries]
    exact List.mem_append_right _ List.mem_cons_self
  · intro h
    have hsome : (m.get? key).isSome := List.lookup_isSome_iff.2 ⟨(key, a), h, beq_self_eq_true key⟩
    obtain ⟨b, hb⟩ := Option.isSome_iff_exists.1 hsome
    obtain ⟨before, after, hentries, -⟩ := List.lookup_eq_some_iff.1 hb
    have hmem : (key, b) ∈ m.entries := by
      rw [hentries]
      exact List.mem_append_right _ List.mem_cons_self
    rw [hb, m.ascending.eq_of_mem hmem h]

/-- The keys are the texts that a look-up finds. -/
theorem mem_keys_iff : key ∈ m.keys ↔ ∃ a, m.get? key = some a := by
  simp [keys, get?_eq_some_iff]

/-- Maps with the same look-ups are equal. -/
theorem eq_of_get? (h : ∀ key, m.get? key = n.get? key) : m = n := by
  have hantisymm : Std.Antisymm fun a b : String × α => a.1 < b.1 :=
    ⟨fun a b hab hba => absurd (String.lt_trans hab hba) (String.lt_irrefl a.1)⟩
  have hirrefl : Std.Irrefl fun a b : String × α => a.1 < b.1 := ⟨fun a => String.lt_irrefl a.1⟩
  refine ext (List.Pairwise.eq_of_mem_iff m.ascending n.ascending ?_)
  rintro ⟨key, a⟩
  rw [← get?_eq_some_iff, ← get?_eq_some_iff, h key]

end SortedMap

end RecordRules
