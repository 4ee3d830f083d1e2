import RecordRules.Proofs.Failure
import RecordRules.Proofs.Number.Pattern
import RecordRules.Value.Context

/-!
# Values and JSON data

What is left of a value that is written as JSON data and read again, and of JSON data that are read and written again.
A value comes back but for NaN and the infinities in it, which JSON cannot write and which come back as nil. JSON data
come back but for whole numbers above the signed range, which become floating-point numbers, unless there is an object
in them: then they are refused, and the error names the first object.
-/
namespace RecordRules

/-! ## Values -/

namespace Value

/-- Induction over values: a list has a property if all its items have it. -/
theorem induction {P : Value → Prop} (scalar : ∀ v, v.type ≠ .list → P v)
    (list : ∀ items, (∀ v ∈ items, P v) → P (.list items)) (v : Value) : P v :=
  match v with
  | .list items => list items fun v _ => induction scalar list v
  | .nil | .bool _ | .int _ | .float _ | .str _ => scalar _ nofun
termination_by sizeOf v

/-- A value occurs in itself, and in a list if it occurs in one of the items. -/
inductive Occurs (part : Value) : Value → Prop
  | self : Occurs part part
  | item {v : Value} {items : List Value} : v ∈ items → Occurs part v → Occurs part (.list items)

mutual
/-- The value with nil in the place of NaN and of the infinities. -/
def finitePart : Value → Value
  | float x => if x.isFinite then float x else nil
  | list items => list (finiteParts items)
  | nil => nil
  | bool b => bool b
  | int n => int n
  | str s => str s
termination_by structural v => v

def finiteParts : List Value → List Value
  | [] => []
  | v :: rest => v.finitePart :: finiteParts rest
termination_by structural vs => vs
end

theorem finiteParts_eq_self_iff {vs : List Value} : finiteParts vs = vs ↔ ∀ v ∈ vs, v.finitePart = v := by
  induction vs with
  | nil => simp [finiteParts]
  | cons v rest ih => rw [finiteParts, List.cons.injEq, List.forall_mem_cons, ih]

/-- All floating-point numbers that occur in the value are finite. -/
theorem finitePart_eq_self_iff (v : Value) :
    v.finitePart = v ↔ ∀ x, Occurs (float x) v → x.isFinite = true := by
  induction v using Value.induction with
  | scalar v hv =>
      cases v with
      | list items => exact absurd rfl hv
      | nil | bool b | int n | str s => exact iff_of_true rfl fun x hx => nomatch hx
      | float x =>
          rw [finitePart]
          constructor
          · intro h y hy
            cases hy
            by_contra hx
            rw [if_neg hx] at h
            exact nomatch h
          · intro h
            exact if_pos (h x .self)
  | list items ih =>
      rw [finitePart, list.injEq, finiteParts_eq_self_iff]
      constructor
      · intro h x hx
        cases hx with
        | item hv hoccurs => exact (ih _ hv).1 (h _ hv) x hoccurs
      · intro h v hv
        exact (ih v hv).2 fun x hx => h x (.item hv hx)

theorem ofItems_toJsonItems {vs : List Value} (h : ∀ v ∈ vs, ofJson v.toJson = .ok v.finitePart) :
    ofItems (toJsonItems vs) = .ok (finiteParts vs) := by
  induction vs with
  | nil => rfl
  | cons v rest ih =>
      obtain ⟨hv, hrest⟩ := List.forall_mem_cons.1 h
      rw [toJsonItems, ofItems, hv, ih hrest]
      rfl

theorem ofJson_toJson (v : Value) : ofJson v.toJson = .ok v.finitePart := by
  induction v using Value.induction with
  | scalar v hv =>
      cases v with
      | list items => exact absurd rfl hv
      | nil | bool b | int n | str s => rfl
      | float x =>
          rw [toJson, finitePart]
          split
          · rfl
          · rfl
  | list items ih =>
      rw [toJson, ofJson, ofItems_toJsonItems ih]
      rfl

end Value

/-! ## JSON data -/

/-- The number with a floating-point number in the place of a whole number above the signed range. -/
def JsonNumber.widened : JsonNumber → JsonNumber
  | large n _ => .float (Number.ofInt n.toNat) (Number.isFinite_ofInt n.toNat_lt)
  | int n => .int n
  | float x finite => .float x finite

theorem JsonNumber.toJson_toValue (n : JsonNumber) : n.toValue.toJson = .number n.widened := by
  cases n with
  | int n => rfl
  | large n _ => exact dif_pos (Number.isFinite_ofInt n.toNat_lt)
  | float x finite => exact dif_pos finite

namespace Json

/-- Induction over JSON data as far as it goes into arrays. -/
theorem induction {P : Json → Prop} (array : ∀ items, (∀ j ∈ items, P j) → P (.array items))
    (other : ∀ j, (∀ items, j ≠ .array items) → P j) (j : Json) : P j :=
  match j with
  | .array items => array items fun j _ => induction array other j
  | .null | .bool _ | .number _ | .string _ | .object _ => other _ nofun
termination_by sizeOf j

/-- JSON data occur in themselves, and in an array or an object if they occur in one of its elements or members. -/
inductive Occurs (part : Json) : Json → Prop
  | self : Occurs part part
  | item {j : Json} {items : List Json} : j ∈ items → Occurs part j → Occurs part (.array items)
  | member {key : String} {j : Json} {members : List (String × Json)} :
      (key, j) ∈ members → Occurs part j → Occurs part (.object members)

/-- An object occurs in the data. -/
def HasObject (j : Json) : Prop := ∃ members, Occurs (.object members) j

/-- The object stands in front of all others in the order of the arrays. -/
inductive FirstObject (members : List (String × Json)) : Json → Prop
  | self : FirstObject members (.object members)
  | item {before : List Json} {j : Json} {after : List Json} :
      (∀ b ∈ before, ¬b.HasObject) → FirstObject members j → FirstObject members (.array (before ++ j :: after))

mutual
/-- The data with floating-point numbers in the place of the whole numbers above the signed range, in all arrays. -/
def widened : Json → Json
  | number n => number n.widened
  | array items => array (widenedItems items)
  | null => null
  | bool b => bool b
  | string s => string s
  | object members => object members
termination_by structural j => j

def widenedItems : List Json → List Json
  | [] => []
  | j :: rest => j.widened :: widenedItems rest
termination_by structural js => js
end

theorem hasObject_object (members : List (String × Json)) : (object members).HasObject := ⟨members, .self⟩

theorem hasObject_array_iff {items : List Json} : (array items).HasObject ↔ ∃ j ∈ items, j.HasObject := by
  constructor
  · intro ⟨members, h⟩
    cases h with
    | item hj hpart => exact ⟨_, hj, members, hpart⟩
  · intro ⟨j, hj, members, h⟩
    exact ⟨members, .item hj h⟩

theorem FirstObject.hasObject {members : List (String × Json)} {j : Json} (h : FirstObject members j) :
    j.HasObject := by
  induction h with
  | self => exact hasObject_object members
  | item _ _ ih => exact hasObject_array_iff.2 ⟨_, by simp, ih⟩

/-- Where objects occur, one of them is the first. -/
theorem exists_firstObject {j : Json} (h : j.HasObject) : ∃ members, FirstObject members j := by
  induction j using Json.induction with
  | array items ih =>
      classical
      obtain ⟨j, hj, hobject⟩ := hasObject_array_iff.1 h
      have hfound : (items.find? fun j => j.HasObject).isSome :=
        List.find?_isSome.2 ⟨j, hj, decide_eq_true hobject⟩
      obtain ⟨first, hfirst⟩ := Option.isSome_iff_exists.1 hfound
      obtain ⟨hobject, before, after, rfl, hbefore⟩ := List.find?_eq_some_iff_append.1 hfirst
      have hmem : first ∈ before ++ first :: after := List.mem_append_right before List.mem_cons_self
      obtain ⟨members, hmembers⟩ := ih first hmem (of_decide_eq_true hobject)
      exact ⟨members, .item (fun b hb => by simpa using hbefore b hb) hmembers⟩
  | other j hj =>
      obtain ⟨members, h⟩ := h
      cases h with
      | self => exact ⟨members, .self⟩
      | item _ _ => exact absurd rfl (hj _)
      | member _ _ => exact ⟨_, .self⟩

end Json

namespace Value

theorem exists_ofItems {js : List Json} (h : ∀ j ∈ js, ∃ v, ofJson j = .ok v ∧ v.toJson = j.widened) :
    ∃ vs, ofItems js = .ok vs ∧ toJsonItems vs = Json.widenedItems js := by
  induction js with
  | nil => exact ⟨[], rfl, rfl⟩
  | cons j rest ih =>
      obtain ⟨⟨v, hv, hback⟩, hrest⟩ := List.forall_mem_cons.1 h
      obtain ⟨vs, hvs, hbacks⟩ := ih hrest
      refine ⟨v :: vs, ?_, ?_⟩
      · rw [ofItems, hv, hvs]
        rfl
      · rw [toJsonItems, Json.widenedItems, hback, hbacks]

/-- JSON data without objects are read, and written again they are the same but for large whole numbers. -/
theorem exists_ofJson_of_no_object {j : Json} (h : ¬j.HasObject) :
    ∃ v, ofJson j = .ok v ∧ v.toJson = j.widened := by
  induction j using Json.induction with
  | array items ih =>
      have hitems : ∀ j ∈ items, ∃ v, ofJson j = .ok v ∧ v.toJson = j.widened :=
        fun j hj => ih j hj fun hobject => h (Json.hasObject_array_iff.2 ⟨j, hj, hobject⟩)
      obtain ⟨vs, hvs, hback⟩ := exists_ofItems hitems
      exact ⟨list vs, by rw [ofJson, hvs]; rfl, by rw [toJson, hback, Json.widened]⟩
  | other j hj =>
      cases j with
      | array items => exact absurd rfl (hj items)
      | object members => exact absurd (Json.hasObject_object members) h
      | number n => exact ⟨n.toValue, rfl, n.toJson_toValue⟩
      | null | bool b | string s => exact ⟨_, rfl, rfl⟩

/-- The error of the first element that cannot be read is that of the array. -/
theorem ofItems_append_of_error {before after : List Json} {j : Json} {e : CastError}
    (hbefore : ∀ b ∈ before, ∃ v, ofJson b = .ok v) (hj : ofJson j = .error e) :
    ofItems (before ++ j :: after) = .error e := by
  induction before with
  | nil =>
      rw [List.nil_append, ofItems, hj]
      rfl
  | cons b before ih =>
      obtain ⟨⟨v, hv⟩, hbefore⟩ := List.forall_mem_cons.1 hbefore
      rw [List.cons_append, ofItems, hv, ih hbefore]
      rfl

theorem ofJson_of_firstObject {members : List (String × Json)} {j : Json} (h : Json.FirstObject members j) :
    ofJson j = .error (.unrepresentable (.object members)) := by
  induction h with
  | self => rfl
  | @item before j after hbefore _ ih =>
      have hread : ∀ b ∈ before, ∃ v, ofJson b = .ok v := by
        intro b hb
        obtain ⟨v, hv, -⟩ := exists_ofJson_of_no_object (hbefore b hb)
        exact ⟨v, hv⟩
      rw [ofJson, ofItems_append_of_error hread ih]
      rfl

theorem ofJson_eq_error_iff {j : Json} {e : CastError} :
    ofJson j = .error e ↔ ∃ members, Json.FirstObject members j ∧ e = .unrepresentable (.object members) := by
  constructor
  · intro h
    by_cases hobject : j.HasObject
    · obtain ⟨members, hmembers⟩ := Json.exists_firstObject hobject
      exact ⟨members, hmembers, Except.error.inj (h.symm.trans (ofJson_of_firstObject hmembers))⟩
    · obtain ⟨v, hv, -⟩ := exists_ofJson_of_no_object hobject
      exact nomatch h.symm.trans hv
  · rintro ⟨members, hmembers, rfl⟩
    exact ofJson_of_firstObject hmembers

/-- Written as JSON data and read again, a value is itself with nil in the place of NaN and of the infinities; it is
itself if and only if none of these occur in it. JSON data are refused if and only if an object occurs in them, and the
error is about the first one, in the order of the arrays. Those that are read come back with floating-point numbers in
the place of the whole numbers above the signed range, and otherwise as they were. -/
theorem json_round_trip (v : Value) (j : Json) :
    ofJson v.toJson = .ok v.finitePart ∧
    (ofJson v.toJson = .ok v ↔ ∀ x, Occurs (float x) v → x.isFinite = true) ∧
    ((∃ e, ofJson j = .error e) ↔ ∃ members, Json.Occurs (.object members) j) ∧
    (∀ e, ofJson j = .error e ↔
      ∃ members, Json.FirstObject members j ∧ e = .unrepresentable (.object members)) ∧
    ∀ w, ofJson j = .ok w → w.toJson = j.widened := by
  refine ⟨ofJson_toJson v, ?_, ?_, fun e => ofJson_eq_error_iff, ?_⟩
  · rw [ofJson_toJson, Except.ok.injEq, finitePart_eq_self_iff]
  · constructor
    · intro ⟨e, he⟩
      obtain ⟨members, hmembers, -⟩ := ofJson_eq_error_iff.1 he
      exact hmembers.hasObject
    · intro hobject
      obtain ⟨members, hmembers⟩ := Json.exists_firstObject hobject
      exact ⟨_, ofJson_of_firstObject hmembers⟩
  · intro w hw
    by_cases hobject : j.HasObject
    · obtain ⟨members, hmembers⟩ := Json.exists_firstObject hobject
      exact nomatch hw.symm.trans (ofJson_of_firstObject hmembers)
    · obtain ⟨v, hv, hback⟩ := exists_ofJson_of_no_object hobject
      obtain rfl := Except.ok.inj (hw.symm.trans hv)
      exact hback

/-- An array of the least number above the signed range and of two objects, one of them in an array of its own. -/
def twoObjects : Json :=
  .array [.number (.large 0x8000000000000000 le_rfl), .array [.object [("a", .object [])]], .object []]

/-- A list of NaN comes back as one of nil. Of the two objects the one in the array in front is refused. Alone, the
large number comes back as a floating-point number. -/
theorem json_round_trip_twoObjects :
    ofJson (list [float (0.0 / 0.0)]).toJson = .ok (list [nil]) ∧
      ofJson twoObjects = .error (.unrepresentable (.object [("a", .object [])])) ∧
      ofJson (.number (.large 0x8000000000000000 le_rfl)) = .ok (float 9223372036854775808) ∧
      (float 9223372036854775808).toJson = (Json.number (.large 0x8000000000000000 le_rfl)).widened := by
  have hnone : ∀ b ∈ [Json.number (.large 0x8000000000000000 le_rfl)], ¬b.HasObject := by
    intro b hb
    obtain rfl := List.mem_singleton.1 hb
    rintro ⟨members, h⟩
    exact nomatch h
  have hinner : Json.FirstObject [("a", .object [])] (.array ([] ++ [.object [("a", .object [])]])) :=
    .item (List.forall_mem_nil _) .self
  have hfirst : Json.FirstObject [("a", .object [])] twoObjects := .item hnone hinner
  have hread : ofJson (.number (.large 0x8000000000000000 le_rfl)) = .ok (float 9223372036854775808) :=
    congrArg (fun x => Except.ok (float x)) (by decide +kernel)
  obtain ⟨hvalue, -, -, herror, -⟩ := json_round_trip (list [float (0.0 / 0.0)]) twoObjects
  have hnan : ¬((0.0 / 0.0 : Float).isFinite = true) := by decide +kernel
  refine ⟨hvalue.trans ?_, (herror _).2 ⟨_, hfirst, rfl⟩, hread, ?_⟩
  · rw [finitePart, finiteParts, finiteParts, finitePart, if_neg hnan]
  · exact (json_round_trip nil (.number (.large 0x8000000000000000 le_rfl))).2.2.2.2 _ hread

end Value

end RecordRules
