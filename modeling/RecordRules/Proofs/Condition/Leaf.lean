import RecordRules.Proofs.Condition.Meaning
import RecordRules.Proofs.Evaluation.Text

/-!
# What becomes of the value of a leaf

A leaf is written with the literal form of its value, and the evaluator reads a value back from it. Truth values
and texts come back as they were, and so do numbers as numbers. What a number can lose is its kind: a
floating-point number whose digits are those of an integer in range comes back as that integer, negative zero
as zero, and the least integer, whose digits without the sign are out of range, comes back as a floating-point
number. The kind decides how the operator of the leaf computes and compares.
-/
namespace RecordRules

open Grammar Number

/-- The value that the literal form of a value evaluates to. -/
def Value.readBack : Value → Value
  | int n => if n = Int64.minValue then float (ofInt n.toInt) else int n
  | float x =>
      match int64? (magnitudeText .plain (pattern x)) with
      | some n => int (if isNegative x then -n else n)
      | none => float x
  | v => v

namespace Value

variable {v : Value}

theorem isIntPattern_iff {x : Float} (h : x.isFinite = true) :
    IsIntPattern (pattern x) ↔ ¬(Value.float x).IsExact := by
  refine ⟨fun hint hexact => not_isIntPattern_of_isExact hexact hint, fun hexact => ?_⟩
  by_contra hint
  refine hexact ⟨h, ?_⟩
  by_contra hno
  obtain ⟨⟨n, hn⟩, hlt⟩ : (∃ n : ℤ, exact x = n) ∧ |exact x| < 2 ^ 63 := by simpa using hno
  refine hint ⟨⟨n.natAbs, ?_⟩, ?_⟩
  · rw [← abs_exact, hn, Nat.cast_natAbs, Int.cast_abs]
  · rw [← abs_exact]
    exact_mod_cast hlt

/-- Exactly the exact values are read back as they were. -/
theorem readBack_eq_iff (h : v.IsScalar) : v.readBack = v ↔ v.IsExact := by
  cases v with
  | nil => exact h.elim
  | bool b => exact iff_of_true rfl trivial
  | str s => exact iff_of_true rfl trivial
  | list items => exact h.elim
  | int n =>
      rw [readBack]
      split_ifs with hn
      · exact iff_of_false nofun (fun hexact => hexact hn)
      · exact iff_of_true rfl hn
  | float x =>
      rw [readBack, ← not_not (a := IsExact _), ← isIntPattern_iff h]
      rcases Token.Lexes.magnitude (pattern_lt_infinity h) with ⟨hint, n, -, -, hsome, -⟩ | ⟨hint, hnone, -⟩
      · rw [hsome]
        exact iff_of_false nofun (not_not.2 hint)
      · rw [hnone]
        exact iff_of_true rfl hint

/-- A scalar that is not exact is the least integer or a whole floating-point number within the 64-bit range. -/
theorem eq_of_not_isExact (h : v.IsScalar) (hexact : ¬v.IsExact) :
    v = .int Int64.minValue ∨ ∃ x, v = .float x ∧ x.isFinite = true ∧ IsIntPattern (pattern x) := by
  cases v with
  | nil => exact h.elim
  | bool b => exact absurd trivial hexact
  | str s => exact absurd trivial hexact
  | list items => exact h.elim
  | int n => exact .inl (congrArg _ (not_not.1 hexact))
  | float x => exact .inr ⟨x, rfl, h, (isIntPattern_iff h).2 hexact⟩

/-! ## Reading literals back -/

theorem nearest_le_infinity (n : ℕ) : Format.double.nearest n 1 ≤ Format.double.infinity := by
  rw [← Format.double_rounded_natCast]
  exact Format.rounded_le_infinity _ _

theorem neg_ofInt {n : ℕ} (h : 0 < n) : -ofInt n = ofInt (-n) := by
  have hsign : decide ((n : ℤ) < 0) = false := decide_eq_false (by omega)
  have hsign' : decide (-(n : ℤ) < 0) = true := decide_eq_true (by omega)
  rw [ofInt, ofInt, hsign, hsign', Int.natAbs_neg, Int.natAbs_natCast, neg_ofPattern false (nearest_le_infinity n)]
  rfl

/-- The literal form of a scalar evaluates to what is read back. -/
theorem evalIn_reread_readBack (env : Environment) (context : Context) (h : v.IsScalar) :
    v.reread.evalIn env context = .ok v.readBack := by
  by_cases hexact : v.IsExact
  · rw [(readBack_eq_iff h).2 hexact, evalIn_reread env context hexact]
  obtain rfl | ⟨x, rfl, hfinite, hint⟩ := eq_of_not_isExact h hexact
  · have hneg : decide (Int64.minValue.toInt < 0) = true := by decide
    have hwhole : ofWhole Int64.minValue.toInt.natAbs = float (ofInt (2 ^ 63 : ℕ)) := by
      rw [ofWhole, if_neg (by decide)]
      rfl
    have hnegate : (float (ofInt (2 ^ 63 : ℕ))).negate = .ok (float (-ofInt (2 ^ 63 : ℕ))) := rfl
    rw [reread, hneg, hwhole, evalIn_signed, if_pos rfl, hnegate, neg_ofInt (by decide), readBack, if_pos rfl]
    rfl
  · have hnegate (m : Int64) : (int m).negate = .ok (int (-m)) := rfl
    rcases Token.Lexes.magnitude (pattern_lt_infinity hfinite) with ⟨-, n, -, -, hsome, -⟩ | ⟨hno, -⟩
    · rw [reread, isNaN_of_isFinite hfinite, if_neg Bool.false_ne_true, if_pos hfinite, ofMagnitude, hsome,
        evalIn_signed, hnegate, readBack, hsome]
      split_ifs <;> rfl
    · exact absurd hint hno

/-! ## Numbers stay the same -/

theorem exact_ofInt (n : ℕ) : exact (ofInt n) = Format.double.value (Format.double.nearest n 1) := by
  have hsign : decide ((n : ℤ) < 0) = false := decide_eq_false (by omega)
  rw [ofInt, hsign, Int.natAbs_natCast, exact_ofPattern (nearest_le_infinity n)]

theorem exact_ofInt_neg (n : ℕ) : exact (ofInt (-n)) = -exact (ofInt n) := by
  rcases Nat.eq_zero_or_pos n with rfl | hpos
  · have hzero : exact (ofInt (0 : ℕ)) = 0 := by
      rw [exact_ofInt, Format.nearest_zero]
      simp [Format.value, Format.decode, Format.unit]
    rw [hzero, neg_zero]
    exact hzero
  · have hsign : decide (-(n : ℤ) < 0) = true := decide_eq_true (by omega)
    have hle := nearest_le_infinity n
    rw [exact_ofInt, ofInt, hsign, Int.natAbs_neg, Int.natAbs_natCast, exact, isNegative_ofPattern true hle,
      pattern_ofPattern true hle, if_pos rfl]

/-- The integer that a whole floating-point number within the 64-bit range is written as. -/
theorem exists_int_of_isIntPattern {p : ℕ} (hp : p ≤ Format.double.infinity) (hint : IsIntPattern p) :
    ∃ n : ℕ, n < 2 ^ 63 ∧ int64? (magnitudeText .plain p) = some (Int64.ofInt n) ∧
      exact (ofInt n) = Format.double.value p := by
  obtain ⟨n, htext, hround, hrange⟩ := magnitudeText_of_whole hp hint.1
  have hn : n < 2 ^ 63 := hrange.2 hint.2
  refine ⟨n, hn, ?_, ?_⟩
  · rw [htext, Token.int64?_toDigits, if_pos hn]
    rfl
  · rw [ofInt_natCast, hround, exact_ofPattern hp]

/-- What is read back is the same number, though it may be of another kind. -/
theorem exists_toFloat_readBack (h : v.IsScalar) {x : Float} (hx : v.toFloat = .ok x) :
    ∃ y, v.readBack.toFloat = .ok y ∧ exact y = exact x := by
  by_cases hexact : v.IsExact
  · exact ⟨x, by rw [(readBack_eq_iff h).2 hexact, hx], rfl⟩
  obtain rfl | ⟨x', rfl, hfinite, hint⟩ := eq_of_not_isExact h hexact
  · rw [readBack, if_pos rfl]
    exact ⟨x, hx, rfl⟩
  · obtain rfl : x' = x := Except.ok.inj hx
    obtain ⟨n, hn, hsome, hvalue⟩ := exists_int_of_isIntPattern (pattern_lt_infinity hfinite).le hint
    have hmin : Int64.minValue.toInt = -2 ^ 63 := by decide
    have hmax : Int64.maxValue.toInt = 2 ^ 63 - 1 := by decide
    rw [readBack, hsome]
    refine ⟨_, rfl, ?_⟩
    cases hneg : isNegative x' with
    | true =>
        have htoInt : (-Int64.ofInt n).toInt = -n := by
          rw [← Int64.ofInt_neg]
          exact Token.toInt_ofInt (by omega)
        rw [if_pos rfl, htoInt, exact_ofInt_neg, hvalue, exact, hneg, if_pos rfl]
    | false =>
        have htoInt : (Int64.ofInt n).toInt = n := Token.toInt_ofInt (by omega)
        rw [if_neg Bool.false_ne_true, htoInt, hvalue, exact, hneg, if_neg Bool.false_ne_true]

end Value

/-! ## Trees of one leaf -/

theorem IsField.ne_empty {field : String} (h : IsField field) : field ≠ "" := by
  rintro rfl
  obtain ⟨c, r, hnil, -⟩ := h.isName
  exact nomatch hnil

namespace Condition

variable {connector opName field : String} {op : ValueOp} {value : Json} {v : Value}

theorem leafValue_of_ofJson {members : List (String × Json)} (hmember : members.lookup "value" = some value)
    (hv : Value.ofJson value = .ok v) (hscalar : v.IsScalar) : leafValue members = .ok v := by
  rw [leafValue, hmember]
  cases value with
  | null =>
      obtain rfl := Except.ok.inj hv
      exact hscalar.elim
  | bool b => exact congrArg _ (Except.ok.inj hv)
  | number n => exact congrArg _ (Except.ok.inj hv)
  | string s => exact congrArg _ (Except.ok.inj hv)
  | array items =>
      rw [Value.ofJson] at hv
      cases hitems : Value.ofItems items with
      | error e =>
          rw [hitems] at hv
          exact nomatch hv
      | ok vs =>
          rw [hitems] at hv
          obtain rfl := Except.ok.inj hv
          exact hscalar.elim
  | object members => exact nomatch hv

/-- The members of a leaf. -/
def leafMembers (opName field : String) (value : Json) : List (String × Json) :=
  [("field", .string field), ("op", .string opName), ("value", value)]

theorem ofLeaf_leafMembers (hop : ValueOp.ofName? opName = some op) (hfield : field ≠ "")
    (hv : Value.ofJson value = .ok v) (hscalar : v.IsScalar) :
    ofLeaf (leafMembers opName field value) = .ok (.leaf op field v) := by
  have hopRead : leafOp (leafMembers opName field value) = .ok op := by
    have hmember : (leafMembers opName field value).lookup "op" = some (.string opName) := rfl
    rw [leafOp, hmember]
    simp only [hop]
  have hfieldRead : leafField (leafMembers opName field value) = .ok field := if_neg hfield
  rw [ofLeaf, hopRead, hfieldRead, leafValue_of_ofJson rfl hv hscalar]
  rfl

/-- The JSON data of a group of one leaf. -/
def oneLeaf (connector opName field : String) (value : Json) : Json :=
  .object [("children", .array [.object (leafMembers opName field value)]), ("connector", .string connector)]

theorem ofJson_oneLeaf (hop : ValueOp.ofName? opName = some op) (hfield : field ≠ "")
    (hv : Value.ofJson value = .ok v) (hscalar : v.IsScalar) :
    ofJson (oneLeaf connector opName field value) = .ok (.group (.ofName connector) [.leaf op field v]) := by
  have hchild (group : List Nat → Json → Except TreeError Condition) (path : List Nat) :
      ofChild group path (.object (leafMembers opName field value)) = .ok (.leaf op field v) := by
    change (ofLeaf (leafMembers opName field value)).mapError _ = _
    rw [ofLeaf_leafMembers hop hfield hv hscalar]
    rfl
  change (do
    let cs ← ofChildren (ofGroup maxDepth) [] 0 [.object (leafMembers opName field value)]
    .ok (group (.ofName connector) cs) : Except TreeError Condition) = _
  rw [ofChildren, hchild]
  rfl

/-- The text of a leaf. -/
def leafText (op : ValueOp) (field : String) (v : Value) : String := field ++ " " ++ op.symbol ++ " " ++ v.text

theorem compile_oneLeaf (hconnector : connector ≠ "NOT") (hop : ValueOp.ofName? opName = some op)
    (hfield : field ≠ "") (hv : Value.ofJson value = .ok v) (hscalar : v.IsScalar) :
    compile (oneLeaf connector opName field value) = .ok (leafText op field v) := by
  rw [compile, ofJson_oneLeaf hop hfield hv hscalar]
  have hne : Connector.ofName connector ≠ .not := by
    unfold Connector.ofName
    split_ifs <;> decide
  have hrender : (group (.ofName connector) [.leaf op field v]).render = (leaf op field v).render := by
    cases hc : Connector.ofName connector with
    | not => exact absurd hc hne
    | and | or | blank => rfl
  change compiled _ = _
  rw [compiled, hrender]
  rfl

theorem parse_leafText (op : ValueOp) (hfield : IsField field) (hscalar : v.IsScalar) :
    Expr.parse (leafText op field v) = .ok (tree (.leaf op field v)) := by
  have hparse := (Renders.leaf op hfield hscalar).writes.parse
  have hdepth : Places.deepest Value.signCost [(1, v)] ≤ maxNesting := by
    rw [Places.deepest_le_iff, List.forall_mem_singleton, Value.signCost, maxNesting]
    split_ifs <;> omega
  rwa [String.ofList_toList, if_pos hdepth] at hparse

theorem parse_literal (hscalar : v.IsScalar) : Expr.parse v.text = .ok v.reread := by
  have hlist : ∀ items, v ≠ .list items := by
    rintro items rfl
    exact hscalar
  have hdepth : (if v.isSigned then 2 else 1) ≤ maxNesting := by split_ifs <;> decide
  have hparse := (Value.writes hlist).parse
  rwa [if_pos hdepth] at hparse

/-- The text of a leaf applies its operator to the field and to what is read back from the literal of its value.
That is the value itself just for the exact ones; it is the same number in any case. -/
theorem evaluate_oneLeaf (hconnector : connector ≠ "NOT") (hop : ValueOp.ofName? opName = some op)
    (hfield : IsField field) (hv : Value.ofJson value = .ok v) (hscalar : v.IsScalar) :
    compile (oneLeaf connector opName field value) = .ok (leafText op field v) ∧
      (∃ e, Expr.parse (leafText op field v) = .ok e) ∧
      (∀ registry context,
        Expr.evaluate registry (leafText op field v) context = (context.read field).apply op v.readBack ∧
          Expr.evaluate registry v.text context = .ok v.readBack) ∧
      (v.readBack = v ↔ v.IsExact) ∧
      ∀ x, v.toFloat = .ok x → ∃ y, v.readBack.toFloat = .ok y ∧ exact y = exact x := by
  have hparse := parse_leafText op hfield hscalar
  refine ⟨compile_oneLeaf hconnector hop hfield.ne_empty hv hscalar, ⟨_, hparse⟩, ?_, ?_, ?_⟩
  · intro registry context
    obtain ⟨env, heval⟩ : ∃ env, ∀ e : Expr, e.eval registry context = e.evalIn env context :=
      ⟨⟨registry, Expr.evalWithin registry (Expr.callLimit - 1)⟩, fun _ => rfl⟩
    have hvalue := Value.evalIn_reread_readBack env context hscalar
    constructor
    · rw [Expr.evaluate_of_parse hparse, heval, tree, Expr.evalIn, hvalue]
      rfl
    · rw [Expr.evaluate_of_parse (parse_literal hscalar), heval, hvalue]
  · exact v.readBack_eq_iff hscalar
  · intro x hx
    exact v.exists_toFloat_readBack hscalar hx

/-- Two as a floating-point number. -/
def two : Float := ofPattern false 0x4000000000000000

/-- Half of the seven of a field, an integer: by the leaf it is three and a half, by its text three. -/
theorem evaluate_oneLeaf_half :
    compile (oneLeaf "AND" "QUO" "a" (.number (.float two rfl))) = .ok "a / 2" ∧
      (Value.float two).readBack = .int 2 ∧
      Expr.evaluate .builtin "a / 2" (SortedMap.ofList [("a", .int 7)]) = .ok (.int 3) ∧
      (Context.read (SortedMap.ofList [("a", .int 7)]) "a").apply (.compute .div) (.float two) =
        .ok (.float (ofPattern false 0x400c000000000000)) := by
  have hop : ValueOp.ofName? "QUO" = some (.compute .div) := by decide
  have hfield : IsField "a" := isField_of_isName (Token.isName_of_chars rfl (by decide)) (by decide)
  have hread : (Value.float two).readBack = .int 2 := by
    have hdigits : int64? (magnitudeText .plain (pattern two)) = some 2 := by decide +kernel
    rw [Value.readBack, hdigits]
    rfl
  have htext : leafText (.compute .div) "a" (.float two) = "a / 2" := by decide +kernel
  have hscalar : (Value.float two).IsScalar := rfl
  have hvalue : Value.ofJson (.number (.float two rfl)) = .ok (.float two) := rfl
  have hconnector : "AND" ≠ "NOT" := by decide
  obtain ⟨hcompile, -, heval, -⟩ := evaluate_oneLeaf hconnector hop hfield hvalue hscalar
  rw [htext] at hcompile heval
  refine ⟨hcompile, hread, ?_, rfl⟩
  rw [(heval _ _).1, hread]
  rfl

end Condition

end RecordRules
