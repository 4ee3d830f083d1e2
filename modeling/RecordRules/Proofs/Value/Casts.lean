import RecordRules.Proofs.Failure
import RecordRules.Proofs.Lexer.Numbers
import RecordRules.Proofs.Value.NumericKind

/-!
# Casts that agree with each other

A cast leaves a value alone that is of the kind asked for already, and what it returns is of that kind. Blanks
around a numeral change no cast, so that an integer comes back from its text however it is spaced. The
evaluator's test for numeric texts reads the same two grammars as the casts; the two part ways on the empty text
only, which the casts take for zero and the evaluator for no number.
-/
namespace RecordRules

namespace Text

variable {before cs after : List Char}

theorem trimEnd_append (ha : ∀ c ∈ after, isBlank c = true) : trimEnd (cs ++ after) = trimEnd cs := by
  have hreverse : ∀ c ∈ after.reverse, isBlank c = true := fun c hc => ha c (List.mem_reverse.1 hc)
  rw [trimEnd, trimEnd, List.reverse_append, trimStart, List.dropWhile_append_of_pos hreverse, trimStart]

/-- Blanks around a text are trimmed away with those of the text. -/
theorem trim_append_append (hb : ∀ c ∈ before, isBlank c = true) (ha : ∀ c ∈ after, isBlank c = true) :
    trim (before ++ cs ++ after) = trim cs := by
  have hstart : trimStart (before ++ cs ++ after) = trimStart (cs ++ after) := by
    rw [List.append_assoc]
    exact List.dropWhile_append_of_pos hb
  rw [trim, hstart, trim]
  -- a text of blanks alone joins the blanks behind it, any other text keeps them behind its last character
  by_cases hcs : trimStart cs = []
  · have hblank : ∀ c ∈ cs ++ after, isBlank c = true := by
      intro c hc
      exact (List.mem_append.1 hc).elim (List.dropWhile_eq_nil_iff.1 hcs c) (ha c)
    rw [hcs, trimStart, List.dropWhile_eq_nil_iff.2 hblank]
  · have hkept : trimStart (cs ++ after) = trimStart cs ++ after := by
      simp only [trimStart] at hcs ⊢
      simp [List.dropWhile_append, hcs]
    rw [hkept, trimEnd_append ha]

theorem trimStart_eq_self (h : ∀ c ∈ cs, isBlank c = false) : trimStart cs = cs := by
  cases cs with
  | nil => rfl
  | cons c r => exact List.dropWhile_cons_of_neg (by simp [h c List.mem_cons_self])

theorem trim_eq_self (h : ∀ c ∈ cs, isBlank c = false) : trim cs = cs := by
  rw [trim, trimStart_eq_self h, trimEnd, trimStart_eq_self fun c hc => h c (List.mem_reverse.1 hc),
    List.reverse_reverse]

end Text

namespace Number

theorem isBlank_eq_false_of_isDigit {c : Char} (h : c.isDigit = true) : Text.isBlank c = false := by
  have hrange : 48 ≤ c.toNat ∧ c.toNat ≤ 57 := Char.isDigit_iff_toNat.1 h
  simp [Text.isBlank]
  omega

theorem isBlank_eq_false_of_mem_intText {n : ℤ} : ∀ c ∈ intText n, Text.isBlank c = false := by
  have hdigits : ∀ c ∈ Nat.toDigits 10 n.natAbs, Text.isBlank c = false := fun c hc =>
    isBlank_eq_false_of_isDigit (Token.isDigit_of_mem_toDigits c hc)
  intro c hc
  rw [intText] at hc
  split_ifs at hc
  · rcases List.mem_cons.1 hc with rfl | hc
    · rfl
    · exact hdigits c hc
  · exact hdigits c hc

/-- A whole number is read back from its text. The sign is read apart from the digits, so that the magnitude
may be one more than the greatest integer. -/
theorem int?_intText (n : ℤ) : int? (intText n) = some n := by
  rw [intText]
  split_ifs with hn
  · have hall : (Nat.toDigits 10 n.natAbs).all Char.isDigit = true :=
      List.all_eq_true.2 Token.isDigit_of_mem_toDigits
    simp only [int?, splitSign, digitsValue_toDigits]
    rw [if_pos ⟨Nat.toDigits_ne_nil, hall⟩, if_pos trivial]
    exact congrArg some (by omega)
  · rw [Token.int?_digits Nat.toDigits_ne_nil Token.isDigit_of_mem_toDigits, digitsValue_toDigits]
    exact congrArg some (by omega)

theorem int64?_intText (n : Int64) : int64? (intText n.toInt) = some n :=
  int64?_eq_some_iff.2 (int?_intText n.toInt)

end Number

/-- An integer is read back from its text with any blanks around it. -/
theorem int64OfText?_spaced {before after : String} (hb : ∀ c ∈ before.toList, Text.isBlank c = true)
    (ha : ∀ c ∈ after.toList, Text.isBlank c = true) (n : Int64) :
    int64OfText? (before ++ Number.int64Text n ++ after) = some n := by
  have htext : (before ++ Number.int64Text n ++ after).toList =
      before.toList ++ Number.intText n.toInt ++ after.toList := by
    simp [Number.int64Text]
  rw [int64OfText?, htext, Text.trim_append_append hb ha,
    Text.trim_eq_self Number.isBlank_eq_false_of_mem_intText, Number.int64?_intText]

namespace Value

variable {v w : Value} {k : Kind} {s : String}

/-! ## Kinds -/

/-- The values of a kind. Every value is of the two kinds that ask for no conversion. -/
inductive HasKind : Value → Kind → Prop
  | string (s : String) : HasKind (str s) .string
  | int64 (n : Int64) : HasKind (int n) .int64
  | bool (b : Bool) : HasKind (.bool b) .bool
  | float (x : Float) : HasKind (.float x) .float
  | object (v : Value) : HasKind v .object
  | any (v : Value) : HasKind v .any

theorem hasKind_of_cast (h : v.cast k = .ok w) : w.HasKind k := by
  cases k with
  | any => exact .any w
  | object => exact .object w
  | string =>
      obtain ⟨s, -, rfl⟩ := exists_of_map_eq_ok h
      exact .string s
  | int64 =>
      obtain ⟨n, -, rfl⟩ := exists_of_map_eq_ok h
      exact .int64 n
  | bool =>
      obtain ⟨b, -, rfl⟩ := exists_of_map_eq_ok h
      exact .bool b
  | float =>
      obtain ⟨x, -, rfl⟩ := exists_of_map_eq_ok h
      exact .float x

theorem HasKind.cast (h : v.HasKind k) : v.cast k = .ok v := by
  cases h <;> rfl

/-! ## Texts -/

theorem exists_cast_int64_str (hs : s ≠ "") :
    (∃ w, (str s).cast .int64 = .ok w) ↔ (int64OfText? s).isSome := by
  simp only [Value.cast, toInt64, hs, if_false]
  cases int64OfText? s with
  | none =>
      refine iff_of_false ?_ Bool.false_ne_true
      rintro ⟨w, h⟩
      cases h
  | some n => exact iff_of_true ⟨int n, rfl⟩ rfl

theorem exists_cast_float_str (hs : s ≠ "") :
    (∃ w, (str s).cast .float = .ok w) ↔ (floatOfText? s).isSome := by
  simp only [Value.cast, toFloat, hs, if_false]
  cases floatOfText? s with
  | none =>
      refine iff_of_false ?_ Bool.false_ne_true
      rintro ⟨w, h⟩
      cases h
  | some x => exact iff_of_true ⟨float x, rfl⟩ rfl

/-- The evaluator takes a text for an integer if it spells one. -/
theorem numericKind_str_eq_int_iff : (str s).numericKind = some .int ↔ (int64OfText? s).isSome :=
  ⟨numericKind_str_int, fun h => if_pos h⟩

/-- The evaluator takes a text for a number if it spells a floating-point number. -/
theorem numericKind_str_ne_none_iff : (str s).numericKind ≠ none ↔ (floatOfText? s).isSome := by
  constructor
  · intro h
    obtain ⟨k, hk⟩ := Option.ne_none_iff_exists'.1 h
    exact numericKind_str hk
  · intro h
    rw [numericKind]
    split_ifs <;> exact Option.some_ne_none _

theorem int64OfText?_empty : int64OfText? "" = none := by rfl

theorem floatOfText?_empty : floatOfText? "" = none := by rfl

/-- A cast repeated changes nothing; an integer survives the way through its text, blanks added or not; and the
evaluator takes a text for a number, or for an integer, exactly when it is not empty and the casts to numbers
succeed. -/
theorem cast_coherent :
    (∀ (v w : Value) (k : Kind), v.cast k = .ok w → w.cast k = .ok w) ∧
    (∀ n : Int64, ∃ text : String, (int n).cast .string = .ok (str text) ∧
      (str text).cast .int64 = .ok (int n) ∧
      ∀ before after : String, (∀ c ∈ before.toList, Text.isBlank c = true) →
        (∀ c ∈ after.toList, Text.isBlank c = true) →
        (str (before ++ text ++ after)).cast .int64 = .ok (int n)) ∧
    (∀ s : String, (str s).numericKind ≠ none ↔ s ≠ "" ∧ ∃ w, (str s).cast .float = .ok w) ∧
    (∀ s : String, (str s).numericKind = some .int ↔
      s ≠ "" ∧ (∃ w, (str s).cast .float = .ok w) ∧ ∃ w, (str s).cast .int64 = .ok w) := by
  refine ⟨fun v w k h => (hasKind_of_cast h).cast, ?_, ?_, ?_⟩
  · intro n
    have hspaced : ∀ before after : String, (∀ c ∈ before.toList, Text.isBlank c = true) →
        (∀ c ∈ after.toList, Text.isBlank c = true) →
        (str (before ++ Number.int64Text n ++ after)).cast .int64 = .ok (int n) := by
      intro before after hb ha
      have hread := int64OfText?_spaced hb ha n
      have hne : before ++ Number.int64Text n ++ after ≠ "" := by
        intro hempty
        rw [hempty, int64OfText?_empty] at hread
        cases hread
      rw [Value.cast, toInt64, if_neg hne, hread]
      rfl
    refine ⟨Number.int64Text n, rfl, ?_, hspaced⟩
    simpa using hspaced "" "" (by simp) (by simp)
  · intro s
    rw [numericKind_str_ne_none_iff]
    by_cases hs : s = ""
    · subst hs
      simp [floatOfText?_empty]
    · rw [exists_cast_float_str hs]
      exact (and_iff_right hs).symm
  · intro s
    rw [numericKind_str_eq_int_iff]
    by_cases hs : s = ""
    · subst hs
      simp [int64OfText?_empty]
    · rw [exists_cast_float_str hs, exists_cast_int64_str hs]
      exact ⟨fun h => ⟨hs, isSome_floatOfText?_of_int64OfText? h, h⟩, fun h => h.2.2⟩

/-- A numeral with a plus sign becomes an integer, which stays one, and the least integer comes back from its
text between a space and a no-break space. -/
theorem cast_coherent_least :
    ((str "+7").cast .int64 = .ok (int 7) ∧ (int 7).cast .int64 = .ok (int 7)) ∧
      ∃ text : String, (int Int64.minValue).cast .string = .ok (str text) ∧
        (str (" " ++ text ++ "\u00a0")).cast .int64 = .ok (int Int64.minValue) := by
  obtain ⟨hidempotent, htext, -, -⟩ := cast_coherent
  have hseven : (str "+7").cast .int64 = .ok (int 7) := by rfl
  obtain ⟨text, hshown, -, hspaced⟩ := htext Int64.minValue
  exact ⟨⟨hseven, hidempotent _ _ _ hseven⟩, text, hshown,
    hspaced " " "\u00a0" (List.forall_mem_singleton.2 rfl) (List.forall_mem_singleton.2 rfl)⟩

end Value

end RecordRules
