import RecordRules.Proofs.Lexer.Pieces
import RecordRules.Proofs.Number.Shortest

/-!
# Lexing numbers

A run of digits is one token, and so are two runs with a point between them. The token of a whole number is an
integer within the 64-bit range and a floating-point number beyond it; the token that a finite pattern in the
plain layout is cut into is the pattern itself, unless the number is whole and within that range.
-/
namespace RecordRules.Token

open Number

theorem plain_digit {c : Char} (h : c.isDigit = true) :
    c ∉ symbolStarts ∧ isGap c = false ∧ c ≠ '+' ∧ c ≠ '-' := by
  have hall :
      digits.all (fun d => d ∉ symbolStarts ∧ isGap d = false ∧ d ≠ '+' ∧ d ≠ '-') = true := by decide
  exact of_decide_eq_true (List.all_eq_true.1 hall c (mem_digits h))

theorem fraction_separated {rest : List Char} (h : Separated rest) : fraction rest = (none, rest) := by
  cases rest with
  | nil => rfl
  | cons c r =>
      have hc : c ≠ '.' := by simpa using separated_stops (p := (· == '.')) (by decide) h c rfl
      unfold fraction
      split
      · rename_i heq
        exact absurd (List.cons.inj heq).1 hc
      · rfl

theorem exponent_separated {rest : List Char} (h : Separated rest) : exponent rest = (none, rest) := by
  cases rest with
  | nil => rfl
  | cons c r =>
      have hc : (c == 'e' || c == 'E') = false :=
        separated_stops (p := fun c => c == 'e' || c == 'E') (by decide) h c rfl
      have hc' : ¬(c = 'e' ∨ c = 'E') := by simpa using hc
      rw [exponent, if_neg hc']

theorem spanDigits_append {ds rest : List Char} (hd : ∀ c ∈ ds, c.isDigit = true)
    (h : ∀ c ∈ rest.head?, c.isDigit = false) : spanDigits (ds ++ rest) = (ds, rest) :=
  Prod.ext (span_append hd h).1 (span_append hd h).2

/-- A text whose number is cut off before whatever separated text follows is a piece. -/
theorem Lexes.number {c : Char} {r : List Char} {t : Token} (hc : c.isDigit = true)
    (h : ∀ rest, Separated rest → number? (c :: (r ++ rest)) = some (t, rest)) : Lexes (c :: r) [t] := by
  obtain ⟨hsymbol, hgap, -, -⟩ := plain_digit hc
  exact Lexes.single hgap (fun he => hsymbol (he ▸ by decide)) fun rest hsep =>
    next?_of_number hsymbol (h rest hsep)

/-- A run of digits is one token. -/
theorem Lexes.digits {ds : List Char} (hne : ds ≠ []) (hd : ∀ c ∈ ds, c.isDigit = true) :
    Lexes ds [ofNumber ds none none] := by
  cases ds with
  | nil => exact absurd rfl hne
  | cons c r =>
      refine Lexes.number (hd c List.mem_cons_self) fun rest hsep => ?_
      have hspan : spanDigits (c :: (r ++ rest)) = (c :: r, rest) :=
        spanDigits_append hd (separated_stops (p := Char.isDigit) (by decide) hsep)
      simp only [number?, hspan, fraction_separated hsep, exponent_separated hsep]

/-- Two runs of digits with a point between them are one token. -/
theorem Lexes.fraction {whole part : List Char} (hne : whole ≠ [])
    (hd : ∀ c ∈ whole ++ part, c.isDigit = true) :
    Lexes (whole ++ '.' :: part) [ofNumber whole (some part) none] := by
  have hwhole : ∀ c ∈ whole, c.isDigit = true := fun c hc => hd c (List.mem_append_left _ hc)
  have hpart : ∀ c ∈ part, c.isDigit = true := fun c hc => hd c (List.mem_append_right _ hc)
  cases whole with
  | nil => exact absurd rfl hne
  | cons c r =>
      rw [List.cons_append]
      refine Lexes.number (hwhole c List.mem_cons_self) fun rest hsep => ?_
      have hspan : spanDigits (c :: (r ++ '.' :: part ++ rest)) = (c :: r, '.' :: (part ++ rest)) := by
        rw [List.append_assoc]
        exact spanDigits_append hwhole (by rintro _ ⟨⟩; decide)
      have hrest : spanDigits (part ++ rest) = (part, rest) :=
        spanDigits_append hpart (separated_stops (p := Char.isDigit) (by decide) hsep)
      simp only [number?, hspan, Token.fraction, hrest, exponent_separated hsep]

/-! ## Whole numbers -/

/-- The token of a whole number. -/
def ofWhole (n : ℕ) : Token :=
  if n < 2 ^ 63 then int (Int64.ofNat n) else float (ofPattern false (Format.double.nearestDecimal n 0))

theorem splitSign_digit {c : Char} (h : c.isDigit = true) (r : List Char) :
    splitSign (c :: r) = (false, c :: r) := by
  obtain ⟨-, -, hplus, hminus⟩ := plain_digit h
  unfold splitSign
  split <;> simp_all

theorem int?_digits {ds : List Char} (hne : ds ≠ []) (hd : ∀ c ∈ ds, c.isDigit = true) :
    int? ds = some (digitsValue ds : ℤ) := by
  cases ds with
  | nil => exact absurd rfl hne
  | cons c r =>
      have hall : (c :: r).all Char.isDigit = true := List.all_eq_true.2 hd
      simp [int?, splitSign_digit (hd c List.mem_cons_self), hall]

theorem isDigit_of_mem_toDigits {n : ℕ} : ∀ c ∈ Nat.toDigits 10 n, c.isDigit = true :=
  fun _ hc => Nat.isDigit_of_mem_toDigits (by decide) (by decide) hc

theorem int64?_toDigits (n : ℕ) :
    int64? (Nat.toDigits 10 n) = if n < 2 ^ 63 then some (Int64.ofNat n) else none := by
  have hmin : Int64.minValue.toInt = -2 ^ 63 := by decide
  have hmax : Int64.maxValue.toInt = 2 ^ 63 - 1 := by decide
  simp only [int64?, int?_digits Nat.toDigits_ne_nil isDigit_of_mem_toDigits, digitsValue_toDigits, hmin, hmax]
  by_cases hn : n < 2 ^ 63
  · rw [if_pos (by omega), if_pos hn]
    rfl
  · rw [if_neg (by omega), if_neg hn]

theorem int64?_point {whole : List Char} (hne : whole ≠ []) (hd : ∀ c ∈ whole, c.isDigit = true)
    (part : List Char) : int64? (whole ++ '.' :: part) = none := by
  cases whole with
  | nil => exact absurd rfl hne
  | cons c r =>
      have hall : (c :: (r ++ '.' :: part)).all Char.isDigit = false := by simp
      have hint : int? (c :: r ++ '.' :: part) = none := by
        rw [List.cons_append, int?, splitSign_digit (hd c List.mem_cons_self)]
        simp only [hall]
        exact if_neg fun h => nomatch h.2
      rw [int64?, hint]

theorem ofNumber_whole (n : ℕ) : ofNumber (Nat.toDigits 10 n) none none = ofWhole n := by
  simp only [ofNumber, int64?_toDigits, ofWhole, and_self, if_true]
  split_ifs
  · rfl
  · simp [Numeral.toDouble, digitsValue_toDigits]

theorem Lexes.whole (n : ℕ) : Lexes (Nat.toDigits 10 n) [ofWhole n] := by
  rw [← ofNumber_whole]
  exact Lexes.digits Nat.toDigits_ne_nil isDigit_of_mem_toDigits

/-! ## Patterns -/

/-- A whole number within the 64-bit range is cut into an integer that is written the same way, any other
number into the pattern that was written. -/
theorem Lexes.magnitude {p : ℕ} (h : p < Format.double.infinity) :
    (IsIntPattern p ∧ ∃ n < 2 ^ 63, magnitudeText .plain p = Nat.toDigits 10 n ∧
      int64? (magnitudeText .plain p) = some (Int64.ofNat n) ∧
      Lexes (magnitudeText .plain p) [int (Int64.ofNat n)]) ∨
    (¬IsIntPattern p ∧ int64? (magnitudeText .plain p) = none ∧
      Lexes (magnitudeText .plain p) [float (ofPattern false p)]) := by
  by_cases hw : IsWholePattern p
  · obtain ⟨n, htext, hread, hrange⟩ := magnitudeText_of_whole h.le hw
    have hlex := Lexes.whole n
    have hint := int64?_toDigits n
    rw [← htext] at hint
    rw [← htext, ofWhole] at hlex
    by_cases hn : n < 2 ^ 63
    · rw [if_pos hn] at hlex hint
      exact .inl ⟨⟨hw, hrange.1 hn⟩, n, hn, htext, hint, hlex⟩
    · rw [if_neg hn] at hlex hint
      rw [hread] at hlex
      exact .inr ⟨fun hp => hn (hrange.2 hp.2), hint, hlex⟩
  · obtain ⟨whole, part, htext, hne, hd, hread⟩ := magnitudeText_of_fraction h hw
    have hlex := Lexes.fraction hne hd
    have htoken : ofNumber whole (some part) none = float (ofPattern false p) := by
      simp [ofNumber, Numeral.toDouble, hread]
    rw [htoken, ← htext] at hlex
    have hint := int64?_point hne (fun c hc => hd c (List.mem_append_left _ hc)) part
    rw [← htext] at hint
    exact .inr ⟨fun hp => hw hp.1, hint, hlex⟩

end RecordRules.Token
