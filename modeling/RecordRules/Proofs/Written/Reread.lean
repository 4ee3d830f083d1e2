import RecordRules.Proofs.Lexer.Tokens
import RecordRules.Proofs.Written.Literal

/-!
# Written forms are read back

The written form of a tree that a text was parsed to is parsed again, to a tree that is written the same way.
It is the tree itself unless a floating-point literal is infinite or is whole and within the 64-bit range,
where the text of the literal is that of a name or of an integer. The written form puts every operator in
parentheses, so that its nesting is the height of the tree.
-/
namespace RecordRules

open Grammar Number

namespace Number

/-- A finite double that is not whole or not below the end of the 64-bit range. -/
def WrittenExactly (x : Float) : Prop :=
  x.isFinite = true ∧ ((¬∃ n : ℤ, exact x = n) ∨ 2 ^ 63 ≤ exact x)

theorem writtenExactly_ofPattern {p : ℕ} (h : p ≤ Format.double.infinity) :
    WrittenExactly (ofPattern false p) ↔ p < Format.double.infinity ∧ ¬IsIntPattern p := by
  have hwhole : (∃ n : ℤ, Format.double.value p = n) ↔ IsWholePattern p := by
    constructor
    · rintro ⟨n, hn⟩
      have hpos : 0 ≤ n := by
        have := Format.double.value_nonneg p
        rw [hn] at this
        exact_mod_cast this
      exact ⟨n.toNat, by rw [hn, ← Int.cast_natCast, Int.toNat_of_nonneg hpos]⟩
    · rintro ⟨n, hn⟩
      exact ⟨n, by rw [hn, Int.cast_natCast]⟩
  rw [WrittenExactly, isFinite_ofPattern false h, exact_ofPattern h, hwhole, IsIntPattern, not_and_or, not_lt,
    Nat.cast_pow, Nat.cast_ofNat]

end Number

/-- A value as it stands in a literal of a parsed tree: numbers carry no sign. -/
def Value.IsToken : Value → Prop
  | .int n => 0 ≤ n.toInt
  | .float x => ∃ p ≤ Format.double.infinity, x = ofPattern false p
  | .list _ => False
  | .nil | .bool _ | .str _ => True

namespace Expr

/-! ## The tree that is read back -/

mutual
/-- The tree that the written form of a tree is read as. -/
def reread : Expr → Expr
  | literal v => v.reread
  | ident name => ident name
  | unary op operand => unary op operand.reread
  | binary op left right => binary op left.reread right.reread
  | call name args => call name (rereadAll args)
  | list items => list (rereadAll items)
termination_by structural e => e

/-- The trees that the written forms of a list of trees are read as. -/
def rereadAll : List Expr → List Expr
  | [] => []
  | e :: rest => e.reread :: rereadAll rest
termination_by structural es => es
end

mutual
/-- The number of nodes on the longest path down a tree. -/
def height : Expr → ℕ
  | literal _ | ident _ => 1
  | unary _ operand => operand.height + 1
  | binary _ left right => max left.height right.height + 1
  | call _ args => heightAll args + 1
  | list items => heightAll items + 1
termination_by structural e => e

/-- The height of the highest of several trees. -/
def heightAll : List Expr → ℕ
  | [] => 0
  | e :: rest => max e.height (heightAll rest)
termination_by structural es => es
end

mutual
/-- The floating-point literals of a tree. -/
def floats : Expr → List Float
  | literal (.float x) => [x]
  | literal _ | ident _ => []
  | unary _ operand => operand.floats
  | binary _ left right => left.floats ++ right.floats
  | call _ args => allFloats args
  | list items => allFloats items
termination_by structural e => e

/-- The floating-point literals of a list of trees. -/
def allFloats : List Expr → List Float
  | [] => []
  | e :: rest => e.floats ++ allFloats rest
termination_by structural es => es
end

/-! ## Trees that texts are parsed to -/

mutual
/-- A tree as texts are parsed to: literals without signs, and names that are no words of the language. -/
def Readable : Expr → Prop
  | literal v => v.IsToken
  | ident name => Token.IsName name.toList ∧ word? name = none
  | unary _ operand => operand.Readable
  | binary _ left right => left.Readable ∧ right.Readable
  | call name args => Token.IsName name.toList ∧ word? name = none ∧ AllReadable args
  | list items => AllReadable items
termination_by structural e => e

/-- A list of trees as texts are parsed to. -/
def AllReadable : List Expr → Prop
  | [] => True
  | e :: rest => e.Readable ∧ AllReadable rest
termination_by structural es => es
end

/-- What is asked of the meaning of a derivation. -/
def ReadableMeaning : (n : Nonterminal) → n.Meaning → Prop
  | .phrase _, e => Readable e
  | .tail _, grow => ∀ left : Expr, left.Readable → (grow left).Readable
  | .primary, e => Readable e
  | .items, es => AllReadable es

theorem isToken_of_word? {name : String} {v : Value} (h : word? name = some v) : v.IsToken := by
  unfold word? at h
  split_ifs at h <;> (obtain rfl := Option.some.inj h; trivial)

theorem readable_meaning {n : Nonterminal} (d : Derivation n) (h : ∀ t ∈ d.tokens, t.WellFormed) :
    ReadableMeaning n d.meaning := by
  induction d with
  | chain first rest ihf ihr =>
      simp only [Derivation.tokens, List.mem_append, or_imp, forall_and] at h
      exact ihr h.2 _ (ihf h.1)
  | done => exact fun left hl => hl
  | more s op hop right rest ihr iht =>
      simp only [Derivation.tokens, List.mem_cons, List.mem_append, or_imp, forall_and] at h
      exact fun left hl => iht h.2.2 _ ⟨hl, ihr h.2.1⟩
  | not operand ih => exact ih fun t ht => h t (List.mem_cons_of_mem _ ht)
  | neg operand ih => exact ih fun t ht => h t (List.mem_cons_of_mem _ ht)
  | base p ih => exact ih h
  | int n => exact h _ List.mem_cons_self
  | float x => exact h _ List.mem_cons_self
  | str s => trivial
  | word name v hw => exact isToken_of_word? hw
  | field name hw => exact ⟨h _ List.mem_cons_self, hw⟩
  | call name hw args ih =>
      simp only [Derivation.tokens, List.mem_cons, List.mem_append, or_imp, forall_and] at h
      exact ⟨h.1 _ rfl, hw, ih h.2.2.1⟩
  | group inner ih =>
      simp only [Derivation.tokens, List.mem_cons, List.mem_append, or_imp, forall_and] at h
      exact ih h.2.1
  | list items ih =>
      simp only [Derivation.tokens, List.mem_cons, List.mem_append, or_imp, forall_and] at h
      exact ih h.2.1
  | typed kind items ih =>
      simp only [Derivation.tokens, List.mem_cons, List.mem_append, or_imp, forall_and] at h
      exact ih h.2.2.2.2.1
  | none => trivial
  | last e ih => exact ⟨ih h, trivial⟩
  | item e rest ihe ihr =>
      simp only [Derivation.tokens, List.mem_cons, List.mem_append, or_imp, forall_and] at h
      exact ⟨ihe h.1, ihr h.2.2⟩

/-- Texts are parsed to readable trees. -/
theorem readable_of_parse {s : String} {e : Expr} (h : parse s = .ok e) : e.Readable := by
  obtain ⟨ts, htokens, hts⟩ := exists_of_bind_eq_ok h
  obtain ⟨d, rfl, -, rfl⟩ := exists_of_ofTokens hts
  exact readable_meaning d (Token.wellFormed_of_scan (Token.scan_of_tokens htokens))

/-! ## Reading back -/

theorem isSigned_of_isToken {v : Value} (h : v.IsToken) : v.isSigned = false := by
  cases v with
  | int n => exact decide_eq_false (not_lt.2 h)
  | float x =>
      obtain ⟨p, hp, rfl⟩ := h
      rw [Value.isSigned, isNegative_ofPattern false hp, Bool.and_false]
  | _ => rfl

theorem writes_literal {v : Value} (h : v.IsToken) : Writes .unary v.chars v.reread 1 := by
  have hlist : ∀ items, v ≠ .list items := by
    rintro items rfl
    exact h
  have hwrites := Value.writes hlist
  rwa [isSigned_of_isToken h] at hwrites

mutual
/-- The written form of a tree is that of a unary expression nested as deep as the tree is high. -/
theorem writes (e : Expr) (h : e.Readable) : Writes .unary e.chars e.reread e.height := by
  cases e with
  | literal v => exact writes_literal h
  | ident name => exact (WritesPrimary.field h.1 h.2).unary
  | unary op operand =>
      cases op with
      | not => exact (writes operand h).not
      | neg => exact (writes operand h).neg
  | binary op left right =>
      have hleft := (writes left h.1).of_unary (level op).operand
      have hright := (writes right h.2).of_unary (level op).operand
      exact (hleft.operation op hright).parens.unary
  | call name args => exact ((writesAll args h.2.2).call h.1 h.2.1).unary
  | list items => exact (writesAll items h).list.unary
termination_by structural e

theorem writesAll (es : List Expr) (h : AllReadable es) :
    WritesItems (Value.commaSeparated (allChars es)) (rereadAll es) (heightAll es) := by
  cases es with
  | nil => exact .nil
  | cons e rest =>
      cases rest with
      | nil =>
          rw [heightAll, heightAll, Nat.max_zero]
          exact .last (writes e h.1)
      | cons f rest => exact .cons (writes e h.1) (writesAll (f :: rest) h.2)
termination_by structural es
end

/-- Reading the written form of a readable tree succeeds as long as the tree is not too high. -/
theorem parse_text {e : Expr} (h : e.Readable) :
    parse e.text = if e.height ≤ maxNesting then .ok e.reread else .error .tooDeep := (writes e h).parse

/-! ## The text stays -/

theorem reread_int {n : Int64} (h : 0 ≤ n.toInt) : (Value.int n).reread = literal (.int n) := by
  have hrange : Int64.minValue.toInt ≤ n.toInt ∧ n.toInt ≤ Int64.maxValue.toInt :=
    ⟨Int64.le_toInt n, Int64.toInt_le n⟩
  rw [Value.reread, decide_eq_false (not_lt.2 h), Int.natAbs_of_nonneg h, Value.ofWhole, if_pos hrange,
    Int64.ofInt_toInt]
  rfl

theorem reread_float {p : ℕ} (h : p ≤ Format.double.infinity) :
    (Value.float (ofPattern false p)).reread =
      if p < Format.double.infinity then literal (.ofMagnitude p) else ident "inf" := by
  simp only [Value.reread, isNaN_ofPattern false h, isNegative_ofPattern false h, pattern_ofPattern false h,
    isFinite_ofPattern false h]
  rfl

theorem chars_int (n : ℕ) (h : n < 2 ^ 63) : (Value.int (Int64.ofNat n)).chars = Nat.toDigits 10 n := by
  rw [Value.chars, Int64.toInt_ofNat_of_lt h, intText, if_neg (by omega), Int.natAbs_natCast]

theorem chars_float {p : ℕ} (h : p ≤ Format.double.infinity) :
    (Value.float (ofPattern false p)).chars =
      if p < Format.double.infinity then magnitudeText .plain p else "inf".toList := by
  simp only [Value.chars, floatChars, isNaN_ofPattern false h, isNegative_ofPattern false h,
    pattern_ofPattern false h, isFinite_ofPattern false h]
  rfl

theorem chars_ofMagnitude {p : ℕ} (h : p < Format.double.infinity) :
    (Value.ofMagnitude p).chars = magnitudeText .plain p := by
  by_cases hint : IsIntPattern p
  · obtain ⟨n, hn, htext, hvalue⟩ := Value.exists_ofMagnitude_int h hint
    rw [hvalue, htext]
    exact chars_int n hn
  · rw [Value.ofMagnitude_float h hint]
    exact (chars_float h.le).trans (if_pos h)

theorem chars_reread_literal {v : Value} (h : v.IsToken) : v.reread.chars = v.chars := by
  cases v with
  | int n => rw [reread_int h, chars]
  | float x =>
      obtain ⟨p, hp, rfl⟩ := h
      rw [reread_float hp, chars_float hp]
      split_ifs with hfin
      · exact chars_ofMagnitude hfin
      · rfl
  | _ => rfl

mutual
theorem chars_reread (e : Expr) (h : e.Readable) : e.reread.chars = e.chars := by
  cases e with
  | literal v => exact chars_reread_literal h
  | ident name => rfl
  | unary op operand => simp only [reread, chars, chars_reread operand h]
  | binary op left right => simp only [reread, chars, chars_reread left h.1, chars_reread right h.2]
  | call name args => simp only [reread, chars, allChars_reread args h.2.2]
  | list items => simp only [reread, chars, allChars_reread items h]
termination_by structural e

theorem allChars_reread (es : List Expr) (h : AllReadable es) : allChars (rereadAll es) = allChars es := by
  cases es with
  | nil => rfl
  | cons e rest => simp only [rereadAll, allChars, chars_reread e h.1, allChars_reread rest h.2]
termination_by structural es
end

theorem text_reread {e : Expr} (h : e.Readable) : e.reread.text = e.text :=
  congrArg String.ofList (chars_reread e h)

/-! ## When the tree stays -/

theorem reread_literal_of_exact {v : Value} (h : v.IsToken) (hx : ∀ x ∈ floats (literal v), WrittenExactly x) :
    v.reread = literal v := by
  cases v with
  | int n => exact reread_int h
  | float x =>
      obtain ⟨p, hp, rfl⟩ := h
      obtain ⟨hfin, hint⟩ := (writtenExactly_ofPattern hp).1 (hx _ (List.mem_singleton.2 rfl))
      rw [reread_float hp, if_pos hfin, Value.ofMagnitude_float hfin hint]
  | _ => rfl

theorem exact_of_same_literal {v : Value} (h : v.IsToken) (hs : same v.reread (literal v) = true) :
    ∀ x ∈ floats (literal v), WrittenExactly x := by
  cases v with
  | float x =>
      obtain ⟨p, hp, rfl⟩ := h
      rw [reread_float hp] at hs
      rintro _ (_ | ⟨_, ⟨⟩⟩)
      rw [writtenExactly_ofPattern hp]
      split_ifs at hs with hfin
      · refine ⟨hfin, fun hint => ?_⟩
        obtain ⟨n, -, -, hvalue⟩ := Value.exists_ofMagnitude_int hfin hint
        rw [hvalue] at hs
        exact nomatch hs
      · exact nomatch hs
  | _ => exact nofun

theorem same_literal_self {v : Value} (h : v.IsToken) : v.same v = true := by
  cases v with
  | float x =>
      obtain ⟨p, hp, rfl⟩ := h
      exact beq_self (isNaN_ofPattern false hp)
  | list items => exact absurd h id
  | _ => simp [Value.same]

mutual
theorem reread_of_exact (e : Expr) (h : e.Readable) (hx : ∀ x ∈ e.floats, WrittenExactly x) : e.reread = e := by
  cases e with
  | literal v => exact reread_literal_of_exact h hx
  | ident name => rfl
  | unary op operand => rw [reread, reread_of_exact operand h hx]
  | binary op left right =>
      simp only [floats, List.mem_append, or_imp, forall_and] at hx
      rw [reread, reread_of_exact left h.1 hx.1, reread_of_exact right h.2 hx.2]
  | call name args => rw [reread, rereadAll_of_exact args h.2.2 hx]
  | list items => rw [reread, rereadAll_of_exact items h hx]
termination_by structural e

theorem rereadAll_of_exact (es : List Expr) (h : AllReadable es) (hx : ∀ x ∈ allFloats es, WrittenExactly x) :
    rereadAll es = es := by
  cases es with
  | nil => rfl
  | cons e rest =>
      simp only [allFloats, List.mem_append, or_imp, forall_and] at hx
      rw [rereadAll, reread_of_exact e h.1 hx.1, rereadAll_of_exact rest h.2 hx.2]
termination_by structural es
end

mutual
theorem exact_of_same (e : Expr) (h : e.Readable) (hs : same e.reread e = true) :
    ∀ x ∈ e.floats, WrittenExactly x := by
  cases e with
  | literal v => exact exact_of_same_literal h hs
  | ident name => exact nofun
  | unary op operand =>
      simp only [reread, same, Bool.and_eq_true] at hs
      exact exact_of_same operand h hs.2
  | binary op left right =>
      simp only [reread, same, Bool.and_eq_true] at hs
      simp only [floats, List.mem_append, or_imp, forall_and]
      exact ⟨exact_of_same left h.1 hs.1.2, exact_of_same right h.2 hs.2⟩
  | call name args =>
      simp only [reread, same, Bool.and_eq_true] at hs
      exact allExact_of_same args h.2.2 hs.2
  | list items =>
      simp only [reread, same] at hs
      exact allExact_of_same items h hs
termination_by structural e

theorem allExact_of_same (es : List Expr) (h : AllReadable es) (hs : sameAll (rereadAll es) es = true) :
    ∀ x ∈ allFloats es, WrittenExactly x := by
  cases es with
  | nil => exact nofun
  | cons e rest =>
      simp only [rereadAll, sameAll, Bool.and_eq_true] at hs
      simp only [allFloats, List.mem_append, or_imp, forall_and]
      exact ⟨exact_of_same e h.1 hs.1, allExact_of_same rest h.2 hs.2⟩
termination_by structural es
end

mutual
/-- A readable tree is the same as itself: NaN does not occur in it. -/
theorem same_self (e : Expr) (h : e.Readable) : same e e = true := by
  cases e with
  | literal v => exact same_literal_self h
  | ident name => simp [same]
  | unary op operand => simp [same, same_self operand h]
  | binary op left right => simp [same, same_self left h.1, same_self right h.2]
  | call name args => simp [same, sameAll_self args h.2.2]
  | list items => simp [same, sameAll_self items h]
termination_by structural e

theorem sameAll_self (es : List Expr) (h : AllReadable es) : sameAll es es = true := by
  cases es with
  | nil => rfl
  | cons e rest => simp [sameAll, same_self e h.1, sameAll_self rest h.2]
termination_by structural es
end

theorem reread_eq_iff {e : Expr} (h : e.Readable) : e.reread = e ↔ ∀ x ∈ e.floats, WrittenExactly x := by
  constructor
  · intro heq
    apply exact_of_same e h
    rw [heq]
    exact same_self e h
  · exact reread_of_exact e h

theorem same_reread_iff {e : Expr} (h : e.Readable) :
    same e.reread e = true ↔ ∀ x ∈ e.floats, WrittenExactly x := by
  constructor
  · exact exact_of_same e h
  · intro hx
    rw [reread_of_exact e h hx]
    exact same_self e h

/-- The written form of a parsed tree is parsed again if and only if the tree is no higher than the limit on
nesting, to a tree that is written the same way. That is the tree itself, and the same as it, if and only if
every floating-point literal of the tree is finite and either not whole or at least `2 ^ 63`. -/
theorem parse_text_of_parse {s : String} {e : Expr} (h : parse s = .ok e) :
    (e.height ≤ maxNesting → ∃ e', parse e.text = .ok e' ∧ e'.text = e.text ∧
      (e' = e ↔ ∀ x ∈ e.floats, WrittenExactly x) ∧
      (same e' e = true ↔ ∀ x ∈ e.floats, WrittenExactly x)) ∧
    (maxNesting < e.height → parse e.text = .error .tooDeep) := by
  have hread := readable_of_parse h
  have hparse := parse_text hread
  constructor
  · intro hheight
    rw [if_pos hheight] at hparse
    exact ⟨e.reread, hparse, text_reread hread, reread_eq_iff hread, same_reread_iff hread⟩
  · intro hheight
    rwa [if_neg (not_le.2 hheight)] at hparse

theorem parse_text_of_parse_call :
    parse "f(x, y) * -z" = .ok (binary (.value (.compute .mul))
        (call "f" [ident "x", ident "y"]) (unary .neg (ident "z"))) ∧
      ∃ e', parse "(f(x, y) * -z)" = .ok e' ∧ e'.text = "(f(x, y) * -z)" := by
  have letter {s : String} {c : Char} (hs : s.toList = [c]) (hc : Token.isNameStart c = true) :
      Token.IsName s.toList := ⟨c, [], hs, hc, nofun⟩
  have hx : Writes .unary "x".toList (ident "x") 1 := (WritesPrimary.field (letter rfl (by decide)) rfl).unary
  have hy : Writes .unary "y".toList (ident "y") 1 := (WritesPrimary.field (letter rfl (by decide)) rfl).unary
  have hz : Writes .unary "z".toList (ident "z") 1 := (WritesPrimary.field (letter rfl (by decide)) rfl).unary
  have hf : Token.IsName "f".toList := letter rfl (by decide)
  have hcall : Writes .unary "f(x, y)".toList (call "f" [ident "x", ident "y"]) 2 :=
    ((WritesItems.cons hx (.last hy)).call hf rfl).unary
  have hparse : parse "f(x, y) * -z" = .ok (binary (.value (.compute .mul))
      (call "f" [ident "x", ident "y"]) (unary .neg (ident "z"))) :=
    (hcall.operation (.value (.compute .mul)) hz.neg).parse
  refine ⟨hparse, ?_⟩
  obtain ⟨e', he', htext, -⟩ := (parse_text_of_parse hparse).1 (by decide)
  exact ⟨e', he', htext⟩

end Expr

end RecordRules
