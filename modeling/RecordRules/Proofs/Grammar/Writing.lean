import RecordRules.Expr.Basic
import RecordRules.Proofs.Grammar.Acceptance
import RecordRules.Proofs.Lexer.Pieces

/-!
# Writing phrases

A text *writes* a phrase if it lexes to the tokens of a derivation of the phrase. Texts of phrases are put
together as the grammar puts phrases together, and the parser gives back the tree that a text was written for,
unless it nests too deep. What is proved of renderers below is proved by writing phrases, without another look
at the lexer or the parser.
-/
namespace RecordRules.Grammar

open Token (Lexes)

/-- The text is one of a phrase with the given tree and nesting. -/
def Writes (p : Phrase) (cs : List Char) (e : Expr) (nesting : Nat) : Prop :=
  ∃ d : Derivation (.phrase p), d.meaning = e ∧ d.nesting = nesting ∧ Lexes cs d.tokens

/-- The text is one of a primary expression, whose own nesting does not count. -/
def WritesPrimary (cs : List Char) (e : Expr) (nesting : Nat) : Prop :=
  ∃ d : Derivation .primary, d.meaning = e ∧ d.nesting = nesting ∧ Lexes cs d.tokens

/-- The text is one of items between brackets or parentheses. -/
def WritesItems (cs : List Char) (es : List Expr) (nesting : Nat) : Prop :=
  ∃ d : Derivation .items, d.meaning = es ∧ d.nesting = nesting ∧ Lexes cs d.tokens

section

variable {cs ds : List Char} {e f : Expr} {es : List Expr} {k m : Nat}

/-! ## From level to level -/

/-- An operand alone is a phrase of its level. -/
theorem Writes.widen {l : Level} (h : Writes l.operand cs e k) : Writes (.binary l) cs e k := by
  obtain ⟨d, rfl, rfl, hlex⟩ := h
  refine ⟨.chain d .done, rfl, Nat.max_eq_left (Nat.zero_le _), ?_⟩
  simpa only [Derivation.tokens, List.append_nil] using hlex

/-- A unary expression is a phrase of every level. -/
theorem Writes.of_unary (h : Writes .unary cs e k) (p : Phrase) : Writes p cs e k := by
  have product : Writes (.binary .product) cs e k := .widen h
  have sum : Writes (.binary .sum) cs e k := .widen product
  have comparison : Writes (.binary .comparison) cs e k := .widen sum
  have conjunction : Writes (.binary .conjunction) cs e k := .widen comparison
  cases p with
  | unary => exact h
  | binary l =>
      cases l with
      | product => exact product
      | sum => exact sum
      | comparison => exact comparison
      | conjunction => exact conjunction
      | disjunction => exact .widen conjunction

/-- Every phrase is a whole expression. -/
theorem Writes.expr {p : Phrase} (h : Writes p cs e k) : Writes (.binary .disjunction) cs e k := by
  have conjunction (h : Writes (.binary .conjunction) cs e k) : Writes (.binary .disjunction) cs e k := .widen h
  have comparison (h : Writes (.binary .comparison) cs e k) : Writes (.binary .disjunction) cs e k :=
    conjunction (.widen h)
  cases p with
  | unary => exact h.of_unary _
  | binary l =>
      cases l with
      | product => exact comparison (.widen (.widen h))
      | sum => exact comparison (.widen h)
      | comparison => exact comparison h
      | conjunction => exact conjunction h
      | disjunction => exact h

/-! ## Operators -/

/-- The level of an operator. -/
def level : BinaryOp → Level
  | .logic .or => .disjunction
  | .logic .and => .conjunction
  | .value (.compare _) => .comparison
  | .value (.compute .add) => .sum
  | .value (.compute .sub) => .sum
  | .value (.compute .mul) => .product
  | .value (.compute .div) => .product

/-- The symbol of an operator stands for it on its level. -/
theorem op?_operator (op : BinaryOp) : (level op).op? (Token.operator op) = some op := by
  rcases op with (c | a) | c
  · cases c <;> rfl
  · cases a <;> rfl
  · cases c <;> rfl

/-- Two operands with an operator between them. -/
theorem Writes.operation (op : BinaryOp) (h : Writes (level op).operand cs e k)
    (h' : Writes (level op).operand ds f m) :
    Writes (.binary (level op)) (cs ++ ' ' :: op.symbol.toList ++ ' ' :: ds) (.binary op e f) (max k m) := by
  obtain ⟨d, rfl, rfl, hlex⟩ := h
  obtain ⟨d', rfl, rfl, hlex'⟩ := h'
  refine ⟨.chain d (.more _ op (op?_operator op) d' .done), rfl, ?_, ?_⟩
  · simp only [Derivation.nesting, Nat.max_zero]
  · simpa only [Derivation.tokens, List.append_nil] using hlex.operation op hlex'

theorem Writes.not (h : Writes .unary cs e k) : Writes .unary ('!' :: cs) (.unary .not e) (k + 1) := by
  obtain ⟨d, rfl, rfl, hlex⟩ := h
  exact ⟨.not d, rfl, rfl, hlex.bang⟩

theorem Writes.neg (h : Writes .unary cs e k) : Writes .unary ('-' :: cs) (.unary .neg e) (k + 1) := by
  obtain ⟨d, rfl, rfl, hlex⟩ := h
  exact ⟨.neg d, rfl, rfl, hlex.minus⟩

/-! ## Primary expressions -/

/-- A primary expression is a unary expression. -/
theorem WritesPrimary.unary (h : WritesPrimary cs e k) : Writes .unary cs e (k + 1) := by
  obtain ⟨d, rfl, rfl, hlex⟩ := h
  exact ⟨.base d, rfl, rfl, hlex⟩

/-- An expression in parentheses. -/
theorem Writes.parens {p : Phrase} (h : Writes p cs e k) : WritesPrimary ('(' :: cs ++ [')']) e k := by
  obtain ⟨d, rfl, rfl, hlex⟩ := h.expr
  exact ⟨.group d, rfl, rfl, hlex.parens⟩

theorem WritesPrimary.word {name : String} {v : Value} (hname : Token.IsName name.toList)
    (h : word? name = some v) : WritesPrimary name.toList (.literal v) 0 :=
  ⟨.word name v h, rfl, rfl, .name hname⟩

theorem WritesPrimary.field {name : String} (hname : Token.IsName name.toList) (h : word? name = none) :
    WritesPrimary name.toList (.ident name) 0 :=
  ⟨.field name h, rfl, rfl, .name hname⟩

theorem WritesPrimary.int {n : Int64} (h : Lexes cs [.int n]) : WritesPrimary cs (.literal (.int n)) 0 :=
  ⟨.int n, rfl, rfl, h⟩

theorem WritesPrimary.float {x : Float} (h : Lexes cs [.float x]) : WritesPrimary cs (.literal (.float x)) 0 :=
  ⟨.float x, rfl, rfl, h⟩

theorem WritesPrimary.str (s : String) : WritesPrimary (Text.literal s).toList (.literal (.str s)) 0 :=
  ⟨.str s, rfl, rfl, .literal s⟩

theorem WritesItems.call {name : String} (hname : Token.IsName name.toList) (h : word? name = none)
    (hitems : WritesItems cs es k) : WritesPrimary (name.toList ++ '(' :: cs ++ [')']) (.call name es) k := by
  obtain ⟨d, rfl, rfl, hlex⟩ := hitems
  refine ⟨.call name h d, rfl, rfl, ?_⟩
  simpa using (Lexes.name hname).call hlex

theorem WritesItems.list (h : WritesItems cs es k) : WritesPrimary ('[' :: cs ++ [']']) (.list es) k := by
  obtain ⟨d, rfl, rfl, hlex⟩ := h
  exact ⟨.list d, rfl, rfl, hlex.brackets⟩

/-! ## Items -/

theorem WritesItems.nil : WritesItems [] [] 0 := ⟨.none, rfl, rfl, .nil⟩

theorem WritesItems.last {p : Phrase} (h : Writes p cs e k) : WritesItems cs [e] k := by
  obtain ⟨d, rfl, rfl, hlex⟩ := h.expr
  exact ⟨.last d, rfl, rfl, hlex⟩

theorem WritesItems.cons {p : Phrase} (h : Writes p cs e k) (h' : WritesItems ds es m) :
    WritesItems (cs ++ ',' :: ' ' :: ds) (e :: es) (max k m) := by
  obtain ⟨d, rfl, rfl, hlex⟩ := h.expr
  obtain ⟨d', rfl, rfl, hlex'⟩ := h'
  exact ⟨.item d d', rfl, rfl, hlex.comma hlex'⟩

/-! ## Reading back -/

/-- The parser gives back the tree that a text was written for, or finds it nested too deep. -/
theorem Writes.parse {p : Phrase} (h : Writes p cs e k) :
    Expr.parse (String.ofList cs) = if k ≤ maxNesting then .ok e else .error .tooDeep := by
  obtain ⟨d, rfl, rfl, hlex⟩ := h.expr
  rw [← String.toList_ofList (l := cs)] at hlex
  exact parse_of_tokens hlex.tokens

theorem parse_field {name : String} (hname : Token.IsName name.toList) (h : word? name = none) :
    Expr.parse name = .ok (.ident name) := by
  have hparse := (WritesPrimary.field hname h).unary.parse
  rwa [String.ofList_toList, if_pos (by decide)] at hparse

/-- A call without arguments. -/
theorem parse_call_nil {name : String} (hname : Token.IsName name.toList) (h : word? name = none) :
    Expr.parse (name ++ "()") = .ok (.call name []) := by
  have htext : name ++ "()" = String.ofList (name.toList ++ '(' :: [] ++ [')']) := by
    simp [String.ofList_append]
  rw [htext, (WritesItems.nil.call hname h).unary.parse]
  exact if_pos (by decide)

end

end RecordRules.Grammar
