import RecordRules.Expr.Basic
import RecordRules.Expr.Token

/-!
# Parsing expressions

The grammar, loosest binding first; binary operators of one level associate to the left:

    expr    = and ("||" and)*
    and     = cmp ("&&" cmp)*
    cmp     = sum (("==" | "!=" | "<" | "<=" | ">" | ">=") sum)*
    sum     = product (("+" | "-") product)*
    product = unary (("*" | "/") unary)*
    unary   = ("!" | "-") unary | primary
    primary = literal | name | name "(" items ")" | "(" expr ")" | "[" items "]" | "[" "]" name "{" items "}"
    items   = (expr ("," expr)* ","?)?

A parser takes tokens from the front of a list and returns what it read with the tokens that are left, always
fewer than it was given. That bounds its loops. Nesting is bounded by a number handed down from `unary` to
`unary`: at most `maxNesting` of them may stand inside each other, and since the number is handed down and
not counted in a state, what one operand uses up is not charged to the next.
-/
namespace RecordRules

/-- Why a text is not an expression. -/
inductive ParseError where
  /-- No token can be cut at this byte of the text; the rest is what stands there. -/
  | lexical (offset : Nat) (rest : String)
  | expected (wanted : Symbol) (found : Option Token)
  | unexpectedEnd
  | unexpected (found : Token)
  /-- A complete expression is followed by this token. -/
  | trailing (found : Token)
  | tooDeep

/-- How many unary expressions may stand inside each other. -/
def maxNesting : Nat := 512

/-- The text of a parse error. -/
def ParseError.message : ParseError → String
  | lexical offset rest =>
      "Lexer error at offset " ++ toString offset ++ ": '" ++ rest ++ "'"
  | expected wanted found => "Expected " ++ wanted.name ++ ", got " ++ Token.nameOrEnd found
  | unexpectedEnd => "Unexpected end of expression"
  | unexpected found => "Unexpected token: " ++ found.name
  | trailing found => "Unexpected token after expression: " ++ found.name
  | tooDeep => "Expression nested deeper than " ++ toString maxNesting

/-- The tokens left by a parser that took at least one. -/
abbrev Fewer (ts : List Token) := { r : List Token // r.length < ts.length }

/-- The tokens left by a loop that may take none. -/
abbrev NoMore (ts : List Token) := { r : List Token // r.length ≤ ts.length }

abbrev Parser (α : Type) := (ts : List Token) → Except ParseError (α × Fewer ts)

namespace Parser

def expect (wanted : Symbol) : Parser Unit
  | .symbol s :: r =>
      if s = wanted then .ok ((), ⟨r, Nat.lt_succ_self r.length⟩)
      else .error (.expected wanted (some (.symbol s)))
  | t :: _ => .error (.expected wanted (some t))
  | [] => .error (.expected wanted none)

/-- Reads on after the first operand of a level of binary operators: as long as an operator of the level
follows, it takes one more operand and joins it to what stands left of it. -/
def chainFrom (op? : Symbol → Option BinaryOp) (operand : Parser Expr) (left : Expr) (ts : List Token) :
    Except ParseError (Expr × NoMore ts) :=
  match ts with
  | .symbol s :: r =>
      match op? s with
      | some op => do
          let (right, r1) ← operand r
          have h1 := r1.2
          let (e, r2) ← chainFrom op? operand (.binary op left right) r1.1
          .ok (e, ⟨r2.1, by have := r2.2; simp only [List.length_cons]; omega⟩)
      | none => .ok (left, ⟨.symbol s :: r, Nat.le_refl _⟩)
  | ts => .ok (left, ⟨ts, Nat.le_refl _⟩)
termination_by ts.length
decreasing_by
  simp only [List.length_cons]
  omega

/-- One level of binary operators. -/
def chain (op? : Symbol → Option BinaryOp) (operand : Parser Expr) : Parser Expr := fun ts => do
  let (left, r) ← operand ts
  let (e, r1) ← chainFrom op? operand left r.1
  .ok (e, ⟨r1.1, Nat.lt_of_le_of_lt r1.2 r.2⟩)

/-- The operators of products. -/
def productOp? : Symbol → Option BinaryOp
  | .star => some (.value (.compute .mul))
  | .slash => some (.value (.compute .div))
  | _ => none

/-- The operators of sums. -/
def sumOp? : Symbol → Option BinaryOp
  | .plus => some (.value (.compute .add))
  | .minus => some (.value (.compute .sub))
  | _ => none

def comparisonOp? : Symbol → Option BinaryOp
  | .eqEq => some (.value (.compare .eq))
  | .ne => some (.value (.compare .ne))
  | .lt => some (.value (.compare .lt))
  | .le => some (.value (.compare .le))
  | .gt => some (.value (.compare .gt))
  | .ge => some (.value (.compare .ge))
  | _ => none

def andOp? : Symbol → Option BinaryOp
  | .andAnd => some (.logic .and)
  | _ => none

def orOp? : Symbol → Option BinaryOp
  | .orOr => some (.logic .or)
  | _ => none

/-- Expressions over given unary expressions: the five levels of binary operators. -/
def expr (unary : Parser Expr) : Parser Expr :=
  chain orOp? (chain andOp? (chain comparisonOp? (chain sumOp? (chain productOp? unary))))

/-- Expressions separated by commas, up to and including a closing symbol. A comma may stand before it. -/
def items (expr : Parser Expr) (close : Symbol) (ts : List Token) :
    Except ParseError (List Expr × Fewer ts) :=
  match ts with
  | [] => do
      let (_, r) ← expr []
      .ok ([], r)
  | t :: rest =>
      if t = .symbol close then .ok ([], ⟨rest, Nat.lt_succ_self rest.length⟩)
      else do
        let (e, r) ← expr (t :: rest)
        match hr : r.1 with
        | .symbol .comma :: r1 =>
            have h1 : r1.length + 1 < (t :: rest).length := by have := r.2; simpa [hr] using this
            let (es, r2) ← items expr close r1
            .ok (e :: es, ⟨r2.1, by have := r2.2; omega⟩)
        | _ =>
            let (_, r1) ← expect close r.1
            .ok ([e], ⟨r1.1, Nat.lt_trans r1.2 r.2⟩)
termination_by ts.length
decreasing_by omega

/-- What a name stands for when it is not a word of the language: a call if an opening parenthesis follows,
otherwise a field. -/
def named (expr : Parser Expr) (name : String) (ts : List Token) : Except ParseError (Expr × NoMore ts) :=
  match ts with
  | .symbol .lparen :: r => do
      let (args, r1) ← items expr .rparen r
      .ok (.call name args, ⟨r1.1, by have := r1.2; simp only [List.length_cons]; omega⟩)
  | ts => .ok (.ident name, ⟨ts, Nat.le_refl _⟩)

/-- The rest of a list after its opening bracket. -/
def listRest (expr : Parser Expr) (ts : List Token) : Except ParseError (Expr × NoMore ts) :=
  match ts with
  | .symbol .rbracket :: .ident _ :: .symbol .lbrace :: r => do
      let (es, r1) ← items expr .rbrace r
      .ok (.list es, ⟨r1.1, by have := r1.2; simp only [List.length_cons]; omega⟩)
  | ts => do
      let (es, r1) ← items expr .rbracket ts
      .ok (.list es, ⟨r1.1, Nat.le_of_lt r1.2⟩)

/-- Primary expressions over given expressions. -/
def primary (expr : Parser Expr) : Parser Expr
  | [] => .error .unexpectedEnd
  | .int n :: r => .ok (.literal (.int n), ⟨r, Nat.lt_succ_self r.length⟩)
  | .float x :: r => .ok (.literal (.float x), ⟨r, Nat.lt_succ_self r.length⟩)
  | .str s :: r => .ok (.literal (.str s), ⟨r, Nat.lt_succ_self r.length⟩)
  | .ident name :: r =>
      if name = "true" then .ok (.literal (.bool true), ⟨r, Nat.lt_succ_self r.length⟩)
      else if name = "false" then .ok (.literal (.bool false), ⟨r, Nat.lt_succ_self r.length⟩)
      else if name = "nil" then .ok (.literal .nil, ⟨r, Nat.lt_succ_self r.length⟩)
      else do
        let (e, r1) ← named expr name r
        .ok (e, ⟨r1.1, by have := r1.2; simp only [List.length_cons]; omega⟩)
  | .symbol .lparen :: r => do
      let (e, r1) ← expr r
      let (_, r2) ← expect .rparen r1.1
      .ok (e, ⟨r2.1, by have := r1.2; have := r2.2; simp only [List.length_cons]; omega⟩)
  | .symbol .lbracket :: r => do
      let (e, r1) ← listRest expr r
      .ok (e, ⟨r1.1, by have := r1.2; simp only [List.length_cons]; omega⟩)
  | t :: _ => .error (.unexpected t)

/-- Unary expressions with at most the given number of them inside each other. -/
def unary : Nat → Parser Expr
  | 0 => fun _ => .error .tooDeep
  | depth + 1 => fun
    | .symbol .bang :: r => do
        let (e, r1) ← unary depth r
        .ok (.unary .not e, ⟨r1.1, by have := r1.2; simp only [List.length_cons]; omega⟩)
    | .symbol .minus :: r => do
        let (e, r1) ← unary depth r
        .ok (.unary .neg e, ⟨r1.1, by have := r1.2; simp only [List.length_cons]; omega⟩)
    | ts => primary (expr (unary depth)) ts

end Parser

namespace Expr

/-- The tree of a list of tokens. -/
def ofTokens (ts : List Token) : Except ParseError Expr := do
  let (e, r) ← Parser.expr (Parser.unary maxNesting) ts
  match r.1 with
  | [] => .ok e
  | t :: _ => .error (.trailing t)

/-- The tokens of a text. An error tells where in the text it stands, in bytes. -/
def tokens (s : String) : Except ParseError (List Token) :=
  match Token.scan s.toList with
  | .ok ts => .ok ts
  | .error cs =>
      let rest := Text.trimStart cs
      .error (.lexical (Text.byteLength s.toList - Text.byteLength rest) (String.ofList rest))

def parse (s : String) : Except ParseError Expr := do ofTokens (← tokens s)

end Expr

end RecordRules
