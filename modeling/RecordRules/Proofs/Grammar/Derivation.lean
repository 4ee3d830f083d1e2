import RecordRules.Expr.Parser

/-!
# Derivations of the expression grammar

The grammar of expressions as derivation trees, apart from the parser. A derivation has the tokens it derives,
the meaning they have, and the nesting of its unary expressions. A level of binary operators is an operand and
a tail of operators with their right operands; the tail folds them from the left, so that the operators of one
level associate to the left. Which symbols are operators of which level is said by the table `Level.op?`.

The parser does not occur in this module. That it accepts exactly these derivations is proved in
`Proofs.Grammar.Acceptance`.
-/
namespace RecordRules.Grammar

/-- The levels of binary operators, loosest binding first. -/
inductive Level where
  | disjunction
  | conjunction
  | comparison
  | sum
  | product
deriving DecidableEq, Repr

/-- What can be an operand of a level. -/
inductive Phrase where
  | binary (l : Level)
  | unary
deriving DecidableEq, Repr

/-- The operands of a level are the phrases of the next tighter one. -/
def Level.operand : Level → Phrase
  | .disjunction => .binary .conjunction
  | .conjunction => .binary .comparison
  | .comparison => .binary .sum
  | .sum => .binary .product
  | .product => .unary

/-- The operator that a symbol stands for on a level. -/
def Level.op? : Level → Symbol → Option BinaryOp
  | .disjunction, .orOr => some (.logic .or)
  | .conjunction, .andAnd => some (.logic .and)
  | .comparison, .eqEq => some (.value (.compare .eq))
  | .comparison, .ne => some (.value (.compare .ne))
  | .comparison, .lt => some (.value (.compare .lt))
  | .comparison, .le => some (.value (.compare .le))
  | .comparison, .gt => some (.value (.compare .gt))
  | .comparison, .ge => some (.value (.compare .ge))
  | .sum, .plus => some (.value (.compute .add))
  | .sum, .minus => some (.value (.compute .sub))
  | .product, .star => some (.value (.compute .mul))
  | .product, .slash => some (.value (.compute .div))
  | _, _ => none

/-- The nonterminals of the grammar. -/
inductive Nonterminal where
  | phrase (p : Phrase)
  /-- What follows the first operand of a level. -/
  | tail (l : Level)
  | primary
  /-- What stands between the brackets of a list or the parentheses of a call. -/
  | items

/-- Whole expressions. -/
abbrev Nonterminal.expr : Nonterminal := .phrase (.binary .disjunction)

/-- The literals that are written like names. -/
def word? (name : String) : Option Value :=
  if name = "true" then some (.bool true)
  else if name = "false" then some (.bool false)
  else if name = "nil" then some .nil
  else none

/-- A derivation from a nonterminal. -/
inductive Derivation : Nonterminal → Type where
  | chain {l : Level} (first : Derivation (.phrase l.operand)) (rest : Derivation (.tail l)) :
      Derivation (.phrase (.binary l))
  | done {l : Level} : Derivation (.tail l)
  | more {l : Level} (s : Symbol) (op : BinaryOp) (h : l.op? s = some op)
      (right : Derivation (.phrase l.operand)) (rest : Derivation (.tail l)) : Derivation (.tail l)
  | not (operand : Derivation (.phrase .unary)) : Derivation (.phrase .unary)
  | neg (operand : Derivation (.phrase .unary)) : Derivation (.phrase .unary)
  | base (p : Derivation .primary) : Derivation (.phrase .unary)
  | int (n : Int64) : Derivation .primary
  | float (x : Float) : Derivation .primary
  | str (s : String) : Derivation .primary
  | word (name : String) (v : Value) (h : word? name = some v) : Derivation .primary
  | field (name : String) (h : word? name = none) : Derivation .primary
  | call (name : String) (h : word? name = none) (args : Derivation .items) : Derivation .primary
  | group (inner : Derivation .expr) : Derivation .primary
  | list (items : Derivation .items) : Derivation .primary
  /-- A list with a name for the type of its items, which counts for nothing. -/
  | typed (kind : String) (items : Derivation .items) : Derivation .primary
  | none : Derivation .items
  | last (e : Derivation .expr) : Derivation .items
  /-- An item and a comma; with no items after it, the comma is the optional one at the end. -/
  | item (e : Derivation .expr) (rest : Derivation .items) : Derivation .items

/-- What a derivation means: an expression, the expression that a left operand grows to, or the trees of a
list. -/
abbrev Nonterminal.Meaning : Nonterminal → Type
  | .phrase _ => Expr
  | .tail _ => Expr → Expr
  | .primary => Expr
  | .items => List Expr

namespace Derivation

/-- The tokens that are derived. -/
@[simp]
def tokens {n : Nonterminal} : Derivation n → List Token
  | chain first rest => first.tokens ++ rest.tokens
  | done => []
  | more s _ _ right rest => .symbol s :: (right.tokens ++ rest.tokens)
  | not operand => .symbol .bang :: operand.tokens
  | neg operand => .symbol .minus :: operand.tokens
  | base p => p.tokens
  | int n => [.int n]
  | float x => [.float x]
  | str s => [.str s]
  | word name _ _ => [.ident name]
  | field name _ => [.ident name]
  | call name _ args => .ident name :: .symbol .lparen :: (args.tokens ++ [.symbol .rparen])
  | group inner => .symbol .lparen :: (inner.tokens ++ [.symbol .rparen])
  | list items => .symbol .lbracket :: (items.tokens ++ [.symbol .rbracket])
  | typed kind items =>
      .symbol .lbracket :: .symbol .rbracket :: .ident kind :: .symbol .lbrace ::
        (items.tokens ++ [.symbol .rbrace])
  | none => []
  | last e => e.tokens
  | item e rest => e.tokens ++ .symbol .comma :: rest.tokens

/-- The meaning of a derivation. -/
@[simp]
def meaning : {n : Nonterminal} → Derivation n → n.Meaning
  | _, chain first rest => rest.meaning first.meaning
  | _, done => fun left => left
  | _, more _ op _ right rest => fun left => rest.meaning (.binary op left right.meaning)
  | _, not operand => Expr.unary .not operand.meaning
  | _, neg operand => Expr.unary .neg operand.meaning
  | _, base p => p.meaning
  | _, int n => Expr.literal (.int n)
  | _, float x => Expr.literal (.float x)
  | _, str s => Expr.literal (.str s)
  | _, word _ v _ => Expr.literal v
  | _, field name _ => Expr.ident name
  | _, call name _ args => Expr.call name args.meaning
  | _, group inner => inner.meaning
  | _, list items => Expr.list items.meaning
  | _, typed _ items => Expr.list items.meaning
  | _, none => ([] : List Expr)
  | _, last e => [e.meaning]
  | _, item e rest => List.cons e.meaning rest.meaning

/-- The largest number of unary expressions on a path down from the root. -/
@[simp]
def nesting {n : Nonterminal} : Derivation n → Nat
  | chain first rest => max first.nesting rest.nesting
  | done => 0
  | more _ _ _ right rest => max right.nesting rest.nesting
  | not operand => operand.nesting + 1
  | neg operand => operand.nesting + 1
  | base p => p.nesting + 1
  | int _ | float _ | str _ | word _ _ _ | field _ _ => 0
  | call _ _ args => args.nesting
  | group inner => inner.nesting
  | list items => items.nesting
  | typed _ items => items.nesting
  | none => 0
  | last e => e.nesting
  | item e rest => max e.nesting rest.nesting

/-- The syntax tree of a derived expression. -/
def tree (d : Derivation .expr) : Expr := d.meaning

/-- A product as a whole expression. -/
def ofProduct (d : Derivation (.phrase (.binary .product))) : Derivation .expr :=
  .chain (.chain (.chain (.chain d .done) .done) .done) .done

/-- A unary expression as a whole expression. -/
def ofUnary (d : Derivation (.phrase .unary)) : Derivation .expr := ofProduct (.chain d .done)

end Derivation

end RecordRules.Grammar
