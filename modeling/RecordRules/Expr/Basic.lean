import RecordRules.Expr.Operator
import RecordRules.FieldNames
import RecordRules.Value.Basic

/-!
# Expressions

The syntax tree of expressions, its written form, and the fields that it names. The written form puts every
binary operator in parentheses with its two operands.
-/
namespace RecordRules

inductive Expr where
  | literal (v : Value)
  /-- A field of the record. -/
  | ident (name : String)
  | unary (op : UnaryOp) (operand : Expr)
  | binary (op : BinaryOp) (left right : Expr)
  | call (name : String) (args : List Expr)
  | list (items : List Expr)

namespace Expr

instance : Inhabited Expr := ⟨literal .nil⟩

mutual
def chars : Expr → List Char
  | literal v => v.chars
  | ident name => name.toList
  | unary op operand => op.symbol.toList ++ operand.chars
  | binary op left right =>
      '(' :: left.chars ++ ' ' :: op.symbol.toList ++ ' ' :: right.chars ++ [')']
  | call name args => name.toList ++ '(' :: Value.commaSeparated (allChars args) ++ [')']
  | list items => '[' :: Value.commaSeparated (allChars items) ++ [']']
termination_by structural e => e

def allChars : List Expr → List (List Char)
  | [] => []
  | e :: rest => e.chars :: allChars rest
termination_by structural es => es
end

def text (e : Expr) : String := String.ofList e.chars

mutual
/-- Adds the fields that a tree names to those met before, in the order of the text. -/
def addIdentifiers (names : List String) : Expr → List String
  | literal _ => names
  | ident name => addName names name
  | unary _ operand => operand.addIdentifiers names
  | binary _ left right => right.addIdentifiers (left.addIdentifiers names)
  | call _ args => addAllIdentifiers names args
  | list items => addAllIdentifiers names items
termination_by structural e => e

/-- Adds the fields that a list of trees names to those met before. -/
def addAllIdentifiers (names : List String) : List Expr → List String
  | [] => names
  | e :: rest => addAllIdentifiers (e.addIdentifiers names) rest
termination_by structural es => es
end

/-- The fields that a tree names, each once, in the order of their first mention. Names of functions are not
among them. -/
def identifiers (e : Expr) : List String := e.addIdentifiers []

mutual
/-- Whether two trees are the same, literals being compared as values. -/
def same : Expr → Expr → Bool
  | literal v, literal w => v.same w
  | ident a, ident b => a == b
  | unary o a, unary p b => o == p && same a b
  | binary o a b, binary p c d => o == p && same a c && same b d
  | call f as, call g bs => f == g && sameAll as bs
  | list as, list bs => sameAll as bs
  | _, _ => false
termination_by structural e => e

def sameAll : List Expr → List Expr → Bool
  | [], [] => true
  | a :: as, b :: bs => same a b && sameAll as bs
  | _, _ => false
termination_by structural es => es
end

end Expr

end RecordRules
