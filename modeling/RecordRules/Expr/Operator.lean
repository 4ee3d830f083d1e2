/-!
# Operators

The operators of expressions. A value operator takes the values of both operands; a connective may leave its
right operand unevaluated.
-/
namespace RecordRules

inductive UnaryOp where
  | not
  | neg
deriving DecidableEq, Repr

inductive Comparison where
  | eq
  | ne
  | lt
  | le
  | gt
  | ge
deriving DecidableEq, Repr

inductive Arithmetic where
  | add
  | sub
  | mul
  | div
deriving DecidableEq, Repr

/-- Operators on two values. -/
inductive ValueOp where
  | compare (c : Comparison)
  | compute (a : Arithmetic)
deriving DecidableEq, Repr

inductive Connective where
  | and
  | or
deriving DecidableEq, Repr

inductive BinaryOp where
  | value (op : ValueOp)
  | logic (c : Connective)
deriving DecidableEq, Repr

def UnaryOp.symbol : UnaryOp → String
  | not => "!"
  | neg => "-"

def Comparison.symbol : Comparison → String
  | eq => "=="
  | ne => "!="
  | lt => "<"
  | le => "<="
  | gt => ">"
  | ge => ">="

def Arithmetic.symbol : Arithmetic → String
  | add => "+"
  | sub => "-"
  | mul => "*"
  | div => "/"

def ValueOp.symbol : ValueOp → String
  | compare c => c.symbol
  | compute a => a.symbol

def Connective.symbol : Connective → String
  | and => "&&"
  | or => "||"

namespace BinaryOp

def symbol : BinaryOp → String
  | value op => op.symbol
  | logic c => c.symbol

def all : List BinaryOp :=
  [.value (.compare .eq), .value (.compare .ne), .value (.compare .lt), .value (.compare .le),
    .value (.compare .gt), .value (.compare .ge), .value (.compute .add), .value (.compute .sub),
    .value (.compute .mul), .value (.compute .div), .logic .and, .logic .or]

def ofSymbol? (s : String) : Option BinaryOp := all.find? fun op => op.symbol == s

/-- Whether the operator compares two values. -/
def isComparison : BinaryOp → Bool
  | value (.compare _) => true
  | _ => false

def isArithmetic : BinaryOp → Bool
  | value (.compute _) => true
  | _ => false

/-- The symbols tell the binary operators apart. -/
theorem ofSymbol?_symbol (op : BinaryOp) : ofSymbol? op.symbol = some op := by
  rcases op with (c | a) | c
  · cases c <;> decide
  · cases a <;> decide
  · cases c <;> decide

end BinaryOp

def UnaryOp.ofSymbol? (s : String) : Option UnaryOp := [not, neg].find? fun op => op.symbol == s

end RecordRules
