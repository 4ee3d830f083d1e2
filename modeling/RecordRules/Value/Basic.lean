import RecordRules.Number.Layout
import RecordRules.Text.Quoted

/-!
# Values

The dynamic values of fields and expressions, their types, their literal form, and when two of them count as
the same. Floating-point numbers are compared as numbers are: NaN differs from itself, and the two zeros are
the same.
-/
namespace RecordRules

inductive Value where
  /-- The value of a field that is not there. -/
  | nil
  | bool (b : Bool)
  | int (n : Int64)
  | float (x : Float)
  | str (s : String)
  | list (items : List Value)

inductive ValueType where
  | nil
  | bool
  | int
  | float
  | str
  | list
deriving DecidableEq, Repr

def ValueType.name : ValueType → String
  | nil => "nil"
  | bool => "bool"
  | int => "int64"
  | float => "float"
  | str => "string"
  | list => "list"

namespace Value

instance : Inhabited Value := ⟨nil⟩

def type : Value → ValueType
  | nil => .nil
  | bool _ => .bool
  | int _ => .int
  | float _ => .float
  | str _ => .str
  | list _ => .list

def isNumber : Value → Bool
  | int _ | float _ => true
  | _ => false

/-- A whole number: an integer if it fits, otherwise the nearest floating-point number. -/
def ofWhole (n : Int) : Value :=
  if Int64.minValue.toInt ≤ n ∧ n ≤ Int64.maxValue.toInt then int (Int64.ofInt n)
  else float (Number.ofInt n)

mutual
/-- Whether two values are of one type and equal in it. -/
def same : Value → Value → Bool
  | nil, nil => true
  | bool a, bool b => a == b
  | int a, int b => a == b
  | float x, float y => x == y
  | str s, str t => s == t
  | list xs, list ys => sameItems xs ys
  | _, _ => false
termination_by structural v => v

/-- Whether two lists have the same items in the same order. -/
def sameItems : List Value → List Value → Bool
  | [], [] => true
  | x :: xs, y :: ys => same x y && sameItems xs ys
  | _, _ => false
termination_by structural vs => vs
end

/-- Texts with a comma and a space between them. -/
def commaSeparated : List (List Char) → List Char
  | [] => []
  | [t] => t
  | t :: rest => t ++ ',' :: ' ' :: commaSeparated rest

mutual
/-- The literal form of a value, as expression text writes it. -/
def chars : Value → List Char
  | nil => "nil".toList
  | bool true => "true".toList
  | bool false => "false".toList
  | int n => Number.intText n.toInt
  | float x => Number.floatChars .plain x
  | str s => (Text.literal s).toList
  | list items => '[' :: commaSeparated (itemChars items) ++ [']']
termination_by structural v => v

def itemChars : List Value → List (List Char)
  | [] => []
  | v :: rest => v.chars :: itemChars rest
termination_by structural vs => vs
end

def text (v : Value) : String := String.ofList v.chars

end Value

end RecordRules
