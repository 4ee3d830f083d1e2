import RecordRules.SortedMap
import RecordRules.Number.Layout

/-!
# JSON values

JSON data and its compact text. A number keeps how it was written: a whole number in the signed 64-bit range,
a larger one in the unsigned range, or a finite floating-point number. The members of an object are a list of
entries; everything in this library that builds an object keeps its keys strictly ascending, and the printer
writes the members in the order of the list.
-/
namespace RecordRules

inductive JsonNumber where
  | int (n : Int64)
  | large (n : UInt64) (above : 0x8000000000000000 ≤ n.toNat)
  | float (x : Float) (finite : x.isFinite = true)
deriving DecidableEq

inductive Json where
  | null
  | bool (b : Bool)
  | number (n : JsonNumber)
  | string (s : String)
  | array (items : List Json)
  | object (members : List (String × Json))

namespace JsonNumber

def toFloat : JsonNumber → Float
  | int n => Number.ofInt n.toInt
  | large n _ => Number.ofInt n.toNat
  | float x _ => x

/-- The number as text. -/
def chars : JsonNumber → List Char
  | int n => Number.intText n.toInt
  | large n _ => Number.intText n.toNat
  | float x _ => Number.floatChars .json x

end JsonNumber

namespace Json

/-- The member of an object under a key; none for other values. -/
def member? (j : Json) (key : String) : Option Json :=
  match j with
  | object members => members.lookup key
  | _ => none

/-- One character inside a JSON string. Beside quote and backslash only control characters below the space
are escaped. -/
def escapedChar (c : Char) : List Char :=
  match c with
  | '"' => ['\\', '"']
  | '\\' => ['\\', '\\']
  | '\x08' => ['\\', 'b']
  | '\x0c' => ['\\', 'f']
  | '\n' => ['\\', 'n']
  | '\r' => ['\\', 'r']
  | '\t' => ['\\', 't']
  | _ =>
      if c.toNat < 0x20 then
        ['\\', 'u', '0', '0', Nat.digitChar (c.toNat / 16), Nat.digitChar (c.toNat % 16)]
      else [c]

def stringChars (s : String) : List Char := '"' :: s.toList.flatMap escapedChar ++ ['"']

def commas : List (List Char) → List Char
  | [] => []
  | [t] => t
  | t :: rest => t ++ ',' :: commas rest

mutual
/-- The compact text of a value: no blanks between its parts. -/
def chars : Json → List Char
  | null => "null".toList
  | bool true => "true".toList
  | bool false => "false".toList
  | number n => n.chars
  | string s => stringChars s
  | array items => '[' :: commas (itemChars items) ++ [']']
  | object members => '\x7b' :: commas (memberChars members) ++ ['\x7d']
termination_by structural j => j

def itemChars : List Json → List (List Char)
  | [] => []
  | j :: rest => j.chars :: itemChars rest
termination_by structural js => js

def memberChars : List (String × Json) → List (List Char)
  | [] => []
  | (key, j) :: rest => (stringChars key ++ ':' :: j.chars) :: memberChars rest
termination_by structural ms => ms
end

def text (j : Json) : String := String.ofList j.chars

/-- The object with the given entries; of two entries with one key the later one counts. -/
def ofEntries (es : List (String × Json)) : Json := object (SortedMap.ofList es).entries

def ofStrings (ss : List String) : Json := array (ss.map string)

def ofInt64 (n : Int64) : Json := number (.int n)

end Json

end RecordRules
