import RecordRules.SortedMap
import RecordRules.Value.Cast

/-!
# Records

The values of JSON data, and the JSON form of values. A context holds the fields of one record; a field that
is not there counts as nil. Objects have no counterpart among values, so a record is flat: an object below
its top level is refused. Where several members are bad, the first in the order of keys is reported.
-/
namespace RecordRules

namespace JsonNumber

/-- A whole number in the signed range is an integer, any other number a floating-point number. -/
def toValue : JsonNumber → Value
  | int n => .int n
  | n => .float n.toFloat

end JsonNumber

namespace Value

mutual
def ofJson : Json → Except CastError Value
  | .null => .ok nil
  | .bool b => .ok (bool b)
  | .number n => .ok n.toValue
  | .string s => .ok (str s)
  | .array items => (ofItems items).map list
  | .object members => .error (.unrepresentable (.object members))
termination_by structural j => j

/-- The values of the elements of an array, or the error of the first that has none. -/
def ofItems : List Json → Except CastError (List Value)
  | [] => .ok []
  | j :: rest => do
      let v ← ofJson j
      let vs ← ofItems rest
      .ok (v :: vs)
termination_by structural js => js
end

mutual
/-- The JSON form of a value. NaN and the infinities have none and become null. -/
def toJson : Value → Json
  | nil => .null
  | bool b => .bool b
  | int n => .number (.int n)
  | float x => if h : x.isFinite = true then .number (.float x h) else .null
  | str s => .string s
  | list items => .array (toJsonItems items)
termination_by structural v => v

def toJsonItems : List Value → List Json
  | [] => []
  | v :: rest => v.toJson :: toJsonItems rest
termination_by structural vs => vs
end

end Value

abbrev Context := SortedMap Value

namespace Context

/-- The value of a field, nil if it is not there. -/
def read (c : Context) (field : String) : Value := (c.get? field).getD .nil

def ofMembers : List (String × Json) → Except CastError (List (String × Value))
  | [] => .ok []
  | (key, j) :: rest => do
      let v ← Value.ofJson j
      let fields ← ofMembers rest
      .ok ((key, v) :: fields)

/-- The context of a record given as JSON data. Null stands for no context at all. -/
def ofJson : Json → Except CastError (Option Context)
  | .null => .ok none
  | .object members => do
      let fields ← ofMembers members
      .ok (some (SortedMap.ofList fields))
  | j => .error (.unrepresentable j)

end Context

end RecordRules
