import RecordRules.Json.Basic
import RecordRules.Number.Numeral
import RecordRules.Text.Blank
import RecordRules.Value.Basic

/-!
# Casts

The coercions between the types of values. A missing value becomes the zero of the type asked for, and so
does the empty text. Text is read as a number after its blanks at both ends are dropped, and as a truth value
only in one of a few spellings.
-/
namespace RecordRules

inductive Kind where
  | string
  | int64
  | bool
  | float
  | object
  /-- No conversion. -/
  | any
deriving DecidableEq, Repr

/-- Why a value could not be coerced or represented. -/
inductive CastError where
  | unknownKind (name : String)
  | unsupported (source : ValueType) (target : Kind)
  | malformed (text : String) (target : Kind)
  | unrepresentable (json : Json)

namespace Kind

def name : Kind → String
  | string => "string"
  | int64 => "int64"
  | bool => "bool"
  | float => "float"
  | object => "object"
  | any => "any"

/-- The kind with a name, in any case of ASCII letters. The empty name stands for no conversion. -/
def ofName (name : String) : Except CastError Kind :=
  let lower := name.toList.map Char.toLower
  if lower = [] then .ok any
  else if lower = "string".toList then .ok string
  else if lower = "int64".toList then .ok int64
  else if lower = "bool".toList then .ok bool
  else if lower = "float".toList then .ok float
  else if lower = "object".toList then .ok object
  else .error (.unknownKind name)

end Kind

def CastError.message : CastError → String
  | unknownKind name => "type cast failure, unexpected type: " ++ name
  | unsupported source target =>
      "type cast failure, cannot convert " ++ source.name ++ " to " ++ target.name
  | malformed text target =>
      "type cast failure, invalid " ++ target.name ++ " value " ++ Text.quote text
  | unrepresentable json => "type cast failure, unsupported context value: " ++ json.text

/-- The truth value that a text spells. -/
def boolOfText? (s : String) : Option Bool :=
  if ["1", "t", "T", "TRUE", "true", "True"].contains s then some true
  else if ["0", "f", "F", "FALSE", "false", "False"].contains s then some false
  else none

/-- The integer that a text spells, blanks at both ends aside. -/
def int64OfText? (s : String) : Option Int64 := Number.int64? (Text.trim s.toList)

/-- The floating-point number that a text spells, blanks at both ends aside. -/
def floatOfText? (s : String) : Option Float := Number.float? (Text.trim s.toList)

namespace Value

def toBool (v : Value) : Except CastError Bool :=
  match v with
  | nil => .ok false
  | bool b => .ok b
  | str s =>
      if s = "" then .ok false
      else match boolOfText? s with
        | some b => .ok b
        | none => .error (.malformed s .bool)
  | _ => .error (.unsupported v.type .bool)

/-- The value as an integer. Floating-point numbers lose their fraction and are held at the ends of the
range. -/
def toInt64 (v : Value) : Except CastError Int64 :=
  match v with
  | nil => .ok 0
  | int n => .ok n
  | float x => .ok (Number.toInt64 x)
  | str s =>
      if s = "" then .ok 0
      else match int64OfText? s with
        | some n => .ok n
        | none => .error (.malformed s .int64)
  | _ => .error (.unsupported v.type .int64)

def toFloat (v : Value) : Except CastError Float :=
  match v with
  | nil => .ok 0.0
  | int n => .ok (Number.ofInt n.toInt)
  | float x => .ok x
  | str s =>
      if s = "" then .ok 0.0
      else match floatOfText? s with
        | some x => .ok x
        | none => .error (.malformed s .float)
  | _ => .error (.unsupported v.type .float)

def toText (v : Value) : Except CastError String :=
  match v with
  | nil => .ok ""
  | int n => .ok (Number.int64Text n)
  | float x => .ok (Number.floatText .plain x)
  | str s => .ok s
  | _ => .error (.unsupported v.type .string)

def cast (v : Value) (kind : Kind) : Except CastError Value :=
  match kind with
  | .any | .object => .ok v
  | .string => v.toText.map str
  | .int64 => v.toInt64.map int
  | .bool => v.toBool.map bool
  | .float => v.toFloat.map float

def castTo (v : Value) (kind : String) : Except CastError Value := do v.cast (← Kind.ofName kind)

end Value

end RecordRules
