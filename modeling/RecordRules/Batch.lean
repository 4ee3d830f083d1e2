import RecordRules.Json.Reader
import RecordRules.RuleSet.Basic

/-!
# Checking many records

A batch is a text with one record in JSON per line. Blank lines are passed over but counted. Every other line
gives one result with its line number: the names of the rules that match, or the value of the first one, or an
error if the line is no record. An error concerns its own line only.

The records may be checked several at a time, and a record that is no JSON is reported with what the reader of JSON
says about it. Neither is settled here: both are parameters (`Backend`).
-/
namespace RecordRules.Batch

/-- The lines of a text, cut at the line feeds. -/
def lines : List Char → List (List Char)
  | [] => [[]]
  | '\n' :: cs => [] :: lines cs
  | c :: cs =>
      match lines cs with
      | [] => [[c]]
      | line :: rest => (c :: line) :: rest

/-- The lines with something on them, blanks at both ends dropped, each with its number. -/
def numbered (number : Nat) : List (List Char) → List (Nat × List Char)
  | [] => []
  | line :: rest =>
      if Text.trim line = [] then numbered (number + 1) rest
      else (number, Text.trim line) :: numbered (number + 1) rest

/-- The records of a text, each with the number of its line. -/
def records (text : List Char) : List (Nat × List Char) := numbered 1 (lines text)

/-- What a check takes from outside. -/
structure Backend where
  /-- What is said about a text that is no JSON. -/
  complaint : List Char → String
  /-- Makes a result of every record, possibly of several at a time. -/
  each : (Nat × List Char → Json) → List (Nat × List Char) → List Json

namespace Backend

/-- However the work is shared out, the results stand in the order of the records. -/
def KeepsOrder (backend : Backend) : Prop := ∀ f records, backend.each f records = records.map f

/-- One record after the other, and one complaint about everything that is no JSON. -/
def sequential : Backend := ⟨fun _ => "Json", List.map⟩

end Backend

/-- What comes out for one record. -/
inductive Result where
  | notJson (complaint : String)
  | refused (e : CastError)
  | first (value : Option String)
  | matched (names : List String)

/-- The result with its number, as JSON data. -/
def toJson (number : Nat) (result : Result) : Json :=
  Json.ofEntries [
    ("line", Json.ofInt64 (Int64.ofNat number)),
    match result with
    | .notJson complaint => ("error", .string complaint)
    | .refused e => ("error", .string e.message)
    | .first value => ("value", (value.map Json.string).getD .null)
    | .matched names => ("matched", Json.ofStrings names)]

section
variable (backend : Backend) (registry : Registry) (set : RuleSet) (firstOnly : Bool)

/-- Checks one record. -/
def checkRecord (record : List Char) : Result :=
  match Json.ofChars? Json.maxNesting record with
  | none => .notJson (backend.complaint record)
  | some j =>
      match Context.ofJson j with
      | .error e => .refused e
      | .ok context =>
          if firstOnly then .first (set.first registry context)
          else .matched (set.matching registry context)

/-- The results of all records of a text. -/
def check (text : List Char) : List Json :=
  backend.each
    (fun (number, record) => toJson number (checkRecord backend registry set firstOnly record)) (records text)

/-- The results as they are printed, one on each line. -/
def report (text : List Char) : List String := (check backend registry set firstOnly text).map Json.text

end

end RecordRules.Batch
