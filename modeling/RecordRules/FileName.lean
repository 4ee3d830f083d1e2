/-!
# File names

A file name is cut at its slashes into segments. Empty segments and segments of a single point after the first
one do not change what is named.
-/
namespace RecordRules.FileName

def segments : List Char → List (List Char)
  | [] => [[]]
  | '/' :: cs => [] :: segments cs
  | c :: cs =>
      match segments cs with
      | [] => [[c]]
      | s :: rest => (c :: s) :: rest

/-- A segment that does not change what is named. -/
def isIdle (segment : List Char) : Bool := segment == [] || segment == ['.']

/-- Whether a name stands for the standard input: a minus sign, and nothing after it that changes what is
named. -/
def isStandardInput (name : String) : Bool :=
  match segments name.toList with
  | first :: rest => first == ['-'] && rest.all isIdle
  | [] => false

/-- What stands after the last point of the last segment, unless the point starts that segment. -/
def extension (name : String) : List Char :=
  let part := name.toList.reverse.takeWhile (· != '/')
  match part.dropWhile (· != '.') with
  | '.' :: _ :: _ => (part.takeWhile (· != '.')).reverse
  | _ => []

/-- The segments without idle ones at the end. -/
def trimmed (name : String) : List (List Char) :=
  ((segments name.toList).reverse.dropWhile isIdle).reverse

/-- The name of the file beside a name that differs by one more extension; none if the name does not end in
the name of a file. -/
def addExtension? (name ext : String) : Option String :=
  let kept := trimmed name
  match kept.getLast? with
  | none => none
  | some last =>
      if last = ['.', '.'] then none
      else some (String.ofList (List.intercalate ['/'] kept ++ '.' :: ext.toList))

end RecordRules.FileName
