import RecordRules.Json.Basic
import RecordRules.Number.Numeral

/-!
# Paths into JSON data

A path leads from a value to one of its parts. It is written as a name followed by further names, each after a
point, and positions in brackets, as in `rules[0].name`; names are made of ASCII letters, digits, underscores
and minus signs. A position counts from zero, or from the end if it is negative.

Putting a value at a path builds what is missing on the way: a value that is no object or array where one is
needed gives way to an empty one, and an array is filled up with nulls until it has the position. An object
that is put where an object stands is merged with it, member by member.
-/
namespace RecordRules.Json

/-- A step from a value to one of its parts. -/
inductive Step where
  | member (name : String)
  | element (position : Int)
deriving DecidableEq, Repr

abbrev Path := List Step

/-! ### Written paths -/

def isPathChar (c : Char) : Bool := c.isAlphanum || c == '_' || c == '-'

/-- A character that may stand beside a position inside its brackets. -/
def isPathGap (c : Char) : Bool := c == ' ' || c == '\t'

def pathName? (cs : List Char) : Option (String × List Char) :=
  match cs.takeWhile isPathChar with
  | [] => none
  | ds => some (String.ofList ds, cs.dropWhile isPathChar)

/-- The position at the start of a text and its closing bracket. -/
def pathPosition? (cs : List Char) : Option (Int × List Char) :=
  let (sign, r) := match cs.dropWhile isPathGap with
    | '-' :: r => (['-'], r)
    | r => ([], r)
  let (ds, r) := Number.spanDigits r
  match Number.int64? (sign ++ ds), r.dropWhile isPathGap with
  | some n, ']' :: rest => some (n.toInt, rest)
  | _, _ => none

theorem length_of_pathName? {cs r : List Char} {name : String} (h : pathName? cs = some (name, r)) :
    r.length ≤ cs.length := by
  unfold pathName? at h
  split at h
  · simp at h
  · simp only [Option.some.injEq, Prod.mk.injEq] at h
    exact h.2 ▸ List.IsSuffix.length_le (List.dropWhile_suffix isPathChar)

theorem length_of_pathPosition? {cs r : List Char} {n : Int} (h : pathPosition? cs = some (n, r)) :
    r.length ≤ cs.length := by
  have h1 := List.IsSuffix.length_le (List.dropWhile_suffix isPathGap (l := cs))
  unfold pathPosition? at h
  split at h
  rename_i sign r1 hs
  have h2 : r1.length ≤ cs.length := by
    split at hs
    · rename_i hd
      simp only [Prod.mk.injEq] at hs
      rw [hd, List.length_cons] at h1
      rw [← hs.2]
      omega
    · simp only [Prod.mk.injEq] at hs
      exact hs.2 ▸ h1
  have h3 := List.IsSuffix.length_le (List.dropWhile_suffix Char.isDigit (l := r1))
  simp only [Number.spanDigits] at h
  have h4 := List.IsSuffix.length_le (List.dropWhile_suffix isPathGap (l := r1.dropWhile Char.isDigit))
  split at h
  · rename_i hr
    simp only [Option.some.injEq, Prod.mk.injEq] at h
    rw [hr, List.length_cons] at h4
    rw [← h.2]
    omega
  · simp at h

/-- The steps that a text writes after the first name. -/
def pathSteps? (cs : List Char) : Option Path :=
  match cs with
  | [] => some []
  | c :: r =>
      if c = '.' then
        match h : pathName? r with
        | some (name, rest) => (pathSteps? rest).map (.member name :: ·)
        | none => none
      else if c = '[' then
        match h : pathPosition? r with
        | some (n, rest) => (pathSteps? rest).map (.element n :: ·)
        | none => none
      else none
termination_by cs.length
decreasing_by
  · exact Nat.lt_succ_of_le (length_of_pathName? h)
  · exact Nat.lt_succ_of_le (length_of_pathPosition? h)

def path? (s : String) : Option Path :=
  match pathName? s.toList with
  | some (name, rest) => (pathSteps? rest).map (.member name :: ·)
  | none => none

/-! ### Putting values -/

def members : Json → List (String × Json)
  | object ms => ms
  | _ => []

/-- The elements of an array; none for other values. -/
def elements : Json → List Json
  | array items => items
  | _ => []

mutual
/-- What stands at a place after a value was put there. -/
def merge : Json → Json → Json
  | object ms, present => object (mergeMembers ms present.members)
  | j, _ => j
termination_by structural j => j

/-- The members of an object after others were put into it. -/
def mergeMembers : List (String × Json) → List (String × Json) → List (String × Json)
  | [], present => present
  | (key, j) :: rest, present =>
      mergeMembers rest (Entries.put key (merge j ((present.lookup key).getD null)) present)
termination_by structural ms => ms
end

/-- The elements filled up until a position is among them, and the position counted from zero. -/
def reach (position : Int) (items : List Json) : List Json × Nat :=
  if 0 ≤ position then
    (items ++ List.replicate (position.toNat + 1 - items.length) null, position.toNat)
  else
    let back := (-position).toNat
    (List.replicate (back - items.length) null ++ items, items.length - back)

/-- Puts a value at a path of a whole. -/
def put : Path → Json → Json → Json
  | [], j, present => merge j present
  | .member name :: path, j, whole =>
      let part := (whole.members.lookup name).getD null
      object (Entries.put name (put path j part) whole.members)
  | .element position :: path, j, whole =>
      let (items, n) := reach position whole.elements
      array (items.set n (put path j (items.getD n null)))

/-- The object that named values make up. A name that writes a path leads to the place of its value; any other
name is the name of a member. -/
def assemble (named : List (String × Json)) : Json :=
  named.foldl (fun whole (name, j) => put ((path? name).getD [.member name]) j whole) (object [])

end RecordRules.Json
