import RecordRules.Json.Reader

/-!
# JSON text as YAML

JSON text is YAML too, and in YAML it means the same but for a few points. A whole number is an integer, also
if it is written `-0`; one that needs more than 64 bits but fits 128 is refused. Any other number is the
nearest double, and a text if that is infinite. Control characters are refused everywhere, and so are escapes
of the halves of a surrogate pair. A byte order mark may stand at the start, and arrays and objects may nest
one level deeper.

YAML also knows lines. A key has to stand on one line with its colon, no more than 1024 characters before it.
Tabs may not indent the value, nor a later line after it. Three characters that JSON takes for ordinary ones
end a line inside a string too; such breaks are folded.
-/
namespace RecordRules.Yaml

open RecordRules.Json (Written NumberReading)

def isAllowed (c : Char) : Bool :=
  let n := c.toNat
  c == '\t' || c == '\n' || c == '\r' || (0x20 ≤ n && n ≤ 0x7e) || n == 0x85 ||
    (0xa0 ≤ n && n != 0xfffe && n != 0xffff)

/-- Whether four hexadecimal digits at the start name the half of a surrogate pair. -/
def startsHalf (cs : List Char) : Bool :=
  match Json.unit? cs with
  | some (n, _) => 0xd800 ≤ n && n < 0xe000
  | none => false

/-- Whether an escape in a text names the half of a surrogate pair. -/
def namesHalf : List Char → Bool
  | [] => false
  | '\\' :: c :: r => (c == 'u' && startsHalf r) || namesHalf r
  | _ :: r => namesHalf r

/-! ### Lines -/

/-- The next line, the separator of lines and the separator of paragraphs: they end a line inside a string. -/
def isBreak (c : Char) : Bool := c == '\u0085' || c == '\u2028' || c == '\u2029'

def endsLine (c : Char) : Bool := c == '\n' || c == '\r' || isBreak c

/-- Whether tabs stand only where they indent nothing: not before the value, and on no later line after it. A
number or word as the whole value takes in all that follows it. -/
def indentsWithSpaces (cs : List Char) : Bool :=
  let after := cs.reverse.takeWhile Json.isSpace
  let plain := match cs.reverse.dropWhile Json.isSpace with
    | c :: _ => !(c == '"' || c == ']' || c == '\x7d')
    | [] => false
  !(cs.takeWhile Json.isSpace).contains '\t' &&
    (plain || !(after.reverse.dropWhile (!endsLine ·)).contains '\t')

/-- The written form of a line break that is kept: every next line is a line feed. -/
def kept (c : Char) : List Char := if c = '\u0085' then ['\\', 'n'] else [c]

/-- A run of spaces and line breaks, folded. Without a break it stays; otherwise its spaces go, and a first
break that is a next line gives way to the other breaks, or to a space if there are none. -/
def foldRun (run : List Char) : List Char :=
  match run.filter isBreak with
  | [] => run
  | [c] => if c = '\u0085' then [' '] else [c]
  | c :: more => (if c = '\u0085' then [] else [c]) ++ more.flatMap kept

def isGap (c : Char) : Bool := c == ' ' || isBreak c

/-- The written characters of a string with the line breaks folded; `run` holds the spaces and line breaks
just before, the latest first. -/
def foldFrom (run : List Char) : List Char → List Char
  | [] => foldRun run.reverse
  | '\\' :: c :: cs => foldRun run.reverse ++ '\\' :: c :: foldFrom [] cs
  | c :: cs =>
      if isGap c then foldFrom (c :: run) cs
      else foldRun run.reverse ++ c :: foldFrom [] cs

/-- The written characters of a string, read after the opening quote, and what follows from the closing quote
on. -/
def writtenString : List Char → List Char × List Char
  | [] => ([], [])
  | '\\' :: c :: cs =>
      let (s, rest) := writtenString cs
      ('\\' :: c :: s, rest)
  | c :: cs =>
      if c = '"' then ([], c :: cs)
      else
        let (s, rest) := writtenString cs
        (c :: s, rest)

/-- How far the colon of a key may be from the start of the key. -/
def maxKey : Nat := 1024

/-- Whether a string may stand where it does, given its written characters and what follows its closing quote:
if a colon comes next, the string is a key. -/
def isPlaced (s after : List Char) : Bool :=
  match Json.skip after with
  | ':' :: _ =>
      let gap := after.takeWhile Json.isSpace
      !(s ++ gap).any endsLine && s.length + gap.length + 2 ≤ maxKey
  | _ => true

theorem length_writtenString_le (cs : List Char) : (writtenString cs).2.length ≤ cs.length := by
  fun_induction writtenString cs
  all_goals simp_all
  all_goals omega

/-- The JSON text that means what a text means as YAML, as far as lines go: every string is folded. None if a
key is not placed well. -/
def folded? (cs : List Char) : Option (List Char) :=
  match cs with
  | [] => some []
  | c :: r =>
      if c = '"' then
        match h : writtenString r with
        | (s, q :: after) =>
            if isPlaced s after then (folded? after).map (c :: foldFrom [] s ++ q :: ·) else none
        | (_, []) => none
      else (folded? r).map (c :: ·)
termination_by cs.length
decreasing_by
  · have := length_writtenString_le r
    rw [h, List.length_cons] at this
    rw [List.length_cons]
    omega
  · exact Nat.lt_succ_self r.length

/-! ### Values -/

def nearest (w : Written) : Float :=
  Number.Numeral.toDouble ⟨w.negative,
    .decimal (Number.digitsValue (w.whole ++ w.fraction)) (w.exponent.getD 0 - w.fraction.length)⟩

/-- A number as a double, or the text itself if that is infinite. -/
def real (token : List Char) (w : Written) : Json :=
  match Json.ofFloat? (nearest w) with
  | some n => .number n
  | none => .string (String.ofList token)

def number : NumberReading := fun token w =>
  let n := Number.digitsValue w.whole
  if w.fraction ≠ [] ∨ w.exponent ≠ none then some (real token w)
  else if w.negative then
    if n ≤ 0x8000000000000000 then some (.number (.int (Int64.ofInt (-(n : Int)))))
    else if n ≤ 0x80000000000000000000000000000000 then none
    else some (real token w)
  else if n < 0x10000000000000000 then w.toNumber?.map .number
  else if n < 0x100000000000000000000000000000000 then none
  else some (real token w)

def maxNesting : Nat := 128

/-- The value that a JSON text writes when it is read as YAML. -/
def ofText? (s : String) : Option Json :=
  let cs := Json.dropMark s.toList
  if cs.all isAllowed && !namesHalf cs && indentsWithSpaces cs then
    (folded? cs).bind (Json.ofCharsWith? number maxNesting)
  else none

end RecordRules.Yaml
