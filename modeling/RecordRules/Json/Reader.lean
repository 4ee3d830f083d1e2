import RecordRules.Json.Basic
import RecordRules.Number.Numeral

/-!
# Reading JSON text

A strict reader: blanks are space, tab, line feed and carriage return; strings hold no control characters and
no half of a surrogate pair; nothing may follow the value. Of two members of an object with one key the later
one counts, and the keys of the result are ascending. The reader is given how deep arrays and objects may
nest, and refuses deeper text.

Whole numbers that fit 64 bits are kept. Any other number becomes a double in the way of `scaled`: the leading
digits that fit 64 bits make the significand, and one multiplication or division by a power of ten follows.
The result is the nearest double whenever significand and power are themselves doubles, and can be off by a
unit in the last place otherwise. Numbers beyond the range of doubles are refused.
-/
namespace RecordRules.Json

/-- What is left of a text after something was read from it. -/
abbrev Rest (cs : List Char) := { r : List Char // r.length < cs.length }

def isSpace (c : Char) : Bool := c == ' ' || c == '\n' || c == '\t' || c == '\r'

def skip (cs : List Char) : List Char := cs.dropWhile isSpace

theorem length_skip_le (cs : List Char) : (skip cs).length ≤ cs.length :=
  List.IsSuffix.length_le (List.dropWhile_suffix isSpace)

theorem length_lt_of_skip {cs r : List Char} {c : Char} (h : skip cs = c :: r) : r.length < cs.length := by
  have := length_skip_le cs
  rw [h, List.length_cons] at this
  omega

/-! ### Strings -/

def hexDigit? (c : Char) : Option Nat :=
  if c.isDigit then some (c.toNat - 0x30)
  else if 'a' ≤ c ∧ c ≤ 'f' then some (c.toNat - 0x57)
  else if 'A' ≤ c ∧ c ≤ 'F' then some (c.toNat - 0x37)
  else none

/-- The four hexadecimal digits at the start, as a number. -/
def unit? : List Char → Option (Nat × List Char)
  | a :: b :: c :: d :: r =>
      match hexDigit? a, hexDigit? b, hexDigit? c, hexDigit? d with
      | some a, some b, some c, some d => some (((a * 16 + b) * 16 + c) * 16 + d, r)
      | _, _, _, _ => none
  | _ => none

/-- The character of an escape, read after the backslash. A first half of a surrogate pair must be followed
by the escape of a second half. -/
def escape? : List Char → Option (Char × List Char)
  | '"' :: r => some ('"', r)
  | '\\' :: r => some ('\\', r)
  | '/' :: r => some ('/', r)
  | 'b' :: r => some ('\x08', r)
  | 'f' :: r => some ('\x0c', r)
  | 'n' :: r => some ('\n', r)
  | 'r' :: r => some ('\r', r)
  | 't' :: r => some ('\t', r)
  | 'u' :: r =>
      match unit? r with
      | some (high, r) =>
          if 0xd800 ≤ high ∧ high < 0xdc00 then
            match r with
            | '\\' :: 'u' :: r =>
                match unit? r with
                | some (low, r) =>
                    if 0xdc00 ≤ low ∧ low < 0xe000 then
                      some (Char.ofNat (0x10000 + (high - 0xd800) * 0x400 + (low - 0xdc00)), r)
                    else none
                | none => none
            | _ => none
          else if 0xdc00 ≤ high ∧ high < 0xe000 then none
          else some (Char.ofNat high, r)
      | none => none
  | _ => none

theorem length_of_unit? {cs r : List Char} {n : Nat} (h : unit? cs = some (n, r)) : r.length < cs.length := by
  unfold unit? at h
  split at h
  · split at h
    · simp only [Option.some.injEq, Prod.mk.injEq] at h
      rw [← h.2]
      simp only [List.length_cons]
      omega
    · simp at h
  · simp at h

theorem length_of_escape? {cs r : List Char} {c : Char} (h : escape? cs = some (c, r)) :
    r.length < cs.length := by
  unfold escape? at h
  split at h
  iterate 8
    · simp only [Option.some.injEq, Prod.mk.injEq] at h
      rw [← h.2]
      simp
  · split at h
    · rename_i hu
      have h1 := length_of_unit? hu
      split at h
      · split at h
        · split at h
          · rename_i hu2
            have h2 := length_of_unit? hu2
            split at h
            · simp only [Option.some.injEq, Prod.mk.injEq] at h
              rw [← h.2]
              simp only [List.length_cons] at h1 ⊢
              omega
            · simp at h
          · simp at h
        · simp at h
      · split at h
        · simp at h
        · simp only [Option.some.injEq, Prod.mk.injEq] at h
          rw [← h.2]
          simp only [List.length_cons]
          omega
    · simp at h
  · simp at h

/-- The characters of a string up to its closing quote, read after the opening one. -/
def stringBody? (cs : List Char) : Option (List Char × Rest cs) :=
  match cs with
  | [] => none
  | c :: r =>
      if c = '"' then some ([], ⟨r, Nat.lt_succ_self r.length⟩)
      else if c = '\\' then
        match h : escape? r with
        | some (d, r') => do
            let (ds, rest) ← stringBody? r'
            some (d :: ds, ⟨rest.1, Nat.lt_succ_of_lt (Nat.lt_trans rest.2 (length_of_escape? h))⟩)
        | none => none
      else if c.toNat < 0x20 then none
      else do
        let (ds, rest) ← stringBody? r
        some (c :: ds, ⟨rest.1, Nat.lt_succ_of_lt rest.2⟩)
termination_by cs.length
decreasing_by
  · exact Nat.lt_succ_of_lt (length_of_escape? h)
  · exact Nat.lt_succ_self r.length

/-! ### Numbers -/

structure Written where
  negative : Bool
  whole : List Char
  fraction : List Char
  exponent : Option Int

/-- Digits, at least one of them. -/
def digits1? (cs : List Char) : Option (List Char × List Char) :=
  match Number.spanDigits cs with
  | ([], _) => none
  | (d :: ds, r) => some (d :: ds, r)

/-- The whole part of a number: a zero, or digits that do not start with zero. -/
def whole? (cs : List Char) : Option (List Char × List Char) :=
  match digits1? cs with
  | some ('0' :: _ :: _, _) => none
  | r => r

def minus : List Char → Bool × List Char
  | '-' :: r => (true, r)
  | cs => (false, cs)

/-- The optional fraction after the whole part: a point and at least one digit. -/
def fraction? : List Char → Option (List Char × List Char)
  | '.' :: r => digits1? r
  | cs => some ([], cs)

/-- The optional exponent: its letter, an optional sign and at least one digit. -/
def exponent? : List Char → Option (Option Int × List Char)
  | [] => some (none, [])
  | c :: r =>
      if c = 'e' ∨ c = 'E' then
        (digits1? (Number.splitSign r).2).map fun (ds, rest) =>
          let e : Int := Number.digitsValue ds
          (some (if (Number.splitSign r).1 then -e else e), rest)
      else some (none, c :: r)

def written? (cs : List Char) : Option (Written × List Char) := do
  let (whole, r1) ← whole? (minus cs).2
  let (fraction, r2) ← fraction? r1
  let (exponent, rest) ← exponent? r2
  some (⟨(minus cs).1, whole, fraction, exponent⟩, rest)

/-- Appends digits to a significand as long as it fits 64 bits; the digits left over are returned too. -/
def extend (significand : Nat) : List Char → Nat × List Char
  | [] => (significand, [])
  | d :: ds =>
      let next := 10 * significand + (d.toNat - '0'.toNat)
      if next < 0x10000000000000000 then extend next ds else (significand, d :: ds)

def tenTo (n : Nat) : Float := Number.ofPattern false (Number.Format.double.nearestDecimal 1 n)

/-- A significand times a power of ten, in double arithmetic; none beyond the range of doubles. -/
def scaled (significand : Nat) (exponent : Int) : Option Float :=
  let x := Number.ofInt significand
  if 308 < exponent then if significand = 0 then some 0.0 else none
  else if 0 ≤ exponent then
    let y := x * tenTo exponent.toNat
    if y.isInf then none else some y
  else if -308 ≤ exponent then some (x / tenTo (-exponent).toNat)
  else if -616 ≤ exponent then some (x / tenTo 308 / tenTo (-exponent - 308).toNat)
  else some 0.0

/-- A finite double as a JSON number. -/
def ofFloat? (x : Float) : Option JsonNumber :=
  if h : x.isFinite = true then some (.float x h) else none

/-- The number of its written parts. -/
def Written.toNumber? (w : Written) : Option JsonNumber :=
  let (s, skipped) := extend 0 w.whole
  if w.fraction = [] ∧ w.exponent = none ∧ skipped = [] then
    if w.negative then
      if s = 0 then ofFloat? (-0.0)
      else if s ≤ 0x8000000000000000 then some (.int (Int64.ofInt (-(s : Int))))
      else ofFloat? (Number.ofInt (-(s : Int)))
    else if h : 0x8000000000000000 ≤ (UInt64.ofNat s).toNat then some (.large (UInt64.ofNat s) h)
    else some (.int (Int64.ofNat s))
  else do
    let (s, ignored) := extend s w.fraction
    let places : Int := skipped.length - (w.fraction.length - ignored.length)
    let x ← scaled s (places + w.exponent.getD 0)
    ofFloat? (if w.negative then -x else x)

/-- What written numbers stand for, given the text and its parts. -/
abbrev NumberReading := (token : List Char) → Written → Option Json

/-- Written numbers stand for numbers. -/
def plainNumber : NumberReading := fun _ w => w.toNumber?.map number

theorem length_spanDigits_le (cs : List Char) : (Number.spanDigits cs).2.length ≤ cs.length :=
  List.IsSuffix.length_le (List.dropWhile_suffix Char.isDigit)

theorem length_of_digits1? {cs ds r : List Char} (h : digits1? cs = some (ds, r)) : r.length < cs.length := by
  unfold digits1? at h
  split at h
  · simp at h
  · rename_i d ds' r' hs
    simp only [Option.some.injEq, Prod.mk.injEq] at h
    have := congrArg List.length (Number.spanDigits_append cs)
    rw [hs, h.2] at this
    simp only [List.length_append, List.length_cons] at this
    omega

theorem length_of_whole? {cs ds r : List Char} (h : whole? cs = some (ds, r)) : r.length < cs.length := by
  unfold whole? at h
  split at h
  · simp at h
  · exact length_of_digits1? h

theorem length_minus_le (cs : List Char) : (minus cs).2.length ≤ cs.length := by
  unfold minus
  split <;> simp

theorem length_splitSign_le (cs : List Char) : (Number.splitSign cs).2.length ≤ cs.length := by
  unfold Number.splitSign
  split <;> simp

theorem length_of_fraction? {cs ds r : List Char} (h : fraction? cs = some (ds, r)) :
    r.length ≤ cs.length := by
  unfold fraction? at h
  split at h
  · have := length_of_digits1? h
    simp only [List.length_cons]
    omega
  · simp only [Option.some.injEq, Prod.mk.injEq] at h
    exact Nat.le_of_eq (congrArg List.length h.2.symm)

theorem length_of_exponent? {cs r : List Char} {e : Option Int} (h : exponent? cs = some (e, r)) :
    r.length ≤ cs.length := by
  unfold exponent? at h
  split at h
  · simp only [Option.some.injEq, Prod.mk.injEq] at h
    exact Nat.le_of_eq (congrArg List.length h.2.symm)
  · rename_i c r1
    split at h
    · obtain ⟨⟨ds, rest⟩, hd, hr⟩ := Option.map_eq_some_iff.1 h
      have h1 := length_of_digits1? hd
      have h2 := length_splitSign_le r1
      simp only [Prod.mk.injEq] at hr
      rw [← hr.2, List.length_cons]
      omega
    · simp only [Option.some.injEq, Prod.mk.injEq] at h
      exact Nat.le_of_eq (congrArg List.length h.2.symm)

theorem length_of_written? {cs r : List Char} {w : Written} (h : written? cs = some (w, r)) :
    r.length < cs.length := by
  unfold written? at h
  obtain ⟨⟨whole, r1⟩, h1, h⟩ := Option.bind_eq_some_iff.1 h
  obtain ⟨⟨fraction, r2⟩, h2, h⟩ := Option.bind_eq_some_iff.1 h
  obtain ⟨⟨exponent, r3⟩, h3, h⟩ := Option.bind_eq_some_iff.1 h
  simp only [Option.some.injEq, Prod.mk.injEq] at h
  have := length_minus_le cs
  have := length_of_whole? h1
  have := length_of_fraction? h2
  have := length_of_exponent? h3
  rw [← h.2]
  omega

/-! ### Values -/

/-- What follows a word at the start of a text. -/
def afterWord? : List Char → List Char → Option (List Char)
  | [], cs => some cs
  | _ :: _, [] => none
  | w :: ws, c :: cs => if w = c then afterWord? ws cs else none

theorem length_of_afterWord? {ws cs r : List Char} (h : afterWord? ws cs = some r) :
    r.length ≤ cs.length := by
  induction ws generalizing cs with
  | nil => simp [afterWord?] at h; simp [h]
  | cons w ws ih =>
      cases cs with
      | nil => simp [afterWord?] at h
      | cons c cs =>
          simp only [afterWord?] at h
          split at h
          · have := ih h
            simp only [List.length_cons]
            omega
          · simp at h

mutual
/-- The value at the start of a text, with arrays and objects nested at most `depth` deep. -/
def value? (numbers : NumberReading) (depth : Nat) (cs : List Char) : Option (Json × Rest cs) :=
  match hs : skip cs with
  | [] => none
  | c :: r =>
      have hr : r.length < cs.length := length_lt_of_skip hs
      if c = '[' then
        match depth with
        | 0 => none
        | depth + 1 =>
            match hb : skip r with
            | ']' :: rest => some (.array [], ⟨rest, by have := length_lt_of_skip hb; omega⟩)
            | _ => do
                let (items, rest) ← items? numbers depth r
                some (.array items, ⟨rest.1, by have := rest.2; omega⟩)
      else if c = '\x7b' then
        match depth with
        | 0 => none
        | depth + 1 =>
            match hb : skip r with
            | '\x7d' :: rest => some (.object [], ⟨rest, by have := length_lt_of_skip hb; omega⟩)
            | _ => do
                let (members, rest) ← members? numbers depth r
                some (ofEntries members, ⟨rest.1, by have := rest.2; omega⟩)
      else if c = '"' then do
        let (s, rest) ← stringBody? r
        some (.string (String.ofList s), ⟨rest.1, by have := rest.2; omega⟩)
      else if c = 'n' then
        match hw : afterWord? "ull".toList r with
        | some rest => some (.null, ⟨rest, by have := length_of_afterWord? hw; omega⟩)
        | none => none
      else if c = 't' then
        match hw : afterWord? "rue".toList r with
        | some rest => some (.bool true, ⟨rest, by have := length_of_afterWord? hw; omega⟩)
        | none => none
      else if c = 'f' then
        match hw : afterWord? "alse".toList r with
        | some rest => some (.bool false, ⟨rest, by have := length_of_afterWord? hw; omega⟩)
        | none => none
      else
        match hw : written? (c :: r) with
        | some (w, rest) => do
            let j ← numbers ((c :: r).take ((c :: r).length - rest.length)) w
            some (j, ⟨rest, by
              have := length_of_written? hw; simp only [List.length_cons] at this; omega⟩)
        | none => none
termination_by (cs.length, 0)

/-- The elements of an array and its closing bracket, read after the opening one. -/
def items? (numbers : NumberReading) (depth : Nat) (cs : List Char) : Option (List Json × Rest cs) := do
  let (j, r) ← value? numbers depth cs
  match hs : skip r.1 with
  | ',' :: r2 =>
      have h2 : r2.length < cs.length := by have := length_lt_of_skip hs; have := r.2; omega
      let (js, rest) ← items? numbers depth r2
      some (j :: js, ⟨rest.1, by have := rest.2; omega⟩)
  | ']' :: rest => some ([j], ⟨rest, by have := length_lt_of_skip hs; have := r.2; omega⟩)
  | _ => none
termination_by (cs.length, 1)

/-- The members of an object and its closing brace, read after the opening one. -/
def members? (numbers : NumberReading) (depth : Nat) (cs : List Char) :
    Option (List (String × Json) × Rest cs) :=
  match hs : skip cs with
  | '"' :: r => do
      have hr : r.length < cs.length := length_lt_of_skip hs
      let (key, r1) ← stringBody? r
      match hc : skip r1.1 with
      | ':' :: r2 =>
          have h2 : r2.length < cs.length := by have := length_lt_of_skip hc; have := r1.2; omega
          let (j, r3) ← value? numbers depth r2
          match hm : skip r3.1 with
          | ',' :: r4 =>
              have h4 : r4.length < cs.length := by have := length_lt_of_skip hm; have := r3.2; omega
              let (ms, rest) ← members? numbers depth r4
              some ((String.ofList key, j) :: ms, ⟨rest.1, by have := rest.2; omega⟩)
          | '\x7d' :: rest =>
              some ([(String.ofList key, j)], ⟨rest, by
                have := length_lt_of_skip hm; have := r3.2; omega⟩)
          | _ => none
      | _ => none
  | _ => none
termination_by (cs.length, 1)
end

/-- The value that a whole text writes, with arrays and objects nested at most `depth` deep. -/
def ofCharsWith? (numbers : NumberReading) (depth : Nat) (cs : List Char) : Option Json := do
  let (j, rest) ← value? numbers depth cs
  if skip rest.1 = [] then some j else none

def ofChars? (depth : Nat) (cs : List Char) : Option Json := ofCharsWith? plainNumber depth cs

/-- A text without the byte order mark at its start. -/
def dropMark : List Char → List Char
  | '\ufeff' :: cs => cs
  | cs => cs

def maxNesting : Nat := 127

def ofText? (s : String) : Option Json := ofChars? maxNesting s.toList

end RecordRules.Json
