import RecordRules.Number.Layout
import RecordRules.Number.Numeral
import RecordRules.Text.Blank
import RecordRules.Text.Quoted

/-!
# Tokens

The tokens of expression text and the lexer that cuts them. Between tokens the lexer skips space, tab,
carriage return and line feed, and nothing else. A token is cut by its first character and runs as far as it
can: two-character operators win over one-character ones; a number takes a point and an exponent only if they
are complete; a name starts with a letter or an underscore and goes on with letters, numbers, underscores and
points; a string ends at the quote that opened it. Whole numbers beyond the 64-bit range become
floating-point numbers.

When no token can be cut, the error tells the text from there on, white space at its start left out.
-/
namespace RecordRules

inductive Symbol where
  | eqEq
  | ne
  | lt
  | le
  | gt
  | ge
  | plus
  | minus
  | star
  | slash
  | andAnd
  | orOr
  | bang
  | lparen
  | rparen
  | lbracket
  | rbracket
  | lbrace
  | rbrace
  | comma
deriving DecidableEq, Repr

inductive Token where
  | ident (name : String)
  | int (n : Int64)
  | float (x : Float)
  | str (s : String)
  | symbol (s : Symbol)
deriving DecidableEq

def Symbol.name : Symbol → String
  | eqEq => "EqEq"
  | ne => "Ne"
  | lt => "Lt"
  | le => "Le"
  | gt => "Gt"
  | ge => "Ge"
  | plus => "Plus"
  | minus => "Minus"
  | star => "Star"
  | slash => "Slash"
  | andAnd => "AndAnd"
  | orOr => "OrOr"
  | bang => "Bang"
  | lparen => "LParen"
  | rparen => "RParen"
  | lbracket => "LBracket"
  | rbracket => "RBracket"
  | lbrace => "LBrace"
  | rbrace => "RBrace"
  | comma => "Comma"

/-- A token as messages name it. -/
def Token.name : Token → String
  | ident name => "Ident(" ++ Text.quote name ++ ")"
  | int n => "Int(" ++ Number.int64Text n ++ ")"
  | float x => "Float(" ++ Number.floatText .marked x ++ ")"
  | str s => "Str(" ++ Text.quote s ++ ")"
  | symbol s => s.name

/-- A token, or the end of the text, as messages name it. -/
def Token.nameOrEnd : Option Token → String
  | some t => t.name
  | none => "Eof"

namespace Token

/-- A character skipped between tokens. -/
def isGap (c : Char) : Bool := c == ' ' || c == '\t' || c == '\r' || c == '\n'

def skipGap (cs : List Char) : List Char := cs.dropWhile isGap

def symbol? : List Char → Option (Symbol × List Char)
  | '=' :: '=' :: r => some (.eqEq, r)
  | '!' :: '=' :: r => some (.ne, r)
  | '<' :: '=' :: r => some (.le, r)
  | '>' :: '=' :: r => some (.ge, r)
  | '&' :: '&' :: r => some (.andAnd, r)
  | '|' :: '|' :: r => some (.orOr, r)
  | '<' :: r => some (.lt, r)
  | '>' :: r => some (.gt, r)
  | '+' :: r => some (.plus, r)
  | '-' :: r => some (.minus, r)
  | '*' :: r => some (.star, r)
  | '/' :: r => some (.slash, r)
  | '!' :: r => some (.bang, r)
  | '(' :: r => some (.lparen, r)
  | ')' :: r => some (.rparen, r)
  | '[' :: r => some (.lbracket, r)
  | ']' :: r => some (.rbracket, r)
  | '\x7b' :: r => some (.lbrace, r)
  | '\x7d' :: r => some (.rbrace, r)
  | ',' :: r => some (.comma, r)
  | _ => none

/-- The fraction after the whole part of a number, if a point follows: its digits, of which there may be
none. -/
def fraction : List Char → Option (List Char) × List Char
  | '.' :: r => (some (Number.spanDigits r).1, (Number.spanDigits r).2)
  | cs => (none, cs)

/-- The exponent after the digits of a number, if it is complete. -/
def exponent : List Char → Option Int × List Char
  | [] => (none, [])
  | c :: r =>
      if c = 'e' ∨ c = 'E' then
        match Number.spanDigits (Number.splitSign r).2 with
        | ([], _) => (none, c :: r)
        | (d :: ds, rest) =>
            let e : Int := Number.digitsValue (d :: ds)
            (some (if (Number.splitSign r).1 then -e else e), rest)
      else (none, c :: r)

/-- The number of its whole part, fraction and exponent. -/
def ofNumber (whole : List Char) (fraction : Option (List Char)) (exponent : Option Int) : Token :=
  let real : Token :=
    let ds := fraction.getD []
    float (Number.Numeral.toDouble
      ⟨false, .decimal (Number.digitsValue (whole ++ ds)) (exponent.getD 0 - ds.length)⟩)
  if fraction = none ∧ exponent = none then
    match Number.int64? whole with
    | some n => int n
    | none => real
  else real

def number? (cs : List Char) : Option (Token × List Char) :=
  match Number.spanDigits cs with
  | ([], _) => none
  | (d :: ds, r) =>
      let (fraction, r) := fraction r
      let (exponent, r) := exponent r
      some (ofNumber (d :: ds) fraction exponent, r)

/-- The character that a backslash and the given character stand for. -/
def unescape : Char → Char
  | 'n' => '\n'
  | 't' => '\t'
  | 'r' => '\r'
  | c => c

/-- The characters of a string up to the closing quote, read after the opening one. -/
def stringBody? (quote : Char) : List Char → Option (List Char × List Char)
  | [] => none
  | [c] => if c = quote then some ([], []) else none
  | c :: d :: r =>
      if c = quote then some ([], d :: r)
      else if c = '\\' then (stringBody? quote r).map fun (s, rest) => (unescape d :: s, rest)
      else (stringBody? quote (d :: r)).map fun (s, rest) => (c :: s, rest)

def string? : List Char → Option (Token × List Char)
  | c :: r =>
      if c = '"' ∨ c = '\'' then
        (stringBody? c r).map fun (s, rest) => (str (String.ofList s), rest)
      else none
  | [] => none

def isNameStart (c : Char) : Bool := Text.isLetter c || c == '_'

def isNameChar (c : Char) : Bool := Text.isLetter c || Text.isNumber c || c == '_' || c == '.'

def ident? : List Char → Option (Token × List Char)
  | c :: r =>
      if isNameStart c then
        some (ident (String.ofList (c :: r.takeWhile isNameChar)), r.dropWhile isNameChar)
      else none
  | [] => none

def next? (cs : List Char) : Option (Token × List Char) :=
  ((symbol? cs).map fun (s, r) => (symbol s, r)) <|> number? cs <|> string? cs <|> ident? cs

end Token

namespace Token

theorem length_skipGap_le (cs : List Char) : (skipGap cs).length ≤ cs.length :=
  List.IsSuffix.length_le (List.dropWhile_suffix isGap)

theorem length_spanDigits_le (cs : List Char) : (Number.spanDigits cs).2.length ≤ cs.length :=
  List.IsSuffix.length_le (List.dropWhile_suffix Char.isDigit)

theorem length_of_symbol? {cs r : List Char} {s : Symbol} (h : symbol? cs = some (s, r)) :
    r.length < cs.length := by
  unfold symbol? at h
  split at h
  all_goals first
    | (simp only [Option.some.injEq, Prod.mk.injEq] at h
       rw [← h.2]
       simp only [List.length_cons]
       omega)
    | simp at h

theorem length_fraction_le (cs : List Char) : (fraction cs).2.length ≤ cs.length := by
  unfold fraction
  split
  · rename_i r
    have := length_spanDigits_le r
    simp only [List.length_cons]
    omega
  · exact Nat.le_refl _

theorem length_exponent_le (cs : List Char) : (exponent cs).2.length ≤ cs.length := by
  unfold exponent
  split
  · exact Nat.le_refl _
  · rename_i c r
    split
    · have hs : (Number.splitSign r).2.length ≤ r.length := by
        unfold Number.splitSign
        split <;> simp
      have hd := length_spanDigits_le (Number.splitSign r).2
      split
      · exact Nat.le_refl _
      · rename_i hr
        rw [hr] at hd
        simp only [List.length_cons]
        simp only at hd
        omega
    · exact Nat.le_refl _

theorem length_of_number? {cs r : List Char} {t : Token} (h : number? cs = some (t, r)) :
    r.length < cs.length := by
  unfold number? at h
  split at h
  · simp at h
  · rename_i d ds r1 hs
    simp only [Option.some.injEq, Prod.mk.injEq] at h
    have h0 := congrArg List.length (Number.spanDigits_append cs)
    rw [hs] at h0
    have h1 := length_fraction_le r1
    have h2 := length_exponent_le (fraction r1).2
    simp only [List.length_append, List.length_cons] at h0
    rw [← h.2]
    omega

theorem length_of_stringBody? {quote : Char} {cs s r : List Char} (h : stringBody? quote cs = some (s, r)) :
    r.length < cs.length := by
  fun_induction stringBody? quote cs generalizing s r with
  | case1 => simp at h
  | case2 =>
      simp only [Option.some.injEq, Prod.mk.injEq] at h
      rw [← h.2]
      simp
  | case3 => simp at h
  | case4 =>
      simp only [Option.some.injEq, Prod.mk.injEq] at h
      rw [← h.2]
      simp
  | case5 d r' _ ih =>
      obtain ⟨⟨s', r''⟩, hb, he⟩ := Option.map_eq_some_iff.1 h
      have := ih hb
      simp only [Prod.mk.injEq] at he
      rw [← he.2]
      simp only [List.length_cons]
      omega
  | case6 c d r' _ _ ih =>
      obtain ⟨⟨s', r''⟩, hb, he⟩ := Option.map_eq_some_iff.1 h
      have := ih hb
      simp only [Prod.mk.injEq] at he
      rw [← he.2]
      simp only [List.length_cons] at this ⊢
      omega

theorem length_of_string? {cs r : List Char} {t : Token} (h : string? cs = some (t, r)) :
    r.length < cs.length := by
  unfold string? at h
  split at h
  · split at h
    · obtain ⟨⟨s', r''⟩, hb, he⟩ := Option.map_eq_some_iff.1 h
      have := length_of_stringBody? hb
      simp only [Prod.mk.injEq] at he
      rw [← he.2]
      simp only [List.length_cons]
      omega
    · simp at h
  · simp at h

theorem length_of_ident? {cs r : List Char} {t : Token} (h : ident? cs = some (t, r)) :
    r.length < cs.length := by
  unfold ident? at h
  split at h
  · rename_i c r'
    split at h
    · simp only [Option.some.injEq, Prod.mk.injEq] at h
      have := List.IsSuffix.length_le (List.dropWhile_suffix isNameChar (l := r'))
      rw [← h.2]
      simp only [List.length_cons]
      omega
    · simp at h
  · simp at h

/-- A token takes at least one character. -/
theorem length_of_next? {cs r : List Char} {t : Token} (h : next? cs = some (t, r)) :
    r.length < cs.length := by
  unfold next? at h
  cases hs : symbol? cs with
  | some p =>
      obtain ⟨s, r'⟩ := p
      simp only [hs, Option.map_some, Option.orElse_eq_orElse, Option.orElse_some, Option.some.injEq,
        Prod.mk.injEq] at h
      exact h.2 ▸ length_of_symbol? hs
  | none =>
      simp only [hs, Option.map_none, Option.orElse_eq_orElse, Option.orElse_none] at h
      cases hn : number? cs with
      | some p =>
          simp only [hn, Option.orElse_some, Option.some.injEq] at h
          exact length_of_number? (h ▸ hn)
      | none =>
          simp only [hn, Option.orElse_none] at h
          cases hq : string? cs with
          | some p =>
              simp only [hq, Option.orElse_some, Option.some.injEq] at h
              exact length_of_string? (h ▸ hq)
          | none =>
              simp only [hq, Option.orElse_none] at h
              exact length_of_ident? h

/-- The tokens of a text, or the part of the text, gaps included, at whose start no token can be cut. -/
def scan (cs : List Char) : Except (List Char) (List Token) :=
  match hs : skipGap cs with
  | [] => .ok []
  | c :: r =>
      match h : next? (c :: r) with
      | some (t, rest) => (scan rest).map (t :: ·)
      | none => .error cs
termination_by cs.length
decreasing_by exact Nat.lt_of_lt_of_le (length_of_next? h) (hs ▸ length_skipGap_le cs)

end Token

end RecordRules
