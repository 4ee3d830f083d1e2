import Mathlib.Tactic.IntervalCases
import RecordRules.Expr.Operator
import RecordRules.Expr.Parser

/-!
# Lexing pieces of text

A piece of text *lexes* to tokens if it is cut into them whatever separated text follows. Pieces are put
together by blanks, commas, brackets and operators, and the tokens of the whole are those of its pieces. The
pieces themselves are symbols, names and string literals here; numbers are treated in `Proofs.Lexer.Numbers`.
-/
namespace RecordRules.Token

/-! ## One step of the lexer -/

theorem scan_eq (cs : List Char) :
    scan cs = match skipGap cs with
      | [] => .ok []
      | c :: r =>
          match next? (c :: r) with
          | some (t, rest) => (scan rest).map (t :: ·)
          | none => .error cs := by
  rw [scan]
  split
  · rename_i h
    rw [h]
  · rename_i c r h
    rw [h]
    dsimp only
    split
    · rename_i t rest hn
      rw [hn]
    · rename_i hn
      rw [hn]

theorem scan_nil : scan [] = .ok [] := by
  rw [scan_eq]
  rfl

theorem scan_gap_iff {c : Char} {r : List Char} {us : List Token} (hc : isGap c = true) :
    scan (c :: r) = .ok us ↔ scan r = .ok us := by
  have hskip : skipGap (c :: r) = skipGap r := List.dropWhile_cons_of_pos hc
  rw [scan_eq, scan_eq, hskip]
  cases hr : skipGap r with
  | nil => rfl
  | cons d s =>
      cases hn : next? (d :: s) with
      | none => simp [hn]
      | some x => simp only [hn]

theorem scan_gap {c : Char} {r : List Char} {us : List Token} (hc : isGap c = true) (h : scan r = .ok us) :
    scan (c :: r) = .ok us := (scan_gap_iff hc).2 h

theorem scan_of_next? {c : Char} {r rest : List Char} {t : Token} {us : List Token} (hc : isGap c = false)
    (hn : next? (c :: r) = some (t, rest)) (h : scan rest = .ok us) : scan (c :: r) = .ok (t :: us) := by
  have hskip : skipGap (c :: r) = c :: r := List.dropWhile_cons_of_neg (by simp [hc])
  rw [scan_eq, hskip]
  simp only [hn, h]
  rfl

/-! ## Pieces -/

/-- A character that can follow a piece of text. -/
def isSeparator (c : Char) : Bool := c == ' ' || c == '(' || c == ')' || c == ',' || c == ']'

/-- A text that is empty or starts with a separator. -/
def Separated (rest : List Char) : Prop := ∀ c ∈ rest.head?, isSeparator c = true

theorem separated_nil : Separated [] := nofun

theorem separated_cons {c : Char} (h : isSeparator c = true) (r : List Char) : Separated (c :: r) := by
  rintro _ ⟨⟩
  exact h

/-- The text is cut into the given tokens, whatever separated text follows. It does not start with an equals
sign, which would be drawn to a `!` in front of it. -/
structure Lexes (cs : List Char) (ts : List Token) : Prop where
  scan_append : ∀ {rest : List Char} {us : List Token}, Separated rest → scan rest = .ok us →
    scan (cs ++ rest) = .ok (ts ++ us)
  head_ne : cs.head? ≠ some '='

theorem Lexes.scan_eq {cs : List Char} {ts : List Token} (h : Lexes cs ts) : scan cs = .ok ts := by
  have := h.scan_append separated_nil scan_nil
  rwa [List.append_nil, List.append_nil] at this

theorem Lexes.tokens {s : String} {ts : List Token} (h : Lexes s.toList ts) : Expr.tokens s = .ok ts := by
  rw [Expr.tokens, h.scan_eq]

theorem Lexes.nil : Lexes [] [] := ⟨fun _ h => h, nofun⟩

/-- A piece of a single token. -/
theorem Lexes.single {c : Char} {r : List Char} {t : Token} (hc : isGap c = false) (hne : c ≠ '=')
    (h : ∀ rest, Separated rest → next? (c :: (r ++ rest)) = some (t, rest)) : Lexes (c :: r) [t] where
  scan_append hsep hrest := scan_of_next? hc (h _ hsep) hrest
  head_ne := by simpa using hne

/-- A piece followed by one that starts with a separator. -/
theorem Lexes.append {a b : List Char} {c : Char} {ts us : List Token} (ha : Lexes a ts)
    (hb : Lexes (c :: b) us) (hc : isSeparator c = true) : Lexes (a ++ c :: b) (ts ++ us) where
  scan_append hsep hrest := by
    rw [List.append_assoc, List.append_assoc]
    exact ha.scan_append (separated_cons hc _) (hb.scan_append hsep hrest)
  head_ne := by
    cases a with
    | nil => exact hb.head_ne
    | cons d r => exact ha.head_ne

/-- A piece after a blank. -/
theorem Lexes.gap {b : List Char} {us : List Token} (hb : Lexes b us) : Lexes (' ' :: b) us where
  scan_append hsep hrest := scan_gap rfl (hb.scan_append hsep hrest)
  head_ne := nofun

/-- A piece after a symbol that takes no notice of what follows it. -/
theorem Lexes.after {b : List Char} {us : List Token} (hb : Lexes b us) {c : Char} {s : Symbol}
    (hc : isGap c = false) (hne : c ≠ '=') (h : ∀ r, next? (c :: r) = some (.symbol s, r)) :
    Lexes (c :: b) (.symbol s :: us) where
  scan_append hsep hrest := scan_of_next? hc (h _) (hb.scan_append hsep hrest)
  head_ne := by simpa using hne

/-- Two pieces with a blank between them. -/
theorem Lexes.blank {a b : List Char} {ts us : List Token} (ha : Lexes a ts) (hb : Lexes b us) :
    Lexes (a ++ ' ' :: b) (ts ++ us) := ha.append hb.gap rfl

/-- Two pieces with a comma between them. -/
theorem Lexes.comma {a b : List Char} {ts us : List Token} (ha : Lexes a ts) (hb : Lexes b us) :
    Lexes (a ++ ',' :: ' ' :: b) (ts ++ .symbol .comma :: us) :=
  ha.append (hb.gap.after rfl (by decide) fun _ => rfl) rfl

/-- A piece in parentheses. -/
theorem Lexes.parens {a : List Char} {ts : List Token} (ha : Lexes a ts) :
    Lexes ('(' :: a ++ [')']) (.symbol .lparen :: ts ++ [.symbol .rparen]) :=
  (ha.append (Lexes.nil.after rfl (by decide) fun _ => rfl) rfl).after rfl (by decide) fun _ => rfl

/-- A piece in brackets. -/
theorem Lexes.brackets {a : List Char} {ts : List Token} (ha : Lexes a ts) :
    Lexes ('[' :: a ++ [']']) (.symbol .lbracket :: ts ++ [.symbol .rbracket]) :=
  (ha.append (Lexes.nil.after rfl (by decide) fun _ => rfl) rfl).after rfl (by decide) fun _ => rfl

/-- A piece and another one in parentheses directly behind it. -/
theorem Lexes.call {a b : List Char} {ts us : List Token} (ha : Lexes a ts) (hb : Lexes b us) :
    Lexes (a ++ '(' :: b ++ [')']) (ts ++ .symbol .lparen :: us ++ [.symbol .rparen]) := by
  have h : Lexes (a ++ '(' :: (b ++ [')'])) (ts ++ .symbol .lparen :: (us ++ [.symbol .rparen])) :=
    ha.append hb.parens rfl
  simpa using h

/-! ## Operators -/

/-- A minus sign in front of a piece. -/
theorem Lexes.minus {a : List Char} {ts : List Token} (ha : Lexes a ts) :
    Lexes ('-' :: a) (.symbol .minus :: ts) := ha.after rfl (by decide) fun _ => rfl

theorem next?_bang {r : List Char} (h : r.head? ≠ some '=') : next? ('!' :: r) = some (.symbol .bang, r) := by
  cases r with
  | nil => rfl
  | cons c r =>
      have hc : c ≠ '=' := by simpa using h
      simp [next?, symbol?, hc]

/-- An exclamation mark in front of a piece. -/
theorem Lexes.bang {a : List Char} {ts : List Token} (ha : Lexes a ts) :
    Lexes ('!' :: a) (.symbol .bang :: ts) where
  scan_append {rest us} hsep hrest := by
    have hhead : (a ++ rest).head? ≠ some '=' := by
      cases a with
      | nil => exact fun h => absurd (hsep _ h) (by decide)
      | cons d r => exact ha.head_ne
    exact scan_of_next? rfl (next?_bang hhead) (ha.scan_append hsep hrest)
  head_ne := nofun

/-- The symbol that a binary operator is written with. -/
def operator : BinaryOp → Symbol
  | .value (.compare .eq) => .eqEq
  | .value (.compare .ne) => .ne
  | .value (.compare .lt) => .lt
  | .value (.compare .le) => .le
  | .value (.compare .gt) => .gt
  | .value (.compare .ge) => .ge
  | .value (.compute .add) => .plus
  | .value (.compute .sub) => .minus
  | .value (.compute .mul) => .star
  | .value (.compute .div) => .slash
  | .logic .and => .andAnd
  | .logic .or => .orOr

theorem scan_operator (op : BinaryOp) {r : List Char} {us : List Token} (h : scan r = .ok us) :
    scan (op.symbol.toList ++ ' ' :: r) = .ok (.symbol (operator op) :: us) := by
  rcases op with (c | a) | c
  · cases c <;> exact scan_of_next? rfl rfl (scan_gap rfl h)
  · cases a <;> exact scan_of_next? rfl rfl (scan_gap rfl h)
  · cases c <;> exact scan_of_next? rfl rfl (scan_gap rfl h)

/-- Two pieces with a binary operator between them. -/
theorem Lexes.operation {a b : List Char} {ts us : List Token} (ha : Lexes a ts) (op : BinaryOp) (hb : Lexes b us) :
    Lexes (a ++ ' ' :: op.symbol.toList ++ ' ' :: b) (ts ++ .symbol (operator op) :: us) where
  scan_append hsep hrest := by
    rw [List.append_assoc, List.append_assoc, List.append_assoc]
    refine ha.scan_append (separated_cons rfl _) (scan_gap rfl ?_)
    exact scan_operator op (hb.scan_append hsep hrest)
  head_ne := by
    cases a with
    | nil => exact nofun
    | cons d r => exact ha.head_ne

/-! ## Names -/

/-- A text of the form of a name. -/
def IsName (cs : List Char) : Prop :=
  ∃ c r, cs = c :: r ∧ isNameStart c = true ∧ ∀ d ∈ r, isNameChar d = true

theorem isName_of_chars {s : String} {c : Char} {r : List Char} (hs : s.toList = c :: r)
    (h : (isNameStart c && r.all isNameChar) = true) : IsName s.toList := by
  rw [Bool.and_eq_true, List.all_eq_true] at h
  exact ⟨c, r, hs, h.1, h.2⟩

/-- The characters that symbols start with. -/
def symbolStarts : List Char :=
  ['=', '!', '<', '>', '&', '|', '+', '-', '*', '/', '(', ')', '[', ']', '\x7b', '\x7d', ',']

theorem symbol?_eq_none {c : Char} (h : c ∉ symbolStarts) (r : List Char) : symbol? (c :: r) = none := by
  unfold symbol?
  split <;> first | rfl | (rename_i heq; obtain ⟨rfl, -⟩ := List.cons.inj heq; exact absurd (by decide) h)

/-- The ten digits. -/
def digits : List Char := ['0', '1', '2', '3', '4', '5', '6', '7', '8', '9']

theorem mem_digits {c : Char} (h : c.isDigit = true) : c ∈ digits := by
  have hrange : 48 ≤ c.toNat ∧ c.toNat ≤ 57 := by simpa [Char.isDigit, UInt32.le_iff_toNat_le] using h
  have hc : c = Char.ofNat c.toNat := (Char.ofNat_toNat c).symm
  generalize c.toNat = n at hrange hc
  obtain ⟨hlow, hhigh⟩ := hrange
  subst hc
  interval_cases n <;> decide

/-- A character that starts no token but a name. -/
structure Plain (c : Char) : Prop where
  symbol : c ∉ symbolStarts
  digit : c.isDigit = false
  double : c ≠ '"'
  single : c ≠ '\''
  gap : isGap c = false

theorem plain_of_isNameStart {c : Char} (h : isNameStart c = true) : Plain c := by
  have hall :
      ('"' :: '\'' :: ' ' :: '\t' :: '\r' :: '\n' :: symbolStarts ++ digits).all (!isNameStart ·) = true := by
    decide
  have hne : c ∉ '"' :: '\'' :: ' ' :: '\t' :: '\r' :: '\n' :: symbolStarts ++ digits := by
    intro hc
    have hno := List.all_eq_true.1 hall c hc
    rw [h] at hno
    exact nomatch hno
  simp only [List.cons_append, List.mem_cons, List.mem_append, not_or] at hne
  obtain ⟨hdouble, hsingle, hspace, htab, hreturn, hline, hsymbol, hdigit⟩ := hne
  exact ⟨hsymbol, by_contra fun hd => hdigit (mem_digits (by simpa using hd)), hdouble, hsingle,
    by simp [isGap, hspace, htab, hreturn, hline]⟩

theorem separated_stops {p : Char → Bool} (hp : [' ', '(', ')', ',', ']'].all (!p ·) = true) {rest : List Char}
    (h : Separated rest) : ∀ c ∈ rest.head?, p c = false := by
  intro c hc
  rw [← Bool.not_eq_true']
  apply List.all_eq_true.1 hp
  simpa [isSeparator, or_assoc] using h c hc

/-- What a run of characters takes, if the text after it does not go on with the run. -/
theorem span_append {p : Char → Bool} {cs rest : List Char} (hcs : ∀ c ∈ cs, p c = true)
    (hrest : ∀ c ∈ rest.head?, p c = false) :
    (cs ++ rest).takeWhile p = cs ∧ (cs ++ rest).dropWhile p = rest := by
  rw [List.takeWhile_append_of_pos hcs, List.dropWhile_append_of_pos hcs]
  cases rest with
  | nil => simp
  | cons c r => simp [hrest c rfl]

/-! ## Which token is cut -/

theorem number?_eq_none {c : Char} (h : c.isDigit = false) (r : List Char) : number? (c :: r) = none := by
  simp [number?, Number.spanDigits, h]

theorem string?_eq_none {c : Char} (hd : c ≠ '"') (hs : c ≠ '\'') (r : List Char) : string? (c :: r) = none := by
  simp [string?, hd, hs]

theorem next?_of_symbol {cs r : List Char} {s : Symbol} (h : symbol? cs = some (s, r)) :
    next? cs = some (.symbol s, r) := by
  rw [next?, h]
  rfl

theorem next?_of_number {c : Char} {r : List Char} {x : Token × List Char} (hc : c ∉ symbolStarts)
    (h : number? (c :: r) = some x) : next? (c :: r) = some x := by
  rw [next?, symbol?_eq_none hc, h]
  rfl

theorem next?_of_string {c : Char} {r : List Char} {x : Token × List Char} (hc : c = '"' ∨ c = '\'')
    (h : string? (c :: r) = some x) : next? (c :: r) = some x := by
  rw [next?, symbol?_eq_none (by rcases hc with rfl | rfl <;> decide),
    number?_eq_none (by rcases hc with rfl | rfl <;> decide), h]
  rfl

theorem next?_of_ident {c : Char} {r : List Char} {x : Token × List Char} (hc : isNameStart c = true)
    (h : ident? (c :: r) = some x) : next? (c :: r) = some x := by
  have hplain := plain_of_isNameStart hc
  rw [next?, symbol?_eq_none hplain.symbol, number?_eq_none hplain.digit,
    string?_eq_none hplain.double hplain.single, h]
  rfl

/-- A name is one token. -/
theorem Lexes.name {s : String} (h : IsName s.toList) : Lexes s.toList [.ident s] := by
  obtain ⟨c, r, hs, hc, hr⟩ := h
  have hplain := plain_of_isNameStart hc
  rw [hs]
  refine Lexes.single hplain.gap (fun he => hplain.symbol (he ▸ by decide)) fun rest hsep => next?_of_ident hc ?_
  have hspan := span_append hr (separated_stops (p := isNameChar) (by decide) hsep)
  rw [ident?, if_pos hc, hspan.1, hspan.2, ← hs, String.ofList_toList]

/-! ## String literals -/

theorem stringBody?_escape {c : Char} {r s rest : List Char} (h : stringBody? '"' r = some (s, rest)) :
    stringBody? '"' ('\\' :: c :: r) = some (unescape c :: s, rest) := by
  simp [stringBody?, h]

theorem stringBody?_char {c : Char} (hq : c ≠ '"') (hb : c ≠ '\\') {r s rest : List Char} (hr : r ≠ [])
    (h : stringBody? '"' r = some (s, rest)) : stringBody? '"' (c :: r) = some (c :: s, rest) := by
  cases r with
  | nil => exact absurd rfl hr
  | cons d r => simp [stringBody?, hq, hb, h]

/-- One character of a literal is read as the character it was written for. -/
theorem stringBody?_literalChar (c : Char) {r s rest : List Char} (hr : r ≠ [])
    (h : stringBody? '"' r = some (s, rest)) :
    stringBody? '"' (Text.literalChar c ++ r) = some (c :: s, rest) := by
  unfold Text.literalChar
  split
  · exact stringBody?_escape h
  · exact stringBody?_escape h
  · exact stringBody?_escape h
  · exact stringBody?_escape h
  · rename_i hq hb _ _
    exact stringBody?_char hq hb hr h

/-- The body of a literal ends at the quote that closes it and gives the string back. -/
theorem stringBody?_literal (s rest : List Char) :
    stringBody? '"' (s.flatMap Text.literalChar ++ '"' :: rest) = some (s, rest) := by
  induction s with
  | nil => cases rest <;> simp [stringBody?]
  | cons c s ih =>
      rw [List.flatMap_cons, List.append_assoc]
      exact stringBody?_literalChar c (by simp) ih

/-- A string literal is one token, whatever the string holds. -/
theorem Lexes.literal (s : String) : Lexes (Text.literal s).toList [.str s] := by
  have hchars : (Text.literal s).toList = '"' :: (s.toList.flatMap Text.literalChar ++ ['"']) := by
    rw [Text.literal, String.toList_ofList]
    rfl
  rw [hchars]
  refine Lexes.single rfl (by decide) fun rest _ => next?_of_string (.inl rfl) ?_
  have hbody : stringBody? '"' (s.toList.flatMap Text.literalChar ++ ['"'] ++ rest) = some (s.toList, rest) := by
    rw [List.append_assoc]
    exact stringBody?_literal s.toList rest
  rw [string?, if_pos (Or.inl rfl), hbody, Option.map_some]
  exact congrArg (fun u => some (Token.str u, rest)) String.ofList_toList

end RecordRules.Token
