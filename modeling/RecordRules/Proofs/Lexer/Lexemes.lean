import Mathlib.Data.Set.Basic
import RecordRules.Proofs.Lexer.Numbers

/-!
# Lexemes

The lexeme of a token is the run of characters that it is cut from. A lexeme is as long as it can be, so what stands
behind it matters, but only as far as it could carry the lexeme on: an equals sign carries on the signs `<`, `>` and
`!`, a name goes on with the characters of names, and a number goes on with digits, with a point if it has neither
point nor exponent, and with a complete exponent if it has none; a closed string goes on with nothing. For every
lexeme these words are listed, and the token is cut from the lexeme wherever none of them stands behind it.

From this follow the laws of the lexer for a text that is put in front of other texts, cut short, or given another
end.
-/
namespace RecordRules.Token

open Number

/-! ## Words that carry a lexeme on -/

/-- None of the words stands at the start of the text. -/
def Free (words : Set (List Char)) (r : List Char) : Prop := ∀ w ∈ words, ¬w <+: r

/-- The words of a single character of a kind. -/
def single (p : Char → Bool) : Set (List Char) := {w | ∃ c, p c = true ∧ w = [c]}

theorem free_empty (r : List Char) : Free ∅ r := fun _ hw => hw.elim

theorem free_union_iff {words words' : Set (List Char)} {r : List Char} :
    Free (words ∪ words') r ↔ Free words r ∧ Free words' r := by
  simp only [Free, Set.mem_union, or_imp, forall_and]

theorem free_single_iff {p : Char → Bool} {r : List Char} :
    Free (single p) r ↔ ∀ c ∈ r.head?, p c = false := by
  constructor
  · intro h c hc
    obtain ⟨r', rfl⟩ := List.head?_eq_some_iff.1 hc
    rw [← Bool.not_eq_true]
    intro hp
    exact h [c] ⟨c, hp, rfl⟩ (List.cons_prefix_cons.2 ⟨rfl, List.nil_prefix⟩)
  · rintro h _ ⟨c, hp, rfl⟩ hstart
    obtain ⟨r', rfl⟩ := hstart
    exact Bool.false_ne_true ((h c rfl).symm.trans hp)

theorem free_dropWhile (p : Char → Bool) (cs : List Char) : Free (single p) (cs.dropWhile p) := by
  refine free_single_iff.2 fun c hc => ?_
  have hstop := List.head?_dropWhile_not p cs
  rwa [hc] at hstop

/-- What is cut short starts with no more words. -/
theorem Free.of_append {words : Set (List Char)} {r q : List Char} (h : Free words (r ++ q)) : Free words r :=
  fun w hw hstart => h w hw (hstart.trans (List.prefix_append r q))

/-- A character that can stand in a word that carries a lexeme on. -/
def carriesOn (c : Char) : Bool := isNameChar c || c == '=' || c == '+' || c == '-'

/-- A text that is empty or starts with a character that carries no lexeme on. -/
def Detached (rest : List Char) : Prop := ∀ c ∈ rest.head?, carriesOn c = false

theorem Separated.detached {rest : List Char} (h : Separated rest) : Detached rest :=
  separated_stops (by decide) h

theorem detached_of_isGap {rest : List Char} (h : ∀ c ∈ rest.head?, isGap c = true) : Detached rest := by
  intro c hc
  have hgap := h c hc
  simp only [isGap, Bool.or_eq_true, beq_iff_eq] at hgap
  rcases hgap with ((rfl | rfl) | rfl) | rfl <;> decide

/-- The words are made of characters that carry lexemes on. -/
def Carrying (words : Set (List Char)) : Prop := ∀ w ∈ words, w ≠ [] ∧ ∀ c ∈ w, carriesOn c = true

theorem carrying_empty : Carrying ∅ := fun _ hw => hw.elim

theorem Carrying.union {words words' : Set (List Char)} (h : Carrying words) (h' : Carrying words') :
    Carrying (words ∪ words') := by
  rintro w (hw | hw)
  · exact h w hw
  · exact h' w hw

theorem carrying_single {p : Char → Bool} (h : ∀ c, p c = true → carriesOn c = true) : Carrying (single p) := by
  rintro _ ⟨c, hp, rfl⟩
  refine ⟨List.cons_ne_nil _ _, fun d hd => ?_⟩
  rw [List.mem_singleton.1 hd]
  exact h c hp

/-- A word that stands at the start of a text and of what is put behind it stands in the text alone. -/
theorem Free.append {words : Set (List Char)} (hwords : Carrying words) {r rest : List Char}
    (h : Free words r) (hrest : Detached rest) : Free words (r ++ rest) := by
  intro w hw hstart
  obtain ⟨hne, hcarries⟩ := hwords w hw
  rcases List.prefix_or_prefix_of_prefix hstart (List.prefix_append r rest) with hshort | hlong
  · exact h w hw hshort
  · obtain ⟨w', rfl⟩ := hlong
    cases w' with
    | nil => exact h _ hw (by rw [List.append_nil])
    | cons c w' =>
        obtain ⟨u, hu⟩ := (List.prefix_append_right_inj r).1 hstart
        have hc : c ∈ rest.head? := by
          rw [← hu]
          rfl
        have hon := hcarries c (List.mem_append_right r List.mem_cons_self)
        exact Bool.false_ne_true ((hrest c hc).symm.trans hon)

/-! ## Lexemes -/

/-- The token is cut from the characters wherever none of the words stands behind them. -/
structure Lexeme (l : List Char) (t : Token) (words : Set (List Char)) : Prop where
  next?_append : ∀ r, Free words r → next? (l ++ r) = some (t, r)
  carrying : Carrying words

/-- A lexeme at the start of a text that ends there. -/
def StartsWithLexeme (cs : List Char) (t : Token) (r : List Char) : Prop :=
  ∃ l words, cs = l ++ r ∧ Lexeme l t words ∧ Free words r

/-! ### Symbols -/

/-- The characters of a symbol. -/
def symbolChars : Symbol → List Char
  | .eqEq => ['=', '=']
  | .ne => ['!', '=']
  | .lt => ['<']
  | .le => ['<', '=']
  | .gt => ['>']
  | .ge => ['>', '=']
  | .plus => ['+']
  | .minus => ['-']
  | .star => ['*']
  | .slash => ['/']
  | .andAnd => ['&', '&']
  | .orOr => ['|', '|']
  | .bang => ['!']
  | .lparen => ['(']
  | .rparen => [')']
  | .lbracket => ['[']
  | .rbracket => [']']
  | .lbrace => ['\x7b']
  | .rbrace => ['\x7d']
  | .comma => [',']

/-- The words that make another symbol of a symbol. -/
def symbolWords : Symbol → Set (List Char)
  | .lt | .gt | .bang => single (· == '=')
  | _ => ∅

theorem symbol?_append {s : Symbol} {r : List Char} (h : Free (symbolWords s) r) :
    symbol? (symbolChars s ++ r) = some (s, r) := by
  cases s
  case lt | gt | bang =>
      have hne : ∀ r', r ≠ '=' :: r' := by
        rintro r' rfl
        exact nomatch free_single_iff.1 h '=' rfl
      simp [symbolChars, symbol?]
  all_goals rfl

theorem eq_of_symbol? {cs r : List Char} {s : Symbol} (h : symbol? cs = some (s, r)) :
    cs = symbolChars s ++ r ∧ Free (symbolWords s) r := by
  unfold symbol? at h
  split at h
  case h_7 hne | h_8 hne | h_13 hne =>
      obtain ⟨rfl, rfl⟩ := Prod.mk.inj (Option.some.inj h)
      refine ⟨rfl, free_single_iff.2 fun c hc => ?_⟩
      obtain ⟨r', rfl⟩ := List.head?_eq_some_iff.1 hc
      exact beq_eq_false_iff_ne.2 fun he => hne r' (he ▸ rfl)
  case h_21 => cases h
  all_goals
    obtain ⟨rfl, rfl⟩ := Prod.mk.inj (Option.some.inj h)
    exact ⟨rfl, free_empty _⟩

theorem startsWithLexeme_symbol {cs r : List Char} {s : Symbol} (h : symbol? cs = some (s, r)) :
    StartsWithLexeme cs (.symbol s) r := by
  obtain ⟨hcs, hr⟩ := eq_of_symbol? h
  refine ⟨symbolChars s, symbolWords s, hcs, ⟨fun r' hr' => next?_of_symbol (symbol?_append hr'), ?_⟩, hr⟩
  have hequals : Carrying (single (· == '=')) := carrying_single fun c hc => by simp [carriesOn, hc]
  cases s
  case lt | gt | bang => exact hequals
  all_goals exact carrying_empty

/-! ### Names -/

theorem startsWithLexeme_ident {cs r : List Char} {t : Token} (h : ident? cs = some (t, r)) :
    StartsWithLexeme cs t r := by
  cases cs with
  | nil => exact nomatch h
  | cons c cs =>
      rw [ident?] at h
      split_ifs at h with hc
      obtain ⟨rfl, rfl⟩ := Prod.mk.inj (Option.some.inj h)
      have hname : ∀ d ∈ cs.takeWhile isNameChar, isNameChar d = true := List.all_eq_true.1 List.all_takeWhile
      refine ⟨c :: cs.takeWhile isNameChar, single isNameChar, ?_, ⟨fun r' hr' => ?_, ?_⟩, ?_⟩
      · rw [List.cons_append, List.takeWhile_append_dropWhile]
      · obtain ⟨htake, hdrop⟩ := span_append hname (free_single_iff.1 hr')
        rw [List.cons_append]
        apply next?_of_ident hc
        rw [ident?, if_pos hc, htake, hdrop]
      · exact carrying_single fun d hd => by simp [carriesOn, hd]
      · exact free_dropWhile isNameChar cs

/-! ### Strings -/

theorem stringBody?_quote (quote : Char) (r : List Char) : stringBody? quote (quote :: r) = some ([], r) := by
  cases r <;> simp [stringBody?]

/-- A body that is closed is read the same whatever stands behind it. -/
theorem exists_stringBody {quote : Char} {cs s r : List Char} (h : stringBody? quote cs = some (s, r)) :
    ∃ l, cs = l ++ r ∧ ∀ r', stringBody? quote (l ++ r') = some (s, r') := by
  fun_induction stringBody? quote cs generalizing s r with
  | case1 => cases h
  | case2 =>
      obtain ⟨rfl, rfl⟩ := Prod.mk.inj (Option.some.inj h)
      exact ⟨[quote], rfl, stringBody?_quote quote⟩
  | case3 => cases h
  | case4 d r' =>
      obtain ⟨rfl, rfl⟩ := Prod.mk.inj (Option.some.inj h)
      exact ⟨[quote], rfl, stringBody?_quote quote⟩
  | case5 d r' hq ih =>
      obtain ⟨⟨s', r''⟩, hb, he⟩ := Option.map_eq_some_iff.1 h
      obtain ⟨rfl, rfl⟩ := Prod.mk.inj he
      obtain ⟨l, rfl, hl⟩ := ih hb
      refine ⟨'\\' :: d :: l, rfl, fun r' => ?_⟩
      simp [stringBody?, hq, hl]
  | case6 c d r' hq hb ih =>
      obtain ⟨⟨s', r''⟩, hb', he⟩ := Option.map_eq_some_iff.1 h
      obtain ⟨rfl, rfl⟩ := Prod.mk.inj he
      obtain ⟨l, hl, hread⟩ := ih hb'
      refine ⟨c :: l, congrArg (c :: ·) hl, fun r' => ?_⟩
      have hbody := hread r'
      cases l with
      | nil => exact absurd (hread []) (by simp [stringBody?])
      | cons e l => simp [stringBody?, hq, hb, ← hbody]

theorem startsWithLexeme_string {cs r : List Char} {t : Token} (h : string? cs = some (t, r)) :
    StartsWithLexeme cs t r := by
  cases cs with
  | nil => exact nomatch h
  | cons c cs =>
      rw [string?] at h
      split_ifs at h with hc
      obtain ⟨⟨s, r'⟩, hb, he⟩ := Option.map_eq_some_iff.1 h
      obtain ⟨rfl, rfl⟩ := Prod.mk.inj he
      obtain ⟨l, rfl, hl⟩ := exists_stringBody hb
      refine ⟨c :: l, ∅, rfl, ⟨fun r' _ => ?_, carrying_empty⟩, free_empty _⟩
      rw [List.cons_append]
      apply next?_of_string hc
      rw [string?, if_pos hc, hl]
      rfl

/-! ### Numbers -/

/-- The words that are the start of an exponent. -/
def exponentStarts : Set (List Char) :=
  {w | ∃ c sign d, (c = 'e' ∨ c = 'E') ∧ sign ∈ [[], ['+'], ['-']] ∧ d.isDigit = true ∧ w = c :: (sign ++ [d])}

theorem carrying_digit : Carrying (single Char.isDigit) :=
  carrying_single fun _ hc => List.all_eq_true.1 (by decide : digits.all carriesOn = true) _ (mem_digits hc)

theorem carrying_point : Carrying (single (· == '.')) :=
  carrying_single fun c hc => by simp [carriesOn, isNameChar, hc]

theorem carrying_exponentStarts : Carrying exponentStarts := by
  rintro _ ⟨c, sign, d, hc, hsign, hd, rfl⟩
  refine ⟨List.cons_ne_nil _ _, fun x hx => ?_⟩
  rcases List.mem_cons.1 hx with rfl | hx
  · rcases hc with rfl | rfl <;> decide
  · rcases List.mem_append.1 hx with hx | hx
    · simp only [List.mem_cons, List.not_mem_nil, or_false] at hsign
      rcases hsign with rfl | rfl | rfl
      · exact nomatch hx
      · rw [List.mem_singleton.1 hx]
        decide
      · rw [List.mem_singleton.1 hx]
        decide
    · rw [List.mem_singleton.1 hx]
      exact (carrying_digit [d] ⟨d, hd, rfl⟩).2 d List.mem_cons_self

theorem exists_digits (cs : List Char) :
    ∃ ds r, cs = ds ++ r ∧ (∀ c ∈ ds, c.isDigit = true) ∧ Free (single Char.isDigit) r :=
  ⟨cs.takeWhile Char.isDigit, cs.dropWhile Char.isDigit, List.takeWhile_append_dropWhile.symm,
    List.all_eq_true.1 List.all_takeWhile, free_dropWhile _ _⟩

theorem spanDigits_of_free {ds r : List Char} (hd : ∀ c ∈ ds, c.isDigit = true)
    (hr : Free (single Char.isDigit) r) : spanDigits (ds ++ r) = (ds, r) :=
  spanDigits_append hd (free_single_iff.1 hr)

theorem fraction_of_free {r : List Char} (h : Free (single (· == '.')) r) : fraction r = (none, r) := by
  unfold fraction
  split
  · exact nomatch free_single_iff.1 h '.' rfl
  · rfl

theorem fraction_digits {ds r : List Char} (hd : ∀ c ∈ ds, c.isDigit = true)
    (hr : Free (single Char.isDigit) r) : fraction ('.' :: (ds ++ r)) = (some ds, r) := by
  rw [fraction, spanDigits_of_free hd hr]

theorem fraction_cases (cs : List Char) :
    Free (single (· == '.')) cs ∨
      ∃ ds r, cs = '.' :: (ds ++ r) ∧ (∀ c ∈ ds, c.isDigit = true) ∧ Free (single Char.isDigit) r := by
  by_cases h : ∃ r, cs = '.' :: r
  · obtain ⟨r, rfl⟩ := h
    obtain ⟨ds, r, rfl, hd, hr⟩ := exists_digits r
    exact .inr ⟨ds, r, rfl, hd, hr⟩
  · refine .inl (free_single_iff.2 fun c hc => ?_)
    obtain ⟨r, rfl⟩ := List.head?_eq_some_iff.1 hc
    exact beq_eq_false_iff_ne.2 fun he => h ⟨r, he ▸ rfl⟩

theorem splitSign_cases (cs : List Char) :
    ∃ sign ∈ [[], ['+'], ['-']], cs = sign ++ (splitSign cs).2 := by
  unfold splitSign
  split
  · exact ⟨['-'], by simp, rfl⟩
  · exact ⟨['+'], by simp, rfl⟩
  · exact ⟨[], by simp, rfl⟩

theorem splitSign_append {sign : List Char} (hsign : sign ∈ [[], ['+'], ['-']]) {d : Char}
    (hd : d.isDigit = true) (r : List Char) :
    splitSign (sign ++ d :: r) = (decide (sign = ['-']), d :: r) := by
  simp only [List.mem_cons, List.not_mem_nil, or_false] at hsign
  rcases hsign with rfl | rfl | rfl
  · exact splitSign_digit hd r
  · rfl
  · rfl

theorem exponent_of_free {r : List Char} (h : Free exponentStarts r) : exponent r = (none, r) := by
  cases r with
  | nil => rfl
  | cons c r =>
      by_cases hc : c = 'e' ∨ c = 'E'
      · obtain ⟨sign, hsign, hr⟩ := splitSign_cases r
        have hspan := Number.spanDigits_append (splitSign r).2
        rw [exponent, if_pos hc]
        split
        · rfl
        · rename_i d ds rest hdigits
          have htake : (splitSign r).2.takeWhile Char.isDigit = d :: ds := congrArg Prod.fst hdigits
          have hd : d.isDigit = true :=
            List.all_eq_true.1 List.all_takeWhile d (htake ▸ List.mem_cons_self)
          rw [hdigits] at hspan
          rw [← hspan] at hr
          refine absurd ?_ (h _ ⟨c, sign, d, hc, hsign, hd, rfl⟩)
          rw [hr]
          simp
      · rw [exponent, if_neg hc]

/-- Where an exponent starts it is complete, and it ends at its last digit. -/
theorem exponent_cases (cs : List Char) :
    Free exponentStarts cs ∨
      ∃ l r, cs = l ++ r ∧ (∃ c ∈ l.head?, c = 'e' ∨ c = 'E') ∧ Free (single Char.isDigit) r ∧
        ∃ e, ∀ r', Free (single Char.isDigit) r' → exponent (l ++ r') = (some e, r') := by
  by_cases h : Free exponentStarts cs
  · exact .inl h
  · simp only [Free, not_forall, not_not] at h
    obtain ⟨_, ⟨c, sign, d, hc, hsign, hd, rfl⟩, q, rfl⟩ := h
    obtain ⟨ds, r, rfl, hds, hr⟩ := exists_digits q
    have hall : ∀ x ∈ d :: ds, x.isDigit = true := List.forall_mem_cons.2 ⟨hd, hds⟩
    let n : ℤ := digitsValue (d :: ds)
    refine .inr ⟨c :: (sign ++ d :: ds), r, by simp, ⟨c, rfl, hc⟩, hr, if sign = ['-'] then -n else n, ?_⟩
    intro r' hr'
    have hsplit := splitSign_append hsign hd (ds ++ r')
    have hspan : spanDigits (d :: (ds ++ r')) = (d :: ds, r') := spanDigits_of_free hall hr'
    rw [List.cons_append, List.append_assoc, List.cons_append, exponent, if_pos hc, hsplit, hspan]
    simp only [decide_eq_true_eq, n]

/-- Where an exponent follows, neither digit nor point does. -/
theorem free_exponent {l r : List Char} (h : ∃ c ∈ l.head?, c = 'e' ∨ c = 'E') :
    Free (single Char.isDigit) (l ++ r) ∧ Free (single (· == '.')) (l ++ r) := by
  obtain ⟨c, hc, he⟩ := h
  obtain ⟨l, rfl⟩ := List.head?_eq_some_iff.1 hc
  rw [free_single_iff, free_single_iff]
  rcases he with rfl | rfl <;> simp

theorem free_digit_point (r : List Char) : Free (single Char.isDigit) ('.' :: r) := by
  rw [free_single_iff]
  rintro _ ⟨⟩
  decide

/-- The fraction and the exponent of a number, either of which may be missing. What is missing could still come. -/
theorem exists_decimals {x : List Char} (hx : Free (single Char.isDigit) x) :
    ∃ l words r, x = l ++ r ∧ Free words r ∧ Carrying words ∧ ∃ f e, ∀ r', Free words r' →
      Free (single Char.isDigit) (l ++ r') ∧ (fraction (l ++ r')).1 = f ∧
        exponent (fraction (l ++ r')).2 = (e, r') := by
  rcases fraction_cases x with hpoint | ⟨ds, y, rfl, hds, hy⟩
  · rcases exponent_cases x with hexp | ⟨l, r, rfl, hl, hr, e, he⟩
    · refine ⟨[], single Char.isDigit ∪ (single (· == '.') ∪ exponentStarts), x, rfl, ?_, ?_, none, none, ?_⟩
      · exact free_union_iff.2 ⟨hx, free_union_iff.2 ⟨hpoint, hexp⟩⟩
      · exact carrying_digit.union (carrying_point.union carrying_exponentStarts)
      · intro r' hr'
        obtain ⟨hdigit, hr'⟩ := free_union_iff.1 hr'
        obtain ⟨hpoint, hexp⟩ := free_union_iff.1 hr'
        rw [List.nil_append, fraction_of_free hpoint]
        exact ⟨hdigit, rfl, exponent_of_free hexp⟩
    · refine ⟨l, single Char.isDigit, r, rfl, hr, carrying_digit, none, some e, fun r' hr' => ?_⟩
      obtain ⟨hdigit, hpoint⟩ := free_exponent (r := r') hl
      rw [fraction_of_free hpoint]
      exact ⟨hdigit, rfl, he r' hr'⟩
  · rcases exponent_cases y with hexp | ⟨l, r, rfl, hl, hr, e, he⟩
    · refine ⟨'.' :: ds, single Char.isDigit ∪ exponentStarts, y, rfl, ?_, ?_, some ds, none, ?_⟩
      · exact free_union_iff.2 ⟨hy, hexp⟩
      · exact carrying_digit.union carrying_exponentStarts
      · intro r' hr'
        obtain ⟨hdigit, hexp⟩ := free_union_iff.1 hr'
        rw [List.cons_append, fraction_digits hds hdigit]
        exact ⟨free_digit_point _, rfl, exponent_of_free hexp⟩
    · refine ⟨'.' :: (ds ++ l), single Char.isDigit, r, by simp, hr, carrying_digit, some ds, some e, ?_⟩
      intro r' hr'
      obtain ⟨hdigit, -⟩ := free_exponent (r := r') hl
      rw [List.cons_append, List.append_assoc, fraction_digits hds hdigit]
      exact ⟨free_digit_point _, rfl, he r' hr'⟩

theorem number?_digits {ds r : List Char} (hne : ds ≠ []) (hd : ∀ c ∈ ds, c.isDigit = true)
    (hr : Free (single Char.isDigit) r) :
    number? (ds ++ r) =
      some (ofNumber ds (fraction r).1 (exponent (fraction r).2).1, (exponent (fraction r).2).2) := by
  cases ds with
  | nil => exact absurd rfl hne
  | cons d ds => rw [number?, spanDigits_of_free hd hr]

theorem startsWithLexeme_number {cs r : List Char} {t : Token} (h : number? cs = some (t, r)) :
    StartsWithLexeme cs t r := by
  obtain ⟨ds, x, rfl, hd, hx⟩ := exists_digits cs
  have hne : ds ≠ [] := by
    rintro rfl
    have hspan : spanDigits ([] ++ x) = ([], x) := spanDigits_of_free hd hx
    rw [number?, hspan] at h
    cases h
  obtain ⟨l, words, r', rfl, hr', hwords, f, e, hread⟩ := exists_decimals hx
  have hnumber : ∀ q, Free words q → number? (ds ++ (l ++ q)) = some (ofNumber ds f e, q) := by
    intro q hq
    obtain ⟨hdigit, hf, he⟩ := hread q hq
    rw [number?_digits hne hd hdigit, hf, he]
  rw [hnumber r' hr'] at h
  obtain ⟨rfl, rfl⟩ := Prod.mk.inj (Option.some.inj h)
  refine ⟨ds ++ l, words, (List.append_assoc _ _ _).symm, ⟨fun q hq => ?_, hwords⟩, hr'⟩
  obtain ⟨d, ds', rfl⟩ := List.exists_cons_of_ne_nil hne
  have hsymbol := (plain_digit (hd d List.mem_cons_self)).1
  rw [List.append_assoc]
  exact next?_of_number hsymbol (hnumber q hq)

/-! ### The token at the start -/

/-- The first character tells which kind of token is cut. -/
theorem next?_cases {c : Char} {r rest : List Char} {t : Token} (h : next? (c :: r) = some (t, rest)) :
    (∃ s, t = .symbol s ∧ c ∈ symbolStarts ∧ symbol? (c :: r) = some (s, rest)) ∨
    (c.isDigit = true ∧ number? (c :: r) = some (t, rest)) ∨
    ((c = '"' ∨ c = '\'') ∧ string? (c :: r) = some (t, rest)) ∨
    (isNameStart c = true ∧ ident? (c :: r) = some (t, rest)) := by
  rw [next?, Option.orElse_eq_some, Option.orElse_eq_some, Option.orElse_eq_some, Option.map_eq_some_iff] at h
  rcases h with ⟨⟨s, r'⟩, hs, he⟩ | ⟨-, hs | ⟨-, hs | ⟨-, hs⟩⟩⟩
  · obtain ⟨rfl, rfl⟩ := Prod.mk.inj he
    refine .inl ⟨s, rfl, by_contra fun hc => ?_, hs⟩
    rw [symbol?_eq_none hc] at hs
    cases hs
  · refine .inr (.inl ⟨by_contra fun hc => ?_, hs⟩)
    rw [number?_eq_none (by simpa using hc)] at hs
    cases hs
  · refine .inr (.inr (.inl ⟨by_contra fun hc => ?_, hs⟩))
    rw [string?, if_neg hc] at hs
    cases hs
  · refine .inr (.inr (.inr ⟨by_contra fun hc => ?_, hs⟩))
    rw [ident?, if_neg hc] at hs
    cases hs

/-- Every token that is cut has a lexeme. -/
theorem startsWithLexeme {cs r : List Char} {t : Token} (h : next? cs = some (t, r)) : StartsWithLexeme cs t r := by
  cases cs with
  | nil => exact nomatch h
  | cons c cs =>
      rcases next?_cases h with ⟨s, rfl, -, hs⟩ | ⟨-, hs⟩ | ⟨-, hs⟩ | ⟨-, hs⟩
      · exact startsWithLexeme_symbol hs
      · exact startsWithLexeme_number hs
      · exact startsWithLexeme_string hs
      · exact startsWithLexeme_ident hs

/-! ## Texts with other ends -/

variable {cs l r rest : List Char} {t : Token}

/-- A token is cut the same when detached text is put behind the text. -/
theorem next?_append (hrest : Detached rest) (h : next? cs = some (t, r)) :
    next? (cs ++ rest) = some (t, r ++ rest) := by
  obtain ⟨l, words, rfl, hl, hr⟩ := startsWithLexeme h
  rw [List.append_assoc]
  exact hl.next?_append _ (hr.append hl.carrying hrest)

/-- A token is cut the same when the text is cut short behind it. -/
theorem next?_of_append (h : next? (cs ++ rest) = some (t, r ++ rest)) : next? cs = some (t, r) := by
  obtain ⟨l, words, hcs, hl, hr⟩ := startsWithLexeme h
  rw [← List.append_assoc] at hcs
  rw [List.append_cancel_right hcs]
  exact hl.next?_append r hr.of_append

/-- The lexeme alone is cut into its token, whatever stood behind it. -/
theorem exists_eq_append_of_next? (h : next? cs = some (t, r)) : ∃ l, cs = l ++ r ∧ next? l = some (t, []) := by
  obtain ⟨l, words, rfl, -, -⟩ := startsWithLexeme h
  exact ⟨l, rfl, next?_of_append (r := []) h⟩

end RecordRules.Token
