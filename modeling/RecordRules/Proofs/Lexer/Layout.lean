import RecordRules.Proofs.Lexer.Continuation
import RecordRules.Proofs.Lexer.Tokens

/-!
# Layout

What stands between the tokens of a text counts for nothing. A text is made of its lexemes and of gaps around them, and
every text that is made of the same lexemes, with gaps of at least one character between them, has the same tokens
and so the same tree or the same error. A gap is needed between two lexemes in general, since they could run into one.
-/
namespace RecordRules.Token

/-! ## The lexemes of a text -/

/-- The lexemes of a text, up to where no token can be cut. -/
def lexemes (cs : List Char) : List (List Char) :=
  match _hs : skipGap cs with
  | [] => []
  | c :: r =>
      match _h : next? (c :: r) with
      | some (_, rest) => (c :: r).take ((c :: r).length - rest.length) :: lexemes rest
      | none => []
termination_by cs.length
decreasing_by exact Nat.lt_of_lt_of_le (length_of_next? _h) (_hs ▸ length_skipGap_le cs)

theorem lexemes_eq (cs : List Char) :
    lexemes cs = match skipGap cs with
      | [] => []
      | c :: r =>
          match next? (c :: r) with
          | some (_, rest) => (c :: r).take ((c :: r).length - rest.length) :: lexemes rest
          | none => [] := by
  rw [lexemes]
  split
  · rename_i h
    rw [h]
  · rename_i c r h
    rw [h]
    dsimp only
    split
    · rename_i t rest hn
      rw [hn]
    · rename_i hn
      rw [hn]

theorem lexemes_nil : lexemes [] = [] := by
  rw [lexemes_eq]
  rfl

theorem lexemes_gap {c : Char} {r : List Char} (hc : isGap c = true) : lexemes (c :: r) = lexemes r := by
  have hskip : skipGap (c :: r) = skipGap r := List.dropWhile_cons_of_pos hc
  rw [lexemes_eq, hskip, ← lexemes_eq]

theorem lexemes_token {c : Char} {r l rest : List Char} {t : Token} (hc : isGap c = false)
    (hn : next? (c :: r) = some (t, rest)) (hl : c :: r = l ++ rest) : lexemes (c :: r) = l :: lexemes rest := by
  have hskip : skipGap (c :: r) = c :: r := List.dropWhile_cons_of_neg (by simp [hc])
  have htake : (c :: r).take ((c :: r).length - rest.length) = l := by
    rw [hl, List.length_append, Nat.add_sub_cancel, List.take_left]
  rw [lexemes_eq, hskip]
  simp only [hn, htake]

/-- The token is cut from the lexeme, which nothing stands behind. -/
def IsCutFrom (t : Token) (l : List Char) : Prop := next? l = some (t, [])

/-- The lexemes of a text, one for each of its tokens. -/
theorem Scans.isCutFrom {cs : List Char} {ts : List Token} (h : Scans cs ts) :
    List.Forall₂ IsCutFrom ts (lexemes cs) := by
  induction h with
  | done =>
      rw [lexemes_nil]
      exact .nil
  | gap hc _ ih =>
      rw [lexemes_gap hc]
      exact ih
  | token hc hn _ ih =>
      obtain ⟨l, hl, hcut⟩ := exists_eq_append_of_next? hn
      rw [lexemes_token hc hn hl]
      exact .cons hcut ih

/-! ## Texts made of lexemes -/

/-- A text made of the given lexemes in their order, with gaps in front, behind and between, where what stands behind
each lexeme is as asked for. -/
inductive MadeOf (behind : List Char → Prop) : List (List Char) → List Char → Prop
  | done : MadeOf behind [] []
  | gap {c : Char} {ls : List (List Char)} {cs : List Char} (hc : isGap c = true) :
      MadeOf behind ls cs → MadeOf behind ls (c :: cs)
  | lexeme (l : List Char) {ls : List (List Char)} {cs : List Char} (hcs : behind cs) :
      MadeOf behind ls cs → MadeOf behind (l :: ls) (l ++ cs)

/-- A text that ends or goes on with a gap. -/
def GapFollows (cs : List Char) : Prop := ∀ c ∈ cs.head?, isGap c = true

theorem gapFollows_cons {c : Char} (hc : isGap c = true) (r : List Char) : GapFollows (c :: r) := by
  intro d hd
  rwa [← Option.some.inj hd]

/-- A text that has tokens is made of its lexemes. -/
theorem Scans.madeOf_lexemes {cs : List Char} {ts : List Token} (h : Scans cs ts) :
    MadeOf (fun _ => True) (lexemes cs) cs := by
  induction h with
  | done =>
      rw [lexemes_nil]
      exact .done
  | gap hc _ ih =>
      rw [lexemes_gap hc]
      exact .gap hc ih
  | token hc hn _ ih =>
      obtain ⟨l, hl, -⟩ := exists_eq_append_of_next? hn
      rw [lexemes_token hc hn hl, hl]
      exact .lexeme l trivial ih

/-- Where a gap follows, the lexeme is cut off. -/
theorem IsCutFrom.next?_append {t : Token} {l rest : List Char} (h : t.IsCutFrom l) (hrest : GapFollows rest) :
    next? (l ++ rest) = some (t, rest) :=
  Token.next?_append (detached_of_isGap hrest) h

/-- A text made of lexemes with gaps between them has the tokens of the lexemes. -/
theorem MadeOf.scans {ls : List (List Char)} {cs : List Char} (h : MadeOf GapFollows ls cs) {ts : List Token}
    (hts : List.Forall₂ IsCutFrom ts ls) : Scans cs ts := by
  induction h generalizing ts with
  | done =>
      cases hts
      exact .done
  | gap hc _ ih => exact .gap hc (ih hts)
  | lexeme l hcs _ ih =>
      cases hts with
      | cons hcut hts => exact .of_next? (hcut.next?_append hcs) (ih hts)

end RecordRules.Token

namespace RecordRules.Expr

open Token

/-- A text that has tokens is made of its lexemes, one for each token, and every text that is made of them with gaps
between has the same tokens, and the same tree or the same error. -/
theorem parse_eq_of_layout {s : String} {ts : List Token} (h : tokens s = .ok ts) :
    MadeOf (fun _ => True) (lexemes s.toList) s.toList ∧ List.Forall₂ IsCutFrom ts (lexemes s.toList) ∧
      ∀ s' : String, MadeOf GapFollows (lexemes s.toList) s'.toList →
        tokens s' = .ok ts ∧ parse s' = parse s := by
  have hscans := scan_eq_ok_iff.1 (scan_of_tokens h)
  refine ⟨hscans.madeOf_lexemes, hscans.isCutFrom, fun s' hs' => ?_⟩
  have htokens : tokens s' = .ok ts := by
    rw [tokens, (hs'.scans hscans.isCutFrom).scan_eq]
  refine ⟨htokens, ?_⟩
  rw [parse, parse, htokens, h]

/-- A text whose lexemes stand close together: a number that looks like the start of an exponent, an operator and a
string that holds a gap. -/
def closeText : String := "1e!=' x'"

/-- The same lexemes on lines of their own. -/
def airyText : String := "\t1 e\r\n!=\n' x' "

theorem parse_eq_of_layout_airy :
    tokens closeText = .ok [.int 1, .ident "e", .symbol .ne, .str " x"] ∧
      MadeOf GapFollows (lexemes closeText.toList) airyText.toList ∧
      tokens airyText = .ok [.int 1, .ident "e", .symbol .ne, .str " x"] ∧ parse airyText = parse closeText := by
  have hscans : Scans closeText.toList [.int 1, .ident "e", .symbol .ne, .str " x"] :=
    .token rfl rfl (.token rfl rfl (.token rfl rfl (.token rfl rfl .done)))
  have htokens : tokens closeText = .ok [.int 1, .ident "e", .symbol .ne, .str " x"] := by
    rw [tokens, hscans.scan_eq]
  have hlexemes : lexemes closeText.toList = [['1'], ['e'], ['!', '='], ['\'', ' ', 'x', '\'']] := by
    have hstring : lexemes ['\'', ' ', 'x', '\''] = ['\'', ' ', 'x', '\''] :: lexemes [] := lexemes_token rfl rfl rfl
    have hne : lexemes ['!', '=', '\'', ' ', 'x', '\''] = ['!', '='] :: lexemes ['\'', ' ', 'x', '\''] :=
      lexemes_token rfl rfl rfl
    have hname : lexemes ['e', '!', '=', '\'', ' ', 'x', '\''] = ['e'] :: lexemes ['!', '=', '\'', ' ', 'x', '\''] :=
      lexemes_token rfl rfl rfl
    have hnumber : lexemes closeText.toList = ['1'] :: lexemes ['e', '!', '=', '\'', ' ', 'x', '\''] :=
      lexemes_token rfl rfl rfl
    rw [hnumber, hname, hne, hstring, lexemes_nil]
  have hmade : MadeOf GapFollows (lexemes closeText.toList) airyText.toList := by
    have hstring : MadeOf GapFollows [['\'', ' ', 'x', '\'']] "' x' ".toList :=
      .lexeme ['\'', ' ', 'x', '\''] (gapFollows_cons rfl _) (.gap rfl .done)
    have hne : MadeOf GapFollows [['!', '='], ['\'', ' ', 'x', '\'']] "!=\n' x' ".toList :=
      .lexeme ['!', '='] (gapFollows_cons rfl _) (.gap rfl hstring)
    have hname : MadeOf GapFollows [['e'], ['!', '='], ['\'', ' ', 'x', '\'']] "e\r\n!=\n' x' ".toList :=
      .lexeme ['e'] (gapFollows_cons rfl _) (.gap rfl (.gap rfl hne))
    rw [hlexemes]
    exact .gap rfl (.lexeme ['1'] (gapFollows_cons rfl _) (.gap rfl hname))
  exact ⟨htokens, hmade, (parse_eq_of_layout htokens).2.2 airyText hmade⟩

end RecordRules.Expr
