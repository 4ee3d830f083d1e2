import RecordRules.Proofs.Evaluation.Text
import RecordRules.Proofs.Names.Mentions

/-!
# The fields in a text

Which names in a text stand for fields can be told from the tokens. A name is a field unless it is a word of the
language, the name of a function, which a parenthesis follows, or the type of a list, which a brace follows. The tree
that a text is read as mentions these names, in the order and as often as they occur.
-/
namespace RecordRules

open Grammar

namespace Token

/-- Whether the tokens start so that a name before them is that of a function or of a type. -/
def opens : List Token → Bool
  | .symbol s :: _ => s == .lparen || s == .lbrace
  | _ => false

/-- The names in the tokens that stand for fields. -/
def fieldNames : List Token → List String
  | [] => []
  | .ident name :: rest =>
      if (word? name).isNone && !opens rest then name :: fieldNames rest else fieldNames rest
  | _ :: rest => fieldNames rest

variable {ts us : List Token} {name : String}

theorem opens_append (ts : List Token) (h : opens us = false) : opens (ts ++ us) = opens ts := by
  cases ts with
  | nil => exact h
  | cons t rest => cases t <;> rfl

theorem fieldNames_symbol (s : Symbol) : fieldNames (.symbol s :: ts) = fieldNames ts := rfl

theorem fieldNames_append (ts : List Token) (h : opens us = false) :
    fieldNames (ts ++ us) = fieldNames ts ++ fieldNames us := by
  induction ts with
  | nil => rfl
  | cons t rest ih =>
      cases t with
      | ident name =>
          rw [List.cons_append, fieldNames, fieldNames, opens_append rest h, ih]
          split_ifs <;> rfl
      | int _ | float _ | str _ | symbol _ => exact ih

/-- Brackets around the tokens hide none of their names, and add none. -/
theorem fieldNames_enclosed (start : Symbol) {close : Symbol} (h : opens [.symbol close] = false) :
    fieldNames (.symbol start :: (ts ++ [.symbol close])) = fieldNames ts := by
  rw [fieldNames_symbol, fieldNames_append ts h]
  exact List.append_nil _

theorem fieldNames_field (h : word? name = none) (hts : opens ts = false) :
    fieldNames (.ident name :: ts) = name :: fieldNames ts := by
  rw [fieldNames, h, hts]
  rfl

theorem fieldNames_word {v : Value} (h : word? name = some v) : fieldNames (.ident name :: ts) = fieldNames ts := by
  rw [fieldNames, h]
  rfl

theorem fieldNames_opened (h : opens ts = true) : fieldNames (.ident name :: ts) = fieldNames ts := by
  rw [fieldNames, h, Bool.not_true, Bool.and_false]
  rfl

/-- Names that stand for fields are names, but no words. -/
theorem mem_of_mem_fieldNames (h : name ∈ fieldNames ts) : .ident name ∈ ts ∧ word? name = none := by
  induction ts with
  | nil => exact absurd h List.not_mem_nil
  | cons t rest ih =>
      have hrest (h : name ∈ fieldNames rest) : .ident name ∈ t :: rest ∧ word? name = none :=
        ⟨List.mem_cons_of_mem t (ih h).1, (ih h).2⟩
      cases t with
      | ident other =>
          rw [fieldNames] at h
          split_ifs at h with hfield
          · rcases List.mem_cons.1 h with rfl | h
            · exact ⟨List.mem_cons_self, Option.isNone_iff_eq_none.1 (Bool.and_eq_true _ _ ▸ hfield).1⟩
            · exact hrest h
          · exact hrest h
      | int _ | float _ | str _ | symbol _ => exact hrest h

end Token

namespace Grammar

open Token (fieldNames fieldNames_append fieldNames_enclosed fieldNames_symbol)

/-- A meaning mentions the names, after those of a left operand if it needs one. -/
def Mentions (names : List String) : (n : Nonterminal) → n.Meaning → Prop
  | .phrase _, e => e.mentions = names
  | .tail _, f => ∀ left : Expr, (f left).mentions = left.mentions ++ names
  | .primary, e => e.mentions = names
  | .items, es => Expr.allMentions es = names

/-- A tail starts with an operator, if with anything. -/
theorem opens_tail {l : Level} (d : Derivation (.tail l)) : Token.opens d.tokens = false := by
  cases d with
  | done => rfl
  | more s op hop right rest =>
      cases s with
      | lparen | lbrace => cases l <;> exact nomatch hop
      | _ => rfl

/-- The meaning of a derivation mentions the fields among its tokens. -/
theorem mentions_meaning {n : Nonterminal} (d : Derivation n) : Mentions (fieldNames d.tokens) n d.meaning := by
  induction d with
  -- no parenthesis or brace follows the operand, so that its last name keeps its role
  | chain first rest ihf ihr =>
      have hfirst : first.meaning.mentions = fieldNames first.tokens := ihf
      have hrest := ihr first.meaning
      rwa [hfirst, ← fieldNames_append _ (opens_tail rest)] at hrest
  | done => exact fun left => (List.append_nil _).symm
  | more s op hop right rest ih ihr =>
      intro left
      have hright : right.meaning.mentions = fieldNames right.tokens := ih
      have hrest := ihr (.binary op left right.meaning)
      rwa [Expr.mentions, hright, List.append_assoc, ← fieldNames_append _ (opens_tail rest)] at hrest
  | not operand ih => exact ih
  | neg operand ih => exact ih
  | base p ih => exact ih
  | int _ | float _ | str _ => rfl
  | word name v hword => exact (@Token.fieldNames_word [] name v hword).symm
  | field name hword => exact (@Token.fieldNames_field [] name hword rfl).symm
  | call name hword args ih =>
      rw [Derivation.tokens, Token.fieldNames_opened rfl, fieldNames_enclosed _ rfl]
      exact ih
  | group inner ih =>
      rw [Derivation.tokens, fieldNames_enclosed _ rfl]
      exact ih
  | list items ih =>
      rw [Derivation.tokens, fieldNames_enclosed _ rfl]
      exact ih
  | typed kind items ih =>
      rw [Derivation.tokens, fieldNames_symbol, fieldNames_symbol, Token.fieldNames_opened rfl,
        fieldNames_enclosed _ rfl]
      exact ih
  | none => rfl
  | last e ih => exact (List.append_nil _).trans ih
  | item e rest ihe ihr =>
      have he : e.meaning.mentions = fieldNames e.tokens := ihe
      have hrest : Expr.allMentions rest.meaning = fieldNames rest.tokens := ihr
      rw [Derivation.tokens, fieldNames_append _ rfl, Mentions, Derivation.meaning, Expr.allMentions, he, hrest]
      rfl

end Grammar

namespace Expr

variable {s : String}

/-- The names in a text that stand for fields. -/
def fieldNames (s : String) : List String :=
  match tokens s with
  | .ok ts => Token.fieldNames ts
  | .error _ => []

theorem fieldNames_of_tokens {ts : List Token} (h : tokens s = .ok ts) : fieldNames s = Token.fieldNames ts := by
  rw [fieldNames, h]

/-- The tree of an accepted text mentions the names in it that stand for fields. -/
theorem mentions_eq_fieldNames {e : Expr} (h : parse s = .ok e) : e.mentions = fieldNames s := by
  obtain ⟨ts, htokens, h⟩ := exists_of_bind_eq_ok h
  obtain ⟨d, rfl, -, rfl⟩ := exists_of_ofTokens h
  rw [fieldNames_of_tokens htokens]
  exact mentions_meaning d

end Expr

end RecordRules
