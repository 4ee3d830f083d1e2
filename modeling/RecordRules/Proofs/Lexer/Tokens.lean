import RecordRules.Expr.Parser
import RecordRules.Proofs.Lexer.Numbers
import RecordRules.Proofs.Number.Bits

/-!
# The tokens that are cut

What the lexer can put into a token: names of the form of names, integers from zero up, and floating-point
numbers without a sign that are not NaN. Signs are tokens of their own.
-/
namespace RecordRules.Token

open Number

/-- A token that some text is cut into. -/
def WellFormed : Token → Prop
  | ident s => IsName s.toList
  | int n => 0 ≤ n.toInt
  | float x => ∃ p ≤ Format.double.infinity, x = ofPattern false p
  | str _ | symbol _ => True

theorem toInt_ofInt {n : ℤ} (h : Int64.minValue.toInt ≤ n ∧ n ≤ Int64.maxValue.toInt) :
    (Int64.ofInt n).toInt = n := by
  obtain ⟨hlow, hhigh⟩ := h
  rw [show Int64.maxValue.toInt = 2 ^ 63 - 1 by decide] at hhigh
  exact Int64.toInt_ofInt_of_le hlow (by omega)

theorem wellFormed_ofNumber {whole : List Char} (hne : whole ≠ []) (hd : ∀ c ∈ whole, c.isDigit = true)
    (part : Option (List Char)) (e : Option Int) : (ofNumber whole part e).WellFormed := by
  have hreal (n : ℕ) (k : ℤ) : (float (Numeral.toDouble ⟨false, .decimal n k⟩)).WellFormed := by
    refine ⟨Format.double.nearestDecimal n k, ?_, rfl⟩
    rw [Format.nearestDecimal_eq_rounded]
    exact Format.rounded_le_infinity _ _
  unfold ofNumber
  dsimp only
  split_ifs
  · split
    · rename_i n hn
      simp only [int64?, int?_digits hne hd] at hn
      split_ifs at hn with hrange
      obtain rfl := Option.some.inj hn
      rw [WellFormed, toInt_ofInt hrange]
      exact Int.natCast_nonneg _
    · exact hreal _ _
  · exact hreal _ _

theorem wellFormed_of_number? {cs r : List Char} {t : Token} (h : number? cs = some (t, r)) : t.WellFormed := by
  unfold number? at h
  split at h
  · exact nomatch h
  · rename_i d ds r1 hs
    simp only [Option.some.injEq, Prod.mk.injEq] at h
    obtain ⟨rfl, -⟩ := h
    have htake : d :: ds = cs.takeWhile Char.isDigit := (congrArg Prod.fst hs).symm
    refine wellFormed_ofNumber (List.cons_ne_nil _ _) (fun c hc => ?_) _ _
    rw [htake] at hc
    exact List.all_eq_true.1 List.all_takeWhile c hc

theorem wellFormed_of_string? {cs r : List Char} {t : Token} (h : string? cs = some (t, r)) : t.WellFormed := by
  unfold string? at h
  split at h
  · split_ifs at h
    obtain ⟨x, -, hx⟩ := Option.map_eq_some_iff.1 h
    obtain ⟨rfl, -⟩ := Prod.mk.inj hx
    trivial
  · exact nomatch h

theorem wellFormed_of_ident? {cs r : List Char} {t : Token} (h : ident? cs = some (t, r)) : t.WellFormed := by
  unfold ident? at h
  split at h
  · rename_i c r'
    split_ifs at h with hc
    simp only [Option.some.injEq, Prod.mk.injEq] at h
    obtain ⟨rfl, -⟩ := h
    exact ⟨c, _, String.toList_ofList, hc, List.all_eq_true.1 List.all_takeWhile⟩
  · exact nomatch h

theorem wellFormed_of_next? {cs r : List Char} {t : Token} (h : next? cs = some (t, r)) : t.WellFormed := by
  simp only [next?, Option.orElse_eq_orElse, Option.orElse_eq_or, Option.or_eq_some_iff] at h
  rcases h with h | ⟨-, h⟩
  · obtain ⟨x, -, hx⟩ := Option.map_eq_some_iff.1 h
    obtain ⟨rfl, -⟩ := Prod.mk.inj hx
    trivial
  · rcases h with h | ⟨-, h⟩
    · exact wellFormed_of_number? h
    · rcases h with h | ⟨-, h⟩
      · exact wellFormed_of_string? h
      · exact wellFormed_of_ident? h

theorem wellFormed_of_scan {cs : List Char} {ts : List Token} (h : scan cs = .ok ts) :
    ∀ t ∈ ts, t.WellFormed := by
  induction hn : cs.length using Nat.strongRecOn generalizing cs ts with
  | ind n ih =>
      have hle := length_skipGap_le cs
      rw [scan_eq] at h
      cases hskip : skipGap cs with
      | nil =>
          rw [hskip] at h
          obtain rfl := Except.ok.inj h
          nofun
      | cons c r =>
          rw [hskip] at h hle
          cases hnext : next? (c :: r) with
          | none => simp [hnext] at h
          | some x =>
              have hlen := length_of_next? hnext
              cases hrest : scan x.2 with
              | error e => simp [hnext, hrest, Except.map] at h
              | ok us =>
                  simp only [hnext, hrest] at h
                  obtain rfl := Except.ok.inj h
                  intro u hu
                  rcases List.mem_cons.1 hu with rfl | hu
                  · exact wellFormed_of_next? hnext
                  · exact ih x.2.length (by omega) hrest rfl u hu

theorem scan_of_tokens {s : String} {ts : List Token} (h : Expr.tokens s = .ok ts) :
    scan s.toList = .ok ts := by
  unfold Expr.tokens at h
  split at h
  · rename_i us hus
    rwa [Except.ok.inj h] at hus
  · exact nomatch h

end RecordRules.Token
