import Mathlib.Data.List.TakeWhile
import RecordRules.Proofs.Lexer.Lexemes

/-!
# Lexing goes on

Where separated text follows a text, the lexer cuts the text as it does alone and then goes on with what follows.
So every text that has tokens is a piece in the sense of `Proofs.Lexer.Pieces`, whatever its author wrote: no
token at its end runs on over the separator, and a string that is closed stays closed.
-/
namespace RecordRules.Token

open Number

/-! ## Scanning as a relation -/

/-- A text and its tokens: gaps are skipped, and a token is cut at any other character. -/
inductive Scans : List Char → List Token → Prop
  | done : Scans [] []
  | gap {c : Char} {r : List Char} {ts : List Token} (hc : isGap c = true) : Scans r ts → Scans (c :: r) ts
  | token {c : Char} {r rest : List Char} {t : Token} {ts : List Token} (hc : isGap c = false)
      (hn : next? (c :: r) = some (t, rest)) : Scans rest ts → Scans (c :: r) (t :: ts)

theorem Scans.scan_eq {cs : List Char} {ts : List Token} (h : Scans cs ts) : scan cs = .ok ts := by
  induction h with
  | done => exact scan_nil
  | gap hc _ ih => exact scan_gap hc ih
  | token hc hn _ ih => exact scan_of_next? hc hn ih

theorem scans_of_scan {cs : List Char} {ts : List Token} (h : scan cs = .ok ts) : Scans cs ts := by
  induction hn : cs.length using Nat.strongRecOn generalizing cs ts with
  | ind n ih =>
      subst hn
      cases cs with
      | nil =>
          rw [scan_nil] at h
          exact Except.ok.inj h ▸ .done
      | cons c r =>
          cases hc : isGap c with
          | true => exact .gap hc (ih r.length (Nat.lt_succ_self _) ((scan_gap_iff hc).1 h) rfl)
          | false =>
              have hskip : skipGap (c :: r) = c :: r := List.dropWhile_cons_of_neg (by simp [hc])
              rw [Token.scan_eq, hskip] at h
              cases hnext : next? (c :: r) with
              | none => simp [hnext] at h
              | some x =>
                  simp only [hnext] at h
                  cases hrest : scan x.2 with
                  | error e => simp [hrest, Except.map] at h
                  | ok us =>
                      rw [hrest] at h
                      obtain rfl := Except.ok.inj h
                      exact .token hc hnext (ih x.2.length (length_of_next? hnext) hrest rfl)

theorem scan_eq_ok_iff {cs : List Char} {ts : List Token} : scan cs = .ok ts ↔ Scans cs ts :=
  ⟨scans_of_scan, Scans.scan_eq⟩

/-! ## Whole texts -/

theorem Scans.append {cs rest : List Char} {ts us : List Token} (h : Scans cs ts) (hrest : Detached rest)
    (hscan : scan rest = .ok us) : scan (cs ++ rest) = .ok (ts ++ us) := by
  induction h with
  | done => exact hscan
  | gap hc _ ih => exact scan_gap hc ih
  | token hc hn _ ih => exact scan_of_next? hc (next?_append hrest hn) ih

theorem symbol?_equals {r rest : List Char} {s : Symbol} (h : symbol? ('=' :: r) = some (s, rest)) : s = .eqEq := by
  cases r with
  | nil => exact nomatch h
  | cons d r =>
      by_cases hd : d = '='
      · subst hd
        exact (Prod.mk.inj (Option.some.inj h)).1.symm
      · simp [symbol?, hd] at h

/-- A text that has tokens is a piece, unless it starts with the symbol of equality. -/
theorem lexes_of_scan {cs : List Char} {ts : List Token} (h : scan cs = .ok ts)
    (hts : ts.head? ≠ some (.symbol .eqEq)) : Lexes cs ts where
  scan_append hrest hscan := (scan_eq_ok_iff.1 h).append hrest.detached hscan
  head_ne := by
    intro hhead
    obtain ⟨r, rfl⟩ : ∃ r, cs = '=' :: r := by
      cases cs with
      | nil => exact nomatch hhead
      | cons c r => exact ⟨r, by rw [Option.some.inj hhead]⟩
    cases scan_eq_ok_iff.1 h with
    | gap hc => exact absurd hc (by decide)
    | token hc hn =>
        rcases next?_cases hn with ⟨s, rfl, -, hs⟩ | ⟨hc, -⟩ | ⟨hc, -⟩ | ⟨hc, -⟩
        · rw [symbol?_equals hs] at hts
          exact hts rfl
        · exact absurd hc (by decide)
        · exact absurd hc (by decide)
        · exact absurd hc (by decide)

/-! ## Blank text -/

/-- The blank characters. -/
def blanks : List Char :=
  [0x9, 0xa, 0xb, 0xc, 0xd, 0x20, 0x85, 0xa0, 0x1680, 0x2000, 0x2001, 0x2002, 0x2003, 0x2004, 0x2005, 0x2006,
    0x2007, 0x2008, 0x2009, 0x200a, 0x2028, 0x2029, 0x202f, 0x205f, 0x3000].map Char.ofNat

theorem mem_blanks {c : Char} (h : Text.isBlank c = true) : c ∈ blanks := by
  have hc : c = Char.ofNat c.toNat := (Char.ofNat_toNat c).symm
  simp only [Text.isBlank, Bool.or_eq_true, Bool.and_eq_true, decide_eq_true_eq, beq_iff_eq] at h
  rw [hc]
  apply List.mem_map_of_mem
  simp only [List.mem_cons, List.not_mem_nil, or_false]
  omega

/-- No token starts with a blank. -/
theorem isBlank_eq_false_of_next? {c : Char} {r rest : List Char} {t : Token}
    (h : next? (c :: r) = some (t, rest)) : Text.isBlank c = false := by
  have hall : blanks.all (fun c => c ∉ symbolStarts ∧ c.isDigit = false ∧ c ≠ '"' ∧ c ≠ '\'' ∧
      isNameStart c = false) = true := by decide +kernel
  rw [← Bool.not_eq_true]
  intro hblank
  obtain ⟨hsymbol, hdigit, hdouble, hsingle, hname⟩ :=
    of_decide_eq_true (List.all_eq_true.1 hall c (mem_blanks hblank))
  rcases next?_cases h with ⟨-, -, hc, -⟩ | ⟨hc, -⟩ | ⟨hc | hc, -⟩ | ⟨hc, -⟩
  · exact hsymbol hc
  · simp [hdigit] at hc
  · exact hdouble hc
  · exact hsingle hc
  · simp [hname] at hc

theorem isBlank_of_isGap {c : Char} (h : isGap c = true) : Text.isBlank c = true := by
  simp only [isGap, Bool.or_eq_true, beq_iff_eq] at h
  rcases h with ((rfl | rfl) | rfl) | rfl <;> rfl

/-- A token in front of a text that has tokens. -/
theorem Scans.of_next? {cs rest : List Char} {t : Token} {ts : List Token} (hn : next? cs = some (t, rest))
    (h : Scans rest ts) : Scans cs (t :: ts) := by
  cases cs with
  | nil => exact nomatch hn
  | cons c r =>
      have hblank := isBlank_eq_false_of_next? hn
      refine .token ?_ hn h
      rw [← Bool.not_eq_true] at hblank ⊢
      exact mt isBlank_of_isGap hblank

/-- Blank text has no tokens. -/
theorem Scans.eq_nil_of_blank {cs : List Char} {ts : List Token} (h : Scans cs ts)
    (hblank : ∀ c ∈ cs, Text.isBlank c = true) : ts = [] := by
  induction h with
  | done => rfl
  | gap _ _ ih => exact ih fun d hd => hblank d (List.mem_cons_of_mem _ hd)
  | token _ hn _ _ => exact nomatch (isBlank_eq_false_of_next? hn).symm.trans (hblank _ List.mem_cons_self)

theorem isBlank_of_trim_eq_nil {cs : List Char} (h : Text.trim cs = []) : ∀ c ∈ cs, Text.isBlank c = true := by
  have hrest : ∀ c ∈ Text.trimStart cs, Text.isBlank c = true := by
    intro c hc
    exact List.dropWhile_eq_nil_iff.1 (List.reverse_eq_nil_iff.1 h) c (List.mem_reverse.2 hc)
  intro c hc
  rw [← List.takeWhile_append_dropWhile (p := Text.isBlank) (l := cs), List.mem_append] at hc
  exact hc.elim List.mem_takeWhile_imp (hrest c)

end RecordRules.Token
