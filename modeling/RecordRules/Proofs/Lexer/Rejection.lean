import Mathlib.Data.List.TakeWhile
import RecordRules.Proofs.Failure
import RecordRules.Proofs.Lexer.Continuation
import RecordRules.Proofs.Lexer.Tokens

/-!
# Where a text is rejected

A text without tokens is rejected at a character where no token can be cut; what stands before it has tokens. The
error tells the text from this character on, and its offset in bytes, except where the character is a blank that the
lexer does not skip, such as a form feed or a no-break space: blanks are left out of the error, so that it then points
behind them, at what may well be a token.
-/
namespace RecordRules

namespace Text

theorem byteLength_ofList (cs : List Char) : byteLength cs = (String.ofList cs).utf8ByteSize := by
  induction cs with
  | nil => rfl
  | cons c cs ih =>
      have hcons : String.ofList (c :: cs) = String.singleton c ++ String.ofList cs := by
        rw [String.singleton_eq_ofList, ← String.ofList_append]
        rfl
      rw [byteLength, ih, hcons, String.utf8ByteSize_append, String.utf8ByteSize_singleton]

end Text

namespace Token

variable {cs rest : List Char} {ts us : List Token}

theorem Scans.gaps {gaps : List Char} (hgaps : ∀ c ∈ gaps, isGap c = true) (h : Scans cs ts) :
    Scans (gaps ++ cs) ts := by
  induction gaps with
  | nil => exact h
  | cons c gaps ih =>
      obtain ⟨hc, hgaps⟩ := List.forall_mem_cons.1 hgaps
      exact .gap hc (ih hgaps)

/-- What a detached text has for tokens behind another one it has alone. -/
theorem Scans.of_append (h : Scans cs ts) (hrest : Detached rest) (hus : Scans (cs ++ rest) us) :
    ∃ vs, us = ts ++ vs ∧ Scans rest vs := by
  induction h generalizing us with
  | done => exact ⟨us, rfl, hus⟩
  | gap hc _ ih =>
      cases hus with
      | gap _ hus => exact ih hus
      | token hc' _ _ => exact nomatch hc.symm.trans hc'
  | token hc hn _ ih =>
      cases hus with
      | gap hc' _ => exact nomatch hc'.symm.trans hc
      | token _ hn' hus =>
          obtain ⟨rfl, rfl⟩ := Prod.mk.inj (Option.some.inj ((next?_append hrest hn).symm.trans hn'))
          obtain ⟨vs, rfl, hvs⟩ := ih hus
          exact ⟨vs, rfl, hvs⟩

theorem takeWhile_isGap_append_skipGap (cs : List Char) : cs.takeWhile isGap ++ skipGap cs = cs :=
  List.takeWhile_append_dropWhile

theorem isGap_of_mem_takeWhile {c : Char} (h : c ∈ cs.takeWhile isGap) : isGap c = true :=
  List.mem_takeWhile_imp h

/-- The characters are a text that has tokens, and another one that starts, without a gap, where no token can be cut. -/
structure Stops (cs before stop : List Char) : Prop where
  split : cs = before ++ stop
  scans : ∃ ts, Scans before ts
  nonempty : stop ≠ []
  no_gap : ∀ c ∈ stop.head?, isGap c = false
  no_token : next? stop = none

/-- Where scanning stops, it stops in front of gaps and a token as well. -/
theorem Stops.token {before stop : List Char} {t : Token} (h : Stops rest before stop)
    (hn : next? (skipGap cs) = some (t, rest)) : ∃ l, Stops cs (cs.takeWhile isGap ++ (l ++ before)) stop := by
  obtain ⟨ts, hts⟩ := h.scans
  obtain ⟨l, hl, -⟩ := exists_eq_append_of_next? hn
  have hcs : cs = cs.takeWhile isGap ++ (l ++ before) ++ stop := by
    rw [List.append_assoc, List.append_assoc, ← h.split, ← hl, takeWhile_isGap_append_skipGap]
  -- the token is still cut from a text that ends where scanning stops
  have hwhole : next? (l ++ before ++ stop) = some (t, before ++ stop) := by
    rw [List.append_assoc, ← h.split, ← hl, hn]
  have hscans : Scans (l ++ before) (t :: ts) := .of_next? (next?_of_append hwhole) hts
  exact ⟨l, hcs, ⟨_, hscans.gaps fun _ => isGap_of_mem_takeWhile⟩, h.nonempty, h.no_gap, h.no_token⟩

theorem exists_stops_of_scan_eq_error {rem : List Char} (h : scan cs = .error rem) :
    ∃ before, Stops cs before (skipGap rem) := by
  fun_induction scan cs with
  | case1 cs hskip => exact nomatch h
  | case2 cs c r hskip t rest hnext ih =>
      obtain ⟨before, hbefore⟩ := ih (map_eq_error_iff.1 h)
      obtain ⟨l, hl⟩ := hbefore.token (hskip ▸ hnext)
      exact ⟨_, hl⟩
  | case3 cs c r hskip hnext =>
      obtain rfl := Except.error.inj h
      have hgaps : Scans (cs.takeWhile isGap ++ []) [] := Scans.done.gaps fun _ => isGap_of_mem_takeWhile
      rw [List.append_nil] at hgaps
      refine ⟨cs.takeWhile isGap, (takeWhile_isGap_append_skipGap cs).symm, ⟨[], hgaps⟩, ?_, ?_, ?_⟩
      · exact hskip ▸ List.cons_ne_nil _ _
      · exact free_single_iff.1 (free_dropWhile isGap cs)
      · exact hskip ▸ hnext

theorem trimStart_skipGap (cs : List Char) : Text.trimStart (skipGap cs) = Text.trimStart cs := by
  induction cs with
  | nil => rfl
  | cons c r ih =>
      cases hc : isGap c with
      | true =>
          have hskip : skipGap (c :: r) = skipGap r := List.dropWhile_cons_of_pos hc
          have htrim : Text.trimStart (c :: r) = Text.trimStart r := List.dropWhile_cons_of_pos (isBlank_of_isGap hc)
          rw [hskip, htrim, ih]
      | false =>
          have hskip : skipGap (c :: r) = c :: r := List.dropWhile_cons_of_neg (by simp [hc])
          rw [hskip]

/-- A blank carries no lexeme on. -/
theorem detached_of_isBlank {c : Char} (h : Text.isBlank c = true) (r : List Char) : Detached (c :: r) := by
  have hall : blanks.all (fun c => !carriesOn c) = true := by decide +kernel
  intro d hd
  obtain rfl := Option.some.inj hd
  have hcarries := List.all_eq_true.1 hall c (mem_blanks h)
  rwa [Bool.not_eq_true'] at hcarries

/-- Blanks where scanning stops have no tokens, not even behind the text in front of them. -/
theorem Stops.scans_append_iff {before skipped : List Char} (h : Stops cs before (skipped ++ rest))
    (hblank : ∀ c ∈ skipped, Text.isBlank c = true) : (∃ us, Scans (before ++ skipped) us) ↔ skipped = [] := by
  obtain ⟨ts, hts⟩ := h.scans
  constructor
  · intro hus
    obtain ⟨us, hus⟩ := hus
    cases skipped with
    | nil => rfl
    | cons c r =>
        have hc := hblank c List.mem_cons_self
        obtain ⟨vs, -, hvs⟩ := hts.of_append (detached_of_isBlank hc r) hus
        cases hvs with
        | gap hgap _ => exact absurd ((h.no_gap c rfl).symm.trans hgap) Bool.false_ne_true
        | token _ hn _ => exact absurd ((isBlank_eq_false_of_next? hn).symm.trans hc) Bool.false_ne_true
  · intro hempty
    rw [hempty, List.append_nil]
    exact ⟨ts, hts⟩

end Token

namespace Expr

open Token

variable {s rest : String} {offset : Nat}

theorem exists_tokens_ofList_iff {cs : List Char} :
    (∃ ts, tokens (String.ofList cs) = .ok ts) ↔ ∃ ts, Scans cs ts := by
  constructor
  · intro h
    obtain ⟨ts, hts⟩ := h
    have hscan := scan_of_tokens hts
    rw [String.toList_ofList] at hscan
    exact ⟨ts, scan_eq_ok_iff.1 hscan⟩
  · intro h
    obtain ⟨ts, hts⟩ := h
    exact ⟨ts, by rw [tokens, String.toList_ofList, hts.scan_eq]⟩

/-- The error leaves out the blanks where scanning stops. -/
theorem exists_stops_of_tokens_eq_error (h : tokens s = .error (.lexical offset rest)) :
    ∃ before skipped, Stops s.toList before (skipped ++ rest.toList) ∧
      (∀ c ∈ skipped, Text.isBlank c = true) ∧ (∀ c ∈ rest.toList.head?, Text.isBlank c = false) ∧
      offset = Text.byteLength s.toList - Text.byteLength rest.toList := by
  unfold tokens at h
  split at h
  · cases h
  · rename_i rem hrem
    obtain ⟨hoffset, hrest⟩ := ParseError.lexical.inj (Except.error.inj h)
    obtain ⟨before, hstops⟩ := exists_stops_of_scan_eq_error hrem
    rw [← trimStart_skipGap] at hoffset hrest
    have htext : rest.toList = Text.trimStart (skipGap rem) := by
      rw [← hrest, String.toList_ofList]
    refine ⟨before, (skipGap rem).takeWhile Text.isBlank, ?_, ?_, ?_, ?_⟩
    · rw [htext, Text.trimStart, List.takeWhile_append_dropWhile]
      exact hstops
    · exact fun c hc => List.mem_takeWhile_imp hc
    · rw [htext]
      exact free_single_iff.1 (free_dropWhile Text.isBlank _)
    · rw [htext]
      exact hoffset.symm

/-- A rejected text is a text that has tokens, a character where no token can be cut, and the rest. The error tells the
rest from this character on and its offset in bytes, unless the character is a blank that is not skipped. Then the
blanks that stand there count as skipped, so that the text before the offset has no tokens, and the error points at
what follows the blanks, whatever it is. -/
theorem lexical_spec (h : tokens s = .error (.lexical offset rest)) :
    ∃ accepted skipped : String, s = accepted ++ skipped ++ rest ∧
      offset = (accepted ++ skipped).utf8ByteSize ∧ String.Pos.Raw.IsValid s ⟨offset⟩ ∧
      (∃ ts, tokens accepted = .ok ts) ∧
      skipped ++ rest ≠ "" ∧ next? (skipped ++ rest).toList = none ∧
      (∀ c ∈ skipped.toList, Text.isBlank c = true) ∧ (∀ c ∈ rest.toList.head?, Text.isBlank c = false) ∧
      ((∃ ts, tokens (accepted ++ skipped) = .ok ts) ↔ skipped = "") := by
  obtain ⟨before, skipped, hstops, hblank, hrest, hoffset⟩ := exists_stops_of_tokens_eq_error h
  have htext : (String.ofList skipped ++ rest).toList = skipped ++ rest.toList := by
    rw [String.toList_append, String.toList_ofList]
  have hsplit : s = String.ofList before ++ String.ofList skipped ++ rest := by
    rw [← String.toList_inj, String.append_assoc, String.toList_append, String.toList_ofList, htext, hstops.split]
  have hbytes : offset = (String.ofList before ++ String.ofList skipped).utf8ByteSize := by
    rw [hoffset, Text.byteLength_ofList, Text.byteLength_ofList, String.ofList_toList, String.ofList_toList]
    conv_lhs => rw [hsplit, String.utf8ByteSize_append, Nat.add_sub_cancel]
  refine ⟨String.ofList before, String.ofList skipped, hsplit, hbytes, ?_, ?_, ?_, ?_, ?_, hrest, ?_⟩
  · exact String.Pos.Raw.isValid_iff_exists_append.2 ⟨_, rest, hsplit, congrArg _ hbytes⟩
  · exact exists_tokens_ofList_iff.2 hstops.scans
  · intro hempty
    exact hstops.nonempty (htext.symm.trans (congrArg String.toList hempty))
  · rw [htext]
    exact hstops.no_token
  · rwa [String.toList_ofList]
  · rw [← String.ofList_append, exists_tokens_ofList_iff, hstops.scans_append_iff hblank, String.ofList_eq_empty_iff]

/-- Behind `a` stands a form feed, which is no gap. The error points at `b`, which is a token, and the text before it
has no tokens. -/
theorem lexical_spec_formFeed :
    tokens "a \x0c b" = .error (.lexical 4 "b") ∧ next? "b".toList = some (.ident "b", []) ∧
      ¬∃ ts, tokens "a \x0c " = .ok ts := by
  have hrem : scan [' ', '\x0c', ' ', 'b'] = .error [' ', '\x0c', ' ', 'b'] := by
    rw [scan_eq]
    rfl
  have hscan : scan "a \x0c b".toList = .error [' ', '\x0c', ' ', 'b'] := by
    have hstep : scan "a \x0c b".toList = (scan [' ', '\x0c', ' ', 'b']).map (Token.ident "a" :: ·) := by
      rw [scan_eq]
      rfl
    rw [hstep, hrem]
    rfl
  have htokens : tokens "a \x0c b" = .error (.lexical 4 "b") := by
    rw [tokens, hscan]
    rfl
  have hb : next? "b".toList = some (.ident "b", []) := rfl
  obtain ⟨accepted, skipped, hsplit, -, -, -, -, hnext, -, -, hiff⟩ := lexical_spec htokens
  have hbefore : accepted ++ skipped = "a \x0c " := by
    have hwhole : "a \x0c " ++ "b" = accepted ++ skipped ++ "b" := hsplit
    exact (String.append_left_inj "b").1 hwhole.symm
  refine ⟨htokens, hb, ?_⟩
  rw [← hbefore, hiff]
  rintro rfl
  rw [String.empty_append, hb] at hnext
  exact Option.some_ne_none _ hnext

end Expr

end RecordRules
