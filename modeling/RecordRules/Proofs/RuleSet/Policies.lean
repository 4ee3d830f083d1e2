import Mathlib.Data.List.FinRange
import RecordRules.Proofs.RuleSet.Evaluable

/-!
# All matches and the first match

The two ways to evaluate a rule set against a record agree on which rules match: those whose text holds. One gives the
names at all of their positions, the other the value at the least of them, or the default if there is none. A rule that
fails can stand anywhere without a difference to either, and rules that are put behind others change nothing about the
first match among these.
-/
namespace RecordRules

namespace Rule

variable {registry : Registry} {context : Option Context} {r : Rule}

/-- The text of the rule holds for the record. -/
def Holds (registry : Registry) (context : Option Context) (r : Rule) : Prop :=
  Expr.holds registry r.expression context = .ok true

/-- The text of the rule fails for the record. -/
def Fails (registry : Registry) (context : Option Context) (r : Rule) : Prop :=
  ∃ e, Expr.holds registry r.expression context = .error e

theorem isMatch_iff : r.isMatch registry context = true ↔ r.Holds registry context := by
  rw [isMatch, Holds]
  cases Expr.holds registry r.expression context with
  | error e => simp
  | ok b => simp

theorem isMatch_eq_false_iff : r.isMatch registry context = false ↔ ¬r.Holds registry context := by
  rw [← isMatch_iff, Bool.not_eq_true]

theorem Fails.isMatch (h : r.Fails registry context) : r.isMatch registry context = false := by
  obtain ⟨e, he⟩ := h
  rw [Rule.isMatch, he]

end Rule

namespace RuleSet

variable {registry : Registry} {context : Option Context} {default default' : Option String}

/-! ## All matches -/

/-- The positions of the rules that match, in ascending order. -/
def hits (registry : Registry) (context : Option Context) (rs : List Rule) : List (Fin rs.length) :=
  (List.finRange rs.length).filter fun i => (rs.get i).isMatch registry context

theorem pairwise_hits (rs : List Rule) : (hits registry context rs).Pairwise (· < ·) :=
  (List.pairwise_lt_finRange rs.length).filter _

theorem mem_hits {rs : List Rule} {i : Fin rs.length} :
    i ∈ hits registry context rs ↔ (rs.get i).Holds registry context := by
  rw [hits, List.mem_filter, Rule.isMatch_iff]
  exact and_iff_right (List.mem_finRange i)

theorem matching_eq_hits (s : RuleSet) :
    s.matching registry context = (hits registry context s.rules).map fun i => (s.rules.get i).name := by
  have hfilter : s.rules.filter (Rule.isMatch registry context) = (hits registry context s.rules).map s.rules.get := by
    conv_lhs => rw [← List.map_get_finRange s.rules]
    exact List.filter_map
  rw [matching, hfilter, List.map_map]
  rfl

theorem matching_append (rs more : List Rule) :
    matching registry ⟨rs ++ more, default⟩ context =
      matching registry ⟨rs, default⟩ context ++ matching registry ⟨more, default⟩ context := by
  rw [matching, List.filter_append, List.map_append]
  rfl

theorem matching_cons_of_not_isMatch {r : Rule} {rs : List Rule} (h : r.isMatch registry context = false) :
    matching registry ⟨r :: rs, default⟩ context = matching registry ⟨rs, default⟩ context := by
  rw [matching, List.filter_cons_of_neg (Bool.eq_false_iff.1 h)]
  rfl

theorem isMatch_eq_false_of_matching {s : RuleSet} (h : s.matching registry context = []) :
    ∀ r ∈ s.rules, r.isMatch registry context = false :=
  fun r hr => Bool.eq_false_iff.2 (List.filter_eq_nil_iff.1 (List.map_eq_nil_iff.1 h) r hr)

/-! ## The first match -/

/-- What stands behind other rules is their default. -/
theorem firstOf_append (rs more : List Rule) :
    firstOf registry context default (rs ++ more) =
      firstOf registry context (firstOf registry context default more) rs := by
  induction rs with
  | nil => rfl
  | cons r rest ih => rw [List.cons_append, firstOf, firstOf, ih]

theorem firstOf_cons_of_not_isMatch {r : Rule} {rs : List Rule} (h : r.isMatch registry context = false) :
    firstOf registry context default (r :: rs) = firstOf registry context default rs :=
  if_neg (Bool.eq_false_iff.1 h)

/-- Where some rule matches, the default does not come out. -/
theorem firstOf_of_isMatch {r : Rule} {rs : List Rule} (hr : r ∈ rs) (h : r.isMatch registry context = true) :
    firstOf registry context default rs = firstOf registry context default' rs := by
  induction rs with
  | nil => exact nomatch hr
  | cons d rest ih =>
      rw [firstOf, firstOf]
      split
      · rfl
      · rename_i hd
        rcases List.mem_cons.1 hr with rfl | hr
        · exact absurd h hd
        · exact ih hr

/-- A matching rule behind rules that do not match is the first. -/
theorem firstOf_of_least {before after : List Rule} {r : Rule} (hr : r.isMatch registry context = true)
    (hbefore : ∀ b ∈ before, b.isMatch registry context = false) :
    firstOf registry context default (before ++ r :: after) = some r.value := by
  rw [firstOf_append, firstOf_of_no_match hbefore]
  exact if_pos hr

theorem first_of_least {s : RuleSet} {i : Fin s.rules.length} (hi : (s.rules.get i).Holds registry context)
    (hleast : ∀ j < i, ¬(s.rules.get j).Holds registry context) :
    s.first registry context = some (s.rules.get i).value := by
  have hsplit : s.rules = s.rules.take i ++ s.rules.get i :: s.rules.drop (i + 1) := by
    rw [List.get_eq_getElem, List.cons_getElem_drop_succ, List.take_append_drop]
  have hbefore : ∀ b ∈ s.rules.take i, b.isMatch registry context = false := by
    intro b hb
    obtain ⟨j, hj, rfl⟩ := List.mem_take_iff_getElem.1 hb
    have hji : j < i := by omega
    exact Rule.isMatch_eq_false_iff.2 (hleast ⟨j, by omega⟩ hji)
  have hfirst : firstOf registry context s.default (s.rules.take i ++ s.rules.get i :: s.rules.drop (i + 1)) =
      some (s.rules.get i).value := firstOf_of_least (Rule.isMatch_iff.2 hi) hbefore
  rw [← hsplit] at hfirst
  exact hfirst

/-! ## Both policies -/

/-- Both ways to evaluate a rule set tell of the rules whose text holds for the record: one gives their names, in
order, the other the value of the one in front of all others, or the default if there is none. A rule that fails can be
inserted anywhere without a difference. Of two lists of rules, one behind the other, the names are those of the first
list and then those of the second, and the first match is that of the first list if that has one. A rule whose
functions bring text along and reach the limit on calls counts among those that fail. -/
theorem policies_agree (registry : Registry) (context : Option Context) (s : RuleSet) :
    (∃ hits : List (Fin s.rules.length), hits.Pairwise (· < ·) ∧
      (∀ i, i ∈ hits ↔ (s.rules.get i).Holds registry context) ∧
      s.matching registry context = hits.map fun i => (s.rules.get i).name) ∧
    (∀ i, (s.rules.get i).Holds registry context → (∀ j < i, ¬(s.rules.get j).Holds registry context) →
      s.first registry context = some (s.rules.get i).value) ∧
    (s.matching registry context = [] → s.first registry context = s.default) ∧
    (∀ before r after, s.rules = before ++ after → r.Fails registry context →
      matching registry ⟨before ++ r :: after, s.default⟩ context = s.matching registry context ∧
        first registry ⟨before ++ r :: after, s.default⟩ context = s.first registry context) ∧
    ∀ (more : RuleSet) (default : Option String),
      matching registry ⟨s.rules ++ more.rules, default⟩ context =
          s.matching registry context ++ more.matching registry context ∧
        (s.matching registry context ≠ [] →
          first registry ⟨s.rules ++ more.rules, default⟩ context = s.first registry context) := by
  refine ⟨⟨hits registry context s.rules, pairwise_hits s.rules, fun i => mem_hits, matching_eq_hits s⟩,
    fun i => first_of_least, ?_, ?_, ?_⟩
  · intro h
    exact firstOf_of_no_match (isMatch_eq_false_of_matching h)
  · intro before r after hrules hr
    obtain ⟨rules, default⟩ := s
    subst hrules
    constructor
    · rw [matching_append, matching_cons_of_not_isMatch hr.isMatch, ← matching_append]
    · rw [first, first, firstOf_append, firstOf_cons_of_not_isMatch hr.isMatch, ← firstOf_append]
  · intro more default
    refine ⟨matching_append s.rules more.rules, fun h => ?_⟩
    obtain ⟨r, hr⟩ := List.exists_mem_of_ne_nil _ (mt List.map_eq_nil_iff.2 h)
    obtain ⟨hmem, hmatch⟩ := List.mem_filter.1 hr
    rw [first, first, firstOf_append]
    exact firstOf_of_isMatch hmem hmatch

/-- The rule calls a function that there is not. -/
def unknownCall : Rule := ⟨"unknown", "f()", [], "unknown"⟩

/-- Two rules of one name, neither of which looks at the record, and the first of which does not hold. -/
def twins : RuleSet := ⟨[⟨"twin", "x", ["x"], "first"⟩, ⟨"twin", "", [], "second"⟩], some "none"⟩

theorem fails_unknownCall : unknownCall.Fails .builtin (some .empty) := by
  have htext : "f()" = "f" ++ "()" := by decide
  have hparse : Expr.parse "f()" = .ok (.call "f" []) :=
    htext ▸ Grammar.parse_call_nil (Token.isName_of_chars rfl (by decide)) rfl
  refine ⟨.unknownFunction "f", ?_⟩
  rw [unknownCall, Expr.holds_of_parse hparse]
  rfl

/-- Between the two rules, the one that fails makes no difference. -/
theorem policies_agree_unknownCall :
    unknownCall.Fails .builtin (some .empty) ∧
      matching .builtin ⟨twins.rules.take 1 ++ unknownCall :: twins.rules.drop 1, twins.default⟩ (some .empty) =
        twins.matching .builtin (some .empty) ∧
      twins.first .builtin (some .empty) = some "second" := by
  have hparse : Expr.parse "x" = .ok (.ident "x") :=
    Grammar.parse_field (Token.isName_of_chars rfl (by decide)) rfl
  have hfalse : Expr.holds .builtin "x" (some .empty) = .ok false := by
    rw [Expr.holds_of_parse hparse]
    rfl
  obtain ⟨-, hleast, -, hinsert, -⟩ := policies_agree .builtin (some .empty) twins
  refine ⟨fails_unknownCall, (hinsert _ _ _ rfl fails_unknownCall).1, hleast ⟨1, by decide⟩ rfl ?_⟩
  intro j hj hholds
  obtain rfl : j = ⟨0, by decide⟩ := Fin.ext (Nat.lt_one_iff.1 hj)
  exact nomatch hfalse.symm.trans hholds

end RuleSet

end RecordRules
