import Mathlib
import RecordRules.Batch
import RecordRules.Proofs.RuleSet.Fields

/-!
# A batch is checked line by line

The lines of a text are what stands between its line feeds. Each line with something on it gives one result, in the
order of the lines: the number of the line and what that line alone gives, the value or the names for a record and
otherwise an error. So two texts with a line feed between them give the results of the first and after them those of
the second, whose line numbers go on from those of the first.
-/
namespace RecordRules.Batch

/-! ## Lines -/

theorem lines_eq_splitOn (text : List Char) : lines text = text.splitOn '\n' := by
  rw [List.splitOn_eq_splitOnP]
  induction text with
  | nil => rfl
  | cons c cs ih =>
      rw [List.splitOnP_cons_eq_if_modifyHead, ← ih]
      by_cases hc : c = '\n'
      · rw [hc, lines, beq_self_eq_true, if_pos rfl]
      · have hbeq : (c == '\n') = false := beq_eq_false_iff_ne.2 hc
        rw [lines, hbeq, if_neg Bool.false_ne_true]
        · cases hlines : lines cs with
          | nil => exact absurd (ih.symm.trans hlines) (List.splitOnP_ne_nil _ _)
          | cons line rest => rfl
        · exact hc

theorem splitOn_append (a b : List Char) :
    (a ++ '\n' :: b).splitOn '\n' = a.splitOn '\n' ++ b.splitOn '\n' := by
  simp only [List.splitOn_eq_splitOnP]
  exact List.splitOnP_append_cons a b rfl

/-- A text has one line more than it has line feeds. -/
theorem length_splitOn (text : List Char) : (text.splitOn '\n').length = text.count '\n' + 1 := by
  rw [List.splitOn_eq_splitOnP]
  induction text with
  | nil => rfl
  | cons c cs ih =>
      rw [List.splitOnP_cons_eq_if_modifyHead, List.count_cons]
      split_ifs with hc
      · rw [List.length_cons, ih]
      · rw [List.length_modifyHead, ih, Nat.add_zero]

/-! ## Result lines -/

theorem ofEntries_of_lt {key key' : String} (j j' : Json) (h : key < key') :
    Json.ofEntries [(key, j), (key', j')] = .object [(key, j), (key', j')] := by
  have hnot : ¬key' < key := fun h' => String.lt_irrefl key (String.lt_trans h h')
  have hne : key' ≠ key := fun he => String.lt_irrefl key (he ▸ h)
  simp [Json.ofEntries, SortedMap.ofList, SortedMap.insert, SortedMap.empty, Entries.put, hnot, hne]

theorem ofEntries_of_gt {key key' : String} (j j' : Json) (h : key' < key) :
    Json.ofEntries [(key, j), (key', j')] = .object [(key', j'), (key, j)] := by
  simp [Json.ofEntries, SortedMap.ofList, SortedMap.insert, SortedMap.empty, Entries.put, h]

/-- The number of a line, as JSON data. -/
abbrev numberJson (number : Nat) : Json := Json.ofInt64 (Int64.ofNat number)

section
variable (number : Nat)

theorem toJson_notJson (complaint : String) : toJson number (.notJson complaint) =
    .object [("error", .string complaint), ("line", numberJson number)] :=
  ofEntries_of_gt _ _ (by decide)

theorem toJson_refused (e : CastError) : toJson number (.refused e) =
    .object [("error", .string e.message), ("line", numberJson number)] :=
  ofEntries_of_gt _ _ (by decide)

theorem toJson_first (value : Option String) : toJson number (.first value) =
    .object [("line", numberJson number), ("value", (value.map Json.string).getD .null)] :=
  ofEntries_of_lt _ _ (by decide)

theorem toJson_matched (names : List String) : toJson number (.matched names) =
    .object [("line", numberJson number), ("matched", Json.ofStrings names)] :=
  ofEntries_of_lt _ _ (by decide)

end

/-- A member of a result line further down: its line number is that many more. -/
def laterMember (lines : Nat) : String × Json → String × Json
  | ("line", .number (.int n)) => ("line", .number (.int (n + Int64.ofNat lines)))
  | member => member

/-- The same result so many lines further down. -/
def later (lines : Nat) : Json → Json
  | .object members => .object (members.map (laterMember lines))
  | j => j

theorem laterMember_line (lines number : Nat) :
    laterMember lines ("line", numberJson number) = ("line", numberJson (number + lines)) := by
  simp [laterMember, Json.ofInt64, Int64.ofNat_add]

theorem laterMember_of_ne (lines : Nat) {key : String} (j : Json) (h : key ≠ "line") :
    laterMember lines (key, j) = (key, j) := by
  unfold laterMember
  split
  · rename_i heq
    exact absurd (congrArg Prod.fst heq) h
  · rfl

theorem later_lineFirst (lines number : Nat) {key : String} (j : Json) (h : key ≠ "line") :
    later lines (.object [("line", numberJson number), (key, j)]) =
      .object [("line", numberJson (number + lines)), (key, j)] := by
  rw [later, List.map_cons, List.map_singleton, laterMember_line, laterMember_of_ne _ _ h]

theorem later_lineLast (lines number : Nat) {key : String} (j : Json) (h : key ≠ "line") :
    later lines (.object [(key, j), ("line", numberJson number)]) =
      .object [(key, j), ("line", numberJson (number + lines))] := by
  rw [later, List.map_cons, List.map_singleton, laterMember_line, laterMember_of_ne _ _ h]

theorem later_toJson (lines number : Nat) (result : Result) :
    later lines (toJson number result) = toJson (number + lines) result := by
  cases result with
  | notJson complaint =>
      rw [toJson_notJson, toJson_notJson]
      exact later_lineLast lines number _ (by decide)
  | refused e =>
      rw [toJson_refused, toJson_refused]
      exact later_lineLast lines number _ (by decide)
  | first value =>
      rw [toJson_first, toJson_first]
      exact later_lineFirst lines number _ (by decide)
  | matched names =>
      rw [toJson_matched, toJson_matched]
      exact later_lineFirst lines number _ (by decide)

section
variable (backend : Backend) (registry : Registry) (set : RuleSet) (firstOnly : Bool)

/-- The result line that a record gives on a line with a number. -/
inductive Reported (number : Nat) (record : List Char) : Bool → Json → Prop
  | notJson {firstOnly : Bool} (h : Json.ofChars? Json.maxNesting record = none) :
      Reported number record firstOnly
        (.object [("error", .string (backend.complaint record)), ("line", numberJson number)])
  | refused {firstOnly : Bool} {j : Json} {e : CastError} (hj : Json.ofChars? Json.maxNesting record = some j)
      (h : Context.ofJson j = .error e) :
      Reported number record firstOnly (.object [("error", .string e.message), ("line", numberJson number)])
  | value {j : Json} {context : Option Context} {v : String} (hj : Json.ofChars? Json.maxNesting record = some j)
      (hcontext : Context.ofJson j = .ok context) (h : set.first registry context = some v) :
      Reported number record true (.object [("line", numberJson number), ("value", .string v)])
  | noValue {j : Json} {context : Option Context} (hj : Json.ofChars? Json.maxNesting record = some j)
      (hcontext : Context.ofJson j = .ok context) (h : set.first registry context = none) :
      Reported number record true (.object [("line", numberJson number), ("value", .null)])
  | matched {j : Json} {context : Option Context} (hj : Json.ofChars? Json.maxNesting record = some j)
      (hcontext : Context.ofJson j = .ok context) :
      Reported number record false
        (.object [("line", numberJson number), ("matched", Json.ofStrings (set.matching registry context))])

/-- The result line of a record is the one that the check of the record gives. -/
theorem reported_iff {number : Nat} {record : List Char} {j : Json} :
    Reported backend registry set number record firstOnly j ↔
      j = toJson number (checkRecord backend registry set firstOnly record) := by
  constructor
  · intro h
    cases h with
    | notJson h => simp only [checkRecord, h, toJson_notJson]
    | refused hj h => simp only [checkRecord, hj, h, toJson_refused]
    | value hj hcontext h => simp only [checkRecord, hj, hcontext, if_true, h, toJson_first]; rfl
    | noValue hj hcontext h => simp only [checkRecord, hj, hcontext, if_true, h, toJson_first]; rfl
    | matched hj hcontext => simp only [checkRecord, hj, hcontext, if_neg Bool.false_ne_true, toJson_matched]
  · rintro rfl
    cases hj : Json.ofChars? Json.maxNesting record with
    | none =>
        simp only [checkRecord, hj, toJson_notJson]
        exact .notJson hj
    | some j =>
        cases hcontext : Context.ofJson j with
        | error e =>
            simp only [checkRecord, hj, hcontext, toJson_refused]
            exact .refused hj hcontext
        | ok context =>
            cases firstOnly with
            | false =>
                simp only [checkRecord, hj, hcontext, if_neg Bool.false_ne_true, toJson_matched]
                exact .matched hj hcontext
            | true =>
                simp only [checkRecord, hj, hcontext, if_true, toJson_first]
                cases h : set.first registry context with
                | none => exact .noValue hj hcontext h
                | some v => exact .value hj hcontext h

/-- A numbered line gives one result line only. -/
theorem rightUnique_reported : Relator.RightUnique fun (p : List Char × Nat) j =>
    Reported backend registry set p.2 (Text.trim p.1) firstOnly j := by
  intro p j j' h h'
  rw [(reported_iff _ _ _ _).1 h, (reported_iff _ _ _ _).1 h']

/-! ## Whole texts -/

/-- The result of a numbered line; none if nothing stands on it. -/
def resultOf : List Char × Nat → Option Json
  | (line, number) =>
      if Text.trim line = [] then none
      else some (toJson number (checkRecord backend registry set firstOnly (Text.trim line)))

theorem map_numbered (number : Nat) (ls : List (List Char)) :
    ((numbered number ls).map
        fun (number, record) => toJson number (checkRecord backend registry set firstOnly record)) =
      (ls.zipIdx number).filterMap (resultOf backend registry set firstOnly) := by
  induction ls generalizing number with
  | nil => rfl
  | cons line rest ih =>
      rw [numbered, List.zipIdx_cons, List.filterMap_cons, resultOf]
      split_ifs with hblank
      · exact ih (number + 1)
      · rw [List.map_cons, ih]

/-- Numbers that start later are later all along. -/
theorem filterMap_resultOf_add (ls : List (List Char)) (number lines : Nat) :
    (ls.zipIdx (number + lines)).filterMap (resultOf backend registry set firstOnly) =
      ((ls.zipIdx number).filterMap (resultOf backend registry set firstOnly)).map (later lines) := by
  induction ls generalizing number with
  | nil => rfl
  | cons line rest ih =>
      have hrest := ih (number + 1)
      rw [Nat.add_right_comm] at hrest
      rw [List.zipIdx_cons, List.zipIdx_cons, List.filterMap_cons, List.filterMap_cons, resultOf, resultOf, hrest]
      split_ifs
      · rfl
      · rw [List.map_cons, later_toJson]

/-- One result for each line with something on it. -/
theorem forall₂_reported (numberedLines : List (List Char × Nat)) :
    List.Forall₂ (fun p j => Reported backend registry set p.2 (Text.trim p.1) firstOnly j)
      (numberedLines.filter fun p => Text.trim p.1 ≠ [])
      (numberedLines.filterMap (resultOf backend registry set firstOnly)) := by
  induction numberedLines with
  | nil => exact .nil
  | cons p rest ih =>
      obtain ⟨line, number⟩ := p
      rw [List.filterMap_cons, resultOf]
      by_cases hblank : Text.trim line = []
      · rw [if_pos hblank, List.filter_cons_of_neg (by simpa using hblank)]
        exact ih
      · rw [if_neg hblank, List.filter_cons_of_pos (by simpa using hblank)]
        exact .cons ((reported_iff _ _ _ _).2 rfl) ih

variable {backend} (horder : backend.KeepsOrder)
include horder

theorem check_eq (text : List Char) : check backend registry set firstOnly text =
    ((text.splitOn '\n').zipIdx 1).filterMap (resultOf backend registry set firstOnly) := by
  rw [check, horder, records, map_numbered, lines_eq_splitOn]

theorem check_append (a b : List Char) : check backend registry set firstOnly (a ++ '\n' :: b) =
    check backend registry set firstOnly a ++
      (check backend registry set firstOnly b).map (later (a.count '\n' + 1)) := by
  rw [check_eq _ _ _ horder, check_eq _ _ _ horder, check_eq _ _ _ horder, splitOn_append, List.zipIdx_append,
    List.filterMap_append, length_splitOn, filterMap_resultOf_add]

theorem check_replace (a b : List Char) {line : List Char} (h : '\n' ∉ line) :
    check backend registry set firstOnly (a ++ '\n' :: (line ++ '\n' :: b)) =
      check backend registry set firstOnly a ++
        (check backend registry set firstOnly line).map (later (a.count '\n' + 1)) ++
        (check backend registry set firstOnly b).map (later (a.count '\n' + 2)) := by
  have hbehind : ((check backend registry set firstOnly b).map (later 1)).map (later (a.count '\n' + 1)) =
      (check backend registry set firstOnly b).map (later (a.count '\n' + 2)) := by
    rw [check_eq _ _ _ horder, ← filterMap_resultOf_add, ← filterMap_resultOf_add, ← filterMap_resultOf_add]
    congr 2
    omega
  rw [check_append _ _ _ horder, check_append _ _ _ horder, List.count_eq_zero_of_not_mem h, List.map_append,
    hbehind, List.append_assoc]

/-- The result lines of two texts with a line feed between them are those of the first and, with their numbers going
on from it, those of the second, as data and as they are printed. There is one for each line with something on it, in
the order of the lines: it has the number of its line, counted from one, and beside it what that line alone gives,
the value or the names for a record and otherwise an error. So whatever stands on one line, a record or not, the
result lines before it and behind it are the same. -/
theorem check_linewise :
    (∀ a b, check backend registry set firstOnly (a ++ '\n' :: b) =
      check backend registry set firstOnly a ++
        (check backend registry set firstOnly b).map (later (a.count '\n' + 1))) ∧
    (∀ a b, report backend registry set firstOnly (a ++ '\n' :: b) =
      report backend registry set firstOnly a ++
        ((check backend registry set firstOnly b).map (later (a.count '\n' + 1))).map Json.text) ∧
    (∀ text, List.Forall₂ (fun p j => Reported backend registry set p.2 (Text.trim p.1) firstOnly j)
      (((text.splitOn '\n').zipIdx 1).filter fun p => Text.trim p.1 ≠ [])
      (check backend registry set firstOnly text)) ∧
    ∀ a line b, '\n' ∉ line → check backend registry set firstOnly (a ++ '\n' :: (line ++ '\n' :: b)) =
      check backend registry set firstOnly a ++
        (check backend registry set firstOnly line).map (later (a.count '\n' + 1)) ++
        (check backend registry set firstOnly b).map (later (a.count '\n' + 2)) := by
  refine ⟨check_append _ _ _ horder, ?_, ?_, fun a line b h => check_replace _ _ _ horder a b h⟩
  · intro a b
    rw [report, check_append _ _ _ horder, List.map_append, report]
  · intro text
    rw [check_eq _ _ _ horder]
    exact forall₂_reported _ _ _ _ _

end

/-- Two workers, one for each half of the records, and a reader that names the place where it gives up. -/
def twoWorkers : Backend where
  complaint _ := "expected ident at line 1 column 2"
  each f records :=
    (records.take (records.length / 2)).map f ++ (records.drop (records.length / 2)).map f

theorem keepsOrder_twoWorkers : twoWorkers.KeepsOrder := by
  intro f records
  change (records.take (records.length / 2)).map f ++ (records.drop (records.length / 2)).map f = records.map f
  rw [← List.map_append, List.take_append_drop]

/-- The rule that the age is over 43, and a default for the records that it does not hold for. -/
def seniorsAndOthers : RuleSet := ⟨(RuleSet.compiledSeniors "age").rules, some "other"⟩

theorem first_seniorsAndOthers (context : Context) : seniorsAndOthers.first .builtin (some context) =
    if (Expr.verdict ((Expr.binary (.value (.compare .gt)) (.ident "age") (.literal (.int 43))).eval .builtin
      context)).toOption.getD false then some "senior" else some "other" := by
  have hmatch := @Rule.isMatch_of_parse ⟨"senior", "age" ++ " > 43", ["age"], "senior"⟩ _ RuleSet.parse_age .builtin
  rw [RuleSet.first, seniorsAndOthers, RuleSet.compiledSeniors, RuleSet.firstOf, hmatch]
  rfl

/-- Two records with a blank line between them, and a line that is no record. -/
def threeRecords : List Char := "\x7b\"age\":50\x7d\n \n\x7b\"age\":5\x7d\r\nnot json".toList

def threeResults : List Json :=
  [.object [("line", numberJson 1), ("value", .string "senior")],
    .object [("line", numberJson 3), ("value", .string "other")],
    .object [("error", .string "expected ident at line 1 column 2"), ("line", numberJson 4)]]

theorem reported_threeRecords :
    List.Forall₂ (fun p j => Reported twoWorkers .builtin seniorsAndOthers p.2 (Text.trim p.1) true j)
      (((threeRecords.splitOn '\n').zipIdx 1).filter fun p => Text.trim p.1 ≠ []) threeResults := by
  have hlines : (((threeRecords.splitOn '\n').zipIdx 1).filter fun p => Text.trim p.1 ≠ []) =
      [("\x7b\"age\":50\x7d".toList, 1), ("\x7b\"age\":5\x7d\r".toList, 3), ("not json".toList, 4)] := by
    decide +kernel
  have hfifty : Json.ofChars? Json.maxNesting (Text.trim "\x7b\"age\":50\x7d".toList) =
      some (.object [("age", .number (.int 50))]) := by cbv
  have hfive : Json.ofChars? Json.maxNesting (Text.trim "\x7b\"age\":5\x7d\r".toList) =
      some (.object [("age", .number (.int 5))]) := by cbv
  have hbad : Json.ofChars? Json.maxNesting (Text.trim "not json".toList) = none := by cbv
  rw [hlines]
  refine .cons (.value hfifty rfl ?_) (.cons (.value hfive rfl ?_) (.cons (.notJson hbad) .nil))
  · exact first_seniorsAndOthers _
  · exact first_seniorsAndOthers _

/-- Checked by two workers, the three records give their result lines in order. The blank line is counted, and what is
no record gives an error on its own line only. -/
theorem check_linewise_threeRecords :
    twoWorkers.KeepsOrder ∧ report twoWorkers .builtin seniorsAndOthers true threeRecords =
      ["\x7b\"line\":1,\"value\":\"senior\"\x7d", "\x7b\"line\":3,\"value\":\"other\"\x7d",
        "\x7b\"error\":\"expected ident at line 1 column 2\",\"line\":4\x7d"] := by
  obtain ⟨-, -, hreported, -⟩ := check_linewise .builtin seniorsAndOthers true keepsOrder_twoWorkers
  have hcheck : check twoWorkers .builtin seniorsAndOthers true threeRecords = threeResults :=
    List.right_unique_forall₂' (rightUnique_reported _ _ _ _) (hreported threeRecords) reported_threeRecords
  have htext : threeResults.map Json.text =
      ["\x7b\"line\":1,\"value\":\"senior\"\x7d", "\x7b\"line\":3,\"value\":\"other\"\x7d",
        "\x7b\"error\":\"expected ident at line 1 column 2\",\"line\":4\x7d"] := by decide +kernel
  refine ⟨keepsOrder_twoWorkers, ?_⟩
  rw [report, hcheck, htext]

end RecordRules.Batch
