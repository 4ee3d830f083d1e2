import RecordRules.Expr.Library
import RecordRules.Proofs.Evaluation.Text
import RecordRules.Proofs.Grammar.Writing
import RecordRules.Proofs.SortedMap
import RecordRules.Session

/-!
# Registries over whole runs

What the registries of a session hold after any sequence of registrations, creations and copies. The measure of a
registry is its *log*, the list of the registrations that made it, in order: a registration adds to the log of one
registry, a creation starts a new one, and a copy takes over the log of its source. A registry holds for each name
the last function of its log, however the logs of other registries go on.

Evaluation reads the shared registry only, and of its log only the last registration of each name.
-/
namespace RecordRules

/-! ## Registrations one after the other -/

namespace Registry

variable {r r' : Registry} {name : String} {f : Function} {es ds : List (String × Function)}

theorem mem_names_iff : name ∈ r.names ↔ ∃ f, r.get? name = some f := SortedMap.mem_keys_iff

theorem contains_iff : r.contains name = true ↔ ∃ f, r.get? name = some f := Option.isSome_iff_exists

theorem eq_of_get? (h : ∀ name, r.get? name = r'.get? name) : r = r' := congrArg mk (SortedMap.eq_of_get? h)

/-- The registry after the registrations of a list. -/
def registerAll (r : Registry) (es : List (String × Function)) : Registry :=
  es.foldl (fun r e => r.register e.1 e.2) r

theorem registerAll_append : r.registerAll (es ++ ds) = (r.registerAll es).registerAll ds := List.foldl_append

/-- A name has the last function that the list registers under it, or else the function that it had before. -/
theorem get?_registerAll : (r.registerAll es).get? name = (es.reverse.lookup name).or (r.get? name) := by
  induction es generalizing r with
  | nil => rfl
  | cons e es ih =>
      obtain ⟨key, g⟩ := e
      have hfirst : (r.register key g).get? name = ([(key, g)].lookup name).or (r.get? name) := by
        rw [List.lookup_cons]
        by_cases hname : name = key
        · rw [hname, get?_register_self, beq_self_eq_true]
          rfl
        · rw [get?_register_of_ne r g hname, beq_false_of_ne hname]
          rfl
      calc (r.registerAll ((key, g) :: es)).get? name
          = (es.reverse.lookup name).or ((r.register key g).get? name) := ih
        _ = ((es.reverse.lookup name).or ([(key, g)].lookup name)).or (r.get? name) := by
            rw [hfirst, Option.or_assoc]
        _ = (((key, g) :: es).reverse.lookup name).or (r.get? name) := by
            rw [List.reverse_cons, List.lookup_append]

/-- The list registers the function under the name, and nothing under it afterwards. -/
def LastRegistered (es : List (String × Function)) (name : String) (f : Function) : Prop :=
  ∃ before after, es = before ++ (name, f) :: after ∧ ∀ e ∈ after, e.1 ≠ name

theorem lookup_reverse_eq_some_iff : es.reverse.lookup name = some f ↔ LastRegistered es name f := by
  rw [List.lookup_eq_some_iff]
  constructor
  · rintro ⟨after, before, hes, hafter⟩
    refine ⟨before.reverse, after.reverse, ?_, fun e he => ?_⟩
    · rw [← List.reverse_reverse es, hes]
      simp
    · exact (bne_iff_ne.1 (hafter e (List.mem_reverse.1 he))).symm
  · rintro ⟨before, after, rfl, hafter⟩
    refine ⟨after.reverse, before.reverse, by simp, fun e he => ?_⟩
    exact bne_iff_ne.2 (hafter e (List.mem_reverse.1 he)).symm

theorem get?_empty_registerAll : (empty.registerAll es).get? name = es.reverse.lookup name := by
  have hempty : empty.get? name = none := rfl
  rw [get?_registerAll, hempty, Option.or_none]

/-- The names are those under which the list registers a function. -/
theorem mem_names_empty_registerAll : name ∈ (empty.registerAll es).names ↔ ∃ f, (name, f) ∈ es := by
  rw [mem_names_iff, get?_empty_registerAll, ← Option.isSome_iff_exists, List.lookup_isSome_iff]
  simp

end Registry

/-! ## Steps -/

/-- A registry of a session: the one that expression text uses, or a further one by its name. -/
inductive Table where
  | shared
  | slot (name : String)
deriving DecidableEq

/-- What a session does to its registries. -/
inductive RegistryStep where
  | register (t : Table) (name : String) (f : Function)
  /-- Makes a further registry of the built-in functions. -/
  | create (slot : String)
  | createEmpty (slot : String)
  | clone (slot source : String)

namespace RegistryStep

/-- The registry that a step writes. -/
def target : RegistryStep → Table
  | register t _ _ => t
  | create slot | createEmpty slot | clone slot _ => .slot slot

/-- What a step makes of its target, given the registries before. -/
def outcome (read : Table → Registry) : RegistryStep → Registry
  | register t name f => (read t).register name f
  | create _ => .builtin
  | createEmpty _ => .empty
  | clone _ source => read (.slot source)

/-- What a step registers with a registry. -/
def registration? (t : Table) : RegistryStep → Option (String × Function)
  | register t' name f => if t' = t then some (name, f) else none
  | _ => none

/-- The registrations that a registry of built-in functions starts with. -/
def seeds : List (String × Function) := [("in_array", Function.inArray)]

/-- The log of the target after a step, given the logs before. -/
def newLog (logs : Table → List (String × Function)) : RegistryStep → List (String × Function)
  | register t name f => logs t ++ [(name, f)]
  | create _ => seeds
  | createEmpty _ => []
  | clone _ source => logs (.slot source)

/-- The logs after a step: only that of its target changes. -/
def advance (logs : Table → List (String × Function)) (step : RegistryStep) (t : Table) :
    List (String × Function) :=
  if t = step.target then step.newLog logs else logs t

variable {step : RegistryStep} {logs : Table → List (String × Function)} {t : Table} {steps : List RegistryStep}

/-- As long as a registry is not made anew, its log grows by what is registered with it. -/
theorem advance_of_registration (h : step.target = t → (step.registration? t).isSome) :
    advance logs step t = logs t ++ (step.registration? t).toList := by
  rw [advance]
  split_ifs with ht
  · subst ht
    cases step with
    | register t name f => simp [newLog, registration?, target]
    | create slot => exact nomatch h rfl
    | createEmpty slot => exact nomatch h rfl
    | clone slot source => exact nomatch h rfl
  · have hnone : step.registration? t = none := by
      cases step with
      | register t' name f => exact if_neg (Ne.symm ht)
      | create slot => rfl
      | createEmpty slot => rfl
      | clone slot source => rfl
    rw [hnone, Option.toList_none, List.append_nil]

/-- What the steps register with a registry, in order. -/
def registrationsOn (t : Table) (steps : List RegistryStep) : List (String × Function) :=
  steps.filterMap (registration? t)

theorem foldl_advance_of_registrations (h : ∀ step ∈ steps, step.target = t → (step.registration? t).isSome) :
    steps.foldl advance logs t = logs t ++ registrationsOn t steps := by
  induction steps generalizing logs with
  | nil => exact (List.append_nil _).symm
  | cons step steps ih =>
      have hcons : registrationsOn t (step :: steps) = (step.registration? t).toList ++ registrationsOn t steps := by
        rw [registrationsOn, List.filterMap_cons, registrationsOn]
        cases step.registration? t <;> rfl
      rw [List.foldl_cons, ih fun s hs => h s (List.mem_cons_of_mem _ hs),
        advance_of_registration (h step List.mem_cons_self), hcons, List.append_assoc]

end RegistryStep

/-! ## Runs -/

namespace Session

open RegistryStep

def table (s : Session) : Table → Registry
  | .shared => s.registry
  | .slot name => s.slot name

def apply (s : Session) : RegistryStep → Session
  | .register .shared name f => s.register name f
  | .register (.slot slot) name f => s.registerIn slot name f
  | .create slot => s.store slot .builtin
  | .createEmpty slot => s.store slot .empty
  | .clone slot source => s.store slot (s.slot source)

/-- The session after a sequence of steps. -/
def run (steps : List RegistryStep) : Session := steps.foldl apply start

/-- The logs at the start: only the shared registry is there, with the built-in functions. -/
def startLog : Table → List (String × Function)
  | .shared => seeds
  | .slot _ => []

/-- The log of a registry after a sequence of steps. -/
def log (steps : List RegistryStep) (t : Table) : List (String × Function) :=
  steps.foldl advance startLog t

variable {s : Session} {logs : Table → List (String × Function)} {steps steps' : List RegistryStep} {t : Table}

theorem table_store (s : Session) (slot : String) (r : Registry) (t : Table) :
    (s.store slot r).table t = if t = .slot slot then r else s.table t := by
  cases t with
  | shared => rfl
  | slot name =>
      by_cases hname : name = slot
      · subst hname
        simp [table, store, Session.slot, SortedMap.get?_insert_self]
      · have hne : Table.slot name ≠ .slot slot := fun h => hname (Table.slot.inj h)
        rw [if_neg hne]
        simp only [table, store, Session.slot, SortedMap.get?_insert_of_ne _ _ hname]

/-- A step writes its target and leaves every other registry alone. -/
theorem table_apply (s : Session) (step : RegistryStep) (t : Table) :
    (s.apply step).table t = if t = step.target then step.outcome s.table else s.table t := by
  cases step with
  | register t' name f =>
      cases t' with
      | shared => cases t <;> rfl
      | slot slot => exact table_store s slot _ t
  | create slot => exact table_store s slot _ t
  | createEmpty slot => exact table_store s slot _ t
  | clone slot source => exact table_store s slot _ t

/-- If the registries are what their logs make of them, they still are after a step. -/
theorem table_apply_eq_registerAll (h : ∀ t, s.table t = Registry.empty.registerAll (logs t))
    (step : RegistryStep) (t : Table) :
    (s.apply step).table t = Registry.empty.registerAll (advance logs step t) := by
  rw [table_apply, advance]
  split_ifs
  · cases step with
    | register t' name f =>
        rw [outcome, h t', newLog, Registry.registerAll_append]
        rfl
    | create slot => rfl
    | createEmpty slot => rfl
    | clone slot source => exact h (.slot source)
  · exact h t

theorem table_foldl_apply (h : ∀ t, s.table t = Registry.empty.registerAll (logs t)) (t : Table) :
    (steps.foldl apply s).table t = Registry.empty.registerAll (steps.foldl advance logs t) := by
  induction steps generalizing s logs with
  | nil => exact h t
  | cons step steps ih => exact ih (table_apply_eq_registerAll h step)

/-- After every run, each registry is what its log makes of it. -/
theorem table_run (steps : List RegistryStep) (t : Table) :
    (run steps).table t = Registry.empty.registerAll (log steps t) := by
  refine table_foldl_apply (fun t => ?_) t
  cases t <;> rfl

/-! ## Copies and two runs -/

/-- The shared registry is never made anew. -/
theorem log_shared (steps : List RegistryStep) :
    log steps .shared = seeds ++ registrationsOn .shared steps := by
  refine foldl_advance_of_registrations fun step _ hstep => ?_
  cases step with
  | register t name f =>
      have ht : t = .shared := hstep
      subst ht
      rfl
  | create slot => exact nomatch hstep
  | createEmpty slot => exact nomatch hstep
  | clone slot source => exact nomatch hstep

/-- A copy and its source have one log at first. -/
theorem advance_clone {slot source : String} (h : t = .slot slot ∨ t = .slot source) :
    advance logs (.clone slot source) t = logs (.slot source) := by
  rw [advance]
  split_ifs with ht
  · rfl
  · rw [h.resolve_left ht]

/-- A copy and its source go on from what the source was, each by its own registrations. -/
theorem table_run_clone {slot source : String} {later : List RegistryStep}
    (ht : t = .slot slot ∨ t = .slot source)
    (hlater : ∀ step ∈ later, step.target = t → (step.registration? t).isSome) :
    (run (steps ++ .clone slot source :: later)).table t =
      ((run steps).table (.slot source)).registerAll (registrationsOn t later) := by
  have hlog : log (steps ++ .clone slot source :: later) t =
      log steps (.slot source) ++ registrationsOn t later := by
    rw [log, List.foldl_append, List.foldl_cons, foldl_advance_of_registrations hlater, advance_clone ht,
      log]
  rw [table_run, hlog, Registry.registerAll_append, ← table_run]

/-- The shared registry depends on the last registration of each name alone. -/
theorem registry_run_eq (h : ∀ name f, Registry.LastRegistered (registrationsOn .shared steps) name f ↔
      Registry.LastRegistered (registrationsOn .shared steps') name f) :
    (run steps).registry = (run steps').registry := by
  refine Registry.eq_of_get? fun name => ?_
  have hlookup : (registrationsOn .shared steps).reverse.lookup name =
      (registrationsOn .shared steps').reverse.lookup name := by
    refine Option.ext fun f => ?_
    rw [Registry.lookup_reverse_eq_some_iff, Registry.lookup_reverse_eq_some_iff, h name f]
  have hread : ∀ steps, (run steps).registry.get? name =
      ((registrationsOn .shared steps).reverse.lookup name).or (Registry.builtin.get? name) := by
    intro steps
    have htable : (run steps).registry = Registry.builtin.registerAll (registrationsOn .shared steps) := by
      have hrun := table_run steps .shared
      rwa [log_shared, Registry.registerAll_append] at hrun
    rw [htable, Registry.get?_registerAll]
  rw [hread, hread, hlookup]

/-- After every run of registrations, creations and copies: each registry shows in ascending order exactly the names
of its log, finds a function under exactly these, and finds the last one of its log; a copy and its source
take no notice of each other's registrations; and evaluation depends on the last registration of each name with the
shared registry alone. -/
theorem registries_last_write (steps : List RegistryStep) :
    (∀ t, ((run steps).table t).names.Pairwise (· < ·) ∧ ∀ name,
      (name ∈ ((run steps).table t).names ↔ ∃ f, (name, f) ∈ log steps t) ∧
      (((run steps).table t).contains name = true ↔ name ∈ ((run steps).table t).names) ∧
      ((∃ f, ((run steps).table t).get? name = some f) ↔ name ∈ ((run steps).table t).names) ∧
      ∀ f, ((run steps).table t).get? name = some f ↔ Registry.LastRegistered (log steps t) name f) ∧
    (∀ (slot source : String) (later : List RegistryStep) (t : Table),
      t = .slot slot ∨ t = .slot source →
      (∀ step ∈ later, step.target = t → (step.registration? t).isSome) →
      (run (steps ++ .clone slot source :: later)).table t =
        ((run steps).table (.slot source)).registerAll (registrationsOn t later)) ∧
    ∀ steps', (∀ name f, Registry.LastRegistered (registrationsOn .shared steps) name f ↔
        Registry.LastRegistered (registrationsOn .shared steps') name f) →
      ∀ text context, Expr.evaluate (run steps).registry text context =
        Expr.evaluate (run steps').registry text context := by
  refine ⟨fun t => ⟨SortedMap.keys_ascending _, fun name => ⟨?_, ?_, Registry.mem_names_iff.symm, fun f => ?_⟩⟩,
    fun slot source later t => table_run_clone, fun steps' h text context => by rw [registry_run_eq h]⟩
  · rw [table_run, Registry.mem_names_empty_registerAll]
  · rw [Registry.contains_iff, Registry.mem_names_iff]
  · rw [table_run, Registry.get?_empty_registerAll, Registry.lookup_reverse_eq_some_iff]

/-- A registry with a function of its own, while the shared function of that name is replaced. -/
def answers : List RegistryStep :=
  [.create "a", .register (.slot "a") "answer" (.constant (.int 1)),
    .register .shared "answer" (.constant (.int 1)), .register .shared "answer" (.constant (.int 42))]

/-- A copy keeps the function that its source had when that of the source is replaced, and evaluation is the same
as after the last shared registration alone. -/
theorem registries_last_write_answers :
    ((run (answers ++ [.clone "b" "a", .register (.slot "a") "answer" (.constant (.int 42))])).table
        (.slot "b")).get? "answer" = some (.constant (.int 1)) ∧
      Expr.evaluate (run answers).registry "answer()" .empty = .ok (.int 42) := by
  obtain ⟨-, hcopy, hevaluate⟩ := registries_last_write answers
  have hb := hcopy "b" "a" [.register (.slot "a") "answer" (.constant (.int 42))] (.slot "b") (.inl rfl)
    (by simp [target])
  have hlast : ∀ name f, Registry.LastRegistered (registrationsOn .shared answers) name f ↔
      Registry.LastRegistered
        (registrationsOn .shared [.register .shared "answer" (.constant (.int 42))]) name f := by
    intro name f
    have hanswers : registrationsOn .shared answers =
        [("answer", .constant (.int 1)), ("answer", .constant (.int 42))] := rfl
    rw [← Registry.lookup_reverse_eq_some_iff, ← Registry.lookup_reverse_eq_some_iff, hanswers]
    by_cases hname : name = "answer"
    · subst hname
      exact Iff.rfl
    · simp [registrationsOn, registration?, List.lookup_cons, beq_false_of_ne hname]
  refine ⟨?_, ?_⟩
  · rw [hb]
    rfl
  · have htext : "answer()" = "answer" ++ "()" := by decide
    have hparse : Expr.parse "answer()" = .ok (.call "answer" []) :=
      htext ▸ Grammar.parse_call_nil (Token.isName_of_chars rfl (by decide)) rfl
    rw [hevaluate _ hlast "answer()" .empty, Expr.evaluate_of_parse hparse]
    rfl

end Session

end RecordRules
