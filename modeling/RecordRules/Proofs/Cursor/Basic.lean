import Mathlib.Order.Filter.AtTopBot.Basic
import RecordRules.Proofs.Grammar.Derivation
import RecordRules.Expr.Parser

/-!
# A cursor over the tokens

The parser as a program with two variables: a position in a list of tokens, which only grows, and a counter of the
unary expressions that it is inside of, which each of them raises and lowers again. The end of the tokens is a mark
in the list, and behind the list everything counts as the end.

Unlike the parser of the library, which is handed the tokens that are left and the nesting that is left, nothing in
this program bounds it: routines call each other, loops call themselves, and one that goes on forever has no answer.
So a routine is first given what it calls (`body`), and then what it calls may be nested deeper and deeper (`within`).
The answer that this settles on is that of the program (`run`), and it is what the body makes of such answers
(`run_eq`). That every routine has an answer, and what becomes of the two variables, is proved in
`Proofs.Cursor.Balance`.
-/
namespace RecordRules

open Grammar Filter

structure Cursor where
  position : Nat
  /-- How many unary expressions have been entered and not been left. -/
  depth : Nat

namespace Cursor

/-- A run moves the cursor. It may fail, and if it goes on forever its answer is `none`. -/
abbrev Run (α : Type) := StateT Cursor (ExceptT ParseError Option) α

section
-- A token of the list is `none` if it is the mark of the end.
variable (tokens : List (Option Token))

/-- The token at a position. There is none at a mark of the end and behind the list. -/
def tokenAt (i : Nat) : Option Token := tokens[i]?.join

def peekAt (offset : Nat) : Run (Option Token) := do
  return tokenAt tokens ((← get).position + offset)

def peek : Run (Option Token) := peekAt tokens 0

def skip (n : Nat) : Run Unit := modify fun c => { c with position := c.position + n }

def advance : Run (Option Token) := do
  let t ← peek tokens
  skip 1
  return t

def expect (wanted : Symbol) : Run Unit := do
  let t ← advance tokens
  if t = some (.symbol wanted) then
    return ()
  else
    throw (.expected wanted t)

def enter : Run Unit := modify fun c => { c with depth := c.depth + 1 }

def leave : Run Unit := modify fun c => { c with depth := c.depth - 1 }

/-- The operator of a level that this token is. -/
def binaryOp? (l : Level) : Option Token → Option BinaryOp
  | some (.symbol s) => l.op? s
  | _ => none

/-- The operator of a unary expression that starts with this token. -/
def unaryOp? : Option Token → Option UnaryOp
  | some (.symbol .bang) => some .not
  | some (.symbol .minus) => some .neg
  | _ => none

/-- Whether the tokens behind an opening bracket make it the start of a typed list. -/
def opensTyped : Option Token → Option Token → Option Token → Bool
  | some (.symbol .rbracket), some (.ident _), some (.symbol .lbrace) => true
  | _, _, _ => false

end

/-! ## Routines -/

/-- What can be called. Two of the routines are loops, with what they have read so far. -/
inductive Routine where
  | phrase (p : Phrase)
  | operands (l : Level) (left : Expr)
  | primary
  | list
  | items (close : Symbol)
  | collect (close : Symbol) (es : List Expr)

namespace Routine

/-- What a routine reads. -/
abbrev Result : Routine → Type
  | phrase _ | operands .. | primary | list => Expr
  | items _ | collect .. => List Expr

def isLoop : Routine → Bool
  | operands .. | collect .. => true
  | phrase _ | primary | list | items _ => false

end Routine

section
variable (tokens : List (Option Token)) (call : (r : Routine) → Run r.Result)

/-- What a unary expression reads between raising the counter and lowering it. -/
def signed : Run Expr := do
  match unaryOp? (← peek tokens) with
  | some op =>
      skip 1
      let operand ← call (.phrase .unary)
      return .unary op operand
  | none => call .primary

/-- What a name is the start of, once it is taken. -/
def named (name : String) : Run Expr := do
  match word? name with
  | some v => return .literal v
  | none =>
      if (← peek tokens) = some (.symbol .lparen) then
        skip 1
        let args ← call (.items .rparen)
        return .call name args
      else
        return .ident name

/-- The routines, with what they call as a parameter. -/
def body : (r : Routine) → Run r.Result
  | .phrase .unary => do
      enter
      if maxNesting < (← get).depth then
        throw .tooDeep
      else
        let e ← signed tokens call
        leave
        return e
  | .phrase (.binary l) => do
      let left ← call (.phrase l.operand)
      call (.operands l left)
  | .operands l left => do
      match binaryOp? l (← peek tokens) with
      | some op =>
          skip 1
          let right ← call (.phrase l.operand)
          call (.operands l (.binary op left right))
      | none => return left
  | .primary => do
      match ← advance tokens with
      | some (.int n) => return .literal (.int n)
      | some (.float x) => return .literal (.float x)
      | some (.str s) => return .literal (.str s)
      | some (.ident name) => named tokens call name
      | some (.symbol s) =>
          if s = .lparen then
            let e ← call (.phrase (.binary .disjunction))
            expect tokens .rparen
            return e
          else if s = .lbracket then
            call .list
          else
            throw (.unexpected (.symbol s))
      | none => throw .unexpectedEnd
  -- An opening bracket has been taken.
  | .list => do
      if opensTyped (← peek tokens) (← peekAt tokens 1) (← peekAt tokens 2) then
        skip 3
        let es ← call (.items .rbrace)
        return .list es
      else
        let es ← call (.items .rbracket)
        return .list es
  | .items close => do
      let es ← call (.collect close [])
      expect tokens close
      return es
  -- The loop stops before the closing symbol and behind an item that no comma follows.
  | .collect close es => do
      if (← peek tokens) = some (.symbol close) then
        return es
      else
        let e ← call (.phrase (.binary .disjunction))
        if (← peek tokens) = some (.symbol .comma) then
          skip 1
          call (.collect close (es ++ [e]))
        else
          return es ++ [e]

end

section
variable (tokens : List (Option Token))

/-- What a routine answers if calls may nest `n` deep. A run that needs more has no answer. -/
def within : Nat → (r : Routine) → Run r.Result
  | 0, _ => fun _ => (none : Option _)
  | n + 1, r => body tokens (within n) r

open Classical in
/-- What a routine answers, however deep its calls nest. -/
noncomputable def run (r : Routine) : Run r.Result := fun c =>
  if h : ∃ answer, ∀ᶠ n in atTop, within tokens n r c = some answer then some h.choose else (none : Option _)

end

/-! ## The routines call themselves -/

section
variable {α β : Type}

theorem bind_eq_some {x : Run α} {f : α → Run β} {c : Cursor} {answer : Except ParseError (β × Cursor)} :
    (x >>= f) c = some answer ↔
      (∃ e, x c = some (.error e) ∧ answer = .error e) ∨
        ∃ a c', x c = some (.ok (a, c')) ∧ f a c' = some answer := by
  change ExceptT.bind (x c) (fun y => f y.1 y.2) = _ ↔ _
  constructor
  · intro h
    generalize x c = o at h ⊢
    match o with
    | none => cases h
    | some (.error e) => exact .inl ⟨e, rfl, (Option.some.inj h).symm⟩
    | some (.ok (a, c')) => exact .inr ⟨a, c', rfl, h⟩
  · rintro (⟨e, he, rfl⟩ | ⟨a, c', ha, hf⟩)
    · rw [he]
      rfl
    · rw [ha]
      exact hf

/-- What a run answers, the runs of a sequence answer from some point on. -/
def Reached (x : Run α) (y : Nat → Run α) : Prop :=
  ∀ c answer, x c = some answer → ∀ᶠ n in atTop, y n c = some answer

namespace Reached

theorem const (x : Run α) : Reached x fun _ => x := fun _ _ h => .of_forall fun _ => h

theorem bind {x : Run α} {y : Nat → Run α} {f : α → Run β} {g : Nat → α → Run β} (hx : Reached x y)
    (hf : ∀ a, Reached (f a) fun n => g n a) : Reached (x >>= f) fun n => y n >>= g n := by
  intro c answer h
  rcases bind_eq_some.1 h with ⟨e, he, rfl⟩ | ⟨a, c', ha, hanswer⟩
  · exact (hx c _ he).mono fun n hn => bind_eq_some.2 (.inl ⟨e, hn, rfl⟩)
  · exact ((hx c _ ha).and (hf a c' _ hanswer)).mono fun n hn => bind_eq_some.2 (.inr ⟨a, c', hn⟩)

/-- A first step that calls nothing. -/
theorem step {x : Run α} {f : α → Run β} {g : Nat → α → Run β} (hf : ∀ a, Reached (f a) fun n => g n a) :
    Reached (x >>= f) fun n => x >>= g n := (const x).bind hf

/-- Last steps that call nothing. -/
theorem last {x : Run α} {y : Nat → Run α} {f : α → Run β} (h : Reached x y) :
    Reached (x >>= f) fun n => y n >>= f := h.bind fun a => const (f a)

theorem ite {p : Prop} [Decidable p] {x x' : Run α} {y y' : Nat → Run α} (h : Reached x y)
    (h' : Reached x' y') : Reached (if p then x else x') fun n => if p then y n else y' n := by
  by_cases hp : p
  · simpa only [if_pos hp] using h
  · simpa only [if_neg hp] using h'

end Reached

section
variable {tokens : List (Option Token)} {call : (r : Routine) → Run r.Result}
  {calls : Nat → (r : Routine) → Run r.Result} (h : ∀ r, Reached (call r) fun n => calls n r)
include h

theorem signed_reached : Reached (signed tokens call) fun n => signed tokens (calls n) := by
  refine .step fun t => ?_
  cases unaryOp? t with
  | some op => exact .step fun _ => (h _).last
  | none => exact h _

theorem named_reached (name : String) :
    Reached (named tokens call name) fun n => named tokens (calls n) name := by
  unfold named
  cases word? name with
  | some v => exact .const _
  | none => exact .step fun _ => .ite (.step fun _ => (h _).last) (.const _)

/-- If the answers of what a routine calls are reached, its own are. -/
theorem body_reached (r : Routine) : Reached (body tokens call r) fun n => body tokens (calls n) r := by
  cases r with
  | phrase p =>
      cases p with
      | unary => exact .step fun _ => .step fun _ => .ite (.const _) (signed_reached h).last
      | binary l => exact (h _).bind fun _ => h _
  | operands l left =>
      refine .step fun t => ?_
      cases binaryOp? l t with
      | some op => exact .step fun _ => (h _).bind fun _ => h _
      | none => exact .const _
  | primary =>
      refine .step fun t => ?_
      cases t with
      | none => exact .const _
      | some t =>
          cases t with
          | int _ | float _ | str _ => exact .const _
          | ident name => exact named_reached h name
          | symbol s => exact .ite (h _).last (.ite (h _) (.const _))
  | list => exact .step fun _ => .step fun _ => .step fun _ => .ite (.step fun _ => (h _).last) (h _).last
  | items close => exact (h _).last
  | collect close es =>
      exact .step fun _ => .ite (.const _) ((h _).bind fun _ => .step fun _ => .ite (.step fun _ => h _) (.const _))

end

variable {tokens : List (Option Token)} {r : Routine} {c : Cursor}
  {answer : Except ParseError (r.Result × Cursor)}

theorem run_eq_some : run tokens r c = some answer ↔ ∀ᶠ n in atTop, within tokens n r c = some answer := by
  unfold run
  constructor
  · intro h
    split at h
    · rename_i hex
      cases h
      exact hex.choose_spec
    · cases h
  · intro h
    have hex : ∃ answer, ∀ᶠ n in atTop, within tokens n r c = some answer := ⟨answer, h⟩
    rw [dif_pos hex]
    obtain ⟨n, hn, hn'⟩ := (hex.choose_spec.and h).exists
    exact hn.symm.trans hn'

/-- What the body of a routine answers is the answer: it takes calls to nest only one deeper. -/
theorem run_of_body (h : body tokens (run tokens) r c = some answer) : run tokens r c = some answer := by
  have hmore : ∀ᶠ n in atTop, within tokens (n + 1) r c = some answer :=
    body_reached (fun _ _ _ => run_eq_some.1) r c answer h
  obtain ⟨N, hN⟩ := eventually_atTop.1 hmore
  refine run_eq_some.2 (eventually_atTop.2 ⟨N + 1, fun n hn => ?_⟩)
  obtain ⟨m, rfl⟩ : ∃ m, n = m + 1 := ⟨n - 1, by omega⟩
  exact hN m (by omega)

theorem body_of_within {n : Nat}
    (h : ∀ r c answer, within tokens n r c = some answer → run tokens r c = some answer)
    (hr : body tokens (within tokens n) r c = some answer) : body tokens (run tokens) r c = some answer := by
  have hreached : Reached (body tokens (within tokens n) r) fun _ => body tokens (run tokens) r :=
    body_reached (fun r c answer hr => .of_forall fun _ => h r c answer hr) r
  exact eventually_const.1 (hreached c answer hr)

/-- An answer that takes only so many nested calls is the answer. -/
theorem run_of_within {n : Nat} (h : within tokens n r c = some answer) : run tokens r c = some answer := by
  induction n generalizing r c with
  | zero => cases h
  | succ n ih => exact run_of_body (body_of_within (fun _ _ _ => ih) h)

/-- A routine does what its body does with the routines that it calls. -/
theorem run_eq (tokens : List (Option Token)) (r : Routine) : run tokens r = body tokens (run tokens) r := by
  funext c
  refine Option.ext fun answer => ⟨fun h => ?_, run_of_body⟩
  obtain ⟨n, hn⟩ := (run_eq_some.1 h).exists
  cases n with
  | zero => cases hn
  | succ n => exact body_of_within (fun _ _ _ => run_of_within) hn

end

/-! ## Single steps -/

theorem binaryOp?_eq_some {l : Level} {t : Option Token} {op : BinaryOp} :
    binaryOp? l t = some op ↔ ∃ s, t = some (.symbol s) ∧ l.op? s = some op := by
  constructor
  · intro h
    unfold binaryOp? at h
    split at h
    · exact ⟨_, rfl, h⟩
    · exact nomatch h
  · rintro ⟨s, rfl, h⟩
    exact h

theorem opensTyped_iff {t u v : Option Token} : opensTyped t u v = true ↔
    t = some (.symbol .rbracket) ∧ (∃ kind, u = some (.ident kind)) ∧ v = some (.symbol .lbrace) := by
  constructor
  · intro h
    unfold opensTyped at h
    split at h
    · exact ⟨rfl, ⟨_, rfl⟩, rfl⟩
    · exact nomatch h
  · rintro ⟨rfl, ⟨kind, rfl⟩, rfl⟩
    rfl

section
variable {tokens : List (Option Token)} {α : Type} {i d : Nat}

theorem peek_bind (f : Option Token → Run α) :
    (peek tokens >>= f) ⟨i, d⟩ = f (tokenAt tokens i) ⟨i, d⟩ := rfl

theorem peekAt_bind (n : Nat) (f : Option Token → Run α) :
    (peekAt tokens n >>= f) ⟨i, d⟩ = f (tokenAt tokens (i + n)) ⟨i, d⟩ := rfl

theorem skip_bind (n : Nat) (f : Unit → Run α) : (skip n >>= f) ⟨i, d⟩ = f () ⟨i + n, d⟩ :=
  rfl

theorem advance_bind (f : Option Token → Run α) :
    (advance tokens >>= f) ⟨i, d⟩ = f (tokenAt tokens i) ⟨i + 1, d⟩ := rfl

theorem run_unary : run tokens (.phrase .unary) ⟨i, d⟩ =
    if maxNesting < d + 1 then some (.error .tooDeep)
    else (do let e ← signed tokens (run tokens); leave; return e : Run Expr) ⟨i, d + 1⟩ := by
  rw [run_eq, body]
  change (if maxNesting < d + 1 then _ else _ : Run Expr) ⟨i, d + 1⟩ = _
  by_cases h : maxNesting < d + 1
  · rw [if_pos h, if_pos h]
    rfl
  · rw [if_neg h, if_neg h]

end

end Cursor

end RecordRules
