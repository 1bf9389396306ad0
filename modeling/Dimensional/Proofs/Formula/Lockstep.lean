import Dimensional.Formula.Evaluate
import Dimensional.Proofs.Fallible

/-!
# Runs with places, and two runs side by side

`runPlaced` is the run of a program whose errors name the place of the token that fails, and
`evaluatePlaced` the evaluation of a formula in such terms; but for places they are the run and the
evaluation (`result_run`, `result_evaluate`).

`runPlaced_related` — what every step of two runs of one program keeps holds at the end of both, or
both fail at the same token with the same error.

`evaluate_agrees_or_stops` — where the steps of two programs agree unless the first one refuses, so
do their evaluations, or the first one stops at a token that both get to with the same stack.
-/

namespace Dimensional.Formula

/-- The stack after a program, or the number of tokens in front of the one that fails and its error.
`place` is the number of tokens that came before. -/
def runPlaced (tolerance : Float) (lookup : Lookup) (place : Nat) (stack : List Quantity) :
    List Token → Except (Nat × Error) (List Quantity)
  | [] => .ok stack
  | token :: rest => do
    let stack ← (step tolerance lookup stack token).mapError fun e => (place, e)
    runPlaced tolerance lookup (place + 1) stack rest

/-- The quantity of a formula in a context, or its error with the place of the token that fails.
Errors before the first token and after the last one have no place. -/
def evaluatePlaced (settings : Except Error Settings) (f : Formula) (context : Context) :
    Except (Option Nat × Error) Quantity :=
  match context.lookup?, settings with
  | none, _ => .error (none, .evaluation .noLookup)
  | some _, .error e => .error (none, e)
  | some lookup, .ok settings => do
    let stack ← (runPlaced settings.tolerance lookup 0 [] f.program).mapError fun (place, e) =>
      (some place, e)
    (finish f.source stack).mapError fun e => (none, e)

/-- But for places it is the run of the program.  Counting may start at any place. -/
theorem result_run (tolerance : Float) (lookup : Lookup) (place : Nat) (stack : List Quantity)
    (program : List Token) :
    (run tolerance lookup stack program).result =
      (runPlaced tolerance lookup place stack program).mapError Prod.snd := by
  -- The place is counted up along the program, so it has to vary.
  induction program generalizing place stack with
  | nil => rfl
  | cons token rest ih =>
    rw [run, runPlaced]
    cases step tolerance lookup stack token with
    | error e => rfl
    | ok next => exact ih (place + 1) next

/-- But for places it is the evaluation of the formula. -/
theorem result_evaluate (settings : Except Error Settings) (f : Formula) (context : Context) :
    (evaluate settings f context).result =
      (evaluatePlaced settings f context).mapError Prod.snd := by
  unfold evaluate evaluatePlaced
  cases context.lookup? with
  | none => rfl
  | some lookup =>
    cases settings with
    | error e => rfl
    | ok settings =>
      have hrun := result_run settings.tolerance lookup 0 [] f.program
      simp only
      generalize run settings.tolerance lookup [] f.program = o at *
      obtain ⟨lookups, result⟩ := o
      subst hrun
      cases runPlaced settings.tolerance lookup 0 [] f.program with
      | error e => rfl
      | ok stack =>
        show finish f.source stack = ((finish f.source stack).mapError _).mapError _
        cases finish f.source stack <;> rfl

section

open Fallible

variable {tolerance tolerance' : Float} {lookup lookup' : Lookup}

/-- **Two runs in lockstep**: what relates two stacks before each token and, if both take it, after
it, relates them at the end; or else both fail at the same token with the same error. -/
theorem runPlaced_related {R : List Token → List Quantity → List Quantity → Prop}
    (hstep : ∀ token rest stack stack', R (token :: rest) stack stack' →
      Related (R rest) (step tolerance lookup stack token)
        (step tolerance' lookup' stack' token))
    {program : List Token} {stack stack' : List Quantity} (h : R program stack stack')
    (place : Nat) :
    Related (R []) (runPlaced tolerance lookup place stack program)
      (runPlaced tolerance' lookup' place stack' program) := by
  -- On the program, for any two stacks that the relation holds of at this point.
  induction program generalizing stack stack' place with
  | nil => exact .ok h
  | cons token rest ih =>
    rw [runPlaced, runPlaced]
    exact ((hstep token rest stack stack' h).mapError _).bind fun _ _ hnext => ih hnext (place + 1)

end

/-! ### A run that may stop before another

Some changes to a program or to the settings make its checks weaker or stronger and leave all
values alone.  The steps then agree unless the stricter side refuses, and what is to be said
about the evaluations is where the first refusal comes, if there is one. -/

section

variable {tolerance : Float} {lookup : Lookup} {stack next : List Quantity} {token : Token}

theorem runPlaced_cons_of_ok (h : step tolerance lookup stack token = .ok next) (place : Nat)
    (rest : List Token) :
    runPlaced tolerance lookup place stack (token :: rest) =
      runPlaced tolerance lookup (place + 1) next rest := by
  rw [runPlaced, h]
  rfl

theorem runPlaced_cons_of_error {e : Error} (h : step tolerance lookup stack token = .error e)
    (place : Nat) (rest : List Token) :
    runPlaced tolerance lookup place stack (token :: rest) = .error (place, e) := by
  rw [runPlaced, h]
  rfl

end

/-- A program that gets past its first part fails in the second, or not at all.  Places are
counted from the start of the whole, so the second part begins where the first one ends. -/
theorem runPlaced_append_of_ok {tolerance : Float} {lookup : Lookup} {stack stack' : List Quantity}
    {before : List Token} (h : (run tolerance lookup stack before).result = .ok stack')
    (place : Nat) (behind : List Token) :
    runPlaced tolerance lookup place stack (before ++ behind) =
      runPlaced tolerance lookup (place + before.length) stack' behind := by
  induction before generalizing place stack with
  | nil =>
    cases h
    rfl
  | cons token rest ih =>
    cases hstep : step tolerance lookup stack token with
    | error e =>
      rw [run_cons_of_error hstep] at h
      cases h
    | ok next =>
      rw [run_cons_of_ok hstep] at h
      rw [List.cons_append, runPlaced_cons_of_ok hstep, List.length_cons,
        Nat.add_comm rest.length, ← Nat.add_assoc]
      exact ih h (place + 1)

theorem le_of_runPlaced_eq_error {tolerance : Float} {lookup : Lookup} {start place : Nat}
    {stack : List Quantity} {program : List Token} {e : Error}
    (h : runPlaced tolerance lookup start stack program = .error (place, e)) : start ≤ place := by
  induction program generalizing start stack with
  | nil => cases h
  | cons token rest ih =>
    cases hstep : step tolerance lookup stack token with
    | error e' =>
      rw [runPlaced_cons_of_error hstep] at h
      cases h
      exact Nat.le_refl _
    | ok next =>
      rw [runPlaced_cons_of_ok hstep] at h
      exact Nat.le_of_succ_le (ih h)

/-- An evaluation gets to the token at this place of the program, with this stack.  All tokens in
front have been taken without an error. -/
def Arrives (tolerance : Float) (lookup : Lookup) (program : List Token) (place : Nat)
    (stack : List Quantity) (token : Token) : Prop :=
  program[place]? = some token ∧
    (run tolerance lookup [] (program.take place)).result = .ok stack

section

variable {settings : Settings} {context : Context} {lookup : Lookup} {f : Formula} {place : Nat}
  {stack : List Quantity} {token : Token}

theorem Arrives.split {tolerance : Float} {program : List Token}
    (h : Arrives tolerance lookup program place stack token) :
    runPlaced tolerance lookup 0 [] program =
      runPlaced tolerance lookup place stack (program.drop place) := by
  obtain ⟨htoken, hrun⟩ := h
  have hlength : (program.take place).length = place := by
    have hlt := (List.getElem?_eq_some_iff.1 htoken).1
    rw [List.length_take]
    omega
  have happend := runPlaced_append_of_ok hrun 0 (program.drop place)
  rw [List.take_append_drop, hlength, Nat.zero_add] at happend
  exact happend

theorem evaluatePlaced_of_lookup (h : context.lookup? = some lookup) (settings : Settings)
    (f : Formula) :
    evaluatePlaced (.ok settings) f context =
      ((runPlaced settings.tolerance lookup 0 [] f.program).mapError
        fun failure => (some failure.1, failure.2)) >>= fun stack =>
          (finish f.source stack).mapError fun e => (none, e) := by
  unfold evaluatePlaced
  rw [h]

/-- An evaluation fails at a token that it gets to and that fails. -/
theorem Arrives.evaluatePlaced_eq_error (h : context.lookup? = some lookup)
    (harrives : Arrives settings.tolerance lookup f.program place stack token) {e : Error}
    (hstep : step settings.tolerance lookup stack token = .error e) :
    evaluatePlaced (.ok settings) f context = .error (some place, e) := by
  obtain ⟨hlt, rfl⟩ := List.getElem?_eq_some_iff.1 harrives.1
  -- The run goes through the tokens in front and comes to this one with the stack at hand.
  rw [evaluatePlaced_of_lookup h, harrives.split, List.drop_eq_getElem_cons hlt,
    runPlaced_cons_of_error hstep]
  rfl

/-- An evaluation that gets to a token does not fail before it.  A token that fails later has a
place that is no smaller, and a failure in the end has none. -/
theorem Arrives.le_of_evaluatePlaced (h : context.lookup? = some lookup)
    (harrives : Arrives settings.tolerance lookup f.program place stack token) {place' : Nat}
    {e : Error} (he : evaluatePlaced (.ok settings) f context = .error (some place', e)) :
    place ≤ place' := by
  rw [evaluatePlaced_of_lookup h, harrives.split] at he
  cases hrun : runPlaced settings.tolerance lookup place stack (f.program.drop place) with
  | error failure =>
    rw [hrun] at he
    cases he
    exact le_of_runPlaced_eq_error hrun
  -- A run that goes through leaves only errors without a place.
  | ok stack' =>
    rw [hrun] at he
    cases hfinish : finish f.source stack' with
    | error e' =>
      replace he : (finish f.source stack').mapError _ = .error (some place', e) := he
      rw [hfinish] at he
      cases he
    | ok q =>
      replace he : (finish f.source stack').mapError _ = .error (some place', e) := he
      rw [hfinish] at he
      cases he

end

section

open Fallible

variable {lookup : Lookup} {g : Token → Token} {P : Token → List Quantity → Error → Prop}

/-- Two runs whose steps agree unless the first one refuses: they agree all the way, or the
first one stops at a token that both get to with the same stack.  That they agree is said of
every first part of the programs, which includes what they look up, and of the places of their
errors. -/
theorem run_agrees_or_stops {tolerance tolerance' : Float}
    (hg : ∀ token, (g token).references = token.references)
    (hstep : ∀ token stack, AgreesUnless (P token stack) (step tolerance lookup stack token)
      (step tolerance' lookup stack (g token)))
    (stack : List Quantity) (program : List Token) :
    ((∀ n, run tolerance lookup stack (program.take n) =
        run tolerance' lookup stack ((program.take n).map g)) ∧
      ∀ place, runPlaced tolerance lookup place stack program =
        runPlaced tolerance' lookup place stack (program.map g)) ∨
    ∃ before token behind stack' e, program = before ++ token :: behind ∧
      (run tolerance lookup stack before).result = .ok stack' ∧
      (run tolerance' lookup stack (before.map g)).result = .ok stack' ∧
      step tolerance lookup stack' token = .error e ∧ P token stack' e := by
  induction program generalizing stack with
  | nil =>
    refine .inl ⟨fun n => ?_, fun _ => rfl⟩
    rw [List.take_nil]
    rfl
  | cons token rest ih =>
    rw [List.map_cons]
    rcases hstep token stack with hsame | hrefuses
    · -- Both do the same at this token, so that it is a matter of those behind it.
      cases hnext : step tolerance lookup stack token with
      -- Both fail here and now, after the same look-ups.
      | error e =>
        have hnext' := hsame.symm.trans hnext
        refine .inl ⟨fun n => ?_, fun place => ?_⟩
        · cases n with
          | zero => rfl
          | succ n =>
            rw [List.take_succ_cons, List.map_cons, run_cons_of_error hnext,
              run_cons_of_error hnext', hg]
        · rw [runPlaced_cons_of_error hnext, runPlaced_cons_of_error hnext']
      | ok next =>
        have hnext' := hsame.symm.trans hnext
        rcases ih next with
          ⟨hrun, hplaced⟩ | ⟨before, token', behind, stack', e, rfl, hrun, hrun', hfail⟩
        · refine .inl ⟨fun n => ?_, fun place => ?_⟩
          · cases n with
            | zero => rfl
            | succ n =>
              rw [List.take_succ_cons, List.map_cons, run_cons_of_ok hnext, run_cons_of_ok hnext',
                hg, hrun]
          · rw [runPlaced_cons_of_ok hnext, runPlaced_cons_of_ok hnext', hplaced]
        · refine .inr ⟨token :: before, token', behind, stack', e, rfl, ?_, ?_, hfail⟩
          · rw [run_cons_of_ok hnext]
            exact hrun
          · rw [List.map_cons, run_cons_of_ok hnext']
            exact hrun'
    -- The first one refuses this token, with nothing in front.
    · cases hfail : step tolerance lookup stack token with
      | ok next =>
        rw [hfail] at hrefuses
        cases hrefuses
      | error e =>
        rw [hfail] at hrefuses
        exact .inr ⟨[], token, rest, stack, e, rfl, rfl, rfl, hfail, hrefuses⟩

/-- **Two evaluations whose steps agree unless the first one refuses** agree all the way, or the
first one fails at a token that both get to with the same stack. -/
theorem evaluate_agrees_or_stops {settings settings' : Settings} {context : Context}
    {f f' : Formula}
    (hlookup : context.lookup? = some lookup) (hsource : f'.source = f.source)
    (hprogram : f'.program = f.program.map g)
    (hg : ∀ token, (g token).references = token.references)
    (hstep : ∀ token stack, AgreesUnless (P token stack)
      (step settings.tolerance lookup stack token)
      (step settings'.tolerance lookup stack (g token))) :
    (evaluate (.ok settings) f context = evaluate (.ok settings') f' context ∧
      evaluatePlaced (.ok settings) f context = evaluatePlaced (.ok settings') f' context ∧
      ∀ place, run settings.tolerance lookup [] (f.program.take place) =
        run settings'.tolerance lookup [] (f'.program.take place)) ∨
    ∃ place token stack e, Arrives settings.tolerance lookup f.program place stack token ∧
      Arrives settings'.tolerance lookup f'.program place stack (g token) ∧
      evaluatePlaced (.ok settings) f context = .error (some place, e) ∧ P token stack e := by
  rcases run_agrees_or_stops hg hstep [] f.program with
    ⟨hrun, hplaced⟩ | ⟨before, token, behind, stack, e, hsplit, hrun, hrun', hfail, hP⟩
  · simp only [List.map_take, ← hprogram] at hrun hplaced
    refine .inl ⟨?_, ?_, hrun⟩
    · have hall := hrun f.program.length
      have hlength : f'.program.length = f.program.length := by rw [hprogram, List.length_map]
      rw [List.take_length, ← hlength, List.take_length] at hall
      unfold evaluate
      simp only [hlookup, hall, hsource]
    · rw [evaluatePlaced_of_lookup hlookup, evaluatePlaced_of_lookup hlookup, hplaced, hsource]
  · have harrives : Arrives settings.tolerance lookup f.program before.length stack token := by
      constructor
      · simp [hsplit]
      · rw [hsplit, List.take_left]
        exact hrun
    have harrives' : Arrives settings'.tolerance lookup f'.program before.length stack
        (g token) := by
      constructor
      · simp [hprogram, hsplit]
      · rw [hprogram, ← List.map_take, hsplit, List.take_left]
        exact hrun'
    exact .inr ⟨before.length, token, stack, e, harrives, harrives',
      harrives.evaluatePlaced_eq_error hlookup hfail, hP⟩

end

end Dimensional.Formula
