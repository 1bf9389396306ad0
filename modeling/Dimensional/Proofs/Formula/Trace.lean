import Dimensional.Proofs.FirstSeen
import Dimensional.Proofs.Formula.Sentence
import Dimensional.Proofs.Formula.Value
import Dimensional.Proofs.Formula.Reading

/-!
# Which names are looked up

Names occur in a program in the order in which they stand in the text: only operators and calls are
moved, and these refer to nothing (`occurrences_of_postfixFrom`).  A run looks each occurrence up
when it gets there, so that the look-ups are those of the tokens that it got to
(`prefix_lookups_run`, `lookups_run_of_ok`), and nothing else that a name might stand for has a part
in the outcome (`run_congr_of_lookups`).

Main statement: `lookups_of_compile` — the look-ups of an evaluation are the names in the order of
the text, up to the one that fails; and the names of a formula are these without repetitions.
-/

namespace Dimensional.Formula

/-! ### Names in the program

Nothing that waits refers to a name, so what a token puts out refers to the names of the token
itself and to no others.  By `program_induction` the program has the names of the tokens, in
their order. -/

namespace Pending

theorem references_token (pending : Pending) : pending.token.references = [] := by
  cases pending <;> rfl

/-- What waits refers to nothing. -/
theorem occurrences_map_token (pending : List Pending) :
    Token.occurrences (pending.map token) = [] := by
  simp [Token.occurrences, references_token]

/-- Only numbers and names can refer to anything that goes into the program when they are read. -/
theorem occurrences_of_moves {pending waiting : List Pending} {token : Token} {out : List Token}
    (h : Moves pending token out waiting) : Token.occurrences out = token.references := by
  have hemitted {emitted : List Token} {kept : List Pending}
      (hsplit : emitted ++ kept.map Pending.token = pending.map Pending.token) :
      Token.occurrences (emitted.filter Token.isOperative) = [] := by
    have hall := occurrences_map_token pending
    rw [← hsplit, Token.occurrences_append, List.append_eq_nil_iff] at hall
    refine List.flatMap_eq_nil_iff.2 fun token htoken => ?_
    exact List.flatMap_eq_nil_iff.1 hall.1 token (List.mem_filter.1 htoken).1
  -- A number or a name comes out with its own names; otherwise nothing but what waited comes out.
  cases h with
  | comesOut => exact List.append_nil _
  | waits hsplit htop => rw [hemitted hsplit, ← htop, references_token]
  | passedOver hsplit hpassed =>
    rw [hemitted hsplit]
    cases token <;> first | rfl | cases hpassed

end Pending

namespace Token

open Pending

/-- The names of a program occur in the order in which they stand among the tokens. -/
theorem occurrences_of_postfixFrom {text : String} {pending : List Pending}
    {tokens program : List Token} (h : postfixFrom text pending tokens = .ok program) :
    occurrences program = occurrences tokens := by
  refine program_induction
    (motive := fun _ tokens program => occurrences program = occurrences tokens) ?_ ?_ h
  · exact fun pending _ => occurrences_map_token pending
  · intro pending token rest out waiting program hafter ih
    rw [occurrences_append, occurrences_of_moves (moves_of_after hafter), ih]
    rfl

end Token

/-! ### Look-ups of a run -/

section

variable {tolerance : Float} {lookup : Lookup}

/-- A run that fails has looked up the names that it got to.  These are the first of the names in
the program, in their order. -/
theorem prefix_lookups_run (stack : List Quantity) (program : List Token) :
    (run tolerance lookup stack program).lookups <+: Token.occurrences program := by
  induction program generalizing stack with
  | nil => exact List.nil_prefix
  | cons token rest ih =>
    rw [run, Outcome.andThen]
    cases step tolerance lookup stack token with
    | error e => exact List.prefix_append _ _
    | ok next => exact (List.prefix_append_right_inj _).2 (ih next)

/-- A run that gets to the end has looked up all names. -/
theorem lookups_run_of_ok {stack stack' : List Quantity} {program : List Token}
    (h : (run tolerance lookup stack program).result = .ok stack') :
    (run tolerance lookup stack program).lookups = Token.occurrences program := by
  induction program generalizing stack with
  | nil => rfl
  | cons token rest ih =>
    cases hstep : step tolerance lookup stack token with
    | error e =>
      rw [run_cons_of_error hstep] at h
      cases h
    | ok next =>
      rw [run_cons_of_ok hstep] at h ⊢
      exact congrArg (token.references ++ ·) (ih h)

/-- A run hangs on nothing but the quantities that its own look-ups stand for.  Names behind the
token at which it fails are never looked up and may stand for anything. -/
theorem run_congr_of_lookups {lookup' : Lookup} {stack : List Quantity} {program : List Token}
    (h : ∀ path ∈ (run tolerance lookup stack program).lookups,
      (lookup' path >>= Item.toQuantity) = (lookup path >>= Item.toQuantity)) :
    run tolerance lookup' stack program = run tolerance lookup stack program := by
  induction program generalizing stack with
  | nil => rfl
  | cons token rest ih =>
    rw [run, Outcome.andThen] at h
    have hstep : step tolerance lookup' stack token = step tolerance lookup stack token := by
      -- The names of the first token are looked up even if its step fails.
      refine step_congr (fun path hpath => h path ?_) stack
      split
      · exact List.mem_append_left _ hpath
      · exact hpath
    rw [run, run, hstep, Outcome.andThen, Outcome.andThen]
    cases hnext : step tolerance lookup stack token with
    | error e => rfl
    | ok next =>
      rw [hnext] at h
      have hrest := ih fun path hpath => h path (List.mem_append_right _ hpath)
      simp only [hrest]

end

/-- **The trace of an evaluation**: the names of a text are looked up from left to right, once for
each occurrence, up to the first that fails, and all of them where there is a result.  The names of
the formula are those of the text, each one once, in the order of their first occurrence. -/
theorem lookups_of_compile {text : String} {f : Formula} (h : compile text = .ok f) :
    ∃ tokens, Token.scan text = .ok tokens ∧
      (∀ names, FirstSeen (Token.occurrences tokens) names ↔ names = f.names) ∧
      ∀ (settings : Except Error Settings) (context : Context),
        (evaluate settings f context).lookups <+: Token.occurrences tokens ∧
        ∀ q, (evaluate settings f context).result = .ok q →
          (evaluate settings f context).lookups = Token.occurrences tokens := by
  obtain ⟨tokens, hscan, hprogram, hnames⟩ := scan_of_compile h
  have hoccurrences := Token.occurrences_of_postfixFrom hprogram
  refine ⟨tokens, hscan, ?_, ?_⟩
  · rw [hnames]
    exact firstSeen_iff _
  · intro settings context
    rw [← hoccurrences]
    -- Without a way to look names up, and without settings, nothing is looked up.
    have hnone : ∀ e, (Outcome.ofExcept (.error e) : Outcome Quantity).lookups <+:
        Token.occurrences f.program := fun e => List.nil_prefix
    unfold evaluate
    split
    · exact ⟨hnone _, nofun⟩
    · exact ⟨hnone _, nofun⟩
    · rw [lookups_andThen_ofExcept]
      refine ⟨prefix_lookups_run _ _, fun q hq => ?_⟩
      exact lookups_run_of_ok (result_of_finish hq)

/-- `x*(y+x)`: where `y` is not bound, `x` and `y` are looked up, and where it is, `x` once more. -/
theorem lookups_product_of_sum :
    ∃ f tokens, compile "x*(y+x)" = .ok f ∧ Token.scan "x*(y+x)" = .ok tokens ∧
      FirstSeen (Token.occurrences tokens) f.names ∧
      Token.occurrences tokens = ["x", "y", "x"] ∧ f.names = ["x", "y"] ∧
      (evaluate (.ok {}) f (.table ⟨[("x", .scalar 2.5)]⟩)).lookups = ["x", "y"] ∧
      (evaluate (.ok {}) f (.table ⟨[("x", .scalar 2.5), ("y", .scalar 2)]⟩)).lookups =
        ["x", "y", "x"] := by
  have hscan : Token.scan "x*(y+x)" =
      .ok [.name "x" "", .operator (.binary .mul), .leftParen, .name "y" "",
        .operator (.binary .add), .name "x" "", .rightParen] := by cbv
  have hcompile := compile_of_scan hscan rfl
  obtain ⟨tokens, hscan', hnames, hlookups⟩ := lookups_of_compile hcompile
  rw [hscan] at hscan'
  cases hscan'
  exact ⟨_, _, hcompile, hscan, (hnames _).2 rfl, rfl, rfl, rfl,
    (hlookups (.ok {}) (.table ⟨[("x", .scalar 2.5), ("y", .scalar 2)]⟩)).2 _ rfl⟩

end Dimensional.Formula
