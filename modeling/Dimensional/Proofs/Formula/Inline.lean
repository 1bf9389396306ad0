import Dimensional.Proofs.Formula.Value

/-!
# Results in the place of names

The result of one formula may be bound to a name that another formula refers to, or the program of
the first may stand in the second wherever that name stood (`Token.inline`).

* `run_append_base` — a program that runs does the same on top of any other stack, and leaves that
  alone.
* `evaluate_inline` — both ways evaluate alike, whatever the two programs are.
-/

namespace Dimensional

/-! ### Machines on top of a stack

A rule takes its operands from the top of the stack and never looks further down, so whatever
runs at all runs the same with more below.  What fails does not: it may have failed for want of
operands that the other stack would supply. -/

/-- A rule that applies does the same on top of any other stack. -/
theorem Rule.applyTop_append {rule : Rule} {name : String} {stack out : List Quantity}
    (h : rule.applyTop name stack = .ok out) (base : List Quantity) :
    rule.applyTop name (stack ++ base) = .ok (out ++ base) := by
  unfold Rule.applyTop at h
  split at h
  · obtain ⟨q, hq, rfl⟩ := Fallible.map_eq_ok_iff.1 h
    simp [Rule.applyTop, hq, Except.map]
  · obtain ⟨q, hq, rfl⟩ := Fallible.map_eq_ok_iff.1 h
    simp [Rule.applyTop, hq, Except.map]
  · obtain ⟨q, hq, rfl⟩ := Fallible.map_eq_ok_iff.1 h
    simp [Rule.applyTop, hq, Except.map]
  · cases h

namespace Formula

section

variable {tolerance : Float} {lookup : Lookup}

theorem step_append {stack out : List Quantity} {token : Token}
    (h : step tolerance lookup stack token = .ok out) (base : List Quantity) :
    step tolerance lookup (stack ++ base) token = .ok (out ++ base) := by
  obtain value | path | (op | op | _) | ⟨f | _, arity⟩ | _ | _ | _ | _ := token
  · obtain ⟨q, hq, rfl⟩ := Fallible.map_eq_ok_iff.1 h
    simp [step, hq, Except.map]
  · obtain ⟨q, hq, rfl⟩ := Fallible.map_eq_ok_iff.1 h
    simp [step, hq, Except.map]
  · exact Rule.applyTop_append h base
  · exact Rule.applyTop_append h base
  · cases h
  -- A call also checks how many arguments it was compiled for, before it takes any.
  · rw [step] at h ⊢
    split at h
    · next harity =>
      rw [if_pos harity]
      exact Rule.applyTop_append h base
    · cases h
  all_goals cases h

/-- **A program that runs stays above its base**: on top of any other stack it does the same, and it
leaves that stack alone. -/
theorem run_append_base {stack out : List Quantity} {program : List Token}
    (h : (run tolerance lookup stack program).result = .ok out) (base : List Quantity) :
    run tolerance lookup (stack ++ base) program =
      ⟨(run tolerance lookup stack program).lookups, .ok (out ++ base)⟩ := by
  -- The stack changes from token to token; what is below it does not.
  induction program generalizing stack with
  | nil =>
    cases h
    rfl
  | cons token rest ih =>
    cases hstep : step tolerance lookup stack token with
    | error e =>
      rw [run, hstep] at h
      cases h
    | ok next =>
      rw [run, hstep] at h
      rw [run, run, step_append hstep base, hstep]
      simp only [Outcome.andThen] at h ⊢
      rw [ih h]

end

/-! ### Programs in the place of names -/

def Token.inlined (name : String) (program : List Token) : Token → List Token
  | .name path unitText => if path = name then program else [.name path unitText]
  | token => [token]

/-- The tokens with a program in the place of every occurrence of a name. -/
def Token.inline (name : String) (program tokens : List Token) : List Token :=
  tokens.flatMap (Token.inlined name program)

theorem Token.inlined_of_not_mem {name : String} {program : List Token} {token : Token}
    (h : name ∉ token.references) : token.inlined name program = [token] := by
  cases token with
  | name path unitText => exact if_neg fun heq => h (by simp [references, heq])
  | number | operator | call | leftParen | rightParen | comma | foreign => rfl

end Formula

/-- An outcome with other names, maybe several, in the place of each that was looked up. -/
def Outcome.expand {α : Type} (names : String → List String) (o : Outcome α) : Outcome α :=
  ⟨o.lookups.flatMap names, o.result⟩

theorem Outcome.expand_andThen {α β : Type} (names : String → List String) (o : Outcome α)
    (f : α → Outcome β) :
    (o.andThen f).expand names = (o.expand names).andThen fun a => (f a).expand names := by
  obtain ⟨lookups, result⟩ := o
  cases result with
  | error e => rfl
  | ok a => simp [Outcome.andThen, Outcome.expand]

/-! ### Results as items -/

/-- Numbers are read as themselves. -/
theorem Datum.toFloats_map_real (xs : List Float) : Datum.toFloats (xs.map .real) = .ok xs := by
  unfold Datum.toFloats
  induction xs with
  | nil => rfl
  | cons x xs ih =>
    rw [List.map_cons, List.mapM_cons, ih]
    rfl

/-- The pair of value and exponents as which the result of a formula is answered. -/
def Quantity.pair (q : Quantity) : Item :=
  .tuple [.real q.value, .list (q.dims.exponents.map .real)]

/-- A quantity is had back from its pair.  The exponents come back one by one as the numbers that
they are, infinite ones and those that are no number included, since nothing is asked of them.
-/
@[simp] theorem Quantity.toQuantity_pair (q : Quantity) : q.pair.toQuantity = .ok q := by
  have hdims : Dimension.ofData (q.dims.exponents.map .real) = .ok q.dims := by
    unfold Dimension.ofData
    rw [Datum.toFloats_map_real]
    exact Dimension.ofExponents_eq_ok_iff.2 rfl
  have hdata : Quantity.ofData (.real q.value) (q.dims.exponents.map .real) = .ok q := by
    unfold Quantity.ofData
    rw [hdims]
    rfl
  show Item.ofPair _ _ (q.dims.exponents.map .real) = .ok q
  rw [Item.ofPair, hdata]

namespace Formula

/-- The names that are looked up in the place of one name: those of a program, and otherwise the
name itself. -/
def inlinedLookups (name : String) (lookups : List String) (path : String) : List String :=
  if path = name then lookups else [path]

theorem flatMap_inlinedLookups {name : String} {paths : List String} (h : name ∉ paths)
    (lookups : List String) : paths.flatMap (inlinedLookups name lookups) = paths := by
  induction paths with
  | nil => rfl
  | cons path paths ih =>
    have hpath : path ≠ name := fun heq => h (heq ▸ List.mem_cons_self)
    rw [List.flatMap_cons, ih fun hmem => h (List.mem_cons_of_mem _ hmem), inlinedLookups,
      if_neg hpath, List.singleton_append]

/-- A name without a unit stands for what its look-up answers. -/
theorem reference_plain {tolerance : Float} {lookup : Lookup} {path : String} {q : Quantity}
    (h : (lookup path >>= Item.toQuantity) = .ok q) :
    reference tolerance lookup path "" = .ok q := by
  rw [reference_eq_bind, h]
  rfl

/-- A program in the place of a name has the effect of the name, if the name stands for what the
program leaves on the stack. -/
theorem run_inline {tolerance : Float} {lookup lookup' : Lookup} {name : String} {q : Quantity}
    {program tokens : List Token}
    (hprogram : (run tolerance lookup [] program).result = .ok [q])
    (hname : (lookup' name >>= Item.toQuantity) = .ok q)
    (hothers : ∀ path, path ≠ name → lookup path = lookup' path)
    (hplain : ∀ unitText, Token.name name unitText ∈ tokens → unitText = "")
    (stack : List Quantity) :
    run tolerance lookup stack (Token.inline name program tokens) =
      (run tolerance lookup' stack tokens).expand
        (inlinedLookups name (run tolerance lookup [] program).lookups) := by
  -- For any stack, since the name may stand at any height.
  induction tokens generalizing stack with
  | nil => rfl
  | cons token rest ih =>
    have ih := ih fun unitText hmem => hplain unitText (List.mem_cons_of_mem _ hmem)
    rw [Token.inline, List.flatMap_cons, run_append]
    by_cases hmem : name ∈ token.references
    · -- The name itself: the program leaves the name's quantity on top of the stack.
      obtain ⟨unitText, rfl⟩ : ∃ unitText, token = .name name unitText := by
        cases token with
        | name path unitText => exact ⟨unitText, by rw [List.mem_singleton.1 hmem]⟩
        | number | operator | call | leftParen | rightParen | comma | foreign => cases hmem
      obtain rfl : unitText = "" := hplain unitText List.mem_cons_self
      have hinlined : Token.inlined name program (.name name "") = program := if_pos rfl
      have hlookups : ∀ lookups, [name].flatMap (inlinedLookups name lookups) = lookups := by
        simp [inlinedLookups]
      have hbase := run_append_base hprogram stack
      rw [List.nil_append] at hbase
      rw [hinlined, hbase, run, Outcome.expand_andThen, step, reference_plain hname,
        Outcome.expand, Token.references, hlookups]
      congr 1
      funext next
      exact ih next
    -- Any other token is left in its place, and what it reads is the same for both look-ups.
    · have hstep : step tolerance lookup' stack token = step tolerance lookup stack token :=
        step_congr (fun path hpath =>
          congrArg (· >>= Item.toQuantity) (hothers path fun heq => hmem (heq ▸ hpath)).symm) stack
      have hrefs := flatMap_inlinedLookups hmem (run tolerance lookup [] program).lookups
      rw [Token.inlined_of_not_mem hmem, ← run_append, List.singleton_append, run, run,
        Outcome.expand_andThen, hstep, Outcome.expand, hrefs]
      congr 1
      funext next
      exact ih next

/-- Binding a name to what a pair stands for always succeeds. -/
theorem bind_pair (b : Bindings) (name : String) (q : Quantity) :
    b.bind name q.pair = .ok (b.insert name q) := by
  unfold Bindings.bind
  rw [Quantity.toQuantity_pair]
  rfl

/-- **Binding a result is the same as putting the program in the place of the name**: if a formula
evaluates, its result can be bound to any name.  Any other formula that names no unit with this name
then has the same result or error as with the program in the place of the name, and where it looked
up the name the program looks up what it needs. -/
theorem evaluate_inline {settings : Except Error Settings} {f g : Formula} {b : Bindings}
    {name : String} {q : Quantity}
    (hplain : ∀ unitText, Token.name name unitText ∈ g.program → unitText = "")
    (hq : (evaluate settings f (.table b)).result = .ok q) :
    ∃ bound, b.bind name q.pair = .ok bound ∧ ∀ names,
      let inlined : Formula := ⟨g.source, Token.inline name f.program g.program, names⟩
      (evaluate settings inlined (.table b)).result =
          (evaluate settings g (.table bound)).result ∧
        (evaluate settings inlined (.table b)).lookups =
          (evaluate settings g (.table bound)).lookups.flatMap
            (inlinedLookups name (evaluate settings f (.table b)).lookups) := by
  refine ⟨b.insert name q, bind_pair b name q, fun names => ?_⟩
  cases settings with
  | error e => cases hq
  | ok settings =>
    -- The pair is bound to the quantity itself, so the two tables differ in this name only.
    have hname : (tableLookup (b.insert name q) name >>= Item.toQuantity) = .ok q := by
      simp [tableLookup, Except.map, bind, Except.bind]
    have hothers : ∀ path, path ≠ name →
        tableLookup b path = tableLookup (b.insert name q) path := by
      intro path hne
      simp [tableLookup, hne]
    have hlookups := lookups_andThen_ofExcept
      (run settings.tolerance (tableLookup b) [] f.program) (finish f.source)
    -- That `f` has a result says that its program leaves one value and nothing else.
    rw [evaluate_table] at hq
    have hrun := run_inline (result_of_finish hq) hname hothers hplain []
    have hinlined : evaluate (.ok settings)
          ⟨g.source, Token.inline name f.program g.program, names⟩ (.table b) =
        (evaluate (.ok settings) g (.table (b.insert name q))).expand
          (inlinedLookups name (evaluate (.ok settings) f (.table b)).lookups) := by
      rw [evaluate_table, hrun, evaluate_table _ f, hlookups, evaluate_table,
        Outcome.expand_andThen]
      rfl
    dsimp only
    rw [hinlined]
    exact ⟨rfl, rfl⟩

/-- `y y*y` with `y` bound to the result of `x*2`, or with `x*2` for each `y`: either way two values
are left, which is an error, after `x` was looked up for each `y`. -/
theorem evaluate_inline_leaving_two :
    let b : Bindings := ⟨[("x", .scalar 3)]⟩
    let f : Formula := ⟨"x*2", [.name "x" "", .number 2 "", .operator (.binary .mul)], ["x"]⟩
    let g : Formula := ⟨"y y*y",
      [.name "y" "", .name "y" "", .name "y" "", .operator (.binary .mul)], ["y"]⟩
    let inlined : Formula := ⟨g.source, Token.inline "y" f.program g.program, ["x"]⟩
    ∃ q, (evaluate (.ok {}) f (.table b)).result = .ok q ∧
      ∃ bound, b.bind "y" q.pair = .ok bound ∧
        (evaluate (.ok {}) inlined (.table b)).result =
          (evaluate (.ok {}) g (.table bound)).result ∧
        (evaluate (.ok {}) inlined (.table b)).lookups =
          (evaluate (.ok {}) g (.table bound)).lookups.flatMap
            (inlinedLookups "y" (evaluate (.ok {}) f (.table b)).lookups) ∧
        (evaluate (.ok {}) inlined (.table b)).result =
          .error (.evaluation (.valuesLeft "y y*y" 2)) ∧
        (evaluate (.ok {}) inlined (.table b)).lookups = ["x", "x", "x"] := by
  intro b f g inlined
  -- Both occurrences of `y` in `y y*y` are bare.
  have hplain : ∀ unitText, Token.name "y" unitText ∈ g.program → unitText = "" := by
    intro unitText hmem
    simpa [g] using hmem
  have hq : (evaluate (.ok {}) f (.table b)).result =
      .ok ⟨3 * (2 * 1.0), Dimension.one * Dimension.one⟩ := rfl
  obtain ⟨bound, hbound, hinlined⟩ := evaluate_inline hplain hq
  obtain ⟨hresult, hlookups⟩ := hinlined ["x"]
  exact ⟨_, hq, bound, hbound, hresult, hlookups, rfl, rfl⟩

end Formula

end Dimensional
