import Dimensional.Proofs.Formula.Rule
import Dimensional.Proofs.Formula.Tree

/-!
# The value of a tree

`Tree.eval` gives an expression tree its value by recursion: all operands from left to right, those
of a choice included, and then the rule of what is applied to them.  The machine agrees with it:

* `run_postorder` — the program of a tree puts the value of the tree on the stack, whatever lies
  there and whatever follows.
* `evaluate_postorder` — a program in postorder evaluates to what its tree evaluates to, with the
  same look-ups and errors, and never ends in an error of the machine itself.
-/

namespace Dimensional

/-! ### Outcomes in sequence -/

namespace Outcome

variable {α β γ : Type}

theorem andThen_assoc (o : Outcome α) (f : α → Outcome β) (g : β → Outcome γ) :
    (o.andThen f).andThen g = o.andThen fun a => (f a).andThen g := by
  obtain ⟨lookups, result⟩ := o
  cases result with
  | error e => rfl
  | ok a =>
    simp only [andThen]
    cases (f a).result <;> simp

@[simp] theorem ok_andThen (a : α) (f : α → Outcome β) : (ofExcept (.ok a)).andThen f = f a := by
  simp [ofExcept, andThen]

def all : {n : Nat} → (Fin n → Outcome α) → Outcome (Fin n → α)
  | 0, _ => .ofExcept (.ok fun i => i.elim0)
  | _ + 1, outcomes =>
    (outcomes 0).andThen fun a =>
      (all fun i => outcomes i.succ).andThen fun as => .ofExcept (.ok (Fin.cases a as))

end Outcome

namespace Formula

namespace Tree

/-- The value of a tree.  All operands are evaluated, also those that a choice discards. -/
def eval (tolerance : Float) (lookup : Lookup) : Tree → Outcome Quantity
  | .number value unitText => .ofExcept (literal value unitText)
  | .name path unitText => ⟨[path], reference tolerance lookup path unitText⟩
  | .unary op a =>
    (a.eval tolerance lookup).andThen fun x => .ofExcept ((op.rule tolerance).on fun _ => x)
  | .binary op a b =>
    (a.eval tolerance lookup).andThen fun x =>
      (b.eval tolerance lookup).andThen fun y =>
        -- The first operand of the rule is the left one.
        .ofExcept ((op.rule tolerance).on fun i => if i.val = 0 then x else y)
  | .call f args =>
    (Outcome.all fun i => (args i).eval tolerance lookup).andThen fun operands =>
      .ofExcept ((f.rule tolerance).on fun i => operands (i.cast (Builtin.arity_rule tolerance f)))

/-- The value of a tree in a context.  The settings are read only once it is clear that names can be
looked up. -/
def evaluate (settings : Except Error Settings) (t : Tree) (context : Context) :
    Outcome Quantity :=
  match context.lookup?, settings with
  | none, _ => .ofExcept (.error (.evaluation .noLookup))
  | some _, .error e => .ofExcept (.error e)
  | some lookup, .ok settings => t.eval settings.tolerance lookup

end Tree

/-! ### The machine agrees

The statement is about any stack and any rest of the program.  A tree of an operator runs its
operands with more stack below and more program behind, and by then the operands lie on top,
where the rule finds them. -/

section

variable (tolerance : Float) (lookup : Lookup)

/-- A token that names nothing only changes the stack. -/
theorem run_cons_of_references_nil {token : Token} (h : token.references = [])
    (stack : List Quantity) (rest : List Token) :
    run tolerance lookup stack (token :: rest) =
      (Outcome.ofExcept (step tolerance lookup stack token)).andThen fun stack =>
        run tolerance lookup stack rest := by
  rw [run, h]
  rfl

theorem ofExcept_map_andThen {α β γ : Type} (x : Except Error α) (f : α → β)
    (g : β → Outcome γ) :
    (Outcome.ofExcept (x.map f)).andThen g =
      (Outcome.ofExcept x).andThen fun a => g (f a) := by
  cases x <;> rfl

/-- What a rule is named for is applied to the operands on top of the stack. -/
theorem run_cons_of_applyTop {n : Nat} {rule : Rule} (hn : rule.arity = n) {token : Token}
    (hrefs : token.references = []) {name : String}
    (hstep : ∀ stack, step tolerance lookup stack token = rule.applyTop name stack)
    (operands : Fin n → Quantity) (stack : List Quantity) (rest : List Token) :
    run tolerance lookup ((List.ofFn operands).reverse ++ stack) (token :: rest) =
      (Outcome.ofExcept (rule.on fun i => operands (i.cast hn))).andThen fun q =>
        run tolerance lookup (q :: stack) rest := by
  rw [run_cons_of_references_nil tolerance lookup hrefs, hstep, Rule.applyTop_operands hn,
    ofExcept_map_andThen]

/-- The programs of several trees put their values on the stack, the last one on top. -/
theorem run_flatten {n : Nat} (args : Fin n → Tree)
    (ih : ∀ i stack rest, run tolerance lookup stack ((args i).postorder ++ rest) =
      ((args i).eval tolerance lookup).andThen fun q => run tolerance lookup (q :: stack) rest)
    (stack : List Quantity) (rest : List Token) :
    run tolerance lookup stack ((List.ofFn fun i => (args i).postorder).flatten ++ rest) =
      (Outcome.all fun i => (args i).eval tolerance lookup).andThen fun operands =>
        run tolerance lookup ((List.ofFn operands).reverse ++ stack) rest := by
  induction n generalizing stack with
  | zero => simp [Outcome.all]
  | succ n ihn =>
    have htail := ihn (fun i => args i.succ) fun i => ih i.succ
    rw [List.ofFn_succ, List.flatten_cons, List.append_assoc, ih 0]
    -- Both sides run the first program and then the others; only the order of the stack is left
    -- to compare.
    simp only [htail, Outcome.all, Outcome.andThen_assoc, Outcome.ok_andThen]
    congr 1
    funext q
    congr 1
    funext operands
    rw [List.ofFn_succ, List.reverse_cons, List.append_assoc]
    rfl

/-- The program of a tree puts the value of the tree on the stack. -/
theorem run_postorder (t : Tree) (stack : List Quantity) (rest : List Token) :
    run tolerance lookup stack (t.postorder ++ rest) =
      (t.eval tolerance lookup).andThen fun q => run tolerance lookup (q :: stack) rest := by
  -- Operators and calls find their operands on top of a stack about which nothing else is known.
  induction t generalizing stack rest with
  | number value unitText =>
    rw [Tree.postorder, List.singleton_append,
      run_cons_of_references_nil tolerance lookup rfl, step, ofExcept_map_andThen]
    rfl
  | name path unitText =>
    rw [Tree.postorder, List.singleton_append, run, step, Tree.eval]
    cases reference tolerance lookup path unitText <;> rfl
  | unary op a ih =>
    rw [Tree.postorder, List.append_assoc, ih, Tree.eval, Outcome.andThen_assoc]
    congr 1
    funext x
    exact run_cons_of_applyTop tolerance lookup (UnaryOp.arity_rule tolerance op) rfl
      (fun _ => rfl) (fun _ => x) stack rest
  | binary op a b iha ihb =>
    simp only [Tree.postorder, List.append_assoc, iha, ihb, Tree.eval, Outcome.andThen_assoc]
    congr 1
    funext x
    congr 1
    funext y
    exact run_cons_of_applyTop tolerance lookup (BinaryOp.arity_rule tolerance op) rfl
      (fun _ => rfl) (fun i => if i.val = 0 then x else y) stack rest
  | call f args ih =>
    rw [Tree.postorder, List.append_assoc, run_flatten tolerance lookup args ih, Tree.eval,
      Outcome.andThen_assoc]
    congr 1
    funext operands
    have hstep : ∀ stack, step tolerance lookup stack (Tree.callToken f) =
        (f.rule tolerance).applyTop (f.name ++ "()") stack := fun _ => if_pos rfl
    exact run_cons_of_applyTop tolerance lookup (Builtin.arity_rule tolerance f) rfl hstep
      operands stack rest

end

/-- A program in postorder evaluates to what its tree evaluates to. -/
theorem evaluate_eq_tree (settings : Except Error Settings) (t : Tree) (source : String)
    (names : List String) (context : Context) :
    evaluate settings ⟨source, t.postorder, names⟩ context = t.evaluate settings context := by
  unfold evaluate Tree.evaluate
  cases context.lookup? with
  | none => rfl
  | some lookup =>
    cases settings with
    | error e => rfl
    | ok settings =>
      -- A tree leaves exactly one quantity, so finishing cannot fail.
      have hrun := run_postorder settings.tolerance lookup t [] []
      rw [List.append_nil] at hrun
      simp only [hrun, Outcome.andThen_assoc]
      obtain ⟨lookups, result⟩ := t.eval settings.tolerance lookup
      cases result <;> simp [Outcome.andThen, Outcome.ofExcept, run, finish]

/-! ### Formulas in a table of bindings -/

def tableLookup (b : Bindings) : Lookup := fun path => (b.lookup path).map .quantity

/-- In a table of bindings a formula evaluates to what its program leaves on the stack. -/
theorem evaluate_table (settings : Settings) (f : Formula) (b : Bindings) :
    evaluate (.ok settings) f (.table b) =
      (run settings.tolerance (tableLookup b) [] f.program).andThen fun stack =>
        .ofExcept (finish f.source stack) := rfl

/-- A formula that evaluates leaves its quantity on the stack, and nothing else. -/
theorem result_of_finish {o : Outcome (List Quantity)} {source : String} {q : Quantity}
    (h : (o.andThen fun stack => .ofExcept (finish source stack)).result = .ok q) :
    o.result = .ok [q] := by
  obtain ⟨lookups, result⟩ := o
  cases result with
  | error e => cases h
  | ok stack =>
    obtain _ | ⟨q', _ | ⟨q'', stack⟩⟩ := stack
    · cases h
    · cases h
      rfl
    · cases h

/-- What is done in the end looks nothing up. -/
theorem lookups_andThen_ofExcept {α β : Type} (o : Outcome α) (f : α → Except Error β) :
    (o.andThen fun a => .ofExcept (f a)).lookups = o.lookups := by
  obtain ⟨lookups, result⟩ := o
  cases result with
  | error e => rfl
  | ok a => exact List.append_nil lookups

/-- What a look-up answers counts only as the quantity that it stands for. -/
theorem reference_eq_bind (tolerance : Float) (lookup : Lookup) (path unitText : String) :
    reference tolerance lookup path unitText =
      (lookup path >>= Item.toQuantity) >>= fun q =>
        checkDeclared tolerance path unitText q >>= fun _ => .ok q := by
  rw [bind_assoc]
  rfl

/-- A token asks only for the names that it refers to. -/
theorem step_congr {tolerance : Float} {lookup lookup' : Lookup} {token : Token}
    (h : ∀ path ∈ token.references,
      (lookup path >>= Item.toQuantity) = (lookup' path >>= Item.toQuantity))
    (stack : List Quantity) :
    step tolerance lookup stack token = step tolerance lookup' stack token := by
  obtain value | ⟨path, unitText⟩ | (op | op | _) | ⟨f | _, arity⟩ | _ | _ | _ | _ := token
  case name =>
    have hpath := h path (List.mem_singleton_self path)
    simp only [step, reference_eq_bind, hpath]
  all_goals rfl

/-! ### What runs is the program of a tree

The stack of quantities and the stack of trees have the same height at every step, and only the
height decides whether a token can be taken.  So a program that leaves one quantity leaves one
tree, of which it is the postorder. -/

section

variable {tolerance : Float} {lookup : Lookup}

/-- A token that the machine takes is one that puts trees together. -/
theorem push_of_step {stack stack' : List Quantity} {token : Token} {trees : List Tree}
    (h : step tolerance lookup stack token = .ok stack') (hlen : trees.length = stack.length) :
    ∃ trees', Tree.push trees token = some trees' ∧ trees'.length = stack'.length := by
  obtain value | path | (op | op | _) | ⟨f | _, arity⟩ | _ | _ | _ | _ := token
  · obtain ⟨q, _, rfl⟩ := Fallible.map_eq_ok_iff.1 h
    exact ⟨_, rfl, by simp [hlen]⟩
  · obtain ⟨q, _, rfl⟩ := Fallible.map_eq_ok_iff.1 h
    exact ⟨_, rfl, by simp [hlen]⟩
  · obtain ⟨hle, hlen'⟩ := Rule.length_of_applyTop h
    rw [UnaryOp.arity_rule, ← hlen] at hle hlen'
    obtain _ | ⟨a, trees⟩ := trees
    · cases hle
    · exact ⟨_, rfl, by simp [hlen']⟩
  · obtain ⟨hle, hlen'⟩ := Rule.length_of_applyTop h
    rw [BinaryOp.arity_rule, ← hlen] at hle hlen'
    obtain _ | ⟨b, _ | ⟨a, trees⟩⟩ := trees
    · cases hle
    · cases Nat.le_of_succ_le_succ hle
    · exact ⟨_, rfl, by simp [hlen']⟩
  · cases h
  · rw [step] at h
    split at h
    · next harity =>
      obtain ⟨hle, hlen'⟩ := Rule.length_of_applyTop h
      rw [Builtin.arity_rule, ← hlen] at hle hlen'
      refine ⟨Tree.callTop f trees hle :: trees.drop f.arity, ?_, by simp [hlen']⟩
      rw [Tree.push, dif_pos hle, if_pos harity]
    · cases h
  all_goals cases h

/-- A program that runs puts trees together, as many as quantities are left.  Both machines
refuse a token for which operands are missing, and these are as many on the one stack as on the
other. -/
theorem assemble_of_run {stack stack' : List Quantity} {program : List Token} {trees : List Tree}
    (h : (run tolerance lookup stack program).result = .ok stack')
    (hlen : trees.length = stack.length) :
    ∃ trees', Tree.assemble trees program = some trees' ∧ trees'.length = stack'.length := by
  -- Both machines run side by side, with stacks of equal height.
  induction program generalizing stack trees with
  | nil =>
    cases h
    exact ⟨trees, rfl, hlen⟩
  | cons token rest ih =>
    rw [run] at h
    cases hstep : step tolerance lookup stack token with
    | error e =>
      rw [hstep] at h
      cases h
    | ok next =>
      rw [hstep] at h
      obtain ⟨trees', hpush, hlen'⟩ := push_of_step hstep hlen
      rw [Tree.assemble, hpush]
      exact ih h hlen'

end

/-- A program that evaluates is the postorder of a tree. -/
theorem eq_postorder_of_evaluate {settings : Except Error Settings} {f : Formula}
    {context : Context} {q : Quantity} (h : (evaluate settings f context).result = .ok q) :
    ∃ t : Tree, f.program = t.postorder := by
  unfold evaluate at h
  split at h
  · cases h
  · cases h
  · next lookup settings _ =>
    cases hrun : (run settings.tolerance lookup [] f.program).result with
    | error e =>
      simp only [Outcome.andThen, hrun] at h
      cases h
    | ok stack =>
      simp only [Outcome.andThen, hrun, Outcome.ofExcept] at h
      obtain ⟨trees, hassemble, hlen⟩ := @assemble_of_run _ _ [] stack f.program [] hrun rfl
      -- Finishing takes a stack of one quantity and no other.
      obtain _ | ⟨a, _ | ⟨b, stack⟩⟩ := stack
      · cases h
      · obtain ⟨t, rfl⟩ := List.length_eq_one_iff.1 hlen
        have hprogram := Tree.postorder_of_assemble hassemble
        exact ⟨t, by simpa using hprogram.symm⟩
      · cases h

/-! ### Whose fault it is

No part of the recursion fails with an error of the machine, except that look-ups may answer
with any error.  `BlamesLookup` says so of an outcome, and it is kept by sequencing, so it holds
of the value of every tree by induction on the tree. -/

/-- Faults of the machine are in the outcome only if a look-up answered with them. -/
def BlamesLookup {α : Type} (lookup : Lookup) (o : Outcome α) : Prop :=
  ∀ e, o.result = .error e → e.IsMachineFault → ∃ path ∈ o.lookups, lookup path = .error e

section

open Error Fallible

variable {α β : Type} {lookup : Lookup}

theorem blamesLookup_ofExcept {x : Except Error α} (h : Raises (¬IsMachineFault ·) x) :
    BlamesLookup lookup (.ofExcept x) := by
  intro e he hm
  exact absurd hm (h e he)

theorem blamesLookup_andThen {o : Outcome α} {f : α → Outcome β} (ho : BlamesLookup lookup o)
    (hf : ∀ a, BlamesLookup lookup (f a)) : BlamesLookup lookup (o.andThen f) := by
  intro e he hm
  obtain ⟨lookups, result⟩ := o
  cases result with
  | error _ =>
    cases he
    exact ho e rfl hm
  | ok a =>
    obtain ⟨path, hpath, hlookup⟩ := hf a e he hm
    exact ⟨path, List.mem_append_right _ hpath, hlookup⟩

theorem blamesLookup_all {n : Nat} {outcomes : Fin n → Outcome α}
    (h : ∀ i, BlamesLookup lookup (outcomes i)) : BlamesLookup lookup (Outcome.all outcomes) := by
  induction n with
  | zero => exact blamesLookup_ofExcept (raises_ok _)
  | succ n ih =>
    refine blamesLookup_andThen (h 0) fun _ => ?_
    exact blamesLookup_andThen (ih fun i => h i.succ) fun _ => blamesLookup_ofExcept (raises_ok _)

theorem raises_literal (value : Float) (unitText : String) :
    Raises IsUnitFault (literal value unitText) :=
  raises_bind (MeasureUnit.raises_parse unitText) fun _ => raises_ok _

/-- Errors of a name whose quantity is not what it declares: the text of the unit has a fault, or
the dimension is another one. -/
def IsDeclarationFault (path : String) (e : Error) : Prop :=
  e.IsUnitFault ∨ (∃ detail, e = .unitMismatch path detail) ∨ e.IsConversion

theorem IsDeclarationFault.not_isMachineFault {path : String} {e : Error}
    (h : IsDeclarationFault path e) : ¬e.IsMachineFault := by
  rcases h with h | ⟨detail, rfl⟩ | h
  · exact h.not_isMachineFault
  · exact id
  · exact h.not_isMachineFault

theorem raises_checkDeclared (tolerance : Float) (path unitText : String) (q : Quantity) :
    Raises (IsDeclarationFault path) (checkDeclared tolerance path unitText q) := by
  unfold checkDeclared
  split
  · refine raises_bind ((MeasureUnit.raises_parse unitText).mono fun _ => .inl) fun _ => ?_
    split
    · refine raises_bind ((raises_unitText _).mono fun _ h => .inr (.inr h)) fun _ => ?_
      exact raises_error (.inr (.inl ⟨_, rfl⟩))
    · exact raises_ok _
  · exact raises_ok _

theorem blamesLookup_reference (tolerance : Float) (path unitText : String) :
    BlamesLookup lookup ⟨[path], reference tolerance lookup path unitText⟩ := by
  intro e he hm
  cases hitem : lookup path with
  | error e' =>
    simp only [reference, hitem] at he
    cases he
    exact ⟨path, List.mem_singleton_self path, hitem⟩
  | ok item =>
    have hraises : Raises (¬IsMachineFault ·) (reference tolerance lookup path unitText) := by
      simp only [reference, hitem]
      refine raises_bind (raises_ok item) fun item => ?_
      refine raises_bind ((raises_toQuantity item).mono
        fun _ => IsItemFault.not_isMachineFault) fun _ => ?_
      exact raises_bind ((raises_checkDeclared _ _ _ _).mono
        fun _ => IsDeclarationFault.not_isMachineFault) fun _ => raises_ok _
    exact absurd hm (hraises e he)

theorem blamesLookup_eval (tolerance : Float) (t : Tree) :
    BlamesLookup lookup (t.eval tolerance lookup) := by
  induction t with
  | number value unitText =>
    exact blamesLookup_ofExcept
      ((raises_literal value unitText).mono fun _ => IsUnitFault.not_isMachineFault)
  | name path unitText => exact blamesLookup_reference tolerance path unitText
  | unary op a ih =>
    refine blamesLookup_andThen ih fun _ => blamesLookup_ofExcept ?_
    exact (Rule.raises_unary _ _ _).mono fun _ => IsRuleFault.not_isMachineFault
  | binary op a b iha ihb =>
    refine blamesLookup_andThen iha fun _ => blamesLookup_andThen ihb fun _ => ?_
    exact blamesLookup_ofExcept
      ((Rule.raises_binary _ _ _).mono fun _ => IsRuleFault.not_isMachineFault)
  | call f args ih =>
    refine blamesLookup_andThen (blamesLookup_all ih) fun _ => blamesLookup_ofExcept ?_
    exact (Rule.raises_builtin _ _ _).mono fun _ => IsRuleFault.not_isMachineFault

end

/-- **The machine refines evaluation by recursion**: a program in postorder has the outcome of its
tree, look-ups and errors included.  An error of the machine itself can only be the answer of a
look-up. -/
theorem evaluate_postorder (t : Tree) (source : String) (names : List String) (context : Context) :
    (∀ settings : Except Error Settings,
      evaluate settings ⟨source, t.postorder, names⟩ context = t.evaluate settings context) ∧
    ∀ (settings : Settings) (e : Error),
      (evaluate (.ok settings) ⟨source, t.postorder, names⟩ context).result = .error e →
      e.IsMachineFault →
      ∃ lookup, context.lookup? = some lookup ∧
        ∃ path ∈ (t.evaluate (.ok settings) context).lookups, lookup path = .error e := by
  refine ⟨fun settings => evaluate_eq_tree settings t source names context, ?_⟩
  intro settings e he hm
  rw [evaluate_eq_tree] at he
  cases hlookup : context.lookup? with
  | none =>
    simp only [Tree.evaluate, hlookup] at he
    cases he
    exact hm.elim
  | some lookup =>
    simp only [Tree.evaluate, hlookup] at he ⊢
    exact ⟨lookup, rfl, blamesLookup_eval settings.tolerance t e he hm⟩

/-- `-x` where the look-up of `x` answers with an error of the machine: the error passes through and
is put down to the look-up. -/
theorem evaluate_minus_of_failing_lookup :
    (evaluate (.ok {}) ⟨"-x", (Tree.unary .minus (.name "x" "")).postorder, ["x"]⟩
        (.bare fun _ => .error (.unknownFunction "g"))).result =
      .error (.unknownFunction "g") ∧
    ∃ lookup, (Context.bare fun _ => .error (.unknownFunction "g")).lookup? = some lookup ∧
      ∃ path ∈ ["x"], lookup path = .error (.unknownFunction "g") :=
  ⟨rfl, (evaluate_postorder (.unary .minus (.name "x" "")) "-x" ["x"]
    (.bare fun _ => .error (.unknownFunction "g"))).2 {} (.unknownFunction "g") rfl trivial⟩

end Formula

end Dimensional
