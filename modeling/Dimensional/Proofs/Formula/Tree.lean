import Dimensional.Formula.Token

/-!
# Expression trees

The expressions that formulas stand for, apart from how they are written down.  A tree is read off
in postorder as a program (`Tree.postorder`), and programs are put together into trees again by a
machine that works on trees instead of quantities (`Tree.assemble`).

* `assemble_postorder` — the machine puts a tree on the stack when it meets the tree's program.
* `postorder_of_assemble` — what the machine has on its stack is what it has read.
* `postorder_injective` — a program is the postorder of at most one tree.
-/

namespace Dimensional.Formula

/-- An expression: a number or a name with the text of its unit, an operator on its operands, or a
call of a function with as many arguments as the function takes. -/
inductive Tree where
  | number (value : Float) (unitText : String)
  | name (path unitText : String)
  | unary (op : UnaryOp) (a : Tree)
  | binary (op : BinaryOp) (a b : Tree)
  | call (f : Builtin) (args : Fin f.arity → Tree)

namespace Tree

def callToken (f : Builtin) : Token := .call (.builtin f) f.arity

/-- Every function takes some argument. -/
theorem ofFn_ne_nil {α : Type} {f : Builtin} (args : Fin f.arity → α) : List.ofFn args ≠ [] := by
  have harity : f.arity ≠ 0 := by cases f <;> decide
  simpa [List.ofFn_eq_nil_iff] using harity

/-- The tokens of a tree with all operands in front of what is applied to them. -/
def postorder : Tree → List Token
  | .number value unitText => [.number value unitText]
  | .name path unitText => [.name path unitText]
  | .unary op a => a.postorder ++ [.operator (.unary op)]
  | .binary op a b => a.postorder ++ b.postorder ++ [.operator (.binary op)]
  | .call f args => (List.ofFn fun i => (args i).postorder).flatten ++ [callToken f]

theorem postorder_call (f : Builtin) (args : Fin f.arity → Tree) :
    (Tree.call f args).postorder = (List.ofFn args).flatMap postorder ++ [callToken f] := by
  rw [postorder, List.flatMap_def, List.map_ofFn]
  rfl

/-! ### Putting trees together

A machine with the stack discipline of evaluation, but with trees on its stack: nothing can go
wrong in it except that operands are missing.  One step appends its token to the program of what
is on the stack (`assembled_of_push`), so a run appends its tokens. -/

/-- The call of a function with the trees on top of the stack as its arguments, the last one on
top.  The hypothesis says that there are enough of them, so that no tree has to stand in for a
missing one. -/
def callTop (f : Builtin) (stack : List Tree) (h : f.arity ≤ stack.length) : Tree :=
  .call f fun i => stack[f.arity - 1 - i]

def push (stack : List Tree) : Token → Option (List Tree)
  | .number value unitText => some (.number value unitText :: stack)
  | .name path unitText => some (.name path unitText :: stack)
  | .operator (.unary op) =>
    match stack with
    | a :: rest => some (.unary op a :: rest)
    | _ => none
  | .operator (.binary op) =>
    match stack with
    | b :: a :: rest => some (.binary op a b :: rest)
    | _ => none
  | .call (.builtin f) arity =>
    if h : f.arity ≤ stack.length then
      if arity = f.arity then some (callTop f stack h :: stack.drop f.arity) else none
    else none
  | _ => none

def assemble (stack : List Tree) : List Token → Option (List Tree)
  | [] => some stack
  | token :: rest => (push stack token).bind fun stack => assemble stack rest

/-- What a stack of trees was assembled from: the trees' programs, the lowest first. -/
def assembled (stack : List Tree) : List Token := stack.reverse.flatMap postorder

@[simp] theorem assembled_cons (t : Tree) (stack : List Tree) :
    assembled (t :: stack) = assembled stack ++ t.postorder := by
  simp [assembled]

theorem assembled_append (upper lower : List Tree) :
    assembled (upper ++ lower) = assembled lower ++ assembled upper := by
  simp [assembled]

/-- The arguments that a call takes off the stack, from left to right. -/
theorem ofFn_getElem_top {n : Nat} {stack : List Tree} (h : n ≤ stack.length) :
    (List.ofFn fun i : Fin n => stack[n - 1 - i]) = (stack.take n).reverse := by
  apply List.ext_getElem
  · simp [h]
  · intro i hi _
    have hn : i < n := by simpa using hi
    simp [Nat.min_eq_left h]

theorem assembled_callTop {f : Builtin} {stack : List Tree} (h : f.arity ≤ stack.length) :
    assembled (callTop f stack h :: stack.drop f.arity) = assembled stack ++ [callToken f] := by
  have hargs : (List.ofFn fun i : Fin f.arity => stack[f.arity - 1 - i]).flatMap postorder =
      assembled (stack.take f.arity) := by
    rw [ofFn_getElem_top h, assembled]
  rw [assembled_cons, callTop, postorder_call, hargs, ← List.append_assoc, ← assembled_append,
    List.take_append_drop]

/-- One token goes onto the stack as the end of what was assembled. -/
theorem assembled_of_push {stack stack' : List Tree} {token : Token}
    (h : push stack token = some stack') : assembled stack' = assembled stack ++ [token] := by
  -- One case for each sort of token that can be taken, and the rest are void.
  unfold push at h
  split at h
  · cases h
    simp [postorder]
  · cases h
    simp [postorder]
  · split at h
    · cases h
      simp [postorder]
    · cases h
  · split at h
    · cases h
      simp [postorder]
    · cases h
  · split at h
    · next hlen =>
      split at h
      · next harity =>
        cases h
        rw [assembled_callTop hlen, callToken, harity]
      · cases h
    · cases h
  · cases h

/-- The trees on the stack have exactly the tokens that were read. -/
theorem postorder_of_assemble {stack stack' : List Tree} {program : List Token}
    (h : assemble stack program = some stack') :
    assembled stack' = assembled stack ++ program := by
  induction program generalizing stack with
  | nil =>
    cases h
    simp
  | cons token rest ih =>
    obtain ⟨next, hpush, hrest⟩ := Option.bind_eq_some_iff.1 h
    rw [ih hrest, assembled_of_push hpush]
    simp

/-! ### Taking trees apart and putting them together

The arguments of a call lie on the stack the last one on top, which is why they are reversed in
the statements.  The induction is on the tree, and for a call there is an induction on the list
of its arguments in between (`assemble_flatMap`). -/

/-- A call takes its own arguments off the stack. -/
theorem callTop_ofFn (f : Builtin) (args : Fin f.arity → Tree) (stack : List Tree)
    (h : f.arity ≤ ((List.ofFn args).reverse ++ stack).length) :
    callTop f ((List.ofFn args).reverse ++ stack) h = .call f args := by
  unfold callTop
  congr 1
  funext i
  rw [List.getElem_append_left (by simp; omega), List.getElem_reverse, List.getElem_ofFn]
  congr 1
  apply Fin.ext
  simp
  omega

theorem push_callToken (f : Builtin) (args : Fin f.arity → Tree) (stack : List Tree) :
    push ((List.ofFn args).reverse ++ stack) (callToken f) = some (.call f args :: stack) := by
  have hlen : f.arity ≤ ((List.ofFn args).reverse ++ stack).length := by simp
  have hdrop : ((List.ofFn args).reverse ++ stack).drop f.arity = stack := by
    rw [List.drop_append_of_le_length (by simp), List.drop_eq_nil_of_le (by simp),
      List.nil_append]
  simp only [callToken, push]
  rw [dif_pos hlen, if_pos trivial, callTop_ofFn, hdrop]

/-- A list of programs puts a list of trees on the stack, the last one on top. -/
theorem assemble_flatMap (ts : List Tree) (stack : List Tree) (rest : List Token)
    (ih : ∀ t ∈ ts, ∀ stack rest,
      assemble stack (t.postorder ++ rest) = assemble (t :: stack) rest) :
    assemble stack (ts.flatMap postorder ++ rest) = assemble (ts.reverse ++ stack) rest := by
  induction ts generalizing stack with
  | nil => rfl
  | cons t ts ihts =>
    rw [List.flatMap_cons, List.append_assoc, ih t List.mem_cons_self,
      ihts _ fun u hu => ih u (List.mem_cons_of_mem _ hu)]
    simp

/-- The program of a tree puts the tree on the stack. -/
theorem assemble_postorder (t : Tree) (stack : List Tree) (rest : List Token) :
    assemble stack (t.postorder ++ rest) = assemble (t :: stack) rest := by
  -- For any stack and any rest, since operands have their siblings there.
  induction t generalizing stack rest with
  | number value unitText => rfl
  | name path unitText => rfl
  | unary op a ih =>
    rw [postorder, List.append_assoc, ih]
    rfl
  | binary op a b iha ihb =>
    rw [postorder, List.append_assoc, List.append_assoc, iha, ihb]
    rfl
  | call f args ih =>
    have hargs : ∀ t ∈ List.ofFn args, ∀ stack rest,
        assemble stack (t.postorder ++ rest) = assemble (t :: stack) rest := by
      intro t ht
      obtain ⟨i, rfl⟩ := List.mem_ofFn.1 ht
      exact ih i
    rw [postorder_call, List.append_assoc, assemble_flatMap _ _ _ hargs, List.singleton_append,
      assemble, push_callToken]
    rfl

/-- Trees with the same program are the same.  The machine that puts trees together is left with
the one as well as with the other. -/
theorem postorder_injective {t u : Tree} (h : t.postorder = u.postorder) : t = u := by
  -- The machine that reads the common program is left with either tree.
  have ht := assemble_postorder t [] []
  have hu := assemble_postorder u [] []
  rw [h, hu] at ht
  simpa [assemble] using ht.symm

end Tree

end Dimensional.Formula
