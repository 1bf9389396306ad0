import Dimensional.MeasureUnit.Parse
import Dimensional.Proofs.Fallible

/-!
# Trees of unit expressions

The unit expressions that texts stand for, and the units that they come to by recursion: both
operands of an operation, the left one first, and then the operation (`Tree.eval`).  The stack
machine comes to the same (`foldlM_step_postorder`), but for the places in the text that its errors
name, so that results are compared by the kind of their errors.  And what the machine reduces to a
single operand is the postorder of a tree (`eq_postorder_of_run`), of one only
(`Tree.postorder_injective`).
-/

namespace Dimensional.MeasureUnit

inductive Operation where
  | product
  | quotient
  | power
  deriving DecidableEq

def Operation.lexeme : Operation → Lexeme
  | .product => .times
  | .quotient => .over
  | .power => .power

/-- What an operation at a place in a text makes of its operands.  A fault of arithmetic is a fault
of the text, and so is an exponent that is no plain number. -/
def Operation.apply (text : String) (position : Nat) :
    Operation → Operand → Operand → Except Error Operand
  | .product => fun a b => Operand.locate text position (a.mul b)
  | .quotient => fun a b => Operand.locate text position (a.div b)
  | .power => Operand.power text position

/-- A unit expression: the name of a unit, a number, or an operation on two expressions. -/
inductive Tree where
  | name (s : String)
  | number (x : Float)
  | apply (op : Operation) (a b : Tree)

namespace Tree

/-- What an expression comes to, before it is made a unit.  Its errors name no place. -/
def eval : Tree → Except Error Operand
  | .name s => return .unit (← ofName s)
  | .number x => .ok (.scalar (.real x))
  | .apply op a b => do
    let x ← a.eval
    let y ← b.eval
    op.apply "" 0 x y

/-- The unit that an expression comes to, if its scale is usable; `given` is its text. -/
def unit (given : String) (t : Tree) : Except Error MeasureUnit := do
  let unit ← (← t.eval).toUnit
  if isUsableScale unit.scale then return { unit with text := given }
  else throw (.parse (.unusableScale given) "" none)

def postorder : Tree → List Lexeme
  | .name s => [.name s]
  | .number x => [.number x]
  | .apply op a b => a.postorder ++ b.postorder ++ [op.lexeme]

end Tree

/-! ### Results but for places

Errors of the machine name the place of the operation in the text, and a tree has no places.  The
kinds of the errors are the same, and so are all results. -/

/-- A result with the kind of error alone. -/
def byKind {α : Type} (x : Except Error α) : Except ErrorKind α := x.mapError Error.kind

section

variable {α β : Type}

theorem byKind_bind (x : Except Error α) (f : α → Except Error β) :
    byKind (x >>= f) = byKind x >>= fun a => byKind (f a) :=
  Fallible.mapError_bind x f Error.kind

theorem Operand.locate_eq_ok_iff {text : String} {position : Nat} {x : Except Error α} {a : α} :
    Operand.locate text position x = .ok a ↔ x = .ok a := by
  unfold Operand.locate
  split <;> simp

theorem byKind_locate (text text' : String) (position position' : Nat) (x : Except Error α) :
    byKind (Operand.locate text position x) = byKind (Operand.locate text' position' x) := by
  cases x with
  | ok a => rfl
  | error e => cases e <;> rfl

theorem byKind_apply (text text' : String) (position position' : Nat) (op : Operation)
    (a b : Operand) :
    byKind (op.apply text position a b) = byKind (op.apply text' position' a b) := by
  cases op with
  | product => exact byKind_locate _ _ _ _ _
  | quotient => exact byKind_locate _ _ _ _ _
  | power =>
    simp only [Operation.apply, Operand.power]
    split
    · exact byKind_locate _ _ _ _ _
    · rfl

end

/-! ### The machine agrees -/

/-- An operation takes the two operands on top of the stack, the right one first. -/
theorem step_operation {token : Token} {op : Operation} (h : token.lexeme = op.lexeme)
    (text : String) (a b : Operand) (stack : List Operand) :
    Operand.step text (b :: a :: stack) token =
      op.apply text token.position a b >>= fun c => .ok (c :: stack) := by
  unfold Operand.step
  rw [h]
  cases op <;> rfl

/-- The tokens of a tree in postorder put what the tree comes to on the stack. -/
theorem foldlM_step_postorder {t : Tree} {tokens : List Token}
    (h : tokens.map Token.lexeme = t.postorder) (text : String) (stack : List Operand) :
    byKind (tokens.foldlM (Operand.step text) stack) =
      byKind t.eval >>= fun c => .ok (c :: stack) := by
  induction t generalizing tokens stack with
  | name s =>
    obtain ⟨token, rest, rfl, htoken, hrest⟩ := List.map_eq_cons_iff.1 h
    rw [List.map_eq_nil_iff.1 hrest]
    simp only [List.foldlM_cons, List.foldlM_nil, Operand.step, htoken, Tree.eval]
    cases ofName s <;> rfl
  | number x =>
    obtain ⟨token, rest, rfl, htoken, hrest⟩ := List.map_eq_cons_iff.1 h
    rw [List.map_eq_nil_iff.1 hrest]
    simp only [List.foldlM_cons, List.foldlM_nil, Operand.step, htoken, Tree.eval]
    rfl
  | apply op a b iha ihb =>
    obtain ⟨operands, last, rfl, hoperands, hlast⟩ := List.map_eq_append_iff.1 h
    obtain ⟨left, right, rfl, hleft, hright⟩ := List.map_eq_append_iff.1 hoperands
    obtain ⟨token, rest, rfl, htoken, hrest⟩ := List.map_eq_cons_iff.1 hlast
    rw [List.map_eq_nil_iff.1 hrest, List.foldlM_append, List.foldlM_append, byKind_bind,
      byKind_bind, iha hleft, Tree.eval, byKind_bind]
    -- An operand that fails ends both sides with the kind of its error.
    cases byKind a.eval with
    | error kind => rfl
    | ok x =>
      show (byKind (right.foldlM (Operand.step text) (x :: stack)) >>= _) =
        byKind (b.eval >>= fun y => op.apply "" 0 x y) >>= _
      rw [ihb hright, byKind_bind]
      cases byKind b.eval with
      | error kind => rfl
      | ok y =>
        show byKind ([token].foldlM (Operand.step text) (y :: x :: stack)) =
          byKind (op.apply "" 0 x y) >>= _
        rw [List.foldlM_cons, step_operation htoken, byKind_bind, byKind_bind,
          byKind_apply text "" token.position 0]
        cases byKind (op.apply "" 0 x y) <;> rfl

/-! ### Putting trees together

The machine that applies operations has a twin that only remembers them.  Its stack holds trees,
and a program that leaves one tree is the postorder of that tree and of no other. -/

namespace Tree

def push (stack : List Tree) (lexeme : Lexeme) : Option (List Tree) :=
  match lexeme, stack with
  | .name s, stack => some (.name s :: stack)
  | .number x, stack => some (.number x :: stack)
  | .times, b :: a :: rest => some (.apply .product a b :: rest)
  | .over, b :: a :: rest => some (.apply .quotient a b :: rest)
  | .power, b :: a :: rest => some (.apply .power a b :: rest)
  | _, _ => none

/-- The trees that a program puts on top of those of a stack, if every operation finds two. -/
def assemble (stack : List Tree) : List Lexeme → Option (List Tree)
  | [] => some stack
  | lexeme :: rest => (push stack lexeme).bind fun stack => assemble stack rest

theorem push_operation (op : Operation) (a b : Tree) (stack : List Tree) :
    push (b :: a :: stack) op.lexeme = some (.apply op a b :: stack) := by
  cases op <;> rfl

/-- The lexemes of a tree in postorder put the tree on the stack. -/
theorem assemble_postorder (t : Tree) (stack : List Tree) (rest : List Lexeme) :
    assemble stack (t.postorder ++ rest) = assemble (t :: stack) rest := by
  induction t generalizing stack rest with
  | name s => rfl
  | number x => rfl
  | apply op a b iha ihb =>
    rw [postorder, List.append_assoc, List.append_assoc, iha, ihb, List.singleton_append, assemble,
      push_operation, Option.bind_some]

/-- Trees with the same postorder are the same. -/
theorem postorder_injective {t u : Tree} (h : t.postorder = u.postorder) : t = u := by
  have ht := assemble_postorder t [] []
  have hu := assemble_postorder u [] []
  rw [h, hu] at ht
  simpa [assemble] using ht.symm

/-- What a stack of trees was put together from: their postorders, the lowest first. -/
def assembled (stack : List Tree) : List Lexeme := stack.reverse.flatMap postorder

@[simp] theorem assembled_cons (t : Tree) (stack : List Tree) :
    assembled (t :: stack) = assembled stack ++ t.postorder := by
  simp [assembled]

theorem assembled_of_push {stack stack' : List Tree} {lexeme : Lexeme}
    (h : push stack lexeme = some stack') : assembled stack' = assembled stack ++ [lexeme] := by
  unfold push at h
  split at h
  · cases h
    simp [postorder]
  · cases h
    simp [postorder]
  · cases h
    simp [postorder, Operation.lexeme]
  · cases h
    simp [postorder, Operation.lexeme]
  · cases h
    simp [postorder, Operation.lexeme]
  · cases h

/-- The trees on the stack have exactly the lexemes that were read. -/
theorem postorder_of_assemble {stack stack' : List Tree} {program : List Lexeme}
    (h : assemble stack program = some stack') :
    assembled stack' = assembled stack ++ program := by
  induction program generalizing stack with
  | nil =>
    cases h
    simp
  | cons lexeme rest ih =>
    obtain ⟨next, hpush, hrest⟩ := Option.bind_eq_some_iff.1 h
    rw [ih hrest, assembled_of_push hpush]
    simp

end Tree

/-! ### What runs is the postorder of a tree -/

def Lexeme.isParenthesis : Lexeme → Bool
  | .opens | .closes => true
  | _ => false

/-- An operation that is applied finds two operands and leaves one. -/
theorem length_of_applyTop {text : String} {position : Nat} {symbol : Char}
    {operation : Operand → Operand → Except Error Operand} {stack stack' : List Operand}
    (h : Operand.applyTop text position symbol operation stack = .ok stack') :
    2 ≤ stack.length ∧ stack'.length + 1 = stack.length := by
  unfold Operand.applyTop at h
  split at h
  · obtain ⟨c, _, h⟩ := Fallible.bind_eq_ok_iff.1 h
    cases h
    simp
  · cases h

theorem push_of_applyTop (op : Operation) {text : String} {position : Nat} {symbol : Char}
    {operation : Operand → Operand → Except Error Operand} {stack stack' : List Operand}
    {trees : List Tree} (h : Operand.applyTop text position symbol operation stack = .ok stack')
    (hlen : trees.length = stack.length) :
    ∃ trees', Tree.push trees op.lexeme = some trees' ∧ trees'.length = stack'.length := by
  obtain ⟨hle, hlen'⟩ := length_of_applyTop h
  rw [← hlen] at hle hlen'
  obtain _ | ⟨b, _ | ⟨a, trees⟩⟩ := trees
  · cases hle
  · cases Nat.le_of_succ_le_succ hle
  · refine ⟨_, Tree.push_operation op a b trees, ?_⟩
    simp only [List.length_cons] at hlen' ⊢
    omega

/-- A token that the machine takes is one that puts trees together. -/
theorem push_of_step {text : String} {stack stack' : List Operand} {token : Token}
    {trees : List Tree} (h : Operand.step text stack token = .ok stack')
    (hparenthesis : token.lexeme.isParenthesis = false) (hlen : trees.length = stack.length) :
    ∃ trees', Tree.push trees token.lexeme = some trees' ∧ trees'.length = stack'.length := by
  unfold Operand.step at h
  split at h
  · next x hlexeme =>
    cases h
    exact ⟨.number x :: trees, by rw [hlexeme, Tree.push], by simp [hlen]⟩
  · next s hlexeme =>
    obtain ⟨u, _, h⟩ := Fallible.bind_eq_ok_iff.1 h
    cases h
    exact ⟨.name s :: trees, by rw [hlexeme, Tree.push], by simp [hlen]⟩
  · next hlexeme =>
    rw [hlexeme]
    exact push_of_applyTop .product h hlen
  · next hlexeme =>
    rw [hlexeme]
    exact push_of_applyTop .quotient h hlen
  · next hlexeme =>
    rw [hlexeme]
    exact push_of_applyTop .power h hlen
  · next hlexeme =>
    rw [hlexeme] at hparenthesis
    cases hparenthesis
  · next hlexeme =>
    rw [hlexeme] at hparenthesis
    cases hparenthesis

/-- A program that runs puts trees together, as many as operands are left. -/
theorem assemble_of_run {text : String} {stack stack' : List Operand} {program : List Token}
    {trees : List Tree} (h : program.foldlM (Operand.step text) stack = .ok stack')
    (hparenthesis : ∀ token ∈ program, token.lexeme.isParenthesis = false)
    (hlen : trees.length = stack.length) :
    ∃ trees', Tree.assemble trees (program.map Token.lexeme) = some trees' ∧
      trees'.length = stack'.length := by
  -- Both machines run side by side, with stacks of equal height.
  induction program generalizing stack trees with
  | nil =>
    cases h
    exact ⟨trees, rfl, hlen⟩
  | cons token rest ih =>
    rw [List.foldlM_cons] at h
    obtain ⟨next, hstep, hrest⟩ := Fallible.bind_eq_ok_iff.1 h
    rw [List.forall_mem_cons] at hparenthesis
    obtain ⟨trees', hpush, hlen'⟩ := push_of_step hstep hparenthesis.1 hlen
    rw [List.map_cons, Tree.assemble, hpush]
    exact ih hrest hparenthesis.2 hlen'

/-- A program that leaves one operand is the postorder of a tree. -/
theorem eq_postorder_of_run {text : String} {operand : Operand} {program : List Token}
    (h : program.foldlM (Operand.step text) [] = .ok [operand])
    (hparenthesis : ∀ token ∈ program, token.lexeme.isParenthesis = false) :
    ∃ t : Tree, program.map Token.lexeme = t.postorder := by
  obtain ⟨trees, hassemble, hlen⟩ := @assemble_of_run _ _ _ _ [] h hparenthesis rfl
  obtain ⟨t, rfl⟩ := List.length_eq_one_iff.1 hlen
  have hprogram := Tree.postorder_of_assemble hassemble
  exact ⟨t, by simpa [Tree.assembled] using hprogram.symm⟩

end Dimensional.MeasureUnit
