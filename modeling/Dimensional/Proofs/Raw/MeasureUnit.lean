import Dimensional.MeasureUnit.Parse
import Dimensional.Proofs.Failure
import Dimensional.Proofs.Raw.Exponents

/-!
# Unit expressions over raw exponents

The stack of a unit expression holds units whose exponents are plain lists, and every new unit makes
of its exponents what the handling of raw exponents says.  Under a sound handling the run of an
expression is, unit by unit, that over dimensions (`foldlM_step_ofOperand`), and so is what a text
is parsed into (`parse_eq`): whatever the handling does about lists of another length, it never has
to.
-/

namespace Dimensional

open Exponents Fallible

/-- A unit of measure with exponents of any number. -/
structure RawUnit where
  scale : Float
  exponents : Exponents
  text : String

inductive RawOperand where
  | scalar (s : Scalar)
  | unit (u : RawUnit)

namespace RawUnit

/-- A unit of measure, of which it is forgotten that it has eight exponents. -/
def ofUnit (u : MeasureUnit) : RawUnit := ⟨u.scale, u.dims.exponents, u.text⟩

section

variable (h : Handling)

def make (scale : Float) (exponents : Exponents) (text : String) : Except Error RawUnit := do
  return ⟨scale, ← h.accept exponents, text⟩

def mul (a b : RawUnit) : Except Error RawUnit := do
  make h (a.scale * b.scale) (← h.add a.exponents b.exponents) ""

def div (a b : RawUnit) : Except Error RawUnit := do
  let scale ← liftFault (divide a.scale b.scale)
  make h scale (← h.sub a.exponents b.exponents) ""

def pow (a : RawUnit) (x : Float) : Except Error RawUnit := do
  let scale ← liftFault (Scalar.realPow a.scale x)
  make h (← scale.toFloat) (a.exponents.scale x) ""

def ofName (name : String) : Except Error RawUnit := do
  let unit ← MeasureUnit.ofName name
  make h unit.scale unit.dims.exponents unit.text

end

end RawUnit

namespace RawOperand

def ofOperand : MeasureUnit.Operand → RawOperand
  | .scalar s => .scalar s
  | .unit u => .unit (.ofUnit u)

def toReal? : RawOperand → Option Float
  | .scalar (.real x) => some x
  | _ => none

section

variable (h : Handling)

def toUnit : RawOperand → Except Error RawUnit
  | .scalar s => do RawUnit.make h (← s.toFloat) Dimension.one.exponents ""
  | .unit u => .ok u

def mul : RawOperand → RawOperand → Except Error RawOperand
  | .scalar (.real x), .scalar (.real y) => .ok (.scalar (.real (x * y)))
  | a, b => do
    let a ← a.toUnit h
    let b ← b.toUnit h
    return .unit (← a.mul h b)

def div : RawOperand → RawOperand → Except Error RawOperand
  | .scalar (.real x), .scalar (.real y) => return .scalar (.real (← liftFault (divide x y)))
  | a, b => do
    let a ← a.toUnit h
    let b ← b.toUnit h
    return .unit (← a.div h b)

def pow : RawOperand → Float → Except Error RawOperand
  | .scalar s, y => return .scalar (← liftFault (s.pow y))
  | .unit u, y => return .unit (← u.pow h y)

def power (text : String) (position : Nat) (a b : RawOperand) : Except Error RawOperand :=
  match b.toReal? with
  | some y => MeasureUnit.Operand.locate text position (a.pow h y)
  | none => .error (.parse .exponentNotNumeric text (some position))

def applyTop (text : String) (position : Nat) (symbol : Char)
    (operation : RawOperand → RawOperand → Except Error RawOperand) :
    List RawOperand → Except Error (List RawOperand)
  | b :: a :: rest => return (← operation a b) :: rest
  | _ => .error (.parse (.missingUnitOperand symbol) text (some position))

def step (text : String) (stack : List RawOperand) (token : MeasureUnit.Token) :
    Except Error (List RawOperand) :=
  match token.lexeme with
  | .number x => .ok (.scalar (.real x) :: stack)
  | .name s => return .unit (← RawUnit.ofName h s) :: stack
  | .times =>
    applyTop text token.position '*'
      (fun a b => MeasureUnit.Operand.locate text token.position (a.mul h b)) stack
  | .over =>
    applyTop text token.position '/'
      (fun a b => MeasureUnit.Operand.locate text token.position (a.div h b)) stack
  | .power => applyTop text token.position '^' (power h text token.position) stack
  | .opens | .closes => .ok stack

end

end RawOperand

namespace RawUnit

variable (h : Handling)

def ofStack (given normal : String) : List RawOperand → Except Error RawUnit
  | [operand] => do
    let unit ← operand.toUnit h
    if MeasureUnit.isUsableScale unit.scale then make h unit.scale unit.exponents given
    else throw (.parse (.unusableScale given) normal none)
  | _ => .error (.parse (.unparsableUnit given) normal none)

/-- The unit that a text stands for; a blank text stands for the unit of pure numbers. -/
def parse (given : String) : Except Error RawUnit := do
  let normal := MeasureUnit.Spelling.normalize given.toList
  if normal.isEmpty then make h 1.0 Dimension.one.exponents ""
  else
    let text := String.ofList normal
    let program ← MeasureUnit.Token.toPostfix text (← MeasureUnit.Token.scan normal)
    ofStack h given text (← program.foldlM (RawOperand.step h text) [])

end RawUnit

/-! ### What is forgotten does not matter

One lemma for each operation says that it does on units without their proof of eight exponents
what it does on units.  They hold because no operation on eight exponents makes another number of
them, so the handling is only ever asked about eight. -/

namespace RawUnit

variable {h : Handling} (hs : h.Sound)
include hs

theorem make_exponents (scale : Float) (d : Dimension) (text : String) :
    make h scale d.exponents text = .ok (ofUnit ⟨scale, d, text⟩) := by
  rw [make, hs.accept_exponents]
  rfl

theorem mul_ofUnit (a b : MeasureUnit) : (ofUnit a).mul h (ofUnit b) = .ok (ofUnit (a.mul b)) := by
  rw [mul]
  show (h.add a.dims.exponents b.dims.exponents >>= _) = _
  rw [hs.add_exponents]
  exact make_exponents hs _ _ _

theorem div_ofUnit (a b : MeasureUnit) :
    (ofUnit a).div h (ofUnit b) = (a.div b).map ofUnit := by
  rw [div, MeasureUnit.div]
  show (liftFault (divide a.scale b.scale) >>= fun scale =>
    h.sub a.dims.exponents b.dims.exponents >>= _) = _
  rw [hs.sub_exponents]
  cases liftFault (divide a.scale b.scale) with
  | error e => rfl
  | ok scale => exact make_exponents hs _ _ _

theorem pow_ofUnit (a : MeasureUnit) (x : Float) :
    (ofUnit a).pow h x = (a.pow x).map ofUnit := by
  rw [pow, MeasureUnit.pow]
  show (liftFault (Scalar.realPow a.scale x) >>= fun scale =>
    scale.toFloat >>= fun scale => make h scale (a.dims.pow x).exponents "") = _
  simp only [make_exponents hs, bind_then_map]
  rfl

theorem ofName_eq (name : String) : ofName h name = (MeasureUnit.ofName name).map ofUnit := by
  rw [ofName]
  simp only [make_exponents hs]
  cases MeasureUnit.ofName name <;> rfl

end RawUnit

namespace RawOperand

theorem map_locate {α β : Type} (text : String) (position : Nat) (x : Except Error α)
    (f : α → β) :
    (MeasureUnit.Operand.locate text position x).map f =
      MeasureUnit.Operand.locate text position (x.map f) := by
  cases x with
  | ok a => rfl
  | error e => cases e <;> rfl

/-- A plain number is one whatever is forgotten. -/
theorem toReal?_ofOperand (a : MeasureUnit.Operand) : (ofOperand a).toReal? = a.toReal? := by
  obtain (x | z) | u := a <;> rfl

variable {h : Handling} (hs : h.Sound)
include hs

theorem toUnit_ofOperand (a : MeasureUnit.Operand) :
    (ofOperand a).toUnit h = a.toUnit.map RawUnit.ofUnit := by
  obtain s | u := a
  · show (s.toFloat >>= fun scale => RawUnit.make h scale Dimension.one.exponents "") =
      (s.toFloat >>= fun scale => .ok ⟨scale, .one, ""⟩).map RawUnit.ofUnit
    simp only [RawUnit.make_exponents hs, bind_then_map]
    rfl
  · rfl

theorem mul_ofOperand (a b : MeasureUnit.Operand) :
    (ofOperand a).mul h (ofOperand b) = (a.mul b).map ofOperand := by
  -- Two plain numbers have a plain product; all other operands are made units first.
  have hunits : ((ofOperand a).toUnit h >>= fun a => (ofOperand b).toUnit h >>= fun b =>
      a.mul h b >>= fun c => .ok (.unit c)) =
      (a.toUnit >>= fun a => b.toUnit >>= fun b => .ok (.unit (a.mul b))).map ofOperand := by
    simp only [toUnit_ofOperand hs, map_then_bind, bind_then_map, RawUnit.mul_ofUnit hs]
    rfl
  obtain (x | z) | u := a
  · obtain (y | w) | v := b
    · rfl
    · exact hunits
    · exact hunits
  · exact hunits
  · exact hunits

theorem div_ofOperand (a b : MeasureUnit.Operand) :
    (ofOperand a).div h (ofOperand b) = (a.div b).map ofOperand := by
  have hunits : ((ofOperand a).toUnit h >>= fun a => (ofOperand b).toUnit h >>= fun b =>
      a.div h b >>= fun c => .ok (.unit c)) =
      (a.toUnit >>= fun a => b.toUnit >>= fun b => a.div b >>= fun c =>
        .ok (.unit c)).map ofOperand := by
    simp only [toUnit_ofOperand hs, map_then_bind, bind_then_map, RawUnit.div_ofUnit hs]
    rfl
  obtain (x | z) | u := a
  · obtain (y | w) | v := b
    · show (liftFault (divide x y) >>= _) = (liftFault (divide x y) >>= _).map ofOperand
      rw [bind_then_map]
      rfl
    · exact hunits
    · exact hunits
  · exact hunits
  · exact hunits

theorem pow_ofOperand (a : MeasureUnit.Operand) (y : Float) :
    (ofOperand a).pow h y = (a.pow y).map ofOperand := by
  obtain s | u := a
  · show (liftFault (s.pow y) >>= _) = (liftFault (s.pow y) >>= _).map ofOperand
    rw [bind_then_map]
    rfl
  · show ((RawUnit.ofUnit u).pow h y >>= _) = (u.pow y >>= _).map ofOperand
    rw [RawUnit.pow_ofUnit hs, map_then_bind, bind_then_map]
    rfl

theorem power_ofOperand (text : String) (position : Nat) (a b : MeasureUnit.Operand) :
    power h text position (ofOperand a) (ofOperand b) =
      (a.power text position b).map ofOperand := by
  rw [power, MeasureUnit.Operand.power, toReal?_ofOperand]
  cases b.toReal? with
  | none => rfl
  | some y =>
    simp only [pow_ofOperand hs]
    exact (map_locate text position (a.pow y) ofOperand).symm

omit hs in
/-- An operation that does on raw operands what another does on operands does so on a stack. -/
theorem applyTop_ofOperand {raw : RawOperand → RawOperand → Except Error RawOperand}
    {operation : MeasureUnit.Operand → MeasureUnit.Operand → Except Error MeasureUnit.Operand}
    (hsame : ∀ a b, raw (ofOperand a) (ofOperand b) = (operation a b).map ofOperand)
    (text : String) (position : Nat) (symbol : Char) (stack : List MeasureUnit.Operand) :
    applyTop text position symbol raw (stack.map ofOperand) =
      (MeasureUnit.Operand.applyTop text position symbol operation stack).map
        (List.map ofOperand) := by
  obtain _ | ⟨b, _ | ⟨a, rest⟩⟩ := stack
  · rfl
  · rfl
  · show (raw (ofOperand a) (ofOperand b) >>= _) = (operation a b >>= _).map _
    rw [hsame, map_then_bind, bind_then_map]
    rfl

/-- One token over raw exponents does what it does over dimensions. -/
theorem step_ofOperand (text : String) (stack : List MeasureUnit.Operand)
    (token : MeasureUnit.Token) :
    step h text (stack.map ofOperand) token =
      (MeasureUnit.Operand.step text stack token).map (List.map ofOperand) := by
  obtain ⟨_ | _ | _ | _ | _ | x | s, position⟩ := token
  · refine applyTop_ofOperand (fun a b => ?_) text position '*' stack
    rw [mul_ofOperand hs, map_locate]
  · refine applyTop_ofOperand (fun a b => ?_) text position '/' stack
    rw [div_ofOperand hs, map_locate]
  · exact applyTop_ofOperand (power_ofOperand hs text position) text position '^' stack
  · rfl
  · rfl
  · rfl
  · show (RawUnit.ofName h s >>= _) = (MeasureUnit.ofName s >>= _).map _
    rw [RawUnit.ofName_eq hs, map_then_bind, bind_then_map]
    rfl

/-- The run of a unit expression over raw exponents is that over dimensions. -/
theorem foldlM_step_ofOperand (text : String) (stack : List MeasureUnit.Operand)
    (tokens : List MeasureUnit.Token) :
    tokens.foldlM (step h text) (stack.map ofOperand) =
      (tokens.foldlM (MeasureUnit.Operand.step text) stack).map (List.map ofOperand) := by
  induction tokens generalizing stack with
  | nil => rfl
  | cons token rest ih =>
    rw [List.foldlM_cons, List.foldlM_cons, step_ofOperand hs, map_then_bind, bind_then_map]
    exact bind_congr fun next => ih next

/-- Every unit that a run puts on the stack has eight exponents. -/
theorem length_of_foldlM_step {text : String} {tokens : List MeasureUnit.Token}
    {stack : List RawOperand} (hrun : tokens.foldlM (step h text) [] = .ok stack) {u : RawUnit}
    (hu : .unit u ∈ stack) : u.exponents.length = 8 := by
  have hsame := foldlM_step_ofOperand hs text [] tokens
  rw [List.map_nil, hrun] at hsame
  -- The stack is that of a run over dimensions with something forgotten.
  obtain ⟨operands, _, rfl⟩ := map_eq_ok_iff.1 hsame.symm
  obtain ⟨s | v, _, heq⟩ := List.mem_map.1 hu
  · cases heq
  · cases heq
    exact v.dims.length_eq

end RawOperand

namespace RawUnit

variable {h : Handling} (hs : h.Sound)
include hs

theorem ofStack_ofOperand (given normal : String) (stack : List MeasureUnit.Operand) :
    ofStack h given normal (stack.map RawOperand.ofOperand) =
      (MeasureUnit.ofStack given normal stack).map ofUnit := by
  obtain _ | ⟨a, _ | ⟨b, rest⟩⟩ := stack
  · rfl
  · show ((RawOperand.ofOperand a).toUnit h >>= fun unit =>
      if MeasureUnit.isUsableScale unit.scale then make h unit.scale unit.exponents given
      else throw (.parse (.unusableScale given) normal none)) = (a.toUnit >>= _).map ofUnit
    rw [RawOperand.toUnit_ofOperand hs, map_then_bind, bind_then_map]
    refine bind_congr fun unit => ?_
    show (if MeasureUnit.isUsableScale unit.scale then
      make h unit.scale unit.dims.exponents given else _) = _
    rw [make_exponents hs]
    split <;> rfl
  · rfl

/-- **A text is parsed into the same unit**, or fails with the same error, whatever becomes of
exponents that are not eight. -/
theorem parse_eq (given : String) : parse h given = (MeasureUnit.parse given).map ofUnit := by
  rw [parse, MeasureUnit.parse]
  simp only
  split
  · exact make_exponents hs _ _ _
  · rw [bind_then_map]
    refine bind_congr fun tokens => ?_
    rw [bind_then_map]
    refine bind_congr fun program => ?_
    rw [bind_then_map]
    have hrun := RawOperand.foldlM_step_ofOperand hs
      (String.ofList (MeasureUnit.Spelling.normalize given.toList)) [] program
    rw [List.map_nil] at hrun
    rw [hrun, map_then_bind]
    exact bind_congr fun stack => ofStack_ofOperand hs _ _ stack

/-- No text is refused for the number of its exponents. -/
theorem parse_ne_exponentCount (given : String) (n : Nat) :
    parse h given ≠ .error (.evaluation (.exponentCount n)) := by
  intro hparse
  rw [parse_eq hs, map_eq_error_iff] at hparse
  exact MeasureUnit.raises_parse given _ hparse

end RawUnit

end Dimensional
