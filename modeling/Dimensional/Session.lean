import Dimensional.Draft
import Dimensional.Formula.Evaluate

/-!
# Sessions

In a session formulas, bindings and units are kept in registers and used step by step.  Each of the
three sorts has registers of its own, so one name may stand for one of each.

The settings come from the environment, but only once: they are read when a step first needs them
and then kept until they are forgotten.  A failed reading keeps nothing, so that the environment can
be repaired.
-/

namespace Dimensional

/-! ### Settings that are read once -/

/-- The environment, and the settings once they have been read from it.  Settings that could not
be read are not kept, so that reading them is tried again. -/
structure Engine where
  environment : Environment := {}
  kept : Option Settings := none

namespace Engine

/-- The settings, and the engine that keeps them. -/
def settingsBy (v : Validation) (e : Engine) : Except Error Settings × Engine :=
  match e.kept with
  | some s => (.ok s, e)
  | none =>
    match e.environment.settingsBy v with
    | .ok s => (.ok s, { e with kept := some s })
    | .error err => (.error err, e)

def settings (e : Engine) : Except Error Settings × Engine := e.settingsBy .ofFields

def setVariable (e : Engine) (variableName : String) (value : Option String) :
    Except Error Engine := do
  return { e with environment := ← e.environment.assign variableName value }

def reset (e : Engine) : Engine := { e with kept := none }

/-- The quantity of a formula in a context, under the settings of the engine.  Where names cannot be
looked up, the settings are not read. -/
def evaluateBy (v : Validation) (e : Engine) (f : Formula) (context : Context) :
    Outcome Quantity × Engine :=
  match context.lookup? with
  | none => (f.evaluate (e.settingsBy v).1 context, e)
  | some _ => (f.evaluate (e.settingsBy v).1 context, (e.settingsBy v).2)

/-- The quantity of a formula in a context, under settings that are validated like fields. -/
def evaluate (e : Engine) (f : Formula) (context : Context) : Outcome Quantity × Engine :=
  e.evaluateBy .ofFields f context

end Engine

/-! ### Steps

A step answers and leaves a session behind.  One that fails leaves the registers as they are,
with the one exception that `keepUnit` tells of; settings that were read on the way are kept
even then. -/

structure Session where
  engine : Engine := {}
  formulas : Table Formula := .empty
  contexts : Table Bindings := .empty
  units : Table MeasureUnit := .empty

/-- A step of a session.  Registers are given by name; `target` is the one that a step sets. -/
inductive Step where
  | context (draft : BindingsDraft) (target : String)
  | bind (source name : String) (item : ItemDraft) (target : String)
  | merge (source other target : String)
  | list (source : String)
  | derive (formula source name target : String)
  | lookup (source name : String)
  | contains (source name : String)
  | compile (text : Option String) (target : String)
  | evaluate (formula source : String)
  | parseUnit (text : Option String) (target : String)
  | makeUnit (scale dims : Datum) (text target : String)
  | unitOne (target : String)
  | mul (a b target : String)
  | div (a b target : String)
  | pow (a : String) (exponent : Datum) (target : String)
  | setVariable (variableName : String) (value : Option String)
  | reset
  | settings
  | agree (a b : List Datum)
  | isOne (a : List Datum)

inductive Reply where
  | done
  | flag (b : Bool)
  | settings (s : Settings)
  | formula (f : Formula)
  | bindings (b : Bindings)
  | quantity (q : Quantity)
  | evaluated (o : Outcome Quantity)
  | unit (u : MeasureUnit) (isOne : Bool)

namespace Session

def read {α : Type} (registers : Table α) (register : String) : Except Error α :=
  match registers.find? register with
  | some a => .ok a
  | none => .error (.missingKey register)

def formula (s : Session) (register : String) : Except Error Formula := read s.formulas register

def bindings (s : Session) (register : String) : Except Error Bindings := read s.contexts register

def unit (s : Session) (register : String) : Except Error MeasureUnit := read s.units register

def answer (s : Session) (reply : Except Error Reply) : Except Error Reply × Session := (reply, s)

/-- Sets a register to bindings and answers with them, if there are any. -/
def keepBindings (s : Session) (target : String) :
    Except Error Bindings → Except Error Reply × Session
  | .ok b => (.ok (.bindings b), { s with contexts := s.contexts.insert target b })
  | .error e => (.error e, s)

def keepFormula (s : Session) (target : String) :
    Except Error Formula → Except Error Reply × Session
  | .ok f => (.ok (.formula f), { s with formulas := s.formulas.insert target f })
  | .error e => (.error e, s)

/-- Answers a question that depends on the tolerance of the settings. -/
def withTolerance (s : Session) (ask : Float → Reply) : Except Error Reply × Session :=
  let (settings, engine) := s.engine.settings
  (settings.map fun settings => ask settings.tolerance, { s with engine })

/-- Sets a register to a unit and answers with it, if there is one.  The register stays set even if
the settings that the answer needs cannot be read. -/
def keepUnit (s : Session) (target : String) :
    Except Error MeasureUnit → Except Error Reply × Session
  | .ok u =>
    let s := { s with units := s.units.insert target u }
    s.withTolerance fun tolerance => .unit u (u.dims.isOne tolerance)
  | .error e => (.error e, s)

def evaluate (s : Session) (formula source : String) :
    Except Error (Outcome Quantity × Session) := do
  let f ← s.formula formula
  let b ← s.bindings source
  let (outcome, engine) := s.engine.evaluate f (.table b)
  return (outcome, { s with engine })

/-- Binds a name to the result of a formula. -/
def derive (s : Session) (formula source name target : String) : Except Error Reply × Session :=
  match s.evaluate formula source with
  | .error e => (.error e, s)
  | .ok (outcome, s) =>
    s.keepBindings target do
      let q ← outcome.result
      (← s.bindings source).bind name (.quantity q)

def perform (s : Session) : Step → Except Error Reply × Session
  | .context draft target => s.keepBindings target draft.build
  | .bind source name item target => s.keepBindings target do
    let b ← s.bindings source
    b.bind name (← item.build)
  | .merge source other target => s.keepBindings target do
    return (← s.bindings source).merge (← s.bindings other)
  | .list source => s.answer ((s.bindings source).map .bindings)
  | .derive formula source name target => s.derive formula source name target
  | .lookup source name => s.answer do return .quantity (← (← s.bindings source).lookup name)
  | .contains source name => s.answer do return .flag ((← s.bindings source).contains name)
  | .compile text target => s.keepFormula target (Formula.compileGiven text)
  | .evaluate formula source =>
    match s.evaluate formula source with
    | .ok (outcome, s) => (.ok (.evaluated outcome), s)
    | .error e => (.error e, s)
  | .parseUnit text target => s.keepUnit target (MeasureUnit.parseGiven text)
  | .makeUnit scale dims text target => s.keepUnit target (MeasureUnit.ofData scale dims text)
  | .unitOne target => s.keepUnit target (.ok .one)
  | .mul a b target => s.keepUnit target do return (← s.unit a).mul (← s.unit b)
  | .div a b target => s.keepUnit target do (← s.unit a).div (← s.unit b)
  | .pow a exponent target => s.keepUnit target do (← s.unit a).pow (← exponent.toFloat)
  | .setVariable variableName value =>
    match s.engine.setVariable variableName value with
    | .ok engine => (.ok .done, { s with engine })
    | .error e => (.error e, s)
  | .reset => (.ok .done, { s with engine := s.engine.reset })
  | .settings =>
    let (settings, engine) := s.engine.settings
    (settings.map .settings, { s with engine })
  | .agree a b =>
    match Datum.toFloats a, Datum.toFloats b with
    | .ok a, .ok b => s.withTolerance fun tolerance => .flag (Exponents.agree tolerance a b)
    | .error e, _ | _, .error e => (.error e, s)
  | .isOne a =>
    match Datum.toFloats a with
    | .ok a => s.withTolerance fun tolerance => .flag (Exponents.isZero tolerance a)
    | .error e => (.error e, s)

def performAll (s : Session) : List Step → List (Except Error Reply) × Session
  | [] => ([], s)
  | step :: rest =>
    let (reply, s) := s.perform step
    let (replies, s) := s.performAll rest
    (reply :: replies, s)

end Session

end Dimensional
