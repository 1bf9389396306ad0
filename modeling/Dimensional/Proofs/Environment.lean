import Dimensional.Proofs.Fallible
import Dimensional.Session

/-!
# Whom a failed reading of the settings blames

Reading the settings from an environment fails with nothing but the name and the text of a variable
that is set, whatever validates these texts (`Environment.raises_settingsBy`), and an engine fails
to give its settings just where the environment that it would read them from does
(`Engine.raises_settings`).
-/

namespace Dimensional

open Fallible

namespace Environment

/-- The text of a variable, if it is one of the two and is set. -/
def value? (env : Environment) (variableName : String) : Option String :=
  if variableName = toleranceVariable then env.tolerance
  else if variableName = floatErrorsVariable then env.floatErrors
  else none

/-- The error blames a variable that is set, and shows its text: the one that stands in the
environment, before it was tidied. -/
def IsBlamed (env : Environment) (e : Error) : Prop :=
  ∃ variableName value detail,
    e = .configuration variableName value detail ∧ env.value? variableName = some value

theorem eq_some_of_given? {value : Option String} {text : String} (h : given? value = some text) :
    value = some text := by
  cases value with
  | none => cases h
  | some value =>
    rw [given?] at h
    split at h
    · cases h
    · exact h

theorem raises_readVariable {α : Type} (env : Environment) {variableName : String}
    {value : Option String} (hvalue : env.value? variableName = value) (fallback : α)
    (tidy : List Char → List Char) (validate : String → Except String α) :
    Raises env.IsBlamed (readVariable variableName value fallback tidy validate) := by
  unfold readVariable
  split
  · exact raises_ok fallback
  · next text hgiven =>
    cases validate (String.ofList (tidy text.toList)) with
    | ok a => exact raises_ok a
    | error detail =>
      exact raises_error ⟨_, text, _, rfl, hvalue.trans (eq_some_of_given? hgiven)⟩

/-- Whatever validates the texts, a failed reading blames a variable that is set.  No more than
the first failure is reported, so the two variables are dealt with one after the other. -/
theorem raises_settingsBy (v : Validation) (env : Environment) :
    Raises env.IsBlamed (env.settingsBy v) :=
  raises_bind (raises_readVariable env rfl _ _ _) fun _ =>
    raises_bind (raises_readVariable env rfl _ _ _) fun _ => raises_ok _

end Environment

namespace Engine

theorem raises_settings (engine : Engine) :
    Raises engine.environment.IsBlamed engine.settings.1 := by
  unfold settings settingsBy
  split
  · exact raises_ok _
  · have hraises := engine.environment.raises_settingsBy .ofFields
    split
    · exact raises_ok _
    · next e he => exact raises_error (hraises e he)

end Engine

end Dimensional
