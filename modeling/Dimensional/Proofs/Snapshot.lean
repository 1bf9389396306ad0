import Dimensional.Proofs.Environment
import Mathlib.Data.List.Induction
import Mathlib.Tactic.Push

/-!
# Which settings an engine uses

An engine reads its settings when they are first needed and keeps them until they are forgotten.
Which settings these are is said here without the engine: they are those of the environment as it
stood at the first successful reading since the last time they were forgotten (`IsSnapshot`).  Each
call changes the snapshot as `isSnapshot_concat_iff` says, and the engine keeps just the snapshot
(`kept_after_iff`).  Nothing of this hangs on how the texts of the variables are validated, so all
of it is said of any `Validation`.  The steps of a session deal with its engine by such calls and by
nothing else (`Session.engine_performAll`), so that a session keeps the snapshot as well
(`Session.kept_performAll_iff`).

Main statement: `settings_snapshot` — all calls that need settings are answered under the snapshot,
and where there is none the environment is to blame and nothing is kept.
-/

namespace Dimensional.Engine

open Fallible

/-! ### Calls

Some calls need settings and some do not, and an evaluation needs them only if names can be
looked up in its context.  `Query.answer` is what a query comes to under given settings, with no
engine in it; the main statement compares an engine with it. -/

/-- What an engine is asked for that may need settings. -/
inductive Query where
  | settings
  | evaluate (f : Formula) (context : Context)
  | agree (a b : Exponents)
  | isOne (a : Exponents)

/-- A call that an engine, its environment or one of the readers of texts is given. -/
inductive Call where
  | setVariable (variableName : String) (value : Option String)
  | reset
  | ask (query : Query)
  | compile (text : String)
  | parseUnit (text : String)

inductive Answer where
  | done
  | settings (s : Settings)
  | quantity (q : Quantity)
  | flag (b : Bool)
  | formula (f : Formula)
  | unit (u : MeasureUnit)

namespace Query

/-- Does the query need settings?  An evaluation without a way to look names up does not. -/
def Reads : Query → Prop
  | .evaluate _ context => ∃ lookup, context.lookup? = some lookup
  | _ => True

def answer (settings : Except Error Settings) : Query → Outcome Answer
  | .settings => .ofExcept (settings.map .settings)
  | .evaluate f context =>
    (f.evaluate settings context).andThen fun q => .ofExcept (.ok (.quantity q))
  | .agree a b => .ofExcept (settings.map fun s => .flag (Exponents.agree s.tolerance a b))
  | .isOne a => .ofExcept (settings.map fun s => .flag (Exponents.isZero s.tolerance a))

/-- Without settings nothing is looked up, and the answer is the error. -/
theorem answer_error {query : Query} (h : query.Reads) (e : Error) :
    query.answer (.error e) = ⟨[], .error e⟩ := by
  cases query with
  | evaluate f context =>
    obtain ⟨lookup, hlookup⟩ := h
    simp only [answer, Formula.evaluate, hlookup]
    rfl
  | settings | agree | isOne => rfl

end Query

/-- The answer to a call, and the engine after it, where `v` validates the variables. -/
def perform (v : Validation) (engine : Engine) : Call → Outcome Answer × Engine
  | .setVariable variableName value =>
    match engine.setVariable variableName value with
    | .ok changed => (.ofExcept (.ok .done), changed)
    | .error e => (.ofExcept (.error e), engine)
  | .reset => (.ofExcept (.ok .done), engine.reset)
  | .ask .settings => (Query.answer (engine.settingsBy v).1 .settings, (engine.settingsBy v).2)
  | .ask (.evaluate f context) =>
    ((engine.evaluateBy v f context).1.andThen fun q => .ofExcept (.ok (.quantity q)),
      (engine.evaluateBy v f context).2)
  | .ask (.agree a b) =>
    (Query.answer (engine.settingsBy v).1 (.agree a b), (engine.settingsBy v).2)
  | .ask (.isOne a) => (Query.answer (engine.settingsBy v).1 (.isOne a), (engine.settingsBy v).2)
  | .compile text => (.ofExcept ((Formula.compile text).map .formula), engine)
  | .parseUnit text => (.ofExcept ((MeasureUnit.parse text).map .unit), engine)

def after (v : Validation) (engine : Engine) (calls : List Call) : Engine :=
  calls.foldl (fun engine call => (engine.perform v call).2) engine

section

variable {v : Validation}

theorem after_concat (engine : Engine) (calls : List Call) (call : Call) :
    engine.after v (calls ++ [call]) = ((engine.after v calls).perform v call).2 := by
  rw [after, after, List.foldl_append]
  rfl

theorem after_append (engine : Engine) (first second : List Call) :
    engine.after v (first ++ second) = (engine.after v first).after v second :=
  List.foldl_append

/-! ### What a call changes -/

/-- The environment after a call: a variable is set, if it can be, or unset. -/
def Call.environment (env : Environment) : Call → Environment
  | .setVariable variableName value =>
    match env.assign variableName value with
    | .ok changed => changed
    | .error _ => env
  | _ => env

def environmentAfter (env : Environment) (calls : List Call) : Environment :=
  calls.foldl Call.environment env

theorem environmentAfter_concat (env : Environment) (calls : List Call) (call : Call) :
    environmentAfter env (calls ++ [call]) = call.environment (environmentAfter env calls) :=
  List.foldl_append

/-- Does the call read the settings, if there are none? -/
def Call.Reads : Call → Prop
  | .ask query => query.Reads
  | _ => False

theorem Call.Reads.ne_reset {call : Call} (h : call.Reads) : call ≠ .reset := by
  rintro rfl
  exact h

theorem environment_settingsBy (engine : Engine) :
    (engine.settingsBy v).2.environment = engine.environment := by
  unfold settingsBy
  split
  · rfl
  · split <;> rfl

theorem fst_settingsBy_eq_ok_iff (engine : Engine) (s : Settings) :
    (engine.settingsBy v).1 = .ok s ↔
      engine.kept = some s ∨ engine.kept = none ∧ engine.environment.settingsBy v = .ok s := by
  unfold settingsBy
  cases engine.kept with
  | some kept => simp
  | none => cases engine.environment.settingsBy v <;> simp

/-- Settings are kept if they could be read. -/
theorem kept_settingsBy_iff (engine : Engine) (s : Settings) :
    (engine.settingsBy v).2.kept = some s ↔ (engine.settingsBy v).1 = .ok s := by
  unfold settingsBy
  cases hkept : engine.kept with
  | some kept => simp [hkept]
  | none => cases engine.environment.settingsBy v <;> simp [hkept]

/-- A query that needs settings is answered under those of the engine, which keeps them. -/
theorem perform_ask {query : Query} (h : query.Reads) (engine : Engine) :
    engine.perform v (.ask query) =
      (query.answer (engine.settingsBy v).1, (engine.settingsBy v).2) := by
  cases query with
  | evaluate f context =>
    obtain ⟨lookup, hlookup⟩ := h
    simp only [perform, evaluateBy, hlookup]
    rfl
  | settings | agree | isOne => rfl

theorem snd_perform_ask_of_not_reads {query : Query} (h : ¬query.Reads) (engine : Engine) :
    (engine.perform v (.ask query)).2 = engine := by
  cases query with
  | evaluate f context =>
    cases hlookup : context.lookup? with
    | none => simp only [perform, evaluateBy, hlookup]
    | some lookup => exact absurd ⟨lookup, hlookup⟩ h
  | settings | agree | isOne => exact absurd trivial h

/-- Calls change the environment as they do without an engine. -/
theorem environment_perform (engine : Engine) (call : Call) :
    (engine.perform v call).2.environment = call.environment engine.environment := by
  cases call with
  | setVariable variableName value =>
    rw [perform, Call.environment, Engine.setVariable]
    cases engine.environment.assign variableName value <;> rfl
  | ask query =>
    by_cases h : query.Reads
    · rw [perform_ask h]
      exact environment_settingsBy engine
    · rw [snd_perform_ask_of_not_reads h]
      rfl
  | reset | compile | parseUnit => rfl

/-- A call that reads no settings keeps those that there are, unless it is the one that forgets
them. -/
theorem kept_perform_of_not_reads {call : Call} (h : ¬call.Reads) (hreset : call ≠ .reset)
    (engine : Engine) : (engine.perform v call).2.kept = engine.kept := by
  cases call with
  | setVariable variableName value =>
    rw [perform, Engine.setVariable]
    cases engine.environment.assign variableName value <;> rfl
  | ask query => rw [snd_perform_ask_of_not_reads h]
  | reset => exact absurd rfl hreset
  | compile | parseUnit => rfl

/-- A call that reads the settings keeps those that there are, or else those of the environment. -/
theorem kept_perform_of_reads {call : Call} (h : call.Reads) (engine : Engine) (s : Settings) :
    (engine.perform v call).2.kept = some s ↔
      engine.kept = some s ∨ engine.kept = none ∧ engine.environment.settingsBy v = .ok s := by
  cases call with
  | ask query => rw [perform_ask h, kept_settingsBy_iff, fst_settingsBy_eq_ok_iff]
  | setVariable | reset | compile | parseUnit => exact h.elim

/-! ### Snapshots

The settings in use are determined by the history alone: by where the settings were last
forgotten, and where they were first read successfully since.  Histories grow at the end, so that
is where they are taken apart, and `isSnapshot_concat_iff` is the one step from which the engine
is compared with its history. -/

/-- A call that reads the settings stands behind this part of the history, and none that forgets
them since then.  The reading need not have been successful. -/
def ReadSince (history before : List Call) : Prop :=
  ∃ call behind, history = before ++ call :: behind ∧ call.Reads ∧ .reset ∉ behind

/-- The settings of the environment as it stood at the first successful reading since they were last
forgotten. -/
def IsSnapshot (v : Validation) (start : Environment) (history : List Call) (s : Settings) :
    Prop :=
  ∃ before, ReadSince history before ∧ (environmentAfter start before).settingsBy v = .ok s ∧
    ∀ earlier, ReadSince history earlier → earlier.length < before.length →
      ∀ s', (environmentAfter start earlier).settingsBy v ≠ .ok s'

theorem ReadSince.length_lt {history before : List Call} (h : ReadSince history before) :
    before.length < history.length := by
  obtain ⟨call, behind, rfl, _, _⟩ := h
  simp

/-- What was read before a call was not forgotten, unless by that call. -/
theorem readSince_concat_iff {history before : List Call} {call : Call} :
    ReadSince (history ++ [call]) before ↔
      ReadSince history before ∧ call ≠ .reset ∨ before = history ∧ call.Reads := by
  constructor
  · rintro ⟨read, behind, hsplit, hreads, hreset⟩
    cases behind using List.reverseRecOn with
    | nil =>
      obtain ⟨rfl, rfl⟩ := List.append_singleton_inj.1 hsplit
      exact .inr ⟨rfl, hreads⟩
    | append_singleton behind last _ =>
      rw [← List.cons_append, ← List.append_assoc] at hsplit
      obtain ⟨rfl, rfl⟩ := List.append_singleton_inj.1 hsplit
      refine .inl ⟨⟨read, behind, rfl, hreads, ?_⟩, ?_⟩
      · exact fun hmem => hreset (List.mem_append_left _ hmem)
      · rintro rfl
        exact hreset (List.mem_append_right _ (List.mem_singleton_self _))
  · rintro (⟨⟨read, behind, rfl, hreads, hreset⟩, hne⟩ | ⟨rfl, hreads⟩)
    · refine ⟨read, behind ++ [call], by simp, hreads, ?_⟩
      simpa [hreset] using hne.symm
    · exact ⟨call, [], rfl, hreads, List.not_mem_nil⟩

/-- The first of the successful readings is found, if there is one. -/
theorem exists_isSnapshot {start : Environment} {history before : List Call} {s : Settings}
    (h : ReadSince history before) (hs : (environmentAfter start before).settingsBy v = .ok s) :
    ∃ s', IsSnapshot v start history s' := by
  induction hlength : before.length using Nat.strongRecOn generalizing before s with
  | _ n ih =>
    -- Either no earlier reading was successful, or one was, with a shorter part of the history
    -- before it.
    by_cases hfirst : ∀ earlier, ReadSince history earlier → earlier.length < before.length →
        ∀ s', (environmentAfter start earlier).settingsBy v ≠ .ok s'
    · exact ⟨s, before, h, hs, hfirst⟩
    · push Not at hfirst
      obtain ⟨earlier, hearlier, hlt, s', hs'⟩ := hfirst
      exact ih earlier.length (hlength ▸ hlt) hearlier hs' rfl

/-- **What one call does to the snapshot.**  It stays as it is unless the settings are forgotten;
where there is none, a call that reads the settings takes one from the environment. -/
theorem isSnapshot_concat_iff {start : Environment} {history : List Call} {call : Call}
    {s : Settings} :
    IsSnapshot v start (history ++ [call]) s ↔
      IsSnapshot v start history s ∧ call ≠ .reset ∨
        (∀ s', ¬IsSnapshot v start history s') ∧ call.Reads ∧
          (environmentAfter start history).settingsBy v = .ok s := by
  constructor
  · rintro ⟨before, hread, hs, hfirst⟩
    -- The first successful reading was before this call, or it is this call.
    rcases readSince_concat_iff.1 hread with ⟨hbefore, hne⟩ | ⟨rfl, hreads⟩
    · refine .inl ⟨⟨before, hbefore, hs, ?_⟩, hne⟩
      exact fun earlier hearlier => hfirst earlier (readSince_concat_iff.2 (.inl ⟨hearlier, hne⟩))
    · refine .inr ⟨?_, hreads, hs⟩
      rintro s' ⟨earlier, hearlier, hs', _⟩
      exact hfirst earlier (readSince_concat_iff.2 (.inl ⟨hearlier, hreads.ne_reset⟩))
        hearlier.length_lt s' hs'
  -- Nothing that came before is undone by a call that does not forget the settings, and a reading
  -- that comes later cannot be the first one.
  · rintro (⟨⟨before, hbefore, hs, hfirst⟩, hne⟩ | ⟨hnone, hreads, hs⟩)
    · refine ⟨before, readSince_concat_iff.2 (.inl ⟨hbefore, hne⟩), hs, ?_⟩
      intro earlier hearlier hlt
      rcases readSince_concat_iff.1 hearlier with ⟨hearlier, _⟩ | ⟨rfl, _⟩
      · exact hfirst earlier hearlier hlt
      · exact absurd hbefore.length_lt (Nat.lt_asymm hlt)
    · refine ⟨history, readSince_concat_iff.2 (.inr ⟨rfl, hreads⟩), hs, ?_⟩
      intro earlier hearlier hlt s' hs'
      rcases readSince_concat_iff.1 hearlier with ⟨hearlier, _⟩ | ⟨rfl, _⟩
      · obtain ⟨s'', hs''⟩ := exists_isSnapshot hearlier hs'
        exact hnone s'' hs''
      · exact Nat.lt_irrefl _ hlt

/-! ### The engine keeps the snapshot -/

theorem environment_after (engine : Engine) (calls : List Call) :
    (engine.after v calls).environment = environmentAfter engine.environment calls := by
  induction calls using List.reverseRecOn with
  | nil => rfl
  | append_singleton calls call ih =>
    rw [after_concat, environment_perform, ih, environmentAfter_concat]

theorem not_isSnapshot_nil (start : Environment) (s : Settings) : ¬IsSnapshot v start [] s := by
  rintro ⟨before, hread, _⟩
  exact absurd hread.length_lt (Nat.not_lt_zero _)

/-- The settings that an engine keeps are the snapshot of the calls so far. -/
theorem kept_after_iff (start : Environment) (history : List Call) (s : Settings) :
    (after v { environment := start } history).kept = some s ↔ IsSnapshot v start history s := by
  induction history using List.reverseRecOn generalizing s with
  | nil => exact ⟨nofun, fun h => absurd h (not_isSnapshot_nil start s)⟩
  | append_singleton history call ih =>
    have henvironment : (after v { environment := start } history).environment =
        environmentAfter start history := environment_after _ history
    rw [after_concat, isSnapshot_concat_iff, ← ih, ← henvironment]
    -- There is no snapshot if and only if the engine keeps nothing.
    have hnone : (∀ s', ¬IsSnapshot v start history s') ↔
        (after v { environment := start } history).kept = none := by
      simp only [← ih, Option.eq_none_iff_forall_ne_some]
    rw [hnone]
    -- A call reads the settings, or forgets them, or leaves them alone.
    by_cases hreads : call.Reads
    · rw [kept_perform_of_reads hreads]
      simp [hreads, hreads.ne_reset]
    · by_cases hreset : call = .reset
      · subst hreset
        simp [perform, reset, hreads]
      · rw [kept_perform_of_not_reads hreads hreset]
        simp [hreads, hreset]

/-- Settings that cannot be read are not kept either.  The next query that needs them reads the
environment again. -/
theorem settingsBy_eq_of_error {engine : Engine} {e : Error}
    (h : (engine.settingsBy v).1 = .error e) :
    engine.settingsBy v = (.error e, engine) ∧ engine.kept = none ∧
      engine.environment.settingsBy v = .error e := by
  unfold settingsBy at h ⊢
  cases hkept : engine.kept with
  | some kept =>
    rw [hkept] at h
    cases h
  | none =>
    rw [hkept] at h
    cases hsettings : engine.environment.settingsBy v with
    | ok s =>
      rw [hsettings] at h
      cases h
    | error e' =>
      rw [hsettings] at h
      cases h
      exact ⟨rfl, rfl, rfl⟩

/-- Without a call that reads them there go on being no settings. -/
theorem kept_after_eq_none {engine : Engine} (h : engine.kept = none) {calls : List Call}
    (hcalls : ∀ call ∈ calls, ¬call.Reads) : (engine.after v calls).kept = none := by
  induction calls generalizing engine with
  | nil => exact h
  | cons call calls ih =>
    refine ih ?_ fun later hlater => hcalls later (List.mem_cons_of_mem _ hlater)
    by_cases hreset : call = .reset
    · subst hreset
      rfl
    · rw [kept_perform_of_not_reads (hcalls call List.mem_cons_self) hreset, h]

/-- The settings that a query finds are the snapshot that it leaves behind. -/
theorem fst_settingsBy_after_iff (start : Environment) (history : List Call) {query : Query}
    (h : query.Reads) (s : Settings) :
    ((after v { environment := start } history).settingsBy v).1 = .ok s ↔
      IsSnapshot v start (history ++ [.ask query]) s := by
  rw [← kept_after_iff, after_concat, perform_ask h, kept_settingsBy_iff]

end

/-- **Settings are a snapshot**, however the variables are validated.  Whatever calls came before, a
query that needs settings is answered under those of the environment as it stood at the first
successful reading since they were last forgotten, the query itself included.  If there was none,
the environment cannot be read now: the error shows a variable that is set, nothing is looked up,
and the engine stays as it is, so that a query is answered once the variables are repaired, under
their settings.  Texts of formulas and units are read without settings, in every environment
alike. -/
theorem settings_snapshot (v : Validation) (start : Environment) (history : List Call) :
    (∀ query : Query, query.Reads →
      (∃ s, IsSnapshot v start (history ++ [.ask query]) s ∧
        ((after v { environment := start } history).perform v (.ask query)).1 =
          query.answer (.ok s)) ∨
      ∃ e, (∀ s, ¬IsSnapshot v start (history ++ [.ask query]) s) ∧
        (environmentAfter start history).settingsBy v = .error e ∧
        (environmentAfter start history).IsBlamed e ∧
        (after v { environment := start } history).perform v (.ask query) =
          (⟨[], .error e⟩, after v { environment := start } history) ∧
        ∀ repairs : List Call, (∀ call ∈ repairs, ¬call.Reads) →
          ∀ s, (environmentAfter start (history ++ .ask query :: repairs)).settingsBy v = .ok s →
            ∀ later : Query, later.Reads →
              ((after v { environment := start } (history ++ .ask query :: repairs)).perform v
                (.ask later)).1 = later.answer (.ok s)) ∧
    (∀ text, (after v { environment := start } history).perform v (.compile text) =
      (.ofExcept ((Formula.compile text).map .formula), after v { environment := start } history)) ∧
    ∀ text, (after v { environment := start } history).perform v (.parseUnit text) =
      (.ofExcept ((MeasureUnit.parse text).map .unit),
        after v { environment := start } history) := by
  refine ⟨?_, fun text => rfl, fun text => rfl⟩
  intro query hreads
  have hsnapshot := @fst_settingsBy_after_iff v start history _ hreads
  have henvironment := @environment_after v { environment := start } history
  have happend := @after_append v { environment := start } history
  have henvironments := @environment_after v { environment := start }
  -- From here on only what is known of the engine counts, not how it came about.
  generalize after v { environment := start } history = engine at hsnapshot henvironment happend ⊢
  cases hsettings : (engine.settingsBy v).1 with
  | ok s =>
    refine .inl ⟨s, (hsnapshot s).1 hsettings, ?_⟩
    rw [perform_ask hreads, hsettings]
  | error e =>
    obtain ⟨hpair, hkept, herror⟩ := settingsBy_eq_of_error hsettings
    have hperform : engine.perform v (.ask query) = (⟨[], .error e⟩, engine) := by
      rw [perform_ask hreads, hpair, Query.answer_error hreads]
    rw [henvironment] at herror
    refine .inr ⟨e, ?_, herror, Environment.raises_settingsBy v _ e herror, hperform, ?_⟩
    · intro s hs
      rw [← hsnapshot, hsettings] at hs
      cases hs
    · intro repairs hrepairs s hs later hlater
      -- The failed query has left no trace, so the engine is that of the repairs alone.
      have hafter : after v { environment := start } (history ++ .ask query :: repairs) =
          engine.after v repairs := by
        rw [happend, after, List.foldl_cons, hperform]
        rfl
      rw [← henvironments, hafter] at hs
      have hok : ((engine.after v repairs).settingsBy v).1 = .ok s :=
        (fst_settingsBy_eq_ok_iff _ s).2 (.inr ⟨kept_after_eq_none hkept hrepairs, hs⟩)
      rw [hafter, perform_ask hlater, hok]

/-- A tolerance that is no number is shown by a query, and once the variable is unset another query
is answered under the defaults. -/
theorem settings_snapshot_after_repair :
    Query.Reads .settings ∧
      perform .ofFields { environment := { tolerance := some "none" } } (.ask .settings) =
        (⟨[], .error (.configuration Environment.toleranceVariable "none"
          FieldFault.unreadableNumber.message)⟩,
          { environment := { tolerance := some "none" } }) ∧
      ((after .ofFields { environment := { tolerance := some "none" } }
        [.ask .settings, .setVariable Environment.toleranceVariable none]).perform .ofFields
          (.ask (.isOne [0.5]))).1 = Query.answer (.ok {}) (.isOne [0.5]) := by
  have herror : ({ tolerance := some "none" } : Environment).settings =
      .error (.configuration Environment.toleranceVariable "none"
        FieldFault.unreadableNumber.message) := rfl
  rcases (settings_snapshot .ofFields { tolerance := some "none" } []).1 .settings trivial with
    ⟨s, ⟨before, hread, hs, _⟩, _⟩ | ⟨e, _, he, _, hperform, hrepair⟩
  · -- The only reading is that of the query.
    have hbefore : before = [] := List.length_eq_zero_iff.1 (Nat.lt_one_iff.1 hread.length_lt)
    subst hbefore
    cases herror.symm.trans hs
  · cases herror.symm.trans he
    refine ⟨trivial, hperform, hrepair [.setVariable Environment.toleranceVariable none] ?_ {} rfl
      (.isOne [0.5]) trivial⟩
    simp [Call.Reads]

end Dimensional.Engine

namespace Dimensional.Session

open Engine

/-! ### Sessions

A step of a session may ask the engine for several things, and for some it asks only if other parts
of the step go well.  `calls` lists what a step asks for in the state in which it is taken; that the
engine is dealt with by these calls and by nothing else is proved step by step
(`engine_perform`), and carries over to runs by induction on the steps (`engine_performAll`).  So
what is proved of an engine and its calls holds of the engine of a session
(`kept_performAll_iff`). -/

/-- The calls of a step that evaluates. -/
def evaluationCalls (s : Session) (formula source : String) : List Call :=
  match s.formula formula, s.bindings source with
  | .ok f, .ok b => [.ask (.evaluate f (.table b))]
  | _, _ => []

/-- The calls of a step that shows a unit, which includes whether it is one of pure numbers. -/
def unitCalls : Except Error MeasureUnit → List Call
  | .ok u => [.ask (.isOne u.dims.exponents)]
  | .error _ => []

def calls (s : Session) : Step → List Call
  | .context .. | .bind .. | .merge .. | .list .. | .lookup .. | .contains .. => []
  | .derive formula source _ _ | .evaluate formula source => s.evaluationCalls formula source
  | .compile none _ => []
  | .compile (some text) _ => [.compile text]
  | .parseUnit none _ => unitCalls (.ok .one)
  | .parseUnit (some text) _ => .parseUnit text :: unitCalls (MeasureUnit.parse text)
  | .makeUnit scale dims text _ => unitCalls (MeasureUnit.ofData scale dims text)
  | .unitOne _ => unitCalls (.ok .one)
  | .mul a b _ => unitCalls do return (← s.unit a).mul (← s.unit b)
  | .div a b _ => unitCalls do (← s.unit a).div (← s.unit b)
  | .pow a exponent _ => unitCalls do (← s.unit a).pow (← exponent.toFloat)
  | .setVariable variableName value => [.setVariable variableName value]
  | .reset => [.reset]
  | .settings => [.ask .settings]
  | .agree a b =>
    match Datum.toFloats a, Datum.toFloats b with
    | .ok a, .ok b => [.ask (.agree a b)]
    | _, _ => []
  | .isOne a =>
    match Datum.toFloats a with
    | .ok a => [.ask (.isOne a)]
    | .error _ => []

def callsOf (s : Session) : List Step → List Call
  | [] => []
  | step :: rest => s.calls step ++ (s.perform step).2.callsOf rest

theorem engine_keepBindings (s : Session) (target : String) (b : Except Error Bindings) :
    (s.keepBindings target b).2.engine = s.engine := by
  cases b <;> rfl

theorem engine_keepUnit (s : Session) (target : String) (u : Except Error MeasureUnit) :
    (s.keepUnit target u).2.engine = s.engine.after .ofFields (unitCalls u) := by
  cases u <;> rfl

theorem engine_evaluate (s : Session) (formula source : String) :
    (∃ e, s.evaluate formula source = .error e ∧ s.evaluationCalls formula source = []) ∨
    ∃ outcome s', s.evaluate formula source = .ok (outcome, s') ∧
      s'.engine = s.engine.after .ofFields (s.evaluationCalls formula source) := by
  unfold Session.evaluate evaluationCalls
  cases s.formula formula with
  | error e => exact .inl ⟨e, rfl, rfl⟩
  | ok f =>
    cases s.bindings source with
    | error e => exact .inl ⟨e, rfl, rfl⟩
    | ok b => exact .inr ⟨_, _, rfl, rfl⟩

/-- **A session deals with its engine by calls only**, those of its steps in their order. -/
theorem engine_perform (s : Session) (step : Step) :
    (s.perform step).2.engine = s.engine.after .ofFields (s.calls step) := by
  cases step with
  | context draft target => exact engine_keepBindings s target _
  | bind source name item target => exact engine_keepBindings s target _
  | merge source other target => exact engine_keepBindings s target _
  | list | lookup | contains => rfl
  -- Evaluations call the engine only if formula and bindings are there; what is bound afterwards
  -- does not concern it.
  | derive formula source name target =>
    rw [perform, derive, calls]
    rcases s.engine_evaluate formula source with ⟨e, he, hcalls⟩ | ⟨outcome, s', he, hengine⟩
    · rw [he, hcalls]
      rfl
    · rw [he, ← hengine]
      exact engine_keepBindings s' target _
  | evaluate formula source =>
    rw [perform, calls]
    rcases s.engine_evaluate formula source with ⟨e, he, hcalls⟩ | ⟨outcome, s', he, hengine⟩
    · rw [he, hcalls]
      rfl
    · rw [he, ← hengine]
  | compile text target =>
    cases text with
    | none => rfl
    | some text =>
      rw [perform]
      cases Formula.compileGiven (some text) <;> rfl
  | parseUnit text target =>
    cases text with
    | none => exact engine_keepUnit s target _
    | some text => exact engine_keepUnit s target _
  | makeUnit scale dims text target => exact engine_keepUnit s target _
  | unitOne target => exact engine_keepUnit s target _
  | mul a b target => exact engine_keepUnit s target _
  | div a b target => exact engine_keepUnit s target _
  | pow a exponent target => exact engine_keepUnit s target _
  | setVariable variableName value =>
    rw [perform, calls, after, List.foldl_cons, Engine.perform]
    cases s.engine.setVariable variableName value <;> rfl
  | reset => rfl
  | settings => rfl
  | agree a b =>
    rw [perform, calls]
    cases Datum.toFloats a with
    | error e => cases Datum.toFloats b <;> rfl
    | ok a => cases Datum.toFloats b <;> rfl
  | isOne a =>
    rw [perform, calls]
    cases Datum.toFloats a <;> rfl

/-- A run of a session makes the calls of its steps, one after the other. -/
theorem engine_performAll (s : Session) (steps : List Step) :
    (s.performAll steps).2.engine = s.engine.after .ofFields (s.callsOf steps) := by
  induction steps generalizing s with
  | nil => rfl
  | cons step rest ih =>
    rw [callsOf, after_append, ← engine_perform, ← ih]
    rfl

/-- The settings that a session has kept after its steps are the snapshot of the calls of these. -/
theorem kept_performAll_iff (start : Environment) (steps : List Step) (settings : Settings) :
    (performAll { engine := { environment := start } } steps).2.engine.kept = some settings ↔
      IsSnapshot .ofFields start (callsOf { engine := { environment := start } } steps)
        settings := by
  rw [engine_performAll]
  exact kept_after_iff start _ settings

end Dimensional.Session
