import Dimensional.Proofs.Formula.Inline
import Dimensional.Proofs.Formula.Trace
import Dimensional.Session

/-!
# What a context has to do with an evaluation

Contexts differ in how they keep what names stand for: in a table, behind a function, or not at all.
An evaluation sees none of this.  It sees which quantity or error there is for a name
(`Context.supply?`), and asks only for the names of the formula (`mem_names_of_lookups`).

Main statement: `evaluate_of_agree` — contexts that agree on the names of a formula cannot be told
apart by evaluating it; in particular, other names can be bound as one likes.
-/

namespace Dimensional

/-! ### Contexts that agree

Agreement is said of what names stand for, and not of what look-ups answer: a pair in one
context and the quantity that it stands for in the other are the same to an evaluation. -/

namespace Context

/-- What names stand for in a context, if names can be looked up there.  Two contexts may answer
with different items and supply the same quantities. -/
def supply? (context : Context) : Option (String → Except Error Quantity) :=
  context.lookup?.map fun lookup name => lookup name >>= Item.toQuantity

/-- For each of these names there is the same quantity or error in both contexts, or nothing can be
looked up in either. -/
def Agree (names : List String) (context context' : Context) : Prop :=
  Option.Rel (fun supply supply' => ∀ name ∈ names, supply name = supply' name)
    context.supply? context'.supply?

theorem Agree.lookups {names : List String} {context context' : Context}
    (h : Agree names context context') :
    (context.lookup? = none ∧ context'.lookup? = none) ∨
      ∃ lookup lookup', context.lookup? = some lookup ∧ context'.lookup? = some lookup' ∧
        ∀ name ∈ names,
          (lookup name >>= Item.toQuantity) = (lookup' name >>= Item.toQuantity) := by
  unfold Agree supply? at h
  cases hlookup : context.lookup? with
  | none =>
    cases hlookup' : context'.lookup? with
    | none => exact .inl ⟨rfl, rfl⟩
    | some lookup' =>
      rw [hlookup, hlookup'] at h
      cases h
  | some lookup =>
    cases hlookup' : context'.lookup? with
    | none =>
      rw [hlookup, hlookup'] at h
      cases h
    | some lookup' =>
      rw [hlookup, hlookup'] at h
      obtain ⟨hsupply⟩ := h
      exact .inr ⟨lookup, lookup', rfl, rfl, hsupply⟩

/-- Look-ups that answer with the same items and errors make contexts agree. -/
theorem agree_of_lookups {names : List String} {context context' : Context}
    {lookup lookup' : String → Except Error Item} (h : context.lookup? = some lookup)
    (h' : context'.lookup? = some lookup') (heq : ∀ name ∈ names, lookup name = lookup' name) :
    Agree names context context' := by
  unfold Agree supply?
  rw [h, h']
  exact .some fun name hname => congrArg (· >>= Item.toQuantity) (heq name hname)

theorem agree_table {names : List String} {b b' : Bindings}
    (h : ∀ name ∈ names, b.find? name = b'.find? name) :
    Agree names (.table b) (.table b') := by
  refine agree_of_lookups rfl rfl fun name hname => ?_
  simp only [Bindings.lookup, h name hname]

end Context

/-! ### Names that are bound besides -/

theorem Table.find?_merge_of_find?_eq_none {α : Type} {u : Table α} {name : String}
    (h : u.find? name = none) (t : Table α) : (t.merge u).find? name = t.find? name := by
  obtain ⟨entries⟩ := u
  induction entries generalizing t with
  | nil => rfl
  | cons entry entries ih =>
    obtain ⟨key, value⟩ := entry
    rw [find?, lookup_cons_eq_ite] at h
    obtain ⟨hne, hrest⟩ : name ≠ key ∧ entries.lookup name = none := by
      split at h
      · cases h
      · next hne => exact ⟨hne, h⟩
    have hinsert := ih (t.insert key value) hrest
    rw [find?_insert, if_neg hne] at hinsert
    exact hinsert

theorem Bindings.find?_of_bind {b bound : Bindings} {name other : String} {item : Item}
    (h : b.bind name item = .ok bound) (hne : other ≠ name) :
    bound.find? other = b.find? other := by
  obtain ⟨q, _, h⟩ := Fallible.bind_eq_ok_iff.1 h
  cases h
  rw [Table.find?_insert, if_neg hne]

namespace Formula

/-! ### Evaluation -/

/-- Names that a run looks up are names of the formula. -/
theorem mem_names_of_lookups {text : String} {f : Formula} (h : compile text = .ok f)
    {tolerance : Float} {lookup : Lookup} {stack : List Quantity} {name : String}
    (hname : name ∈ (run tolerance lookup stack f.program).lookups) : name ∈ f.names := by
  obtain ⟨tokens, _, hprogram, hnames⟩ := scan_of_compile h
  rw [hnames, Token.names, List.mem_eraseDups, ← Token.occurrences_of_postfixFrom hprogram]
  exact (prefix_lookups_run stack f.program).subset hname

/-- **An evaluation sees only the names of the formula**: where two contexts of whatever kinds agree
on them, it looks up the same names and comes to the same quantity or error, and leaves the engine
alike.  So nothing changes if other names are merged into a table of bindings, or bound there. -/
theorem evaluate_of_agree {text : String} {f : Formula} (h : compile text = .ok f)
    (engine : Engine) :
    (∀ context context', Context.Agree f.names context context' →
      engine.evaluate f context = engine.evaluate f context') ∧
    ∀ b : Bindings,
      (∀ other : Bindings, (∀ name ∈ f.names, other.find? name = none) →
        engine.evaluate f (.table (b.merge other)) = engine.evaluate f (.table b)) ∧
      ∀ (name : String) (item : Item) (bound : Bindings),
        name ∉ f.names → b.bind name item = .ok bound →
          engine.evaluate f (.table bound) = engine.evaluate f (.table b) := by
  have hagree : ∀ context context', Context.Agree f.names context context' →
      engine.evaluate f context = engine.evaluate f context' := by
    intro context context' hagree
    unfold Engine.evaluate Engine.evaluateBy evaluate
    obtain ⟨hnone, hnone'⟩ | ⟨lookup, lookup', hlookup, hlookup', hsupply⟩ := hagree.lookups
    · rw [hnone, hnone']
    · rw [hlookup, hlookup']
      -- Whether the settings are read, and what they are, does not hang on the context once names
      -- can be looked up.
      cases (engine.settingsBy .ofFields).1 with
      | error e => rfl
      | ok settings =>
        have hrun : run settings.tolerance lookup [] f.program =
            run settings.tolerance lookup' [] f.program :=
          run_congr_of_lookups fun name hname => hsupply name (mem_names_of_lookups h hname)
        simp only [hrun]
  refine ⟨hagree, fun b => ⟨fun other hother => ?_, fun name item bound hname hbound => ?_⟩⟩
  · refine hagree _ _ (Context.agree_table fun name hname => ?_)
    exact Table.find?_merge_of_find?_eq_none (hother name hname) b
  · refine hagree _ _ (Context.agree_table fun other hother => ?_)
    exact Bindings.find?_of_bind hbound fun heq => hname (heq ▸ hother)

/-- `y-x` in a table, and with a function that answers `y` with a pair and all else with 2.5: it
makes no difference that there is no `z` in the table, nor that one can be bound. -/
theorem evaluate_difference_with_function :
    let b : Bindings := ⟨[("x", .scalar 2.5), ("y", .scalar 2)]⟩
    let answer : String → Except Error Item := fun name =>
      .ok (if name = "y" then (Quantity.scalar 2).pair else .quantity (.scalar 2.5))
    ∃ f, compile "y-x" = .ok f ∧ f.names = ["y", "x"] ∧
      Context.Agree f.names (.table b) (.bare answer) ∧
      ∀ engine : Engine,
        engine.evaluate f (.table b) = engine.evaluate f (.bare answer) ∧
        b.bind "z" (.quantity (.scalar 1)) = .ok (b.insert "z" (.scalar 1)) ∧
        engine.evaluate f (.table (b.insert "z" (.scalar 1))) = engine.evaluate f (.table b) ∧
        engine.evaluate f (.table (b.merge ⟨[("z", .scalar 1)]⟩)) =
          engine.evaluate f (.table b) := by
  intro b answer
  have hscan : Token.scan "y-x" =
      .ok [.name "y" "", .operator (.binary .sub), .name "x" ""] := by cbv
  have hcompile := compile_of_scan hscan rfl
  have hagree : Context.Agree ["y", "x"] (.table b) (.bare answer) := by
    refine .some fun name hname => ?_
    obtain rfl | rfl : name = "y" ∨ name = "x" := by simpa using hname
    · exact (Quantity.toQuantity_pair _).symm
    · rfl
  have hbind : b.bind "z" (.quantity (.scalar 1)) = .ok (b.insert "z" (.scalar 1)) := rfl
  refine ⟨_, hcompile, rfl, hagree, fun engine => ?_⟩
  obtain ⟨hcontexts, hothers⟩ := evaluate_of_agree hcompile engine
  obtain ⟨hmerge, hbound⟩ := hothers b
  refine ⟨hcontexts _ _ hagree, hbind, hbound "z" _ _ (by decide) hbind, hmerge _ ?_⟩
  intro name (hname : name ∈ ["y", "x"])
  obtain rfl | rfl : name = "y" ∨ name = "x" := by simpa using hname
  · rfl
  · rfl

end Formula

end Dimensional
