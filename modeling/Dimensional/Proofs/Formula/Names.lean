import Dimensional.Formula.Names
import Dimensional.Proofs.Formula.Reach
import Dimensional.Proofs.Formula.Trace

/-!
# Checking names before an evaluation

The check of names passes if every name of a text starts with an allowed prefix, and else it shows
the first that does not (`validateNames_eq_ok_iff`, `validateNames_eq_error_iff`).  The names that
are needed under a prefix are listed in order (`mem_namesUnder_iff`, `pairwise_namesUnder`).

Main statement: `validated_compile` — a formula that passes the check is never short of a name in
bindings of the names that are listed under the allowed prefixes.
-/

namespace Dimensional

open Error Fallible

namespace Formula

def IsUnder (prefixes : List String) (name : String) : Prop :=
  ∃ pre ∈ prefixes, ∃ rest, name = pre ++ rest

theorem startsWith_iff (name pre : String) :
    startsWith name pre = true ↔ ∃ rest, name = pre ++ rest := by
  rw [startsWith, List.isPrefixOf_iff_prefix]
  constructor
  · rintro ⟨rest, hrest⟩
    exact ⟨String.ofList rest, String.toList_inj.1 (by simp [← hrest])⟩
  · rintro ⟨rest, rfl⟩
    exact ⟨rest.toList, String.toList_append.symm⟩

theorem any_startsWith_iff (prefixes : List String) (name : String) :
    prefixes.any (startsWith name) = true ↔ IsUnder prefixes name := by
  simp only [List.any_eq_true, startsWith_iff, IsUnder]

/-! ### The check

The names of a formula are those of the text without repetitions, and dropping repetitions does
not change which name is the first to fail a condition (`find?_eraseDups`).  So the check may be
said to look at the occurrences in the text. -/

section

variable {f : Formula} {tokens : List Token}

theorem find?_names (hnames : f.names = Token.names tokens) (p : String → Bool) :
    f.names.find? p = (Token.occurrences tokens).find? p := by
  rw [hnames, Token.names, find?_eraseDups]

theorem validateNames_eq_ok_iff (hnames : f.names = Token.names tokens) (allowed : List String)
    (label : String) :
    f.validateNames allowed label = .ok () ↔
      ∀ name ∈ Token.occurrences tokens, IsUnder allowed name := by
  have hnone := @List.find?_eq_none _ (fun name => !allowed.any (startsWith name))
    (Token.occurrences tokens)
  simp only [Bool.not_eq_true', Bool.not_eq_false, any_startsWith_iff] at hnone
  rw [validateNames, find?_names hnames, ← hnone]
  cases (Token.occurrences tokens).find? fun name => !allowed.any (startsWith name) with
  | none => simp
  | some name => simp

/-- The check shows the first name that is under no allowed prefix. -/
theorem validateNames_eq_error_iff (hnames : f.names = Token.names tokens) (allowed : List String)
    (label : String) (e : Error) :
    (f.validateNames allowed label : Except Error Unit) = .error e ↔
      ∃ before name behind, Token.occurrences tokens = before ++ name :: behind ∧
        (∀ earlier ∈ before, IsUnder allowed earlier) ∧ ¬IsUnder allowed name ∧
        e = .invalidIdentifier label name allowed := by
  rw [validateNames, find?_names hnames]
  constructor
  · intro h
    split at h
    · next name hname =>
      cases h
      obtain ⟨hnot, before, behind, hsplit, hbefore⟩ := List.find?_eq_some_iff_append.1 hname
      refine ⟨before, name, behind, hsplit, ?_, ?_, rfl⟩
      · intro earlier hearlier
        simpa [← any_startsWith_iff] using hbefore earlier hearlier
      · simpa [← any_startsWith_iff] using hnot
    · cases h
  · rintro ⟨before, name, behind, hsplit, hbefore, hnot, rfl⟩
    have hname : (Token.occurrences tokens).find? (fun name => !allowed.any (startsWith name)) =
        some name := by
      refine List.find?_eq_some_iff_append.2 ⟨?_, before, behind, hsplit, ?_⟩
      · simpa [← any_startsWith_iff] using hnot
      · intro earlier hearlier
        simpa [← any_startsWith_iff] using hbefore earlier hearlier
    rw [hname]

/-! ### Names under a prefix -/

theorem mem_namesUnder_iff (hnames : f.names = Token.names tokens) (pre rest : String) :
    rest ∈ f.namesUnder pre ↔ pre ++ rest ∈ Token.occurrences tokens := by
  have hmem : pre ++ rest ∈ f.names ↔ pre ++ rest ∈ Token.occurrences tokens := by
    rw [hnames, Token.names, List.mem_eraseDups]
  rw [namesUnder, List.mem_mergeSort, List.mem_eraseDups, List.mem_filterMap, ← hmem]
  -- A prefix and what follows it determine the name, so both directions keep the rest.
  constructor
  · rintro ⟨name, hname, hrest⟩
    obtain ⟨cs, hcs, rfl⟩ := Option.map_eq_some_iff.1 hrest
    have hsplit : pre ++ String.ofList cs = name :=
      String.toList_inj.1 (by simpa using List.isPrefixOf?_eq_some_iff_append_eq.1 hcs)
    rwa [hsplit]
  · intro hname
    refine ⟨pre ++ rest, hname, Option.map_eq_some_iff.2 ⟨rest.toList, ?_, String.ofList_toList⟩⟩
    exact List.isPrefixOf?_eq_some_iff_append_eq.2 String.toList_append.symm

/-- Names under a prefix are listed once each, in the order of their code points. -/
theorem pairwise_namesUnder (f : Formula) (pre : String) : (f.namesUnder pre).Pairwise (· < ·) := by
  unfold namesUnder
  generalize (f.names.filterMap fun name =>
    (pre.toList.isPrefixOf? name.toList).map String.ofList) = rests
  have hnodup : (rests.eraseDups.mergeSort fun a b => decide (a ≤ b)).Nodup :=
    (List.mergeSort_perm _ _).nodup_iff.2 (firstSeen_eraseDups rests).nodup
  have hsorted : (rests.eraseDups.mergeSort fun a b => decide (a ≤ b)).Pairwise
      fun a b => decide (a ≤ b) = true :=
    List.pairwise_mergeSort (fun a b c => by simpa using String.le_trans)
      (fun a b => by simpa using String.le_total a b) rests.eraseDups
  refine (hsorted.and hnodup).imp fun {a b} hab => ?_
  exact Std.lt_of_le_of_ne (of_decide_eq_true hab.1) hab.2

end

/-! ### Evaluation

An unknown name is a failure of the step of that name and of no other step.  A name of the
program is a name of the text, which the check has found under a prefix, and what is listed
under the prefixes is bound. -/

/-- Where a name is bound, the only thing that can be wrong with it is what it declares. -/
theorem raises_reference_of_bound {b : Bindings} {path : String} {q : Quantity}
    (h : b.find? path = some q) (tolerance : Float) (unitText : String) :
    Raises (IsDeclarationFault path) (reference tolerance (tableLookup b) path unitText) := by
  unfold reference tableLookup Bindings.lookup
  rw [h]
  show Raises _ (checkDeclared tolerance path unitText q >>= fun _ => .ok q)
  exact raises_bind (raises_checkDeclared _ _ _ _) fun _ => raises_ok _

/-- A token of a text finds a name unknown only if the name is its own and is not bound. -/
theorem find?_of_unknownSymbol {before after : Option Token} {token : Token}
    (hplace : token.InPlace before after) (hoperative : token.isOperative = true)
    {tolerance : Float} {b : Bindings} {stack : List Quantity} {name : String}
    (h : step tolerance (tableLookup b) stack token = .error (.unknownSymbol name)) :
    name ∈ token.references ∧ b.find? name = none := by
  cases token with
  | name path unitText =>
    cases hfind : b.find? path with
    | none =>
      have hstep : step tolerance (tableLookup b) stack (.name path unitText) =
          .error (.unknownSymbol path) := by
        simp only [step, reference, tableLookup, Bindings.lookup, hfind]
        rfl
      rw [hstep] at h
      cases h
      exact ⟨List.mem_singleton_self _, hfind⟩
    | some q =>
      -- A name that is bound fails only for what it declares.
      rcases raises_map (raises_reference_of_bound hfind tolerance unitText) _ h with
        hunit | ⟨_, ⟨⟩⟩ | hconversion
      · exact hunit.elim
      · exact hconversion.elim
  | _ =>
    rcases raises_step_of_inPlace hplace hoperative tolerance b stack _ h with hown | ⟨_, _, _, ⟨⟩⟩
    exact hown.elim

/-- The names of a program are those of the text. -/
theorem references_subset_of_compile {text : String} {f : Formula} {tokens : List Token}
    (hprogram : Token.toPostfix tokens text = .ok f.program) {token : Token}
    (htoken : token ∈ f.program) {name : String} (hname : name ∈ token.references) :
    name ∈ Token.occurrences tokens := by
  rw [← Token.occurrences_of_postfixFrom hprogram]
  exact List.mem_flatMap.2 ⟨token, htoken, hname⟩

/-- A formula whose names are all bound is never short of one. -/
theorem result_ne_unknownSymbol {text : String} {f : Formula} (h : compile text = .ok f)
    {tokens : List Token} (hprogram : Token.toPostfix tokens text = .ok f.program) {b : Bindings}
    (hbound : ∀ name ∈ Token.occurrences tokens, ∃ q, b.find? name = some q) (engine : Engine)
    (name : String) :
    (engine.evaluate f (.table b)).1.result ≠ .error (.unknownSymbol name) := by
  intro he
  cases failure_of_evaluate he with
  | settings hsettings =>
    obtain ⟨_, _, _, ⟨⟩, _⟩ := engine.raises_settings _ hsettings
  -- The step that failed took a token of the program, and that is a token of the text in its
  -- place.
  | token _ hreaches hstep =>
    obtain ⟨hoperative, _, _, hplace⟩ := inPlace_of_compile h hreaches.mem
    obtain ⟨hname, hnone⟩ := find?_of_unknownSymbol hplace hoperative hstep
    obtain ⟨q, hq⟩ := hbound name (references_subset_of_compile hprogram hreaches.mem hname)
    rw [hnone] at hq
    cases hq
  | left heq => cases heq

/-- **The check of names is sound and complete.**  It passes if and only if every name of the text
starts with an allowed prefix, and else it shows the first one that does not.  Where it passes, an
evaluation in bindings of all names that are listed under the allowed prefixes never finds a name
unknown.  The list under a prefix is in the order of code points without repetitions, and holds what
follows the prefix in the names of the text. -/
theorem validated_compile {text : String} {f : Formula} (h : compile text = .ok f) :
    ∃ tokens, Token.scan text = .ok tokens ∧
      (∀ (allowed : List String) (label : String),
        (f.validateNames allowed label = .ok () ↔
          ∀ name ∈ Token.occurrences tokens, IsUnder allowed name) ∧
        (∀ e, (f.validateNames allowed label : Except Error Unit) = .error e ↔
          ∃ before name behind, Token.occurrences tokens = before ++ name :: behind ∧
            (∀ earlier ∈ before, IsUnder allowed earlier) ∧ ¬IsUnder allowed name ∧
            e = .invalidIdentifier label name allowed) ∧
        (f.validateNames allowed label = .ok () → ∀ b : Bindings,
          (∀ pre ∈ allowed, ∀ rest ∈ f.namesUnder pre, ∃ q, b.find? (pre ++ rest) = some q) →
          ∀ (engine : Engine) (name : String),
            (engine.evaluate f (.table b)).1.result ≠ .error (.unknownSymbol name))) ∧
      ∀ pre, (f.namesUnder pre).Pairwise (· < ·) ∧
        ∀ rest, rest ∈ f.namesUnder pre ↔ pre ++ rest ∈ Token.occurrences tokens := by
  obtain ⟨tokens, hscan, hprogram, hnames⟩ := scan_of_compile h
  refine ⟨tokens, hscan, ?_, ?_⟩
  · intro allowed label
    have hvalid := validateNames_eq_ok_iff hnames allowed label
    refine ⟨hvalid, validateNames_eq_error_iff hnames allowed label, ?_⟩
    intro hok b hb engine name
    refine result_ne_unknownSymbol h hprogram ?_ engine name
    intro name hname
    obtain ⟨pre, hpre, rest, rfl⟩ := hvalid.1 hok name hname
    exact hb pre hpre rest ((mem_namesUnder_iff hnames pre rest).2 hname)
  · intro pre
    exact ⟨pairwise_namesUnder f pre, mem_namesUnder_iff hnames pre⟩

/-- `x.b*x.a+x.`, where one of the names is a prefix itself and all stand under both of two
prefixes: with the three names bound none is unknown, and where only `x.a` is allowed, `x.b` is
shown. -/
theorem validated_sum_under_two_prefixes :
    ∃ f, compile "x.b*x.a+x." = .ok f ∧
      f.validateNames ["x.", "x"] "Formula" = .ok () ∧
      "" ∈ f.namesUnder "x." ∧ ".a" ∈ f.namesUnder "x" ∧
      f.validateNames ["x.a"] "Formula" =
        (.error (.invalidIdentifier "Formula" "x.b" ["x.a"]) : Except Error Unit) ∧
      ∀ (engine : Engine) (name : String),
        (engine.evaluate f (.table
          ⟨[("x.", .scalar 1), ("x.a", .scalar 2), ("x.b", .scalar 3)]⟩)).1.result ≠
            .error (.unknownSymbol name) := by
  have hscan : Token.scan "x.b*x.a+x." =
      .ok [.name "x.b" "", .operator (.binary .mul), .name "x.a" "", .operator (.binary .add),
        .name "x." ""] := by cbv
  have hcompile := compile_of_scan hscan rfl
  obtain ⟨tokens, hscan', hcheck, hlist⟩ := validated_compile hcompile
  rw [hscan] at hscan'
  cases hscan'
  obtain ⟨_, _, hbound⟩ := hcheck ["x.", "x"] "Formula"
  refine ⟨_, hcompile, rfl, ((hlist "x.").2 "").2 (by decide), ((hlist "x").2 ".a").2 (by decide),
    rfl, hbound rfl _ ?_⟩
  intro pre _ rest hrest
  have hname := ((hlist pre).2 rest).1 hrest
  generalize pre ++ rest = name at hname
  have hnames : name = "x.b" ∨ name = "x.a" ∨ name = "x." := by
    simpa [Token.occurrences, Token.references] using hname
  rcases hnames with rfl | rfl | rfl
  · exact ⟨_, rfl⟩
  · exact ⟨_, rfl⟩
  · exact ⟨_, rfl⟩

end Formula

end Dimensional
