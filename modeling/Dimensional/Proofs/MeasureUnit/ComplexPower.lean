import Dimensional.Proofs.Failure
import Dimensional.Proofs.MeasureUnit.Spelled

/-!
# Complex powers in the texts of units

The text of a unit fails as a text, with one exception: where a negative number is raised to a power
that is not whole, the power is a complex number, and a unit cannot be made of that.

* `isComplexPower_iff` — which powers of real numbers are complex.
* `meets_step` — as long as no such power is taken, all operands stay real, and no token fails for a
  complex number.
* `someComplex_of_run` — a complex number is never got rid of again.
* `parse_outcome` — what the text of a unit can come to.
-/

namespace Dimensional

open Fallible

namespace Scalar

def IsComplexPower (x y : Float) : Prop := ∃ z, realPow x y = .ok (.complex z)

/-- Finite, and neither zero nor positive. -/
def IsNegative (x : Float) : Prop :=
  x.isNaN = false ∧ x.isInf = false ∧ (x == 0.0) = false ∧ ¬x > 0.0

/-- Finite, and neither zero nor another whole number. -/
def IsFraction (y : Float) : Prop :=
  y.isNaN = false ∧ y.isInf = false ∧ (y == 0.0) = false ∧ Power.isWhole y = false

theorem map_real_ne_complex (x : Except ArithmeticFault Float) (z : Power.Complex) :
    x.map real ≠ .ok (.complex z) := by
  cases x <;> simp [Except.map]

/-- The power of a negative number to a fraction has the size of the power of its opposite, and
an angle.  It is complex, or its size is out of range. -/
theorem realPow_of_isNegative {x y : Float} (hx : IsNegative x) (hy : IsFraction y) :
    realPow x y = (Power.ofNegativeFraction x y).map .complex := by
  obtain ⟨hx, hxi, hx0, hpos⟩ := hx
  obtain ⟨hy, hyi, hy0, hwhole⟩ := hy
  simp only [realPow, hx, hxi, hx0, hpos, hy, hyi, hy0, hwhole, Bool.false_eq_true, if_false]

/-- In all other cases the power is real or out of range. -/
theorem isNegative_of_isComplexPower {x y : Float} (h : IsComplexPower x y) :
    IsNegative x ∧ IsFraction y := by
  obtain ⟨z, h⟩ := h
  unfold realPow at h
  split at h
  · cases h
  split at h
  · cases h
  split at h
  · cases h
  split at h
  · cases h
  split at h
  · cases h
  split at h
  · exact absurd h (map_real_ne_complex _ _)
  split at h
  · exact absurd h (map_real_ne_complex _ _)
  split at h
  · exact absurd h (map_real_ne_complex _ _)
  -- What is left is the last case of the definition, and its conditions are those of the
  -- statement.
  rename_i hy0 hx hy hyi hxi hx0 hpos hwhole
  rw [Bool.not_eq_true] at hy0 hx hy hyi hxi hx0 hwhole
  exact ⟨⟨hx, hxi, hx0, hpos⟩, hy, hyi, hy0, hwhole⟩

/-- **Complex powers** are those of negative numbers to fractions, unless they are out of range. -/
theorem isComplexPower_iff {x y : Float} :
    IsComplexPower x y ↔
      IsNegative x ∧ IsFraction y ∧ ∃ size, Power.ofPositive (-x) y = .ok size := by
  constructor
  · intro h
    obtain ⟨hx, hy⟩ := isNegative_of_isComplexPower h
    obtain ⟨z, h⟩ := h
    rw [realPow_of_isNegative hx hy, Power.ofNegativeFraction] at h
    refine ⟨hx, hy, ?_⟩
    cases hsize : Power.ofPositive (-x) y with
    | ok size => exact ⟨size, rfl⟩
    | error fault =>
      rw [hsize] at h
      cases h
  · rintro ⟨hx, hy, size, hsize⟩
    refine ⟨.ofPolar size (Power.pi * y), ?_⟩
    rw [realPow_of_isNegative hx hy, Power.ofNegativeFraction, hsize]
    rfl

end Scalar

namespace MeasureUnit

/-- The one error of a unit's text that is no fault of the text.  It is met where a complex
number is taken for a scale. -/
def complexScale : Error := .conversion (.notNumeric "complex")

theorem IsTextFault.ne_complexScale {e : Error} (h : e.IsTextFault) : e ≠ complexScale := by
  rintro rfl
  exact h

/-! ### Operands -/

namespace Operand

def IsReal : Operand → Prop
  | .scalar (.complex _) => False
  | _ => True

/-- The number that a power of the operand raises: the operand itself, or its scale. -/
def base? : Operand → Option Float
  | .scalar (.real x) => some x
  | .scalar (.complex _) => none
  | .unit u => some u.scale

def HasComplexPower (a : Operand) (y : Float) : Prop :=
  ∃ x, a.base? = some x ∧ Scalar.IsComplexPower x y

theorem toUnit_of_isReal {a : Operand} (h : a.IsReal) : ∃ u, a.toUnit = .ok u := by
  obtain (x | z) | u := a
  · exact ⟨_, rfl⟩
  · exact h.elim
  · exact ⟨_, rfl⟩

theorem meets_mul {a b : Operand} (ha : a.IsReal) (hb : b.IsReal) :
    Meets IsReal (· ≠ complexScale) (a.mul b) := by
  obtain ⟨u, hu⟩ := toUnit_of_isReal ha
  obtain ⟨v, hv⟩ := toUnit_of_isReal hb
  unfold mul
  split
  · trivial
  · rw [hu, hv]
    trivial

theorem meets_liftFault {α : Type} (x : Except ArithmeticFault α) :
    Meets (fun a => x = .ok a) (· ≠ complexScale) (liftFault x) := by
  cases x with
  | ok a => exact rfl
  | error fault => nofun

theorem meets_div {a b : Operand} (ha : a.IsReal) (hb : b.IsReal) :
    Meets IsReal (· ≠ complexScale) (a.div b) := by
  obtain ⟨u, hu⟩ := toUnit_of_isReal ha
  obtain ⟨v, hv⟩ := toUnit_of_isReal hb
  unfold div
  split
  · exact (meets_liftFault _).bind fun _ _ _ => trivial
  · rw [hu, hv]
    have hquotient : Raises (· ≠ complexScale) (u.div v) :=
      raises_bind (meets_liftFault _).raises fun _ => raises_ok _
    exact hquotient.meets.bind fun _ _ _ => trivial

/-- A power that is not complex is real, for numbers as for scales. -/
theorem meets_pow {a : Operand} (ha : a.IsReal) {y : Float} (hpower : ¬a.HasComplexPower y) :
    Meets IsReal (· ≠ complexScale) (a.pow y) := by
  obtain (x | z) | u := a
  · refine (meets_liftFault _).bind fun s hs h => ?_
    obtain x' | z := s
    · trivial
    · exact absurd ⟨x, rfl, z, h⟩ hpower
  · exact ha.elim
  · have hunit : Meets (fun _ => True) (· ≠ complexScale) (u.pow y) := by
      refine (meets_liftFault _).bind fun s hs h => ?_
      obtain x' | z := s
      · trivial
      · exact absurd ⟨u.scale, rfl, z, h⟩ hpower
    exact hunit.bind fun _ _ _ => trivial

theorem meets_locate {R : Operand → Prop} {x : Except Error Operand}
    (h : Meets R (· ≠ complexScale) x) (text : String) (position : Nat) :
    Meets R (· ≠ complexScale) (locate text position x) := by
  unfold locate
  split
  · nofun
  · exact h

/-! ### Runs

A run from real operands stays among real operands up to the first complex power.  So what can go
wrong at the end, a unit made of a complex number, cannot happen without one. -/

def AllReal (stack : List Operand) : Prop := ∀ a ∈ stack, a.IsReal

theorem allReal_nil : AllReal [] := nofun

theorem AllReal.cons {a : Operand} {stack : List Operand} (ha : a.IsReal) (h : AllReal stack) :
    AllReal (a :: stack) :=
  List.forall_mem_cons.2 ⟨ha, h⟩

/-- At this token a complex power is taken: of the operand below the exponent on top. -/
def TakesComplexPower (stack : List Operand) (token : Token) : Prop :=
  token.lexeme = .power ∧
    ∃ y a rest, stack = .scalar (.real y) :: a :: rest ∧ a.HasComplexPower y

theorem meets_applyTop {operation : Operand → Operand → Except Error Operand}
    {stack : List Operand} (hstack : AllReal stack)
    (h : ∀ b a rest, stack = b :: a :: rest → a.IsReal → b.IsReal →
      Meets IsReal (· ≠ complexScale) (operation a b))
    (text : String) (position : Nat) (symbol : Char) :
    Meets AllReal (· ≠ complexScale) (applyTop text position symbol operation stack) := by
  unfold applyTop
  split
  · next b a rest =>
    obtain ⟨hb, hrest⟩ := List.forall_mem_cons.1 hstack
    obtain ⟨ha, hrest⟩ := List.forall_mem_cons.1 hrest
    exact (h b a rest rfl ha hb).bind fun c _ hc => AllReal.cons hc hrest
  · nofun

/-- **One token**: of real operands it makes real operands, and does not fail for a complex number,
unless it takes a complex power. -/
theorem meets_step {stack : List Operand} {token : Token} (hstack : AllReal stack)
    (hpower : ¬TakesComplexPower stack token) (text : String) :
    Meets AllReal (· ≠ complexScale) (step text stack token) := by
  unfold step
  split
  · exact AllReal.cons trivial hstack
  · next s _ =>
    exact ((raises_ofName s).mono fun _ => IsTextFault.ne_complexScale).meets.bind
      fun _ _ _ => AllReal.cons trivial hstack
  · exact meets_applyTop hstack
      (fun _ _ _ _ ha hb => meets_locate (meets_mul ha hb) _ _) _ _ _
  · exact meets_applyTop hstack
      (fun _ _ _ _ ha hb => meets_locate (meets_div ha hb) _ _) _ _ _
  · next hsign =>
    refine meets_applyTop hstack (fun b a rest hoperands ha hb => ?_) _ _ _
    unfold power
    split
    · next y hy =>
      obtain (y' | z) | u := b
      · cases hy
        refine meets_locate (meets_pow ha fun hcomplex => hpower ?_) _ _
        exact ⟨hsign, y, a, rest, hoperands, hcomplex⟩
      · cases hy
      · cases hy
    · nofun
  · exact hstack
  · exact hstack

/-- On the way through a program a complex power is taken.  The run has come there without an
error, and what it does afterwards is left open. -/
def RunTakesComplexPower (text : String) : List Operand → List Token → Prop
  | _, [] => False
  | stack, token :: rest =>
    TakesComplexPower stack token ∨
      ∃ next, step text stack token = .ok next ∧ RunTakesComplexPower text next rest

/-- **A whole program**, from real operands on: unless it takes a complex power, it leaves real
operands or fails with an error of another sort. -/
theorem meets_run {stack : List Operand} {program : List Token} (hstack : AllReal stack)
    {text : String} (hpower : ¬RunTakesComplexPower text stack program) :
    Meets AllReal (· ≠ complexScale) (program.foldlM (step text) stack) := by
  induction program generalizing stack with
  | nil => exact hstack
  | cons token rest ih =>
    rw [RunTakesComplexPower, not_or, not_exists] at hpower
    rw [List.foldlM_cons]
    exact (meets_step hstack hpower.1 text).bind fun next hstep hnext =>
      ih hnext fun h => hpower.2 next ⟨hstep, h⟩

/-! ### Complex operands stay

For the converse, a complex number that is on the stack never leaves it: products and quotients
with it fail, and powers of it are complex.  A run that takes a complex power therefore gets no
unit out of its end. -/

def SomeComplex (stack : List Operand) : Prop := ∃ a ∈ stack, ¬a.IsReal

theorem toUnit_of_not_isReal {a : Operand} (h : ¬a.IsReal) : a.toUnit = .error complexScale := by
  obtain (x | z) | u := a
  · exact absurd trivial h
  · rfl
  · exact absurd trivial h

/-- Products and quotients with a complex number fail. -/
theorem bind_toUnit_ne_ok {α : Type} {a b : Operand} (h : ¬a.IsReal ∨ ¬b.IsReal)
    (f : MeasureUnit → MeasureUnit → Except Error α) (c : α) :
    (a.toUnit >>= fun u => b.toUnit >>= f u) ≠ .ok c := by
  rcases h with ha | hb
  · rw [toUnit_of_not_isReal ha]
    nofun
  · rw [toUnit_of_not_isReal hb]
    cases a.toUnit <;> nofun

theorem mul_ne_ok {a b c : Operand} (h : ¬a.IsReal ∨ ¬b.IsReal) : a.mul b ≠ .ok c := by
  unfold mul
  split
  · rcases h with h | h <;> exact absurd trivial h
  · exact bind_toUnit_ne_ok h _ _

theorem div_ne_ok {a b c : Operand} (h : ¬a.IsReal ∨ ¬b.IsReal) : a.div b ≠ .ok c := by
  unfold div
  split
  · rcases h with h | h <;> exact absurd trivial h
  · exact bind_toUnit_ne_ok h _ _

/-- A power with a complex number is complex, if it is anything: a complex base has a complex
power, and a complex exponent is refused. -/
theorem not_isReal_of_power {text : String} {position : Nat} {a b c : Operand}
    (h : ¬a.IsReal ∨ ¬b.IsReal) (hc : power text position a b = .ok c) : ¬c.IsReal := by
  obtain (y | z) | u := b
  · obtain (x | z) | u := a
    · rcases h with h | h <;> exact absurd trivial h
    · obtain ⟨s, hs, hc⟩ := bind_eq_ok_iff.1 (locate_eq_ok_iff.1 hc)
      cases hz : z.pow y with
      | error fault =>
        rw [Scalar.pow, hz] at hs
        cases hs
      | ok z' =>
        rw [Scalar.pow, hz] at hs
        cases hs
        cases hc
        exact id
    · rcases h with h | h <;> exact absurd trivial h
  · cases hc
  · cases hc

/-- What an operation leaves in place of its operands is complex if one of them is. -/
theorem someComplex_of_applyTop {operation : Operand → Operand → Except Error Operand}
    {stack stack' : List Operand} {text : String} {position : Nat} {symbol : Char}
    (hoperation : ∀ a b c, ¬a.IsReal ∨ ¬b.IsReal → operation a b = .ok c → ¬c.IsReal)
    (h : applyTop text position symbol operation stack = .ok stack') (hstack : SomeComplex stack) :
    SomeComplex stack' := by
  unfold applyTop at h
  split at h
  · next b a rest =>
    obtain ⟨c, hc, h⟩ := bind_eq_ok_iff.1 h
    cases h
    obtain ⟨d, hd, hcomplex⟩ := hstack
    simp only [List.mem_cons] at hd
    obtain rfl | rfl | hd := hd
    · exact ⟨c, List.mem_cons_self, hoperation _ _ _ (.inr hcomplex) hc⟩
    · exact ⟨c, List.mem_cons_self, hoperation _ _ _ (.inl hcomplex) hc⟩
    · exact ⟨d, List.mem_cons_of_mem _ hd, hcomplex⟩
  · cases h

theorem SomeComplex.cons {a : Operand} {stack : List Operand} (h : SomeComplex stack) :
    SomeComplex (a :: stack) := by
  obtain ⟨b, hb, hcomplex⟩ := h
  exact ⟨b, List.mem_cons_of_mem _ hb, hcomplex⟩

/-- No token takes a complex number off the stack and goes on without one.  What is put on top
leaves it where it is, and an operation on it fails or makes another. -/
theorem someComplex_of_step {text : String} {stack stack' : List Operand} {token : Token}
    (h : step text stack token = .ok stack') (hstack : SomeComplex stack) :
    SomeComplex stack' := by
  unfold step at h
  split at h
  · cases h
    exact hstack.cons
  · obtain ⟨u, _, h⟩ := bind_eq_ok_iff.1 h
    cases h
    exact hstack.cons
  · refine someComplex_of_applyTop (fun a b c hab hc => ?_) h hstack
    exact absurd (locate_eq_ok_iff.1 hc) (mul_ne_ok hab)
  · refine someComplex_of_applyTop (fun a b c hab hc => ?_) h hstack
    exact absurd (locate_eq_ok_iff.1 hc) (div_ne_ok hab)
  · exact someComplex_of_applyTop (fun a b c => not_isReal_of_power) h hstack
  · cases h
    exact hstack
  · cases h
    exact hstack

/-- A complex power of a number is a complex number; of a unit there is none. -/
theorem someComplex_of_takes {text : String} {stack stack' : List Operand} {token : Token}
    (htakes : TakesComplexPower stack token) (h : step text stack token = .ok stack') :
    SomeComplex stack' := by
  obtain ⟨hsign, y, a, rest, rfl, x, hx, z, hz⟩ := htakes
  unfold step at h
  rw [hsign] at h
  obtain ⟨c, hc, h⟩ := bind_eq_ok_iff.1 h
  cases h
  have hpow := locate_eq_ok_iff.1 hc
  obtain (x' | z') | u := a
  · cases hx
    rw [pow, Scalar.pow, hz] at hpow
    cases hpow
    exact ⟨_, List.mem_cons_self, id⟩
  · cases hx
  · cases hx
    -- A scale that is complex is not a scale, so the power of a unit fails at once.
    rw [pow, MeasureUnit.pow, hz] at hpow
    cases hpow

/-- A program in which a complex power is taken leaves a complex number behind, if it gets to its
end. -/
theorem someComplex_of_run {text : String} {stack stack' : List Operand} {program : List Token}
    (h : program.foldlM (step text) stack = .ok stack')
    (htakes : SomeComplex stack ∨ RunTakesComplexPower text stack program) :
    SomeComplex stack' := by
  induction program generalizing stack with
  | nil =>
    cases h
    exact htakes.resolve_right id
  | cons token rest ih =>
    rw [List.foldlM_cons] at h
    obtain ⟨next, hstep, hrest⟩ := bind_eq_ok_iff.1 h
    refine ih hrest ?_
    obtain hstack | htakes | ⟨next', hstep', htakes⟩ := htakes
    · exact .inl (someComplex_of_step hstep hstack)
    · exact .inl (someComplex_of_takes htakes hstep)
    · rw [hstep] at hstep'
      cases hstep'
      exact .inr htakes

end Operand

theorem raises_ofStack_of_allReal {stack : List Operand} (h : Operand.AllReal stack)
    (given normal : String) : Raises (· ≠ complexScale) (ofStack given normal stack) := by
  unfold ofStack
  split
  · next operand =>
    obtain ⟨u, hu⟩ := Operand.toUnit_of_isReal (h operand List.mem_cons_self)
    rw [hu]
    refine raises_bind (raises_ok u) fun unit => ?_
    split
    · exact raises_ok _
    · exact raises_error nofun
  · exact raises_error nofun

/-- The tokens of the text in postfix order take a complex power when they are run.  A text that
cannot be put in postfix order takes none. -/
def TextTakesComplexPower (given : String) : Prop :=
  ∃ tokens program,
    Token.scan (Spelling.normalize given.toList) = .ok tokens ∧
      Token.toPostfix (String.ofList (Spelling.normalize given.toList)) tokens = .ok program ∧
      Operand.RunTakesComplexPower (String.ofList (Spelling.normalize given.toList)) [] program

/-- A text that takes no complex power has no complex scale. -/
theorem raises_parse_of_not_takes {given : String} (h : ¬TextTakesComplexPower given) :
    Raises (· ≠ complexScale) (parse given) := by
  refine Meets.raises (R := fun _ => True) ?_
  unfold parse
  simp only
  split
  · trivial
  -- Scanning and reordering fail with faults of the text, and the run starts from no operands.
  · refine Meets.bind (((raises_scanFrom _ _ _ _).mono
      fun _ => IsTextFault.ne_complexScale).meets) fun tokens hscan _ => ?_
    refine Meets.bind (((raises_postfixFrom _ _ _).mono
      fun _ => IsTextFault.ne_complexScale).meets) fun program hordered _ => ?_
    refine (Operand.meets_run Operand.allReal_nil fun hrun => h ?_).bind fun stack _ hstack => ?_
    · exact ⟨tokens, program, hscan, hordered, hrun⟩
    · exact (raises_ofStack_of_allReal hstack _ _).meets

/-- A text that fails does so with a parse error, of which unknown units are a kind, unless it takes
a complex power. -/
theorem parse_error_kind {given : String} {e : Error} (h : parse given = .error e) :
    e.kind.isA .parse = true ∨ e = complexScale ∧ TextTakesComplexPower given := by
  have hfault := raises_parse given e h
  cases e with
  | parse fault text position => exact .inl rfl
  | unknownUnit token text => exact .inl rfl
  | conversion fault =>
    cases hfault
    refine .inr ⟨rfl, Classical.not_not.1 fun hnot => ?_⟩
    exact raises_parse_of_not_takes hnot _ h rfl
  | _ => exact hfault.elim

theorem ofStack_ne_ok_of_someComplex {stack : List Operand} (h : Operand.SomeComplex stack)
    (given normal : String) (unit : MeasureUnit) : ofStack given normal stack ≠ .ok unit := by
  unfold ofStack
  split
  · next operand =>
    obtain ⟨a, ha, hcomplex⟩ := h
    rw [List.mem_singleton.1 ha] at hcomplex
    rw [Operand.toUnit_of_not_isReal hcomplex]
    nofun
  · nofun

/-- No unit comes out of a text that takes a complex power. -/
theorem not_takes_of_parse {given : String} {unit : MeasureUnit} (h : parse given = .ok unit) :
    ¬TextTakesComplexPower given := by
  rintro ⟨tokens, program, hscan, hordered, htakes⟩
  -- A blank text runs nothing.
  have hne : Spelling.normalize given.toList ≠ [] := by
    intro hnil
    rw [hnil, Token.scan, Token.scanFrom_nil] at hscan
    cases hscan
    cases hordered
    exact htakes
  rw [parse_of_toPostfix rfl hne hscan hordered] at h
  obtain ⟨stack, hrun, hunit⟩ := bind_eq_ok_iff.1 h
  exact ofStack_ne_ok_of_someComplex (Operand.someComplex_of_run hrun (.inr htakes)) _ _ _ hunit

/-- **What the text of a unit comes to**: a unit; a parse error, of which unknown units are a kind;
or, only where a negative number is raised to a power that is not whole, an error of types. -/
theorem parse_outcome (given : String) :
    (∃ unit, parse given = .ok unit ∧ ¬TextTakesComplexPower given) ∨
      (∃ e, parse given = .error e ∧ e.kind.isA .parse = true) ∨
      (parse given = .error (.conversion (.notNumeric "complex")) ∧
        TextTakesComplexPower given) := by
  cases h : parse given with
  | ok unit => exact .inl ⟨unit, rfl, not_takes_of_parse h⟩
  | error e =>
    obtain hkind | ⟨rfl, htakes⟩ := parse_error_kind h
    · exact .inr (.inl ⟨e, rfl, hkind⟩)
    · exact .inr (.inr ⟨rfl, htakes⟩)

/-- `2^(-1*m)^0.5`: the square root of a unit with a negative scale fails, and with no parse
error. -/
theorem parse_root_of_negative_scale :
    parse "2^(-1*m)^0.5" = .error (.conversion (.notNumeric "complex")) ∧
      (Error.conversion (.notNumeric "complex")).kind.isA .parse = false := by
  have hnormal : Spelling.normalize "2^(-1*m)^0.5".toList =
      ['2', '^', '(', '-', '1', '*', 'm', ')', '^', '0', '.', '5'] := by cbv
  obtain ⟨tokens, hscan, program, hordered, hrun⟩ : ∃ tokens,
      Token.scan ['2', '^', '(', '-', '1', '*', 'm', ')', '^', '0', '.', '5'] = .ok tokens ∧
      ∃ program, Token.toPostfix "2^(-1*m)^0.5" tokens = .ok program ∧
        program.foldlM (Operand.step "2^(-1*m)^0.5") [] = .error complexScale := by
    open Token in
    refine ⟨_, scanFrom_cons rfl (scanFrom_cons rfl (scanFrom_cons rfl (scanFrom_cons rfl
      (scanFrom_cons rfl (scanFrom_cons rfl (scanFrom_cons rfl (scanFrom_cons rfl
      (scanFrom_cons rfl (scanFrom_nil _ _ _))))))))), _, rfl, rfl⟩
  refine ⟨?_, rfl⟩
  rw [parse_of_toPostfix hnormal (List.cons_ne_nil _ _) hscan hordered]
  exact congrArg (· >>= _) hrun

end MeasureUnit

end Dimensional
