import Dimensional.Proofs.Decimal.Whole
import Dimensional.Proofs.MeasureUnit.Composed

/-!
# Quotients of products of base units

Unit expressions that are made of base units with natural exponents: factors (`factorTree`),
products of factors (`productTree`) and quotients of two products (`quotientTree`), with the lexemes
that they are written down with.  A product is its first factor folded over the others; without any
factors it is one.

Main statements: `written_quotient` — the lexemes write down the tree; `gives_quotient` — the tree
comes to the unit with the scale one in which each base unit has its exponent, below the line with
the other sign.
-/

namespace Dimensional.MeasureUnit

open Decimal

section

variable (exponent : String → Nat)

/-- A base unit with its exponent, which is left out if it is one. -/
def factorTree (s : String) : Tree :=
  if exponent s = 1 then .name s else .apply .power (.name s) (.number (Float.ofNat (exponent s)))

def timesTree (t : Tree) (symbols : List String) : Tree :=
  symbols.foldl (fun t s => .apply .product t (factorTree exponent s)) t

/-- A product of base units, which is one if there are none. -/
def productTree : List String → Tree
  | [] => .number 1
  | s :: symbols => timesTree exponent (factorTree exponent s) symbols

/-- A quotient of two products, of which the second one is left out if it has no factors. -/
def quotientTree (above : List String) : List String → Tree
  | [] => productTree exponent above
  | s :: symbols =>
    .apply .quotient (productTree exponent above) (productTree exponent (s :: symbols))

def factorLexemes (s : String) : List Lexeme :=
  .name s :: if exponent s = 1 then [] else [.power, .number (Float.ofNat (exponent s))]

def timesLexemes (symbols : List String) : List Lexeme :=
  symbols.flatMap fun s => .times :: factorLexemes exponent s

def productLexemes : List String → List Lexeme
  | [] => [.number 1]
  | s :: symbols => factorLexemes exponent s ++ timesLexemes exponent symbols

/-- The lexemes of a quotient.  Parentheses stand around more than one factor below the line. -/
def quotientLexemes (above : List String) : List String → List Lexeme
  | [] => productLexemes exponent above
  | [s] => productLexemes exponent above ++ .over :: factorLexemes exponent s
  | s :: t :: symbols =>
    productLexemes exponent above ++
      .over :: .opens :: (productLexemes exponent (s :: t :: symbols) ++ [.closes])

end

/-! ### How they are written down -/

section

variable {exponent : String → Nat}

theorem written_factor (s : String) :
    (factorTree exponent s).Written 3 (factorLexemes exponent s) := by
  unfold factorTree factorLexemes
  split
  · exact .name
  · exact @Tree.Written.apply 3 .power _ _ _ _ (Nat.le_refl 3) .name .number

theorem written_times {t : Tree} {lexemes : List Lexeme} (h : t.Written 2 lexemes)
    (symbols : List String) :
    (timesTree exponent t symbols).Written 2 (lexemes ++ timesLexemes exponent symbols) := by
  induction symbols generalizing t lexemes with
  | nil =>
    rw [timesLexemes, List.flatMap_nil, List.append_nil]
    exact h
  | cons s symbols ih =>
    have hfactor := @written_factor exponent s
    have hnext := ih (@Tree.Written.apply 2 .product _ _ _ _ (Nat.le_refl 2) h hfactor)
    rw [List.append_assoc] at hnext
    exact hnext

theorem written_product (symbols : List String) :
    (productTree exponent symbols).Written 2 (productLexemes exponent symbols) := by
  cases symbols with
  | nil => exact .number
  | cons s symbols => exact written_times ((written_factor s).mono (by decide)) symbols

/-- The lexemes of a quotient write down its tree. -/
theorem written_quotient (above below : List String) :
    (quotientTree exponent above below).Written 0 (quotientLexemes exponent above below) := by
  have habove := @written_product exponent above
  match below with
  | [] => exact habove.mono (Nat.zero_le 2)
  | [s] =>
    exact @Tree.Written.apply 0 .quotient _ _ _ _ (Nat.zero_le 2) habove (written_factor s)
  | s :: t :: symbols =>
    have hbelow := @written_product exponent (s :: t :: symbols)
    exact @Tree.Written.apply 0 .quotient _ _ _ _ (Nat.zero_le 2) habove
      (.paren (hbelow.mono (Nat.zero_le 2)))

end

/-! ### What they come to

The scale is one throughout, by the arithmetic of the number one.  Exponents are followed symbol
by symbol: at most one of two operands has a symbol, so sums and differences are with zero and
exact. -/

/-- One to any exponent is one. -/
theorem realPow_one (y : Float) : Scalar.realPow 1.0 y = .ok (.real 1.0) := by
  have hone : (1.0 : Float).isNaN = false ∧ (1.0 : Float).isInf = false ∧
      ((1.0 : Float) == 0.0) = false ∧ ((1.0 : Float) == 1.0) = true ∧ (1.0 : Float) > 0.0 ∧
      (1.0 : Float).abs = 1.0 := by
    decide +kernel
  obtain ⟨hnan, hinf, hzero, hsame, hpos, habs⟩ := hone
  have hinfinite : Power.toInfinite 1.0 y = 1.0 := by
    simp only [Power.toInfinite, habs, hsame, if_true]
  unfold Scalar.realPow
  simp only [hnan, hinf, hzero, hsame, hpos, hinfinite, Power.ofPositive_one, if_true]
  split
  · rfl
  · simp [Except.map]

/-- The dimension in which each base unit has the exponent that it is given. -/
def ofSymbols (f : String → Float) : Dimension := ⟨Exponents.baseUnits.map f, rfl⟩

theorem ofSymbols_mul (f g : String → Float) :
    ofSymbols f * ofSymbols g = ofSymbols fun s => f s + g s := by
  ext1
  show (Exponents.baseUnits.map f).zipWith (· + ·) (Exponents.baseUnits.map g) = _
  rw [List.zipWith_map, List.zipWith_self]
  rfl

theorem ofSymbols_div (f g : String → Float) :
    ofSymbols f / ofSymbols g = ofSymbols fun s => f s - g s := by
  ext1
  show (Exponents.baseUnits.map f).zipWith (· - ·) (Exponents.baseUnits.map g) = _
  rw [List.zipWith_map, List.zipWith_self]
  rfl

theorem ofSymbols_pow (f : String → Float) (x : Float) :
    (ofSymbols f).pow x = ofSymbols fun s => f s * x := by
  ext1
  show (Exponents.baseUnits.map f).map (· * x) = _
  rw [List.map_map]
  rfl

theorem ofSymbols_congr {f g : String → Float} (h : ∀ s ∈ Exponents.baseUnits, f s = g s) :
    ofSymbols f = ofSymbols g := by
  ext1
  exact List.map_congr_left h

theorem ofName_baseUnit {s : String} (h : s ∈ Exponents.baseUnits) :
    ofName s = .ok ⟨1.0, ofSymbols fun t => if t = s then 1 else 0, s⟩ := by
  simp only [Exponents.baseUnits, List.mem_cons, List.not_mem_nil, or_false] at h
  rcases h with rfl | rfl | rfl | rfl | rfl | rfl | rfl | rfl <;> rfl

/-- The tree comes to a unit with the scale one and these exponents of the base units. -/
def Tree.Gives (t : Tree) (f : String → Float) : Prop :=
  ∃ operand text, t.eval = .ok operand ∧ operand.toUnit = .ok ⟨1.0, ofSymbols f, text⟩

namespace Tree.Gives

variable {t u : Tree} {f g : String → Float}

theorem congr (h : t.Gives f) (heq : ∀ s ∈ Exponents.baseUnits, f s = g s) : t.Gives g := by
  obtain ⟨operand, text, heval, hunit⟩ := h
  rw [ofSymbols_congr heq] at hunit
  exact ⟨operand, text, heval, hunit⟩

theorem mul (ht : t.Gives f) (hu : u.Gives g) :
    (Tree.apply .product t u).Gives fun s => f s + g s := by
  obtain ⟨x, _, hx, hxu⟩ := ht
  obtain ⟨y, _, hy, hyu⟩ := hu
  obtain ⟨z, hz, hzu⟩ := Operand.exists_mul hxu hyu
  have hone : (1.0 : Float) * 1.0 = 1.0 := by decide +kernel
  refine ⟨z, "", ?_, ?_⟩
  · rw [Tree.eval, hx, hy]
    exact hz
  · rw [hzu, ofSymbols_mul, hone]

theorem div (ht : t.Gives f) (hu : u.Gives g) :
    (Tree.apply .quotient t u).Gives fun s => f s - g s := by
  obtain ⟨x, _, hx, hxu⟩ := ht
  obtain ⟨y, _, hy, hyu⟩ := hu
  have hone : divide (1.0 : Float) 1.0 = .ok 1.0 := by
    have hdiv : (1.0 : Float) / 1.0 = 1.0 := by decide +kernel
    have hzero : ((1.0 : Float) == 0.0) = false := by decide +kernel
    rw [divide, hzero, hdiv]
    rfl
  obtain ⟨z, hz, hzu⟩ := Operand.exists_div hxu hyu hone
  refine ⟨z, "", ?_, ?_⟩
  · rw [Tree.eval, hx, hy]
    exact hz
  · rw [hzu, ofSymbols_div]

end Tree.Gives

theorem gives_name {s : String} (hs : s ∈ Exponents.baseUnits) :
    (Tree.name s).Gives fun t => if t = s then 1 else 0 := by
  refine ⟨.unit _, s, ?_, rfl⟩
  rw [Tree.eval, ofName_baseUnit hs]
  rfl

theorem gives_power {s : String} (hs : s ∈ Exponents.baseUnits) (x : Float) :
    (Tree.apply .power (.name s) (.number x)).Gives fun t => (if t = s then 1 else 0) * x := by
  refine ⟨.unit ⟨1.0, _, ""⟩, "", ?_, rfl⟩
  rw [Tree.eval, Tree.eval, ofName_baseUnit hs, ← ofSymbols_pow]
  show Operand.locate "" 0 (MeasureUnit.pow _ x >>= _) = _
  rw [MeasureUnit.pow, realPow_one]
  rfl

section

variable {exponent : String → Nat}

/-- The exponent that a base unit has in a product of these. -/
def exponentIn (exponent : String → Nat) (symbols : List String) (s : String) : Nat :=
  if s ∈ symbols then exponent s else 0

theorem exponentIn_le {symbols : List String} {s : String} {n : Nat} (h : exponent s ≤ n) :
    exponentIn exponent symbols s ≤ n := by
  unfold exponentIn
  split
  · exact h
  · exact Nat.zero_le n

theorem exponentIn_eq_zero {symbols : List String} {s : String} (h : s ∉ symbols) :
    exponentIn exponent symbols s = 0 := if_neg h

/-- Of different factors at most one has the symbol. -/
theorem exponentIn_append {as bs : List String} (h : (as ++ bs).Nodup) (s : String) :
    (exponentIn exponent as s = 0 ∨ exponentIn exponent bs s = 0) ∧
      exponentIn exponent as s + exponentIn exponent bs s = exponentIn exponent (as ++ bs) s := by
  by_cases ha : s ∈ as
  · have hb : s ∉ bs := fun hb => (List.nodup_append.1 h).2.2 s ha s hb rfl
    simp [exponentIn, ha, hb]
  · simp [exponentIn, ha]

variable (hle : ∀ s ∈ Exponents.baseUnits, exponent s ≤ 9007199254740992)

include hle

theorem gives_factor {s : String} (hs : s ∈ Exponents.baseUnits) :
    (factorTree exponent s).Gives fun t => Float.ofNat (exponentIn exponent [s] t) := by
  have hself : exponentIn exponent [s] s = exponent s := if_pos List.mem_cons_self
  have hother : ∀ {t : String}, t ≠ s → exponentIn exponent [s] t = 0 := fun ht =>
    exponentIn_eq_zero fun hmem => ht (List.mem_singleton.1 hmem)
  unfold factorTree
  split
  -- An exponent of one is left out, and the name alone has it.
  · next hone =>
    apply (gives_name hs).congr
    intro t _
    by_cases ht : t = s
    · rw [if_pos ht, ht, hself, hone]
      rfl
    · rw [if_neg ht, hother ht]
      rfl
  · apply (gives_power hs _).congr
    intro t _
    by_cases ht : t = s
    · rw [if_pos ht, ht, hself]
      exact one_mul_ofNat (hle s hs)
    · rw [if_neg ht, hother ht]
      exact zero_mul_ofNat (hle s hs)

/-- Two products without a common factor. -/
theorem gives_append {t u : Tree} {as bs : List String}
    (ht : t.Gives fun s => Float.ofNat (exponentIn exponent as s))
    (hu : u.Gives fun s => Float.ofNat (exponentIn exponent bs s)) (h : (as ++ bs).Nodup) :
    (Tree.apply .product t u).Gives fun s => Float.ofNat (exponentIn exponent (as ++ bs) s) := by
  apply (ht.mul hu).congr
  intro s hs
  obtain ⟨hzero, hsum⟩ := @exponentIn_append exponent _ _ h s
  rw [← hsum]
  exact ofNat_add_ofNat (exponentIn_le (hle s hs)) (exponentIn_le (hle s hs)) hzero

/-- A product to which further base units are multiplied one by one.  Those that are done differ
from all to come, so that no sum of two exponents is taken. -/
theorem gives_times {t : Tree} {done symbols : List String}
    (h : t.Gives fun s => Float.ofNat (exponentIn exponent done s))
    (hnodup : (done ++ symbols).Nodup) (hsub : ∀ s ∈ symbols, s ∈ Exponents.baseUnits) :
    (timesTree exponent t symbols).Gives fun s =>
      Float.ofNat (exponentIn exponent (done ++ symbols) s) := by
  induction symbols generalizing t done with
  | nil =>
    rw [List.append_nil]
    exact h
  | cons s symbols ih =>
    obtain ⟨hs, hsub⟩ := List.forall_mem_cons.1 hsub
    rw [List.append_cons] at hnodup ⊢
    have hdone : (done ++ [s]).Nodup := (List.nodup_append.1 hnodup).1
    exact ih (gives_append hle h (gives_factor hle hs) hdone) hnodup hsub

theorem gives_product {symbols : List String} (hnodup : symbols.Nodup)
    (hsub : ∀ s ∈ symbols, s ∈ Exponents.baseUnits) :
    (productTree exponent symbols).Gives fun s => Float.ofNat (exponentIn exponent symbols s) := by
  cases symbols with
  | nil => exact ⟨.scalar (.real 1), "", rfl, rfl⟩
  | cons s symbols =>
    obtain ⟨hs, hsub⟩ := List.forall_mem_cons.1 hsub
    exact gives_times hle (gives_factor hle hs) hnodup hsub

/-- A quotient of different base units comes to the unit with their exponents, which below the
line have the other sign.  The bound is that up to which natural numbers are floats. -/
theorem gives_quotient {above below : List String} (hnodup : (above ++ below).Nodup)
    (hsub : ∀ s ∈ above ++ below, s ∈ Exponents.baseUnits) :
    (quotientTree exponent above below).Gives fun s =>
      Float.ofInt (exponentIn exponent above s - exponentIn exponent below s) := by
  obtain ⟨habove, hbelow⟩ := List.forall_mem_append.1 hsub
  obtain ⟨hnodupAbove, hnodupBelow, _⟩ := List.nodup_append.1 hnodup
  have hnumerator := gives_product hle hnodupAbove habove
  have hdenominator := gives_product hle hnodupBelow hbelow
  cases below with
  | nil =>
    apply hnumerator.congr
    intro s _
    rw [exponentIn_eq_zero List.not_mem_nil]
    show _ = Float.ofInt ((exponentIn exponent above s : Int) - 0)
    rw [Int.sub_zero]
    rfl
  -- Below the line the exponents are subtracted from those above it, which are zero there.
  | cons t symbols =>
    apply (hnumerator.div hdenominator).congr
    intro s hs
    obtain ⟨hzero, _⟩ := @exponentIn_append exponent _ _ hnodup s
    exact ofNat_sub_ofNat (exponentIn_le (hle s hs)) (exponentIn_le (hle s hs)) hzero

end

end Dimensional.MeasureUnit
