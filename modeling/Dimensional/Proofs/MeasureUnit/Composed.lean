import Dimensional.Proofs.Decimal.Finite
import Dimensional.Proofs.MeasureUnit.InParens

/-!
# Products and quotients of unit texts

A text that is parsed into a unit has a tree (`HasTree`), and comes to what the tree comes to
(`ComesTo`).  Of two texts in parentheses with an operation between them the trees are put together
(`HasTree.joined`).

Main statement: `parse_joined` — of two texts in parentheses with `*` or `/` between them the units
are multiplied or divided, be they written as units or as plain numbers.
-/

namespace Dimensional.MeasureUnit

open Fallible

/-! ### What texts come to -/

/-- The tokens of the text in postfix order are the postorder of the tree. -/
def HasTree (given : String) (t : Tree) : Prop :=
  ∃ tokens program,
    Token.scan (Spelling.normalize given.toList) = .ok tokens ∧
      Token.toPostfix (String.ofList (Spelling.normalize given.toList)) tokens = .ok program ∧
      program.map Token.lexeme = t.postorder

/-- The text has a tree, and this is the operand that the tree comes to. -/
def ComesTo (given : String) (operand : Operand) : Prop :=
  ∃ t : Tree, HasTree given t ∧ t.eval = .ok operand

theorem Tree.postorder_ne_nil (t : Tree) : t.postorder ≠ [] := by
  cases t <;> simp [postorder]

/-- A blank text has no tree. -/
theorem HasTree.normalize_ne_nil {given : String} {t : Tree} (h : HasTree given t) :
    Spelling.normalize given.toList ≠ [] := by
  obtain ⟨tokens, program, hscan, hordered, ht⟩ := h
  intro hnil
  rw [hnil, Token.scan, Token.scanFrom_nil] at hscan
  cases hscan
  cases hordered
  exact t.postorder_ne_nil ht.symm

/-- A text has no second tree.  The text determines its tokens and their order, and the postorder
determines the tree. -/
theorem HasTree.unique {given : String} {t u : Tree} (ht : HasTree given t)
    (hu : HasTree given u) : t = u := by
  obtain ⟨tokens, program, hscan, hordered, ht⟩ := ht
  obtain ⟨tokens', program', hscan', hordered', hu⟩ := hu
  rw [hscan] at hscan'
  cases hscan'
  rw [hordered] at hordered'
  cases hordered'
  exact Tree.postorder_injective (ht.symm.trans hu)

theorem ofStack_eq_ok {given normal : String} {operand : Operand} {unit : MeasureUnit}
    (h : ofStack given normal [operand] = .ok unit) :
    ∃ u, operand.toUnit = .ok u ∧ isUsableScale u.scale = true ∧
      unit = { u with text := given } := by
  obtain ⟨u, hu, h⟩ := bind_eq_ok_iff.1 h
  split at h
  · next husable =>
    cases h
    exact ⟨u, hu, husable, rfl⟩
  · cases h

/-- A text that is parsed comes to an operand that is a unit of a usable scale. -/
theorem comesTo_of_parse {given : String} {unit : MeasureUnit}
    (hblank : ¬Spelling.IsBlankText given.toList) (h : parse given = .ok unit) :
    ∃ operand u, ComesTo given operand ∧ operand.toUnit = .ok u ∧
      isUsableScale u.scale = true ∧ unit = { u with text := given } := by
  obtain ⟨tokens, program, operand, hscan, hordered, hrun, hunit⟩ := run_of_parse hblank h
  obtain ⟨blocks, harranged, rfl⟩ := Token.arranged_of_toPostfix hordered
  obtain ⟨t, ht⟩ := eq_postorder_of_run hrun harranged.not_parenthesis
  obtain ⟨u, hu, husable, rfl⟩ := ofStack_eq_ok hunit
  -- The tree comes to what the machine leaves on the stack.
  have heval := foldlM_step_postorder ht (String.ofList (Spelling.normalize given.toList)) []
  rw [hrun] at heval
  obtain ⟨x, hx, hstack⟩ := bind_eq_ok_iff.1 heval.symm
  cases hstack
  exact ⟨operand, u, ⟨t, ⟨tokens, _, hscan, hordered, ht⟩, byKind_eq_ok_iff.1 hx⟩, hu, husable, rfl⟩

/-- A text that comes to a unit is parsed into it, if the scale of the unit is usable. -/
theorem ComesTo.parse {given : String} {operand : Operand} {u : MeasureUnit}
    (h : ComesTo given operand) (hu : operand.toUnit = .ok u) :
    MeasureUnit.parse given =
      if isUsableScale u.scale then .ok { u with text := given }
      else .error (.parse (.unusableScale given)
        (String.ofList (Spelling.normalize given.toList)) none) := by
  obtain ⟨t, htree, heval⟩ := h
  obtain ⟨tokens, program, hscan, hordered, ht⟩ := htree
  have hrun := foldlM_step_postorder ht (String.ofList (Spelling.normalize given.toList)) []
  rw [heval] at hrun
  rw [parse_of_toPostfix rfl (HasTree.normalize_ne_nil ⟨tokens, program, hscan, hordered, ht⟩)
    hscan hordered, byKind_eq_ok_iff.1 hrun]
  show (operand.toUnit >>= _) = _
  rw [hu]
  rfl

/-- Two texts in parentheses with an operation between them have the tree of the operation.
Powers are left out, since behind `^(` a sign may stand that could not stand at the start of a
text. -/
theorem HasTree.joined {op : Operation} (hop : op ≠ .power) {given a b : String}
    (hgiven : given.toList =
      '(' :: (a.toList ++ ')' :: op.mark :: '(' :: (b.toList ++ [')'])))
    {t u : Tree} (ha : HasTree a t) (hb : HasTree b u) : HasTree given (.apply op t u) := by
  obtain ⟨as, p, hscana, hordereda, ht⟩ := ha
  obtain ⟨bs, q, hscanb, horderedb, hu⟩ := hb
  unfold HasTree
  rw [hgiven, Spelling.normalize_joined]
  generalize hnormal : '(' :: (Spelling.normalize a.toList ++ ')' :: op.mark ::
    '(' :: (Spelling.normalize b.toList ++ [')'])) = normal
  have hcut : Token.CutInto (String.ofList normal) .elsewhere normal
      (.opens :: (as.map Token.lexeme ++ .closes :: op.lexeme ::
        .opens :: (bs.map Token.lexeme ++ [.closes]))) := by
    have hnil : Token.CutInto (String.ofList normal) .elsewhere [] [] :=
      fun position => ⟨[], Token.scanFrom_nil _ _ position, rfl⟩
    have hright := Token.cutInto_inParens hscanb hnil
    rw [← hnormal]
    refine Token.cutInto_inParens hscana
      (Token.cutInto_of_take (Token.take_mark (mark?_mark op) _ _) ?_)
    -- No sign may stand behind a product or a quotient.
    cases op with
    | product => exact hnormal ▸ hright
    | quotient => exact hnormal ▸ hright
    | power => exact absurd rfl hop
  obtain ⟨tokens, hscan, htokens⟩ := hcut 0
  -- Each text is read in its parentheses as it is on its own, and then the operation is.
  have hreads : Token.Reads 0 (tokens.map Token.lexeme) (Tree.apply op t u).postorder := by
    have hjoined := @Token.reads_apply 0 op _ _ _ _ (Nat.zero_le _)
      (Token.reads_inParens hordereda) (Token.reads_inParens horderedb)
    rw [ht, hu] at hjoined
    rw [htokens]
    simpa [Tree.postorder] using hjoined
  obtain ⟨program, hordered, hprogram⟩ := Token.toPostfix_of_reads hreads (String.ofList normal)
  exact ⟨tokens, program, hscan, hordered, hprogram⟩

/-- Of two texts in parentheses with an operation between them, the operation is applied to what
they come to. -/
theorem ComesTo.joined {op : Operation} (hop : op ≠ .power) {given a b : String}
    (hgiven : given.toList =
      '(' :: (a.toList ++ ')' :: op.mark :: '(' :: (b.toList ++ [')'])))
    {x y z : Operand} (ha : ComesTo a x) (hb : ComesTo b y) (hz : op.apply "" 0 x y = .ok z) :
    ComesTo given z := by
  obtain ⟨t, ht, hx⟩ := ha
  obtain ⟨u, hu, hy⟩ := hb
  refine ⟨.apply op t u, ht.joined hop hgiven hu, ?_⟩
  rw [Tree.eval, hx, hy]
  exact hz

/-! ### Units of products and quotients

Two numbers are multiplied as numbers, and a number and a unit as units.  Made a unit afterwards
or before, the product is the same; quotients may fail, at a divisor that is zero. -/

/-- What can be made a unit is a plain number, which has no dimension, or a unit already. -/
theorem Operand.toUnit_eq_ok {x : Operand} {u : MeasureUnit} (h : x.toUnit = .ok u) :
    (∃ r, x = .scalar (.real r) ∧ u = ⟨r, .one, ""⟩) ∨ x = .unit u := by
  obtain (r | z) | v := x
  · cases h
    exact .inl ⟨r, rfl, rfl⟩
  · cases h
  · cases h
    exact .inr rfl

/-- Numbers and units are multiplied as units. -/
theorem Operand.exists_mul {x y : Operand} {u v : MeasureUnit} (hx : x.toUnit = .ok u)
    (hy : y.toUnit = .ok v) :
    ∃ z, Operation.product.apply "" 0 x y = .ok z ∧
      z.toUnit = .ok ⟨u.scale * v.scale, u.dims * v.dims, ""⟩ := by
  obtain ⟨r, rfl, rfl⟩ | rfl := toUnit_eq_ok hx
  · obtain ⟨q, rfl, rfl⟩ | rfl := toUnit_eq_ok hy
    · exact ⟨.scalar (.real (r * q)), rfl, rfl⟩
    · exact ⟨.unit _, rfl, rfl⟩
  · obtain ⟨q, rfl, rfl⟩ | rfl := toUnit_eq_ok hy
    · exact ⟨.unit _, rfl, rfl⟩
    · exact ⟨.unit _, rfl, rfl⟩

/-- Numbers and units are divided as units. -/
theorem Operand.exists_div {x y : Operand} {u v : MeasureUnit} (hx : x.toUnit = .ok u)
    (hy : y.toUnit = .ok v) {scale : Float} (hscale : divide u.scale v.scale = .ok scale) :
    ∃ z, Operation.quotient.apply "" 0 x y = .ok z ∧
      z.toUnit = .ok ⟨scale, u.dims / v.dims, ""⟩ := by
  have hunits : locate "" 0 (u.div v >>= fun w => .ok (Operand.unit w)) =
      .ok (.unit ⟨scale, u.dims / v.dims, ""⟩) := by
    unfold MeasureUnit.div
    rw [hscale]
    rfl
  obtain ⟨r, rfl, rfl⟩ | rfl := toUnit_eq_ok hx
  · obtain ⟨q, rfl, rfl⟩ | rfl := toUnit_eq_ok hy
    · refine ⟨.scalar (.real scale), ?_, rfl⟩
      show locate "" 0 (liftFault (divide r q) >>= _) = _
      rw [hscale]
      rfl
    · exact ⟨_, hunits, rfl⟩
  · obtain ⟨q, rfl, rfl⟩ | rfl := toUnit_eq_ok hy
    · exact ⟨_, hunits, rfl⟩
    · exact ⟨_, hunits, rfl⟩

/-- The text is parsed into a unit of this scale and dimension, if the scale is finite and above
zero, and otherwise it is refused. -/
def ParsesTo (given : String) (scale : Float) (dims : Dimension) : Prop :=
  (scale.isFinite = true ∧ 0 < scale → parse given = .ok ⟨scale, dims, given⟩) ∧
  (¬(scale.isFinite = true ∧ 0 < scale) →
    parse given = .error (.parse (.unusableScale given)
      (String.ofList (Spelling.normalize given.toList)) none))

theorem isUsableScale_iff {x : Float} :
    isUsableScale x = true ↔ x.isFinite = true ∧ 0 < x := by
  simp [isUsableScale]

theorem ComesTo.parsesTo {given text : String} {operand : Operand} {scale : Float}
    {dims : Dimension} (h : ComesTo given operand)
    (hu : operand.toUnit = .ok ⟨scale, dims, text⟩) : ParsesTo given scale dims := by
  unfold ParsesTo
  rw [h.parse hu, ← isUsableScale_iff]
  exact ⟨fun husable => if_pos husable, fun husable => if_neg husable⟩

/-- **Products and quotients of texts are those of their units**: where two texts that are not blank
are parsed into units, the texts in parentheses with `*` or `/` between them stand for the product
and the quotient of these units, as long as the scale is still usable. -/
theorem parse_joined {a b : String} {u v : MeasureUnit} (ha : ¬Spelling.IsBlankText a.toList)
    (hb : ¬Spelling.IsBlankText b.toList) (hu : parse a = .ok u) (hv : parse b = .ok v) :
    ParsesTo ("(" ++ a ++ ")*(" ++ b ++ ")") (u.scale * v.scale) (u.dims * v.dims) ∧
      ParsesTo ("(" ++ a ++ ")/(" ++ b ++ ")") (u.scale / v.scale) (u.dims / v.dims) := by
  obtain ⟨x, u, hx, hxu, _, rfl⟩ := comesTo_of_parse ha hu
  obtain ⟨y, v, hy, hyv, husable, rfl⟩ := comesTo_of_parse hb hv
  constructor
  · obtain ⟨z, hz, hunit⟩ := Operand.exists_mul hxu hyv
    have hjoined : ComesTo ("(" ++ a ++ ")*(" ++ b ++ ")") z :=
      hx.joined (by decide) (by simp [Operation.mark]) hy hz
    exact hjoined.parsesTo hunit
  -- A unit that has been parsed has a scale above zero, so the division goes through.
  · have hscale : divide u.scale v.scale = .ok (u.scale / v.scale) :=
      if_neg (by simp [Decimal.beq_zero_of_pos (isUsableScale_iff.1 husable).2])
    obtain ⟨z, hz, hunit⟩ := Operand.exists_div hxu hyv hscale
    have hjoined : ComesTo ("(" ++ a ++ ")/(" ++ b ++ ")") z :=
      hx.joined (by decide) (by simp [Operation.mark]) hy hz
    exact hjoined.parsesTo hunit

/-- `m s2` and ` 2`: the blanks of the one mean a product and those of the other nothing, also in
parentheses. -/
theorem parse_joined_m_s2_and_two :
    ∃ u v, parse "m s2" = .ok u ∧ parse " 2" = .ok v ∧
      parse "(m s2)*( 2)" = .ok ⟨u.scale * v.scale, u.dims * v.dims, "(m s2)*( 2)"⟩ ∧
      parse "(m s2)/( 2)" = .ok ⟨u.scale / v.scale, u.dims / v.dims, "(m s2)/( 2)"⟩ := by
  have hnormal : Spelling.normalize "m s2".toList = ['m', '*', 's', '2'] := by cbv
  have hnormal' : Spelling.normalize " 2".toList = ['2'] := by cbv
  have hblank : ¬Spelling.IsBlankText "m s2".toList := by
    rw [← Spelling.normalize_eq_nil_iff, hnormal]
    exact List.cons_ne_nil _ _
  have hblank' : ¬Spelling.IsBlankText " 2".toList := by
    rw [← Spelling.normalize_eq_nil_iff, hnormal']
    exact List.cons_ne_nil _ _
  obtain ⟨u, hu, hscale⟩ : ∃ u, parse "m s2" = .ok u ∧ u.scale = 1.0 := by
    open Token in
    rw [parse_of_toPostfix hnormal (List.cons_ne_nil _ _)
      (scanFrom_cons rfl (scanFrom_cons rfl (scanFrom_cons rfl (scanFrom_nil _ _ _)))) rfl]
    exact ⟨_, rfl, by decide +kernel⟩
  obtain ⟨v, hv, hscale'⟩ : ∃ v, parse " 2" = .ok v ∧ v.scale = 2.0 := by
    open Token in
    rw [parse_of_toPostfix hnormal' (List.cons_ne_nil _ _)
      (scanFrom_cons rfl (scanFrom_nil _ _ _)) rfl]
    exact ⟨_, rfl, by decide +kernel⟩
  -- What is left is that one times two and one half are usable scales.
  obtain ⟨hmul, hdiv⟩ := parse_joined hblank hblank' hu hv
  refine ⟨u, v, hu, hv, hmul.1 ?_, hdiv.1 ?_⟩
  · rw [hscale, hscale']
    decide +kernel
  · rw [hscale, hscale']
    decide +kernel

end Dimensional.MeasureUnit
