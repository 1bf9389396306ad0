import Dimensional.Proofs.Failure

/-!
# Items that stand for quantities

Whatever a look-up supplies, it is made a quantity or refused as an item: a pair is read member by
member, first its value and then its exponents, and the first member that stands for no number
decides (`Item.ofPair_outcome`).  Two sorts of integers get past the refusal
(`toQuantity_pair_beyond_range`): one beyond the range of the floats, if it is that first member,
and one of too many digits anywhere in a pair that is to be refused, since the message shows the
pair.  `toQuantity_outcome` says exactly which items end in which of these errors.
-/

namespace Dimensional

open Fallible

/-! ### Values that cannot be written out

The message of a refused pair shows the pair, and an integer of too many digits has no text.  Where
such an integer stands in a value does not matter; `Datum.Occurs` says that it stands somewhere. -/

namespace Datum

/-- A value stands in another one: it is that value, or it stands in a member of a list or in a
field of an object. -/
inductive Occurs (part : Datum) : Datum → Prop where
  | here : Occurs part part
  | member {d : Datum} {items : List Datum} :
      d ∈ items → Occurs part d → Occurs part (.list items)
  | field {name : String} {d : Datum} {fields : List (String × Datum)} :
      (name, d) ∈ fields → Occurs part d → Occurs part (.object fields)

theorem areWritable_eq_all (items : List Datum) : areWritable items = items.all isWritable := by
  induction items with
  | nil => rfl
  | cons d rest ih => rw [areWritable, ih, List.all_cons]

theorem fieldsAreWritable_eq_all (fields : List (String × Datum)) :
    fieldsAreWritable fields = fields.all (·.2.isWritable) := by
  induction fields with
  | nil => rfl
  | cons field rest ih => rw [fieldsAreWritable, ih, List.all_cons]

/-- What cannot be written out makes every value unwritable in which it stands. -/
theorem isWritable_of_occurs {part d : Datum} (h : Occurs part d) (hd : d.isWritable = true) :
    part.isWritable = true := by
  -- The induction is on where the part stands, from the outside in.
  induction h with
  | here => exact hd
  | member hmem _ ih =>
    rw [isWritable, areWritable_eq_all, List.all_eq_true] at hd
    exact ih (hd _ hmem)
  | field hmem _ ih =>
    rw [isWritable, fieldsAreWritable_eq_all, List.all_eq_true] at hd
    exact ih (hd _ hmem)

mutual

/-- A value can be written out if all the integers in it can be. -/
theorem isWritable_of_occurring :
    (d : Datum) → (∀ n, Occurs (.int n) d → Decimal.isWritable n = true) → d.isWritable = true
  | .null, _ | .bool _, _ | .real _, _ | .text _, _ => rfl
  | .int n, h => h n .here
  | .list items, h => areWritable_of_occurring items fun _ hd n hn => h n (.member hd hn)
  | .object fields, h =>
    fieldsAreWritable_of_occurring fields fun _ hfield n hn => h n (.field hfield hn)

theorem areWritable_of_occurring :
    (items : List Datum) →
      (∀ d ∈ items, ∀ n, Occurs (.int n) d → Decimal.isWritable n = true) →
        areWritable items = true
  | [], _ => rfl
  | d :: rest, h => by
    rw [areWritable, Bool.and_eq_true]
    exact ⟨isWritable_of_occurring d (h d List.mem_cons_self),
      areWritable_of_occurring rest fun d hd => h d (List.mem_cons_of_mem _ hd)⟩

theorem fieldsAreWritable_of_occurring :
    (fields : List (String × Datum)) →
      (∀ field ∈ fields, ∀ n, Occurs (.int n) field.2 → Decimal.isWritable n = true) →
        fieldsAreWritable fields = true
  | [], _ => rfl
  | (name, d) :: rest, h => by
    rw [fieldsAreWritable, Bool.and_eq_true]
    exact ⟨isWritable_of_occurring d (h (name, d) List.mem_cons_self),
      fieldsAreWritable_of_occurring rest fun field hf => h field (List.mem_cons_of_mem _ hf)⟩

end

/-- A value cannot be written out if and only if an integer of too many digits stands in it.  It
does not matter how deep it stands, or whether the other values in it can be written out. -/
theorem isWritable_eq_false_iff {d : Datum} :
    d.isWritable = false ↔ ∃ n, Occurs (.int n) d ∧ Decimal.digitLimit ≤ n.natAbs := by
  constructor
  · intro hd
    refine Classical.byContradiction fun hnone => ?_
    have hall : d.isWritable = true := isWritable_of_occurring d fun n hn => by
      cases hwritable : Decimal.isWritable n with
      | true => rfl
      | false => exact absurd ⟨n, hn, Decimal.isWritable_eq_false_iff.1 hwritable⟩ hnone
    rw [hd] at hall
    cases hall
  · rintro ⟨n, hn, hlong⟩
    refine Bool.eq_false_iff.2 fun hd => ?_
    have hwritable : Decimal.isWritable n = true := isWritable_of_occurs hn hd
    rw [Decimal.isWritable_eq_false_iff.2 hlong] at hwritable
    cases hwritable

end Datum

/-! ### Values that stand for no number -/

/-- Only an integer is too large to be a number. -/
theorem Datum.toFloat_eq_error {d : Datum} {e : Error} (h : d.toFloat = .error e) :
    ∃ fault, e = .conversion fault ∧ (fault = .tooLarge ↔ ∃ n, d = .int n) := by
  unfold Datum.toFloat at h
  split at h
  · cases h
  · split at h
    · cases h
    · cases h
      exact ⟨_, rfl, iff_of_true rfl ⟨_, rfl⟩⟩
  · cases h
  · split at h
    · cases h
    · cases h
      exact ⟨_, rfl, by simp⟩
  · next hint _ _ =>
    cases h
    exact ⟨_, rfl, iff_of_false (by simp) fun ⟨n, hn⟩ => hint n hn⟩

/-! ### Pairs

Value and exponents are read in one pass, and the first that stands for no number ends it
(`Quantity.ofData_cases`).  What becomes of that error is then settled twice: an integer beyond the
floats is passed on as it is, and every other fault turns into the refusal of the pair, which needs
the text of the whole pair and not only of the faulty member. -/

/-- The values that an item is made of, in the order in which they are read as numbers: the value of
a pair, and then its exponents.  Other items have none. -/
def Item.numbers? : Item → Option (List Datum)
  | .tuple [value, dims] => dims.members?.map (value :: ·)
  | _ => none

/-- The first value of the item that stands for no number is an integer beyond the floats. -/
def Item.Overflows (item : Item) : Prop :=
  ∃ values n, item.numbers? = some values ∧
    values.find? (!·.toFloat.isOk) = some (.int n)

/-- The item is a pair that is to be refused, since the first of its values that stands for no
number is no integer, but the refusal cannot be put into words: an integer with more digits than a
text may have stands in the pair, be it among the values, deeper in one of them, or in a field of an
object of which only the names are read as numbers. -/
def Item.Unquotable (item : Item) : Prop :=
  ∃ value dims values d n, item = .tuple [value, dims] ∧ item.numbers? = some values ∧
    values.find? (!·.toFloat.isOk) = some d ∧ (∀ m, d ≠ .int m) ∧
    (Datum.Occurs (.int n) value ∨ Datum.Occurs (.int n) dims) ∧
    Decimal.digitLimit ≤ n.natAbs

/-- The text of a pair fails for an integer of too many digits in either member. -/
theorem Datum.areWritable_pair_eq_false_iff {value dims : Datum} :
    areWritable [value, dims] = false ↔
      ∃ n, (Occurs (.int n) value ∨ Occurs (.int n) dims) ∧ Decimal.digitLimit ≤ n.natAbs := by
  rw [areWritable_eq_all, List.all_cons, List.all_cons, List.all_nil, Bool.and_true,
    Bool.and_eq_false_iff, isWritable_eq_false_iff, isWritable_eq_false_iff, ← exists_or]
  simp only [or_and_right]

theorem Item.refusePair_cases (value dims : Datum) :
    (refusePair value dims = .evaluation (.invalidPair value dims) ∧
        ¬∃ n, (Datum.Occurs (.int n) value ∨ Datum.Occurs (.int n) dims) ∧
          Decimal.digitLimit ≤ n.natAbs) ∨
      (refusePair value dims = .conversion .tooLong ∧
        ∃ n, (Datum.Occurs (.int n) value ∨ Datum.Occurs (.int n) dims) ∧
          Decimal.digitLimit ≤ n.natAbs) := by
  rw [← Datum.areWritable_pair_eq_false_iff]
  unfold refusePair
  cases Datum.areWritable [value, dims] with
  | true => exact .inl ⟨if_pos rfl, nofun⟩
  | false => exact .inr ⟨if_neg nofun, rfl⟩

/-- Value and exponents are numbers, or the first of them that is none decides the error. -/
theorem Quantity.ofData_cases (value : Datum) (exponents : List Datum) :
    (∃ x xs, value.toFloat = .ok x ∧ Datum.toFloats exponents = .ok xs ∧
        xs.length = exponents.length ∧ (value :: exponents).find? (!·.toFloat.isOk) = none ∧
        Quantity.ofData value exponents =
          (Dimension.ofExponents xs).map fun dims => ⟨x, dims⟩) ∨
      ∃ d e, (value :: exponents).find? (!·.toFloat.isOk) = some d ∧ d.toFloat = .error e ∧
        Quantity.ofData value exponents = .error e := by
  rw [List.find?_cons, Quantity.ofData, Dimension.ofData]
  cases hvalue : value.toFloat with
  | error e => exact .inr ⟨value, e, rfl, hvalue, rfl⟩
  | ok x =>
    rcases mapM_cases Datum.toFloat exponents with
      ⟨xs, hxs, hlen, hall⟩ | ⟨d, e, hfind, hd, he⟩
    · refine .inl ⟨x, xs, rfl, hxs, hlen, ?_, ?_⟩
      · refine List.find?_eq_none.2 fun d hd => ?_
        obtain ⟨y, hy⟩ := hall d hd
        simp [hy, Except.isOk, Except.toBool]
      · rw [Datum.toFloats, hxs]
        show (Dimension.ofExponents xs >>= _) = _
        cases Dimension.ofExponents xs <;> rfl
    · refine .inr ⟨d, e, hfind, hd, ?_⟩
      rw [Datum.toFloats, he]
      rfl

/-- What a pair is made into: a quantity of as many exponents as were given, if that is eight. -/
theorem Item.ofPair_outcome (value dims : Datum) (exponents : List Datum) :
    Meets
      (fun q => exponents.length = 8 ∧ value.toFloat = .ok q.value ∧
        Datum.toFloats exponents = .ok q.dims.exponents)
      (fun e => e.kind = .evaluation ∨ e = .conversion .tooLarge ∨ e = .conversion .tooLong)
      (ofPair value dims exponents) ∧
    (ofPair value dims exponents = .error (.conversion .tooLarge) ↔
      ∃ n, (value :: exponents).find? (!·.toFloat.isOk) = some (.int n)) ∧
    (ofPair value dims exponents = .error (.conversion .tooLong) ↔
      ∃ d n, (value :: exponents).find? (!·.toFloat.isOk) = some d ∧ (∀ m, d ≠ .int m) ∧
        (Datum.Occurs (.int n) value ∨ Datum.Occurs (.int n) dims) ∧
        Decimal.digitLimit ≤ n.natAbs) := by
  unfold ofPair
  rcases Quantity.ofData_cases value exponents with
    ⟨x, xs, hvalue, hxs, hlen, hnone, hdata⟩ | ⟨d, e, hfind, hd, hdata⟩
  · -- All are numbers, so only their count can be wrong.
    rw [hdata, hnone]
    by_cases h : xs.length = 8
    · have hdims : Dimension.ofExponents xs = .ok ⟨xs, h⟩ := dif_pos h
      rw [hdims]
      exact ⟨⟨hlen ▸ h, hvalue, hxs⟩, by simp [Except.map], by simp [Except.map]⟩
    · have hdims : Dimension.ofExponents xs = .error (.evaluation (.exponentCount xs.length)) :=
        dif_neg h
      rw [hdims]
      exact ⟨.inl rfl, by simp [Except.map], by simp [Except.map]⟩
  · rw [hdata, hfind]
    obtain ⟨fault, rfl, hlarge⟩ := Datum.toFloat_eq_error hd
    split
    · next heq =>
      cases heq
      obtain ⟨n, rfl⟩ := hlarge.1 rfl
      refine ⟨.inr (.inl rfl), iff_of_true rfl ⟨n, rfl⟩, iff_of_false (by simp) ?_⟩
      rintro ⟨d, _, hd, hint, _⟩
      exact hint n (Option.some.inj hd).symm
    · next hne heq =>
      cases heq
      -- The fault is no overflow, and so the pair is refused.
      have hint (m : Int) (hm : d = .int m) : False := hne (hlarge.2 ⟨m, hm⟩)
      have hnoInt : ¬∃ n, some d = some (.int n) := by
        rintro ⟨n, hn⟩
        exact hint n (Option.some.inj hn)
      rcases refusePair_cases value dims with ⟨hrefuse, hnone⟩ | ⟨hrefuse, n, hn⟩
      · rw [hrefuse]
        refine ⟨.inl rfl, iff_of_false (by simp) hnoInt, iff_of_false (by simp) ?_⟩
        rintro ⟨_, n, _, _, hn⟩
        exact hnone ⟨n, hn⟩
      · rw [hrefuse]
        exact ⟨.inr (.inr rfl), iff_of_false (by simp) hnoInt,
          iff_of_true rfl ⟨d, n, rfl, hint, hn⟩⟩
    · next hother => exact absurd rfl (hother fault)

/-- **What an item is made into**: a quantity stays as it is, and a pair of a value and eight
exponents that all stand for numbers becomes one.  All else is an error of the evaluation, but for
two sorts of pairs.  If the first value that stands for no number is an integer beyond the floats,
the error is that of the conversion; and if it is anything else, but an integer that has too many
digits to be written stands in the pair, the error is that of writing it into the message. -/
theorem toQuantity_outcome (item : Item) :
    Meets
      (fun q => item = .quantity q ∨ ∃ value exponents,
        item.numbers? = some (value :: exponents) ∧ exponents.length = 8 ∧
          value.toFloat = .ok q.value ∧ Datum.toFloats exponents = .ok q.dims.exponents)
      (fun e => e.kind = .evaluation ∨ e = .conversion .tooLarge ∨ e = .conversion .tooLong)
      item.toQuantity ∧
    (item.toQuantity = .error (.conversion .tooLarge) ↔ item.Overflows) ∧
    (item.toQuantity = .error (.conversion .tooLong) ↔ item.Unquotable) := by
  unfold Item.Overflows Item.Unquotable
  unfold Item.toQuantity
  split
  · exact ⟨.inl rfl, by simp [Item.numbers?], by simp⟩
  · next value dims =>
    cases hmembers : dims.members? with
    | none => exact ⟨.inl rfl, by simp [Item.numbers?, hmembers], by simp [Item.numbers?, hmembers]⟩
    | some exponents =>
      obtain ⟨hmeets, hlarge, hlong⟩ := Item.ofPair_outcome value dims exponents
      have hnumbers : (Item.tuple [value, dims]).numbers? = some (value :: exponents) := by
        rw [Item.numbers?, hmembers]
        rfl
      refine ⟨hmeets.mono fun q hq => .inr ⟨value, exponents, hnumbers, hq⟩, ?_, ?_⟩
      · rw [hnumbers]
        simpa using hlarge
      · rw [hnumbers, hlong]
        constructor
        · rintro ⟨d, n, h⟩
          exact ⟨value, dims, value :: exponents, d, n, rfl, rfl, h⟩
        · rintro ⟨_, _, _, d, n, hitem, hvalues, h⟩
          cases hitem
          cases hvalues
          exact ⟨d, n, h⟩
  · next hpair =>
    have hnumbers : item.numbers? = none := by
      unfold Item.numbers?
      split
      · exact (hpair _ _ rfl).elim
      · rfl
    exact ⟨.inl rfl, by simp [hnumbers], by simp [hnumbers]⟩

/-- The item is a pair of numbers, but not with eight exponents: with `n` of them. -/
def Item.Miscounts (item : Item) (n : Nat) : Prop :=
  ∃ value exponents, item.numbers? = some (value :: exponents) ∧
    (value :: exponents).find? (!·.toFloat.isOk) = none ∧ exponents.length = n ∧ n ≠ 8

theorem Item.ofPair_eq_exponentCount {value dims : Datum} {exponents : List Datum} {n : Nat}
    (h : ofPair value dims exponents = .error (.evaluation (.exponentCount n))) :
    (value :: exponents).find? (!·.toFloat.isOk) = none ∧ exponents.length = n ∧ n ≠ 8 := by
  unfold ofPair at h
  rcases Quantity.ofData_cases value exponents with
    ⟨x, xs, _, _, hlen, hnone, hdata⟩ | ⟨d, e, _, hd, hdata⟩
  · rw [hdata, Dimension.ofExponents] at h
    by_cases hcount : xs.length = 8
    · rw [dif_pos hcount] at h
      cases h
    · rw [dif_neg hcount] at h
      cases h
      exact ⟨hnone, hlen.symm, hcount⟩
  · obtain ⟨fault, rfl, _⟩ := Datum.toFloat_eq_error hd
    rw [hdata] at h
    split at h
    · cases h
    · rcases refusePair_cases value dims with ⟨hrefuse, _⟩ | ⟨hrefuse, _⟩ <;>
        · rw [hrefuse] at h
          cases h
    · next hother => exact absurd rfl (hother fault)

/-- Only pairs of numbers are refused for the number of their exponents. -/
theorem Item.miscounts_of_toQuantity {item : Item} {n : Nat}
    (h : item.toQuantity = .error (.evaluation (.exponentCount n))) : item.Miscounts n := by
  unfold Item.toQuantity at h
  split at h
  · cases h
  · next value dims =>
    cases hmembers : dims.members? with
    | none =>
      rw [hmembers] at h
      cases h
    | some exponents =>
      rw [hmembers] at h
      have hnumbers : (Item.tuple [value, dims]).numbers? = some (value :: exponents) := by
        rw [Item.numbers?, hmembers]
        rfl
      exact ⟨value, exponents, hnumbers, Item.ofPair_eq_exponentCount h⟩
  · cases h

/-- An integer beyond the floats is refused as the value of a pair. -/
theorem toQuantity_of_value_beyond_range {n : Int} (h : Decimal.floatOfInt? n = none) {dims : Datum}
    {exponents : List Datum} (hdims : dims.members? = some exponents) :
    (Item.tuple [.int n, dims]).toQuantity = .error (.conversion .tooLarge) := by
  have hvalue : (Datum.int n).toFloat = .error (.conversion .tooLarge) := by
    rw [Datum.toFloat, h]
  simp only [Item.toQuantity, hdims]
  apply (Item.ofPair_outcome _ _ _).2.1.2
  refine ⟨n, ?_⟩
  rw [List.find?_cons, hvalue]
  rfl

/-- A pair whose value is a text that spells no number is refused, and an integer of too many
digits among its exponents takes the words away. -/
theorem toQuantity_of_exponent_unwritable {text : String}
    (htext : Decimal.parseText? text.toList = none) {n : Int} (hn : Decimal.digitLimit ≤ n.natAbs) :
    (Item.tuple [.text text, .list [.int n]]).toQuantity = .error (.conversion .tooLong) := by
  have hvalue : (Datum.text text).toFloat = .error (.conversion (.unreadable text)) := by
    rw [Datum.toFloat, htext]
  apply (Item.ofPair_outcome (.text text) (.list [.int n]) [.int n]).2.2.2
  refine ⟨.text text, n, ?_, nofun, .inr (.member List.mem_cons_self .here), hn⟩
  rw [List.find?_cons, hvalue]
  rfl

/-- Two pairs that are refused with errors of another kind than those of the evaluation: ten to the
four hundredth metres, whose number is no float, and a text with an exponent of five thousand
digits, with which the message cannot be written. -/
theorem toQuantity_pair_beyond_range :
    let overflowing : Item :=
      .tuple [.int (Int.pow 10 400), .list ([0, 1, 0, 0, 0, 0, 0, 0].map .int)]
    let unquotable : Item := .tuple [.text "abc", .list [.int (Int.pow 10 5000)]]
    overflowing.toQuantity = .error (.conversion .tooLarge) ∧
      unquotable.toQuantity = .error (.conversion .tooLong) ∧
      ∀ item ∈ [overflowing, unquotable],
        ¬Meets (fun q => q.dims.exponents.length = 8) (fun e => e.kind.isA .evaluation = true)
          item.toQuantity := by
  intro overflowing unquotable
  have hoverflow : overflowing.toQuantity = .error (.conversion .tooLarge) :=
    toQuantity_of_value_beyond_range (by decide +kernel) rfl
  have hunquotable : unquotable.toQuantity = .error (.conversion .tooLong) :=
    toQuantity_of_exponent_unwritable (by decide +kernel) (by decide +kernel)
  refine ⟨hoverflow, hunquotable, ?_⟩
  simp only [List.forall_mem_cons]
  refine ⟨?_, ?_, nofun⟩
  · rw [hoverflow]
    show ¬(ErrorKind.overflow.isA .evaluation = true)
    decide
  · rw [hunquotable]
    show ¬(ErrorKind.badValue.isA .evaluation = true)
    decide

end Dimensional
