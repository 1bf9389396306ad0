import Dimensional.Proofs.Formula.Sentence
import Dimensional.Proofs.Formula.Supplied
import Dimensional.Proofs.Table

/-!
# Contexts that hold the same items

Items under names reach a formula in several ways: as a table of bindings, which makes them
quantities beforehand, behind a function, which makes each a quantity as it answers, or as the
answers themselves, which the evaluation makes quantities.  Tables of bindings may be put together
step by step (`Assembly`); the quantities that they already hold are then made quantities again,
which changes nothing (`Assembly.converted_eq_bindings`).

Main statement: `evaluate_of_items` — it makes no difference in which way the items get there.
-/

namespace Dimensional

open Fallible

/-! ### Quantities that are made quantities again

A table of bindings can be turned back into items, each of which stands for itself.  Making it
once more is then the same table, and so binding one name can be read as making a table with one
item replaced. -/

namespace Bindings

abbrev items (b : Bindings) : Table Item := b.map .quantity

theorem ofItems_eq_ok_iff {items : Table Item} {b : Bindings} :
    ofItems items = .ok b ↔
      Table.mapEntries (fun _ item => item.toQuantity) items.entries = .ok b.entries := by
  rw [ofItems, bind_eq_ok_iff]
  constructor
  · rintro ⟨entries, h, hb⟩
    cases hb
    exact h
  · intro h
    exact ⟨b.entries, h, rfl⟩

theorem ofItems_items (b : Bindings) : ofItems b.items = .ok b := by
  rw [ofItems_eq_ok_iff, Table.mapEntries_map,
    Table.mapEntries_eq_ok fun _ q => Item.toQuantity_quantity q]
  simp

/-- Binding a name makes its item a quantity and leaves the others as they are.  They are
quantities already, so a pass over the whole table can fail at the new entry only. -/
theorem ofItems_insert (b : Bindings) (name : String) (item : Item) :
    ofItems (b.items.insert name item) = b.bind name item := by
  have hentries := ofItems_eq_ok_iff.1 (ofItems_items b)
  have hinsert := Table.mapEntries_insertEntry hentries name item
  rw [ofItems, bind, Table.insert, hinsert]
  cases item.toQuantity <;> rfl

/-- Merging two tables as items and converting the whole gives what merging the tables gives.
Nothing is refused, since quantities are all that is in them. -/
theorem ofItems_merge (b other : Bindings) :
    ofItems (b.items.merge other.items) = .ok (b.merge other) := by
  rw [items, items, ← Table.map_merge]
  exact ofItems_items _

/-- What is found in a table of bindings is what the item under the name stands for. -/
theorem rel_find?_ofItems {items : Table Item} {b : Bindings} (h : ofItems items = .ok b)
    (name : String) :
    Option.Rel (fun item q => item.toQuantity = .ok q) (items.find? name) (b.find? name) :=
  Table.rel_lookup_of_mapEntries (ofItems_eq_ok_iff.1 h) name

end Bindings

/-! ### Tables that are put together step by step

The ways to put a table together are a type, so that what is said of them is said by induction,
one case for each kind of step.  A step that is refused ends the assembly; what is said below is
about those that get to the end. -/

/-- A way to put a table of bindings together: from items under names, of which later ones count, by
binding one name more, or by merging another table over it. -/
inductive Assembly where
  | items (entries : List (String × Item))
  | bind (a : Assembly) (name : String) (item : Item)
  | merge (a other : Assembly)

namespace Assembly

def bindings : Assembly → Except Error Bindings
  | items entries => Bindings.ofItems (.ofList entries)
  | bind a name item => do (← a.bindings).bind name item
  | merge a other => return (← a.bindings).merge (← other.bindings)

/-- The bindings that are put together by making everything a quantity again at every step. -/
def converted : Assembly → Except Error Bindings
  | items entries => Bindings.ofItems (.ofList entries)
  | bind a name item => do Bindings.ofItems ((← a.converted).items.insert name item)
  | merge a other => do
    Bindings.ofItems ((← a.converted).items.merge (← other.converted).items)

/-- The item that a name was bound to last, by the steps in the order in which they were taken.
-/
def last? : Assembly → String → Option Item
  | items entries, name => (Table.ofList entries).find? name
  | bind a name item, other => if other = name then some item else a.last? other
  | merge a other, name => (other.last? name).or (a.last? name)

/-- Making the quantities of a table quantities again at every step changes nothing, refusals
included. -/
theorem converted_eq_bindings (a : Assembly) : a.converted = a.bindings := by
  induction a with
  | items entries => rfl
  | bind a name item ih =>
    simp only [converted, bindings, ih, Bindings.ofItems_insert]
  | merge a other ih ih' =>
    simp only [converted, bindings, ih, ih', Bindings.ofItems_merge]
    rfl

theorem nodup_names_bindings {a : Assembly} {b : Bindings} (h : a.bindings = .ok b) :
    b.names.Nodup := by
  induction a generalizing b with
  | items entries =>
    have hnames := Table.names_of_mapEntries (Bindings.ofItems_eq_ok_iff.1 h)
    show (b.entries.map Prod.fst).Nodup
    rw [hnames]
    exact Table.nodup_names_ofList entries
  | bind a name item ih =>
    obtain ⟨b', hb', h⟩ := bind_eq_ok_iff.1 h
    obtain ⟨q, hq, h⟩ := bind_eq_ok_iff.1 h
    cases h
    exact Table.nodup_names_insert (ih hb') name q
  | merge a other ih _ =>
    obtain ⟨b', hb', h⟩ := bind_eq_ok_iff.1 h
    obtain ⟨u, hu, h⟩ := bind_eq_ok_iff.1 h
    cases h
    exact Table.nodup_names_merge (ih hb') u

/-- What is found under a name is what the item stands for that the name was bound to last. -/
theorem rel_find?_bindings {a : Assembly} {b : Bindings} (h : a.bindings = .ok b)
    (name : String) :
    Option.Rel (fun item q => item.toQuantity = .ok q) (a.last? name) (b.find? name) := by
  induction a generalizing b with
  | items entries => exact Bindings.rel_find?_ofItems h name
  | bind a bound item ih =>
    obtain ⟨b', hb', h⟩ := bind_eq_ok_iff.1 h
    obtain ⟨q, hq, h⟩ := bind_eq_ok_iff.1 h
    cases h
    rw [last?, Table.find?_insert]
    split
    · exact .some hq
    · exact ih hb'
  | merge a other ih ih' =>
    obtain ⟨b', hb', h⟩ := bind_eq_ok_iff.1 h
    obtain ⟨u, hu, h⟩ := bind_eq_ok_iff.1 h
    cases h
    rw [last?, Table.find?_merge (nodup_names_bindings hu)]
    -- The table merged over the other one is asked first.
    have hother := ih' hu
    revert hother
    generalize other.last? name = item
    generalize u.find? name = q
    intro hother
    cases hother with
    | none => exact ih hb'
    | some hq => exact .some hq

end Assembly

/-! ### Contexts that hold items -/

namespace Context

/-- For each of these names the context supplies the quantity for which its item stands. -/
def Holds (context : Context) (items : Table Item) (names : List String) : Prop :=
  ∃ supply, context.supply? = some supply ∧ ∀ name ∈ names,
    ∃ item q, items.find? name = some item ∧ item.toQuantity = .ok q ∧ supply name = .ok q

variable {items : Table Item} {names : List String}

theorem Holds.agree {context context' : Context} (h : context.Holds items names)
    (h' : context'.Holds items names) : Agree names context context' := by
  obtain ⟨supply, hsupply, hall⟩ := h
  obtain ⟨supply', hsupply', hall'⟩ := h'
  rw [Agree, hsupply, hsupply']
  refine .some fun name hname => ?_
  obtain ⟨item, q, hitem, hq, hname₁⟩ := hall name hname
  obtain ⟨item', q', hitem', hq', hname₂⟩ := hall' name hname
  have heq : item = item' := Option.some.inj (hitem.symm.trans hitem')
  rw [hname₁, hname₂, ← hq, ← hq', heq]

/-- A table holds the items of these names if all of them have one and it is found there as the
quantity that it stands for. -/
theorem holds_table {b : Bindings} (hnames : ∀ name ∈ names, name ∈ items.names)
    (h : ∀ name ∈ names,
      Option.Rel (fun item q => item.toQuantity = .ok q) (items.find? name) (b.find? name)) :
    (table b).Holds items names := by
  refine ⟨_, rfl, fun name hname => ?_⟩
  obtain ⟨item, hitem⟩ := Table.mem_names_iff.1 (hnames name hname)
  have hrel := h name hname
  rw [hitem] at hrel
  cases hfound : b.find? name with
  | none =>
    rw [hfound] at hrel
    cases hrel
  | some q =>
    rw [hfound] at hrel
    obtain ⟨hq⟩ := hrel
    refine ⟨item, q, hitem, hq, ?_⟩
    show ((b.lookup name).map Item.quantity >>= Item.toQuantity) = .ok q
    rw [Bindings.lookup, hfound]
    rfl

/-- Where one context holds the items, so do functions that answer with them, whoever makes the
answers quantities. -/
theorem Holds.answers {context : Context} (h : context.Holds items names)
    {answer : String → Except Error Item}
    (hanswer : ∀ name item, items.find? name = some item → answer name = .ok item) :
    (adapted answer).Holds items names ∧ (bare answer).Holds items names := by
  obtain ⟨_, _, hall⟩ := h
  refine ⟨⟨_, rfl, fun name hname => ?_⟩, ⟨_, rfl, fun name hname => ?_⟩⟩
  -- The one converts as it answers, and the evaluation once more; the other leaves it to the
  -- evaluation.
  all_goals
    obtain ⟨item, q, hitem, hq, _⟩ := hall name hname
    refine ⟨item, q, hitem, hq, ?_⟩
    simp only [hanswer name item hitem, hq, bind, Except.bind, pure, Except.pure,
      Item.toQuantity_quantity]

end Context

theorem Bindings.exists_ofItems {items : Table Item}
    (h : ∀ entry ∈ items.entries, ∃ q, entry.2.toQuantity = .ok q) :
    ∃ b, ofItems items = .ok b := by
  rcases Table.mapEntries_cases (fun _ item => item.toQuantity) items.entries with
    ⟨out, hout, _⟩ | ⟨entry, e, hfind, he, _⟩
  · exact ⟨⟨out⟩, ofItems_eq_ok_iff.2 hout⟩
  · obtain ⟨q, hq⟩ := h entry (List.mem_of_find?_eq_some hfind)
    rw [hq] at he
    cases he

namespace Formula

/-! ### Evaluation -/

/-- Contexts that agree on the names of a formula cannot be told apart by evaluating it.  They
need not answer with the same items, nor agree on any other name. -/
theorem evaluate_congr {text : String} {f : Formula} (h : compile text = .ok f)
    {context context' : Context} (hagree : Context.Agree f.names context context')
    (settings : Except Error Settings) :
    evaluate settings f context = evaluate settings f context' := by
  unfold evaluate
  obtain ⟨hnone, hnone'⟩ | ⟨lookup, lookup', hlookup, hlookup', hsupply⟩ := hagree.lookups
  · rw [hnone, hnone']
  · rw [hlookup, hlookup']
    cases settings with
    | error e => rfl
    | ok settings =>
      have hrun : run settings.tolerance lookup [] f.program =
          run settings.tolerance lookup' [] f.program :=
        run_congr_of_lookups fun name hname => hsupply name (mem_names_of_lookups h hname)
      simp only [hrun]

/-- **The way in which items get to a formula makes no difference**: where every item stands for a
quantity and every name of the formula has one, a table of the items can be made, and evaluating the
formula there looks up the same names and comes to the same result as with a function that answers
with the items, whether these are made quantities as it answers or not, and as with any table that
was put together step by step, if each name was bound last to its item.  It does not matter whether
a step makes the quantities that it finds in the table quantities again. -/
theorem evaluate_of_items {text : String} {f : Formula} (h : compile text = .ok f)
    {items : Table Item} (hitems : ∀ entry ∈ items.entries, ∃ q, entry.2.toQuantity = .ok q)
    (hnames : ∀ name ∈ f.names, name ∈ items.names) :
    ∃ b, Bindings.ofItems items = .ok b ∧ ∀ settings : Except Error Settings,
      (∀ answer : String → Except Error Item,
        (∀ name item, items.find? name = some item → answer name = .ok item) →
          evaluate settings f (.adapted answer) = evaluate settings f (.table b) ∧
          evaluate settings f (.bare answer) = evaluate settings f (.table b)) ∧
      ∀ (a : Assembly) (b' : Bindings), a.bindings = .ok b' ∨ a.converted = .ok b' →
        (∀ name ∈ f.names, a.last? name = items.find? name) →
          evaluate settings f (.table b') = evaluate settings f (.table b) := by
  obtain ⟨b, hb⟩ := Bindings.exists_ofItems hitems
  have htable : (Context.table b).Holds items f.names :=
    Context.holds_table hnames fun name _ => Bindings.rel_find?_ofItems hb name
  refine ⟨b, hb, fun settings => ⟨fun answer hanswer => ?_, fun a b' hb' hlast => ?_⟩⟩
  · obtain ⟨hadapted, hbare⟩ := htable.answers hanswer
    exact ⟨evaluate_congr h (hadapted.agree htable) settings,
      evaluate_congr h (hbare.agree htable) settings⟩
  · have htable' : (Context.table b').Holds items f.names := by
      refine Context.holds_table hnames fun name hname => ?_
      rw [← hlast name hname]
      rw [Assembly.converted_eq_bindings, or_self] at hb'
      exact Assembly.rel_find?_bindings hb' name
    exact evaluate_congr h (htable'.agree htable) settings

/-- `y-x` with a pair for `x` and a quantity for `y`.  In the table that is put together step by
step, with everything made a quantity again each time, `x` is bound to another number at first,
which the table merged over it replaces. -/
theorem evaluate_of_items_difference :
    let x := (Quantity.scalar 2.5).pair
    let y := Item.quantity (.scalar 2)
    let items : Table Item := ⟨[("x", x), ("y", y)]⟩
    let answer : String → Except Error Item := fun name => .ok (if name = "x" then x else y)
    let a : Assembly := .merge (.bind (.items [("x", .quantity (.scalar 1))]) "y" y)
      (.items [("z", y), ("x", x)])
    ∃ f b b', compile "y-x" = .ok f ∧ Bindings.ofItems items = .ok b ∧ a.converted = .ok b' ∧
      b'.names = ["x", "y", "z"] ∧
      ∀ settings, evaluate settings f (.adapted answer) = evaluate settings f (.table b) ∧
        evaluate settings f (.bare answer) = evaluate settings f (.table b) ∧
        evaluate settings f (.table b') = evaluate settings f (.table b) := by
  intro x y items answer a
  have hscan : Token.scan "y-x" =
      .ok [.name "y" "", .operator (.binary .sub), .name "x" ""] := by cbv
  have hcompile := compile_of_scan hscan rfl
  have hx : x.toQuantity = .ok (.scalar 2.5) := Quantity.toQuantity_pair _
  obtain ⟨b', hb', hnames⟩ : ∃ b', a.converted = .ok b' ∧ b'.names = ["x", "y", "z"] := by
    rw [Assembly.converted_eq_bindings]
    have hover : Bindings.ofItems (.ofList [("z", y), ("x", x)]) =
        .ok ⟨[("z", .scalar 2), ("x", .scalar 2.5)]⟩ := by
      refine Bindings.ofItems_eq_ok_iff.2 (Table.mapEntries_cons_eq_ok_iff.2 ⟨_, _, rfl, ?_, rfl⟩)
      exact Table.mapEntries_cons_eq_ok_iff.2 ⟨_, _, hx, rfl, rfl⟩
    refine ⟨_, bind_eq_ok_iff.2 ⟨_, rfl, bind_eq_ok_iff.2 ⟨_, hover, rfl⟩⟩, ?_⟩
    rfl
  obtain ⟨b, hb, hforms⟩ := @evaluate_of_items _ _ hcompile items
    (by
      intro entry hentry
      obtain rfl | rfl : entry = ("x", x) ∨ entry = ("y", y) := by simpa [items] using hentry
      · exact ⟨_, hx⟩
      · exact ⟨_, rfl⟩)
    (by decide)
  refine ⟨_, b, b', hcompile, hb, hb', hnames, fun settings => ?_⟩
  obtain ⟨hanswers, hassemblies⟩ := hforms settings
  obtain ⟨hadapted, hbare⟩ := hanswers answer <| by
    intro name item hitem
    rw [Table.find?, Table.lookup_cons_eq_ite, Table.lookup_cons_eq_ite] at hitem
    show Except.ok _ = _
    split at hitem
    · next heq =>
      cases hitem
      rw [if_pos heq]
    · next hne =>
      split at hitem
      · cases hitem
        rw [if_neg hne]
      · cases hitem
  refine ⟨hadapted, hbare, hassemblies a b' (.inr hb') ?_⟩
  intro name (hname : name ∈ ["y", "x"])
  obtain rfl | rfl : name = "y" ∨ name = "x" := by simpa using hname
  · rfl
  · rfl

end Formula

end Dimensional
