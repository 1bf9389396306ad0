import Dimensional.MeasureUnit.Atom
import Mathlib.Data.List.Basic

/-!
# Names of multiples

A name may start with two of the prefixes, but what is left of it behind them cannot both times be
the name of a unit: of all names, folded or not, none is that of another with what the longer prefix
has beyond the shorter one in front (`pairwise_keptApart`).

Main statement: `multiples_unambiguous` — no name is the multiple of two prefixes, so that the order
in which prefixes are tried does not matter.
-/

namespace Dimensional.MeasureUnit

/-! ### Prefixes in another order -/

/-- The multiple that a name stands for, where prefixes are tried in this order. -/
def multipleBy? (prefixes : List (String × Float)) (name : String) : Option MeasureUnit :=
  prefixes.findSome? fun (pre, factor) =>
    (base? pre name).map fun unit => ⟨unit.scale * factor, unit.dims, name⟩

def ofNameBy (prefixes : List (String × Float)) (name : String) : Except Error MeasureUnit :=
  match (listed? name).or (multipleBy? prefixes name) with
  | some unit => .ok unit
  | none => .error (.unknownUnit name "")

theorem ofNameBy_multiples (name : String) : ofNameBy multiples name = ofName name := rfl

/-- What at most one element of a list is mapped to is found in any order. -/
theorem findSome?_perm {α β : Type} {f : α → Option β} {as bs : List α} (h : as.Perm bs)
    (hf : as.Pairwise fun a b => ¬((f a).isSome ∧ (f b).isSome)) :
    as.findSome? f = bs.findSome? f := by
  induction h with
  | nil => rfl
  | cons a _ ih =>
    rw [List.findSome?_cons, List.findSome?_cons, ih (List.pairwise_cons.1 hf).2]
  -- Two neighbours change places: at most one of them finds anything.
  | swap a b as =>
    have hab := (List.pairwise_cons.1 hf).1 a List.mem_cons_self
    simp only [List.findSome?_cons]
    cases hb : f b with
    | none => rfl
    | some =>
      cases ha : f a with
      | none => rfl
      | some => exact absurd ⟨by rw [hb]; rfl, by rw [ha]; rfl⟩ hab
  | trans h _ ih ih' =>
    have hsymm : ∀ {a b : α}, ¬((f a).isSome ∧ (f b).isSome) → ¬((f b).isSome ∧ (f a).isSome) :=
      fun hab hba => hab hba.symm
    rw [ih hf, ih' (hf.perm h hsymm)]

/-! ### What names stand for -/

theorem mem_of_lookup {α : Type} {entries : List (String × α)} {name : String} {a : α}
    (h : entries.lookup name = some a) : (name, a) ∈ entries := by
  obtain ⟨front, rest, rfl, _⟩ := List.lookup_eq_some_iff.1 h
  exact List.mem_append_right _ List.mem_cons_self

/-- The unit that is listed under a name is one of the catalogue, under the same name but for
case. -/
theorem exists_of_listed? {name : String} {u : MeasureUnit} (h : listed? name = some u) :
    ∃ entry ∈ catalogue, fold entry.1 = fold name ∧ entry.2 = u := by
  obtain h | ⟨_, h⟩ := Option.or_eq_some_iff.1 h
  · exact ⟨_, mem_of_lookup h, rfl, rfl⟩
  · obtain ⟨entry, hentry, heq⟩ := List.mem_map.1 (mem_of_lookup h)
    exact ⟨entry, hentry, congrArg Prod.fst heq, congrArg Prod.snd heq⟩

/-- What is left of a name behind a prefix, if anything is left, is the name of the unit of which
the name is the multiple. -/
theorem base?_eq_some_iff {pre name : String} {u : MeasureUnit} :
    base? pre name = some u ↔ ∃ base, base ≠ "" ∧ name = pre ++ base ∧ listed? base = some u := by
  constructor
  · intro h
    unfold base? at h
    split at h
    · cases h
    · cases h
    · next rest hne hrest =>
      refine ⟨String.ofList rest, ?_, ?_, h⟩
      · intro heq
        obtain rfl : rest = [] := by simpa using heq
        exact hne rfl
      · rw [← String.toList_inj, String.toList_append, String.toList_ofList]
        exact (List.isPrefixOf?_eq_some_iff_append_eq.1 hrest).symm
  · rintro ⟨base, hne, rfl, hbase⟩
    have hcut : pre.toList.isPrefixOf? (pre ++ base).toList = some base.toList :=
      List.isPrefixOf?_eq_some_iff_append_eq.2 String.toList_append.symm
    unfold base?
    rw [hcut]
    split
    · next h => cases h
    · next h =>
      have hnil : base.toList = [] := Option.some.inj h
      exact absurd (by simpa using hnil) hne
    · next rest _ h =>
      cases h
      rw [String.ofList_toList]
      exact hbase

/-! ### No two prefixes

If two prefixes cut the same name, one of them begins with the other, and the rests of the name
differ by what the longer one has more.  The catalogue is finite and is searched for such a pair
once and for all; for the names themselves there is nothing to search. -/

/-- The name is that of a unit with this prefix in front of it. -/
def IsMultiple (pre name : String) : Prop :=
  ∃ base, base ≠ "" ∧ name = pre ++ base ∧ (listed? base).isSome

theorem isSome_base?_iff {pre name : String} : (base? pre name).isSome ↔ IsMultiple pre name := by
  rw [Option.isSome_iff_exists]
  constructor
  · rintro ⟨u, hu⟩
    obtain ⟨base, hne, hname, hbase⟩ := base?_eq_some_iff.1 hu
    exact ⟨base, hne, hname, Option.isSome_iff_exists.2 ⟨u, hbase⟩⟩
  · rintro ⟨base, hne, hname, hbase⟩
    obtain ⟨u, hu⟩ := Option.isSome_iff_exists.1 hbase
    exact ⟨u, base?_eq_some_iff.2 ⟨base, hne, hname, hu⟩⟩

/-- If the second prefix is longer than the first by `more`, no name of a unit is, but for case,
that of another with `more` in front of it. -/
def keptApart (first second : String) : Bool :=
  match first.toList.isPrefixOf? second.toList with
  | none => true
  | some more => catalogue.all fun whole => catalogue.all fun part =>
      decide (fold whole.1 ≠ fold (String.ofList more ++ part.1))

/-- The prefixes are kept apart: `d` by the names of units from `da`, and all others by their
first characters.  This is a fact about the two tables and is settled by running through them. -/
theorem pairwise_keptApart :
    multiples.Pairwise fun p q => keptApart p.1 q.1 = true ∧ keptApart q.1 p.1 = true := by
  decide +kernel

theorem fold_append (a b : String) : fold (a ++ b) = fold a ++ fold b := by
  simp [fold, String.ofList_append]

theorem not_listed_of_keptApart {first more base : String}
    (h : keptApart first (first ++ more) = true) (hbase : (listed? base).isSome) :
    ¬(listed? (more ++ base)).isSome := by
  intro hwhole
  obtain ⟨_, hpart⟩ := Option.isSome_iff_exists.1 hbase
  obtain ⟨_, hwhole⟩ := Option.isSome_iff_exists.1 hwhole
  obtain ⟨part, hmem, hpart, _⟩ := exists_of_listed? hpart
  obtain ⟨whole, hmem', hwhole, _⟩ := exists_of_listed? hwhole
  have hcut : first.toList.isPrefixOf? (first ++ more).toList = some more.toList :=
    List.isPrefixOf?_eq_some_iff_append_eq.2 String.toList_append.symm
  unfold keptApart at h
  rw [hcut] at h
  have happart := List.all_eq_true.1 (List.all_eq_true.1 h whole hmem') part hmem
  refine of_decide_eq_true happart ?_
  rw [hwhole, String.ofList_toList, fold_append, fold_append, hpart]

/-- Of two ways to cut a text the second is not before the first, or the first not before the
second. -/
theorem exists_of_append_eq_append {a b c d : String} (h : a ++ b = c ++ d) :
    (∃ more, c = a ++ more ∧ b = more ++ d) ∨ ∃ more, a = c ++ more ∧ d = more ++ b := by
  simp only [← String.toList_inj, String.toList_append] at h ⊢
  rcases List.append_eq_append_iff.1 h with ⟨more, hc, hb⟩ | ⟨more, ha, hd⟩
  · exact .inl ⟨String.ofList more, by simpa using hc, by simpa using hb⟩
  · exact .inr ⟨String.ofList more, by simpa using ha, by simpa using hd⟩

theorem not_isMultiple_of_keptApart {first second name : String}
    (h : keptApart first second = true ∧ keptApart second first = true) :
    ¬(IsMultiple first name ∧ IsMultiple second name) := by
  rintro ⟨⟨base, _, rfl, hbase⟩, ⟨base', _, hname, hbase'⟩⟩
  rcases exists_of_append_eq_append hname with ⟨more, rfl, rfl⟩ | ⟨more, rfl, rfl⟩
  · exact not_listed_of_keptApart h.1 hbase' hbase
  · exact not_listed_of_keptApart h.2 hbase hbase'

/-- **Names are multiples in one way only.**  No name is the multiple of two prefixes; so a name
stands for the same unit, or is as unknown, in whatever order the prefixes are tried. -/
theorem multiples_unambiguous (name : String) :
    (multiples.Pairwise fun p q => ¬(IsMultiple p.1 name ∧ IsMultiple q.1 name)) ∧
      ∀ prefixes : List (String × Float), prefixes.Perm multiples →
        ofNameBy prefixes name = ofName name := by
  have hpairs : multiples.Pairwise fun p q => ¬(IsMultiple p.1 name ∧ IsMultiple q.1 name) :=
    pairwise_keptApart.imp not_isMultiple_of_keptApart
  refine ⟨hpairs, fun prefixes hperm => ?_⟩
  -- The same multiple is found in any order, since at most one prefix finds one.
  have hfound : multipleBy? prefixes name = multipleBy? multiples name := by
    refine (findSome?_perm hperm.symm (hpairs.imp fun hpair => ?_)).symm
    simpa only [Option.isSome_map, isSome_base?_iff] using hpair
  rw [← ofNameBy_multiples, ofNameBy, hfound, ofNameBy]

/-- In the reverse order `d` is tried before `da`, but `am` is no unit. -/
theorem multiples_reversed :
    multiples.reverse.Perm multiples ∧
      ofNameBy multiples.reverse "dam" = .ok ⟨1.0 * 1e1, .length, "dam"⟩ := by
  have hperm := List.reverse_perm multiples
  refine ⟨hperm, ?_⟩
  rw [(multiples_unambiguous "dam").2 _ hperm]
  rfl

end Dimensional.MeasureUnit
