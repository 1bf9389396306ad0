import Dimensional.Formula.Evaluate
import Dimensional.Proofs.MeasureUnit.Spelled
import Dimensional.Proofs.Table

/-!
# Values that are measured in units

Numbers with units become quantities in two places: where plain values are bound under names
(`Bindings.ofValues`), and where a formula writes a number with a unit down.  Both come to the same
(`measured_eq_literal`), so binding a value is as good as writing it into the formula.

Main statement: `ofValues_eq_literals` — which bindings are refused, and which quantities the others
hold.
-/

namespace Dimensional

open Fallible MeasureUnit

/-- No unit is the unit of pure numbers, which is what the empty text stands for. -/
theorem MeasureUnit.parseGiven_eq_parse (given : Option String) :
    parseGiven given = parse (given.getD "") := by
  cases given <;> rfl

namespace Bindings

theorem measured_eq_literal (x : Float) (given : Option String) :
    measured (.real x) given = Formula.literal x (given.getD "") := by
  rw [measured, Formula.literal, parseGiven_eq_parse]
  rfl

theorem isOk_measured (x : Float) (given : Option String) :
    (measured (.real x) given).isOk = (parseGiven given).isOk := by
  rw [measured]
  cases parseGiven given <;> rfl

/-- A number that is measured in an unreadable unit fails as the unit does. -/
theorem measured_eq_error_iff {x : Float} {given : Option String} {e : Error} :
    measured (.real x) given = .error e ↔ parseGiven given = .error e := by
  rw [measured]
  cases parseGiven given with
  | error e' =>
    constructor
    · intro h
      cases h
      rfl
    · intro h
      cases h
      rfl
  | ok unit =>
    apply iff_of_false
    · intro h
      cases h
    · intro h
      cases h

end Bindings

/-- A program of one number leaves that number's quantity, wherever names are looked up. -/
theorem Formula.evaluate_number {context : Context} (h : context.lookup?.isSome)
    (settings : Settings) (source : String) (x : Float) (unitText : String)
    (names : List String) :
    evaluate (.ok settings) ⟨source, [.number x unitText], names⟩ context =
      .ofExcept (literal x unitText) := by
  obtain ⟨lookup, hlookup⟩ := Option.isSome_iff_exists.1 h
  simp only [evaluate, hlookup, run, step]
  cases literal x unitText <;> rfl

/-- Values are bound to the quantities that they and their units write down, or else the first unit
that cannot be read decides the error. -/
theorem Bindings.ofValues_cases (qualifier : String) (units : Table (Option String))
    (values : Table Float) :
    let given name := (units.find? name).join
    (∃ b, ofValues qualifier units (values.map .real) = .ok b ∧
        (∀ name ∈ values.names, ∃ unit, parseGiven (given name) = .ok unit) ∧
        b.names = values.names.map (qualifier ++ ·) ∧
        ∀ name, Option.Rel (fun x q => Formula.literal x ((given name).getD "") = .ok q)
          (values.find? name) (b.find? (qualifier ++ name))) ∨
      ∃ name e, values.names.find? (fun name => !(parseGiven (given name)).isOk) = some name ∧
        parseGiven (given name) = .error e ∧
        ofValues qualifier units (values.map .real) = .error e := by
  intro given
  -- The values are numbers, so the pass can fail only at a unit.
  have hvalues : ofValues qualifier units (values.map .real) =
      (Table.mapEntries (fun name x => measured (.real x) (given name)) values.entries).map
        fun entries => ⟨entries.map fun entry => (qualifier ++ entry.1, entry.2)⟩ := by
    rw [ofValues, Table.mapEntries_map]
    cases Table.mapEntries (fun name x => measured (.real x) (given name)) values.entries <;> rfl
  rw [hvalues]
  -- One pass over the values decides both what is bound and what fails.
  rcases Table.mapEntries_cases (fun name x => measured (.real x) (given name)) values.entries with
    ⟨out, hout, hall⟩ | ⟨entry, e, hfind, he, herror⟩
  · rw [hout]
    refine .inl ⟨_, rfl, fun name hname => ?_, ?_, fun name => ?_⟩
    · obtain ⟨entry, hentry, rfl⟩ := List.mem_map.1 hname
      obtain ⟨q, hq⟩ := hall entry hentry
      obtain ⟨unit, hunit, _⟩ := bind_eq_ok_iff.1 hq
      exact ⟨unit, hunit⟩
    · rw [Table.names, Table.names, ← Table.names_of_mapEntries hout]
      simp
    · have hrel := Table.rel_lookup_of_mapEntries hout name
      simp only [measured_eq_literal] at hrel
      simp only [Table.find?, Table.lookup_map_append]
      exact hrel
  · rw [herror]
    refine .inr ⟨entry.1, e, ?_, measured_eq_error_iff.1 he, rfl⟩
    simp only [isOk_measured] at hfind
    rw [Table.names, List.find?_map, Function.comp_def, hfind]
    rfl

/-- **Binding values agrees with writing them down**: the values are bound unless the unit of one of
the names cannot be read, and then the first of these decides the error.  Every name is bound with
the text in front of it, to the quantity to which a formula comes that is just the number with the
unit; a name without a unit is bound to a pure number. -/
theorem ofValues_eq_literals (qualifier : String) (units : Table (Option String))
    (values : Table Float) :
    let given name := (units.find? name).join
    let bound := Bindings.ofValues qualifier units (values.map .real)
    ((∃ b, bound = .ok b) ↔ ∀ name ∈ values.names, ∃ unit, parseGiven (given name) = .ok unit) ∧
    (∀ e, bound = .error e ↔ ∃ name,
      values.names.find? (fun name => !(parseGiven (given name)).isOk) = some name ∧
        parseGiven (given name) = .error e) ∧
    ∀ b, bound = .ok b → b.names = values.names.map (qualifier ++ ·) ∧
      ∀ name x, values.find? name = some x → ∃ q, b.lookup (qualifier ++ name) = .ok q ∧
        (given name = none → q.dims = .one) ∧
        ∀ (settings : Settings) (source : String) (names : List String) (context : Context),
          context.lookup?.isSome →
            Formula.evaluate (.ok settings)
              ⟨source, [.number x ((given name).getD "")], names⟩ context = ⟨[], .ok q⟩ := by
  intro given bound
  -- Each of the three parts holds in one of the two cases and is void in the other.
  rcases Bindings.ofValues_cases qualifier units values with
    ⟨b, hbound, hall, hnames, hrel⟩ | ⟨name, e, hfind, he, hbound⟩
  · have hok : bound = .ok b := hbound
    rw [hok]
    refine ⟨iff_of_true ⟨b, rfl⟩ hall, fun e => iff_of_false (by simp) ?_, ?_⟩
    · rintro ⟨name, hfind, herror⟩
      obtain ⟨unit, hunit⟩ := hall name (List.mem_of_find?_eq_some hfind)
      rw [hunit] at herror
      cases herror
    · intro b' hb'
      cases hb'
      refine ⟨hnames, fun name x hx => ?_⟩
      have hentry := hrel name
      rw [hx] at hentry
      cases hfound : b.find? (qualifier ++ name) with
      | none =>
        rw [hfound] at hentry
        cases hentry
      | some q =>
        rw [hfound] at hentry
        obtain ⟨hq⟩ := hentry
        have hliteral : Formula.literal x ((given name).getD "") = .ok q := hq
        refine ⟨q, by rw [Bindings.lookup, hfound], fun hnone => ?_, ?_⟩
        · rw [hnone] at hliteral
          cases hliteral
          rfl
        · intro settings source names context hcontext
          rw [Formula.evaluate_number hcontext, hliteral]
          rfl
  · have herror : bound = .error e := hbound
    rw [herror]
    refine ⟨iff_of_false (by simp) fun hall => ?_, fun e' => ⟨?_, ?_⟩, by simp⟩
    · obtain ⟨unit, hunit⟩ := hall name (List.mem_of_find?_eq_some hfind)
      rw [hunit] at he
      cases he
    · intro h
      cases h
      exact ⟨name, hfind, he⟩
    · rintro ⟨name', hfind', he'⟩
      rw [hfind] at hfind'
      cases hfind'
      rw [he] at he'
      cases he'
      rfl

/-- 2.5 kilometres and the number 3, bound with `x.` in front of their names. -/
theorem ofValues_length_and_number :
    let values : Table Float := ⟨[("d", 2.5), ("n", 3)]⟩
    let units : Table (Option String) := ⟨[("d", some "km")]⟩
    ∃ b d n, Bindings.ofValues "x." units (values.map .real) = .ok b ∧
      b.names = ["x.d", "x.n"] ∧ b.lookup "x.d" = .ok d ∧ b.lookup "x.n" = .ok n ∧
      n.dims = .one ∧
      Formula.evaluate (.ok {}) ⟨"2.5[km]", [.number 2.5 "km"], []⟩ (.table .empty) =
        ⟨[], .ok d⟩ := by
  intro values units
  obtain ⟨km, hkm⟩ : ∃ unit, parse "km" = .ok unit := by
    have hnormal : Spelling.normalize "km".toList = ['k', 'm'] := by cbv
    open Token in
    rw [parse_of_toPostfix hnormal (List.cons_ne_nil _ _)
      (scanFrom_cons rfl (scanFrom_nil _ _ _)) rfl]
    exact ⟨_, rfl⟩
  obtain ⟨hok, -, hbound⟩ := ofValues_eq_literals "x." units values
  obtain ⟨b, hb⟩ := hok.2 <| by
    intro name (hname : name ∈ ["d", "n"])
    obtain rfl | rfl : name = "d" ∨ name = "n" := by simpa using hname
    · exact ⟨km, hkm⟩
    · exact ⟨.one, rfl⟩
  obtain ⟨hnames, hlookup⟩ := hbound b hb
  obtain ⟨d, hd, -, hdvalue⟩ := hlookup "d" 2.5 rfl
  obtain ⟨n, hn, hndims, -⟩ := hlookup "n" 3 rfl
  exact ⟨b, d, n, hb, hnames, hd, hn, hndims rfl, hdvalue {} _ _ _ rfl⟩

end Dimensional
