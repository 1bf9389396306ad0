import Dimensional.Proofs.Fallible
import Dimensional.Table

/-!
# What tables hold

A pass over the entries of a table keeps the names, and what is found under a name afterwards comes
from what was found there before (`mapEntries_cases`, `rel_lookup_of_mapEntries`).  In a table that
was merged over another the values of the upper one are found first (`find?_merge`); this takes that
it holds no name twice, which insertions see to (`nodup_names_ofList`).
-/

namespace Dimensional.Table

variable {α β ε : Type}

def map (f : α → β) (t : Table α) : Table β := ⟨t.entries.map fun entry => (entry.1, f entry.2)⟩

theorem mem_names_iff {t : Table α} {name : String} :
    name ∈ t.names ↔ ∃ a, t.find? name = some a := by
  obtain ⟨entries⟩ := t
  induction entries with
  | nil => exact iff_of_false List.not_mem_nil nofun
  | cons entry entries ih =>
    rw [find?, lookup_cons_eq_ite]
    split
    · next heq => exact iff_of_true (List.mem_cons.2 (.inl heq)) ⟨_, rfl⟩
    · next hne => exact (List.mem_cons.trans (or_iff_right hne)).trans ih

/-- Names that all get the same text in front are looked up as before. -/
theorem lookup_map_append (qualifier name : String) (entries : List (String × α)) :
    (entries.map fun entry => (qualifier ++ entry.1, entry.2)).lookup (qualifier ++ name) =
      entries.lookup name := by
  induction entries with
  | nil => rfl
  | cons entry entries ih =>
    rw [List.map_cons, lookup_cons_eq_ite, lookup_cons_eq_ite, ih]
    simp only [String.append_right_inj]

/-! ### Passes over the entries -/

section

variable {f : String → α → Except ε β} {entries : List (String × α)} {out : List (String × β)}

theorem mapEntries_eq_mapM (f : String → α → Except ε β) (entries : List (String × α)) :
    mapEntries f entries = entries.mapM fun entry => (f entry.1 entry.2).map (entry.1, ·) := by
  induction entries with
  | nil => rfl
  | cons entry entries ih =>
    obtain ⟨name, a⟩ := entry
    rw [mapEntries, List.mapM_cons, ih]
    cases f name a <;> rfl

theorem mapEntries_map {γ : Type} (f : String → β → Except ε γ) (g : α → β) (t : Table α) :
    mapEntries f (t.map g).entries = mapEntries (fun name a => f name (g a)) t.entries := by
  rw [mapEntries_eq_mapM, mapEntries_eq_mapM, map, List.mapM_map]
  rfl

/-- Every entry has a result, or else the first that has none decides the error. -/
theorem mapEntries_cases (f : String → α → Except ε β) (entries : List (String × α)) :
    (∃ out, mapEntries f entries = .ok out ∧
        ∀ entry ∈ entries, ∃ b, f entry.1 entry.2 = .ok b) ∨
      ∃ entry e, entries.find? (fun entry => !(f entry.1 entry.2).isOk) = some entry ∧
        f entry.1 entry.2 = .error e ∧ mapEntries f entries = .error e := by
  have hok : ∀ entry : String × α, ((f entry.1 entry.2).map (entry.1, ·)).isOk =
      (f entry.1 entry.2).isOk := by
    intro entry
    cases f entry.1 entry.2 <;> rfl
  rw [mapEntries_eq_mapM]
  rcases Fallible.mapM_cases (fun entry => (f entry.1 entry.2).map (entry.1, ·)) entries with
    ⟨out, hout, _, hall⟩ | ⟨entry, e, hfind, he, herror⟩
  · refine .inl ⟨out, hout, fun entry hentry => ?_⟩
    obtain ⟨result, hresult⟩ := hall entry hentry
    obtain ⟨b, hb, _⟩ := Fallible.map_eq_ok_iff.1 hresult
    exact ⟨b, hb⟩
  · simp only [hok] at hfind
    refine .inr ⟨entry, e, hfind, ?_, herror⟩
    cases hf : f entry.1 entry.2 with
    | ok b =>
      rw [hf] at he
      cases he
    | error e' =>
      rw [hf] at he
      cases he
      rfl

theorem mapEntries_cons_eq_ok_iff {name : String} {a : α} :
    mapEntries f ((name, a) :: entries) = .ok out ↔
      ∃ b rest, f name a = .ok b ∧ mapEntries f entries = .ok rest ∧ (name, b) :: rest = out := by
  rw [mapEntries, Fallible.bind_eq_ok_iff]
  constructor
  · rintro ⟨b, hb, h⟩
    obtain ⟨rest, hrest, h⟩ := Fallible.bind_eq_ok_iff.1 h
    cases h
    exact ⟨b, rest, hb, hrest, rfl⟩
  · rintro ⟨b, rest, hb, hrest, rfl⟩
    rw [hrest]
    exact ⟨b, hb, rfl⟩

theorem names_of_mapEntries (h : mapEntries f entries = .ok out) :
    out.map Prod.fst = entries.map Prod.fst := by
  induction entries generalizing out with
  | nil =>
    cases h
    rfl
  | cons entry entries ih =>
    obtain ⟨b, rest, _, hrest, rfl⟩ := mapEntries_cons_eq_ok_iff.1 h
    rw [List.map_cons, List.map_cons, ih hrest]

/-- What is found under a name after a pass is the result of what was found there before. -/
theorem rel_lookup_of_mapEntries (h : mapEntries f entries = .ok out) (name : String) :
    Option.Rel (fun a b => f name a = .ok b) (entries.lookup name) (out.lookup name) := by
  induction entries generalizing out with
  | nil =>
    cases h
    exact .none
  | cons entry entries ih =>
    obtain ⟨key, a⟩ := entry
    obtain ⟨b, rest, hb, hrest, rfl⟩ := mapEntries_cons_eq_ok_iff.1 h
    rw [lookup_cons_eq_ite, lookup_cons_eq_ite]
    split
    · next heq =>
      subst heq
      exact .some hb
    · exact ih hrest

/-- A pass in which nothing fails gives each entry its result. -/
theorem mapEntries_eq_ok {g : α → β} (h : ∀ name a, f name a = .ok (g a))
    (entries : List (String × α)) :
    mapEntries f entries = .ok (entries.map fun entry => (entry.1, g entry.2)) := by
  induction entries with
  | nil => rfl
  | cons entry entries ih =>
    exact mapEntries_cons_eq_ok_iff.2 ⟨_, _, h _ _, ih, rfl⟩

end

/-! ### Insertions and merges

A merge inserts one entry after the other, which puts later values over earlier ones.  That the
values of the upper table are found first is therefore an induction on its entries, and it needs
that no name comes twice: a second entry would put its value over that of the first. -/

theorem names_insert (t : Table α) (name : String) (value : α) :
    (t.insert name value).names =
      if name ∈ t.names then t.names else t.names ++ [name] := by
  obtain ⟨entries⟩ := t
  show (insertEntry name value entries).map Prod.fst = _
  rw [names]
  induction entries with
  | nil => rfl
  | cons entry entries ih =>
    rw [insertEntry]
    by_cases h : entry.1 = name
    · simp [h]
    · rw [if_neg h, List.map_cons, ih, List.map_cons]
      simp only [List.mem_cons, Ne.symm h, false_or]
      split <;> rfl

theorem nodup_names_insert {t : Table α} (h : t.names.Nodup) (name : String) (value : α) :
    (t.insert name value).names.Nodup := by
  rw [names_insert]
  split
  · exact h
  · next hname =>
    apply List.nodup_append.2
    refine ⟨h, by simp, ?_⟩
    rintro other hother _ hmem rfl
    exact hname (List.mem_singleton.1 hmem ▸ hother)

theorem nodup_names_foldl {t : Table α} (h : t.names.Nodup) (entries : List (String × α)) :
    (entries.foldl (fun t entry => t.insert entry.1 entry.2) t).names.Nodup := by
  induction entries generalizing t with
  | nil => exact h
  | cons entry entries ih => exact ih (nodup_names_insert h _ _)

theorem nodup_names_ofList (entries : List (String × α)) : (ofList entries).names.Nodup :=
  nodup_names_foldl (t := empty) List.nodup_nil entries

theorem nodup_names_merge {t : Table α} (h : t.names.Nodup) (u : Table α) :
    (t.merge u).names.Nodup :=
  nodup_names_foldl h u.entries

/-- In a table that was merged over another its own values are found first.  No name may come
twice in it, for its later value would then be put over the earlier one. -/
theorem find?_merge {u : Table α} (h : u.names.Nodup) (t : Table α) (name : String) :
    (t.merge u).find? name = (u.find? name).or (t.find? name) := by
  obtain ⟨entries⟩ := u
  induction entries generalizing t with
  | nil => rfl
  | cons entry entries ih =>
    obtain ⟨key, value⟩ := entry
    obtain ⟨hkey, hrest⟩ := List.nodup_cons.1 h
    have hmerge : (t.merge ⟨(key, value) :: entries⟩).find? name =
        (Table.find? ⟨entries⟩ name).or ((t.insert key value).find? name) :=
      ih (t.insert key value) hrest
    rw [hmerge, find?_insert]
    show (entries.lookup name).or _ = (((key, value) :: entries).lookup name).or _
    rw [lookup_cons_eq_ite]
    -- The head was inserted before the rest, which has no entry under its name.
    by_cases heq : name = key
    · -- No later entry is under the name of this one.
      have hnone : entries.lookup name = none := by
        cases hfound : entries.lookup name with
        | none => rfl
        | some a => exact absurd (heq ▸ mem_names_iff (t := ⟨entries⟩).2 ⟨a, hfound⟩) hkey
      rw [if_pos heq, if_pos heq, hnone]
      rfl
    · rw [if_neg heq, if_neg heq]

/-- A pass over a table with one entry more has that entry's result besides. -/
theorem mapEntries_insertEntry {f : String → α → Except ε β} {entries : List (String × α)}
    {out : List (String × β)} (h : mapEntries f entries = .ok out) (name : String) (a : α) :
    mapEntries f (insertEntry name a entries) =
      (f name a).map fun b => insertEntry name b out := by
  induction entries generalizing out with
  | nil =>
    cases h
    rw [insertEntry, mapEntries]
    cases f name a <;> rfl
  | cons entry entries ih =>
    obtain ⟨key, old⟩ := entry
    obtain ⟨b, rest, hb, hrest, rfl⟩ := mapEntries_cons_eq_ok_iff.1 h
    simp only [insertEntry]
    split
    · rw [mapEntries, hrest]
      cases f name a <;> rfl
    · rw [mapEntries, hb, ih hrest]
      cases f name a <;> rfl

/-- Functions may be applied to the values before or after an insertion. -/
theorem map_insert (f : α → β) (t : Table α) (name : String) (value : α) :
    (t.insert name value).map f = (t.map f).insert name (f value) := by
  obtain ⟨entries⟩ := t
  simp only [insert, map, mk.injEq]
  induction entries with
  | nil => rfl
  | cons entry entries ih =>
    simp only [insertEntry, List.map_cons]
    split
    · rfl
    · rw [List.map_cons, ih]

/-- Functions may be applied to the values before or after a merge. -/
theorem map_merge (f : α → β) (t u : Table α) :
    (t.merge u).map f = (t.map f).merge (u.map f) := by
  obtain ⟨entries⟩ := u
  induction entries generalizing t with
  | nil => rfl
  | cons entry entries ih =>
    have hmerge := ih (t.insert entry.1 entry.2)
    rw [map_insert] at hmerge
    exact hmerge

end Dimensional.Table
