import Mathlib.Data.List.Basic

/-!
# First occurrences

`List.eraseDups` keeps the first occurrence of each member of a list.  It commutes with `filter`
(`eraseDups_filter`), and repetitions may be erased in parts of a list beforehand
(`eraseDups_append_eraseDups`, `eraseDups_flatten_map`).  What it comes to is said without it by
`FirstSeen`: the same members, in the order of their first occurrences (`firstSeen_iff`).
-/

namespace Dimensional

variable {α : Type} [DecidableEq α]

theorem eraseDups_filter (p : α → Bool) (xs : List α) :
    (xs.filter p).eraseDups = xs.eraseDups.filter p := by
  match xs with
  | [] => rfl
  | x :: xs =>
    have ih := eraseDups_filter p (xs.filter fun y => !y == x)
    rw [List.eraseDups_cons]
    cases hx : p x with
    | true =>
      rw [List.filter_cons_of_pos hx, List.filter_cons_of_pos hx, List.eraseDups_cons, ← ih,
        List.filter_comm]
    | false =>
      -- What passes `p` is not `x`, so taking `x` out as well changes nothing.
      have hne : ∀ y ∈ xs, (p y && !y == x) = p y := by
        intro y _
        cases hy : p y with
        | true => simp [show y ≠ x from fun h => by simp [← h, hy] at hx]
        | false => rfl
      rw [List.filter_cons_of_neg (by simp [hx]), List.filter_cons_of_neg (by simp [hx]), ← ih,
        List.filter_filter, List.filter_congr hne]
termination_by xs.length
decreasing_by exact Nat.lt_succ_of_le (List.length_filter_le _ _)

theorem eraseDups_eraseDups (xs : List α) : xs.eraseDups.eraseDups = xs.eraseDups := by
  match xs with
  | [] => rfl
  | x :: xs =>
    have ih := eraseDups_eraseDups (xs.filter fun y => !y == x)
    rw [List.eraseDups_cons, List.eraseDups_cons, ← eraseDups_filter, List.filter_filter]
    simp only [Bool.and_self, ih]
termination_by xs.length
decreasing_by exact Nat.lt_succ_of_le (List.length_filter_le _ _)

/-- Repetitions may be erased in both parts beforehand. -/
theorem eraseDups_append_eraseDups (xs ys : List α) :
    (xs.eraseDups ++ ys.eraseDups).eraseDups = (xs ++ ys).eraseDups := by
  have hremove : ys.eraseDups.removeAll xs.eraseDups = ys.eraseDups.filter (!xs.contains ·) := by
    unfold List.removeAll
    refine List.filter_congr fun y _ => ?_
    simp
  rw [List.eraseDups_append, List.eraseDups_append, eraseDups_eraseDups, hremove,
    eraseDups_filter, eraseDups_eraseDups, ← eraseDups_filter]
  rfl

theorem eraseDups_flatten_map (lists : List (List α)) :
    (lists.map List.eraseDups).flatten.eraseDups = lists.flatten.eraseDups := by
  induction lists with
  | nil => rfl
  | cons xs lists ih =>
    rw [List.map_cons, List.flatten_cons, List.flatten_cons, ← eraseDups_append_eraseDups, ih,
      eraseDups_eraseDups, eraseDups_append_eraseDups]

/-- What is found first is found first among the first occurrences. -/
theorem find?_eraseDups (p : α → Bool) (xs : List α) : xs.eraseDups.find? p = xs.find? p := by
  rw [← List.head?_filter, ← List.head?_filter, ← eraseDups_filter]
  cases xs.filter p with
  | nil => rfl
  | cons x xs => rw [List.eraseDups_cons, List.head?_cons, List.head?_cons]

/-- These are the members of a list, each one once and in the order of their first occurrences.
That each stands there once is not asked for by itself: no index is less than itself, so it
follows from the order (`FirstSeen.nodup`). -/
structure FirstSeen (occurrences names : List α) : Prop where
  mem_iff : ∀ name, name ∈ names ↔ name ∈ occurrences
  ordered : names.Pairwise fun a b => occurrences.idxOf a < occurrences.idxOf b

/-- What stands first among those that pass a condition stands first among all. -/
theorem idxOf_lt_of_filter {p : α → Bool} {xs : List α} {a b : α}
    (hb : p b = true) (h : (xs.filter p).idxOf a < (xs.filter p).idxOf b) :
    xs.idxOf a < xs.idxOf b := by
  induction xs with
  | nil => cases h
  | cons x xs ih =>
    -- The head is `a`, or `b`, or neither; only in the last case the tail decides.
    by_cases hxa : x = a
    · have hxb : x ≠ b := by
        rintro rfl
        exact absurd h (hxa ▸ Nat.lt_irrefl _)
      rw [hxa, List.idxOf_cons_self, List.idxOf_cons_ne xs (hxa ▸ hxb)]
      exact Nat.succ_pos _
    · by_cases hxb : x = b
      · rw [hxb, List.filter_cons_of_pos hb, List.idxOf_cons_self] at h
        cases h
      · rw [List.idxOf_cons_ne xs hxa, List.idxOf_cons_ne xs hxb]
        refine Nat.succ_lt_succ (ih ?_)
        cases hx : p x with
        | true =>
          rw [List.filter_cons_of_pos hx, List.idxOf_cons_ne _ hxa, List.idxOf_cons_ne _ hxb] at h
          exact Nat.lt_of_succ_lt_succ h
        | false => rwa [List.filter_cons_of_neg (by simp [hx])] at h

theorem firstSeen_eraseDups (xs : List α) : FirstSeen xs xs.eraseDups := by
  refine ⟨fun x => List.mem_eraseDups, ?_⟩
  match xs with
  | [] => exact .nil
  | x :: xs =>
    have ih := firstSeen_eraseDups (xs.filter fun y => !y == x)
    have hne : ∀ y ∈ (xs.filter fun y => !y == x).eraseDups, y ≠ x := by
      intro y hy
      simpa using (List.mem_filter.1 (List.mem_eraseDups.1 hy)).2
    rw [List.eraseDups_cons, List.pairwise_cons]
    -- The head comes before all others; these are in order by induction, and erasing the head
    -- from the list moves none of them past another.
    refine ⟨?_, ?_⟩
    · intro y hy
      rw [List.idxOf_cons_self, List.idxOf_cons_ne xs (hne y hy).symm]
      exact Nat.succ_pos _
    · refine ih.ordered.imp_of_mem fun {a b} ha hb hab => ?_
      rw [List.idxOf_cons_ne xs (hne a ha).symm, List.idxOf_cons_ne xs (hne b hb).symm]
      exact Nat.succ_lt_succ (idxOf_lt_of_filter (by simp [hne b hb]) hab)
termination_by xs.length
decreasing_by exact Nat.lt_succ_of_le (List.length_filter_le _ _)

theorem FirstSeen.nodup {xs names : List α} (h : FirstSeen xs names) : names.Nodup :=
  h.ordered.imp fun hlt heq => absurd (heq ▸ hlt) (Nat.lt_irrefl _)

/-- There is one such list, and it is the list without its repetitions.  Two lists with the same
members, none of them twice, are permutations of each other, and a strict order allows only one
of them. -/
theorem firstSeen_iff (xs names : List α) : FirstSeen xs names ↔ names = xs.eraseDups := by
  constructor
  · intro h
    have hall := firstSeen_eraseDups xs
    have hperm : names.Perm xs.eraseDups :=
      (List.perm_ext_iff_of_nodup h.nodup hall.nodup).2 fun a => by rw [h.mem_iff, hall.mem_iff]
    refine hperm.eq_of_pairwise ?_ h.ordered hall.ordered
    intro a b _ _ hab hba
    exact absurd hab (Nat.lt_asymm hba)
  · rintro rfl
    exact firstSeen_eraseDups xs

end Dimensional
