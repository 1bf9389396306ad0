/-!
# Tables

A table holds one value under each of several names, in the order in which the names were first
given.  A later value for a name replaces the earlier one in place.

Main statement: `find?_insert` says what is found after an insertion.
-/

namespace Dimensional

/-- Values under names, in the order of the names' first appearance. -/
structure Table (α : Type) where
  entries : List (String × α)

namespace Table

variable {α : Type}

def empty : Table α := ⟨[]⟩

instance : Inhabited (Table α) := ⟨empty⟩

def find? (t : Table α) (name : String) : Option α := t.entries.lookup name

def contains (t : Table α) (name : String) : Bool := (t.find? name).isSome

/-- Puts a value under a name: in the place of the earlier one, or at the end. -/
def insertEntry (name : String) (value : α) : List (String × α) → List (String × α)
  | [] => [(name, value)]
  | entry :: rest =>
    if entry.1 = name then (name, value) :: rest else entry :: insertEntry name value rest

def insert (t : Table α) (name : String) (value : α) : Table α :=
  ⟨insertEntry name value t.entries⟩

/-- The table of the first operand's entries and, over them, the second's. -/
def merge (t u : Table α) : Table α :=
  u.entries.foldl (fun t entry => t.insert entry.1 entry.2) t

/-- The table of several entries, of which later ones count. -/
def ofList (entries : List (String × α)) : Table α :=
  entries.foldl (fun t entry => t.insert entry.1 entry.2) empty

/-- Applies a function that may fail to each entry in turn; names stay as they are. -/
def mapEntries {β ε : Type} (f : String → α → Except ε β) :
    List (String × α) → Except ε (List (String × β))
  | [] => .ok []
  | (name, a) :: rest => do
    let b ← f name a
    return (name, b) :: (← mapEntries f rest)

def names (t : Table α) : List String := t.entries.map Prod.fst

/-- The entries in the order of their names' code points. -/
def sorted (t : Table α) : List (String × α) :=
  t.entries.mergeSort fun a b => decide (a.1 ≤ b.1)

theorem lookup_cons_eq_ite (key other : String) (value : α) (rest : List (String × α)) :
    ((key, value) :: rest).lookup other =
      if other = key then some value else rest.lookup other := by
  by_cases h : other = key <;> simp [List.lookup_cons, h, beq_eq_false_iff_ne.2]

theorem lookup_insertEntry (entries : List (String × α)) (name other : String) (value : α) :
    (insertEntry name value entries).lookup other =
      if other = name then some value else entries.lookup other := by
  induction entries with
  | nil => simp [insertEntry, lookup_cons_eq_ite]
  | cons entry rest ih =>
    obtain ⟨key, old⟩ := entry
    by_cases hk : key = name
    · subst hk
      by_cases h : other = key <;> simp [insertEntry, lookup_cons_eq_ite, h]
    · by_cases h : other = key
      · subst h
        simp [insertEntry, hk]
      · simp [insertEntry, lookup_cons_eq_ite, hk, h, ih]

/-- After an insertion the new value is found under its name and all else as before. -/
@[simp] theorem find?_insert (t : Table α) (name other : String) (value : α) :
    (t.insert name value).find? other = if other = name then some value else t.find? other :=
  lookup_insertEntry t.entries name other value

end Table

end Dimensional
