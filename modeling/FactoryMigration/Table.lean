set_option autoImplicit false

/-! # Tables

A table holds a value for each of its keys and lists them in the order of the keys, which are
compared by code points. -/

namespace FactoryMigration

/-- Entries in the order of their keys. -/
abbrev Table (α : Type) := List (String × α)

namespace Table

/-- Puts an entry in the place of its key, over any entry of the same key. -/
def insert {α : Type} (key : String) (value : α) : Table α → Table α
  | [] => [(key, value)]
  | (k, v) :: rest =>
    if key < k then (key, value) :: (k, v) :: rest
    else if key = k then (key, value) :: rest
    else (k, v) :: insert key value rest

/-- Puts an entry in the place of its key if there is a value. -/
def insert? {α : Type} (key : String) (value : Option α) (table : Table α) : Table α :=
  match value with
  | some value => table.insert key value
  | none => table

/-- The table of the given entries, of which the last one of each key counts. -/
def ofEntries {α : Type} (entries : List (String × α)) : Table α :=
  entries.foldl (fun table (key, value) => table.insert key value) []

theorem lookup_cons {α : Type} (key other : String) (value : α) (rest : Table α) :
    List.lookup other ((key, value) :: rest)
      = if other = key then some value else rest.lookup other := by
  rw [List.lookup_cons]
  by_cases h : other = key
  · rw [if_pos h, beq_iff_eq.mpr h]
  · rw [if_neg h, beq_eq_false_iff_ne.mpr h]

theorem lookup_insert {α : Type} (key other : String) (value : α) (table : Table α) :
    (table.insert key value).lookup other
      = if other = key then some value else table.lookup other := by
  induction table with
  | nil => rw [insert, lookup_cons]
  | cons entry rest ih =>
    obtain ⟨k, v⟩ := entry
    unfold insert
    by_cases h₁ : key < k
    · rw [if_pos h₁, lookup_cons]
    · rw [if_neg h₁]
      by_cases h₂ : key = k
      · subst h₂
        rw [if_pos rfl, lookup_cons, lookup_cons]
        by_cases h : other = key <;> simp [h]
      · rw [if_neg h₂, lookup_cons, lookup_cons, ih]
        by_cases h : other = k
        · subst h
          simp [Ne.symm h₂]
        · simp [h]

end Table

end FactoryMigration
