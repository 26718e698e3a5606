import Keyfob.Text.Basic

/-!
# Tables

A table holds values under names, in the order of the names. Looking a name up after `insert`
and `erase` is described by the four equations below; nothing else about the entries is needed.
-/
namespace Keyfob

/-- Values under names, in the order of the names. -/
structure Table (α : Type) where
  /-- The names with their values, the first entry of a name being the one that counts. -/
  entries : List (Text × α)
deriving DecidableEq

namespace Table

variable {α : Type}

/-- The table that holds nothing. -/
def empty : Table α := ⟨[]⟩

instance : EmptyCollection (Table α) := ⟨empty⟩

instance : Inhabited (Table α) := ⟨empty⟩

/-- The value of the first entry of a name. -/
def find? (name : Text) : List (Text × α) → Option α
  | [] => none
  | (key, value) :: rest => if key = name then some value else find? name rest

/-- Put a value in the place of a name's first entry, or before the first later name. -/
def place (name : Text) (value : α) : List (Text × α) → List (Text × α)
  | [] => [(name, value)]
  | (key, held) :: rest =>
    if key = name then (name, value) :: rest
    else if Text.compare name key = .lt then (name, value) :: (key, held) :: rest
    else (key, held) :: place name value rest

/-- The value under a name. -/
def get? (table : Table α) (name : Text) : Option α := find? name table.entries

/-- The table with a value under a name. -/
def insert (table : Table α) (name : Text) (value : α) : Table α :=
  ⟨place name value table.entries⟩

/-- The table with nothing under a name. -/
def erase (table : Table α) (name : Text) : Table α :=
  ⟨table.entries.filter fun entry => entry.1 ≠ name⟩

/-- Whether there is a value under a name. -/
def holds (table : Table α) (name : Text) : Bool := (table.get? name).isSome

/-- A placed value is found, and every other name is found as before. -/
theorem find?_place (name other : Text) (value : α) (entries : List (Text × α)) :
    find? other (place name value entries) =
      if name = other then some value else find? other entries := by
  induction entries with
  | nil => rfl
  | cons entry rest ih =>
    obtain ⟨key, held⟩ := entry
    by_cases same : key = name
    · subst same
      by_cases wanted : key = other <;> simp [place, find?, wanted]
    · by_cases before : Text.compare name key = .lt
      · simp [place, same, before, find?]
      · by_cases wanted : key = other
        · subst wanted
          have apart : name ≠ key := fun h => same h.symm
          simp [place, same, before, find?, apart]
        · simp [place, same, before, find?, wanted, ih]

/-- Looking up after an insertion. -/
theorem get?_insert (table : Table α) (name other : Text) (value : α) :
    (table.insert name value).get? other =
      if name = other then some value else table.get? other :=
  find?_place name other value table.entries

/-- Looking up after a removal. -/
theorem get?_erase (table : Table α) (name other : Text) :
    (table.erase name).get? other = if name = other then none else table.get? other := by
  obtain ⟨entries⟩ := table
  induction entries with
  | nil => by_cases h : name = other <;> simp [erase, get?, find?, h]
  | cons entry rest ih =>
    obtain ⟨key, held⟩ := entry
    simp only [erase, get?] at ih ⊢
    by_cases same : key = name
    · subst same
      simp only [ne_eq, not_true_eq_false, decide_false, Bool.false_eq_true, not_false_eq_true,
        List.filter_cons_of_neg, ih, find?]
      by_cases wanted : key = other <;> simp [wanted]
    · simp only [ne_eq, same, not_false_eq_true, decide_true, List.filter_cons_of_pos, find?, ih]
      by_cases wanted : key = other
      · subst wanted
        have apart : name ≠ key := fun h => same h.symm
        simp [apart]
      · simp [wanted]

/-- The empty table holds nothing. -/
@[simp] theorem get?_empty (name : Text) : (empty : Table α).get? name = none := rfl

end Table

end Keyfob
