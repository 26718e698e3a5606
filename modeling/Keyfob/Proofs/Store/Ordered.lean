import Keyfob.Store.Basic

/-!
# Tables in order

The order of texts is strict and compares any two different texts, so a table whose names stand in
that order (`Table.Ordered`) is made again by putting its entries into an empty one, and every
change of a table keeps the order. Contents are in order (`Namespaces.Ordered`) when the table of
namespaces and each namespace are, which every change of contents keeps.
-/
namespace Keyfob

namespace Text

/-- A text comes before another where the first characters say so, or else where the rests do. -/
theorem compare_cons (c d : Char) (cs ds : Text) :
    compare (c :: cs) (d :: ds) = .lt ↔
      c.toNat < d.toNat ∨ c = d ∧ compare cs ds = .lt := by
  rw [compare]
  by_cases below : c.toNat < d.toNat
  · rw [if_pos below]
    exact iff_of_true rfl (.inl below)
  · rw [if_neg below]
    by_cases above : d.toNat < c.toNat
    · rw [if_pos above]
      refine iff_of_false nofun ?_
      rintro (less | ⟨rfl, _⟩)
      · exact below less
      · exact below above
    · rw [if_neg above]
      have same : c = d := Char.toNat_inj.mp (by omega)
      exact ⟨fun rest => .inr ⟨same, rest⟩, fun either => (either.resolve_left below).2⟩

/-- No text comes before itself. -/
theorem compare_self (t : Text) : compare t t ≠ .lt := by
  induction t with
  | nil => nofun
  | cons c cs ih =>
    rw [ne_eq, compare_cons]
    rintro (less | ⟨_, rest⟩)
    · exact Nat.lt_irrefl _ less
    · exact ih rest

/-- Of two different texts that do not come in one order, the other comes first. -/
theorem compare_of_not {s t : Text} (apart : s ≠ t) (late : compare s t ≠ .lt) :
    compare t s = .lt := by
  induction s generalizing t with
  | nil =>
    cases t with
    | nil => exact absurd rfl apart
    | cons d ds => exact absurd rfl late
  | cons c cs ih =>
    cases t with
    | nil => rfl
    | cons d ds =>
      rw [ne_eq, compare_cons, not_or] at late
      rw [compare_cons]
      by_cases same : c = d
      · subst same
        have rest : cs ≠ ds := fun same => apart (same ▸ rfl)
        exact .inr ⟨rfl, ih rest fun less => late.2 ⟨rfl, less⟩⟩
      · have numbers : c.toNat ≠ d.toNat := fun equal => same (Char.toNat_inj.mp equal)
        exact .inl (by omega)

/-- A text that comes before another comes before those that the other comes before. -/
theorem compare_trans {s t u : Text} (first : compare s t = .lt) (second : compare t u = .lt) :
    compare s u = .lt := by
  induction s generalizing t u with
  | nil =>
    cases u with
    | nil => cases t <;> cases second
    | cons e es => rfl
  | cons c cs ih =>
    cases t with
    | nil => cases first
    | cons d ds =>
      cases u with
      | nil => cases second
      | cons e es =>
        rw [compare_cons] at first second ⊢
        obtain less | ⟨rfl, rest⟩ := first
        · obtain more | ⟨rfl, _⟩ := second
          · exact .inl (by omega)
          · exact .inl less
        · obtain more | ⟨rfl, later⟩ := second
          · exact .inl more
          · exact .inr ⟨rfl, ih rest later⟩

/-- Two texts in the other order compare the other way. -/
theorem compare_swap (s t : Text) : compare t s = (compare s t).swap := by
  induction s generalizing t with
  | nil => cases t <;> rfl
  | cons c cs ih =>
    cases t with
    | nil => rfl
    | cons d ds =>
      rw [compare, compare]
      by_cases below : c.toNat < d.toNat
      · rw [if_pos below, if_neg (Nat.lt_asymm below), if_pos below]
        rfl
      · by_cases above : d.toNat < c.toNat
        · rw [if_pos above, if_neg below, if_pos above]
          rfl
        · rw [if_neg below, if_neg above, if_neg above, if_neg below]
          exact ih ds

/-- Only a text and itself compare as the same. -/
theorem compare_eq_iff {s t : Text} : compare s t = .eq ↔ s = t := by
  constructor
  · intro same
    refine Decidable.not_not.mp fun apart => ?_
    have notFirst : compare s t ≠ .lt := same ▸ nofun
    have other := compare_of_not apart notFirst
    rw [compare_swap, same] at other
    cases other
  · rintro rfl
    have swapped := compare_swap s s
    cases outcome : compare s s with
    | eq => rfl
    | lt => exact absurd outcome (compare_self s)
    | gt =>
      rw [outcome] at swapped
      cases swapped

end Text

namespace Table

variable {α : Type}

/-- One entry comes before another. -/
def Before (first second : Text × α) : Prop := Text.compare first.1 second.1 = .lt

/-- The names stand in their order, none twice. -/
def Ordered (table : Table α) : Prop := table.entries.Pairwise Before

/-- The empty table is in order. -/
theorem ordered_empty : (empty : Table α).Ordered := List.Pairwise.nil

/-- What stands in the entries after a value was placed is the value or stood there before. -/
theorem mem_place {name : Text} {value : α} {entries : List (Text × α)} {entry : Text × α}
    (listed : entry ∈ place name value entries) :
    entry = (name, value) ∨ entry ∈ entries := by
  induction entries with
  | nil => exact .inl (List.mem_singleton.mp listed)
  | cons head rest ih =>
    obtain ⟨key, held⟩ := head
    rw [place] at listed
    split at listed
    · exact (List.mem_cons.mp listed).imp_right (List.mem_cons_of_mem _)
    split at listed
    · exact List.mem_cons.mp listed
    · obtain rfl | later := List.mem_cons.mp listed
      · exact .inr List.mem_cons_self
      · exact (ih later).imp_right (List.mem_cons_of_mem _)

/-- A placed value keeps the order. -/
theorem pairwise_place (name : Text) (value : α) {entries : List (Text × α)}
    (ordered : entries.Pairwise Before) : (place name value entries).Pairwise Before := by
  induction entries with
  | nil => exact List.pairwise_singleton _ _
  | cons head rest ih =>
    obtain ⟨key, held⟩ := head
    obtain ⟨least, later⟩ := List.pairwise_cons.mp ordered
    rw [place]
    split
    · next same =>
      subst same
      exact List.pairwise_cons.mpr ⟨least, later⟩
    · next apart =>
      split
      · next before =>
        refine List.pairwise_cons.mpr ⟨fun entry listed => ?_, ordered⟩
        obtain rfl | among := List.mem_cons.mp listed
        · exact before
        · exact Text.compare_trans before (least entry among)
      · next late =>
        refine List.pairwise_cons.mpr ⟨fun entry listed => ?_, ih later⟩
        obtain rfl | among := mem_place listed
        · exact Text.compare_of_not (fun same => apart same.symm) late
        · exact least entry among

/-- A value under a name keeps the order of a table. -/
theorem ordered_insert {table : Table α} (ordered : table.Ordered) (name : Text) (value : α) :
    (table.insert name value).Ordered := pairwise_place name value ordered

/-- A removed name keeps the order of a table. -/
theorem ordered_erase {table : Table α} (ordered : table.Ordered) (name : Text) :
    (table.erase name).Ordered := List.Pairwise.filter _ ordered

/-- A value is placed at the end where all names come before its own. -/
theorem place_of_last {name : Text} (value : α) {entries : List (Text × α)}
    (last : ∀ entry ∈ entries, Text.compare entry.1 name = .lt) :
    place name value entries = entries ++ [(name, value)] := by
  induction entries with
  | nil => rfl
  | cons head rest ih =>
    obtain ⟨key, held⟩ := head
    have before : Text.compare key name = .lt := last (key, held) List.mem_cons_self
    have apart : key ≠ name := fun same => Text.compare_self name (same ▸ before)
    have late : Text.compare name key ≠ .lt := fun after =>
      Text.compare_self name (Text.compare_trans after before)
    rw [place, if_neg apart, if_neg late, ih fun entry listed =>
      last entry (List.mem_cons_of_mem _ listed)]
    rfl

/-- Entries in order that are put into a table whose names come before theirs are added to it. -/
theorem foldl_insert {table : Table α} {entries : List (Text × α)}
    (ordered : (table.entries ++ entries).Pairwise Before) :
    entries.foldl (fun table entry => table.insert entry.1 entry.2) table =
      ⟨table.entries ++ entries⟩ := by
  induction entries generalizing table with
  | nil => rw [List.append_nil]; rfl
  | cons entry entries ih =>
    have last : ∀ earlier ∈ table.entries, Text.compare earlier.1 entry.1 = .lt :=
      fun earlier listed =>
        (List.pairwise_append.mp ordered).2.2 earlier listed entry List.mem_cons_self
    have placed : table.insert entry.1 entry.2 = ⟨table.entries ++ [entry]⟩ := by
      rw [insert, place_of_last entry.2 last]
    have split : table.entries ++ entry :: entries = table.entries ++ [entry] ++ entries :=
      List.append_cons _ _ _
    rw [split] at ordered ⊢
    rw [List.foldl_cons, placed]
    exact ih ordered

/-- A table in order is made again by putting its entries into an empty one. -/
theorem foldl_insert_empty {table : Table α} (ordered : table.Ordered) :
    table.entries.foldl (fun table entry => table.insert entry.1 entry.2) ∅ = table := by
  have whole : ((∅ : Table α).entries ++ table.entries).Pairwise Before := ordered
  exact foldl_insert whole

/-- The entry that is found is among the entries. -/
theorem mem_of_find? {name : Text} {value : α} {entries : List (Text × α)}
    (found : find? name entries = some value) : (name, value) ∈ entries := by
  induction entries with
  | nil => cases found
  | cons head rest ih =>
    obtain ⟨key, held⟩ := head
    rw [find?] at found
    split at found
    · next same =>
      cases found
      cases same
      exact List.mem_cons_self
    · exact List.mem_cons_of_mem _ (ih found)

/-- Where no value is found, no entry has the name. -/
theorem ne_of_find? {name : Text} {entries : List (Text × α)} (missing : find? name entries = none)
    {entry : Text × α} (listed : entry ∈ entries) : entry.1 ≠ name := by
  induction entries with
  | nil => cases listed
  | cons head rest ih =>
    obtain ⟨key, held⟩ := head
    rw [find?] at missing
    split at missing
    · cases missing
    · next apart =>
      obtain rfl | later := List.mem_cons.mp listed
      · exact apart
      · exact ih missing later

/-- A name that is not there is removed by leaving the table as it is. -/
theorem erase_of_get? {table : Table α} {name : Text} (missing : table.get? name = none) :
    table.erase name = table := by
  have kept : table.entries.filter (fun entry => entry.1 ≠ name) = table.entries :=
    List.filter_eq_self.mpr fun entry listed => decide_eq_true (ne_of_find? missing listed)
  rw [erase, kept]

/-- In entries in order, the value of a name takes its own place. -/
theorem place_of_find? {name : Text} {value : α} {entries : List (Text × α)}
    (ordered : entries.Pairwise Before) (found : find? name entries = some value) :
    place name value entries = entries := by
  induction entries with
  | nil => cases found
  | cons head rest ih =>
    obtain ⟨key, held⟩ := head
    obtain ⟨least, later⟩ := List.pairwise_cons.mp ordered
    rw [find?] at found
    rw [place]
    split at found
    · next same =>
      cases found
      rw [if_pos same, same]
    · next apart =>
      have after : Text.compare key name = .lt := least (name, value) (mem_of_find? found)
      have late : Text.compare name key ≠ .lt := fun before =>
        Text.compare_self name (Text.compare_trans before after)
      rw [if_neg apart, if_neg late, ih later found]

/-- In a table in order, the value of a name can be put there again. -/
theorem insert_of_get? {table : Table α} {name : Text} {value : α} (ordered : table.Ordered)
    (found : table.get? name = some value) : table.insert name value = table := by
  rw [insert, place_of_find? ordered found]

end Table

namespace Namespaces

/-- The namespaces stand in order, and the keys of each. -/
structure Ordered (contents : Namespaces) : Prop where
  /-- The namespaces stand in order. -/
  outer : Table.Ordered contents
  /-- The keys of a namespace stand in order. -/
  inner : ∀ entry ∈ contents.entries, entry.2.Ordered

/-- No contents are in order. -/
theorem ordered_empty : Ordered ∅ := ⟨Table.ordered_empty, nofun⟩

/-- The entries of a namespace are in order. -/
theorem Ordered.get? {contents : Namespaces} (ordered : contents.Ordered) {space : Text}
    {entries : Table StoreValue} (found : contents.get? space = some entries) :
    entries.Ordered := ordered.inner _ (Table.mem_of_find? found)

/-- A namespace in order that takes the place of another keeps the order. -/
theorem Ordered.insert {contents : Namespaces} (ordered : contents.Ordered) (space : Text)
    {entries : Table StoreValue} (inside : entries.Ordered) :
    Ordered (contents.insert space entries) := by
  refine ⟨Table.ordered_insert ordered.outer space entries, fun entry listed => ?_⟩
  obtain rfl | among := Table.mem_place listed
  · exact inside
  · exact ordered.inner entry among

/-- A value that is put under a key keeps the order. -/
theorem Ordered.put {contents : Namespaces} (ordered : contents.Ordered) (space key : Text)
    (value : StoreValue) : (contents.put space key value).Ordered := by
  refine ordered.insert space (Table.ordered_insert ?_ key value)
  cases found : contents.get? space with
  | none => exact Table.ordered_empty
  | some entries => exact ordered.get? found

/-- A key that is removed keeps the order. -/
theorem Ordered.remove {contents : Namespaces} (ordered : contents.Ordered) (space key : Text) :
    (contents.remove space key).Ordered := by
  unfold Namespaces.remove
  split
  · exact ordered
  · next entries found => exact ordered.insert space (Table.ordered_erase (ordered.get? found) key)

/-- A namespace that is removed keeps the order. -/
theorem Ordered.clear {contents : Namespaces} (ordered : contents.Ordered) (space : Text) :
    (contents.clear space).Ordered :=
  ⟨Table.ordered_erase ordered.outer space,
    fun entry listed => ordered.inner entry (List.mem_filter.mp listed).1⟩

end Namespaces

end Keyfob
