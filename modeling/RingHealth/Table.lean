namespace RingHealth

/-! Sorted tables of records.

A table holds its records in ascending order of their keys and holds at most one
record for a key.  The list returned by `toList` is the whole content of a table;
`insert` replaces the record of an equal key and `insertNew?` refuses it.
-/

/-- Records that are identified by a key. -/
class Keyed (α : Type) (κ : outParam Type) where
  key : α → κ

export Keyed (key)

instance : Keyed (κ × ν) κ := ⟨Prod.fst⟩

structure Table (α : Type) {κ : Type} [Keyed α κ] [Ord κ] where
  records : List α
  ascending : records.Pairwise fun earlier later => compare (key earlier) (key later) = .lt

namespace Table

variable {α κ : Type} [Keyed α κ] [Ord κ]

theorem ext {first second : Table α} (same : first.records = second.records) :
    first = second := by
  cases first
  cases second
  cases same
  rfl

instance [DecidableEq α] : DecidableEq (Table α) := fun first second =>
  if same : first.records = second.records then isTrue (ext same)
  else isFalse fun equal => same (equal ▸ rfl)

def toList (table : Table α) : List α := table.records

def empty : Table α := ⟨[], .nil⟩

instance : EmptyCollection (Table α) := ⟨empty⟩

instance : Inhabited (Table α) := ⟨empty⟩

def size (table : Table α) : Nat := table.records.length

def get? (table : Table α) (wanted : κ) : Option α :=
  table.records.find? fun record => compare (key record) wanted == .eq

def contains (table : Table α) (wanted : κ) : Bool := (table.get? wanted).isSome

@[simp] theorem toList_empty : (empty : Table α).toList = [] := rfl

@[simp] theorem get?_empty (wanted : κ) : (empty : Table α).get? wanted = none := rfl

def below (table : Table α) (bound : κ) : List α :=
  table.records.filter fun record => compare (key record) bound == .lt

def above (table : Table α) (bound : κ) : List α :=
  table.records.filter fun record => compare (key record) bound == .gt

/-- The records whose keys do not come before a key. -/
def atLeast (table : Table α) (bound : κ) : List α :=
  table.records.filter fun record => compare (key record) bound != .lt

def erase (table : Table α) (unwanted : κ) : Table α where
  records := table.records.filter fun record => compare (key record) unwanted != .eq
  ascending := table.ascending.filter _

/-- The record of the least key, with the table of the others. -/
def popFirst? (table : Table α) : Option (α × Table α) :=
  match table with
  | ⟨[], _⟩ => none
  | ⟨first :: others, ascending⟩ => some (first, ⟨others, ascending.tail⟩)

/-- The record of the greatest key, with the table of the others. -/
def popLast? (table : Table α) : Option (α × Table α) :=
  table.records.getLast?.map fun last =>
    (last, ⟨table.records.dropLast, table.ascending.sublist (List.dropLast_sublist _)⟩)

section Insertion

variable [Std.TransOrd κ]

/-- The table with a record at its place; a record of an equal key gives way. -/
def insert (table : Table α) (record : α) : Table α where
  records := table.below (key record) ++ record :: table.above (key record)
  ascending := by
    refine List.pairwise_append.mpr
      ⟨table.ascending.filter _, List.pairwise_cons.mpr ⟨?_, table.ascending.filter _⟩, ?_⟩
    · intro later isAbove
      have greater := (List.mem_filter.mp isAbove).2
      exact Std.OrientedCmp.gt_iff_lt.mp (eq_of_beq greater)
    · intro earlier isBelow other isOther
      have smaller := eq_of_beq (List.mem_filter.mp isBelow).2
      cases List.mem_cons.mp isOther with
      | inl isRecord => exact isRecord ▸ smaller
      | inr isAbove =>
          have greater := eq_of_beq (List.mem_filter.mp isAbove).2
          exact Std.TransCmp.lt_trans smaller (Std.OrientedCmp.gt_iff_lt.mp greater)

/-- The table with one more record, or nothing if its key is present already. -/
def insertNew? (table : Table α) (record : α) : Option (Table α) :=
  if table.contains (key record) then none else some (table.insert record)

/-- The table of all records of a list; of several records with one key the last stays. -/
def ofList (records : List α) : Table α := records.foldl insert empty

end Insertion

end Table

end RingHealth
