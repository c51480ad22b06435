namespace RingHealth

namespace Text

/-- The code points with the property `White_Space`, as first and last of each run. -/
def blankRuns : List (Nat × Nat) :=
  [(0x09, 0x0d), (0x20, 0x20), (0x85, 0x85), (0xa0, 0xa0), (0x1680, 0x1680),
    (0x2000, 0x200a), (0x2028, 0x2029), (0x202f, 0x202f), (0x205f, 0x205f), (0x3000, 0x3000)]

def isBlank (c : Char) : Bool :=
  blankRuns.any fun (first, last) => first ≤ c.toNat && c.toNat ≤ last

def trimStart (text : List Char) : List Char := text.dropWhile isBlank

/-- A text without the blank characters at its start and at its end. -/
def trim (text : List Char) : List Char :=
  (trimStart (trimStart text).reverse).reverse

def allBlank (text : List Char) : Bool := text.all isBlank

end Text

/-- Types of a few values, each of which has a name of its own. -/
class Named (α : Type) where
  nameOf : α → String
  every : List α
  mem_every (value : α) : value ∈ every
  distinct (first second : α) : nameOf first = nameOf second → first = second

namespace Named

variable {α : Type} [Named α] {name : String} {value : α}

/-- The value of an exact name. -/
def ofName? (name : String) : Option α := every.find? fun value => nameOf value == name

theorem nameOf_of_ofName? (found : ofName? name = some value) : nameOf value = name := by
  have hit := List.find?_some found
  exact eq_of_beq hit

theorem ofName?_eq_some_iff : ofName? name = some value ↔ nameOf value = name := by
  refine ⟨nameOf_of_ofName?, ?_⟩
  rintro rfl
  cases found : (ofName? (nameOf value) : Option α) with
  | none => simpa using List.find?_eq_none.mp found value (mem_every value)
  | some other => rw [distinct other value (nameOf_of_ofName? found)]

end Named

end RingHealth
