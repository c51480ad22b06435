namespace RingHealth

/-! JSON values.

Objects keep their entries in the order of the text, repeated names included, because
what a repeated name means is for the reader of the object to say.  Integers are kept
apart from other numbers: `1` is an integer, `1.0`, `1e0` and `-0` are not.
-/

/-- The number `significand · 10 ^ exponent`, or its negation. -/
structure Decimal where
  negative : Bool
  significand : Nat
  exponent : Int
deriving DecidableEq, Repr

namespace Decimal

def intText : Int → List Char
  | .ofNat magnitude => Nat.toDigits 10 magnitude
  | .negSucc below => '-' :: Nat.toDigits 10 (below + 1)

/-- A decimal is written as its significand, the letter `e` and its exponent. -/
def text (number : Decimal) : List Char :=
  (if number.negative then ['-'] else []) ++ Nat.toDigits 10 number.significand ++
    'e' :: intText number.exponent

/-- The nearest number of at most 53 significant bits; a tie goes to the even one. -/
def roundToDouble (number : Nat) : Nat :=
  let unit := Nat.pow 2 (number.log2 + 1 - 53)
  let kept := number / unit
  let rest := number % unit
  if unit < 2 * rest || (2 * rest == unit && kept % 2 == 1) then (kept + 1) * unit
  else kept * unit

/-- The least number that rounds beyond the range of a binary64 number. -/
def doubleBound : Nat := Nat.pow 2 1024 - Nat.pow 2 970

/-- How many trailing digits a numeral has beyond its leading digits that make an
unsigned 64-bit number. -/
def excessDigits (number : Nat) : Nat :=
  let digits := (Nat.toDigits 10 number).length
  if number / Nat.pow 10 (digits - 20) < UInt64.size then digits - 20 else digits - 19

/-- Whether the magnitude `significand · 10 ^ exponent` lies in the range of a binary64
number.  The leading digits of the significand, as an unsigned 64-bit number, and the
power of ten are rounded before they are multiplied; the excess digits only count as
powers of ten. -/
def inDoubleRange (significand : Nat) (exponent : Int) : Bool :=
  let excess := excessDigits significand
  let leading := significand / Nat.pow 10 excess
  let scale := exponent + excess
  leading == 0 || scale ≤ 0 ||
    (scale ≤ 308 && roundToDouble leading * roundToDouble (Nat.pow 10 scale.toNat) < doubleBound)

theorem inDoubleRange_of_lt {number : Nat} (small : number < UInt64.size) :
    inDoubleRange number 0 = true := by
  have short : (Nat.toDigits 10 number).length ≤ 20 :=
    (Nat.length_toDigits_le_iff (by decide) (by decide)).mpr
      (Nat.lt_of_lt_of_le small (by decide))
  have noExcess : excessDigits number = 0 := by
    have leading : number / Nat.pow 10 ((Nat.toDigits 10 number).length - 20) < UInt64.size :=
      Nat.lt_of_le_of_lt (Nat.div_le_self _ _) small
    rw [excessDigits, if_pos leading]
    omega
  simp [inDoubleRange, noExcess]

end Decimal

inductive Json where
  | null
  | bool (value : Bool)
  | integer (value : Int)
  | decimal (value : Decimal)
  | string (value : String)
  | array (items : List Json)
  | object (entries : List (String × Json))
  /-- A string whose escapes name no Unicode text, or an object with such a name.  It is
  grammatical, so it may stand where nobody looks at it, and stands for no value. -/
  | garbled
deriving Repr

namespace Json

instance : Inhabited Json := ⟨null⟩

mutual

/-- How many arrays and objects are open at the deepest place of a value. -/
def nesting : Json → Nat
  | array items => nestingOfItems items + 1
  | object entries => nestingOfEntries entries + 1
  | _ => 0

def nestingOfItems : List Json → Nat
  | [] => 0
  | item :: items => max item.nesting (nestingOfItems items)

def nestingOfEntries : List (String × Json) → Nat
  | [] => 0
  | (_, value) :: entries => max value.nesting (nestingOfEntries entries)

end

mutual

/-- Whether every part of a value can be kept: each text is Unicode text and each number
lies in the range of a binary64 number. -/
def isReadable : Json → Bool
  | garbled => false
  | integer value => Decimal.inDoubleRange value.natAbs 0
  | decimal value => Decimal.inDoubleRange value.significand value.exponent
  | array items => itemsReadable items
  | object entries => entriesReadable entries
  | _ => true

def itemsReadable : List Json → Bool
  | [] => true
  | item :: items => item.isReadable && itemsReadable items

def entriesReadable : List (String × Json) → Bool
  | [] => true
  | (_, value) :: entries => value.isReadable && entriesReadable entries

end

theorem itemsReadable_iff {items : List Json} :
    itemsReadable items = true ↔ ∀ item ∈ items, item.isReadable = true := by
  induction items with
  | nil => simp [itemsReadable]
  | cons item items itemsIH => simp [itemsReadable, itemsIH]

theorem entriesReadable_iff {entries : List (String × Json)} :
    entriesReadable entries = true ↔ ∀ entry ∈ entries, entry.2.isReadable = true := by
  induction entries with
  | nil => simp [entriesReadable]
  | cons entry entries entriesIH => simp [entriesReadable, entriesIH]

/-- The value of a name that an object holds at most once: nothing if it is repeated, and
`some none` if it is missing. -/
def soleValue? (entries : List (String × Json)) (name : String) : Option (Option Json) :=
  match entries.filter fun entry => entry.1 == name with
  | [] => some none
  | [(_, value)] => some (some value)
  | _ => none

def names : Json → List String
  | object entries => entries.map Prod.fst
  | _ => []

/-- The value under a name that an object lists once. -/
def value? (json : Json) (name : String) : Option Json :=
  match json with
  | object entries => (soleValue? entries name).join
  | _ => none

/-- The values of the declared fields of a record, in the order of declaration; a field
that is left out has none. -/
def fields? (names : List String) : Json → Option (List (Option Json))
  | array items =>
      if items.length ≤ names.length then
        some (items.map some ++ List.replicate (names.length - items.length) none)
      else none
  | object entries => names.mapM (soleValue? entries)
  | _ => none

/-- The name that a plain string or an object with the value `null` for this single name
stands for. -/
def tag? : Json → Option String
  | string name => some name
  | object [(name, null)] => some name
  | _ => none

theorem tag?_eq_some_iff {json : Json} {name : String} :
    json.tag? = some name ↔ json = .string name ∨ json = .object [(name, .null)] := by
  refine ⟨fun tagged => ?_, fun spelled => ?_⟩
  · unfold tag? at tagged
    split at tagged
    · cases tagged
      exact .inl rfl
    · cases tagged
      exact .inr rfl
    · cases tagged
  · obtain rfl | rfl := spelled <;> rfl

end Json

end RingHealth
