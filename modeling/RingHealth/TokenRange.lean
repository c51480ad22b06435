namespace RingHealth

/-! Positions on the partitioner's hash ring.

A token is a signed 64-bit hash.  Tokens are ordered as signed numbers, and the
least of them marks the seam of the ring.
-/

structure Token where
  value : Int64
deriving DecidableEq, Hashable, Repr

namespace Token

/-- The least token, which is meant to lie in no range. -/
def least : Token := ⟨Int64.minValue⟩

instance : Ord Token := ⟨compareOn value⟩

instance : Std.TransOrd Token := inferInstanceAs (Std.TransCmp (compareOn value))

instance : Std.LawfulEqOrd Token where
  compare_self {token} := Std.ReflOrd.compare_self (α := Int64) (a := token.value)
  eq_of_compare {first second} same := by
    cases first
    cases second
    exact congrArg Token.mk (Std.LawfulEqOrd.eq_of_compare (α := Int64) same)

instance : LT Token := ⟨fun first second => first.value < second.value⟩

instance : LE Token := ⟨fun first second => first.value ≤ second.value⟩

instance (first second : Token) : Decidable (first < second) :=
  inferInstanceAs (Decidable (first.value < second.value))

instance (first second : Token) : Decidable (first ≤ second) :=
  inferInstanceAs (Decidable (first.value ≤ second.value))

instance : ToString Token := ⟨fun token => toString token.value.toInt⟩

variable {first second : Token}

theorem lt_iff : first < second ↔ first.value.toInt < second.value.toInt :=
  Int64.lt_iff_toInt_lt

theorem le_iff : first ≤ second ↔ first.value.toInt ≤ second.value.toInt :=
  Int64.le_iff_toInt_le

theorem eq_iff : first = second ↔ first.value.toInt = second.value.toInt := by
  cases first
  cases second
  simp [Int64.toInt_inj]

theorem compare_eq_lt_iff : compare first second = .lt ↔ first < second :=
  Std.compare_eq_lt (α := Int64)

theorem least_le (token : Token) : least.value.toInt ≤ token.value.toInt :=
  token.value.minValue_le_toInt

end Token

/-- The part `]start,stop]` of the token ring. -/
structure TokenRange where
  start : Token
  stop : Token
deriving DecidableEq, Hashable, Repr

namespace TokenRange

/-- Ranges are ordered by their start, and ranges of one start by their end. -/
instance : Ord TokenRange := ⟨compareLex (compareOn start) (compareOn stop)⟩

instance : Std.TransOrd TokenRange :=
  inferInstanceAs (Std.TransCmp (compareLex (compareOn start) (compareOn stop)))

theorem compare_eq_then (first second : TokenRange) :
    compare first second =
      (compare first.start second.start).then (compare first.stop second.stop) := rfl

instance : Std.LawfulEqOrd TokenRange where
  compare_self {range} := by
    rw [compare_eq_then, Std.ReflOrd.compare_self, Std.ReflOrd.compare_self]
    rfl
  eq_of_compare {first second} same := by
    rw [compare_eq_then, Ordering.then_eq_eq] at same
    cases first
    cases second
    cases Std.LawfulEqOrd.eq_of_compare same.1
    cases Std.LawfulEqOrd.eq_of_compare same.2
    rfl

/-- Whether the range passes the seam of the ring before its end. -/
def crossesSeam (range : TokenRange) : Bool :=
  range.stop < range.start && range.stop != Token.least

def goesRound (range : TokenRange) : Bool := range.start == range.stop

def contains (range : TokenRange) (token : Token) : Bool :=
  if range.goesRound then token != Token.least
  else if range.start < range.stop then range.start < token && token ≤ range.stop
  else if range.stop = Token.least then range.start < token
  else range.start < token || token ≤ range.stop

/-- A range is written with brackets that open away from an excluded end. -/
instance : ToString TokenRange := ⟨fun range => s!"]{range.start},{range.stop}]"⟩

variable {earlier later : TokenRange} {token : Token}

/-- Whether a range starts at a smaller number than another one, or at the same and ends at
a smaller number. -/
def Precedes (earlier later : TokenRange) : Prop :=
  earlier.start.value.toInt < later.start.value.toInt ∨
    earlier.start.value.toInt = later.start.value.toInt ∧
      earlier.stop.value.toInt < later.stop.value.toInt

theorem compare_eq_lt_iff : compare earlier later = .lt ↔ earlier.Precedes later := by
  rw [compare_eq_then, Ordering.then_eq_lt, Std.compare_eq_iff_eq, Token.compare_eq_lt_iff,
    Token.compare_eq_lt_iff, Token.lt_iff, Token.lt_iff, Token.eq_iff]
  rfl

theorem Precedes.asymm (before : earlier.Precedes later) : ¬ later.Precedes earlier := by
  simp only [Precedes] at *
  omega

/-- Away from the seam a range that ends after its start contains what lies between, and
any other range contains what lies outside. -/
theorem contains_iff (range : TokenRange) (offSeam : token ≠ Token.least) :
    range.contains token = true ↔
      if range.start < range.stop then range.start < token ∧ token ≤ range.stop
      else range.start < token ∨ token ≤ range.stop := by
  have notLeast := Token.least_le token
  rw [ne_eq, Token.eq_iff] at offSeam
  simp only [contains, goesRound, beq_iff_eq]
  by_cases round : range.start = range.stop
  · have notInOrder : ¬ range.start < range.stop := by
      rw [round, Token.lt_iff]
      omega
    rw [if_pos round, if_neg notInOrder, bne_iff_ne, ne_eq, Token.eq_iff, round, Token.lt_iff,
      Token.le_iff]
    omega
  · by_cases inOrder : range.start < range.stop
    · rw [if_neg round, if_pos inOrder, if_pos inOrder, Bool.and_eq_true, decide_eq_true_eq,
        decide_eq_true_eq]
    · by_cases atSeam : range.stop = Token.least
      · have pastStop : ¬ token ≤ range.stop := by
          rw [atSeam, Token.le_iff]
          omega
        rw [if_neg round, if_neg inOrder, if_pos atSeam, if_neg inOrder, decide_eq_true_eq,
          or_iff_left pastStop]
      · rw [if_neg round, if_neg inOrder, if_neg atSeam, if_neg inOrder, Bool.or_eq_true,
          decide_eq_true_eq, decide_eq_true_eq]

end TokenRange

end RingHealth
