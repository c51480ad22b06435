import RingHealth.TokenRange

namespace RingHealth

/-! Going round the ring clockwise.

One step leads from a token to the next greater one, and from the greatest to the least.  The
tokens that a range contains are those that are met on the way from its start to its end, and a
range crosses the seam if the least token is met on this way before the end.  The least token
itself is the exception: it lies in the ranges that cross the seam and in no others.
-/

namespace Token

def next (token : Token) : Token := ⟨token.value + 1⟩

/-- The token a number of steps clockwise. -/
def advance (token : Token) : Nat → Token
  | 0 => token
  | steps + 1 => (token.advance steps).next

/-- The number of steps clockwise from a token to another one, a whole turn to itself. -/
def arc (origin target : Token) : Nat :=
  ((target.value.toInt - origin.value.toInt - 1) % (UInt64.size : Int)).toNat + 1

variable (origin target token : Token)

/-- The numbers of two tokens are less than a whole turn apart. -/
theorem toInt_sub_lt_size : target.value.toInt - origin.value.toInt < UInt64.size := by
  have originLower := origin.value.le_toInt
  have targetUpper := target.value.toInt_lt
  simp only [UInt64.size]
  omega

theorem toInt_next :
    token.next.value.toInt = token.value.toInt + 1 ∨
      token.next.value.toInt = token.value.toInt + 1 - UInt64.size := by
  have lower := token.value.le_toInt
  have upper := token.value.toInt_lt
  have sum := Int64.toInt_add token.value 1
  rw [Int64.toInt_one, Int.bmod_def] at sum
  simp only [next, UInt64.size, sum]
  split <;> omega

/-- Steps are counted up to whole turns. -/
theorem toInt_advance (steps : Nat) :
    ((origin.advance steps).value.toInt - origin.value.toInt - steps) % (UInt64.size : Int) =
      0 := by
  induction steps with
  | zero => simp [advance]
  | succ steps stepsIH =>
      have step := (origin.advance steps).toInt_next
      simp only [advance, UInt64.size] at *
      omega

theorem advance_eq_iff (steps : Nat) :
    origin.advance steps = target ↔
      (target.value.toInt - origin.value.toInt - steps) % (UInt64.size : Int) = 0 := by
  have reached := origin.toInt_advance steps
  rw [eq_iff]
  constructor
  · intro same
    rwa [same] at reached
  · intro congruent
    have notBeyond := toInt_sub_lt_size target (origin.advance steps)
    have notBehind := toInt_sub_lt_size (origin.advance steps) target
    simp only [UInt64.size] at *
    omega

theorem arc_eq :
    (origin.arc target : Int) =
      if origin.value.toInt < target.value.toInt then target.value.toInt - origin.value.toInt
      else target.value.toInt - origin.value.toInt + UInt64.size := by
  have forward := toInt_sub_lt_size origin target
  have backward := toInt_sub_lt_size target origin
  simp only [arc, UInt64.size] at *
  split <;> omega

theorem arc_eq_size_iff : origin.arc target = UInt64.size ↔ origin = target := by
  have forward := toInt_sub_lt_size origin target
  have length := origin.arc_eq target
  rw [eq_iff]
  simp only [UInt64.size] at *
  split at length <;> omega

theorem arc_pos : 0 < origin.arc target := Nat.succ_pos _

theorem arc_le_size : origin.arc target ≤ UInt64.size := by
  simp only [arc, UInt64.size]
  omega

/-- The arc is the least positive number of steps that leads to the target. -/
theorem arc_le_iff (limit : Nat) :
    origin.arc target ≤ limit ↔
      ∃ steps, 0 < steps ∧ steps ≤ limit ∧ origin.advance steps = target := by
  constructor
  · intro within
    refine ⟨origin.arc target, origin.arc_pos target, within, ?_⟩
    rw [advance_eq_iff, arc_eq]
    simp only [UInt64.size]
    split <;> omega
  · intro reachable
    obtain ⟨steps, positive, within, reached⟩ := reachable
    rw [advance_eq_iff] at reached
    simp only [arc, UInt64.size] at *
    omega

end Token

namespace TokenRange

variable (range : TokenRange) {token : Token}

theorem contains_iff_arc_le (offSeam : token ≠ Token.least) :
    range.contains token = true ↔ range.start.arc token ≤ range.start.arc range.stop := by
  have toToken := range.start.arc_eq token
  have toStop := range.start.arc_eq range.stop
  have notBeyond := Token.toInt_sub_lt_size token range.stop
  have notBehind := Token.toInt_sub_lt_size range.stop token
  rw [contains_iff range offSeam]
  by_cases forward : range.start < range.stop
  · rw [if_pos forward]
    simp only [Token.lt_iff, Token.le_iff] at *
    rw [if_pos forward] at toStop
    split at toToken <;> omega
  · rw [if_neg forward]
    simp only [Token.lt_iff, Token.le_iff] at *
    rw [if_neg forward] at toStop
    split at toToken <;> omega

theorem crossesSeam_iff :
    range.crossesSeam = true ↔
      range.stop.value.toInt < range.start.value.toInt ∧
        range.stop.value.toInt ≠ Token.least.value.toInt := by
  rw [crossesSeam, Bool.and_eq_true, decide_eq_true_eq, bne_iff_ne, ne_eq, Token.lt_iff,
    Token.eq_iff]

theorem crossesSeam_iff_arc_lt :
    range.crossesSeam = true ↔ range.start ≠ range.stop ∧
      range.start.arc Token.least < range.start.arc range.stop := by
  have toSeam := range.start.arc_eq Token.least
  have toStop := range.start.arc_eq range.stop
  have startAbove := range.start.least_le
  have stopAbove := range.stop.least_le
  have stopNear := Token.toInt_sub_lt_size Token.least range.stop
  rw [if_neg (Int.not_lt.mpr startAbove)] at toSeam
  rw [crossesSeam_iff]
  simp only [ne_eq, Token.eq_iff] at *
  split at toStop <;> omega

/-- The least token is not past any token, so it is contained only on the way past the seam. -/
theorem crossesSeam_of_contains_least {range : TokenRange}
    (contained : range.contains Token.least = true) :
    range.crossesSeam = true := by
  have startAbove := range.start.least_le
  rw [crossesSeam_iff]
  simp only [contains, goesRound, beq_iff_eq, Token.eq_iff, Token.lt_iff, Token.le_iff] at contained
  split at contained
  · simp at contained
  · split at contained
    · rw [Bool.and_eq_true, decide_eq_true_eq] at contained
      omega
    · split at contained
      · rw [decide_eq_true_eq] at contained
        omega
      · omega

/-- A range contains the tokens that are met on the way from its start to its end, the least
token apart, and crosses the seam if the least token is met on this way before the end. -/
theorem contains_clockwise :
    (∀ origin target : Token, 0 < origin.arc target ∧ origin.arc target ≤ UInt64.size ∧
      (origin.arc target = UInt64.size ↔ origin = target) ∧
      ∀ limit, origin.arc target ≤ limit ↔
        ∃ steps, 0 < steps ∧ steps ≤ limit ∧ origin.advance steps = target) ∧
    ∀ range : TokenRange,
      (∀ token, token ≠ Token.least →
        (range.contains token = true ↔ range.start.arc token ≤ range.start.arc range.stop)) ∧
      (range.crossesSeam = true ↔ range.start ≠ range.stop ∧
        range.start.arc Token.least < range.start.arc range.stop) := by
  refine ⟨?_, fun range => ⟨fun token => range.contains_iff_arc_le, range.crossesSeam_iff_arc_lt⟩⟩
  intro origin target
  exact ⟨origin.arc_pos target, origin.arc_le_size target, origin.arc_eq_size_iff target,
    origin.arc_le_iff target⟩

/-- The greatest token is met on the way across the seam, before the least one. -/
theorem contains_clockwise_across_seam :
    (⟨Int64.maxValue⟩ : Token) ≠ Token.least ∧
      Token.arc ⟨5⟩ ⟨Int64.maxValue⟩ ≤ Token.arc ⟨5⟩ ⟨-5⟩ ∧
      Token.arc ⟨5⟩ Token.least < Token.arc ⟨5⟩ ⟨-5⟩ := by
  have offSeam : (⟨Int64.maxValue⟩ : Token) ≠ Token.least := by decide
  obtain ⟨contained, crosses⟩ := contains_clockwise.2 ⟨⟨5⟩, ⟨-5⟩⟩
  exact ⟨offSeam, (contained _ offSeam).mp (by decide), (crosses.mp (by decide)).2⟩

/-- The least token lies in the ranges that cross the seam, and in no others. -/
theorem contains_least_iff : range.contains Token.least = true ↔ range.crossesSeam = true := by
  refine ⟨crossesSeam_of_contains_least, fun crosses => ?_⟩
  have stopAbove := range.stop.least_le
  obtain ⟨backward, offSeam⟩ := range.crossesSeam_iff.mp crosses
  simp only [contains, goesRound, beq_iff_eq, Token.eq_iff, Token.lt_iff, Token.le_iff]
  rw [if_neg (by omega), if_neg (by omega), if_neg offSeam, Bool.or_eq_true, decide_eq_true_eq,
    decide_eq_true_eq]
  exact .inr stopAbove

theorem contains_least_of_crossing : contains ⟨⟨10⟩, ⟨-10⟩⟩ Token.least = true := by
  decide

end TokenRange

end RingHealth
