import RingHealth.Proofs.Clockwise

namespace RingHealth

namespace Token

variable (origin middle target : Token)

/-- A detour that passes its target comes back to it after a whole turn. -/
theorem arc_add_arc :
    origin.arc middle + middle.arc target =
      if origin.arc middle < origin.arc target then origin.arc target
      else origin.arc target + UInt64.size := by
  have toMiddle := origin.arc_eq middle
  have fromMiddle := middle.arc_eq target
  have toTarget := origin.arc_eq target
  have positive := middle.arc_pos target
  have atMost := middle.arc_le_size target
  simp only [UInt64.size] at *
  split at toMiddle <;> split at fromMiddle <;> split at toTarget <;> split <;> omega

theorem eq_of_arc_eq (same : origin.arc middle = origin.arc target) : middle = target := by
  have detour := origin.arc_add_arc middle target
  rw [if_neg (by omega)] at detour
  rw [← arc_eq_size_iff]
  omega

end Token

namespace TokenRange

/-- Whether ranges share out the tokens of a range off the seam: each of them lies in exactly one
part, and no other token off the seam lies in a part. -/
def Partitions (parts : List TokenRange) (whole : TokenRange) : Prop :=
  ∀ token, token ≠ Token.least →
    parts.countP (fun part => part.contains token) = if whole.contains token then 1 else 0

variable {parts : List TokenRange} {whole range : TokenRange} {start middle stop token : Token}

theorem Partitions.contains_iff_one (shared : Partitions parts whole)
    (offSeam : token ≠ Token.least) :
    whole.contains token = true ↔ parts.countP (fun part => part.contains token) = 1 := by
  rw [shared token offSeam]
  split <;> simp_all

theorem Partitions.contains_iff_some (shared : Partitions parts whole)
    (offSeam : token ≠ Token.least) :
    whole.contains token = true ↔ ∃ part ∈ parts, part.contains token = true := by
  rw [← List.countP_pos_iff, shared token offSeam]
  split <;> simp_all

/-- From the middle, the tokens past it are nearer by the way to the middle, and the tokens before it
are met after the end only. -/
theorem partitions_of_arc_lt (within : start.arc middle < start.arc stop) :
    Partitions [⟨start, middle⟩, ⟨middle, stop⟩] ⟨start, stop⟩ := by
  intro token offSeam
  have inFirst := contains_iff_arc_le ⟨start, middle⟩ offSeam
  have inSecond := contains_iff_arc_le ⟨middle, stop⟩ offSeam
  have inWhole := contains_iff_arc_le ⟨start, stop⟩ offSeam
  have toToken := start.arc_add_arc middle token
  have toStop := start.arc_add_arc middle stop
  have atMost := start.arc_le_size stop
  have positive := start.arc_pos token
  rw [if_pos within] at toStop
  simp only [List.countP_cons, List.countP_nil, inFirst, inSecond, inWhole]
  split at toToken <;> split <;> split <;> split <;> omega

theorem arc_lt_of_contains (contained : range.contains middle = true)
    (inside : middle ≠ range.stop) : range.start.arc middle < range.start.arc range.stop := by
  by_cases atSeam : middle = Token.least
  · subst atSeam
    exact (range.crossesSeam_iff_arc_lt.mp (crossesSeam_of_contains_least contained)).2
  · have within := (range.contains_iff_arc_le atSeam).mp contained
    exact Nat.lt_of_le_of_ne within fun same => inside (Token.eq_of_arc_eq _ _ _ same)

/-- A token inside a range cuts it in two parts, and the seam cuts a range that crosses it in two
parts that do not.  Two different tokens cut the ring in the ranges from each to the other. -/
theorem partitions_split :
    (∀ (range : TokenRange) (middle : Token), range.contains middle = true →
      middle ≠ range.stop → Partitions [⟨range.start, middle⟩, ⟨middle, range.stop⟩] range) ∧
    (∀ range : TokenRange, range.crossesSeam = true →
      crossesSeam ⟨range.start, Token.least⟩ = false ∧
      crossesSeam ⟨Token.least, range.stop⟩ = false ∧
      ∀ token, token ≠ Token.least →
        (range.contains token = true ↔
          [⟨range.start, Token.least⟩, ⟨Token.least, range.stop⟩].countP
            (fun part : TokenRange => part.contains token) = 1) ∧
        (range.contains token = true ↔
          ∃ part ∈ [⟨range.start, Token.least⟩, ⟨Token.least, range.stop⟩],
            TokenRange.contains part token = true)) ∧
    ∀ start stop : Token, start ≠ stop → ∀ token, token ≠ Token.least →
      [⟨start, stop⟩, ⟨stop, start⟩].countP
        (fun part : TokenRange => part.contains token) = 1 := by
  refine ⟨?_, ?_, ?_⟩
  · intro range middle contained inside
    exact partitions_of_arc_lt (arc_lt_of_contains contained inside)
  · intro range crosses
    have shared := partitions_of_arc_lt (range.crossesSeam_iff_arc_lt.mp crosses).2
    refine ⟨?_, ?_, fun token offSeam =>
      ⟨shared.contains_iff_one offSeam, shared.contains_iff_some offSeam⟩⟩
    · simp [crossesSeam]
    · have stopAbove := range.stop.least_le
      rw [← Bool.not_eq_true, crossesSeam_iff]
      dsimp only
      omega
  · intro start stop apart token offSeam
    have short : start.arc stop < start.arc start := by
      have whole := (start.arc_eq_size_iff start).mpr rfl
      have partly := mt (start.arc_eq_size_iff stop).mp apart
      have atMost := start.arc_le_size stop
      omega
    rw [← (partitions_of_arc_lt short).contains_iff_one offSeam]
    simp [contains, goesRound, offSeam]

/-- The whole ring is cut at a token before its end, and a range across the seam at the least token,
which that range contains. -/
theorem partitions_split_round_and_seam :
    Partitions [⟨⟨5⟩, ⟨3⟩⟩, ⟨⟨3⟩, ⟨5⟩⟩] ⟨⟨5⟩, ⟨5⟩⟩ ∧
    Partitions [⟨⟨10⟩, Token.least⟩, ⟨Token.least, ⟨-10⟩⟩] ⟨⟨10⟩, ⟨-10⟩⟩ ∧
    (∃ part ∈ [⟨⟨10⟩, Token.least⟩, ⟨Token.least, ⟨-10⟩⟩],
      TokenRange.contains part ⟨Int64.maxValue⟩ = true) ∧
    [⟨⟨10⟩, ⟨-10⟩⟩, ⟨⟨-10⟩, ⟨10⟩⟩].countP (fun part : TokenRange => part.contains ⟨0⟩) = 1 := by
  obtain ⟨inside, seam, apart⟩ := partitions_split
  refine ⟨inside ⟨⟨5⟩, ⟨5⟩⟩ ⟨3⟩ (by decide) (by decide),
    inside ⟨⟨10⟩, ⟨-10⟩⟩ Token.least (by decide) (by decide), ?_,
    apart ⟨10⟩ ⟨-10⟩ (by decide) ⟨0⟩ (by decide)⟩
  obtain ⟨_, _, shared⟩ := seam ⟨⟨10⟩, ⟨-10⟩⟩ (by decide)
  exact (shared ⟨Int64.maxValue⟩ (by decide)).2.mp (by decide)

end TokenRange

end RingHealth
