import RingHealth.Proofs.Assembly

namespace RingHealth

namespace TokenRange

/-- The ranges that are met on the way from a token through others and then home. -/
def path (home current : Token) (others : List Token) : List TokenRange :=
  List.zipWith mk (current :: others) (others ++ [home])

/-- The ranges from each token to the next, and from the last token to the first. -/
def circuit : List Token → List TokenRange
  | [] => []
  | first :: others => path first first others

variable {home current next token : Token} {others tokens : List Token}

theorem path_nil : path home current [] = [⟨current, home⟩] := rfl

theorem path_cons : path home current (next :: others) = ⟨current, next⟩ :: path home next others :=
  rfl

theorem map_start_path : (path home current others).map start = current :: others := by
  induction others generalizing current with
  | nil => rfl
  | cons next others othersIH => rw [path_cons, List.map_cons, othersIH]

theorem getLast?_path :
    (path home current others).getLast? =
      some ⟨(current :: others).getLast (List.cons_ne_nil _ _), home⟩ := by
  induction others generalizing current with
  | nil => rfl
  | cons next others othersIH =>
      rw [path_cons, List.getLast?_cons, othersIH, List.getLast_cons_cons]
      rfl

/-- A path that ends at or before its start contains the tokens that lie past its start or
not past its end, each in one of its ranges. -/
theorem countP_path (offSeam : token ≠ Token.least)
    (ascending : (current :: others).Pairwise (· < ·)) (homeward : home ≤ current) :
    (path home current others).countP (fun range => range.contains token) =
      if current < token ∨ token ≤ home then 1 else 0 := by
  induction others generalizing current with
  | nil =>
      have backward : ¬ current < home := by
        rw [Token.le_iff] at homeward
        rw [Token.lt_iff]
        omega
      have closing := contains_iff ⟨current, home⟩ offSeam
      rw [if_neg backward] at closing
      simp only [path_nil, List.countP_cons, List.countP_nil, Nat.zero_add, closing]
  | cons next others othersIH =>
      obtain ⟨leastStart, rest⟩ := List.pairwise_cons.mp ascending
      have forward : current < next := leastStart next (by simp)
      have opening := contains_iff ⟨current, next⟩ offSeam
      rw [if_pos forward] at opening
      have homewardNext : home ≤ next := by
        rw [Token.le_iff] at homeward ⊢
        rw [Token.lt_iff] at forward
        omega
      rw [path_cons, List.countP_cons, othersIH rest homewardNext]
      simp only [opening, Token.lt_iff, Token.le_iff] at *
      split <;> split <;> split <;> omega

/-- Every token off the seam lies past the first token or not past it, so it is met once
on a whole circuit. -/
theorem countP_circuit (nonempty : tokens ≠ []) (ascending : tokens.Pairwise (· < ·))
    (offSeam : token ≠ Token.least) :
    (circuit tokens).countP (fun range => range.contains token) = 1 := by
  cases tokens with
  | nil => contradiction
  | cons first others =>
      have everywhere : first < token ∨ token ≤ first := by
        rw [Token.lt_iff, Token.le_iff]
        omega
      have homeward : first ≤ first := Token.le_iff.mpr (Int.le_refl _)
      rw [circuit, countP_path offSeam ascending homeward, if_pos everywhere]

theorem map_start_circuit (tokens : List Token) : (circuit tokens).map start = tokens := by
  cases tokens with
  | nil => rfl
  | cons first others => exact map_start_path

theorem circuit_ascending (ascending : tokens.Pairwise (· < ·)) :
    (circuit tokens).Pairwise Precedes := by
  rw [← map_start_circuit tokens, List.pairwise_map] at ascending
  exact ascending.imp fun smaller => .inl (Token.lt_iff.mp smaller)

/-- A circuit of ascending tokens tiles the ring: each token off the seam lies in exactly one
of its ranges.  A ring report that is made of these ranges in any order lists them along the
circuit, the one that returns to the first token last. -/
theorem circuit_tiles (tokens : List Token) (nonempty : tokens ≠ [])
    (ascending : tokens.Pairwise (· < ·)) :
    (circuit tokens).length = tokens.length ∧
    (circuit tokens).getLast? = some ⟨tokens.getLast nonempty, tokens.head nonempty⟩ ∧
    (∀ token, token ≠ Token.least →
      (circuit tokens).countP (fun range => range.contains token) = 1) ∧
    ∀ (keyspace : Keyspace) (scope : Scope) (reports : List RangeReport),
      scope.check = .ok () → (reports.map RangeReport.range).Perm (circuit tokens) →
      ∃ ring, RingReport.build keyspace scope reports = .ok ring ∧
        ring.ranges.toList.map RangeReport.range = circuit tokens := by
  refine ⟨?_, ?_, fun token => countP_circuit nonempty ascending, ?_⟩
  · rw [← List.length_map (f := start), map_start_circuit]
  · cases tokens with
    | nil => contradiction
    | cons first others => exact getLast?_path
  · intro keyspace scope reports inScope listed
    have sorted := circuit_ascending ascending
    have distinct : (circuit tokens).Nodup := by
      refine sorted.imp ?_
      intro earlier later before same
      subst same
      exact before.asymm before
    obtain ⟨ring, built⟩ :=
      RingReport.build_of_nodup keyspace inScope (listed.nodup_iff.mpr distinct)
    obtain ⟨_, _, _, _, kept⟩ := RingReport.build_ok built
    refine ⟨ring, built, List.Perm.eq_of_pairwise ?_
      (List.pairwise_map.mpr ring.ranges_ascending) sorted
      ((kept.map RangeReport.range).trans listed)⟩
    intro earlier later _ _ before after
    exact absurd after before.asymm

theorem circuit_tiles_extremes :
    (∀ token, token ≠ Token.least →
      (circuit [Token.least, ⟨0⟩, ⟨Int64.maxValue⟩]).countP
        (fun range => range.contains token) = 1) ∧
    ∃ ring, RingReport.build ⟨"ks", .simple 1⟩ ⟨.one, none⟩
        [⟨⟨⟨Int64.maxValue⟩, Token.least⟩, 1, 0⟩, ⟨⟨⟨0⟩, ⟨Int64.maxValue⟩⟩, 1, 2⟩,
          ⟨⟨Token.least, ⟨0⟩⟩, 1, 1⟩] = .ok ring ∧
      ring.ranges.toList.map RangeReport.range =
        [⟨Token.least, ⟨0⟩⟩, ⟨⟨0⟩, ⟨Int64.maxValue⟩⟩, ⟨⟨Int64.maxValue⟩, Token.least⟩] := by
  obtain ⟨_, _, once, listed⟩ :=
    circuit_tiles [Token.least, ⟨0⟩, ⟨Int64.maxValue⟩] (by decide) (by decide)
  exact ⟨once, listed _ _ _ rfl (by decide)⟩

end TokenRange

end RingHealth
