import RingHealth.Proofs.Severity

namespace RingHealth

inductive Part where
  | level (level : Health)
  | range (report : RangeReport)
  | ring (report : RingReport)

instance : HasHealth Part where
  health
    | .level level => health level
    | .range report => health report
    | .ring report => health report
  details
    | .level level => details level
    | .range report => details report
    | .ring report => details report

/-- Items in a row, in groups that may be empty and may consist of groups. -/
inductive Grouping (α : Type) where
  | none
  | single (item : α)
  | join (first second : Grouping α)

namespace Grouping

def items : Grouping α → List α
  | none => []
  | single item => [item]
  | join first second => first.items ++ second.items

/-- The health of the items, merged group by group. -/
def merged [HasHealth α] : Grouping α → Health
  | none => .unknown
  | single item => health item
  | join first second => first.merged.merge second.merged

theorem merged_eq_worst [HasHealth α] (grouping : Grouping α) :
    grouping.merged = .worst (grouping.items.map health) := by
  induction grouping with
  | none => rfl
  | single item => simp [merged, items]
  | join first second firstIH secondIH =>
      rw [merged, items, List.map_append, Health.worst_append, firstIH, secondIH]

end Grouping

namespace Health

variable {first second level reached : Health} {levels others : List Health}

@[simp] theorem default_eq : (default : Health) = unknown := rfl

theorem isLE_compare_iff :
    (compare first second).isLE = true ↔ first.severity ≤ second.severity :=
  Nat.isLE_compare

theorem severity_le_merge : first.severity ≤ (first.merge second).severity := by
  rw [severity_merge]
  exact Nat.le_max_left ..

theorem eq_of_extremes (unavailable : first = .unavailable ↔ second = .unavailable)
    (unknown : first = .unknown ↔ second = .unknown) : first = second := by
  cases first <;> cases second <;> simp_all

/-- Two lists that have the same levels apart from `unknown` are merged into the same level. -/
theorem worst_eq_of_members
    (same : ∀ level, level ≠ .unknown → (level ∈ levels ↔ level ∈ others)) :
    worst levels = worst others := by
  apply eq_of_extremes
  · rw [worst_eq_unavailable_iff, worst_eq_unavailable_iff]
    exact same .unavailable (by decide)
  · rw [worst_eq_unknown_iff, worst_eq_unknown_iff]
    refine forall_congr' fun level => ?_
    by_cases unknown : level = .unknown
    · simp [unknown]
    · rw [same level unknown]

theorem worst_mem (nonempty : levels ≠ []) : worst levels ∈ levels := by
  induction levels with
  | nil => contradiction
  | cons level levels levelsIH =>
      cases levels with
      | nil => simp
      | cons next levels =>
          rw [worst_cons, merge]
          split
          · exact List.mem_cons_of_mem level (levelsIH (by simp))
          · exact List.mem_cons_self

theorem severity_le_worst (member : level ∈ levels) : level.severity ≤ (worst levels).severity := by
  induction levels with
  | nil => cases member
  | cons first levels levelsIH =>
      rw [worst_cons]
      cases List.mem_cons.mp member with
      | inl isFirst =>
          rw [isFirst]
          exact severity_le_merge
      | inr later =>
          rw [merge_comm]
          exact Nat.le_trans (levelsIH later) severity_le_merge

theorem running_ascending :
    (reached :: running reached levels).Pairwise fun earlier later =>
      earlier.severity ≤ later.severity := by
  induction levels generalizing reached with
  | nil => exact List.pairwise_singleton ..
  | cons level levels levelsIH =>
      have tail : (reached.merge level :: running (reached.merge level) levels).Pairwise
          fun earlier later => earlier.severity ≤ later.severity := levelsIH
      refine List.pairwise_cons.mpr ⟨fun later member => ?_, tail⟩
      rw [running] at member
      cases List.mem_cons.mp member with
      | inl isNext => exact isNext ▸ severity_le_merge
      | inr after => exact Nat.le_trans severity_le_merge (List.rel_of_pairwise_cons tail after)

/-- After each item the level that is reached is the one of the items so far. -/
theorem running_eq_map_take (reached : Health) (levels : List Health) :
    running reached levels =
      (List.range levels.length).map fun index => reached.merge (worst (levels.take (index + 1))) := by
  induction levels generalizing reached with
  | nil => rfl
  | cons level levels levelsIH =>
      rw [running, levelsIH, List.length_cons, List.range_succ_eq_map, List.map_cons, List.map_map]
      simp [Function.comp_def, merge_assoc]

theorem getLast?_running :
    (reached :: running reached levels).getLast? = some (reached.merge (worst levels)) := by
  induction levels generalizing reached with
  | nil => simp [running]
  | cons level levels levelsIH =>
      rw [running, List.getLast?_cons_cons, levelsIH, worst_cons, merge_assoc]

/-- Merging lists goes with joining them.  Neither order nor repetitions nor unknown levels matter,
the result is the greatest level of a list that has any, and it is reached step by step without
ever going down.  So whatever parts of a diagnosis are merged, their order and their grouping do
not matter. -/
theorem worst_of_parts (levels others : List Health) :
    worst (levels ++ others) = (worst levels).merge (worst others) ∧
    (∀ rearranged, levels.Perm rearranged → worst rearranged = worst levels) ∧
    (∀ level ∈ levels ++ others, worst (levels ++ level :: others) = worst (levels ++ others)) ∧
    worst (levels ++ .unknown :: others) = worst (levels ++ others) ∧
    (worst levels = .unavailable ↔ .unavailable ∈ levels) ∧
    (worst levels = .unknown ↔ ∀ level ∈ levels, level = .unknown) ∧
    (levels ≠ [] →
      worst levels ∈ levels ∧ ∀ level ∈ levels, (compare level (worst levels)).isLE = true) ∧
    running default levels =
      (List.range levels.length).map (fun index => worst (levels.take (index + 1))) ∧
    ((default :: running default levels).Pairwise fun earlier later =>
      (compare earlier later).isLE = true) ∧
    (default :: running default levels).getLast? = some (worst levels) ∧
    ∀ (parts : List Part) (grouping : Grouping Part), grouping.items.Perm parts →
      grouping.merged = worst (parts.map health) := by
  refine ⟨worst_append, fun _ rearranged => (worst_perm rearranged).symm, ?_, ?_,
    worst_eq_unavailable_iff, worst_eq_unknown_iff, ?_, ?_, ?_, ?_, ?_⟩
  · intro level member
    refine worst_eq_of_members fun other _ => ?_
    rw [List.perm_middle.mem_iff, List.mem_cons, or_iff_right_of_imp]
    rintro rfl
    exact member
  · refine worst_eq_of_members fun other known => ?_
    rw [List.perm_middle.mem_iff, List.mem_cons, or_iff_right known]
  · intro nonempty
    exact ⟨worst_mem nonempty, fun level member => isLE_compare_iff.mpr (severity_le_worst member)⟩
  · simpa using running_eq_map_take default levels
  · exact running_ascending.imp isLE_compare_iff.mpr
  · rw [getLast?_running, default_eq, unknown_merge]
  · intro parts grouping rearranged
    rw [grouping.merged_eq_worst, worst_perm (rearranged.map health)]

end Health

end RingHealth
