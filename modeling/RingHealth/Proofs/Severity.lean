import RingHealth.RingReport

namespace RingHealth

namespace Health

variable {first second level : Health} {levels others : List Health}

instance : Std.Associative merge := ⟨merge_assoc⟩

theorem merge_eq_unavailable_iff :
    first.merge second = .unavailable ↔ first = .unavailable ∨ second = .unavailable := by
  cases first <;> cases second <;> decide

theorem merge_eq_unknown_iff :
    first.merge second = .unknown ↔ first = .unknown ∧ second = .unknown := by
  cases first <;> cases second <;> decide

@[simp] theorem worst_nil : worst [] = .unknown := rfl

@[simp] theorem worst_cons : worst (level :: levels) = level.merge (worst levels) := by
  rw [worst, List.foldl_cons, unknown_merge, ← merge_unknown level, List.foldl_assoc, worst]
  simp

theorem worst_append : worst (levels ++ others) = (worst levels).merge (worst others) := by
  induction levels with
  | nil => simp
  | cons level levels levelsIH =>
      rw [List.cons_append, worst_cons, levelsIH, worst_cons, merge_assoc]

/-- A list may be merged in parts, of which some may be empty. -/
theorem worst_flatten (groups : List (List Health)) :
    worst groups.flatten = worst (groups.map worst) := by
  induction groups with
  | nil => rfl
  | cons group groups groupsIH =>
      rw [List.flatten_cons, worst_append, groupsIH, List.map_cons, worst_cons]

theorem worst_perm (rearranged : levels.Perm others) : worst levels = worst others := by
  induction rearranged with
  | nil => rfl
  | cons level _ tailIH => rw [worst_cons, worst_cons, tailIH]
  | swap first second levels =>
      simp only [worst_cons]
      rw [← merge_assoc, merge_comm second, merge_assoc]
  | trans _ _ firstIH secondIH => exact firstIH.trans secondIH

theorem worst_eq_unavailable_iff : worst levels = .unavailable ↔ .unavailable ∈ levels := by
  induction levels with
  | nil => simp
  | cons level levels levelsIH =>
      rw [worst_cons, merge_eq_unavailable_iff, levelsIH, List.mem_cons, eq_comm]

theorem worst_eq_unknown_iff : worst levels = .unknown ↔ ∀ level ∈ levels, level = .unknown := by
  induction levels with
  | nil => simp
  | cons level levels levelsIH =>
      rw [worst_cons, merge_eq_unknown_iff, levelsIH, List.forall_mem_cons]

end Health

theorem RangeReport.worst_eq_unknown_iff {reports : List RangeReport} :
    Health.worst (reports.map health) = .unknown ↔ reports = [] := by
  cases reports with
  | nil => simp
  | cons report reports =>
      rw [List.map_cons, Health.worst_cons, Health.merge_eq_unknown_iff, health_eq]
      cases report.isMet <;> simp

theorem RangeReport.worst_eq_unavailable_iff {reports : List RangeReport} :
    Health.worst (reports.map health) = .unavailable ↔
      ∃ report ∈ reports, report.isMet = false := by
  rw [Health.worst_eq_unavailable_iff, List.mem_map]
  refine exists_congr fun report => and_congr_right fun _ => ?_
  rw [health_eq]
  cases report.isMet <;> simp

namespace RingReport

variable (ring : RingReport)

theorem health_eq_worst :
    health ring = .worst (ring.ranges.toList.map health) := rfl

theorem health_eq_unknown_iff : health ring = .unknown ↔ ring.ranges.toList = [] :=
  RangeReport.worst_eq_unknown_iff

theorem health_eq_unavailable_iff :
    health ring = .unavailable ↔ ∃ report ∈ ring.ranges.toList, report.isMet = false :=
  RangeReport.worst_eq_unavailable_iff

theorem health_eq_available_iff :
    health ring = .available ↔
      ring.ranges.toList ≠ [] ∧ ∀ report ∈ ring.ranges.toList, report.isMet = true := by
  have notUnknown := not_congr ring.health_eq_unknown_iff
  have notUnavailable := not_congr ring.health_eq_unavailable_iff
  simp only [not_exists, not_and, Bool.not_eq_false] at notUnavailable
  rw [ne_eq, ← notUnknown, ← notUnavailable]
  cases health ring <;> simp

theorem shortfalls_eq_nil_iff :
    ring.shortfalls = [] ↔ ∀ report ∈ ring.ranges.toList, report.isMet = true := by
  simp [shortfalls]

/-- A ring without ranges does not fall short and is not available either. -/
theorem health_eq_available_iff_shortfalls :
    health ring = .available ↔ ring.ranges.toList ≠ [] ∧ ring.shortfalls = [] := by
  rw [health_eq_available_iff, shortfalls_eq_nil_iff]

end RingReport

end RingHealth
