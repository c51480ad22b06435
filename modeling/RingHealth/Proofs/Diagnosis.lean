import RingHealth.Proofs.Verdict

namespace RingHealth

/-- The report on a snapshot by a monitor that is prepared for it. -/
def Keyspace.diagnosis (keyspace : Keyspace) (scope : Scope) (snapshot : Snapshot) :
    Except Fault RingReport := do
  let monitor ← (Monitor.prepare keyspace scope).outcome
  (monitor.inspect snapshot).outcome

/-- Whether a ring holds a report of a range that has enough living replicas. -/
def RingReport.Meets (ring : RingReport) (range : TokenRange) : Prop :=
  ∃ report ∈ ring.ranges.toList, report.range = range ∧ report.isMet = true

/-- Whether every snapshot of different ranges has a report at a scope. -/
def Keyspace.Diagnoses (keyspace : Keyspace) (scope : Scope) : Prop :=
  ∀ snapshot : Snapshot, (snapshot.map Placement.range).Nodup →
    ∃ ring, keyspace.diagnosis scope snapshot = .ok ring

/-- Whether a snapshot has a report at a scope, and a range is met there. -/
def Keyspace.Achieves (keyspace : Keyspace) (scope : Scope) (snapshot : Snapshot)
    (range : TokenRange) : Prop :=
  ∃ ring, keyspace.diagnosis scope snapshot = .ok ring ∧ ring.Meets range

variable {keyspace : Keyspace} {scope : Scope} {required : UInt32} {snapshot : Snapshot}
  {range : TokenRange} {placement : Placement}

theorem Monitor.outcome_prepare (inScope : scope.check = .ok ())
    (requires : keyspace.requirement scope = .ok required) :
    (prepare keyspace scope).outcome = .ok ⟨keyspace, scope, required, inScope, requires⟩ := by
  rcases prepare_cases keyspace scope with
    ⟨_, outOfScope, _⟩ | ⟨_, _, failed, _⟩ | ⟨found, _, foundRequires, run⟩
  · rw [inScope] at outOfScope
    cases outOfScope
  · rw [requires] at failed
    cases failed
  · rw [requires] at foundRequires
    cases foundRequires
    rw [run]

namespace Keyspace

theorem diagnosis_exists (inScope : scope.check = .ok ())
    (requires : keyspace.requirement scope = .ok required)
    (distinct : (snapshot.map Placement.range).Nodup) :
    ∃ ring, keyspace.diagnosis scope snapshot = .ok ring ∧
      ring.ranges.toList.Perm
        (snapshot.map (Monitor.mk keyspace scope required inScope requires).assess) := by
  obtain ⟨ring, reported, listed⟩ :=
    Monitor.inspect_exists ⟨keyspace, scope, required, inScope, requires⟩ distinct
  refine ⟨ring, ?_, listed⟩
  rw [diagnosis, Monitor.outcome_prepare inScope requires]
  exact reported

theorem diagnoses_of_requirement (inScope : scope.check = .ok ())
    (requires : keyspace.requirement scope = .ok required) : keyspace.Diagnoses scope := by
  intro snapshot distinct
  obtain ⟨ring, diagnosed, _⟩ := diagnosis_exists inScope requires distinct
  exact ⟨ring, diagnosed⟩

theorem check_of_achieves (achieved : keyspace.Achieves scope snapshot range) :
    scope.check = .ok () := by
  obtain ⟨ring, diagnosed, _⟩ := achieved
  unfold diagnosis at diagnosed
  rcases Monitor.prepare_cases keyspace scope with
    ⟨_, _, run⟩ | ⟨_, inScope, _⟩ | ⟨_, inScope, _⟩
  · rw [run] at diagnosed
    cases diagnosed
  · exact inScope
  · exact inScope

/-- A range is met exactly if it is listed with as many live nodes as are required. -/
theorem achieves_iff (inScope : scope.check = .ok ())
    (requires : keyspace.requirement scope = .ok required)
    (distinct : (snapshot.map Placement.range).Nodup) :
    keyspace.Achieves scope snapshot range ↔
      ∃ placement ∈ snapshot, placement.range = range ∧
        required.toNat ≤ placement.liveCount scope := by
  obtain ⟨ring, diagnosed, listed⟩ := diagnosis_exists inScope requires distinct
  simp only [Achieves, diagnosed, Except.ok.injEq, exists_eq_left', RingReport.Meets,
    listed.mem_iff, List.mem_map]
  constructor
  · intro met
    obtain ⟨_, ⟨placement, inSnapshot, rfl⟩, atRange, isMet⟩ := met
    exact ⟨placement, inSnapshot, atRange, (Monitor.isMet_assess_iff _ placement).mp isMet⟩
  · intro met
    obtain ⟨placement, inSnapshot, atRange, enough⟩ := met
    exact ⟨_, ⟨placement, inSnapshot, rfl⟩, atRange,
      (Monitor.isMet_assess_iff _ placement).mpr enough⟩

theorem achieves_range_iff (inScope : scope.check = .ok ())
    (requires : keyspace.requirement scope = .ok required)
    (distinct : (snapshot.map Placement.range).Nodup) (listed : placement ∈ snapshot) :
    keyspace.Achieves scope snapshot placement.range ↔
      required.toNat ≤ placement.liveCount scope := by
  rw [achieves_iff inScope requires distinct]
  constructor
  · intro met
    obtain ⟨found, inSnapshot, sameRange, enough⟩ := met
    obtain rfl := List.inj_on_of_nodup_map distinct inSnapshot listed sameRange
    exact enough
  · intro enough
    exact ⟨placement, listed, rfl, enough⟩

/-- A ring is available exactly if there is a placement and the range of each is met. -/
theorem health_diagnosis_iff (inScope : scope.check = .ok ())
    (requires : keyspace.requirement scope = .ok required)
    (distinct : (snapshot.map Placement.range).Nodup) :
    (keyspace.diagnosis scope snapshot).map health = .ok .available ↔
      snapshot ≠ [] ∧ ∀ placement ∈ snapshot,
        keyspace.Achieves scope snapshot placement.range := by
  obtain ⟨ring, diagnosed, listed⟩ := diagnosis_exists inScope requires distinct
  rw [diagnosed, Except.map, Except.ok.injEq, (Monitor.health_of_listed listed).2.1]
  refine and_congr_right fun _ => forall₂_congr fun placement inSnapshot => ?_
  exact (achieves_range_iff inScope requires distinct inSnapshot).symm

end Keyspace

end RingHealth
