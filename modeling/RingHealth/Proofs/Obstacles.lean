import RingHealth.Proofs.FactorSum
import RingHealth.Proofs.Inspection
import RingHealth.Proofs.LiveNodes

namespace RingHealth

/-- How the datacenter of a scope contradicts its level. -/
inductive Scope.Contradicts : Scope → ArgumentFault → Prop where
  | missing {level : Level} (isLocal : level ∈ [.localOne, .localQuorum, .localSerial]) :
      Contradicts ⟨level, none⟩ (.noDatacenter level)
  | blank {level : Level} {datacenter : String}
      (isLocal : level ∈ [.localOne, .localQuorum, .localSerial])
      (blank : ∀ c ∈ datacenter.toList, Text.isBlank c = true) :
      Contradicts ⟨level, some datacenter⟩ .blankDatacenter
  | needless {level : Level} {datacenter : String}
      (notLocal : level ∉ [.localOne, .localQuorum, .localSerial]) :
      Contradicts ⟨level, some datacenter⟩ (.needlessDatacenter datacenter level)

/-- The obstacles to a monitor, with the place of each in the order in which they are looked
for, and the faults that they are reported as. -/
inductive Obstacle (keyspace : Keyspace) (scope : Scope) : Nat → Fault → Prop where
  | contradiction {reason : ArgumentFault} (contradicts : scope.Contradicts reason) :
      Obstacle keyspace scope 0 (.invalidArgument reason)
  | unsupported (atLevel : scope.level = .eachQuorum) :
      Obstacle keyspace scope 1 (.unsupportedLevel .eachQuorum)
  | overflow (atLevel : scope.level ∈ [.quorum, .serial, .all])
      (large : UInt32.size ≤ keyspace.replication.exactSum) :
      Obstacle keyspace scope 2 (.invalidArgument (.factorOverflow keyspace.name))
  | unreplicated {datacenter : String} {factors : Table (String × UInt32)}
      (atLevel : scope.level ∈ [.localOne, .localQuorum, .localSerial])
      (given : scope.datacenter = some datacenter)
      (placed : keyspace.replication = .networkTopology factors)
      (absent : ∀ entry ∈ factors.toList, entry.1 ≠ datacenter) :
      Obstacle keyspace scope 3 (.unknownDatacenter keyspace.name datacenter)

variable {keyspace : Keyspace} {scope : Scope} {fault : Fault} {datacenter : String}

namespace Scope

theorem Contradicts.check_eq {reason : ArgumentFault} (contradicts : scope.Contradicts reason) :
    scope.check = .error (.invalidArgument reason) := by
  cases contradicts with
  | missing isLocal => simp [check, (Level.isLocal_iff _).mpr isLocal]
  | blank isLocal blank =>
      simpa [check, (Level.isLocal_iff _).mpr isLocal, Text.allBlank] using blank
  | needless notLocal =>
      rw [← Level.isLocal_iff, Bool.not_eq_true] at notLocal
      simp [check, notLocal]

theorem contradicts_of_check_error (refused : scope.check = .error fault) :
    ∃ reason, scope.Contradicts reason ∧ fault = .invalidArgument reason := by
  obtain ⟨level, datacenter⟩ := scope
  unfold check at refused
  split at refused
  · rename_i isLocal given
    cases refused
    cases given
    exact ⟨_, .missing ((Level.isLocal_iff _).mp isLocal), rfl⟩
  · rename_i name isLocal given
    split at refused
    · rename_i blank
      cases refused
      cases given
      exact ⟨_, .blank ((Level.isLocal_iff _).mp isLocal) (List.all_eq_true.mp blank), rfl⟩
    · cases refused
  · rename_i name notLocal given
    cases refused
    cases given
    refine ⟨_, .needless fun atLevel => ?_, rfl⟩
    rw [(Level.isLocal_iff _).mpr atLevel] at notLocal
    contradiction
  · cases refused

end Scope

namespace Keyspace

theorem overallFactor_eq_error_iff :
    keyspace.overallFactor = .error fault ↔
      UInt32.size ≤ keyspace.replication.exactSum ∧
        fault = .invalidArgument (.factorOverflow keyspace.name) := by
  rw [← Replication.factorSum?_eq_none_iff, overallFactor]
  cases keyspace.replication.factorSum? <;> simp [eq_comm]

theorem localFactor_eq_error_iff (given : scope.datacenter = some datacenter) :
    keyspace.localFactor scope = .error fault ↔
      keyspace.replication.factorIn? datacenter = none ∧
        fault = .unknownDatacenter keyspace.name datacenter := by
  rw [localFactor, given]
  dsimp only
  cases keyspace.replication.factorIn? datacenter <;> simp [eq_comm]

/-- Which factor a requirement is made of depends on the level, and it fails where that
factor does. -/
theorem requirement_eq_error_iff :
    keyspace.requirement scope = .error fault ↔
      scope.level = .eachQuorum ∧ fault = .unsupportedLevel .eachQuorum ∨
      scope.level ∈ [.quorum, .serial, .all] ∧ keyspace.overallFactor = .error fault ∨
      scope.level ∈ [.localOne, .localQuorum, .localSerial] ∧
        keyspace.localFactor scope = .error fault := by
  unfold requirement
  cases scope.level <;> cases keyspace.overallFactor <;> cases keyspace.localFactor scope <;>
    simp [Except.map, eq_comm]

end Keyspace

namespace Obstacle

theorem of_requirement_error (inScope : scope.check = .ok ())
    (failed : keyspace.requirement scope = .error fault) :
    ∃ place, 0 < place ∧ Obstacle keyspace scope place fault := by
  rcases Keyspace.requirement_eq_error_iff.mp failed with unsupported | overflow | unreplicated
  · obtain ⟨atLevel, rfl⟩ := unsupported
    exact ⟨1, by decide, .unsupported atLevel⟩
  · obtain ⟨atLevel, overflow⟩ := overflow
    obtain ⟨large, rfl⟩ := Keyspace.overallFactor_eq_error_iff.mp overflow
    exact ⟨2, by decide, .overflow atLevel large⟩
  · obtain ⟨atLevel, unreplicated⟩ := unreplicated
    have given := Scope.isLocal_of_check inScope
    rw [(Level.isLocal_iff _).mpr atLevel] at given
    obtain ⟨datacenter, given⟩ := Option.isSome_iff_exists.mp given.symm
    obtain ⟨absent, rfl⟩ := (Keyspace.localFactor_eq_error_iff given).mp unreplicated
    cases placed : keyspace.replication with
    | simple factor =>
        rw [placed] at absent
        cases absent
    | networkTopology factors =>
        rw [placed, Replication.factorIn?_eq_none_iff] at absent
        exact ⟨3, by decide, .unreplicated atLevel given placed absent⟩

variable {place : Nat}

theorem later_of_check (obstacle : Obstacle keyspace scope place fault)
    (inScope : scope.check = .ok ()) : 0 < place := by
  cases obstacle with
  | contradiction contradicts =>
      rw [contradicts.check_eq] at inScope
      cases inScope
  | unsupported | overflow | unreplicated => decide

theorem requirement_eq (obstacle : Obstacle keyspace scope place fault)
    (later : 0 < place) : keyspace.requirement scope = .error fault := by
  rw [Keyspace.requirement_eq_error_iff]
  cases obstacle with
  | contradiction => contradiction
  | unsupported atLevel => exact .inl ⟨atLevel, rfl⟩
  | overflow atLevel large =>
      exact .inr (.inl ⟨atLevel, Keyspace.overallFactor_eq_error_iff.mpr ⟨large, rfl⟩⟩)
  | unreplicated atLevel given placed absent =>
      refine .inr (.inr ⟨atLevel, (Keyspace.localFactor_eq_error_iff given).mpr ⟨?_, rfl⟩⟩)
      rw [placed, Replication.factorIn?_eq_none_iff]
      exact absent

/-- After the scope there is one obstacle at most, because the others are about different
levels. -/
theorem place_unique {first second : Nat} {other : Fault}
    (one : Obstacle keyspace scope first fault) (another : Obstacle keyspace scope second other)
    (firstLater : 0 < first) (secondLater : 0 < second) : first = second := by
  cases one <;> cases another <;> grind

end Obstacle

namespace Monitor

variable {monitor : Monitor} {snapshot : Snapshot} {ring : RingReport}

theorem outcome_prepare_eq_error_iff :
    (prepare keyspace scope).outcome = .error fault ↔
      scope.check = .error fault ∨
        scope.check = .ok () ∧ keyspace.requirement scope = .error fault := by
  rcases prepare_cases keyspace scope with
    ⟨found, outOfScope, run⟩ | ⟨found, inScope, failed, run⟩ | ⟨_, inScope, requires, run⟩
  · simp [run, Traced.fail, outOfScope]
  · simp [run, Traced.fail, inScope, failed]
  · simp [run, inScope, requires]

/-- A monitor is refused for the first obstacle that there is. -/
theorem outcome_prepare_eq_error_iff_obstacle :
    (prepare keyspace scope).outcome = .error fault ↔
      ∃ place, Obstacle keyspace scope place fault ∧
        ∀ other reason, Obstacle keyspace scope other reason → place ≤ other := by
  rw [outcome_prepare_eq_error_iff]
  constructor
  · intro failed
    rcases failed with outOfScope | unmet
    · obtain ⟨reason, contradicts, rfl⟩ := Scope.contradicts_of_check_error outOfScope
      exact ⟨0, .contradiction contradicts, fun other _ _ => Nat.zero_le other⟩
    · obtain ⟨inScope, failed⟩ := unmet
      obtain ⟨place, later, obstacle⟩ := Obstacle.of_requirement_error inScope failed
      refine ⟨place, obstacle, ?_⟩
      intro other reason another
      exact Nat.le_of_eq (obstacle.place_unique another later (another.later_of_check inScope))
  · intro found
    obtain ⟨place, obstacle, first⟩ := found
    cases checked : scope.check with
    | ok => exact .inr ⟨rfl, obstacle.requirement_eq (obstacle.later_of_check checked)⟩
    | error outOfScope =>
        obtain ⟨reason, contradicts, rfl⟩ := Scope.contradicts_of_check_error checked
        obtain rfl := Nat.le_zero.mp (first 0 _ (.contradiction contradicts))
        cases obstacle with
        | contradiction other => exact .inl (checked.symm.trans other.check_eq)

theorem prepare_fails_of_obstacle {place : Nat} (obstacle : Obstacle keyspace scope place fault) :
    ∃ reason, (prepare keyspace scope).outcome = .error reason := by
  simp only [outcome_prepare_eq_error_iff]
  cases checked : scope.check with
  | error outOfScope => exact ⟨outOfScope, .inl rfl⟩
  | ok => exact ⟨fault, .inr ⟨rfl, obstacle.requirement_eq (obstacle.later_of_check checked)⟩⟩

theorem outcome_prepare_eq_ok_iff :
    (∃ monitor, (prepare keyspace scope).outcome = .ok monitor) ↔
      ∀ place fault, ¬ Obstacle keyspace scope place fault := by
  cases prepared : (prepare keyspace scope).outcome with
  | ok monitor =>
      simp only [Except.ok.injEq, exists_eq', true_iff]
      intro place fault obstacle
      obtain ⟨reason, failed⟩ := prepare_fails_of_obstacle obstacle
      rw [prepared] at failed
      cases failed
  | error fault =>
      obtain ⟨place, obstacle, _⟩ := outcome_prepare_eq_error_iff_obstacle.mp prepared
      simp only [reduceCtorEq, exists_false, false_iff]
      intro free
      exact free place fault obstacle

theorem outcome_inspect_eq_ok_iff :
    (∃ ring, (monitor.inspect snapshot).outcome = .ok ring) ↔
      (snapshot.map Placement.range).Nodup := by
  rcases monitor.inspect_cases snapshot with reported | refused
  · obtain ⟨ring, distinct, _, _, _, run⟩ := reported
    simp [run, distinct]
  · obtain ⟨_, _, first, _, run⟩ := refused
    simp [run, first.not_nodup]

theorem outcome_inspect_eq_error_iff :
    (monitor.inspect snapshot).outcome = .error fault ↔
      ∃ index placement, FirstRepeat (snapshot.map Placement.range) index ∧
        snapshot[index]? = some placement ∧ fault = .duplicateRange placement.range := by
  rcases monitor.inspect_cases snapshot with reported | refused
  · obtain ⟨ring, distinct, _, _, _, run⟩ := reported
    simp only [run, reduceCtorEq, false_iff]
    intro found
    obtain ⟨_, _, first, _⟩ := found
    exact first.not_nodup distinct
  · obtain ⟨index, placement, first, atIndex, run⟩ := refused
    simp only [run, Except.error.injEq]
    constructor
    · intro same
      exact ⟨index, placement, first, atIndex, same.symm⟩
    · intro found
      obtain ⟨other, another, again, atOther, rfl⟩ := found
      obtain rfl := first.unique again
      obtain rfl := Option.some.inj (atIndex.symm.trans atOther)
      rfl

theorem scope_of_inspect (reported : (monitor.inspect snapshot).outcome = .ok ring) :
    ring.scope = monitor.scope := by
  rw [outcome_inspect] at reported
  obtain ⟨_, _, _, sameScope, _⟩ := RingReport.build_ok reported
  exact sameScope

/-- Preparing a monitor fails exactly where there is an obstacle, and with the first one.  What
is prepared then fails on a snapshot exactly if that repeats a range, at the first range that
has occurred before; that the scope is checked once more when the report is built makes no
difference.  A report has a datacenter exactly at the datacenter-local levels. -/
theorem prepare_faults (keyspace : Keyspace) (scope : Scope) :
    (∀ fault, (prepare keyspace scope).outcome = .error fault ↔
      ∃ place, Obstacle keyspace scope place fault ∧
        ∀ other reason, Obstacle keyspace scope other reason → place ≤ other) ∧
    ((∃ monitor, (prepare keyspace scope).outcome = .ok monitor) ↔
      ∀ place fault, ¬ Obstacle keyspace scope place fault) ∧
    ∀ monitor, (prepare keyspace scope).outcome = .ok monitor → ∀ snapshot : Snapshot,
      (monitor.inspect snapshot).outcome =
        RingReport.build keyspace scope (snapshot.map monitor.assess) ∧
      ((∃ ring, (monitor.inspect snapshot).outcome = .ok ring) ↔
        (snapshot.map Placement.range).Nodup) ∧
      (∀ fault, (monitor.inspect snapshot).outcome = .error fault ↔
        ∃ index placement, FirstRepeat (snapshot.map Placement.range) index ∧
          snapshot[index]? = some placement ∧ fault = .duplicateRange placement.range) ∧
      ∀ ring, (monitor.inspect snapshot).outcome = .ok ring → ring.scope = scope ∧
        (ring.scope.datacenter.isSome = true ↔
          ring.scope.level ∈ [.localOne, .localQuorum, .localSerial]) := by
  refine ⟨fun fault => outcome_prepare_eq_error_iff_obstacle, outcome_prepare_eq_ok_iff, ?_⟩
  intro monitor prepared snapshot
  obtain ⟨rfl, rfl, _⟩ := prepare_of_ok prepared
  refine ⟨monitor.outcome_inspect snapshot, outcome_inspect_eq_ok_iff,
    fun fault => outcome_inspect_eq_error_iff, ?_⟩
  intro ring reported
  refine ⟨scope_of_inspect reported, ?_⟩
  rw [← Scope.isLocal_of_check ring.inScope, Level.isLocal_iff]

/-- Of two obstacles the earlier one is reported: that a datacenter is blank, and not that it has
no replicas. -/
theorem prepare_faults_blank_first :
    Obstacle ⟨"ks", .ofFactors [("x", 3)]⟩ ⟨.localQuorum, some " "⟩ 3
      (.unknownDatacenter "ks" " ") ∧
    (prepare ⟨"ks", .ofFactors [("x", 3)]⟩ ⟨.localQuorum, some " "⟩).outcome =
      .error (.invalidArgument .blankDatacenter) := by
  refine ⟨.unreplicated (by decide) rfl rfl (by decide), ?_⟩
  refine ((prepare_faults _ _).1 _).mpr ⟨0, .contradiction (.blank ?_ ?_), ?_⟩
  · decide
  · exact List.all_eq_true.mp (by decide)
  · exact fun other _ _ => Nat.zero_le other

end Monitor

end RingHealth
