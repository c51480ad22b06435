import Mathlib.Order.Bounds.Defs
import RingHealth.Proofs.Obstacles

namespace RingHealth

/-- Whether a datacenter has a number of replicas.  A single factor holds for every name, and
otherwise the name has to be listed exactly. -/
def Replication.HasFactor : Replication → String → Nat → Prop
  | simple factor, _, replicas => replicas = factor.toNat
  | networkTopology factors, datacenter, replicas =>
      ∃ factor, (datacenter, factor) ∈ factors.toList ∧ replicas = factor.toNat

/-- How many replicas a scope requires, or why that cannot be said, whether or not its datacenter
suits its level. -/
inductive Keyspace.Requires (keyspace : Keyspace) : Scope → Except Fault Nat → Prop where
  | one {level : Level} {datacenter : Option String} (atLevel : level ∈ [.any, .one]) :
      Requires keyspace ⟨level, datacenter⟩ (.ok 1)
  | two {datacenter : Option String} : Requires keyspace ⟨.two, datacenter⟩ (.ok 2)
  | three {datacenter : Option String} : Requires keyspace ⟨.three, datacenter⟩ (.ok 3)
  | quorum {level : Level} {datacenter : Option String} (atLevel : level ∈ [.quorum, .serial])
      (fits : keyspace.replication.exactSum < UInt32.size) :
      Requires keyspace ⟨level, datacenter⟩ (.ok (keyspace.replication.exactSum / 2 + 1))
  | all {datacenter : Option String} (fits : keyspace.replication.exactSum < UInt32.size) :
      Requires keyspace ⟨.all, datacenter⟩ (.ok keyspace.replication.exactSum)
  | overflow {level : Level} {datacenter : Option String}
      (atLevel : level ∈ [.quorum, .serial, .all])
      (large : UInt32.size ≤ keyspace.replication.exactSum) :
      Requires keyspace ⟨level, datacenter⟩
        (.error (.invalidArgument (.factorOverflow keyspace.name)))
  | uncountable {level : Level} (atLevel : level ∈ [.localOne, .localQuorum, .localSerial]) :
      Requires keyspace ⟨level, none⟩ (.error (.invalidArgument (.uncountable level)))
  | unreplicated {level : Level} {datacenter : String}
      (atLevel : level ∈ [.localOne, .localQuorum, .localSerial])
      (absent : ∀ replicas, ¬ keyspace.replication.HasFactor datacenter replicas) :
      Requires keyspace ⟨level, some datacenter⟩
        (.error (.unknownDatacenter keyspace.name datacenter))
  | localOne {datacenter : String} {replicas : Nat}
      (replicated : keyspace.replication.HasFactor datacenter replicas) :
      Requires keyspace ⟨.localOne, some datacenter⟩ (.ok 1)
  | localQuorum {level : Level} {datacenter : String} {replicas : Nat}
      (atLevel : level ∈ [.localQuorum, .localSerial])
      (replicated : keyspace.replication.HasFactor datacenter replicas) :
      Requires keyspace ⟨level, some datacenter⟩ (.ok (replicas / 2 + 1))
  | unsupported {datacenter : Option String} :
      Requires keyspace ⟨.eachQuorum, datacenter⟩ (.error (.unsupportedLevel .eachQuorum))

variable {keyspace : Keyspace} {scope : Scope} {level : Level} {datacenter : String}
  {result : Except Fault Nat} {replicas : Nat}

theorem Replication.hasFactor_iff {replication : Replication} :
    replication.HasFactor datacenter replicas ↔
      ∃ factor, replication.factorIn? datacenter = some factor ∧ replicas = factor.toNat := by
  cases replication with
  | simple factor => simp [HasFactor, factorIn?]
  | networkTopology factors => simp only [HasFactor, factorIn?_eq_some_iff]

theorem Replication.factorIn?_eq_none_of_not_hasFactor {replication : Replication}
    (absent : ∀ replicas, ¬ replication.HasFactor datacenter replicas) :
    replication.factorIn? datacenter = none := by
  rw [Option.eq_none_iff_forall_ne_some]
  intro factor found
  exact absent factor.toNat (hasFactor_iff.mpr ⟨factor, found, rfl⟩)

theorem isLeast_half (replicas : Nat) :
    IsLeast {number | replicas < 2 * number} (replicas / 2 + 1) := by
  constructor
  · change replicas < 2 * (replicas / 2 + 1)
    omega
  · intro number enough
    change replicas < 2 * number at enough
    omega

namespace Keyspace

theorem Requires.requirement_eq (requires : keyspace.Requires scope result) :
    (keyspace.requirement scope).map UInt32.toNat = result := by
  cases requires with
  | one atLevel =>
      simp only [List.mem_cons, List.not_mem_nil, or_false] at atLevel
      rcases atLevel with rfl | rfl <;> rfl
  | two | three | unsupported => rfl
  | quorum atLevel fits =>
      obtain ⟨total, sum, exactly⟩ := Replication.factorSum?_exists fits
      rw [requirement_of_sum atLevel sum, exactly, ← toNat_majority]
      rfl
  | all fits =>
      obtain ⟨total, sum, exactly⟩ := Replication.factorSum?_exists fits
      rw [requirement_of_all rfl sum, exactly]
      rfl
  | overflow atLevel large =>
      have failed := overallFactor_eq_error_iff.mpr ⟨large, rfl⟩
      rw [requirement_eq_error_iff.mpr (.inr (.inl ⟨atLevel, failed⟩))]
      rfl
  | uncountable atLevel =>
      rw [requirement_eq_error_iff.mpr (.inr (.inr ⟨atLevel, rfl⟩))]
      rfl
  | unreplicated atLevel absent =>
      have unknown := Replication.factorIn?_eq_none_of_not_hasFactor absent
      rw [requirement_eq_error_iff.mpr (.inr (.inr ⟨atLevel,
        (localFactor_eq_error_iff rfl).mpr ⟨unknown, rfl⟩⟩))]
      rfl
  | localOne replicated =>
      obtain ⟨factor, found, _⟩ := Replication.hasFactor_iff.mp replicated
      simp [requirement, localFactor, found, Except.map]
  | localQuorum atLevel replicated =>
      obtain ⟨factor, found, rfl⟩ := Replication.hasFactor_iff.mp replicated
      rw [requirement_of_factor atLevel rfl found, ← toNat_majority]
      rfl

theorem requires_local_exists
    (counted : ∀ replicas, keyspace.replication.HasFactor datacenter replicas →
      ∃ result, keyspace.Requires ⟨level, some datacenter⟩ result)
    (atLevel : level ∈ [.localOne, .localQuorum, .localSerial]) :
    ∃ result, keyspace.Requires ⟨level, some datacenter⟩ result := by
  by_cases replicated : ∃ replicas, keyspace.replication.HasFactor datacenter replicas
  · obtain ⟨replicas, replicated⟩ := replicated
    exact counted replicas replicated
  · exact ⟨_, .unreplicated atLevel fun replicas found => replicated ⟨replicas, found⟩⟩

theorem requires_exists (keyspace : Keyspace) (scope : Scope) :
    ∃ result, keyspace.Requires scope result := by
  obtain ⟨level, datacenter⟩ := scope
  have fitsOrNot := Nat.lt_or_ge keyspace.replication.exactSum UInt32.size
  cases level with
  | any | one => exact ⟨_, .one (by decide)⟩
  | two => exact ⟨_, .two⟩
  | three => exact ⟨_, .three⟩
  | quorum | serial =>
      rcases fitsOrNot with fits | large
      · exact ⟨_, .quorum (by decide) fits⟩
      · exact ⟨_, .overflow (by decide) large⟩
  | all =>
      rcases fitsOrNot with fits | large
      · exact ⟨_, .all fits⟩
      · exact ⟨_, .overflow (by decide) large⟩
  | localOne =>
      cases datacenter with
      | none => exact ⟨_, .uncountable (by decide)⟩
      | some datacenter =>
          exact requires_local_exists (fun _ replicated => ⟨_, .localOne replicated⟩) (by decide)
  | localQuorum | localSerial =>
      cases datacenter with
      | none => exact ⟨_, .uncountable (by decide)⟩
      | some datacenter =>
          exact requires_local_exists
            (fun _ replicated => ⟨_, .localQuorum (by decide) replicated⟩) (by decide)
  | eachQuorum => exact ⟨_, .unsupported⟩

theorem requirement_eq_iff_requires :
    (keyspace.requirement scope).map UInt32.toNat = result ↔ keyspace.Requires scope result := by
  constructor
  · rintro rfl
    obtain ⟨result, requires⟩ := keyspace.requires_exists scope
    rw [requires.requirement_eq]
    exact requires
  · exact Requires.requirement_eq

theorem requirement_eq_of_wide (wide : level ∉ [.localOne, .localQuorum, .localSerial])
    (datacenter other : Option String) :
    keyspace.requirement ⟨level, datacenter⟩ = keyspace.requirement ⟨level, other⟩ := by
  cases level with
  | any | one | two | three | quorum | all | eachQuorum | serial => rfl
  | localOne | localQuorum | localSerial => simp at wide

theorem Requires.isLeast_quorum {datacenter : Option String} {number : Nat}
    (requires : keyspace.Requires ⟨level, datacenter⟩ (.ok number))
    (atLevel : level ∈ [.quorum, .serial]) :
    IsLeast {number | keyspace.replication.exactSum < 2 * number} number := by
  cases requires with
  | quorum _ _ => exact isLeast_half _
  | one other => cases level <;> simp at other atLevel
  | localQuorum other _ => cases level <;> simp at other atLevel
  | two | three | all | localOne => simp at atLevel

theorem Requires.isLeast_localQuorum {number : Nat}
    (requires : keyspace.Requires ⟨level, some datacenter⟩ (.ok number))
    (atLevel : level ∈ [.localQuorum, .localSerial]) :
    ∃ replicas, keyspace.replication.HasFactor datacenter replicas ∧
      IsLeast {number | replicas < 2 * number} number := by
  cases requires with
  | localQuorum _ replicated => exact ⟨_, replicated, isLeast_half _⟩
  | one other => cases level <;> simp at other atLevel
  | quorum other _ => cases level <;> simp at other atLevel
  | two | three | all | localOne => simp at atLevel

/-- A requirement is what the rules say, and every scope has exactly one.  The datacenter matters
for the datacenter-local levels only.  A quorum is the least number that is more than half of the
replicas, and neither its arithmetic nor an addition of factors ever exceeds a count. -/
theorem requirement_exact (keyspace : Keyspace) :
    (∀ scope result, (keyspace.requirement scope).map UInt32.toNat = result ↔
      keyspace.Requires scope result) ∧
    (∀ level ∉ [.localOne, .localQuorum, .localSerial], ∀ datacenter other,
      keyspace.requirement ⟨level, datacenter⟩ = keyspace.requirement ⟨level, other⟩) ∧
    (∀ level ∈ [.quorum, .serial], ∀ datacenter required,
      keyspace.requirement ⟨level, datacenter⟩ = .ok required →
      IsLeast {number | keyspace.replication.exactSum < 2 * number} required.toNat) ∧
    (∀ level ∈ [.localQuorum, .localSerial], ∀ datacenter required,
      keyspace.requirement ⟨level, some datacenter⟩ = .ok required →
      ∃ replicas, keyspace.replication.HasFactor datacenter replicas ∧
        IsLeast {number | replicas < 2 * number} required.toNat) ∧
    (∀ replicas : UInt32, (majority replicas).toNat = replicas.toNat / 2 + 1) ∧
    ∀ first second sum, Replication.addCounts? first second = some sum →
      sum.toNat = first.toNat + second.toNat := by
  refine ⟨fun scope result => requirement_eq_iff_requires, fun level => requirement_eq_of_wide,
    ?_, ?_, toNat_majority, ?_⟩
  · intro level atLevel datacenter required requires
    exact (requirement_eq_iff_requires.mp (congrArg _ requires)).isLeast_quorum atLevel
  · intro level atLevel datacenter required requires
    exact (requirement_eq_iff_requires.mp (congrArg _ requires)).isLeast_localQuorum atLevel
  · intro first second sum added
    exact (Replication.addCounts?_eq_some_iff.mp added).symm

/-- Factors whose sum is one more than the greatest count leave the datacenters their quorums, also
in the one with no more than a single replica. -/
theorem requirement_exact_overflow :
    Keyspace.requirement ⟨"ks", .ofFactors [("x", 4294967295), ("y", 1)]⟩ ⟨.quorum, some "x"⟩ =
      .error (.invalidArgument (.factorOverflow "ks")) ∧
    Keyspace.requirement ⟨"ks", .ofFactors [("x", 4294967295), ("y", 1)]⟩ ⟨.quorum, none⟩ =
      .error (.invalidArgument (.factorOverflow "ks")) ∧
    Keyspace.Requires ⟨"ks", .ofFactors [("x", 4294967295), ("y", 1)]⟩ ⟨.localQuorum, some "x"⟩
      (.ok 2147483648) ∧
    (∃ replicas, Replication.HasFactor (.ofFactors [("x", 4294967295), ("y", 1)]) "y" replicas ∧
      IsLeast {number | replicas < 2 * number} 1) ∧
    IsLeast {number | Replication.exactSum (.simple 4) < 2 * number} 3 ∧
    (4294967295 : UInt32).toNat = (4294967294 : UInt32).toNat + (1 : UInt32).toNat := by
  obtain ⟨exact, wide, _, quorumIn, _, exactly⟩ :=
    requirement_exact ⟨"ks", .ofFactors [("x", 4294967295), ("y", 1)]⟩
  obtain ⟨_, _, quorum, _⟩ := requirement_exact ⟨"ks", .simple 4⟩
  have overflow : Keyspace.requirement ⟨"ks", .ofFactors [("x", 4294967295), ("y", 1)]⟩
      ⟨.quorum, none⟩ = .error (.invalidArgument (.factorOverflow "ks")) := by
    decide
  refine ⟨(wide .quorum (by decide) (some "x") none).trans overflow, overflow,
    (exact ⟨.localQuorum, some "x"⟩ _).mp (by decide),
    quorumIn .localQuorum (by decide) "y" 1 (by decide),
    quorum .quorum (by decide) none 3 (by decide), exactly _ _ _ (by decide)⟩

end Keyspace

end RingHealth
