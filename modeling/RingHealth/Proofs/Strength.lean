import RingHealth.Proofs.Diagnosis
import RingHealth.Proofs.FactorSum

namespace RingHealth

variable {keyspace : Keyspace} {scope first second strong weak : Scope} {required : UInt32}
  {snapshot : Snapshot} {placement : Placement} {monitor : Monitor}

namespace Keyspace

/-- Whether, of two checks that can both be made, the reports on every snapshot of different ranges
stand in a relation. -/
def Compares (keyspace : Keyspace) (first second : Scope)
    (relation : RingReport → RingReport → Prop) : Prop :=
  ∀ monitor other, (Monitor.prepare keyspace first).outcome = .ok monitor →
    (Monitor.prepare keyspace second).outcome = .ok other →
    ∀ snapshot : Snapshot, (snapshot.map Placement.range).Nodup →
      ∃ firstRing secondRing, (monitor.inspect snapshot).outcome = .ok firstRing ∧
        (other.inspect snapshot).outcome = .ok secondRing ∧ relation firstRing secondRing

/-- Whether two scopes find the same health and the same shortfalls. -/
def Coincide (keyspace : Keyspace) (first second : Scope) : Prop :=
  keyspace.Compares first second fun ring other =>
    health ring = health other ∧ ring.shortfalls = other.shortfalls

/-- Whether a scope falls short wherever a weaker one does. -/
def Subsumes (keyspace : Keyspace) (strong weak : Scope) : Prop :=
  keyspace.Compares strong weak fun ring other =>
    other.shortRanges ⊆ ring.shortRanges ∧
      (health ring = .available → health other = .available)

theorem requires_of_prepare (prepared : (Monitor.prepare keyspace scope).outcome = .ok monitor) :
    monitor.scope = scope ∧ keyspace.requirement scope = .ok monitor.required := by
  obtain ⟨rfl, rfl, _⟩ := Monitor.prepare_of_ok prepared
  exact ⟨rfl, monitor.requires⟩

theorem coincide_of_requirement
    (sameRequirement : keyspace.requirement first = keyspace.requirement second)
    (alike : ∀ replica : Replica, replica.TakesPart first ↔ replica.TakesPart second) :
    keyspace.Coincide first second := by
  intro monitor other prepared otherPrepared snapshot distinct
  obtain ⟨rfl, requires⟩ := requires_of_prepare prepared
  obtain ⟨rfl, otherRequires⟩ := requires_of_prepare otherPrepared
  obtain ⟨ring, reported, listed⟩ := monitor.inspect_exists distinct
  obtain ⟨otherRing, otherReported, otherListed⟩ := other.inspect_exists distinct
  have sameRequired : monitor.required = other.required := by
    rw [sameRequirement, otherRequires] at requires
    exact (Except.ok.inj requires).symm
  have sameAssess : monitor.assess = other.assess := by
    funext placement
    apply Monitor.assess_congr rfl sameRequired
    ext node
    simp only [mem_liveNodes, alike]
  have sameRanges : ring.ranges = otherRing.ranges :=
    Table.ext_perm (listed.trans (sameAssess ▸ otherListed.symm))
  refine ⟨ring, otherRing, reported, otherReported, ?_, ?_⟩
  · rw [RingReport.health_eq_worst, RingReport.health_eq_worst, sameRanges]
  · rw [RingReport.shortfalls, RingReport.shortfalls, sameRanges]

/-- A level that counts no other nodes and requires no fewer of them is the stronger one. -/
theorem subsumes_of_requirement
    (wider : ∀ replica : Replica, replica.TakesPart strong → replica.TakesPart weak)
    (fewer : ∀ more less, keyspace.requirement strong = .ok more →
      keyspace.requirement weak = .ok less → less.toNat ≤ more.toNat) :
    keyspace.Subsumes strong weak := by
  intro monitor other prepared otherPrepared snapshot distinct
  obtain ⟨rfl, requires⟩ := requires_of_prepare prepared
  obtain ⟨rfl, otherRequires⟩ := requires_of_prepare otherPrepared
  obtain ⟨ring, reported, listed⟩ := monitor.inspect_exists distinct
  obtain ⟨otherRing, otherReported, otherListed⟩ := other.inspect_exists distinct
  refine ⟨ring, otherRing, reported, otherReported,
    Monitor.noWorse_of_kept listed otherListed (.refl _) ?_⟩
  intro placement inSnapshot same inSnapshotToo sameRange met
  obtain rfl := List.inj_on_of_nodup_map distinct inSnapshotToo inSnapshot sameRange
  have counted : same.liveCount monitor.scope ≤ same.liveCount other.scope :=
    Finset.card_le_card (liveNodes_subset_of_wider wider)
  exact (fewer _ _ requires otherRequires).trans (met.trans counted)

theorem overallFactor_eq_ok_iff :
    keyspace.overallFactor = .ok required ↔
      keyspace.replication.exactSum = required.toNat := by
  rw [← Replication.factorSum?_eq_some_iff, overallFactor]
  cases keyspace.replication.factorSum? <;> simp

theorem one_le_requirement (counts : scope.level = .all → 1 ≤ keyspace.replication.exactSum)
    (requires : keyspace.requirement scope = .ok required) : 1 ≤ required.toNat := by
  rw [requirement_eq_ok_iff] at requires
  obtain ⟨level, datacenter⟩ := scope
  cases level with
  | any | one | two | three =>
      subst requires
      decide
  | all =>
      rw [← overallFactor_eq_ok_iff.mp requires]
      exact counts rfl
  | localOne =>
      obtain ⟨_, rfl⟩ := requires
      decide
  | quorum | serial | localQuorum | localSerial =>
      obtain ⟨_, _, rfl⟩ := requires
      rw [toNat_majority]
      omega
  | eachQuorum => contradiction

theorem subsumes_of_requires_one
    (one : ∀ required, keyspace.requirement weak = .ok required → required = 1)
    (wider : ∀ replica : Replica, replica.TakesPart strong → replica.TakesPart weak)
    (counts : strong.level = .all → 1 ≤ keyspace.replication.exactSum) :
    keyspace.Subsumes strong weak := by
  apply subsumes_of_requirement wider
  intro more less requires otherRequires
  rw [one less otherRequires]
  exact one_le_requirement counts requires

theorem all_subsumes_quorum (replicated : 1 ≤ keyspace.replication.exactSum) :
    keyspace.Subsumes ⟨.all, none⟩ ⟨.quorum, none⟩ := by
  apply subsumes_of_requirement (by simp [Replica.TakesPart])
  intro total quorum requires otherRequires
  obtain ⟨counted, sum, rfl⟩ := requirement_eq_ok_iff.mp otherRequires
  obtain rfl : total = counted :=
    Except.ok.inj ((requirement_eq_ok_iff.mp requires).symm.trans sum)
  rw [overallFactor_eq_ok_iff] at sum
  rw [toNat_majority]
  omega

/-- Without replicas `ALL` is achieved on a range where nobody is alive. -/
theorem not_all_subsumes (unreplicated : keyspace.requirement ⟨.all, none⟩ = .ok 0)
    (inScope : weak.check = .ok ()) (requires : keyspace.requirement weak = .ok 1) :
    ¬ keyspace.Subsumes ⟨.all, none⟩ weak := by
  intro subsumes
  obtain ⟨ring, other, reported, otherReported, _, stays⟩ :=
    subsumes _ _ (Monitor.outcome_prepare rfl unreplicated) (Monitor.outcome_prepare inScope requires)
      [⟨⟨Token.least, Token.least⟩, []⟩] (List.nodup_singleton _)
  obtain ⟨_, available, _⟩ := Monitor.health_of_listed (Monitor.listed_of_inspect reported)
  obtain ⟨_, _, unavailable⟩ := Monitor.health_of_listed (Monitor.listed_of_inspect otherReported)
  have healthy : health ring = .available := available.mpr (by simp)
  have dead : health other = .unavailable :=
    unavailable.mpr (by simp [Placement.liveCount, liveNodes])
  rw [stays healthy] at dead
  contradiction

theorem health_diagnosis_of_requires_none (inScope : scope.check = .ok ())
    (requires : keyspace.requirement scope = .ok 0)
    (distinct : (snapshot.map Placement.range).Nodup) (nonempty : snapshot ≠ []) :
    (keyspace.diagnosis scope snapshot).map health = .ok .available := by
  rw [health_diagnosis_iff inScope requires distinct]
  refine ⟨nonempty, ?_⟩
  intro placement listed
  rw [achieves_range_iff inScope requires distinct listed]
  exact Nat.zero_le _

theorem achieves_iff_alive (inScope : scope.check = .ok ()) (wide : scope.level.isLocal = false)
    (requires : keyspace.requirement scope = .ok 1)
    (distinct : (snapshot.map Placement.range).Nodup) (listed : placement ∈ snapshot) :
    keyspace.Achieves scope snapshot placement.range ↔
      ∃ replica ∈ placement.replicas, replica.alive = true := by
  rw [← Bool.not_eq_true, Level.isLocal_iff] at wide
  rw [achieves_range_iff inScope requires distinct listed, UInt32.toNat_one, Placement.liveCount,
    Finset.one_le_card]
  simp [Finset.Nonempty, mem_liveNodes, Replica.TakesPart, wide]

/-- Levels with the same requirement find the same, and a stronger level falls short wherever a
weaker one does.  That `ALL` is the strongest holds of keyspaces with replicas only: with none it is
achieved on every range, where the other levels still ask for a live node. -/
theorem levels_ordered (keyspace : Keyspace) (datacenter : String) :
    (keyspace.Coincide ⟨.serial, none⟩ ⟨.quorum, none⟩ ∧
      keyspace.Coincide ⟨.any, none⟩ ⟨.one, none⟩ ∧
      keyspace.Coincide ⟨.localSerial, some datacenter⟩ ⟨.localQuorum, some datacenter⟩) ∧
    (keyspace.Subsumes ⟨.three, none⟩ ⟨.two, none⟩ ∧
      keyspace.Subsumes ⟨.two, none⟩ ⟨.one, none⟩ ∧
      keyspace.Subsumes ⟨.quorum, none⟩ ⟨.one, none⟩ ∧
      keyspace.Subsumes ⟨.localQuorum, some datacenter⟩ ⟨.localOne, some datacenter⟩ ∧
      keyspace.Subsumes ⟨.localOne, some datacenter⟩ ⟨.one, none⟩) ∧
    (1 ≤ keyspace.replication.exactSum →
      keyspace.Subsumes ⟨.all, none⟩ ⟨.quorum, none⟩ ∧
      keyspace.Subsumes ⟨.all, none⟩ ⟨.one, none⟩) ∧
    (keyspace.replication.exactSum = 0 ↔
      keyspace.replication = .simple 0 ∨
        ∃ factors, keyspace.replication = .networkTopology factors ∧
          ∀ entry ∈ factors.toList, entry.2 = 0) ∧
    (keyspace.replication.exactSum = 0 →
      keyspace.requirement ⟨.all, none⟩ = .ok 0 ∧
      (∀ snapshot : Snapshot, (snapshot.map Placement.range).Nodup → snapshot ≠ [] →
        (keyspace.diagnosis ⟨.all, none⟩ snapshot).map health = .ok .available) ∧
      ∀ level ∈ [Level.quorum, .one],
        ¬ keyspace.Subsumes ⟨.all, none⟩ ⟨level, none⟩ ∧
        ∀ snapshot : Snapshot, (snapshot.map Placement.range).Nodup → ∀ placement ∈ snapshot,
          (keyspace.Achieves ⟨level, none⟩ snapshot placement.range ↔
            ∃ replica ∈ placement.replicas, replica.alive = true)) := by
  have one : ∀ required, keyspace.requirement ⟨.one, none⟩ = .ok required → required = 1 :=
    fun _ requires => requirement_eq_ok_iff.mp requires
  have localOne : ∀ required,
      keyspace.requirement ⟨.localOne, some datacenter⟩ = .ok required → required = 1 :=
    fun _ requires => (requirement_eq_ok_iff.mp requires).2
  refine ⟨⟨?_, ?_, ?_⟩, ⟨?_, ?_, ?_, ?_, ?_⟩, ?_, Replication.exactSum_eq_zero_iff, ?_⟩
  · exact coincide_of_requirement rfl (by simp [Replica.TakesPart])
  · exact coincide_of_requirement rfl (by simp [Replica.TakesPart])
  · exact coincide_of_requirement rfl (by simp [Replica.TakesPart])
  · apply subsumes_of_requirement (by simp [Replica.TakesPart])
    intro more less requiresThree requiresTwo
    obtain rfl : more = 3 := requirement_eq_ok_iff.mp requiresThree
    obtain rfl : less = 2 := requirement_eq_ok_iff.mp requiresTwo
    decide
  · exact subsumes_of_requires_one one (by simp [Replica.TakesPart]) (by simp)
  · exact subsumes_of_requires_one one (by simp [Replica.TakesPart]) (by simp)
  · exact subsumes_of_requires_one localOne (by simp [Replica.TakesPart]) (by simp)
  · exact subsumes_of_requires_one one (by simp +contextual [Replica.TakesPart]) (by simp)
  · intro replicated
    exact ⟨all_subsumes_quorum replicated,
      subsumes_of_requires_one one (by simp [Replica.TakesPart]) fun _ => replicated⟩
  · intro unreplicated
    have sum : keyspace.overallFactor = .ok 0 := overallFactor_eq_ok_iff.mpr unreplicated
    have requiresAll : keyspace.requirement ⟨.all, none⟩ = .ok 0 := requirement_eq_ok_iff.mpr sum
    have requiresOne : ∀ level ∈ [Level.quorum, .one],
        keyspace.requirement ⟨level, none⟩ = .ok 1 := by
      simp [requirement, sum, Except.map, majority]
    have wide : ∀ level ∈ [Level.quorum, .one], level.isLocal = false := by decide
    refine ⟨requiresAll, ?_, ?_⟩
    · intro snapshot distinct nonempty
      exact health_diagnosis_of_requires_none rfl requiresAll distinct nonempty
    · intro level asked
      have inScope := Scope.check_without_datacenter (wide level asked)
      exact ⟨not_all_subsumes requiresAll inScope (requiresOne level asked),
        fun snapshot distinct placement listed =>
          achieves_iff_alive inScope (wide level asked) (requiresOne level asked) distinct listed⟩

/-- Three live nodes are enough for all levels of three replicas; no live node is enough for `ALL`
of no replicas, and not for `ONE`. -/
theorem levels_ordered_three_and_none :
    (∃ ring, (Monitor.inspect ⟨⟨"ks", .simple 3⟩, ⟨.quorum, none⟩, 2, rfl, rfl⟩
        [⟨⟨⟨0⟩, ⟨0⟩⟩, [⟨"a", "x", true⟩, ⟨"b", "x", true⟩, ⟨"c", "y", true⟩]⟩]).outcome =
          .ok ring ∧
      health ring = .available) ∧
    ¬ Subsumes ⟨"ks", .ofFactors [("x", 0), ("y", 0)]⟩ ⟨.all, none⟩ ⟨.one, none⟩ := by
  obtain ⟨_, _, replicated, _⟩ := levels_ordered ⟨"ks", .simple 3⟩ "x"
  obtain ⟨_, _, _, _, unreplicated⟩ :=
    levels_ordered ⟨"ks", .ofFactors [("x", 0), ("y", 0)]⟩ "x"
  obtain ⟨allQuorum, _⟩ := replicated (by decide)
  obtain ⟨_, _, others⟩ := unreplicated (by decide)
  obtain ⟨ring, weaker, reported, weakerReported, _, stays⟩ :=
    allQuorum ⟨_, _, 3, rfl, rfl⟩ ⟨_, _, 2, rfl, rfl⟩ rfl rfl
      [⟨⟨⟨0⟩, ⟨0⟩⟩, [⟨"a", "x", true⟩, ⟨"b", "x", true⟩, ⟨"c", "y", true⟩]⟩] (by decide)
  obtain rfl := Except.ok.inj reported
  exact ⟨⟨weaker, weakerReported, stays (by decide)⟩, (others .one (by decide)).1⟩

end Keyspace

end RingHealth
