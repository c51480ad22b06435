import RingHealth.Proofs.Inspection
import RingHealth.Proofs.LiveNodes
import RingHealth.Proofs.Severity

namespace RingHealth

namespace Monitor

variable {monitor : Monitor} {snapshot : Snapshot} {ring : RingReport}

/-- The ring holds the assessments of the placements, so its health is that of the placements. -/
theorem health_of_listed (listed : ring.ranges.toList.Perm (snapshot.map monitor.assess)) :
    (health ring = .unknown ↔ snapshot = []) ∧
    (health ring = .available ↔ snapshot ≠ [] ∧ ∀ placement ∈ snapshot,
      monitor.required.toNat ≤ placement.liveCount monitor.scope) ∧
    (health ring = .unavailable ↔ ∃ placement ∈ snapshot,
      placement.liveCount monitor.scope < monitor.required.toNat) := by
  have empty : ring.ranges.toList = [] ↔ snapshot = [] := by
    rw [← List.length_eq_zero_iff, listed.length_eq, List.length_map, List.length_eq_zero_iff]
  refine ⟨ring.health_eq_unknown_iff.trans empty, ?_, ?_⟩
  · rw [ring.health_eq_available_iff, ne_eq, empty]
    refine and_congr_right fun _ => ?_
    simp only [listed.mem_iff, List.forall_mem_map, monitor.isMet_assess_iff]
  · rw [ring.health_eq_unavailable_iff]
    simp [listed.mem_iff, monitor.isMet_assess_eq_false_iff]

/-- A prepared monitor reports every snapshot of different ranges: one assessment for each
placement, in ascending order of the ranges, with the requirement of the keyspace and the
number of live nodes, which is cut off at the greatest count without any effect on what is
met.  The health of the ring follows from the exact numbers. -/
theorem inspect_verdict {keyspace : Keyspace} {scope : Scope}
    (prepared : (prepare keyspace scope).outcome = .ok monitor) (snapshot : Snapshot)
    (distinct : (snapshot.map Placement.range).Nodup) :
    keyspace.requirement scope = .ok monitor.required ∧
    (∀ placement, (monitor.assess placement).range = placement.range ∧
      (monitor.assess placement).required = monitor.required ∧
      (monitor.assess placement).alive.toNat = min (UInt32.size - 1) (placement.liveCount scope) ∧
      ((monitor.assess placement).isMet = true ↔
        monitor.required.toNat ≤ placement.liveCount scope)) ∧
    ∃ ring, (monitor.inspect snapshot).outcome = .ok ring ∧
      ring.keyspace = keyspace ∧ ring.scope = scope ∧
      ring.ranges.toList.Perm (snapshot.map monitor.assess) ∧
      (ring.ranges.toList.Pairwise fun earlier later => earlier.range.Precedes later.range) ∧
      (health ring = .unknown ↔ snapshot = []) ∧
      (health ring = .available ↔ snapshot ≠ [] ∧ ∀ placement ∈ snapshot,
        monitor.required.toNat ≤ placement.liveCount scope) ∧
      (health ring = .unavailable ↔ ∃ placement ∈ snapshot,
        placement.liveCount scope < monitor.required.toNat) := by
  obtain ⟨rfl, rfl, _⟩ := prepare_of_ok prepared
  refine ⟨monitor.requires, ?_, ?_⟩
  · intro placement
    exact ⟨rfl, rfl, monitor.toNat_alive_assess placement, monitor.isMet_assess_iff placement⟩
  · rw [← monitor.map_range_assess snapshot] at distinct
    obtain ⟨ring, built⟩ :=
      RingReport.build_of_nodup monitor.keyspace monitor.inScope distinct
    obtain ⟨_, _, sameKeyspace, sameScope, listed⟩ := RingReport.build_ok built
    exact ⟨ring, by rw [outcome_inspect, built], sameKeyspace, sameScope, listed,
      ring.ranges_ascending, health_of_listed listed⟩

/-- A node that is listed three times in contradictory states is one live node, and a node of
another datacenter is none. -/
theorem inspect_verdict_repeated_node :
    ∃ monitor ring,
      (prepare ⟨"ks", .ofFactors [("x", 3), ("y", 1)]⟩ ⟨.localQuorum, some "x"⟩).outcome =
        .ok monitor ∧
      (monitor.inspect [⟨⟨⟨0⟩, ⟨0⟩⟩, [⟨"a", "x", true⟩, ⟨"a", "x", false⟩, ⟨"a", "x", true⟩,
        ⟨"b", "y", true⟩]⟩]).outcome = .ok ring ∧
      health ring = .unavailable := by
  have prepared : (prepare ⟨"ks", .ofFactors [("x", 3), ("y", 1)]⟩
      ⟨.localQuorum, some "x"⟩).outcome = .ok ⟨_, _, 2, rfl, rfl⟩ := rfl
  obtain ⟨_, _, ring, reported, _, _, _, _, _, _, unavailable⟩ :=
    inspect_verdict prepared [⟨⟨⟨0⟩, ⟨0⟩⟩, [⟨"a", "x", true⟩, ⟨"a", "x", false⟩,
      ⟨"a", "x", true⟩, ⟨"b", "y", true⟩]⟩] (by decide)
  exact ⟨_, ring, rfl, reported, unavailable.mpr ⟨_, List.mem_singleton_self _, by decide⟩⟩

end Monitor

namespace RingReport

variable {ring other : RingReport}

def shortRanges (ring : RingReport) : List TokenRange := ring.shortfalls.map RangeReport.range

theorem mem_shortRanges_iff {range : TokenRange} :
    range ∈ ring.shortRanges ↔
      ∃ report ∈ ring.ranges.toList, report.isMet = false ∧ report.range = range := by
  simp [shortRanges, shortfalls, and_assoc]

theorem available_of_shortRanges_subset (subset : other.shortRanges ⊆ ring.shortRanges)
    (nonempty : other.ranges.toList ≠ []) (available : health ring = .available) :
    health other = .available := by
  obtain ⟨_, none⟩ := ring.health_eq_available_iff_shortfalls.mp available
  rw [shortRanges, shortRanges, none, List.map_nil, List.subset_nil, List.map_eq_nil_iff] at subset
  exact other.health_eq_available_iff_shortfalls.mpr ⟨nonempty, subset⟩

end RingReport

namespace Monitor

variable {first second : Monitor} {snapshot before after : Snapshot} {ring other : RingReport}

theorem assess_congr {placement changed : Placement} (sameRange : placement.range = changed.range)
    (sameRequired : first.required = second.required)
    (sameLive :
      liveNodes first.scope placement.replicas = liveNodes second.scope changed.replicas) :
    first.assess placement = second.assess changed := by
  simp only [assess, aliveCount, length_aliveNodes first.inScope, length_aliveNodes second.inScope,
    sameRange, sameRequired, sameLive]

theorem mem_shortRanges_of_listed (listed : ring.ranges.toList.Perm (snapshot.map first.assess))
    {range : TokenRange} :
    range ∈ ring.shortRanges ↔
      ∃ placement ∈ snapshot, placement.range = range ∧
        placement.liveCount first.scope < first.required.toNat := by
  rw [RingReport.mem_shortRanges_iff]
  constructor
  · intro short
    obtain ⟨report, inRing, unmet, rfl⟩ := short
    obtain ⟨placement, inSnapshot, rfl⟩ := List.mem_map.mp (listed.mem_iff.mp inRing)
    exact ⟨placement, inSnapshot, rfl, (first.isMet_assess_eq_false_iff placement).mp unmet⟩
  · intro short
    obtain ⟨placement, inSnapshot, rfl, unmet⟩ := short
    exact ⟨_, listed.mem_iff.mpr (List.mem_map_of_mem inSnapshot),
      (first.isMet_assess_eq_false_iff placement).mpr unmet, rfl⟩

/-- A check that is content with every placement that corresponds to one with which another check
is content falls short on no other ranges. -/
theorem noWorse_of_kept (listed : ring.ranges.toList.Perm (before.map first.assess))
    (otherListed : other.ranges.toList.Perm (after.map second.assess))
    (sameRanges : (after.map Placement.range).Perm (before.map Placement.range))
    (kept : ∀ placement ∈ before, ∀ changed ∈ after, changed.range = placement.range →
      first.required.toNat ≤ placement.liveCount first.scope →
      second.required.toNat ≤ changed.liveCount second.scope) :
    other.shortRanges ⊆ ring.shortRanges ∧
      (health ring = .available → health other = .available) := by
  have subset : other.shortRanges ⊆ ring.shortRanges := by
    intro range short
    obtain ⟨changed, inAfter, rfl, unmet⟩ := (mem_shortRanges_of_listed otherListed).mp short
    obtain ⟨placement, inBefore, sameRange⟩ :=
      List.mem_map.mp (sameRanges.mem_iff.mp (List.mem_map_of_mem inAfter))
    refine (mem_shortRanges_of_listed listed).mpr ⟨placement, inBefore, sameRange, ?_⟩
    apply Nat.lt_of_not_le
    intro met
    exact absurd (kept placement inBefore changed inAfter sameRange.symm met) (Nat.not_le.mpr unmet)
  have sameLength : after.length = before.length := by simpa using sameRanges.length_eq
  refine ⟨subset, ?_⟩
  intro available
  apply RingReport.available_of_shortRanges_subset subset _ available
  obtain ⟨nonempty, _⟩ := ring.health_eq_available_iff_shortfalls.mp available
  rw [← List.length_pos_iff_ne_nil, listed.length_eq, List.length_map] at nonempty
  rw [← List.length_pos_iff_ne_nil, otherListed.length_eq, List.length_map, sameLength]
  exact nonempty

end Monitor

end RingHealth
