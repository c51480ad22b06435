import Mathlib.Algebra.BigOperators.Ring.List
import Mathlib.Algebra.Order.BigOperators.Group.Finset
import Mathlib.Algebra.Order.BigOperators.Group.List
import RingHealth.Proofs.Diagnosis
import RingHealth.Proofs.FactorSum

namespace RingHealth

/-- Whether no node of a placement is listed in two datacenters. -/
def Placement.Settled (placement : Placement) : Prop :=
  ∀ first ∈ placement.replicas, ∀ second ∈ placement.replicas,
    first.node = second.node → first.datacenter = second.datacenter

instance (placement : Placement) : Decidable placement.Settled :=
  inferInstanceAs (Decidable (∀ first ∈ placement.replicas, ∀ second ∈ placement.replicas,
    first.node = second.node → first.datacenter = second.datacenter))

variable {keyspace : Keyspace} {factors : Table (String × UInt32)} {placement : Placement}
  {first second datacenter : String} {total : UInt32} {monitor : Monitor} {snapshot : Snapshot}

namespace Placement

theorem liveNodes_local_subset :
    liveNodes ⟨.localQuorum, some datacenter⟩ placement.replicas ⊆
      liveNodes ⟨.quorum, none⟩ placement.replicas := by
  apply liveNodes_subset_of_wider
  intro replica takesPart
  exact ⟨takesPart.1, by simp⟩

theorem disjoint_liveNodes (settled : placement.Settled) (apart : first ≠ second) :
    Disjoint (liveNodes ⟨.localQuorum, some first⟩ placement.replicas)
      (liveNodes ⟨.localQuorum, some second⟩ placement.replicas) := by
  rw [Finset.disjoint_left]
  intro node inFirst inSecond
  obtain ⟨one, oneListed, oneTakesPart, rfl⟩ := mem_liveNodes.mp inFirst
  obtain ⟨other, otherListed, otherTakesPart, sameNode⟩ := mem_liveNodes.mp inSecond
  have oneHome : first = one.datacenter := Option.some.inj (oneTakesPart.2 (by simp))
  have otherHome : second = other.datacenter := Option.some.inj (otherTakesPart.2 (by simp))
  apply apart
  rw [oneHome, otherHome]
  exact settled one oneListed other otherListed sameNode.symm

/-- The live nodes of the datacenters are different nodes, so they add up to no more than all
live nodes.  Nodes of datacenters without a factor may come on top. -/
theorem sum_liveCount_le (settled : placement.Settled) (factors : Table (String × UInt32)) :
    (factors.toList.map fun entry => placement.liveCount ⟨.localQuorum, some entry.1⟩).sum ≤
      placement.liveCount ⟨.quorum, none⟩ := by
  have disjoint : (factors.toList.toFinset : Set (String × UInt32)).PairwiseDisjoint
      fun entry => liveNodes ⟨.localQuorum, some entry.1⟩ placement.replicas := by
    intro one oneListed other otherListed different
    apply disjoint_liveNodes settled
    intro sameName
    rw [Finset.mem_coe, List.mem_toFinset] at oneListed otherListed
    exact different (Table.eq_of_ascending factors.ascending oneListed otherListed sameName)
  rw [← List.sum_toFinset _ factors.nodup_toList]
  unfold liveCount
  rw [← Finset.card_biUnion disjoint]
  apply Finset.card_le_card
  intro node live
  obtain ⟨entry, _, inDatacenter⟩ := Finset.mem_biUnion.mp live
  exact liveNodes_local_subset inDatacenter

theorem majority_le_liveCount (settled : placement.Settled) (replicated : factors.toList ≠ [])
    (sum : (Replication.networkTopology factors).factorSum? = some total)
    (each : ∀ entry ∈ factors.toList,
      (majority entry.2).toNat ≤ placement.liveCount ⟨.localQuorum, some entry.1⟩) :
    (majority total).toNat ≤ placement.liveCount ⟨.quorum, none⟩ := by
  simp only [majority_le_iff] at each ⊢
  rw [← Replication.factorSum?_eq_some_iff.mp sum]
  calc (factors.toList.map fun entry => entry.2.toNat).sum
      < (factors.toList.map fun entry =>
          2 * placement.liveCount ⟨.localQuorum, some entry.1⟩).sum :=
        List.sum_lt_sum_of_ne_nil replicated _ _ each
    _ = 2 * (factors.toList.map fun entry =>
          placement.liveCount ⟨.localQuorum, some entry.1⟩).sum := by
        rw [List.sum_map_mul_left]
    _ ≤ 2 * placement.liveCount ⟨.quorum, none⟩ :=
        Nat.mul_le_mul_left 2 (sum_liveCount_le settled factors)

end Placement

namespace Keyspace

theorem factorSum?_of_prepared
    (prepared : (Monitor.prepare keyspace ⟨.quorum, none⟩).outcome = .ok monitor) :
    ∃ total, keyspace.replication.factorSum? = some total := by
  obtain ⟨rfl, sameScope, _⟩ := Monitor.prepare_of_ok prepared
  have requires := monitor.requires
  rw [sameScope] at requires
  cases sum : monitor.keyspace.replication.factorSum? with
  | some total => exact ⟨total, rfl⟩
  | none => simp [requirement, overallFactor, sum, Except.map] at requires

theorem requirement_of_listed (placed : keyspace.replication = .networkTopology factors)
    {entry : String × UInt32} (listed : entry ∈ factors.toList) :
    keyspace.requirement ⟨.localQuorum, some entry.1⟩ = .ok (majority entry.2) := by
  apply requirement_of_factor (by simp) rfl
  rw [placed, Replication.factorIn?_eq_some_iff]
  exact listed

/-- A keyspace that reaches the quorum of each of its datacenters reaches the quorum of all its
replicas: on every range that is met in all datacenters, and so on the ring as a whole.  The
nodes of a placement may be listed in any state and any number of times, but each of them in one
datacenter. -/
theorem quorum_of_local_quorums (keyspace : Keyspace) (snapshot : Snapshot)
    (placed : keyspace.replication = .networkTopology factors)
    (replicated : factors.toList ≠ [])
    (named : ∀ entry ∈ factors.toList, Text.allBlank entry.1.toList = false)
    (prepared : (Monitor.prepare keyspace ⟨.quorum, none⟩).outcome = .ok monitor)
    (distinct : (snapshot.map Placement.range).Nodup)
    (settled : ∀ placement ∈ snapshot, placement.Settled) :
    (∀ entry ∈ factors.toList, ∃ ring,
      keyspace.diagnosis ⟨.localQuorum, some entry.1⟩ snapshot = .ok ring) ∧
    (∃ ring, keyspace.diagnosis ⟨.quorum, none⟩ snapshot = .ok ring) ∧
    (∀ range,
      (∀ entry ∈ factors.toList,
        keyspace.Achieves ⟨.localQuorum, some entry.1⟩ snapshot range) →
      keyspace.Achieves ⟨.quorum, none⟩ snapshot range) ∧
    ((∀ entry ∈ factors.toList,
        (keyspace.diagnosis ⟨.localQuorum, some entry.1⟩ snapshot).map health = .ok .available) →
      (keyspace.diagnosis ⟨.quorum, none⟩ snapshot).map health = .ok .available) := by
  obtain ⟨total, sum⟩ := factorSum?_of_prepared prepared
  have overallScope : (Scope.mk .quorum none).check = .ok () := rfl
  have overall : keyspace.requirement ⟨.quorum, none⟩ = .ok (majority total) :=
    requirement_of_sum (by decide) sum
  have localScope : ∀ entry ∈ factors.toList,
      (Scope.mk .localQuorum (some entry.1)).check = .ok () :=
    fun entry listed => Scope.check_with_datacenter rfl (named entry listed)
  have each : ∀ entry ∈ factors.toList,
      keyspace.requirement ⟨.localQuorum, some entry.1⟩ = .ok (majority entry.2) :=
    fun _ listed => requirement_of_listed placed listed
  rw [placed] at sum
  obtain ⟨entry, listed⟩ := List.exists_mem_of_ne_nil _ replicated
  have ranges : ∀ range,
      (∀ entry ∈ factors.toList,
        keyspace.Achieves ⟨.localQuorum, some entry.1⟩ snapshot range) →
      keyspace.Achieves ⟨.quorum, none⟩ snapshot range := by
    intro range everywhere
    obtain ⟨placement, inSnapshot, rfl, _⟩ :=
      (achieves_iff (localScope entry listed) (each entry listed) distinct).mp
        (everywhere entry listed)
    rw [achieves_range_iff overallScope overall distinct inSnapshot]
    apply Placement.majority_le_liveCount (settled placement inSnapshot) replicated sum
    intro other otherListed
    rw [← achieves_range_iff (localScope other otherListed) (each other otherListed) distinct
      inSnapshot]
    exact everywhere other otherListed
  refine ⟨fun entry listed =>
      diagnoses_of_requirement (localScope entry listed) (each entry listed) snapshot distinct,
    diagnoses_of_requirement overallScope overall snapshot distinct, ranges, ?_⟩
  intro available
  have everywhere := fun entry listed =>
    (health_diagnosis_iff (localScope entry listed) (each entry listed) distinct).mp
      (available entry listed)
  rw [health_diagnosis_iff overallScope overall distinct]
  refine ⟨(everywhere entry listed).1, ?_⟩
  intro placement inSnapshot
  apply ranges
  exact fun other otherListed => (everywhere other otherListed).2 placement inSnapshot

/-- A node that is listed twice counts once, and one outside the datacenters of the keyspace
does no harm. -/
theorem quorum_of_local_quorums_two :
    (diagnosis ⟨"ks", .ofFactors [("x", 3), ("y", 1)]⟩ ⟨.quorum, none⟩
      [⟨⟨⟨0⟩, ⟨0⟩⟩, [⟨"a", "x", true⟩, ⟨"b", "x", true⟩, ⟨"b", "x", false⟩, ⟨"c", "y", true⟩,
        ⟨"d", "z", false⟩]⟩]).map health = .ok .available := by
  obtain ⟨_, _, _, available⟩ :=
    quorum_of_local_quorums ⟨"ks", .ofFactors [("x", 3), ("y", 1)]⟩
      [⟨⟨⟨0⟩, ⟨0⟩⟩, [⟨"a", "x", true⟩, ⟨"b", "x", true⟩, ⟨"b", "x", false⟩, ⟨"c", "y", true⟩,
        ⟨"d", "z", false⟩]⟩] rfl (by decide) (by decide) rfl (by decide) (by decide)
  apply available
  decide

end Keyspace

end RingHealth
