import Mathlib.Algebra.Ring.Nat
import RingHealth.Keyspace
import RingHealth.Table.Lemmas

namespace RingHealth.Replication

/-- The replicas of a range in all datacenters together, however many they are. -/
def exactSum : Replication → Nat
  | simple factor => factor.toNat
  | networkTopology factors => (factors.toList.map fun entry => entry.2.toNat).sum

variable {replication : Replication} {first second start total factor : UInt32}
  {factors : List (String × UInt32)} {table : Table (String × UInt32)} {datacenter : String}

theorem addCounts?_eq_some_iff :
    addCounts? first second = some total ↔ first.toNat + second.toNat = total.toNat := by
  have bound := total.toNat_lt_size
  unfold addCounts?
  split
  · rename_i small
    rw [Option.some.injEq, ← UInt32.toNat_inj, UInt32.toNat_add, Nat.mod_eq_of_lt small]
  · simp only [reduceCtorEq, false_iff]
    omega

theorem addCounts?_eq_none_iff :
    addCounts? first second = none ↔ UInt32.size ≤ first.toNat + second.toNat := by
  simp [addCounts?]

theorem foldlM_addCounts?_eq_some_iff :
    factors.foldlM (fun total entry => addCounts? total entry.2) start = some total ↔
      start.toNat + (factors.map fun entry => entry.2.toNat).sum = total.toNat := by
  induction factors generalizing start with
  | nil => simp [UInt32.toNat_inj]
  | cons entry factors factorsIH =>
      rw [List.foldlM_cons, List.map_cons, List.sum_cons, ← Nat.add_assoc]
      cases added : addCounts? start entry.2 with
      | none =>
          have large := addCounts?_eq_none_iff.mp added
          have bound := total.toNat_lt_size
          simp only [Option.bind_eq_bind, Option.bind_none, reduceCtorEq, false_iff]
          omega
      | some sum =>
          rw [Option.bind_eq_bind, Option.bind_some, factorsIH, addCounts?_eq_some_iff.mp added]

theorem factorSum?_eq_some_iff :
    replication.factorSum? = some total ↔ replication.exactSum = total.toNat := by
  cases replication with
  | simple factor => simp [factorSum?, exactSum, UInt32.toNat_inj]
  | networkTopology table =>
      rw [factorSum?, foldlM_addCounts?_eq_some_iff, exactSum, UInt32.toNat_zero, Nat.zero_add]

theorem factorSum?_eq_none_iff :
    replication.factorSum? = none ↔ UInt32.size ≤ replication.exactSum := by
  cases found : replication.factorSum? with
  | some total =>
      have bound := total.toNat_lt_size
      rw [factorSum?_eq_some_iff] at found
      simp only [reduceCtorEq, false_iff]
      omega
  | none =>
      simp only [true_iff]
      apply Nat.le_of_not_lt
      intro small
      have fits : replication.factorSum? = some (.ofNat replication.exactSum) := by
        rw [factorSum?_eq_some_iff, UInt32.toNat_ofNat_of_lt' small]
      rw [found] at fits
      cases fits

theorem exactSum_eq_zero_iff :
    replication.exactSum = 0 ↔
      replication = .simple 0 ∨ ∃ factors, replication = .networkTopology factors ∧
        ∀ entry ∈ factors.toList, entry.2 = 0 := by
  cases replication with
  | simple factor => simp [exactSum, ← UInt32.toNat_inj]
  | networkTopology factors =>
      rw [exactSum, List.sum_eq_zero_iff_forall_eq_nat, List.forall_mem_map]
      simp [← UInt32.toNat_inj]

theorem factorIn?_eq_some_iff :
    (networkTopology table).factorIn? datacenter = some factor ↔
      (datacenter, factor) ∈ table.toList := by
  simp only [factorIn?, Option.map_eq_some_iff, Table.get?_eq_some_iff]
  constructor
  · intro found
    obtain ⟨entry, ⟨listed, rfl⟩, rfl⟩ := found
    exact listed
  · intro listed
    exact ⟨_, ⟨listed, rfl⟩, rfl⟩

theorem factorIn?_eq_none_iff :
    (networkTopology table).factorIn? datacenter = none ↔
      ∀ entry ∈ table.toList, entry.1 ≠ datacenter := by
  rw [factorIn?, Option.map_eq_none_iff, Table.get?_eq_none_iff]
  rfl

/-- Of several factors of one datacenter the last counts. -/
theorem factorIn?_ofFactors (factors : List (String × UInt32)) (datacenter : String) :
    (ofFactors factors).factorIn? datacenter =
      (factors.reverse.find? fun entry => entry.1 = datacenter).map Prod.snd := by
  rw [ofFactors, factorIn?, Table.get?_ofList]
  rfl

/-- A sum that is small enough is a count. -/
theorem factorSum?_exists (fits : replication.exactSum < UInt32.size) :
    ∃ total, replication.factorSum? = some total ∧ replication.exactSum = total.toNat := by
  cases found : replication.factorSum? with
  | none => exact absurd (factorSum?_eq_none_iff.mp found) (Nat.not_le.mpr fits)
  | some total => exact ⟨total, rfl, factorSum?_eq_some_iff.mp found⟩

end RingHealth.Replication
