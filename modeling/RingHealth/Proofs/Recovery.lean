import Mathlib.Logic.Relation
import RingHealth.Proofs.Verdict

namespace RingHealth

/-- A step in which the replicas of a range recover. -/
inductive RecoveryStep : List Replica → List Replica → Prop where
  | revive (before after : List Replica) (replica : Replica) :
      RecoveryStep (before ++ replica :: after) (before ++ { replica with alive := true } :: after)
  | insert (before after : List Replica) (replica : Replica) :
      RecoveryStep (before ++ after) (before ++ replica :: after)
  | permute {replicas rearranged : List Replica} (perm : replicas.Perm rearranged) :
      RecoveryStep replicas rearranged

/-- Whether replicas become others in any number of recovery steps. -/
def Recovers : List Replica → List Replica → Prop := Relation.ReflTransGen RecoveryStep

variable {scope : Scope} {replicas recovered : List Replica}

theorem RecoveryStep.liveNodes_subset (step : RecoveryStep replicas recovered) :
    liveNodes scope replicas ⊆ liveNodes scope recovered := by
  apply liveNodes_subset_of
  intro replica listed takesPart
  cases step with
  | revive before after revived =>
      rcases List.mem_append.mp listed with earlier | rest
      · exact ⟨replica, List.mem_append_left _ earlier, takesPart, rfl⟩
      · rcases List.mem_cons.mp rest with rfl | later
        · exact ⟨{ replica with alive := true }, by simp, ⟨rfl, takesPart.2⟩, rfl⟩
        · exact ⟨replica, by simp [later], takesPart, rfl⟩
  | insert before after added =>
      rcases List.mem_append.mp listed with earlier | later
      · exact ⟨replica, by simp [earlier], takesPart, rfl⟩
      · exact ⟨replica, by simp [later], takesPart, rfl⟩
  | permute perm => exact ⟨replica, perm.mem_iff.mp listed, takesPart, rfl⟩

theorem Recovers.liveNodes_subset (recovery : Recovers replicas recovered) :
    liveNodes scope replicas ⊆ liveNodes scope recovered := by
  induction recovery with
  | refl => exact Finset.Subset.refl _
  | tail _ step recoveryIH => exact recoveryIH.trans step.liveNodes_subset

theorem Placement.liveCount_le_of_recovers (scope : Scope) {placement changed : Placement}
    (recovery : Recovers placement.replicas changed.replicas) :
    placement.liveCount scope ≤ changed.liveCount scope :=
  Finset.card_le_card recovery.liveNodes_subset

namespace Monitor

/-- Where replicas recover, no range has fewer live nodes than before, no range falls short that
did not before, and an available ring stays available. -/
theorem inspect_recovered (monitor : Monitor) (before after : Snapshot)
    (distinct : (before.map Placement.range).Nodup)
    (sameRanges : (after.map Placement.range).Perm (before.map Placement.range))
    (recovered : ∀ placement ∈ before, ∀ changed ∈ after, changed.range = placement.range →
      Recovers placement.replicas changed.replicas) :
    ∃ ring other, (monitor.inspect before).outcome = .ok ring ∧
      (monitor.inspect after).outcome = .ok other ∧
      (∀ report ∈ ring.ranges.toList, ∃ changed ∈ other.ranges.toList,
        changed.range = report.range ∧ report.alive ≤ changed.alive) ∧
      other.shortRanges ⊆ ring.shortRanges ∧
      (health ring = .available → health other = .available) := by
  obtain ⟨ring, reported, listed⟩ := monitor.inspect_exists distinct
  obtain ⟨other, otherReported, otherListed⟩ :=
    monitor.inspect_exists (sameRanges.nodup_iff.mpr distinct)
  refine ⟨ring, other, reported, otherReported, ?_, noWorse_of_kept listed otherListed sameRanges ?_⟩
  · intro report inRing
    obtain ⟨placement, inBefore, rfl⟩ := List.mem_map.mp (listed.mem_iff.mp inRing)
    obtain ⟨changed, inAfter, sameRange⟩ :=
      List.mem_map.mp (sameRanges.mem_iff.mpr (List.mem_map_of_mem inBefore))
    have grown := Placement.liveCount_le_of_recovers monitor.scope
      (recovered placement inBefore changed inAfter sameRange)
    refine ⟨_, otherListed.mem_iff.mpr (List.mem_map_of_mem inAfter), sameRange, ?_⟩
    rw [UInt32.le_iff_toNat_le, toNat_alive_assess, toNat_alive_assess]
    omega
  · intro placement inBefore changed inAfter sameRange met
    have recovery := recovered placement inBefore changed inAfter sameRange
    exact met.trans (Placement.liveCount_le_of_recovers monitor.scope recovery)

theorem inspect_recovered_node :
    ∃ other, (inspect ⟨⟨"ks", .simple 3⟩, ⟨.quorum, none⟩, 2, rfl, rfl⟩
        [⟨⟨⟨0⟩, ⟨0⟩⟩, [⟨"c", "x", true⟩, ⟨"a", "x", true⟩, ⟨"b", "x", true⟩]⟩]).outcome =
          .ok other ∧
      health other = .available := by
  have recovery : Recovers [⟨"a", "x", true⟩, ⟨"b", "x", true⟩, ⟨"c", "x", false⟩]
      [⟨"c", "x", true⟩, ⟨"a", "x", true⟩, ⟨"b", "x", true⟩] :=
    .tail (.single (.revive [⟨"a", "x", true⟩, ⟨"b", "x", true⟩] [] ⟨"c", "x", false⟩))
      (.permute (by decide))
  obtain ⟨ring, other, reported, inspected, _, _, stays⟩ :=
    inspect_recovered ⟨⟨"ks", .simple 3⟩, ⟨.quorum, none⟩, 2, rfl, rfl⟩
      [⟨⟨⟨0⟩, ⟨0⟩⟩, [⟨"a", "x", true⟩, ⟨"b", "x", true⟩, ⟨"c", "x", false⟩]⟩]
      [⟨⟨⟨0⟩, ⟨0⟩⟩, [⟨"c", "x", true⟩, ⟨"a", "x", true⟩, ⟨"b", "x", true⟩]⟩]
      (by decide) (by decide) (by simpa using recovery)
  obtain rfl := Except.ok.inj reported
  exact ⟨other, inspected, stays (by decide)⟩

end Monitor

end RingHealth
