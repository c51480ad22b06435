import Mathlib.Data.Finset.Card
import RingHealth.Monitor

namespace RingHealth

/-- Whether a replica takes part at a scope: it is alive and, if the level is
datacenter-local, it is in the datacenter of the scope. -/
def Replica.TakesPart (replica : Replica) (scope : Scope) : Prop :=
  replica.alive = true ∧
    (scope.level ∈ [Level.localOne, Level.localQuorum, Level.localSerial] →
      scope.datacenter = some replica.datacenter)

instance (replica : Replica) (scope : Scope) : Decidable (replica.TakesPart scope) :=
  inferInstanceAs (Decidable (_ ∧ _))

def liveNodes (scope : Scope) (replicas : List Replica) : Finset String :=
  ((replicas.filter fun replica => replica.TakesPart scope).map Replica.node).toFinset

/-- How many different nodes have a replica which takes part. -/
def Placement.liveCount (placement : Placement) (scope : Scope) : Nat :=
  (liveNodes scope placement.replicas).card

variable {scope : Scope} {replica : Replica} {replicas : List Replica} {node : String}

theorem mem_liveNodes :
    node ∈ liveNodes scope replicas ↔
      ∃ replica ∈ replicas, replica.TakesPart scope ∧ replica.node = node := by
  simp [liveNodes, and_assoc]

theorem liveNodes_subset_of {other : Scope} {others : List Replica}
    (kept : ∀ replica ∈ replicas, replica.TakesPart scope →
      ∃ found ∈ others, found.TakesPart other ∧ found.node = replica.node) :
    liveNodes scope replicas ⊆ liveNodes other others := by
  intro node live
  obtain ⟨replica, listed, takesPart, rfl⟩ := mem_liveNodes.mp live
  exact mem_liveNodes.mpr (kept replica listed takesPart)

/-- A wider scope has all the live nodes of a narrower one. -/
theorem liveNodes_subset_of_wider {wide : Scope}
    (wider : ∀ replica : Replica, replica.TakesPart scope → replica.TakesPart wide) :
    liveNodes scope replicas ⊆ liveNodes wide replicas := by
  apply liveNodes_subset_of
  intro replica listed takesPart
  exact ⟨replica, listed, wider replica takesPart, rfl⟩

theorem Replica.countsAt_iff (inScope : scope.check = .ok ()) :
    replica.countsAt scope = true ↔ replica.TakesPart scope := by
  have locality := Scope.isLocal_of_check inScope
  rw [countsAt, TakesPart, ← Level.isLocal_iff, locality, Bool.and_eq_true]
  refine and_congr_right fun _ => ?_
  cases scope.datacenter with
  | none => simp
  | some datacenter =>
      simp only [beq_iff_eq, Option.isSome_some, forall_const, Option.some.injEq]
      exact eq_comm

theorem nodup_eraseDups (nodes : List String) : nodes.eraseDups.Nodup := by
  cases nodes with
  | nil => simp
  | cons node nodes =>
      rw [List.eraseDups_cons, List.nodup_cons]
      exact ⟨by simp, nodup_eraseDups _⟩
termination_by nodes.length
decreasing_by
  have removed := nodes.length_filter_le fun other => !other == node
  simp only [List.length_cons]
  omega

theorem length_aliveNodes (inScope : scope.check = .ok ()) :
    (aliveNodes scope replicas).length = (liveNodes scope replicas).card := by
  have same : (aliveNodes scope replicas).toFinset = liveNodes scope replicas := by
    ext node
    rw [mem_liveNodes]
    simp [aliveNodes, Replica.countsAt_iff inScope, and_assoc]
  have distinct : (aliveNodes scope replicas).Nodup := nodup_eraseDups _
  rw [← same, List.toFinset_card_of_nodup distinct]

namespace Monitor

variable (monitor : Monitor) (placement : Placement)

theorem toNat_alive_assess :
    (monitor.assess placement).alive.toNat =
      min (UInt32.size - 1) (placement.liveCount monitor.scope) := by
  rw [assess, aliveCount, toNat_saturatingCount, length_aliveNodes monitor.inScope]
  rfl

theorem isMet_assess_iff :
    (monitor.assess placement).isMet = true ↔
      monitor.required.toNat ≤ placement.liveCount monitor.scope := by
  rw [RangeReport.isMet, decide_eq_true_eq, assess, aliveCount, le_saturatingCount_iff,
    length_aliveNodes monitor.inScope]
  rfl

theorem isMet_assess_eq_false_iff :
    (monitor.assess placement).isMet = false ↔
      placement.liveCount monitor.scope < monitor.required.toNat := by
  rw [← Bool.not_eq_true, monitor.isMet_assess_iff, Nat.not_le]

end Monitor

end RingHealth
