import Mathlib.Data.Fintype.EquivFin
import RingHealth.Proofs.Diagnosis

namespace RingHealth

/-! Overlapping quorums.

Two diagnoses that both meet a range have a live node of that range in common, if their
requirements together exceed the nodes that the range can have.  Two majorities do, and so do
one replica and all of them.  Majorities are tight: one node less in each of two snapshots, and
they may have no live node in common.
-/

/-- Whether a scope counts the replicas of a replica's datacenter. -/
def Scope.Covers (scope : Scope) (replica : Replica) : Prop :=
  ∀ datacenter, scope.datacenter = some datacenter → replica.datacenter = datacenter

/-- Whether a snapshot lists a replica for a range. -/
def Snapshot.Lists (snapshot : Snapshot) (range : TokenRange) (replica : Replica) : Prop :=
  ∃ placement ∈ snapshot, placement.range = range ∧ replica ∈ placement.replicas

/-- Whether a snapshot lists a node for a range, where a scope counts it. -/
def Snapshot.ListsNode (snapshot : Snapshot) (scope : Scope) (range : TokenRange)
    (node : String) : Prop :=
  ∃ replica, snapshot.Lists range replica ∧ scope.Covers replica ∧ replica.node = node

/-- Whether a snapshot lists a node as alive for a range, where a scope counts it. -/
def Snapshot.ListsAlive (snapshot : Snapshot) (scope : Scope) (range : TokenRange)
    (node : String) : Prop :=
  ∃ replica, snapshot.Lists range replica ∧ scope.Covers replica ∧
    replica.alive = true ∧ replica.node = node

namespace Keyspace

/-- Whether any two snapshots that meet a range at two scopes have a live node of the range in
common, if no more than a number of nodes are listed for it where the scopes count. -/
def Overlap (keyspace : Keyspace) (firstScope secondScope : Scope) (number : Nat) : Prop :=
  ∀ (nodes : Finset String) (range : TokenRange) (first second : Snapshot),
    nodes.card ≤ number →
    (first.map Placement.range).Nodup → (second.map Placement.range).Nodup →
    (∀ node, first.ListsNode firstScope range node → node ∈ nodes) →
    (∀ node, second.ListsNode secondScope range node → node ∈ nodes) →
    keyspace.Achieves firstScope first range → keyspace.Achieves secondScope second range →
    ∃ node ∈ nodes,
      first.ListsAlive firstScope range node ∧ second.ListsAlive secondScope range node

/-- Whether a snapshot has a report at a scope, where a range lacks a single live node. -/
def LacksOne (keyspace : Keyspace) (scope : Scope) (snapshot : Snapshot) (range : TokenRange) :
    Prop :=
  ∃ ring, keyspace.diagnosis scope snapshot = .ok ring ∧
    ∃ report ∈ ring.ranges.toList, report.range = range ∧
      report.alive.toNat + 1 = report.required.toNat

/-- Whether two snapshots of a number of nodes may have no live node of a range in common,
although the range lacks a single live node in each. -/
def Tight (keyspace : Keyspace) (scope : Scope) (number : Nat) : Prop :=
  ∀ range, ∃ (nodes : Finset String) (first second : Snapshot),
    nodes.card = number ∧
    (∀ node, first.ListsNode scope range node ↔ node ∈ nodes) ∧
    (∀ node, second.ListsNode scope range node ↔ node ∈ nodes) ∧
    keyspace.LacksOne scope first range ∧ keyspace.LacksOne scope second range ∧
    ∀ node, ¬ (first.ListsAlive scope range node ∧ second.ListsAlive scope range node)

end Keyspace

variable {keyspace : Keyspace} {scope firstScope secondScope : Scope} {placement : Placement}
  {replica : Replica} {snapshot : Snapshot} {range : TokenRange} {nodes : Finset String}
  {firstRequired secondRequired : UInt32} {number : Nat} {node datacenter : String}
  {listed : List String} {alive : Finset String}

theorem Scope.covers_iff (inScope : scope.check = .ok ()) :
    scope.Covers replica ↔
      (scope.level ∈ [Level.localOne, .localQuorum, .localSerial] →
        scope.datacenter = some replica.datacenter) := by
  rw [← Level.isLocal_iff, Scope.isLocal_of_check inScope, Covers]
  cases scope.datacenter with
  | none => simp
  | some datacenter => simp [eq_comm]

theorem mem_liveNodes_iff (inScope : scope.check = .ok ()) {replicas : List Replica} :
    node ∈ liveNodes scope replicas ↔
      ∃ replica ∈ replicas, scope.Covers replica ∧ replica.alive = true ∧ replica.node = node := by
  rw [mem_liveNodes]
  refine exists_congr fun replica => and_congr_right fun _ => ?_
  rw [Replica.TakesPart, ← Scope.covers_iff inScope]
  tauto

namespace Snapshot

theorem liveNodes_subset (inScope : scope.check = .ok ())
    (within : ∀ node, snapshot.ListsNode scope range node → node ∈ nodes)
    (listed : placement ∈ snapshot) (atRange : placement.range = range) :
    liveNodes scope placement.replicas ⊆ nodes := by
  intro node live
  obtain ⟨replica, inPlacement, covered, _, sameNode⟩ := (mem_liveNodes_iff inScope).mp live
  exact within node ⟨replica, ⟨placement, listed, atRange, inPlacement⟩, covered, sameNode⟩

theorem listsAlive_iff_mem_liveNodes (inScope : scope.check = .ok ())
    (distinct : (snapshot.map Placement.range).Nodup)
    (listed : placement ∈ snapshot) (atRange : placement.range = range) :
    snapshot.ListsAlive scope range node ↔ node ∈ liveNodes scope placement.replicas := by
  rw [mem_liveNodes_iff inScope]
  constructor
  · intro live
    obtain ⟨replica, ⟨found, foundListed, foundAtRange, inFound⟩, counted⟩ := live
    obtain rfl := List.inj_on_of_nodup_map distinct foundListed listed
      (foundAtRange.trans atRange.symm)
    exact ⟨replica, inFound, counted⟩
  · intro live
    obtain ⟨replica, inPlacement, counted⟩ := live
    exact ⟨replica, ⟨placement, listed, atRange, inPlacement⟩, counted⟩

/-- The snapshot of one range that is placed on nodes of one datacenter, of which those of a set
are alive. -/
def ofNodes (range : TokenRange) (datacenter : String) (nodes : List String)
    (alive : Finset String) : Snapshot :=
  [⟨range, nodes.map fun node => ⟨node, datacenter, node ∈ alive⟩⟩]

theorem lists_ofNodes_iff :
    (ofNodes range datacenter listed alive).Lists range replica ↔
      ∃ node ∈ listed, ⟨node, datacenter, node ∈ alive⟩ = replica := by
  simp [Lists, ofNodes]

theorem listsNode_ofNodes_iff (inside : ∀ name, scope.datacenter = some name → datacenter = name) :
    (ofNodes range datacenter listed alive).ListsNode scope range node ↔ node ∈ listed := by
  simp only [ListsNode, lists_ofNodes_iff]
  constructor
  · intro counted
    obtain ⟨_, ⟨node, inList, rfl⟩, _, rfl⟩ := counted
    exact inList
  · intro inList
    exact ⟨_, ⟨node, inList, rfl⟩, inside, rfl⟩

theorem listsAlive_ofNodes_iff
    (inside : ∀ name, scope.datacenter = some name → datacenter = name)
    (within : ∀ node ∈ alive, node ∈ listed) :
    (ofNodes range datacenter listed alive).ListsAlive scope range node ↔ node ∈ alive := by
  simp only [ListsAlive, lists_ofNodes_iff]
  constructor
  · intro live
    obtain ⟨_, ⟨node, _, rfl⟩, _, isAlive, rfl⟩ := live
    exact of_decide_eq_true isAlive
  · intro isAlive
    exact ⟨_, ⟨node, within node isAlive, rfl⟩, inside, decide_eq_true isAlive, rfl⟩

end Snapshot

namespace Keyspace

theorem overlap_of_requirements
    (firstRequires : keyspace.requirement firstScope = .ok firstRequired)
    (secondRequires : keyspace.requirement secondScope = .ok secondRequired)
    (exceeding : number < firstRequired.toNat + secondRequired.toNat) :
    keyspace.Overlap firstScope secondScope number := by
  intro nodes range first second few firstDistinct secondDistinct firstWithin secondWithin
    firstMet secondMet
  have firstInScope := check_of_achieves firstMet
  have secondInScope := check_of_achieves secondMet
  obtain ⟨one, oneListed, oneAtRange, oneEnough⟩ :=
    (achieves_iff firstInScope firstRequires firstDistinct).mp firstMet
  obtain ⟨other, otherListed, otherAtRange, otherEnough⟩ :=
    (achieves_iff secondInScope secondRequires secondDistinct).mp secondMet
  have oneWithin := Snapshot.liveNodes_subset firstInScope firstWithin oneListed oneAtRange
  have otherWithin :=
    Snapshot.liveNodes_subset secondInScope secondWithin otherListed otherAtRange
  have crowded : nodes.card <
      (liveNodes firstScope one.replicas).card + (liveNodes secondScope other.replicas).card := by
    unfold Placement.liveCount at oneEnough otherEnough
    omega
  obtain ⟨node, common⟩ :=
    Finset.inter_nonempty_of_card_lt_card_add_card oneWithin otherWithin crowded
  obtain ⟨inOne, inOther⟩ := Finset.mem_inter.mp common
  exact ⟨node, oneWithin inOne,
    (Snapshot.listsAlive_iff_mem_liveNodes firstInScope firstDistinct oneListed oneAtRange).mpr
      inOne,
    (Snapshot.listsAlive_iff_mem_liveNodes secondInScope secondDistinct otherListed
      otherAtRange).mpr inOther⟩

theorem lacksOne_of_liveCount (inScope : scope.check = .ok ())
    (requires : keyspace.requirement scope = .ok firstRequired)
    (distinct : (snapshot.map Placement.range).Nodup)
    (listed : placement ∈ snapshot) (atRange : placement.range = range)
    (lacking : placement.liveCount scope + 1 = firstRequired.toNat) :
    keyspace.LacksOne scope snapshot range := by
  obtain ⟨ring, diagnosed, content⟩ := diagnosis_exists inScope requires distinct
  let monitor : Monitor := ⟨keyspace, scope, firstRequired, inScope, requires⟩
  refine ⟨ring, diagnosed, monitor.assess placement,
    content.mem_iff.mpr (List.mem_map_of_mem listed), atRange, ?_⟩
  have counted : (monitor.assess placement).alive.toNat =
      min (UInt32.size - 1) (placement.liveCount scope) := monitor.toNat_alive_assess placement
  have asked : (monitor.assess placement).required = firstRequired := rfl
  have bound := firstRequired.toNat_lt_size
  rw [counted, asked]
  omega

theorem lacksOne_ofNodes (inScope : scope.check = .ok ())
    (requires : keyspace.requirement scope = .ok firstRequired)
    (inside : ∀ name, scope.datacenter = some name → datacenter = name)
    (within : ∀ node ∈ alive, node ∈ listed)
    (lacking : alive.card + 1 = firstRequired.toNat) :
    keyspace.LacksOne scope (.ofNodes range datacenter listed alive) range := by
  have distinct : ((Snapshot.ofNodes range datacenter listed alive).map Placement.range).Nodup :=
    List.nodup_singleton _
  have onlyPlacement := List.mem_singleton_self
    (Placement.mk range (listed.map fun node => ⟨node, datacenter, node ∈ alive⟩))
  apply lacksOne_of_liveCount inScope requires distinct onlyPlacement rfl
  have sameNodes : liveNodes scope (listed.map fun node => ⟨node, datacenter, node ∈ alive⟩) =
      alive := by
    ext node
    rw [← Snapshot.listsAlive_ofNodes_iff inside within]
    exact (Snapshot.listsAlive_iff_mem_liveNodes inScope distinct onlyPlacement rfl).symm
  rw [Placement.liveCount, sameNodes, lacking]

/-- Half of the nodes are alive in one snapshot, and as many of the others in another. -/
theorem tight_of_majority {count : UInt32} (inScope : scope.check = .ok ())
    (requires : keyspace.requirement scope = .ok (majority count)) :
    keyspace.Tight scope count.toNat := by
  intro range
  obtain ⟨nodes, many⟩ := Infinite.exists_subset_card_eq String count.toNat
  obtain ⟨first, firstWithin, firstHalf⟩ :=
    Finset.exists_subset_card_eq (s := nodes) (n := count.toNat / 2) (by omega)
  obtain ⟨second, secondWithin, secondHalf⟩ :=
    Finset.exists_subset_card_eq (s := nodes \ first) (n := count.toNat / 2) (by
      rw [Finset.card_sdiff_of_subset firstWithin]
      omega)
  let home := scope.datacenter.getD ""
  have inside : ∀ name, scope.datacenter = some name → home = name := by
    intro name given
    simp [home, given]
  have firstListed : ∀ node ∈ first, node ∈ nodes.toList :=
    fun node isAlive => Finset.mem_toList.mpr (firstWithin isAlive)
  have secondListed : ∀ node ∈ second, node ∈ nodes.toList :=
    fun node isAlive => Finset.mem_toList.mpr (Finset.mem_sdiff.mp (secondWithin isAlive)).1
  refine ⟨nodes, .ofNodes range home nodes.toList first, .ofNodes range home nodes.toList second,
    many, ?_, ?_, ?_, ?_, ?_⟩
  · intro node
    rw [Snapshot.listsNode_ofNodes_iff inside, Finset.mem_toList]
  · intro node
    rw [Snapshot.listsNode_ofNodes_iff inside, Finset.mem_toList]
  · apply lacksOne_ofNodes inScope requires inside firstListed
    rw [firstHalf, toNat_majority]
  · apply lacksOne_ofNodes inScope requires inside secondListed
    rw [secondHalf, toNat_majority]
  · intro node both
    rw [Snapshot.listsAlive_ofNodes_iff inside firstListed,
      Snapshot.listsAlive_ofNodes_iff inside secondListed] at both
    exact (Finset.mem_sdiff.mp (secondWithin both.2)).2 both.1

theorem overlap_of_majorities {count : UInt32}
    (firstRequires : keyspace.requirement firstScope = .ok (majority count))
    (secondRequires : keyspace.requirement secondScope = .ok (majority count)) :
    keyspace.Overlap firstScope secondScope count.toNat := by
  apply overlap_of_requirements firstRequires secondRequires
  rw [toNat_majority]
  omega

/-- Two quorums of the same replicas overlap, and so do one replica and all of them: all
replicas of a keyspace, or those in a datacenter of it.  No smaller number than a quorum does.
A datacenter with a blank name has no reports, which overlap trivially. -/
theorem quorums_overlap (keyspace : Keyspace) :
    (∀ total, keyspace.replication.factorSum? = some total →
      (∀ first ∈ [Level.quorum, .serial], ∀ second ∈ [Level.quorum, .serial],
        keyspace.Overlap ⟨first, none⟩ ⟨second, none⟩ total.toNat) ∧
      keyspace.Overlap ⟨.one, none⟩ ⟨.all, none⟩ total.toNat ∧
      keyspace.Diagnoses ⟨.one, none⟩ ∧ keyspace.Diagnoses ⟨.all, none⟩ ∧
      ∀ level ∈ [Level.quorum, .serial],
        keyspace.Diagnoses ⟨level, none⟩ ∧ keyspace.Tight ⟨level, none⟩ total.toNat) ∧
    ∀ datacenter factor, keyspace.replication.factorIn? datacenter = some factor →
      (∀ first ∈ [Level.localQuorum, .localSerial], ∀ second ∈ [Level.localQuorum, .localSerial],
        keyspace.Overlap ⟨first, some datacenter⟩ ⟨second, some datacenter⟩ factor.toNat) ∧
      (Text.allBlank datacenter.toList = false → ∀ level ∈ [Level.localQuorum, .localSerial],
        keyspace.Diagnoses ⟨level, some datacenter⟩ ∧
          keyspace.Tight ⟨level, some datacenter⟩ factor.toNat) := by
  have notLocal : ∀ level ∈ [Level.quorum, .serial], level.isLocal = false := by decide
  have isLocal : ∀ level ∈ [Level.localQuorum, .localSerial], level.isLocal = true := by decide
  constructor
  · intro total sum
    have one : keyspace.requirement ⟨.one, none⟩ = .ok 1 := rfl
    have all : keyspace.requirement ⟨.all, none⟩ = .ok total := requirement_of_all rfl sum
    refine ⟨?_, ?_, diagnoses_of_requirement rfl one, diagnoses_of_requirement rfl all, ?_⟩
    · intro first firstAsked second secondAsked
      exact overlap_of_majorities (requirement_of_sum firstAsked sum)
        (requirement_of_sum secondAsked sum)
    · apply overlap_of_requirements one all
      rw [UInt32.toNat_one]
      omega
    · intro level asked
      have inScope := Scope.check_without_datacenter (notLocal level asked)
      have requires : keyspace.requirement ⟨level, none⟩ = .ok (majority total) :=
        requirement_of_sum asked sum
      exact ⟨diagnoses_of_requirement inScope requires, tight_of_majority inScope requires⟩
  · intro datacenter factor found
    constructor
    · intro first firstAsked second secondAsked
      exact overlap_of_majorities (requirement_of_factor firstAsked rfl found)
        (requirement_of_factor secondAsked rfl found)
    · intro named level asked
      have inScope := Scope.check_with_datacenter (isLocal level asked) named
      have requires : keyspace.requirement ⟨level, some datacenter⟩ = .ok (majority factor) :=
        requirement_of_factor asked rfl found
      exact ⟨diagnoses_of_requirement inScope requires, tight_of_majority inScope requires⟩

theorem quorums_overlap_three :
    (∃ node ∈ ({"a", "b", "c"} : Finset String),
      (Snapshot.ofNodes ⟨⟨0⟩, ⟨0⟩⟩ "x" ["a", "b", "c", "b"] {"a", "b"}).ListsAlive
        ⟨.quorum, none⟩ ⟨⟨0⟩, ⟨0⟩⟩ node ∧
      (Snapshot.ofNodes ⟨⟨0⟩, ⟨0⟩⟩ "x" ["c", "b", "a"] {"b", "c"}).ListsAlive
        ⟨.serial, none⟩ ⟨⟨0⟩, ⟨0⟩⟩ node) ∧
    (∃ node ∈ ({"a", "b", "c"} : Finset String),
      (Snapshot.ofNodes ⟨⟨0⟩, ⟨0⟩⟩ "x" ["a", "b", "c", "b"] {"a", "b"}).ListsAlive
        ⟨.localQuorum, some "x"⟩ ⟨⟨0⟩, ⟨0⟩⟩ node ∧
      (Snapshot.ofNodes ⟨⟨0⟩, ⟨0⟩⟩ "x" ["c", "b", "a"] {"b", "c"}).ListsAlive
        ⟨.localSerial, some "x"⟩ ⟨⟨0⟩, ⟨0⟩⟩ node) ∧
    Tight ⟨"ks", .ofFactors [("x", 3)]⟩ ⟨.localQuorum, some "x"⟩ 3 := by
  obtain ⟨overall, inDatacenter⟩ := quorums_overlap ⟨"ks", .ofFactors [("x", 3)]⟩
  obtain ⟨quorums, _⟩ := overall 3 rfl
  obtain ⟨localQuorums, named⟩ := inDatacenter "x" 3 rfl
  have overlap := quorums .quorum (by decide) .serial (by decide) {"a", "b", "c"} ⟨⟨0⟩, ⟨0⟩⟩
    (.ofNodes ⟨⟨0⟩, ⟨0⟩⟩ "x" ["a", "b", "c", "b"] {"a", "b"})
    (.ofNodes ⟨⟨0⟩, ⟨0⟩⟩ "x" ["c", "b", "a"] {"b", "c"}) (by decide) (by decide) (by decide)
    (by simp [Snapshot.listsNode_ofNodes_iff]) (by simp [Snapshot.listsNode_ofNodes_iff])
  have localOverlap := localQuorums .localQuorum (by decide) .localSerial (by decide)
    {"a", "b", "c"} ⟨⟨0⟩, ⟨0⟩⟩
    (.ofNodes ⟨⟨0⟩, ⟨0⟩⟩ "x" ["a", "b", "c", "b"] {"a", "b"})
    (.ofNodes ⟨⟨0⟩, ⟨0⟩⟩ "x" ["c", "b", "a"] {"b", "c"}) (by decide) (by decide) (by decide)
    (by simp [Snapshot.listsNode_ofNodes_iff]) (by simp [Snapshot.listsNode_ofNodes_iff])
  refine ⟨overlap ?_ ?_, localOverlap ?_ ?_, (named (by decide) .localQuorum (by decide)).2⟩
  · exact (achieves_iff rfl rfl (by decide)).mpr ⟨_, List.mem_singleton_self _, rfl, by decide⟩
  · exact (achieves_iff rfl rfl (by decide)).mpr ⟨_, List.mem_singleton_self _, rfl, by decide⟩
  · exact (achieves_iff rfl rfl (by decide)).mpr ⟨_, List.mem_singleton_self _, rfl, by decide⟩
  · exact (achieves_iff rfl rfl (by decide)).mpr ⟨_, List.mem_singleton_self _, rfl, by decide⟩

end Keyspace

end RingHealth
