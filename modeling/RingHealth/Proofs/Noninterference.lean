import RingHealth.Proofs.Verdict

namespace RingHealth

/-! What a check does not look at.

A check asks a keyspace for its name and for the one factor that its level is about, and a
placement for its range and its live nodes.  Two checks that get the same answers emit the same
events and have the same outcome, as far as a report shows it, whatever else there is: dead
replicas, replicas of other datacenters, replicas listed repeatedly or in another order, and
factors that do not matter at the level.
-/

/-- Whether two replications have the same factor where a scope asks for one.  A level that asks for
none, such as `ONE`, is content with any two of them. -/
structure Scope.SameFactor (scope : Scope) (first second : Replication) : Prop where
  ofDatacenter : scope.level ∈ [.localOne, .localQuorum, .localSerial] →
    ∀ datacenter, scope.datacenter = some datacenter →
      first.factorIn? datacenter = second.factorIn? datacenter
  ofAll : scope.level ∈ [.quorum, .serial, .all] → first.factorSum? = second.factorSum?

/-- Whether two placements are of one range and have the same live nodes at a scope. -/
structure Scope.SameLive (scope : Scope) (first second : Placement) : Prop where
  range : first.range = second.range
  nodes : liveNodes scope first.replicas = liveNodes scope second.replicas

structure RingView where
  health : Health
  isHealthy : Bool
  shortfalls : List RangeReport
  details : Details
  text : String

def RingReport.view (ring : RingReport) : RingView :=
  ⟨health ring, ring.isHealthy, ring.shortfalls, details ring, Document.write ring⟩

/-- A run, with its result replaced by a view of it. -/
def Traced.viewed (run : Traced α) (view : α → β) : Traced β := ⟨run.events, run.outcome.map view⟩

variable {first second : Keyspace} {scope : Scope} {earlier later : Snapshot}

theorem Keyspace.requirement_congr (sameName : first.name = second.name)
    (sameFactor : scope.SameFactor first.replication second.replication) :
    first.requirement scope = second.requirement scope := by
  obtain ⟨level, datacenter⟩ := scope
  have overall := sameFactor.ofAll
  have inDatacenter := sameFactor.ofDatacenter
  unfold requirement overallFactor localFactor
  cases level <;> cases datacenter <;> simp_all

namespace Monitor

variable {monitor other : Monitor}

theorem viewed_prepare (keyspace : Keyspace) (scope : Scope) :
    (prepare keyspace scope).viewed Monitor.required =
      match scope.check, keyspace.requirement scope with
      | .error fault, _ => .fail fault
      | .ok (), .error fault => .fail fault
      | .ok (), .ok required =>
          ⟨[.monitorPrepared keyspace.name scope.level required], .ok required⟩ := by
  rcases prepare_cases keyspace scope with
    ⟨_, outOfScope, run⟩ | ⟨_, inScope, failed, run⟩ | ⟨_, inScope, requires, run⟩
  · rw [run, outOfScope]
    rfl
  · rw [run, inScope, failed]
    rfl
  · rw [run, inScope, requires]
    rfl

theorem map_examine_congr
    (alike : List.Forall₂ (fun placement changed => monitor.assess placement = other.assess changed)
      earlier later) : earlier.map monitor.examine = later.map other.examine := by
  induction alike with
  | nil => rfl
  | cons same _ alikeIH =>
      rw [List.map_cons, List.map_cons, alikeIH, examine_eq, examine_eq, same]

theorem viewed_inspect_congr (sameName : monitor.keyspace.name = other.keyspace.name)
    (sameScope : monitor.scope = other.scope)
    (same : earlier.map monitor.examine = later.map other.examine) :
    (monitor.inspect earlier).viewed RingReport.view =
      (other.inspect later).viewed RingReport.view := by
  obtain ⟨⟨name, replication⟩, scope, required, inScope, requires⟩ := monitor
  obtain ⟨⟨otherName, otherReplication⟩, otherScope, otherRequired, _, _⟩ := other
  cases sameName
  cases sameScope
  rw [inspect, inspect, same, RingReport.assemble_of_check _ inScope,
    RingReport.assemble_of_check _ inScope]
  obtain ⟨_, outcome⟩ := RingReport.collect .empty (later.map _)
  cases outcome <;> rfl

/-- Two checks differ in nothing that they show, if the keyspaces have the same name and the same
factor where the scope asks for one, and the snapshots list the same ranges with the same live
nodes. -/
theorem noninterference (first second : Keyspace) (scope : Scope) (earlier later : Snapshot)
    (sameName : first.name = second.name)
    (sameFactor : scope.SameFactor first.replication second.replication)
    (sameLive : List.Forall₂ scope.SameLive earlier later) :
    (prepare first scope).viewed Monitor.required =
      (prepare second scope).viewed Monitor.required ∧
    ∀ monitor other, (prepare first scope).outcome = .ok monitor →
      (prepare second scope).outcome = .ok other →
      (monitor.inspect earlier).viewed RingReport.view =
        (other.inspect later).viewed RingReport.view := by
  have requirement := Keyspace.requirement_congr sameName sameFactor
  refine ⟨by rw [viewed_prepare, viewed_prepare, requirement, sameName], ?_⟩
  intro monitor other prepared otherPrepared
  obtain ⟨rfl, rfl, _⟩ := prepare_of_ok prepared
  obtain ⟨rfl, sameScope, _⟩ := prepare_of_ok otherPrepared
  have sameRequired : monitor.required = other.required := by
    have requires := other.requires
    rw [sameScope, ← requirement, monitor.requires] at requires
    exact Except.ok.inj requires
  apply viewed_inspect_congr sameName sameScope.symm
  apply map_examine_congr
  refine sameLive.imp ?_
  intro placement changed same
  exact assess_congr same.range sameRequired (sameScope ▸ same.nodes)

/-- Neither a sum of factors that is no count nor replicas that are dead, remote or repeated make
a difference in a datacenter. -/
theorem noninterference_datacenter :
    (inspect ⟨⟨"ks", .simple 3⟩, ⟨.localQuorum, some "x"⟩, 2, rfl, rfl⟩
        [⟨⟨⟨0⟩, ⟨0⟩⟩, [⟨"a", "x", true⟩, ⟨"b", "x", false⟩]⟩]).viewed RingReport.view =
      (inspect ⟨⟨"ks", .ofFactors [("x", 3), ("y", 4294967295)]⟩, ⟨.localQuorum, some "x"⟩, 2,
          rfl, rfl⟩
        [⟨⟨⟨0⟩, ⟨0⟩⟩, [⟨"c", "y", true⟩, ⟨"a", "x", true⟩, ⟨"a", "x", true⟩]⟩]).viewed
          RingReport.view := by
  have sameFactor : Scope.SameFactor ⟨.localQuorum, some "x"⟩ (.simple 3)
      (.ofFactors [("x", 3), ("y", 4294967295)]) := by
    refine ⟨?_, fun atLevel => absurd atLevel (by decide)⟩
    intro _ datacenter given
    cases given
    rfl
  have sameLive : Scope.SameLive ⟨.localQuorum, some "x"⟩
      ⟨⟨⟨0⟩, ⟨0⟩⟩, [⟨"a", "x", true⟩, ⟨"b", "x", false⟩]⟩
      ⟨⟨⟨0⟩, ⟨0⟩⟩, [⟨"c", "y", true⟩, ⟨"a", "x", true⟩, ⟨"a", "x", true⟩]⟩ := ⟨rfl, by decide⟩
  obtain ⟨_, alike⟩ := noninterference ⟨"ks", .simple 3⟩
    ⟨"ks", .ofFactors [("x", 3), ("y", 4294967295)]⟩ _ _ _ rfl sameFactor (.cons sameLive .nil)
  exact alike _ _ rfl rfl

end Monitor

end RingHealth
