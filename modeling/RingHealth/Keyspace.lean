import RingHealth.Scope
import RingHealth.Table

namespace RingHealth

inductive Replication where
  /-- One factor for the whole cluster, which knows no datacenters. -/
  | simple (factor : UInt32)
  /-- A factor for each datacenter, by the datacenter's name. -/
  | networkTopology (factors : Table (String × UInt32))
deriving DecidableEq

namespace Replication

/-- Placement by factors of datacenters; of several factors of one datacenter the last
counts. -/
def ofFactors (factors : List (String × UInt32)) : Replication :=
  networkTopology (.ofList factors)

def addCounts? (first second : UInt32) : Option UInt32 :=
  if first.toNat + second.toNat < UInt32.size then some (first + second) else none

/-- The replicas of a range in all datacenters together, if their number is a count. -/
def factorSum? : Replication → Option UInt32
  | simple factor => some factor
  | networkTopology factors =>
      factors.toList.foldlM (fun total entry => addCounts? total entry.2) 0

/-- The replicas of a range in a datacenter.  A single factor holds for every
datacenter; otherwise a datacenter without a factor has none. -/
def factorIn? (replication : Replication) (datacenter : String) : Option UInt32 :=
  match replication with
  | simple factor => some factor
  | networkTopology factors => (factors.get? datacenter).map Prod.snd

end Replication

structure Keyspace where
  name : String
  replication : Replication
deriving DecidableEq

/-- The least number of replicas that is more than half of all. -/
def majority (replicas : UInt32) : UInt32 := replicas / 2 + 1

theorem toNat_majority (replicas : UInt32) :
    (majority replicas).toNat = replicas.toNat / 2 + 1 := by
  have bound := replicas.toNat_lt
  rw [majority, UInt32.toNat_add, UInt32.toNat_div]
  apply Nat.mod_eq_of_lt
  simp only [UInt32.reduceToNat]
  omega

theorem majority_le_iff {replicas : UInt32} {number : Nat} :
    (majority replicas).toNat ≤ number ↔ replicas.toNat < 2 * number := by
  rw [toNat_majority]
  omega

namespace Keyspace

def overallFactor (keyspace : Keyspace) : Except Fault UInt32 :=
  match keyspace.replication.factorSum? with
  | some total => .ok total
  | none => .error (.invalidArgument (.factorOverflow keyspace.name))

def localFactor (keyspace : Keyspace) (scope : Scope) : Except Fault UInt32 :=
  match scope.datacenter with
  | none => .error (.invalidArgument (.uncountable scope.level))
  | some datacenter =>
      match keyspace.replication.factorIn? datacenter with
      | some factor => .ok factor
      | none => .error (.unknownDatacenter keyspace.name datacenter)

/-- How many replicas of each range a scope requires to be alive.  The datacenter of the
scope matters for the datacenter-local levels only. -/
def requirement (keyspace : Keyspace) (scope : Scope) : Except Fault UInt32 :=
  match scope.level with
  | .any | .one => .ok 1
  | .two => .ok 2
  | .three => .ok 3
  | .quorum | .serial => keyspace.overallFactor.map majority
  | .all => keyspace.overallFactor
  | .localOne => (keyspace.localFactor scope).map fun _ => 1
  | .localQuorum | .localSerial => (keyspace.localFactor scope).map majority
  | .eachQuorum => .error (.unsupportedLevel scope.level)

variable {keyspace : Keyspace} {scope : Scope} {total factor required : UInt32}
  {datacenter : String}

theorem requirement_of_sum (overall : scope.level ∈ [.quorum, .serial])
    (sum : keyspace.replication.factorSum? = some total) :
    keyspace.requirement scope = .ok (majority total) := by
  have counted : keyspace.overallFactor = .ok total := by simp [overallFactor, sum]
  simp only [List.mem_cons, List.not_mem_nil, or_false] at overall
  rcases overall with atLevel | atLevel <;>
    simp [requirement, atLevel, counted, Except.map]

theorem requirement_of_all (everyReplica : scope.level = .all)
    (sum : keyspace.replication.factorSum? = some total) :
    keyspace.requirement scope = .ok total := by
  simp [requirement, everyReplica, overallFactor, sum]

theorem requirement_of_factor (inDatacenter : scope.level ∈ [.localQuorum, .localSerial])
    (given : scope.datacenter = some datacenter)
    (found : keyspace.replication.factorIn? datacenter = some factor) :
    keyspace.requirement scope = .ok (majority factor) := by
  have counted : keyspace.localFactor scope = .ok factor := by
    simp [localFactor, given, found]
  simp only [List.mem_cons, List.not_mem_nil, or_false] at inDatacenter
  rcases inDatacenter with atLevel | atLevel <;>
    simp [requirement, atLevel, counted, Except.map]

/-- What a requirement is made of, for each level that has one. -/
theorem requirement_eq_ok_iff :
    keyspace.requirement scope = .ok required ↔
      match scope.level with
      | .any | .one => required = 1
      | .two => required = 2
      | .three => required = 3
      | .quorum | .serial => ∃ total, keyspace.overallFactor = .ok total ∧ majority total = required
      | .all => keyspace.overallFactor = .ok required
      | .localOne => (∃ factor, keyspace.localFactor scope = .ok factor) ∧ required = 1
      | .localQuorum | .localSerial =>
          ∃ factor, keyspace.localFactor scope = .ok factor ∧ majority factor = required
      | .eachQuorum => False := by
  unfold requirement
  cases scope.level <;> cases keyspace.overallFactor <;> cases keyspace.localFactor scope <;>
    simp [Except.map, eq_comm]

end Keyspace

end RingHealth
