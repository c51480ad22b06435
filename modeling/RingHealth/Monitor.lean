import RingHealth.RingReport
import RingHealth.Snapshot

namespace RingHealth

structure Monitor where
  keyspace : Keyspace
  scope : Scope
  /-- How many replicas of each range have to be alive. -/
  required : UInt32
  inScope : scope.check = .ok ()
  requires : keyspace.requirement scope = .ok required

namespace Monitor

/-- Prepares a monitor, if the scope is in order and the keyspace can meet it. -/
def prepare (keyspace : Keyspace) (scope : Scope) : Traced Monitor :=
  match inScope : scope.check with
  | .error fault => .fail fault
  | .ok () =>
      match requires : keyspace.requirement scope with
      | .error fault => .fail fault
      | .ok required => do
          .emit (.monitorPrepared keyspace.name scope.level required)
          pure { keyspace, scope, required, inScope, requires }

def aliveCount (monitor : Monitor) (replicas : List Replica) : UInt32 :=
  saturatingCount (aliveNodes monitor.scope replicas).length

def assess (monitor : Monitor) (placement : Placement) : RangeReport :=
  ⟨placement.range, monitor.required, monitor.aliveCount placement.replicas⟩

/-- Assesses a placement, and announces it if it has too few living replicas. -/
def examine (monitor : Monitor) (placement : Placement) : Traced RangeReport := do
  let report := monitor.assess placement
  unless report.isMet do
    .emit (.rangeUnavailable report)
  pure report

def verdict (report : RingReport) : Event :=
  match health report with
  | .available => .ringAvailable report.keyspace.name
  | .unavailable =>
      .ringUnavailable report.keyspace.name report.scope.level
        report.shortfalls.length report.ranges.size
  | .unknown => .ringEmpty report.keyspace.name

/-- The report on a snapshot, whose placements are examined one after the other while they are
added to it. -/
def inspect (monitor : Monitor) (snapshot : Snapshot) : Traced RingReport := do
  let report ← RingReport.assemble monitor.keyspace monitor.scope (snapshot.map monitor.examine)
  .emit (verdict report)
  pure report

end Monitor

end RingHealth
