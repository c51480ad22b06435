import RingHealth.Event
import RingHealth.Keyspace

namespace RingHealth

/-- The reports of all ranges of a keyspace at one scope. -/
structure RingReport where
  keyspace : Keyspace
  scope : Scope
  inScope : scope.check = .ok ()
  ranges : Table RangeReport

namespace RingReport

/-- Adds reports to a table, each of them as it is supplied, up to the first range that is
there already. -/
def collect (reports : Table RangeReport) : List (Traced RangeReport) → Traced (Table RangeReport)
  | [] => pure reports
  | next :: supply => do
      let report ← next
      match reports.insertNew? report with
      | none => .fail (.duplicateRange report.range)
      | some larger => collect larger supply

/-- Assembles the report of a ring from reports of its ranges in any order. -/
def assemble (keyspace : Keyspace) (scope : Scope) (supply : List (Traced RangeReport)) :
    Traced RingReport :=
  match inScope : scope.check with
  | .error fault => .fail fault
  | .ok () => do
      let ranges ← collect .empty supply
      .emit (.ringAssembled keyspace.name scope.level scope.datacenter ranges.size)
      pure { keyspace, scope, inScope, ranges }

/-- The report of a ring from reports of its ranges that are there already. -/
def build (keyspace : Keyspace) (scope : Scope) (reports : List RangeReport) :
    Except Fault RingReport :=
  (assemble keyspace scope (reports.map pure)).outcome

def shortfalls (report : RingReport) : List RangeReport :=
  report.ranges.toList.filter fun range => !range.isMet

instance : HasHealth RingReport where
  health report := .worst (report.ranges.toList.map health)
  details report :=
    let total := report.ranges.size
    let unavailable := report.shortfalls.length
    let datacenter : List (String × Json) :=
      report.scope.datacenter.toList.map fun name => ("datacenter", .string name)
    .ofList <|
      [("keyspace", .string report.keyspace.name),
        ("consistency_level", .string report.scope.level.name)] ++
      datacenter ++
      [("total_ranges", .integer total),
        ("available_ranges", .integer (total - unavailable : Nat)),
        ("unavailable_ranges", .integer unavailable)]

/-- Whether the ring has ranges and every one of them achieves the level. -/
def isHealthy (report : RingReport) : Bool := health report == .available

end RingReport

end RingHealth
