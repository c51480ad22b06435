import RingHealth.Document.Scope
import RingHealth.Document.Snapshot
import RingHealth.RingReport
import RingHealth.Table.Lemmas

namespace RingHealth

instance : ToJson RangeReport where
  toJson report :=
    .object [("range", toJson report.range), ("status", toJson (health report)),
      ("required", toJson report.required), ("alive", toJson report.alive)]

instance : ToJson RingReport where
  toJson report :=
    .object <|
      [("keyspace", toJson report.keyspace.name),
        ("consistency_level", toJson report.scope.level)] ++
      (report.scope.datacenter.toList.map fun name => ("datacenter", toJson name)) ++
      [("status", toJson (health report)), ("token_ranges", toJson report.ranges.toList)]

instance : ToJson Details := ⟨fun details => .object details.toList⟩

def Details.field? (details : Details) (name : String) : Option Json :=
  (details.get? name).map Prod.snd

namespace RingReport

theorem details_fields (ring : RingReport) :
    (details ring).field? "total_ranges" = some (.integer ring.ranges.size) ∧
    (details ring).field? "available_ranges" =
      some (.integer (ring.ranges.size - ring.shortfalls.length : Nat)) ∧
    (details ring).field? "unavailable_ranges" = some (.integer ring.shortfalls.length) ∧
    (details ring).contains "datacenter" = ring.scope.datacenter.isSome := by
  simp only [Details.field?, Table.contains, details, Table.get?_ofList]
  cases ring.scope.datacenter <;> simp [key]

theorem toJson_fields (ring : RingReport) :
    (toJson ring).field? "status" = some (health ring).name ∧
    (toJson ring).value? "token_ranges" = some (.array (ring.ranges.toList.map toJson)) ∧
    ("datacenter" ∈ (toJson ring).names ↔ ring.scope.datacenter.isSome = true) := by
  simp only [Json.field?, Json.value?, Json.names, toJson, Json.soleValue?]
  cases ring.scope.datacenter <;> simp [ofJson?]

end RingReport

end RingHealth
