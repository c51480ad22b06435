import Mathlib.Data.List.Forall2
import RingHealth.Proofs.Assembly
import RingHealth.Proofs.LiveNodes
import RingHealth.Proofs.Severity

namespace RingHealth

/-- Whether an object shows a range report, with a status that goes by its numbers. -/
structure Json.Shows (json : Json) (report : RangeReport) : Prop where
  range : json.field? "range" = some report.range
  required : json.field? "required" = some report.required
  alive : json.field? "alive" = some report.alive
  status : json.field? "status" =
    some (if report.required ≤ report.alive then "AVAILABLE" else "UNAVAILABLE")

namespace RangeReport

variable {reports : List RangeReport} {items : List Json}

theorem name_health (report : RangeReport) :
    (health report).name =
      if report.required ≤ report.alive then "AVAILABLE" else "UNAVAILABLE" := by
  simp only [health_eq, isMet_iff]
  split <;> rfl

theorem shows_toJson (report : RangeReport) : (toJson report).Shows report where
  range := ofJson?_toJson report.range
  required := ofJson?_toJson report.required
  alive := ofJson?_toJson report.alive
  status := congrArg some report.name_health

theorem forall₂_shows (reports : List RangeReport) :
    List.Forall₂ Json.Shows (reports.map toJson) reports := by
  induction reports with
  | nil => exact .nil
  | cons report reports reportsIH => exact .cons report.shows_toJson reportsIH

theorem countP_available_add (reports : List RangeReport) :
    (reports.countP fun report => health report = .available) +
      (reports.filter fun report => !report.isMet).length = reports.length := by
  induction reports with
  | nil => rfl
  | cons report reports reportsIH =>
      rw [List.countP_cons, List.length_cons, ← reportsIH]
      cases met : report.isMet <;> simp [health_eq, met] <;> omega

theorem countP_unavailable (shown : List.Forall₂ Json.Shows items reports) :
    (items.countP fun item => item.field? "status" = some "UNAVAILABLE") =
      (reports.filter fun report => !report.isMet).length := by
  induction shown with
  | nil => rfl
  | @cons item report _ _ shows _ shownIH =>
      rw [List.countP_cons, shownIH, shows.status]
      by_cases enough : report.required ≤ report.alive
      · simp [isMet_iff.mpr enough, enough]
      · simp [isMet_eq_false_iff.mpr (UInt32.not_le.mp enough), enough]

end RangeReport

namespace RingReport

variable {keyspace : Keyspace} {scope : Scope} {reports : List RangeReport}

theorem shortfalls_eq_filter (ring : RingReport) :
    ring.shortfalls = ring.ranges.toList.filter fun report => report.alive < report.required :=
  RangeReport.filter_not_isMet _

/-- The difference in the details is not cut off at zero, and is the number of available
ranges. -/
theorem size_sub_shortfalls (ring : RingReport) :
    ring.ranges.size - ring.shortfalls.length =
      ring.ranges.toList.countP fun report => health report = .available := by
  have sum := RangeReport.countP_available_add ring.ranges.toList
  change _ = ring.ranges.size at sum
  rw [← sum, shortfalls, Nat.add_sub_cancel]

/-- Whatever is asked of a ring report, the answers agree with the numbers of its ranges: health,
the ranges that fall short, the details and the document, which is read back here. -/
theorem views_agree {ring : RingReport} (built : build keyspace scope reports = .ok ring) :
    ((health ring = .unknown ↔ ring.ranges.toList = []) ∧
      (health ring = .unavailable ↔
        ∃ report ∈ ring.ranges.toList, report.alive < report.required) ∧
      (health ring = .available ↔ ring.ranges.toList ≠ [] ∧
        ∀ report ∈ ring.ranges.toList, report.required ≤ report.alive)) ∧
    (ring.isHealthy = true ↔ ring.ranges.toList ≠ [] ∧ ring.shortfalls = []) ∧
    (ring.ranges.toList.Pairwise fun earlier later => earlier.range.Precedes later.range) ∧
    ring.shortfalls = (ring.ranges.toList.filter fun report => report.alive < report.required) ∧
    (∃ available : Nat,
      (details ring).field? "total_ranges" = some (.integer ring.ranges.toList.length) ∧
      (details ring).field? "available_ranges" = some (.integer available) ∧
      (details ring).field? "unavailable_ranges" = some (.integer ring.shortfalls.length) ∧
      available + ring.shortfalls.length = ring.ranges.toList.length ∧
      available = ring.ranges.toList.countP fun report => health report = .available) ∧
    (∃ json items, Json.read? (Document.write ring) = some json ∧
      json.field? "status" = some (health ring).name ∧
      json.value? "token_ranges" = some (.array items) ∧
      List.Forall₂ Json.Shows items ring.ranges.toList ∧
      (items.countP fun item => item.field? "status" = some "UNAVAILABLE") =
        ring.shortfalls.length ∧
      ("datacenter" ∈ json.names ↔ scope.level ∈ [.localOne, .localQuorum, .localSerial])) ∧
    ((details ring).contains "datacenter" = true ↔
      scope.level ∈ [.localOne, .localQuorum, .localSerial]) := by
  obtain ⟨inScope, _, _, rfl, _⟩ := build_ok built
  have isLocal := Scope.isLocal_of_check inScope
  obtain ⟨total, available, unavailable, datacenter⟩ := ring.details_fields
  obtain ⟨status, tokenRanges, names⟩ := ring.toJson_fields
  have shown := RangeReport.forall₂_shows ring.ranges.toList
  rw [size_sub_shortfalls] at available
  rw [← isLocal, Level.isLocal_iff] at names
  refine ⟨⟨ring.health_eq_unknown_iff, ?_, ?_⟩, ?_, ring.ranges_ascending, ring.shortfalls_eq_filter,
    ⟨_, total, available, unavailable, RangeReport.countP_available_add _, rfl⟩,
    ⟨_, _, Json.read?_text _, status, tokenRanges, shown, RangeReport.countP_unavailable shown,
      names⟩, ?_⟩
  · simp only [health_eq_unavailable_iff, RangeReport.isMet_eq_false_iff]
  · simp only [health_eq_available_iff, RangeReport.isMet_iff]
  · rw [isHealthy, beq_iff_eq, health_eq_available_iff_shortfalls]
  · rw [datacenter, ← isLocal, Level.isLocal_iff]

theorem views_agree_half :
    ∃ ring, build ⟨"ks", .simple 3⟩ ⟨.localQuorum, some "x"⟩
        [⟨⟨⟨10⟩, ⟨0⟩⟩, 2, 1⟩, ⟨⟨⟨0⟩, ⟨10⟩⟩, 2, 2⟩] = .ok ring ∧
      health ring = .unavailable ∧
      (details ring).field? "available_ranges" = some (.integer 1) ∧
      (details ring).contains "datacenter" = true := by
  have built : build ⟨"ks", .simple 3⟩ ⟨.localQuorum, some "x"⟩
      [⟨⟨⟨10⟩, ⟨0⟩⟩, 2, 1⟩, ⟨⟨⟨0⟩, ⟨10⟩⟩, 2, 2⟩] = .ok ⟨_, _, rfl, _⟩ := rfl
  obtain ⟨⟨_, unavailable, _⟩, _, _, _, ⟨number, _, available, _, _, counted⟩, _, datacenter⟩ :=
    views_agree built
  have one : number = 1 := counted.trans (by decide)
  rw [one] at available
  exact ⟨_, built, unavailable.mpr (by decide), available, datacenter.mpr (by decide)⟩

end RingReport

end RingHealth
