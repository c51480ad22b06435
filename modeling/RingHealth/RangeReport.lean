import RingHealth.Health
import RingHealth.TokenRange

namespace RingHealth

/-- The required and the living replicas of a token range. -/
structure RangeReport where
  range : TokenRange
  required : UInt32
  alive : UInt32
deriving DecidableEq, Repr

namespace RangeReport

instance : Keyed RangeReport TokenRange := ⟨range⟩

/-- Reports are compared by their keys, whatever their counts. -/
instance : BEq RangeReport := ⟨fun first second => key first == key second⟩

instance : Hashable RangeReport := ⟨fun report => hash (key report)⟩

instance : Ord RangeReport := ⟨compareOn key⟩

instance : Std.TransOrd RangeReport := inferInstanceAs (Std.TransCmp (compareOn key))

theorem compare_eq_compare_key (first second : RangeReport) :
    compare first second = compare (key first) (key second) := rfl

theorem beq_eq_beq_key (first second : RangeReport) :
    (first == second) = (key first == key second) := rfl

instance : LT RangeReport := ⟨fun first second => compare first second = .lt⟩

instance (first second : RangeReport) : Decidable (first < second) :=
  inferInstanceAs (Decidable (compare first second = .lt))

def isMet (report : RangeReport) : Bool := report.required ≤ report.alive

instance : HasHealth RangeReport where
  health report := if report.isMet then .available else .unavailable
  details report :=
    .ofList [("required", .integer report.required.toNat), ("alive", .integer report.alive.toNat)]

theorem health_eq (report : RangeReport) :
    health report = if report.isMet then .available else .unavailable := rfl

theorem isMet_iff {report : RangeReport} :
    report.isMet = true ↔ report.required ≤ report.alive := decide_eq_true_iff

theorem isMet_eq_false_iff {report : RangeReport} :
    report.isMet = false ↔ report.alive < report.required := by
  rw [← Bool.not_eq_true, isMet_iff, UInt32.not_le]

theorem filter_not_isMet (reports : List RangeReport) :
    reports.filter (fun report => !report.isMet) =
      reports.filter fun report => report.alive < report.required := by
  refine List.filter_congr fun report _ => ?_
  rw [Bool.eq_iff_iff, Bool.not_eq_true', isMet_eq_false_iff, decide_eq_true_iff]

end RangeReport

end RingHealth
