import Mathlib.Logic.Function.Basic
import RingHealth.Document.Keyspace
import RingHealth.Document.Scope
import RingHealth.Document.Snapshot

namespace RingHealth.Document

/-- The text that a document is written as once it has been read. -/
def rewrite? (α : Type) [ToJson α] [OfJson α] (text : String) : Option String :=
  (read? text : Option α).map write

/-- Types whose values survive writing and reading. -/
structure RoundTrips (α : Type) [ToJson α] [OfJson α] : Prop where
  read_write : ∀ value : α, read? (write value) = some value
  write_injective : Function.Injective (write : α → String)
  rewrite_stable : ∀ text written, rewrite? α text = some written →
    rewrite? α written = some written

variable {α : Type} [ToJson α] [OfJson α] [LawfulJson α] {first second : α}
  {text written : String}

theorem eq_of_write_eq (same : write first = write second) : first = second := by
  have read : read? (write first) = some first := read?_write first
  rw [same, read?_write] at read
  exact (Option.some.inj read).symm

theorem rewrite?_of_rewrite? (rewritten : rewrite? α text = some written) :
    rewrite? α written = some written := by
  obtain ⟨value, _, rfl⟩ := Option.map_eq_some_iff.mp rewritten
  rw [rewrite?, read?_write, Option.map_some]

theorem roundTrips_of_lawful : RoundTrips α where
  read_write := read?_write
  write_injective := fun _ _ => eq_of_write_eq
  rewrite_stable := fun _ _ => rewrite?_of_rewrite?

/-- Every type of documents survives writing and reading: tokens and ranges, names of health and
of levels, replication with whatever factors, keyspaces, scopes that are in order and others,
and snapshots with all that they list. -/
theorem documents_roundTrip :
    RoundTrips Token ∧ RoundTrips TokenRange ∧ RoundTrips Health ∧ RoundTrips Level ∧
    RoundTrips Replication ∧ RoundTrips Keyspace ∧ RoundTrips Scope ∧ RoundTrips Replica ∧
    RoundTrips Placement ∧ RoundTrips Snapshot :=
  ⟨roundTrips_of_lawful, roundTrips_of_lawful, roundTrips_of_lawful, roundTrips_of_lawful,
    roundTrips_of_lawful, roundTrips_of_lawful, roundTrips_of_lawful, roundTrips_of_lawful,
    roundTrips_of_lawful, roundTrips_of_lawful⟩

/-- Spaces, escapes and an array for an object are accepted, and are gone once rewritten. -/
example :
    rewrite? Replica " [ \"\\u0061\\n\" , \"x\" , true ] " =
      some "\x7b\"node\":\"a\\n\",\"datacenter\":\"x\",\"alive\":true\x7d" := by
  decide +kernel

end RingHealth.Document
