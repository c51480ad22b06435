import RingHealth.RangeReport
import RingHealth.Scope

namespace RingHealth

inductive Importance where
  | trace
  | debug
  | warn
deriving DecidableEq, Repr

def Importance.name : Importance → String
  | trace => "TRACE"
  | debug => "DEBUG"
  | warn => "WARN"

/-- What a check reports on its way. -/
inductive Event where
  | monitorPrepared (keyspace : String) (level : Level) (required : UInt32)
  | rangeUnavailable (report : RangeReport)
  | ringAssembled (keyspace : String) (level : Level) (datacenter : Option String) (ranges : Nat)
  | ringAvailable (keyspace : String)
  | ringUnavailable (keyspace : String) (level : Level) (unavailable total : Nat)
  | ringEmpty (keyspace : String)
deriving DecidableEq, Repr

namespace Event

def importance : Event → Importance
  | rangeUnavailable .. => .trace
  | monitorPrepared .. | ringAssembled .. | ringAvailable .. => .debug
  | ringUnavailable .. | ringEmpty .. => .warn

def message : Event → String
  | monitorPrepared .. => "created token ring diagnostic generator"
  | rangeUnavailable .. => "token range unavailable"
  | ringAssembled .. => "built token ring diagnostic"
  | ringAvailable .. => "token ring available"
  | ringUnavailable .. => "token ring cannot achieve consistency level"
  | ringEmpty .. => "token ring diagnostic has no token ranges"

/-- The fields that go with the message.  A ring that is not about one datacenter shows a
dash for it. -/
def fields : Event → List (String × Json)
  | monitorPrepared keyspace level required =>
      [("keyspace", .string keyspace), ("consistency_level", .string level.name),
        ("required_replicas", .integer required.toNat)]
  | rangeUnavailable report =>
      [("range", .string (toString report.range)), ("required", .integer report.required.toNat),
        ("alive", .integer report.alive.toNat)]
  | ringAssembled keyspace level datacenter ranges =>
      [("keyspace", .string keyspace), ("consistency_level", .string level.name),
        ("datacenter", .string (datacenter.getD "-")), ("ranges", .integer ranges)]
  | ringAvailable keyspace => [("keyspace", .string keyspace)]
  | ringUnavailable keyspace level unavailable total =>
      [("keyspace", .string keyspace), ("consistency_level", .string level.name),
        ("unavailable", .integer unavailable), ("total", .integer total)]
  | ringEmpty keyspace => [("keyspace", .string keyspace)]

end Event

/-- The outcome of a computation, with the events that it emitted in order. -/
structure Traced (α : Type) where
  events : List Event
  outcome : Except Fault α

namespace Traced

def ok (value : α) : Traced α := ⟨[], .ok value⟩

def fail (fault : Fault) : Traced α := ⟨[], .error fault⟩

def emit (event : Event) : Traced Unit := ⟨[event], .ok ()⟩

def andThen (first : Traced α) (next : α → Traced β) : Traced β :=
  match first.outcome with
  | .error fault => ⟨first.events, .error fault⟩
  | .ok value => ⟨first.events ++ (next value).events, (next value).outcome⟩

instance : Monad Traced where
  pure := ok
  bind := andThen

theorem mk_ok_bind (events : List Event) (value : α) (next : α → Traced β) :
    ((⟨events, .ok value⟩ : Traced α) >>= next) =
      ⟨events ++ (next value).events, (next value).outcome⟩ := rfl

theorem mk_error_bind (events : List Event) (fault : Fault) (next : α → Traced β) :
    ((⟨events, .error fault⟩ : Traced α) >>= next) = ⟨events, .error fault⟩ := rfl

/-- What was emitted before has no influence on how a run goes on. -/
theorem outcome_bind_congr {first second : Traced α} (same : first.outcome = second.outcome)
    (next : α → Traced β) : (first >>= next).outcome = (second >>= next).outcome := by
  obtain ⟨_, outcome⟩ := first
  obtain ⟨_, _⟩ := second
  cases same
  cases outcome <;> rfl

end Traced

end RingHealth
