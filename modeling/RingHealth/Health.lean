import RingHealth.Json.Basic
import RingHealth.Table
import RingHealth.Text

namespace RingHealth

inductive Health where
  /-- Nothing is known: there is no range to judge by. -/
  | unknown
  | available
  | unavailable
deriving DecidableEq, Hashable, Repr

namespace Health

instance : Inhabited Health := ⟨unknown⟩

/-- The place of a level in the order from least to most severe. -/
def severity : Health → Nat
  | unknown => 0
  | available => 1
  | unavailable => 2

instance : Ord Health := ⟨compareOn severity⟩

def merge (first second : Health) : Health :=
  if first.severity < second.severity then second else first

theorem merge_comm (first second : Health) : first.merge second = second.merge first := by
  cases first <;> cases second <;> rfl

theorem merge_assoc (first second third : Health) :
    (first.merge second).merge third = first.merge (second.merge third) := by
  cases first <;> cases second <;> cases third <;> rfl

@[simp] theorem merge_self (health : Health) : health.merge health = health := by
  cases health <;> rfl

@[simp] theorem unknown_merge (health : Health) : unknown.merge health = health := by
  cases health <;> rfl

@[simp] theorem merge_unknown (health : Health) : health.merge unknown = health := by
  cases health <;> rfl

theorem severity_merge (first second : Health) :
    (first.merge second).severity = max first.severity second.severity := by
  cases first <;> cases second <;> rfl

/-- The most severe level of a list, `unknown` if it is empty. -/
def worst (levels : List Health) : Health := levels.foldl merge unknown

/-- The levels that are reached one after the other while a list is merged into a level. -/
def running (reached : Health) : List Health → List Health
  | [] => []
  | level :: levels => reached.merge level :: running (reached.merge level) levels

def name : Health → String
  | unknown => "UNKNOWN"
  | available => "AVAILABLE"
  | unavailable => "UNAVAILABLE"

instance : Named Health where
  nameOf := name
  every := [unknown, available, unavailable]
  mem_every health := by cases health <;> decide
  distinct first second := by cases first <;> cases second <;> decide

end Health

abbrev Details := Table (String × Json)

/-- Values that have a health level and may have details to it. -/
class HasHealth (α : Type) where
  health : α → Health
  /-- The detail fields; there are none unless an instance says otherwise. -/
  details : α → Details := fun _ => .empty

export HasHealth (health details)

instance : HasHealth Health where
  health level := level

end RingHealth
