import RingHealth.Table

namespace RingHealth

/-- A step on a table of records `α` with keys `κ`. -/
inductive TableStep (α κ : Type) where
  /-- Adds a record unless its key is present. -/
  | insert (record : α)
  /-- Puts a record in, in place of one of an equal key. -/
  | replace (record : α)
  | remove (wanted : κ)
  | get (wanted : κ)
  /-- Asks for the records that do not come before a key. -/
  | getFrom (bound : κ)
  | popFirst
  | popLast
deriving Repr

inductive TableAnswer (α : Type) where
  /-- Whether the step changed which keys are present. -/
  | flag (value : Bool)
  /-- The record that was found or has given way. -/
  | record (value : Option α)
  | records (values : List α)
deriving DecidableEq, Repr

namespace Table

variable {α κ : Type} [Keyed α κ] [Ord κ] [Std.TransOrd κ]

/-- Performs a step: its answer, and the table after it. -/
def perform (table : Table α) : TableStep α κ → TableAnswer α × Table α
  | .insert record =>
      match table.insertNew? record with
      | some larger => (.flag true, larger)
      | none => (.flag false, table)
  | .replace record => (.record (table.get? (key record)), table.insert record)
  | .remove wanted => (.flag (table.contains wanted), table.erase wanted)
  | .get wanted => (.record (table.get? wanted), table)
  | .getFrom bound => (.records (table.atLeast bound), table)
  | .popFirst =>
      match table.popFirst? with
      | some (first, others) => (.record (some first), others)
      | none => (.record none, table)
  | .popLast =>
      match table.popLast? with
      | some (last, others) => (.record (some last), others)
      | none => (.record none, table)

/-- Performs steps one after the other: what each of them answers, and the table after it. -/
def performAll (table : Table α) : List (TableStep α κ) → List (TableAnswer α × Table α)
  | [] => []
  | step :: steps => table.perform step :: (table.perform step).2.performAll steps

end Table

end RingHealth
