import RingHealth.Document.Basic
import RingHealth.Keyspace
import RingHealth.Table.Lemmas

namespace RingHealth

/-! The JSON forms of replication and keyspaces.

A replication names its class; what else it consists of depends on the class, and the
class may come last.  So all of it has to be kept until the class is known: every part
has to be readable, those that are ignored in the end included, and no more than a fixed
number of arrays and objects may be open at one place of the text.
-/

namespace Replication

inductive Class where
  | simple
  | networkTopology
deriving DecidableEq, Repr

namespace Class

def name : Class → String
  | simple => "SimpleStrategy"
  | networkTopology => "NetworkTopologyStrategy"

instance : Named Class where
  nameOf := name
  every := [simple, networkTopology]
  mem_every cls := by cases cls <;> decide
  distinct first second := by cases first <;> cases second <;> decide

/-- The field that holds the factors of a class. -/
def field : Class → String
  | simple => "replication_factor"
  | networkTopology => "datacenters"

end Class

def factorsToJson (factors : Table (String × UInt32)) : Json :=
  .object (factors.toList.map fun entry => (entry.1, toJson entry.2))

/-- Factors of datacenters in the order of the text. -/
def factorsOfJson? : Json → Option (List (String × UInt32))
  | .object entries =>
      entries.mapM fun entry => (ofJson? entry.2).map fun factor => (entry.1, factor)
  | _ => none

def ofClass? (cls : Class) (factors : Json) : Option Replication :=
  match cls with
  | .simple => (ofJson? factors).map .simple
  | .networkTopology => (factorsOfJson? factors).map .ofFactors

/-- The replication that a JSON form stands for, every part of which is readable: an
object with the class and its field once each, or the array of class and factors. -/
def ofReadable? : Json → Option Replication
  | .array [.string name, factors] => do
      let cls ← Named.ofName? name
      ofClass? cls factors
  | .object entries =>
      match Json.soleValue? entries "class" with
      | some (some (.string name)) => do
          let cls ← Named.ofName? name
          match Json.soleValue? entries cls.field with
          | some (some factors) => ofClass? cls factors
          | _ => none
      | _ => none
  | _ => none

/-- The replication that a JSON form stands for, where the text has room for a number of
arrays and objects inside each other. -/
def ofJsonWithin? (room : Nat) (json : Json) : Option Replication :=
  if json.isReadable && json.nesting ≤ room then ofReadable? json else none

/-- How many arrays and objects may be open at one place of a text. -/
def nestingLimit : Nat := 127

end Replication

/-- The class comes first, then its factors. -/
instance : ToJson Replication where
  toJson
    | .simple factor =>
        .object [("class", .string Replication.Class.simple.name),
          (Replication.Class.simple.field, toJson factor)]
    | .networkTopology factors =>
        .object [("class", .string Replication.Class.networkTopology.name),
          (Replication.Class.networkTopology.field, Replication.factorsToJson factors)]

instance : OfJson Replication := ⟨Replication.ofJsonWithin? Replication.nestingLimit⟩

theorem Json.isReadable_count (count : UInt32) : (toJson count).isReadable = true :=
  Decimal.inDoubleRange_of_lt (Nat.lt_trans count.toNat_lt_size (by decide))

namespace Replication

theorem entriesReadable_factors (factors : List (String × UInt32)) :
    Json.entriesReadable (factors.map fun entry => (entry.1, toJson entry.2)) = true := by
  rw [Json.entriesReadable_iff, List.forall_mem_map]
  exact fun entry _ => Json.isReadable_count entry.2

theorem nestingOfEntries_factors (factors : List (String × UInt32)) :
    Json.nestingOfEntries (factors.map fun entry => (entry.1, toJson entry.2)) = 0 := by
  induction factors with
  | nil => rfl
  | cons factor factors factorsIH =>
      rw [List.map_cons, Json.nestingOfEntries, factorsIH]
      rfl

theorem factorsOfJson?_eq_some_iff {entries : List (String × Json)}
    {factors : List (String × UInt32)} :
    factorsOfJson? (.object entries) = some factors ↔
      entries = factors.map fun entry => (entry.1, toJson entry.2) := by
  rw [factorsOfJson?]
  induction entries generalizing factors with
  | nil => cases factors <;> simp
  | cons entry entries entriesIH =>
      rw [List.mapM_cons]
      simp only [Option.bind_eq_bind, Option.bind_eq_some_iff, Option.map_eq_some_iff,
        Option.pure_def, Option.some.injEq, count_of_json_iff, entriesIH]
      constructor
      · rintro ⟨_, ⟨count, isCount, rfl⟩, later, rest, rfl⟩
        rw [List.map_cons, ← rest, ← isCount]
      · intro same
        cases factors with
        | nil => cases same
        | cons factor factors =>
            obtain ⟨rfl, rest⟩ := List.cons.inj same
            exact ⟨factor, ⟨factor.2, rfl, rfl⟩, factors, rest, rfl⟩

theorem factorsOfJson?_factorsToJson (factors : Table (String × UInt32)) :
    factorsOfJson? (factorsToJson factors) = some factors.toList :=
  factorsOfJson?_eq_some_iff.mpr rfl

theorem ofReadable?_toJson (replication : Replication) :
    ofReadable? (toJson replication) = some replication := by
  cases replication with
  | simple factor =>
      change (ofJson? (toJson factor)).map Replication.simple = _
      rw [ofJson?_toJson]
      rfl
  | networkTopology factors =>
      change (factorsOfJson? (factorsToJson factors)).map ofFactors = _
      rw [factorsOfJson?_factorsToJson, Option.map_some, ofFactors, Table.ofList_toList]

theorem isReadable_toJson (replication : Replication) :
    (toJson replication).isReadable = true := by
  cases replication with
  | simple factor =>
      change (true && ((toJson factor).isReadable && true)) = true
      rw [Json.isReadable_count]
      rfl
  | networkTopology factors =>
      change (true && (Json.entriesReadable (factors.toList.map _) && true)) = true
      rw [entriesReadable_factors]
      rfl

theorem nesting_toJson_le (replication : Replication) : (toJson replication).nesting ≤ 2 := by
  cases replication with
  | simple factor => exact Nat.le_succ 1
  | networkTopology factors =>
      change max 0 (max (Json.nestingOfEntries (factors.toList.map _) + 1) 0) + 1 ≤ 2
      rw [nestingOfEntries_factors]
      exact Nat.le_refl 2

/-- A replication is read wherever a text has room for two objects inside each other. -/
theorem ofJsonWithin?_toJson (replication : Replication) {room : Nat} (enough : 2 ≤ room) :
    ofJsonWithin? room (toJson replication) = some replication := by
  have nesting := Nat.le_trans (nesting_toJson_le replication) enough
  rw [ofJsonWithin?, isReadable_toJson, decide_eq_true nesting, Bool.and_true, if_pos rfl,
    ofReadable?_toJson]

end Replication

theorem Replication.ofJsonWithin?_eq_some_iff {json : Json} {replication : Replication} :
    ofJsonWithin? (nestingLimit - 1) json = some replication ↔
      json.nesting < nestingLimit ∧ ofJson? json = some replication := by
  have whole : (ofJson? json : Option Replication) = ofJsonWithin? nestingLimit json := rfl
  rw [whole, ofJsonWithin?, ofJsonWithin?]
  by_cases inside : json.nesting < nestingLimit
  · have shallow : json.nesting ≤ nestingLimit - 1 := Nat.le_sub_one_of_lt inside
    simp [inside, shallow, Nat.le_of_lt inside]
  · have deep : ¬ json.nesting ≤ nestingLimit - 1 := by
      simp only [nestingLimit] at *
      omega
    simp [inside, deep]

instance : LawfulJson Replication :=
  ⟨fun replication => replication.ofJsonWithin?_toJson (by decide)⟩

instance : ToJson Keyspace where
  toJson keyspace :=
    .object [("name", toJson keyspace.name), ("replication", toJson keyspace.replication)]

/-- The replication of a keyspace stands inside one object or array. -/
instance : OfJson Keyspace where
  ofJson? json :=
    match json.fields? ["name", "replication"] with
    | some [some name, some replication] => do
        let name ← ofJson? name
        let replication ← Replication.ofJsonWithin? (Replication.nestingLimit - 1) replication
        some ⟨name, replication⟩
    | _ => none

instance : LawfulJson Keyspace where
  ofJson?_toJson keyspace := by
    change (do
      let name ← ofJson? (toJson keyspace.name)
      let replication ← Replication.ofJsonWithin? (Replication.nestingLimit - 1)
        (toJson keyspace.replication)
      some (Keyspace.mk name replication)) = _
    rw [ofJson?_toJson, keyspace.replication.ofJsonWithin?_toJson (by decide)]
    rfl

end RingHealth
