import RingHealth.Document.Keyspace
import RingHealth.Json.Fields
import RingHealth.Proofs.FactorSum

namespace RingHealth

/-! The JSON objects that describe a replication.

What an object describes is said of its entries without regard to their order: the class is named
once, the field of that class is there once, and nothing else matters.  So the field may stand
before the class that gives it its meaning, the field of the other class may stand there as well,
any number of times and with any value, and repeated names are refused in the object itself but not
among its datacenters.
-/

namespace Json

/-- Values without fractions: literals, integers of 64 bits with or without a sign, texts, arrays
and objects. -/
inductive Plain : Json → Prop where
  | null : Plain null
  | bool (value : Bool) : Plain (bool value)
  | integer {value : Int} (above : Int64.minValue.toInt ≤ value) (below : value < UInt64.size) :
      Plain (integer value)
  | string (value : String) : Plain (string value)
  | array {items : List Json} (plain : ∀ item ∈ items, Plain item) : Plain (array items)
  | object {entries : List (String × Json)} (plain : ∀ entry ∈ entries, Plain entry.2) :
      Plain (object entries)

theorem Plain.isReadable {json : Json} (plain : json.Plain) : json.isReadable = true := by
  induction plain with
  | null | bool | string => rfl
  | integer above below =>
      apply Decimal.inDoubleRange_of_lt
      have least : Int64.minValue.toInt = -9223372036854775808 := by decide
      simp only [UInt64.size] at *
      omega
  | array _ itemsIH => exact itemsReadable_iff.mpr itemsIH
  | object _ entriesIH => exact entriesReadable_iff.mpr entriesIH

end Json

namespace Replication

inductive Describes (entries : List (String × Json)) : Replication → Prop where
  | simple {factor : UInt32}
      (ofClass : Json.SoleEntry entries "class" (.string "SimpleStrategy"))
      (sole : Json.SoleEntry entries "replication_factor" (.integer factor.toNat)) :
      Describes entries (.simple factor)
  | networkTopology {factors : List (String × UInt32)}
      (ofClass : Json.SoleEntry entries "class" (.string "NetworkTopologyStrategy"))
      (sole : Json.SoleEntry entries "datacenters"
        (.object (factors.map fun entry => (entry.1, .integer entry.2.toNat)))) :
      Describes entries (.ofFactors factors)

variable {entries others : List (String × Json)} {replication : Replication} {cls : Class}
  {name : String}

theorem ofReadable?_eq_some_iff :
    ofReadable? (.object entries) = some replication ↔
      ∃ cls factors, Json.SoleEntry entries "class" (.string cls.name) ∧
        Json.SoleEntry entries cls.field factors ∧ ofClass? cls factors = some replication := by
  rw [ofReadable?]
  constructor
  · intro read
    split at read
    · rename_i name ofClass
      obtain ⟨cls, named, readField⟩ := Option.bind_eq_some_iff.mp read
      obtain rfl := Named.ofName?_eq_some_iff.mp named
      split at readField
      · rename_i factors sole
        exact ⟨cls, factors, Json.soleValue?_eq_some_iff.mp ofClass,
          Json.soleValue?_eq_some_iff.mp sole, readField⟩
      · cases readField
    · cases read
  · rintro ⟨cls, factors, ofClass, sole, read⟩
    have named : Named.ofName? cls.name = some cls := Named.ofName?_eq_some_iff.mpr rfl
    rw [Json.soleValue?_eq_some_iff.mpr ofClass]
    dsimp only
    rw [named, Option.bind_eq_bind, Option.bind_some,
      Json.soleValue?_eq_some_iff.mpr sole]
    exact read

theorem ofReadable?_eq_some_iff_describes :
    ofReadable? (.object entries) = some replication ↔ Describes entries replication := by
  rw [ofReadable?_eq_some_iff]
  constructor
  · rintro ⟨cls, json, ofClass, sole, read⟩
    cases cls with
    | simple =>
        obtain ⟨factor, isCount, rfl⟩ := Option.map_eq_some_iff.mp read
        obtain rfl := count_of_json_iff.mp isCount
        exact .simple ofClass sole
    | networkTopology =>
        obtain ⟨factors, areCounts, rfl⟩ := Option.map_eq_some_iff.mp read
        cases json with
        | object inner =>
            obtain rfl := factorsOfJson?_eq_some_iff.mp areCounts
            exact .networkTopology ofClass sole
        | null | bool | integer | decimal | string | array | garbled => cases areCounts
  · intro describes
    cases describes with
    | @simple factor ofClass sole =>
        have isCount : ofJson? (.integer factor.toNat) = some factor := count_of_json_iff.mpr rfl
        refine ⟨.simple, _, ofClass, sole, ?_⟩
        rw [ofClass?, isCount, Option.map_some]
    | @networkTopology factors ofClass sole =>
        have areCounts : factorsOfJson? (.object (factors.map fun entry =>
            (entry.1, .integer entry.2.toNat))) = some factors :=
          factorsOfJson?_eq_some_iff.mpr rfl
        refine ⟨.networkTopology, _, ofClass, sole, ?_⟩
        rw [ofClass?, areCounts, Option.map_some]

/-- Whether two objects name the same class and have the same value for the field of this class,
or are wrong about them alike. -/
structure Agree (entries others : List (String × Json)) : Prop where
  sameClass : ∀ value, Json.SoleEntry entries "class" value ↔ Json.SoleEntry others "class" value
  sameField : ∀ cls : Class, Json.SoleEntry entries "class" (.string cls.name) → ∀ value,
    Json.SoleEntry entries cls.field value ↔ Json.SoleEntry others cls.field value

theorem Agree.symm (agree : Agree entries others) : Agree others entries where
  sameClass value := (agree.sameClass value).symm
  sameField cls ofClass value :=
    (agree.sameField cls ((agree.sameClass _).mpr ofClass) value).symm

theorem Agree.of_perm (reordered : others.Perm entries) : Agree entries others where
  sameClass _ := Json.soleEntry_perm reordered.symm
  sameField _ _ _ := Json.soleEntry_perm reordered.symm

theorem Describes.of_agree (describes : Describes entries replication)
    (agree : Agree entries others) : Describes others replication := by
  cases describes with
  | simple ofClass sole =>
      exact .simple ((agree.sameClass _).mp ofClass) ((agree.sameField .simple ofClass _).mp sole)
  | networkTopology ofClass sole =>
      exact .networkTopology ((agree.sameClass _).mp ofClass)
        ((agree.sameField .networkTopology ofClass _).mp sole)

theorem read?_eq_some_iff_describes {text : String}
    (plain : ∀ entry ∈ entries, entry.2.Plain)
    (shallow : (Json.object entries).nesting ≤ nestingLimit)
    (stands : Json.read? text = some (.object entries)) :
    (Document.read? text : Option Replication) = some replication ↔
      Describes entries replication := by
  have readable := (Json.Plain.object plain).isReadable
  rw [Document.read?, stands, Option.bind_eq_bind, Option.bind_some]
  change ofJsonWithin? nestingLimit (.object entries) = some replication ↔ _
  rw [ofJsonWithin?, readable, decide_eq_true shallow, Bool.and_true, if_pos rfl,
    ofReadable?_eq_some_iff_describes]

/-- An object of values without fractions that is not nested too deeply is read as the replication
that it describes, and refused if it describes none.  Objects that agree on the class and on its
field are read alike, whatever else they hold; in particular the order of the entries does not
matter.  Of several factors of one datacenter the last counts. -/
theorem read?_object (entries : List (String × Json)) (plain : ∀ entry ∈ entries, entry.2.Plain)
    (shallow : (Json.object entries).nesting ≤ nestingLimit) :
    Json.read? (Json.object entries).text = some (.object entries) ∧
    (∀ text, Json.read? text = some (.object entries) → ∀ replication : Replication,
      Document.read? text = some replication ↔ Describes entries replication) ∧
    (∀ others, (∀ entry ∈ others, entry.2.Plain) → (Json.object others).nesting ≤ nestingLimit →
      Agree entries others → ∀ text other, Json.read? text = some (.object entries) →
      Json.read? other = some (.object others) →
      (Document.read? text : Option Replication) = Document.read? other) ∧
    (∀ others, others.Perm entries → Agree entries others) ∧
    ∀ factors datacenter, (ofFactors factors).factorIn? datacenter =
      (factors.reverse.find? fun entry => entry.1 = datacenter).map Prod.snd := by
  refine ⟨Json.read?_text _, fun text stands replication =>
    read?_eq_some_iff_describes plain shallow stands, ?_, fun others => Agree.of_perm,
    factorIn?_ofFactors⟩
  intro others othersPlain othersShallow agree text other stands otherStands
  ext replication
  rw [read?_eq_some_iff_describes plain shallow stands,
    read?_eq_some_iff_describes othersPlain othersShallow otherStands]
  exact ⟨fun describes => describes.of_agree agree,
    fun describes => describes.of_agree agree.symm⟩

/-- The class may come last or first, the field of the other class may be repeated and hold no
number, and the second factor of a datacenter counts. -/
theorem read?_object_field_first :
    ∃ entries : List (String × Json),
      entries = [("datacenters", .object [("x", .integer 3), ("x", .integer 5)]),
        ("replication_factor", .null), ("replication_factor", .array [.integer (-1)]),
        ("class", .string "NetworkTopologyStrategy")] ∧
      Document.read? (Json.object entries).text = some (Replication.ofFactors [("x", 3), ("x", 5)]) ∧
      Document.read? (Json.object entries.reverse).text =
        some (Replication.ofFactors [("x", 3), ("x", 5)]) ∧
      (ofFactors [("x", 3), ("x", 5)]).factorIn? "x" = some 5 := by
  refine ⟨_, rfl, ?_⟩
  have plain : ∀ entry ∈ [("datacenters", Json.object [("x", .integer 3), ("x", .integer 5)]),
      ("replication_factor", .null), ("replication_factor", .array [.integer (-1)]),
      ("class", .string "NetworkTopologyStrategy")], entry.2.Plain := by
    simp only [List.forall_mem_cons]
    refine ⟨.object ?_, .null, .array ?_, .string _, by simp⟩
    · simp only [List.forall_mem_cons]
      exact ⟨.integer (by decide) (by decide), .integer (by decide) (by decide), by simp⟩
    · simp only [List.forall_mem_cons]
      exact ⟨.integer (by decide) (by decide), by simp⟩
  obtain ⟨stands, reads, alike, reordered, last⟩ := read?_object _ plain (by decide)
  have read := (reads _ stands (ofFactors [("x", 3), ("x", 5)])).mpr
    (.networkTopology ⟨by decide, by simp⟩ ⟨by decide, by simp⟩)
  refine ⟨read, ?_, (last _ _).trans (by decide)⟩
  rw [← alike _ (fun entry member => plain entry (List.mem_reverse.mp member)) (by decide)
    (reordered _ (List.reverse_perm _)) _ _ stands (Json.read?_text _)]
  exact read

end Replication

end RingHealth
