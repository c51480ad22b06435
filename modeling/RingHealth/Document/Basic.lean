import RingHealth.Json.Reader.Lemmas

namespace RingHealth

class ToJson (α : Type) where
  toJson : α → Json

class OfJson (α : Type) where
  ofJson? : Json → Option α

export ToJson (toJson)
export OfJson (ofJson?)

/-- What the value under a name stands for. -/
def Json.field? [OfJson α] (json : Json) (name : String) : Option α :=
  (json.value? name).bind ofJson?

namespace Document

def write [ToJson α] (value : α) : String := (toJson value).text

def read? [OfJson α] (text : String) : Option α := do
  let json ← Json.read? text
  ofJson? json

end Document

/-- Types that read the JSON form that they write. -/
class LawfulJson (α : Type) [ToJson α] [OfJson α] : Prop where
  ofJson?_toJson (value : α) : ofJson? (toJson value) = some value

export LawfulJson (ofJson?_toJson)

theorem Document.read?_write [ToJson α] [OfJson α] [LawfulJson α] (value : α) :
    Document.read? (Document.write value) = some value := by
  rw [Document.read?, Document.write, Json.read?_text]
  exact ofJson?_toJson value

instance : ToJson Bool := ⟨.bool⟩

instance : OfJson Bool where
  ofJson?
    | .bool value => some value
    | _ => none

instance : LawfulJson Bool := ⟨fun _ => rfl⟩

instance : ToJson String := ⟨.string⟩

instance : OfJson String where
  ofJson?
    | .string text => some text
    | _ => none

instance : LawfulJson String := ⟨fun _ => rfl⟩

instance : ToJson UInt32 := ⟨fun count => .integer count.toNat⟩

/-- Only integer literals are counts, and only those that fit. -/
instance : OfJson UInt32 where
  ofJson?
    | .integer value =>
        if 0 ≤ value ∧ value.toNat < UInt32.size then some (.ofNat value.toNat) else none
    | _ => none

/-- A count is read from its integer literal and from nothing else. -/
theorem count_of_json_iff {json : Json} {count : UInt32} :
    ofJson? json = some count ↔ json = toJson count := by
  constructor
  · intro read
    cases json with
    | integer value =>
        change (if 0 ≤ value ∧ value.toNat < UInt32.size then
          some (UInt32.ofNat value.toNat) else none) = _ at read
        split at read
        · rename_i isCount
          cases read
          change _ = Json.integer (UInt32.ofNat value.toNat).toNat
          rw [UInt32.toNat_ofNat_of_lt' isCount.2, Int.toNat_of_nonneg isCount.1]
        · cases read
    | null | bool | decimal | string | array | object | garbled => cases read
  · rintro rfl
    change (if 0 ≤ (count.toNat : Int) ∧ (count.toNat : Int).toNat < UInt32.size then
      some (UInt32.ofNat (count.toNat : Int).toNat) else none) = _
    have small := count.toNat_lt_size
    rw [if_pos ⟨by omega, by simpa using small⟩]
    simp

instance : LawfulJson UInt32 := ⟨fun _ => count_of_json_iff.mpr rfl⟩

instance [ToJson α] : ToJson (List α) := ⟨fun values => .array (values.map toJson)⟩

instance [OfJson α] : OfJson (List α) where
  ofJson?
    | .array items => items.mapM ofJson?
    | _ => none

instance [ToJson α] [OfJson α] [LawfulJson α] : LawfulJson (List α) where
  ofJson?_toJson values := by
    change (values.map toJson).mapM ofJson? = some values
    induction values with
    | nil => rfl
    | cons value values valuesIH =>
        rw [List.map_cons, List.mapM_cons, ofJson?_toJson, valuesIH]
        rfl

end RingHealth
