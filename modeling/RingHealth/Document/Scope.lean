import RingHealth.Document.Basic
import RingHealth.Health
import RingHealth.Scope

namespace RingHealth

instance : ToJson Health := ⟨fun health => .string health.name⟩

instance : OfJson Health := ⟨fun json => json.tag?.bind Named.ofName?⟩

instance : LawfulJson Health := ⟨fun _ => Named.ofName?_eq_some_iff.mpr rfl⟩

instance : ToJson Level := ⟨fun level => .string level.name⟩

instance : OfJson Level := ⟨fun json => json.tag?.bind Named.ofName?⟩

theorem Level.ofJson?_eq_some_iff {json : Json} {level : Level} :
    ofJson? json = some level ↔
      json = .string level.name ∨ json = .object [(level.name, .null)] := by
  have tagged : (ofJson? json : Option Level) = json.tag?.bind Named.ofName? := rfl
  rw [tagged, Option.bind_eq_some_iff]
  simp only [Named.ofName?_eq_some_iff, ← Json.tag?_eq_some_iff, exists_eq_right']
  rfl

instance : LawfulJson Level := ⟨fun _ => Named.ofName?_eq_some_iff.mpr rfl⟩

/-- The level that a field stands for; a field that is left out stands for the default. -/
def Scope.levelOfField? : Option Json → Option Level
  | none => some (default : Scope).level
  | some json => ofJson? json

def Scope.datacenterOfField? : Option Json → Option (Option String)
  | none => some (default : Scope).datacenter
  | some .null => some none
  | some json => (ofJson? json).map some

instance : ToJson Scope where
  toJson scope :=
    .object (("consistency_level", toJson scope.level) ::
      scope.datacenter.toList.map fun name => ("datacenter", toJson name))

instance : OfJson Scope where
  ofJson? json :=
    match json.fields? ["consistency_level", "datacenter"] with
    | some [level, datacenter] => do
        let level ← Scope.levelOfField? level
        let datacenter ← Scope.datacenterOfField? datacenter
        some ⟨level, datacenter⟩
    | _ => none

instance : LawfulJson Scope where
  ofJson?_toJson scope := by
    cases scope with
    | mk level datacenter => cases level <;> cases datacenter <;> rfl

end RingHealth
