import RingHealth.Document.Keyspace
import RingHealth.Document.Scope
import RingHealth.Document.Snapshot
import RingHealth.Json.Fields
import RingHealth.Proofs.Spelling

namespace RingHealth

/-! Reading records.

What a record is read from are the values of its declared fields.  An object may hold them in any
order and among other entries, an array holds them in the order of declaration; both are read alike.
A field is given once or, if the record may do without it, not at all.
-/

structure RecordField (α : Type) where
  name : String
  /-- Whether a record is one that has left the field out. -/
  LeftOut : α → Prop
  /-- Whether a JSON value stands for what a record has in the field. -/
  Given : Json → α → Prop

namespace RecordField

variable {α β : Type}

def required [OfJson β] (name : String) (part : α → β) : RecordField α where
  name := name
  LeftOut _ := False
  Given json record := ofJson? json = some (part record)

/-- Whether a field with a value, or left out, stands for what a record has there. -/
def Stands (field : RecordField α) : Option Json → α → Prop
  | none => field.LeftOut
  | some json => field.Given json

def Accepts (field : RecordField α) (given : Option Json) : Prop :=
  ∃ record, field.Stands given record

end RecordField

def TokenRange.fields : List (RecordField TokenRange) :=
  [.required "start" TokenRange.start, .required "end" TokenRange.stop]

def Replica.fields : List (RecordField Replica) :=
  [.required "node" Replica.node, .required "datacenter" Replica.datacenter,
    .required "alive" Replica.alive]

def Placement.fields : List (RecordField Placement) :=
  [.required "range" Placement.range, .required "replicas" Placement.replicas]

/-- The replication is inside the object or array of the keyspace, which leaves room for one array
or object less. -/
def Keyspace.fields : List (RecordField Keyspace) :=
  [.required "name" Keyspace.name,
    { name := "replication"
      LeftOut := fun _ => False
      Given := fun json keyspace =>
        json.nesting < Replication.nestingLimit ∧ ofJson? json = some keyspace.replication }]

/-- The level is given by its exact name, alone or as the single name of an object with the value
`null`; a datacenter that is `null` is none. -/
def Scope.fields : List (RecordField Scope) :=
  [{ name := "consistency_level"
     LeftOut := fun scope => scope.level = .quorum
     Given := fun json scope =>
      json = .string scope.level.name ∨ json = .object [(scope.level.name, .null)] },
    { name := "datacenter"
      LeftOut := fun scope => scope.datacenter = none
      Given := fun json scope =>
        json = .null ∧ scope.datacenter = none ∨
          ∃ name, json = .string name ∧ scope.datacenter = some name }]

/-- Whether a type of records is read from the values of declared fields and from nothing else. -/
structure ReadByFields (α : Type) [OfJson α] (fields : List (RecordField α)) : Prop where
  text : ∀ text json, Json.read? text = some json →
    (Document.read? text : Option α) = ofJson? json
  /-- Every field has to be acceptable, and then every field is read for itself. -/
  accepted : ∀ entries, (∃ record : α, ofJson? (.object entries) = some record) ↔
    ∀ field ∈ fields, ∃ given, Json.Gives entries field.name given ∧ field.Accepts given
  object : ∀ entries (record : α), ofJson? (.object entries) = some record ↔
    ∀ field ∈ fields, ∃ given, Json.Gives entries field.name given ∧ field.Stands given record
  /-- Neither the order of the entries nor entries with other names matter. -/
  declared : ∀ entries others : List (String × Json),
    (entries.filter fun entry => entry.1 ∈ fields.map RecordField.name).Perm
      (others.filter fun entry => entry.1 ∈ fields.map RecordField.name) →
    (ofJson? (.object entries) : Option α) = ofJson? (.object others)
  /-- An array gives the fields in order; those after its end are left out. -/
  array : ∀ entries items, items.length ≤ fields.length →
    (∀ (index : Nat) field, fields[index]? = some field → Json.Gives entries field.name items[index]?) →
    (ofJson? (.array items) : Option α) = ofJson? (.object entries)
  longer : ∀ items, fields.length < items.length → (ofJson? (.array items) : Option α) = none

/-- Whether a type of records is read from the values of declared fields, none of which may be left
out. -/
structure ReadCompletely (α : Type) [OfJson α] (fields : List (RecordField α)) : Prop
    extends ReadByFields α fields where
  sole : ∀ entries, (∃ record : α, ofJson? (.object entries) = some record) ↔
    ∀ field ∈ fields, ∃ json, Json.SoleEntry entries field.name json ∧
      ∃ record, field.Given json record
  shorter : ∀ items, items.length < fields.length → (ofJson? (.array items) : Option α) = none

/-- Whether a type of records is decoded field by field. -/
structure Decodes (α : Type) [OfJson α] (fields : List (RecordField α)) : Prop where
  iff_stands : ∀ json (record : α), ofJson? json = some record ↔
    ∃ given, json.fields? (fields.map RecordField.name) = some given ∧
      List.Forall₂ (fun field given => field.Stands given record) fields given
  /-- What is acceptable for each field is there in one record. -/
  independent : ∀ given, List.Forall₂ RecordField.Accepts fields given →
    ∃ record, List.Forall₂ (fun field given => field.Stands given record) fields given

namespace Decodes

variable {α : Type} [OfJson α] {fields : List (RecordField α)} {first second : Json} {record : α}
  {entries others : List (String × Json)} {items : List Json}

theorem congr_fields (decodes : Decodes α fields)
    (same : first.fields? (fields.map RecordField.name) =
      second.fields? (fields.map RecordField.name)) :
    (ofJson? first : Option α) = ofJson? second := by
  ext record
  rw [decodes.iff_stands, decodes.iff_stands, same]

theorem object_iff (decodes : Decodes α fields) :
    ofJson? (.object entries) = some record ↔
      ∀ field ∈ fields, ∃ given, Json.Gives entries field.name given ∧ field.Stands given record := by
  rw [decodes.iff_stands, ← forall₂_exists_iff]
  simp only [Json.fields?_object_eq_some_iff, List.forall₂_map_left_iff]

theorem accepted_iff (decodes : Decodes α fields) :
    (∃ record : α, ofJson? (.object entries) = some record) ↔
      ∀ field ∈ fields, ∃ given, Json.Gives entries field.name given ∧ field.Accepts given := by
  refine ⟨fun decoded field member => ?_, fun acceptable => ?_⟩
  · obtain ⟨record, decoded⟩ := decoded
    obtain ⟨given, gives, stands⟩ := decodes.object_iff.mp decoded field member
    exact ⟨given, gives, record, stands⟩
  · obtain ⟨given, gives, accepts⟩ := forall₂_exists_iff.mpr acceptable
    obtain ⟨record, stands⟩ := decodes.independent given accepts
    exact ⟨record, decodes.object_iff.mpr (forall₂_exists_iff.mp ⟨given, gives, stands⟩)⟩

theorem congr_declared (decodes : Decodes α fields)
    (same : (entries.filter fun entry => entry.1 ∈ fields.map RecordField.name).Perm
      (others.filter fun entry => entry.1 ∈ fields.map RecordField.name)) :
    (ofJson? (.object entries) : Option α) = ofJson? (.object others) := by
  ext record
  rw [decodes.object_iff, decodes.object_iff]
  refine forall₂_congr fun field member => exists_congr fun given => and_congr_left fun _ => ?_
  have kept : ∀ entry : String × Json, entry.1 = field.name →
      decide (entry.1 ∈ fields.map RecordField.name) = true := by
    intro entry named
    exact decide_eq_true (named ▸ List.mem_map_of_mem member)
  rw [← Json.gives_filter kept, Json.gives_perm same, Json.gives_filter kept]

theorem array_eq (decodes : Decodes α fields) (fits : items.length ≤ fields.length)
    (inOrder : ∀ (index : Nat) field, fields[index]? = some field →
      Json.Gives entries field.name items[index]?) :
    (ofJson? (.array items) : Option α) = ofJson? (.object entries) := by
  apply decodes.congr_fields
  rw [Json.fields?_array_of_le (by simpa using fits), eq_comm, Json.fields?_object_eq_some_iff,
    List.forall₂_map_left_iff, List.length_map]
  exact forall₂_padded fits inOrder

theorem array_longer (decodes : Decodes α fields) (longer : fields.length < items.length) :
    (ofJson? (.array items) : Option α) = none := by
  refine Option.eq_none_iff_forall_ne_some.mpr fun record decoded => ?_
  obtain ⟨given, shown, _⟩ := (decodes.iff_stands _ _).mp decoded
  rw [Json.fields?_array_of_lt (by simpa using longer)] at shown
  cases shown

/-- Records of two fields that are read one after the other. -/
theorem pair {β γ : Type} {first second : RecordField α} {build : β → γ → α}
    {readFirst : Option Json → Option β} {readSecond : Option Json → Option γ}
    (reads : ∀ json, (ofJson? json : Option α) =
      match json.fields? [first.name, second.name] with
      | some [one, other] =>
          (readFirst one).bind fun x => (readSecond other).bind fun y => some (build x y)
      | _ => none)
    (firstStands : ∀ given x y, first.Stands given (build x y) ↔ readFirst given = some x)
    (secondStands : ∀ given x y, second.Stands given (build x y) ↔ readSecond given = some y)
    (built : ∀ record, ∃ x y, record = build x y) : Decodes α [first, second] where
  iff_stands json record := by
    obtain ⟨x, y, rfl⟩ := built record
    rw [reads]
    refine ⟨fun decoded => ?_, fun stands => ?_⟩
    · split at decoded
      · rename_i one other shown
        obtain ⟨x, isX, decoded⟩ := Option.bind_eq_some_iff.mp decoded
        obtain ⟨y, isY, decoded⟩ := Option.bind_eq_some_iff.mp decoded
        rw [← Option.some.inj decoded]
        exact ⟨_, shown, .cons ((firstStands ..).mpr isX) (.cons ((secondStands ..).mpr isY) .nil)⟩
      · cases decoded
    · obtain ⟨given, shown, stands⟩ := stands
      cases stands with
      | cons one rest =>
          cases rest with
          | cons other rest =>
              cases rest
              have shown : json.fields? [first.name, second.name] = some [_, _] := shown
              rw [shown]
              dsimp only
              rw [(firstStands ..).mp one, (secondStands ..).mp other]
              rfl
  independent given accepts := by
    cases accepts with
    | cons one rest =>
        cases rest with
        | cons other rest =>
            cases rest
            obtain ⟨record, one⟩ := one
            obtain ⟨x, _, rfl⟩ := built record
            obtain ⟨record, other⟩ := other
            obtain ⟨_, y, rfl⟩ := built record
            have one := (firstStands _ x y).mpr ((firstStands ..).mp one)
            have other := (secondStands _ x y).mpr ((secondStands ..).mp other)
            exact ⟨build x y, .cons one (.cons other .nil)⟩

theorem readByFields (decodes : Decodes α fields) : ReadByFields α fields where
  text text json stands := by
    rw [Document.read?, stands, Option.bind_eq_bind, Option.bind_some]
  accepted _ := decodes.accepted_iff
  object _ _ := decodes.object_iff
  declared _ _ := decodes.congr_declared
  array _ _ := decodes.array_eq
  longer _ := decodes.array_longer

end Decodes

theorem RecordField.required_stands {α β : Type} [OfJson β] {name : String} {part : α → β}
    {given : Option Json} {record : α} :
    (RecordField.required name part).Stands given record ↔
      given.bind ofJson? = some (part record) := by
  cases given with
  | none => simp [Stands, required]
  | some json => rfl

theorem match_required {α β γ : Type} (found : Option (List (Option Json)))
    (first : Json → Option β) (second : Json → Option γ) (build : β → γ → α) :
    (match found with
      | some [some one, some other] =>
          (first one).bind fun x => (second other).bind fun y => some (build x y)
      | _ => none) =
    match found with
      | some [one, other] =>
          (one.bind first).bind fun x => (other.bind second).bind fun y => some (build x y)
      | _ => none := by
  obtain _ | _ | ⟨_ | one, _ | ⟨_ | other, _ | rest⟩⟩ := found <;> simp

theorem TokenRange.decodes : Decodes TokenRange fields :=
  .pair (fun _ => match_required _ ofJson? ofJson? TokenRange.mk)
    (fun _ _ _ => RecordField.required_stands) (fun _ _ _ => RecordField.required_stands)
    (fun range => ⟨range.start, range.stop, rfl⟩)

theorem Placement.decodes : Decodes Placement fields :=
  .pair (fun _ => match_required _ ofJson? ofJson? Placement.mk)
    (fun _ _ _ => RecordField.required_stands) (fun _ _ _ => RecordField.required_stands)
    (fun placement => ⟨placement.range, placement.replicas, rfl⟩)

theorem Replica.decodes : Decodes Replica fields where
  iff_stands json replica := by
    refine ⟨fun decoded => ?_, fun stands => ?_⟩
    · rw [ofJson?, instOfJsonReplica] at decoded
      dsimp only at decoded
      split at decoded
      · rename_i node datacenter alive shown
        obtain ⟨_, isNode, decoded⟩ := Option.bind_eq_some_iff.mp decoded
        obtain ⟨_, isDatacenter, decoded⟩ := Option.bind_eq_some_iff.mp decoded
        obtain ⟨_, isAlive, decoded⟩ := Option.bind_eq_some_iff.mp decoded
        cases decoded
        exact ⟨_, shown, .cons isNode (.cons isDatacenter (.cons isAlive .nil))⟩
      · cases decoded
    · obtain ⟨given, shown, stands⟩ := stands
      simp only [fields, List.forall₂_cons_left_iff, List.forall₂_nil_left_iff,
        RecordField.required_stands, Option.bind_eq_some_iff] at stands
      obtain ⟨_, _, ⟨node, rfl, isNode⟩, ⟨_, _, ⟨datacenter, rfl, isDatacenter⟩,
        ⟨_, _, ⟨alive, rfl, isAlive⟩, rfl, rfl⟩, rfl⟩, rfl⟩ := stands
      have shown : json.fields? ["node", "datacenter", "alive"] =
        some [some node, some datacenter, some alive] := shown
      rw [ofJson?, instOfJsonReplica]
      dsimp only
      rw [shown]
      simp only [isNode, isDatacenter, isAlive, Option.bind_eq_bind, Option.bind_some]
  independent given accepts := by
    simp only [fields, List.forall₂_cons_left_iff, List.forall₂_nil_left_iff] at accepts
    obtain ⟨_, _, ⟨one, node⟩, ⟨_, _, ⟨two, datacenter⟩, ⟨_, _, ⟨three, alive⟩, rfl, rfl⟩, rfl⟩,
      rfl⟩ := accepts
    have isNode := RecordField.required_stands.mp node
    have isDatacenter := RecordField.required_stands.mp datacenter
    have isAlive := RecordField.required_stands.mp alive
    refine ⟨⟨one.node, two.datacenter, three.alive⟩, .cons ?_ (.cons ?_ (.cons ?_ .nil))⟩
    · exact RecordField.required_stands.mpr isNode
    · exact RecordField.required_stands.mpr isDatacenter
    · exact RecordField.required_stands.mpr isAlive

theorem Keyspace.decodes : Decodes Keyspace fields :=
  .pair
    (fun _ => match_required _ ofJson?
      (Replication.ofJsonWithin? (Replication.nestingLimit - 1)) Keyspace.mk)
    (fun _ _ _ => RecordField.required_stands)
    (fun given _ _ => by
      cases given with
      | none => simp [RecordField.Stands]
      | some json => exact Replication.ofJsonWithin?_eq_some_iff.symm)
    (fun keyspace => ⟨keyspace.name, keyspace.replication, rfl⟩)

theorem Scope.decodes : Decodes Scope fields :=
  .pair (fun _ => rfl)
    (fun given level _ => by
      cases given with
      | none => exact ⟨fun same => congrArg some same.symm, fun same => (Option.some.inj same).symm⟩
      | some json => exact Level.ofJson?_eq_some_iff.symm)
    (fun given _ _ => by
      cases given with
      | none => exact ⟨fun same => congrArg some same.symm, fun same => (Option.some.inj same).symm⟩
      | some json => cases json <;> simp [RecordField.Stands, datacenterOfField?, ofJson?, eq_comm])
    (fun scope => ⟨scope.level, scope.datacenter, rfl⟩)

def AllRequired {α : Type} (fields : List (RecordField α)) : Prop :=
  ∀ field ∈ fields, ∀ record, ¬ field.LeftOut record

section Required

variable {α : Type} {fields : List (RecordField α)} {given : List (Option Json)} {record : α}

theorem AllRequired.given_ne_none (required : AllRequired fields)
    (stands : List.Forall₂ (fun field given => field.Stands given record) fields given) :
    ∀ value ∈ given, value ≠ none := by
  induction stands with
  | nil => simp
  | cons head _ tailIH =>
      obtain ⟨headRequired, tailRequired⟩ := List.forall_mem_cons.mp required
      refine List.forall_mem_cons.mpr ⟨?_, tailIH tailRequired⟩
      rintro rfl
      exact headRequired record head

variable [OfJson α] {entries : List (String × Json)} {items : List Json}

theorem Decodes.accepted_iff_sole (decodes : Decodes α fields) (required : AllRequired fields) :
    (∃ record : α, ofJson? (.object entries) = some record) ↔
      ∀ field ∈ fields, ∃ json, Json.SoleEntry entries field.name json ∧
        ∃ record, field.Given json record := by
  rw [decodes.accepted_iff]
  refine forall₂_congr fun field member => ⟨fun acceptable => ?_, fun acceptable => ?_⟩
  · obtain ⟨given, gives, record, stands⟩ := acceptable
    cases given with
    | none => exact absurd stands (required field member record)
    | some json => exact ⟨json, gives, record, stands⟩
  · obtain ⟨json, sole, given⟩ := acceptable
    exact ⟨some json, sole, given⟩

theorem Decodes.array_shorter (decodes : Decodes α fields) (required : AllRequired fields)
    (shorter : items.length < fields.length) : (ofJson? (.array items) : Option α) = none := by
  refine Option.eq_none_iff_forall_ne_some.mpr fun record decoded => ?_
  obtain ⟨given, shown, stands⟩ := (decodes.iff_stands _ _).mp decoded
  rw [Json.fields?_array_of_le (by simpa using Nat.le_of_lt shorter), Option.some.injEq] at shown
  refine required.given_ne_none stands none ?_ rfl
  rw [← shown, List.length_map, List.mem_append, List.mem_replicate]
  exact .inr ⟨Nat.sub_ne_zero_of_lt shorter, rfl⟩

theorem Decodes.readCompletely (decodes : Decodes α fields) (required : AllRequired fields) :
    ReadCompletely α fields where
  toReadByFields := decodes.readByFields
  sole _ := decodes.accepted_iff_sole required
  shorter _ := decodes.array_shorter required

end Required

/-- Records are read from the values of their declared fields, from an object as from an array.
Token ranges, replicas, placements and keyspaces need each field exactly once.  A scope may leave
out its level, which is `QUORUM` then, and its datacenter. -/
theorem records_readByFields :
    (∀ json, Json.read? json.text = some json) ∧
    ReadCompletely TokenRange TokenRange.fields ∧ ReadCompletely Replica Replica.fields ∧
    ReadCompletely Placement Placement.fields ∧ ReadCompletely Keyspace Keyspace.fields ∧
    ReadByFields Scope Scope.fields := by
  refine ⟨Json.read?_text, TokenRange.decodes.readCompletely ?_, Replica.decodes.readCompletely ?_,
    Placement.decodes.readCompletely ?_, Keyspace.decodes.readCompletely ?_,
    Scope.decodes.readByFields⟩
  all_goals
    simp only [AllRequired, TokenRange.fields, Replica.fields, Placement.fields, Keyspace.fields,
      List.forall_mem_cons]
    simp [RecordField.required]

/-- An object with the value `null` for its single name gives a level, though it is no name. -/
theorem scope_level_from_object :
    Document.read? "\x7b\"consistency_level\":\x7b\"ONE\":null\x7d\x7d" =
      some (Scope.mk .one none) ∧
    ¬ ∀ entries, (∃ scope : Scope, ofJson? (.object entries) = some scope) →
      ∀ json, Json.SoleEntry entries "consistency_level" json →
        ∃ level : Level, json = .string level.name := by
  refine ⟨by decide +kernel, fun byName => ?_⟩
  have decoded : (ofJson? (.object [("consistency_level", .object [("ONE", .null)])]) :
      Option Scope) = some ⟨.one, none⟩ := by
    decide +kernel
  obtain ⟨level, named⟩ := byName _ ⟨_, decoded⟩ (.object [("ONE", .null)]) ⟨rfl, by simp⟩
  cases named

/-- Other entries may be repeated, and a replica may be an array. -/
example :
    (Document.read? "\x7b\"x\":1,\"replicas\":[[\"n\",\"d\",true]],\"x\":null,\"range\":[1,2]\x7d" :
      Option Placement) = some ⟨⟨⟨1⟩, ⟨2⟩⟩, [⟨"n", "d", true⟩]⟩ := by
  decide +kernel

end RingHealth
