import Mathlib.Data.List.Forall2
import RingHealth.Json.Basic

namespace RingHealth

section Lists

variable {α β : Type} {R S : α → β → Prop} {values : List α}

theorem forall₂_exists_iff :
    (∃ others, List.Forall₂ R values others ∧ List.Forall₂ S values others) ↔
      ∀ value ∈ values, ∃ other, R value other ∧ S value other := by
  induction values with
  | nil => simp
  | cons value values valuesIH =>
      rw [List.forall_mem_cons, ← valuesIH]
      refine ⟨fun related => ?_, fun related => ?_⟩
      · obtain ⟨_, first, second⟩ := related
        cases first with
        | cons head tail =>
            cases second with
            | cons otherHead otherTail => exact ⟨⟨_, head, otherHead⟩, _, tail, otherTail⟩
      · obtain ⟨⟨other, head, otherHead⟩, others, tail, otherTail⟩ := related
        exact ⟨other :: others, .cons head tail, .cons otherHead otherTail⟩

theorem mapM_eq_some_iff {f : α → Option β} {others : List β} :
    values.mapM f = some others ↔
      List.Forall₂ (fun value other => f value = some other) values others := by
  induction values generalizing others with
  | nil => cases others <;> simp
  | cons value values valuesIH =>
      rw [List.mapM_cons, List.forall₂_cons_left_iff]
      simp only [Option.bind_eq_bind, Option.bind_eq_some_iff, Option.pure_def, Option.some.injEq,
        valuesIH]
      refine exists_congr fun other => ?_
      simp only [exists_and_left, eq_comm]

/-- Values are related to the items of a list one by one, and to nothing after its end. -/
theorem forall₂_padded {R : α → Option β → Prop} {items : List β}
    (fits : items.length ≤ values.length)
    (related : ∀ (index : Nat) value, values[index]? = some value → R value items[index]?) :
    List.Forall₂ R values
      (items.map some ++ List.replicate (values.length - items.length) none) := by
  induction values generalizing items with
  | nil =>
      obtain rfl := List.eq_nil_of_length_eq_zero (Nat.le_zero.mp fits)
      exact .nil
  | cons value values valuesIH =>
      have head := related 0 value rfl
      cases items with
      | nil =>
          have tail := @valuesIH [] (Nat.zero_le _) fun index => related (index + 1)
          exact .cons head tail
      | cons item items =>
          rw [List.length_cons, List.length_cons, Nat.add_sub_add_right]
          exact .cons head
            (valuesIH (Nat.le_of_succ_le_succ fits) fun index => related (index + 1))

end Lists

namespace Json

/-- Whether exactly one entry has a name, and a value is the value of it. -/
def SoleEntry (entries : List (String × Json)) (name : String) (value : Json) : Prop :=
  (entries.countP fun entry => entry.1 == name) = 1 ∧ (name, value) ∈ entries

variable {entries others : List (String × Json)} {items : List Json} {name : String}
  {names : List String} {value : Json} {given : Option Json}

theorem soleEntry_iff_filter :
    SoleEntry entries name value ↔
      (entries.filter fun entry => entry.1 == name) = [(name, value)] := by
  have listed : (name, value) ∈ entries ↔
      (name, value) ∈ entries.filter fun entry => entry.1 == name := by
    simp
  rw [SoleEntry, List.countP_eq_length_filter, listed, List.length_eq_one_iff]
  constructor
  · rintro ⟨⟨entry, single⟩, member⟩
    rw [single, List.mem_singleton] at member
    rw [single, member]
  · intro single
    exact ⟨⟨_, single⟩, by simp [single]⟩

theorem soleEntry_perm (reordered : entries.Perm others) :
    SoleEntry entries name value ↔ SoleEntry others name value := by
  rw [SoleEntry, SoleEntry, reordered.countP_eq, reordered.mem_iff]

theorem soleValue?_eq_some_iff :
    soleValue? entries name = some (some value) ↔ SoleEntry entries name value := by
  rw [soleEntry_iff_filter, soleValue?]
  constructor
  · intro read
    split at read
    · cases read
    · rename_i found _ single
      cases read
      have named : (found, value) ∈ entries.filter fun entry => entry.1 == name := by
        simp [single]
      have same : found = name := by simpa using (List.mem_filter.mp named).2
      rw [single, same]
    · cases read
  · intro single
    rw [single]

/-- What an object has under a name: exactly one value, or no entry at all. -/
def Gives (entries : List (String × Json)) (name : String) : Option Json → Prop
  | none => ∀ entry ∈ entries, entry.1 ≠ name
  | some value => SoleEntry entries name value

theorem soleValue?_eq_some_iff_gives :
    soleValue? entries name = some given ↔ Gives entries name given := by
  cases given with
  | some value => exact soleValue?_eq_some_iff
  | none =>
      rw [soleValue?, Gives]
      refine ⟨fun read => ?_, fun absent => ?_⟩
      · split at read
        · rename_i empty
          intro entry member same
          exact List.filter_eq_nil_iff.mp empty entry member (beq_iff_eq.mpr same)
        · cases read
        · cases read
      · rw [List.filter_eq_nil_iff.mpr fun entry member => by simpa using absent entry member]

theorem gives_perm (reordered : entries.Perm others) :
    Gives entries name given ↔ Gives others name given := by
  cases given with
  | none => simp only [Gives, reordered.mem_iff]
  | some value => exact soleEntry_perm reordered

theorem gives_filter {keep : String × Json → Bool}
    (kept : ∀ entry, entry.1 = name → keep entry = true) :
    Gives (entries.filter keep) name given ↔ Gives entries name given := by
  have same : soleValue? (entries.filter keep) name = soleValue? entries name := by
    rw [soleValue?, soleValue?, List.filter_filter]
    congr 1
    refine List.filter_congr fun entry _ => ?_
    by_cases named : entry.1 = name
    · rw [kept entry named, Bool.and_true]
    · rw [beq_eq_false_iff_ne.mpr named, Bool.false_and]
  rw [← soleValue?_eq_some_iff_gives, ← soleValue?_eq_some_iff_gives, same]

theorem fields?_object_eq_some_iff {values : List (Option Json)} :
    (object entries).fields? names = some values ↔ List.Forall₂ (Gives entries) names values := by
  rw [fields?, mapM_eq_some_iff]
  simp only [soleValue?_eq_some_iff_gives]

theorem fields?_array_of_le (fits : items.length ≤ names.length) :
    (array items).fields? names =
      some (items.map some ++ List.replicate (names.length - items.length) none) :=
  if_pos fits

theorem fields?_array_of_lt (longer : names.length < items.length) :
    (array items).fields? names = none :=
  if_neg (Nat.not_le_of_lt longer)

end Json

end RingHealth
