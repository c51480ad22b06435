import RingHealth.Table

namespace RingHealth.Table

section Ends

variable {α κ : Type} [Keyed α κ] [Ord κ]

theorem mem_atLeast_iff {table : Table α} {bound : κ} {record : α} :
    record ∈ table.atLeast bound ↔
      record ∈ table.toList ∧ compare (key record) bound ≠ .lt := by
  rw [atLeast, List.mem_filter, bne_iff_ne]
  rfl

variable [Std.TransOrd κ]

/-- Erasing the key of a listed record leaves the records before and after it. -/
theorem toList_erase {table : Table α} {before after : List α} {record : α}
    (split : table.toList = before ++ record :: after) :
    (table.erase (key record)).toList = before ++ after := by
  have ascending : (before ++ record :: after).Pairwise fun earlier later =>
      compare (key earlier) (key later) = .lt := split ▸ table.ascending
  obtain ⟨_, recordFirst, beforeLess⟩ := List.pairwise_append.mp ascending
  have keptBefore : ∀ earlier ∈ before, (compare (key earlier) (key record) != .eq) = true := by
    intro earlier member
    rw [beforeLess earlier member record List.mem_cons_self]
    rfl
  have keptAfter : ∀ later ∈ after, (compare (key later) (key record) != .eq) = true := by
    intro later member
    have less := (List.pairwise_cons.mp recordFirst).1 later member
    rw [Std.OrientedCmp.gt_iff_lt.mpr less]
    rfl
  change table.toList.filter (fun other => compare (key other) (key record) != .eq) = _
  rw [split, List.filter_append, List.filter_cons_of_neg (by simp [Std.ReflOrd.compare_self]),
    List.filter_eq_self.mpr keptBefore, List.filter_eq_self.mpr keptAfter]

theorem popFirst?_cases (table : Table α) :
    (table.toList = [] ∧ table.popFirst? = none) ∨
      ∃ first others, table.toList = first :: others ∧
        table.popFirst? = some (first, table.erase (key first)) := by
  obtain ⟨records, ascending⟩ := table
  cases records with
  | nil => exact .inl ⟨rfl, rfl⟩
  | cons first others =>
      have split : (⟨first :: others, ascending⟩ : Table α).toList = [] ++ first :: others := rfl
      refine .inr ⟨first, others, split, congrArg (fun rest => some (first, rest)) (ext ?_)⟩
      exact (toList_erase split).symm

theorem popLast?_cases (table : Table α) :
    (table.toList = [] ∧ table.popLast? = none) ∨
      ∃ others last, table.toList = others ++ [last] ∧
        table.popLast? = some (last, table.erase (key last)) := by
  cases ended : table.records.getLast? with
  | none => exact .inl ⟨List.getLast?_eq_none_iff.mp ended, by rw [popLast?, ended, Option.map_none]⟩
  | some last =>
      obtain ⟨others, split⟩ := List.getLast?_eq_some_iff.mp ended
      refine .inr ⟨others, last, split, ?_⟩
      rw [popLast?, ended, Option.map_some]
      refine congrArg (fun rest => some (last, rest)) (ext ?_)
      change table.records.dropLast = (table.erase (key last)).toList
      rw [toList_erase split, split, List.dropLast_concat, List.append_nil]

end Ends

variable {α κ : Type} [Keyed α κ] [Ord κ] [Std.LawfulEqOrd κ]

/-- In ascending records a key belongs to one record. -/
theorem eq_of_ascending {records : List α}
    (ascending : records.Pairwise fun earlier later => compare (key earlier) (key later) = .lt)
    {first second : α} (inFirst : first ∈ records) (inSecond : second ∈ records)
    (sameKey : key first = key second) : first = second := by
  induction records with
  | nil => cases inFirst
  | cons head tail tailIH =>
      have ⟨headLeast, tailAscending⟩ := List.pairwise_cons.mp ascending
      rcases List.mem_cons.mp inFirst with rfl | firstInTail
      · rcases List.mem_cons.mp inSecond with rfl | secondInTail
        · rfl
        · have smaller := headLeast second secondInTail
          rw [sameKey, Std.ReflOrd.compare_self] at smaller
          contradiction
      · rcases List.mem_cons.mp inSecond with rfl | secondInTail
        · have smaller := headLeast first firstInTail
          rw [sameKey, Std.ReflOrd.compare_self] at smaller
          contradiction
        · exact tailIH tailAscending firstInTail secondInTail

theorem get?_eq_some_iff {table : Table α} {wanted : κ} {record : α} :
    table.get? wanted = some record ↔ record ∈ table.toList ∧ key record = wanted := by
  constructor
  · intro found
    refine ⟨List.mem_of_find?_eq_some found, ?_⟩
    have hit := List.find?_some found
    exact Std.compare_eq_iff_eq.mp (eq_of_beq hit)
  · rintro ⟨listed, rfl⟩
    cases found : table.get? (key record) with
    | none =>
        have missed := List.find?_eq_none.mp found record listed
        simp [Std.ReflOrd.compare_self] at missed
    | some other =>
        have hit := List.find?_some found
        have sameKey := Std.compare_eq_iff_eq.mp (eq_of_beq hit)
        exact congrArg some
          (eq_of_ascending table.ascending (List.mem_of_find?_eq_some found) listed sameKey)

theorem get?_eq_none_iff {table : Table α} {wanted : κ} :
    table.get? wanted = none ↔ ∀ record ∈ table.toList, key record ≠ wanted := by
  constructor
  · intro missing record listed sameKey
    have found := get?_eq_some_iff.mpr ⟨listed, sameKey⟩
    rw [missing] at found
    contradiction
  · intro absent
    cases found : table.get? wanted with
    | none => rfl
    | some record =>
        have ⟨listed, sameKey⟩ := get?_eq_some_iff.mp found
        exact absurd sameKey (absent record listed)

theorem contains_iff {table : Table α} {wanted : κ} :
    table.contains wanted = true ↔ ∃ record ∈ table.toList, key record = wanted := by
  constructor
  · intro present
    have ⟨record, found⟩ := Option.isSome_iff_exists.mp present
    exact ⟨record, get?_eq_some_iff.mp found⟩
  · rintro ⟨record, listed, sameKey⟩
    exact Option.isSome_iff_exists.mpr ⟨record, get?_eq_some_iff.mpr ⟨listed, sameKey⟩⟩

theorem mem_erase_iff {table : Table α} {unwanted : κ} {record : α} :
    record ∈ (table.erase unwanted).toList ↔ record ∈ table.toList ∧ key record ≠ unwanted := by
  change record ∈ table.records.filter _ ↔ _
  rw [List.mem_filter, bne_iff_ne, ne_eq, Std.compare_eq_iff_eq]
  rfl

/-- Erasing a key changes what it finds and nothing else. -/
theorem get?_erase (table : Table α) (unwanted wanted : κ) [DecidableEq κ] :
    (table.erase unwanted).get? wanted =
      if unwanted = wanted then none else table.get? wanted := by
  split
  next same =>
    refine get?_eq_none_iff.mpr fun record listed equal => ?_
    exact (mem_erase_iff.mp listed).2 (equal.trans same.symm)
  next other =>
    cases found : table.get? wanted with
    | some record =>
        have ⟨listed, hasKey⟩ := get?_eq_some_iff.mp found
        have stays : key record ≠ unwanted := fun equal => other (equal.symm.trans hasKey)
        exact get?_eq_some_iff.mpr ⟨mem_erase_iff.mpr ⟨listed, stays⟩, hasKey⟩
    | none =>
        refine get?_eq_none_iff.mpr fun record listed => ?_
        exact get?_eq_none_iff.mp found record (mem_erase_iff.mp listed).1

theorem nodup_keys (table : Table α) : (table.toList.map key).Nodup := by
  refine List.pairwise_map.mpr (table.ascending.imp ?_)
  intro earlier later smaller same
  rw [same, Std.ReflOrd.compare_self] at smaller
  contradiction

theorem nodup_toList (table : Table α) : table.toList.Nodup :=
  (List.pairwise_map.mp table.nodup_keys).imp fun different same => different (congrArg key same)

variable [Std.TransOrd κ]

theorem ext_mem {first second : Table α}
    (same : ∀ record, record ∈ first.toList ↔ record ∈ second.toList) : first = second := by
  refine ext (List.Perm.eq_of_pairwise ?_ first.ascending second.ascending
    ((List.perm_ext_iff_of_nodup first.nodup_toList second.nodup_toList).mpr same))
  intro earlier later _ _ smaller greater
  exact absurd greater (Std.OrientedCmp.not_lt_of_lt smaller)

theorem ext_get? {first second : Table α}
    (same : ∀ wanted, first.get? wanted = second.get? wanted) : first = second := by
  refine ext_mem fun record => ?_
  have iff (table : Table α) : record ∈ table.toList ↔ table.get? (key record) = some record := by
    rw [get?_eq_some_iff, and_iff_left rfl]
  rw [iff, iff, same]

theorem mem_insert_iff {table : Table α} {added record : α} :
    record ∈ (table.insert added).toList ↔
      record = added ∨ record ∈ table.toList ∧ key record ≠ key added := by
  have apart : key record ≠ key added ↔
      compare (key record) (key added) = .lt ∨ compare (key record) (key added) = .gt := by
    rw [ne_eq, ← Std.compare_eq_iff_eq]
    cases compare (key record) (key added) <;> simp
  rw [apart]
  change record ∈ table.below (key added) ++ added :: table.above (key added) ↔ _
  simp only [List.mem_append, List.mem_cons, below, above, List.mem_filter, beq_iff_eq, toList]
  constructor
  · rintro (⟨listed, smaller⟩ | equal | ⟨listed, greater⟩)
    · exact .inr ⟨listed, .inl smaller⟩
    · exact .inl equal
    · exact .inr ⟨listed, .inr greater⟩
  · rintro (equal | ⟨listed, smaller | greater⟩)
    · exact .inr (.inl equal)
    · exact .inl ⟨listed, smaller⟩
    · exact .inr (.inr ⟨listed, greater⟩)

/-- Inserting a record changes what its key finds and nothing else. -/
theorem get?_insert (table : Table α) (added : α) (wanted : κ) [DecidableEq κ] :
    (table.insert added).get? wanted =
      if key added = wanted then some added else table.get? wanted := by
  split
  next sameKey => exact get?_eq_some_iff.mpr ⟨mem_insert_iff.mpr (.inl rfl), sameKey⟩
  next otherKey =>
    cases found : table.get? wanted with
    | some record =>
        have ⟨listed, hasKey⟩ := get?_eq_some_iff.mp found
        have stays : key record ≠ key added := fun equal => otherKey (equal ▸ hasKey)
        exact get?_eq_some_iff.mpr ⟨mem_insert_iff.mpr (.inr ⟨listed, stays⟩), hasKey⟩
    | none =>
        refine get?_eq_none_iff.mpr fun record listed => ?_
        rcases mem_insert_iff.mp listed with rfl | ⟨before, _⟩
        · exact otherKey
        · exact get?_eq_none_iff.mp found record before

theorem insertNew?_eq_none_iff {table : Table α} {record : α} :
    table.insertNew? record = none ↔ ∃ other ∈ table.toList, key other = key record := by
  rw [← contains_iff]
  unfold insertNew?
  split <;> simp_all

theorem insertNew?_eq_some_iff {table larger : Table α} {record : α} :
    table.insertNew? record = some larger ↔
      (∀ other ∈ table.toList, key other ≠ key record) ∧ table.insert record = larger := by
  rw [← get?_eq_none_iff]
  unfold insertNew? contains
  cases table.get? (key record) <;> simp

/-- In a table made of a list, a key finds the last record of the list that has it. -/
theorem get?_ofList (records : List α) (wanted : κ) [DecidableEq κ] :
    (ofList records).get? wanted = records.reverse.find? fun record => key record = wanted := by
  have general (table : Table α) :
      (records.foldl insert table).get? wanted =
        (records.reverse.find? fun record => key record = wanted).or (table.get? wanted) := by
    induction records generalizing table with
    | nil => rfl
    | cons first others othersIH =>
        rw [List.foldl_cons, othersIH, get?_insert, List.reverse_cons, List.find?_append,
          Option.or_assoc]
        congr 1
        by_cases sameKey : key first = wanted <;> simp [sameKey]
  rw [ofList, general, get?_empty, Option.or_none]

theorem ofList_toList (table : Table α) [DecidableEq κ] : ofList table.toList = table := by
  refine ext_get? fun wanted => ?_
  rw [get?_ofList]
  cases found : table.toList.reverse.find? fun record => key record = wanted with
  | some record =>
      have listed := List.mem_reverse.mp (List.mem_of_find?_eq_some found)
      have hit := List.find?_some found
      exact (get?_eq_some_iff.mpr ⟨listed, of_decide_eq_true hit⟩).symm
  | none =>
      refine (get?_eq_none_iff.mpr fun record listed hasKey => ?_).symm
      have missed := List.find?_eq_none.mp found record (List.mem_reverse.mpr listed)
      exact missed (decide_eq_true hasKey)

end RingHealth.Table
