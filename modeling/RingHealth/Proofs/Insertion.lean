import RingHealth.RingReport
import RingHealth.Table.Lemmas

namespace RingHealth

/-- Whether the entry at an index has occurred at a smaller index. -/
def Repeats (values : List α) (index : Nat) : Prop :=
  ∃ earlier value, earlier < index ∧ values[earlier]? = some value ∧ values[index]? = some value

/-- Whether an index is the least whose entry has occurred before. -/
structure FirstRepeat (values : List α) (index : Nat) : Prop where
  repeats : Repeats values index
  least : ∀ smaller, smaller < index → ¬ Repeats values smaller

variable {values before after : List α} {value : α} {index other : Nat}

theorem repeats_iff_mem_take (atIndex : values[index]? = some value) :
    Repeats values index ↔ value ∈ values.take index := by
  rw [List.mem_take_iff_getElem]
  constructor
  · intro repeated
    obtain ⟨earlier, found, smaller, atEarlier, again⟩ := repeated
    obtain ⟨bound, same⟩ := List.getElem?_eq_some_iff.mp atEarlier
    obtain rfl := Option.some.inj (again.symm.trans atIndex)
    exact ⟨earlier, by omega, same⟩
  · intro taken
    obtain ⟨earlier, bound, same⟩ := taken
    exact ⟨earlier, value, by omega,
      List.getElem?_eq_some_iff.mpr ⟨by omega, same⟩, atIndex⟩

theorem not_repeats_of_nodup (distinct : values.Nodup) (index : Nat) :
    ¬ Repeats values index := by
  intro repeated
  obtain ⟨earlier, value, smaller, atEarlier, atIndex⟩ := repeated
  obtain ⟨_, sameEarlier⟩ := List.getElem?_eq_some_iff.mp atEarlier
  obtain ⟨indexBound, sameIndex⟩ := List.getElem?_eq_some_iff.mp atIndex
  exact List.pairwise_iff_getElem.mp distinct earlier index (by omega) indexBound smaller
    (sameEarlier.trans sameIndex.symm)

theorem repeats_append_iff (within : index < before.length) :
    Repeats (before ++ after) index ↔ Repeats before index := by
  have prefixEntry : ∀ place, place ≤ index → (before ++ after)[place]? = before[place]? :=
    fun place bound => List.getElem?_append_left (by omega)
  constructor
  · intro repeated
    obtain ⟨earlier, found, smaller, atEarlier, atIndex⟩ := repeated
    rw [prefixEntry _ (by omega)] at atEarlier
    rw [prefixEntry _ (Nat.le_refl _)] at atIndex
    exact ⟨earlier, found, smaller, atEarlier, atIndex⟩
  · intro repeated
    obtain ⟨earlier, found, smaller, atEarlier, atIndex⟩ := repeated
    rw [← prefixEntry _ (by omega)] at atEarlier
    rw [← prefixEntry _ (Nat.le_refl _)] at atIndex
    exact ⟨earlier, found, smaller, atEarlier, atIndex⟩

/-- Where a list without duplicates is followed by one of its entries, the first repeat
is found. -/
theorem firstRepeat_append (distinct : before.Nodup) (present : value ∈ before) :
    FirstRepeat (before ++ value :: after) before.length := by
  have atEnd : (before ++ value :: after)[before.length]? = some value := by simp
  refine ⟨(repeats_iff_mem_take atEnd).mpr (by simpa using present), ?_⟩
  intro smaller bound repeated
  exact not_repeats_of_nodup distinct smaller ((repeats_append_iff bound).mp repeated)

theorem FirstRepeat.unique (first : FirstRepeat values index)
    (second : FirstRepeat values other) : index = other := by
  have notBelow : ¬ index < other := fun smaller => second.least index smaller first.repeats
  have notAbove : ¬ other < index := fun smaller => first.least other smaller second.repeats
  omega

theorem FirstRepeat.not_nodup (first : FirstRepeat values index) : ¬ values.Nodup :=
  fun distinct => not_repeats_of_nodup distinct index first.repeats

namespace Table

variable {α κ : Type} [Keyed α κ] [Ord κ] [Std.LawfulEqOrd κ] [Std.TransOrd κ]
  {table smaller larger : Table α} {record : α}

theorem ext_perm (same : smaller.toList.Perm larger.toList) : smaller = larger :=
  ext_mem fun _ => same.mem_iff

theorem insertNew?_perm (taken : table.insertNew? record = some larger) :
    larger.toList.Perm (table.toList ++ [record]) := by
  obtain ⟨fresh, rfl⟩ := insertNew?_eq_some_iff.mp taken
  have absent : record ∉ table.toList := fun present => fresh record present rfl
  have distinct : (table.toList ++ [record]).Nodup :=
    (List.perm_append_singleton record table.toList).nodup_iff.mpr
      (List.nodup_cons.mpr ⟨absent, table.nodup_toList⟩)
  refine (List.perm_ext_iff_of_nodup (nodup_toList _) distinct).mpr fun listed => ?_
  rw [mem_insert_iff, List.mem_append, List.mem_singleton]
  constructor
  · intro present
    rcases present with added | ⟨before, _⟩
    · exact .inr added
    · exact .inl before
  · intro present
    rcases present with before | added
    · exact .inr ⟨before, fresh listed before⟩
    · exact .inl added

end Table

def Traced.told (tell : α → List Event) (value : α) : Traced α := ⟨tell value, .ok value⟩

namespace RingReport

variable {tell : RangeReport → List Event} {table : Table RangeReport} {report : RangeReport}
  {supply : List (Traced RangeReport)}

theorem collect_cons :
    collect table (.told tell report :: supply) =
      match table.insertNew? report with
      | none => ⟨tell report, .error (.duplicateRange report.range)⟩
      | some larger =>
          ⟨tell report ++ (collect larger supply).events, (collect larger supply).outcome⟩ := by
  rw [collect, Traced.told, Traced.mk_ok_bind]
  cases table.insertNew? report with
  | none => simp [Traced.fail]
  | some larger => rfl

/-- Reports are all added as they are, or up to the first one whose range is there already.  That
one is supplied, so its events are told, and the reports after it are not. -/
theorem collect_cases (tell : RangeReport → List Event) (table : Table RangeReport)
    (reports : List RangeReport) :
    (∃ larger, larger.toList.Perm (table.toList ++ reports) ∧
        collect table (reports.map (.told tell)) = ⟨reports.flatMap tell, .ok larger⟩) ∨
      ∃ (before : List RangeReport) (repeated : RangeReport) (after : List RangeReport)
          (smaller : Table RangeReport), reports = before ++ repeated :: after ∧
        smaller.toList.Perm (table.toList ++ before) ∧ smaller.insertNew? repeated = none ∧
        collect table (reports.map (.told tell)) =
          ⟨(before ++ [repeated]).flatMap tell, .error (.duplicateRange repeated.range)⟩ := by
  induction reports generalizing table with
  | nil => exact .inl ⟨table, by simp, rfl⟩
  | cons report reports reportsIH =>
      rw [List.map_cons, collect_cons]
      cases step : table.insertNew? report with
      | none => exact .inr ⟨[], report, reports, table, rfl, by simp, step, by simp⟩
      | some next =>
          have added := (Table.insertNew?_perm step).append_right
          rcases reportsIH next with filled | stopped
          · obtain ⟨larger, listed, run⟩ := filled
            refine .inl ⟨larger, ?_, by simp only [run, List.flatMap_cons]⟩
            simpa using listed.trans (added reports)
          · obtain ⟨before, repeated, after, smaller, rfl, listed, again, run⟩ := stopped
            refine .inr ⟨report :: before, repeated, after, smaller, rfl, ?_, again, ?_⟩
            · simpa using listed.trans (added before)
            · simp only [run, List.cons_append, List.flatMap_cons]

theorem collect_empty_cases (tell : RangeReport → List Event) (reports : List RangeReport) :
    (∃ table, (reports.map RangeReport.range).Nodup ∧ table.toList.Perm reports ∧
        collect .empty (reports.map (.told tell)) = ⟨reports.flatMap tell, .ok table⟩) ∨
      ∃ index repeated, FirstRepeat (reports.map RangeReport.range) index ∧
        reports[index]? = some repeated ∧
        collect .empty (reports.map (.told tell)) =
          ⟨(reports.take (index + 1)).flatMap tell, .error (.duplicateRange repeated.range)⟩ := by
  have distinct {table : Table RangeReport} {listed : List RangeReport}
      (same : table.toList.Perm listed) : (listed.map RangeReport.range).Nodup :=
    (same.map RangeReport.range).nodup_iff.mp table.nodup_keys
  rcases collect_cases tell .empty reports with filled | stopped
  · obtain ⟨table, listed, run⟩ := filled
    exact .inl ⟨table, distinct listed, listed, run⟩
  · obtain ⟨before, repeated, after, smaller, rfl, listed, again, run⟩ := stopped
    obtain ⟨other, inTable, sameRange⟩ := Table.insertNew?_eq_none_iff.mp again
    have present : repeated.range ∈ before.map RangeReport.range :=
      List.mem_map.mpr ⟨other, listed.mem_iff.mp inTable, sameRange⟩
    refine .inr ⟨before.length, repeated, ?_, by simp, ?_⟩
    · rw [List.map_append, List.map_cons, ← List.length_map]
      exact firstRepeat_append (distinct listed) present
    · rw [run, List.take_length_add_append 1]
      rfl

theorem outcome_collect (tell other : RangeReport → List Event) (table : Table RangeReport)
    (reports : List RangeReport) :
    (collect table (reports.map (.told tell))).outcome =
      (collect table (reports.map (.told other))).outcome := by
  induction reports generalizing table with
  | nil => rfl
  | cons report reports reportsIH =>
      rw [List.map_cons, List.map_cons, collect_cons, collect_cons]
      cases table.insertNew? report with
      | none => rfl
      | some larger => exact reportsIH larger

end RingReport

end RingHealth
