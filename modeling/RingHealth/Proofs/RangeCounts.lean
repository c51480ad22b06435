import Mathlib.Data.List.Forall2
import RingHealth.Proofs.Assembly
import RingHealth.Proofs.Severity
import RingHealth.TableStep

namespace RingHealth

/-- The required and the living replicas of the ranges that are known. -/
abbrev RangeCounts := TokenRange → Option (UInt32 × UInt32)

abbrev RangeStep := TableStep RangeReport TokenRange

abbrev RangeAnswer := TableAnswer RangeReport

def RangeReport.counts (report : RangeReport) : UInt32 × UInt32 := (report.required, report.alive)

def RangeReport.ofCounts (range : TokenRange) (counts : UInt32 × UInt32) : RangeReport :=
  ⟨range, counts.1, counts.2⟩

theorem RangeReport.ofCounts_counts (report : RangeReport) :
    ofCounts report.range report.counts = report := rfl

namespace RangeCounts

/-- The map with other counts for one range, or without it. -/
def put (known : RangeCounts) (range : TokenRange) (counts : Option (UInt32 × UInt32)) :
    RangeCounts :=
  fun wanted => if range = wanted then counts else known wanted

/-- Whether a range is known and stands before every other known range in some order. -/
def Leads (known : RangeCounts) (before : TokenRange → TokenRange → Prop) (range : TokenRange) :
    Prop :=
  known range ≠ none ∧ ∀ other, known other ≠ none → other ≠ range → before range other

/-- What a step on a map answers, and the map after it. -/
inductive Performs (known : RangeCounts) : RangeStep → RangeAnswer → RangeCounts → Prop where
  | insertNew {report : RangeReport} (unknown : known report.range = none) :
      Performs known (.insert report) (.flag true) (known.put report.range (some report.counts))
  | insertKnown {report : RangeReport} (isKnown : known report.range ≠ none) :
      Performs known (.insert report) (.flag false) known
  | replace {report : RangeReport} :
      Performs known (.replace report)
        (.record ((known report.range).map (.ofCounts report.range)))
        (known.put report.range (some report.counts))
  | remove {range : TokenRange} :
      Performs known (.remove range) (.flag (known range).isSome) (known.put range none)
  | get {range : TokenRange} :
      Performs known (.get range) (.record ((known range).map (.ofCounts range))) known
  | getFrom {bound : TokenRange} {reports : List RangeReport}
      (ascending : reports.Pairwise fun earlier later => earlier.range.Precedes later.range)
      (listed : ∀ report, report ∈ reports ↔
        known report.range = some report.counts ∧ ¬ report.range.Precedes bound) :
      Performs known (.getFrom bound) (.records reports) known
  | popFirst {range : TokenRange} {counts : UInt32 × UInt32}
      (leads : known.Leads TokenRange.Precedes range) (found : known range = some counts) :
      Performs known .popFirst (.record (some (.ofCounts range counts))) (known.put range none)
  | popFirstNone (empty : ∀ range, known range = none) :
      Performs known .popFirst (.record none) known
  | popLast {range : TokenRange} {counts : UInt32 × UInt32}
      (leads : known.Leads (fun last other => other.Precedes last) range)
      (found : known range = some counts) :
      Performs known .popLast (.record (some (.ofCounts range counts))) (known.put range none)
  | popLastNone (empty : ∀ range, known range = none) :
      Performs known .popLast (.record none) known

/-- What steps on a map answer one after the other, each with the map after it. -/
inductive Runs : RangeCounts → List RangeStep → List (RangeAnswer × RangeCounts) → Prop where
  | nil {known : RangeCounts} : Runs known [] []
  | cons {known after : RangeCounts} {step : RangeStep} {answer : RangeAnswer}
      {steps : List RangeStep} {trace : List (RangeAnswer × RangeCounts)}
      (first : Performs known step answer after) (rest : Runs after steps trace) :
      Runs known (step :: steps) ((answer, after) :: trace)

variable {known after otherAfter : RangeCounts} {step : RangeStep} {answer other : RangeAnswer}
  {first second range : TokenRange} {counts otherCounts : UInt32 × UInt32}
  {reports others : List RangeReport}

theorem Leads.unique {before : TokenRange → TokenRange → Prop}
    (asymm : ∀ first second, before first second → ¬ before second first)
    (leads : known.Leads before first) (found : known first = some counts)
    (alsoLeads : known.Leads before second) (alsoFound : known second = some otherCounts) :
    first = second ∧ counts = otherCounts := by
  by_cases same : first = second
  · subst same
    exact ⟨rfl, Option.some.inj (found.symm.trans alsoFound)⟩
  · have firstBefore := leads.2 second alsoLeads.1 (Ne.symm same)
    exact absurd (alsoLeads.2 first leads.1 same) (asymm _ _ firstBefore)

theorem eq_of_ascending
    (ascending : reports.Pairwise fun earlier later => earlier.range.Precedes later.range)
    (otherAscending : others.Pairwise fun earlier later => earlier.range.Precedes later.range)
    (same : ∀ report, report ∈ reports ↔ report ∈ others) : reports = others := by
  let table (listed : List RangeReport)
      (inOrder : listed.Pairwise fun earlier later => earlier.range.Precedes later.range) :
      Table RangeReport := ⟨listed, inOrder.imp TokenRange.compare_eq_lt_iff.mpr⟩
  have equal : table reports ascending = table others otherAscending := Table.ext_mem same
  exact congrArg Table.records equal

theorem Performs.unique (performs : Performs known step answer after)
    (alsoPerforms : Performs known step other otherAfter) : answer = other ∧ after = otherAfter := by
  cases performs with
  | insertNew unknown =>
      cases alsoPerforms with
      | insertNew _ => exact ⟨rfl, rfl⟩
      | insertKnown isKnown => exact absurd unknown isKnown
  | insertKnown isKnown =>
      cases alsoPerforms with
      | insertNew unknown => exact absurd unknown isKnown
      | insertKnown _ => exact ⟨rfl, rfl⟩
  | replace | remove | get =>
      cases alsoPerforms
      exact ⟨rfl, rfl⟩
  | getFrom ascending listed =>
      cases alsoPerforms with
      | getFrom otherAscending otherListed =>
          refine ⟨congrArg TableAnswer.records (eq_of_ascending ascending otherAscending ?_), rfl⟩
          exact fun report => (listed report).trans (otherListed report).symm
  | popFirst leads found =>
      cases alsoPerforms with
      | popFirst alsoLeads alsoFound =>
          obtain ⟨rfl, rfl⟩ :=
            leads.unique (fun _ _ => TokenRange.Precedes.asymm) found alsoLeads alsoFound
          exact ⟨rfl, rfl⟩
      | popFirstNone empty => exact absurd (empty _) leads.1
  | popFirstNone empty =>
      cases alsoPerforms with
      | popFirst leads _ => exact absurd (empty _) leads.1
      | popFirstNone _ => exact ⟨rfl, rfl⟩
  | popLast leads found =>
      cases alsoPerforms with
      | popLast alsoLeads alsoFound =>
          obtain ⟨rfl, rfl⟩ :=
            leads.unique (fun _ _ => TokenRange.Precedes.asymm) found alsoLeads alsoFound
          exact ⟨rfl, rfl⟩
      | popLastNone empty => exact absurd (empty _) leads.1
  | popLastNone empty =>
      cases alsoPerforms with
      | popLast leads _ => exact absurd (empty _) leads.1
      | popLastNone _ => exact ⟨rfl, rfl⟩

end RangeCounts

namespace Table

variable {table : Table RangeReport} {report : RangeReport} {range : TokenRange}
  {entry : UInt32 × UInt32}

def counts (table : Table RangeReport) : RangeCounts :=
  fun range => (table.get? range).map RangeReport.counts

theorem counts_eq_some_iff :
    table.counts range = some entry ↔ RangeReport.ofCounts range entry ∈ table.toList := by
  rw [Table.counts, Option.map_eq_some_iff]
  refine ⟨fun found => ?_, fun listed => ?_⟩
  · obtain ⟨report, found, rfl⟩ := found
    obtain ⟨listed, rfl⟩ := get?_eq_some_iff.mp found
    exact listed
  · exact ⟨_, get?_eq_some_iff.mpr ⟨listed, rfl⟩, rfl⟩

theorem counts_eq_none_iff :
    table.counts range = none ↔ ∀ report ∈ table.toList, report.range ≠ range := by
  rw [Table.counts, Option.map_eq_none_iff, get?_eq_none_iff]
  rfl

theorem mem_iff_counts (table : Table RangeReport) (report : RangeReport) :
    report ∈ table.toList ↔ table.counts report.range = some report.counts := by
  rw [counts_eq_some_iff, RangeReport.ofCounts_counts]

theorem get?_eq_map_counts (table : Table RangeReport) (range : TokenRange) :
    table.get? range = (table.counts range).map (.ofCounts range) := by
  cases found : table.get? range with
  | none => rw [Table.counts, found, Option.map_none, Option.map_none]
  | some report =>
      obtain ⟨_, rfl⟩ := get?_eq_some_iff.mp found
      rw [Table.counts, found, Option.map_some, Option.map_some]
      rfl

theorem counts_insert (table : Table RangeReport) (report : RangeReport) :
    (table.insert report).counts = table.counts.put report.range (some report.counts) := by
  funext wanted
  rw [Table.counts, get?_insert, RangeCounts.put]
  exact apply_ite _ _ _ _

theorem counts_erase (table : Table RangeReport) (range : TokenRange) :
    (table.erase range).counts = table.counts.put range none := by
  funext wanted
  rw [Table.counts, get?_erase, RangeCounts.put]
  exact apply_ite _ _ _ _

theorem counts_of_empty (empty : table.toList = []) (range : TokenRange) :
    table.counts range = none :=
  counts_eq_none_iff.mpr (by simp [empty])

theorem leads_of_listed {before : TokenRange → TokenRange → Prop} (listed : report ∈ table.toList)
    (others : ∀ other ∈ table.toList, other ≠ report → before report.range other.range) :
    table.counts.Leads before report.range := by
  refine ⟨fun missing => counts_eq_none_iff.mp missing report listed rfl, ?_⟩
  intro range known different
  obtain ⟨entry, found⟩ := Option.ne_none_iff_exists'.mp known
  refine others _ (counts_eq_some_iff.mp found) fun same => different ?_
  rw [← same]
  rfl

theorem perform_performs (table : Table RangeReport) (step : RangeStep) :
    table.counts.Performs step (table.perform step).1 (table.perform step).2.counts := by
  cases step with
  | insert report =>
      rw [perform]
      cases taken : table.insertNew? report with
      | some larger =>
          obtain ⟨fresh, rfl⟩ := insertNew?_eq_some_iff.mp taken
          rw [counts_insert]
          exact .insertNew (counts_eq_none_iff.mpr fresh)
      | none =>
          obtain ⟨other, listed, same⟩ := insertNew?_eq_none_iff.mp taken
          exact .insertKnown fun missing => counts_eq_none_iff.mp missing other listed same
  | replace report =>
      rw [perform, counts_insert, get?_eq_map_counts]
      exact .replace
  | remove range =>
      have known : table.contains range = (table.counts range).isSome := by
        rw [contains, get?_eq_map_counts, Option.isSome_map]
      rw [perform, counts_erase, known]
      exact .remove
  | get range =>
      rw [perform, get?_eq_map_counts]
      exact .get
  | getFrom bound =>
      rw [perform]
      refine .getFrom (table.ranges_ascending.filter _) fun report => ?_
      rw [mem_atLeast_iff, mem_iff_counts, ne_eq, TokenRange.compare_eq_lt_iff]
      rfl
  | popFirst =>
      obtain ⟨empty, popped⟩ | ⟨first, others, split, popped⟩ := table.popFirst?_cases
      · rw [perform, popped]
        exact .popFirstNone (counts_of_empty empty)
      · obtain ⟨before, _⟩ := List.pairwise_cons.mp (split ▸ table.ranges_ascending)
        rw [perform, popped, counts_erase]
        refine .popFirst (leads_of_listed (by simp [split]) fun other listed different => ?_)
          ((table.mem_iff_counts first).mp (by simp [split]))
        rw [split] at listed
        exact before other (List.mem_of_ne_of_mem different listed)
  | popLast =>
      obtain ⟨empty, popped⟩ | ⟨others, last, split, popped⟩ := table.popLast?_cases
      · rw [perform, popped]
        exact .popLastNone (counts_of_empty empty)
      · obtain ⟨_, _, before⟩ := List.pairwise_append.mp (split ▸ table.ranges_ascending)
        rw [perform, popped, counts_erase]
        refine .popLast (leads_of_listed (by simp [split]) fun other listed different => ?_)
          ((table.mem_iff_counts last).mp (by simp [split]))
        rw [split, List.mem_append, List.mem_singleton, or_iff_left different] at listed
        exact before other listed last List.mem_cons_self

/-- Performing steps on a table follows the steps on the map that it holds. -/
theorem runs_iff_performAll (table : Table RangeReport) (steps : List RangeStep)
    (trace : List (RangeAnswer × RangeCounts)) :
    table.counts.Runs steps trace ↔
      trace = (table.performAll steps).map fun entry => (entry.1, entry.2.counts) := by
  induction steps generalizing table trace with
  | nil =>
      refine ⟨fun runs => ?_, fun same => ?_⟩
      · cases runs
        rfl
      · subst trace
        exact .nil
  | cons step steps stepsIH =>
      have performs := table.perform_performs step
      refine ⟨fun runs => ?_, fun same => ?_⟩
      · cases runs with
        | cons first rest =>
            obtain ⟨rfl, rfl⟩ := first.unique performs
            rw [(stepsIH _ _).mp rest]
            rfl
      · subst trace
        exact .cons performs ((stepsIH _ _).mpr rfl)

theorem sorted (table : Table RangeReport) : table.toList.Pairwise (· < ·) := table.ascending

theorem get?_range (table : Table RangeReport) (probe : RangeReport) :
    table.get? probe.range = table.toList.find? fun report => compare report probe == .eq := by
  simp only [RangeReport.compare_eq_compare_key]
  rfl

theorem toList_erase_range (table : Table RangeReport) (probe : RangeReport) :
    (table.erase probe.range).toList =
      table.toList.filter fun report => compare report probe != .eq := by
  simp only [RangeReport.compare_eq_compare_key]
  rfl

theorem atLeast_range (table : Table RangeReport) (probe : RangeReport) :
    table.atLeast probe.range =
      table.toList.filter fun report => compare report probe != .lt := by
  simp only [RangeReport.compare_eq_compare_key]
  rfl

/-- Whether a table holds the counts of a map: it lists the known ranges in ascending order, each
once and with its counts, and is as healthy as they say.  It finds a report, removes it and lists
those from it on by comparing it as a whole, so the counts of the report that is asked for do not
matter. -/
structure Holds (table : Table RangeReport) (known : RangeCounts) : Prop where
  ascending : table.toList.Pairwise fun earlier later => earlier.range.Precedes later.range
  sorted : table.toList.Pairwise (· < ·)
  distinct : (table.toList.map RangeReport.range).Nodup
  listed : ∀ report, report ∈ table.toList ↔
    known report.range = some (report.required, report.alive)
  found : ∀ probe : RangeReport,
    table.toList.find? (fun report => compare report probe == .eq) =
      (known probe.range).map (.ofCounts probe.range)
  got : ∀ probe : RangeReport, table.get? probe.range =
    table.toList.find? fun report => compare report probe == .eq
  removed : ∀ probe : RangeReport, (table.erase probe.range).toList =
    table.toList.filter fun report => compare report probe != .eq
  notBefore : ∀ probe : RangeReport, table.atLeast probe.range =
    table.toList.filter fun report => compare report probe != .lt
  unknown_iff : Health.worst (table.toList.map health) = .unknown ↔ ∀ range, known range = none
  unavailable_iff : Health.worst (table.toList.map health) = .unavailable ↔
    ∃ range required alive, known range = some (required, alive) ∧ alive < required

theorem holds_counts (table : Table RangeReport) : table.Holds table.counts where
  ascending := table.ranges_ascending
  sorted := table.sorted
  distinct := table.nodup_keys
  listed := table.mem_iff_counts
  found probe := by rw [← get?_range, get?_eq_map_counts]
  got := table.get?_range
  removed := table.toList_erase_range
  notBefore := table.atLeast_range
  unknown_iff := by
    rw [RangeReport.worst_eq_unknown_iff]
    refine ⟨counts_of_empty, fun unknown => List.eq_nil_iff_forall_not_mem.mpr ?_⟩
    intro report listed
    exact counts_eq_none_iff.mp (unknown report.range) report listed rfl
  unavailable_iff := by
    rw [RangeReport.worst_eq_unavailable_iff]
    refine ⟨fun short => ?_, fun short => ?_⟩
    · obtain ⟨report, listed, unmet⟩ := short
      exact ⟨report.range, report.required, report.alive, (table.mem_iff_counts report).mp listed,
        RangeReport.isMet_eq_false_iff.mp unmet⟩
    · obtain ⟨range, required, alive, found, unmet⟩ := short
      exact ⟨⟨range, required, alive⟩, counts_eq_some_iff.mp found,
        RangeReport.isMet_eq_false_iff.mpr unmet⟩

end Table

namespace RangeReport

/-- How the operators compare two reports, if they do. -/
def partialCompare (first second : RangeReport) : Option Ordering :=
  if first < second then some .lt
  else if first == second then some .eq
  else if second < first then some .gt
  else none

/-- Whether reports are compared in a total order of their ranges. -/
structure OrderedByRange (first second third : RangeReport) : Prop where
  antisymm : (compare first second).isLE = true → (compare second first).isLE = true →
    (first == second) = true
  trans : (compare first second).isLE = true → (compare second third).isLE = true →
    (compare first third).isLE = true
  total : (compare first second).isLE = true ∨ (compare second first).isLE = true
  swap : compare second first = (compare first second).swap
  lt_iff : compare first second = .lt ↔ first.range.Precedes second.range
  eq_iff : compare first second = .eq ↔ (first == second) = true
  beq_iff : (first == second) = true ↔ first.range = second.range
  hash_eq : (first == second) = true → hash first = hash second
  partial_eq : first.partialCompare second = some (compare first second)

variable {first second : RangeReport}

theorem beq_iff_range : (first == second) = true ↔ first.range = second.range := by
  rw [beq_eq_beq_key]
  exact beq_iff_eq

theorem compare_eq_iff_beq : compare first second = .eq ↔ (first == second) = true := by
  rw [beq_iff_range, compare_eq_compare_key]
  exact Std.compare_eq_iff_eq

theorem compare_swap : compare second first = (compare first second).swap :=
  Std.OrientedOrd.eq_swap

theorem orderedByRange (first second third : RangeReport) : OrderedByRange first second third where
  antisymm le ge := compare_eq_iff_beq.mp (Std.OrientedCmp.isLE_antisymm le ge)
  trans := Std.TransCmp.isLE_trans
  total := by
    cases sign : compare first second with
    | lt | eq => exact .inl rfl
    | gt => exact .inr (by rw [compare_swap, sign]; rfl)
  swap := compare_swap
  lt_iff := TokenRange.compare_eq_lt_iff
  eq_iff := compare_eq_iff_beq
  beq_iff := beq_iff_range
  hash_eq same := congrArg (fun range : TokenRange => hash range) (beq_iff_range.mp same)
  partial_eq := by
    have second_lt_first : second < first ↔ (compare first second).swap = .lt := by
      rw [← compare_swap]
      rfl
    have first_lt_second : first < second ↔ compare first second = .lt := Iff.rfl
    simp only [partialCompare, first_lt_second, second_lt_first, ← compare_eq_iff_beq]
    cases compare first second <;> rfl

end RangeReport

/-- An empty table on which any steps are performed gives the answers of a map from ranges to counts,
which are determined, and holds the counts of the map after each step.  It can do so because reports
are compared by their ranges, in a total order. -/
theorem Table.performAll_follows (steps : List RangeStep) :
    (∃ trace, (∀ other, RangeCounts.Runs (fun _ => none) steps other ↔ other = trace) ∧
      List.Forall₂
        (fun performed expected => performed.1 = expected.1 ∧ performed.2.Holds expected.2)
        ((empty : Table RangeReport).performAll steps) trace) ∧
    ∀ first second third : RangeReport, first.OrderedByRange second third := by
  refine ⟨⟨_, runs_iff_performAll empty steps, ?_⟩, RangeReport.orderedByRange⟩
  rw [List.forall₂_map_right_iff, List.forall₂_same]
  intro performed _
  exact ⟨rfl, performed.2.holds_counts⟩

/-- A report of a known range is refused by an insertion and takes its place by a replacement. -/
example :
    ((Table.empty : Table RangeReport).performAll
      [.insert ⟨⟨⟨1⟩, ⟨2⟩⟩, 2, 1⟩, .insert ⟨⟨⟨1⟩, ⟨2⟩⟩, 2, 3⟩, .replace ⟨⟨⟨1⟩, ⟨2⟩⟩, 2, 3⟩,
        .popLast]).map Prod.fst =
      [.flag true, .flag false, .record (some ⟨⟨⟨1⟩, ⟨2⟩⟩, 2, 1⟩),
        .record (some ⟨⟨⟨1⟩, ⟨2⟩⟩, 2, 3⟩)] := by
  decide

end RingHealth
