import Mathlib.Algebra.Ring.Nat
import RingHealth.Proofs.Views

namespace RingHealth

section Counting

variable {α : Type} [DecidableEq α] {lists : List (List α)} {value : α}

/-- In lists without duplicates a value occurs at most once altogether if no two of them have it. -/
theorem count_flatten_le_one_iff (distinct : ∀ list ∈ lists, list.Nodup) :
    lists.flatten.count value ≤ 1 ↔
      lists.Pairwise fun first second => value ∈ first → value ∉ second := by
  induction lists with
  | nil => simp
  | cons head tail tailIH =>
      obtain ⟨headDistinct, tailDistinct⟩ := List.forall_mem_cons.mp distinct
      rw [List.flatten_cons, List.count_append, List.pairwise_cons, ← tailIH tailDistinct]
      by_cases inHead : value ∈ head
      · have absent : tail.flatten.count value = 0 ↔ ∀ list ∈ tail, value ∉ list := by
          simp [List.count_eq_zero]
        rw [List.count_eq_one_of_mem headDistinct inHead]
        simp only [inHead, forall_const, ← absent]
        omega
      · simp [inHead, List.count_eq_zero_of_not_mem]

theorem Repeats.two_le_count {values : List α} {index : Nat} (repeated : Repeats values index)
    (atIndex : values[index]? = some value) : 2 ≤ values.count value := by
  have before := List.one_le_count_iff.mpr ((repeats_iff_mem_take atIndex).mp repeated)
  obtain ⟨bound, same⟩ := List.getElem?_eq_some_iff.mp atIndex
  rw [← List.take_append_drop index values, List.drop_eq_getElem_cons bound, same,
    List.count_append, List.count_cons_self]
  omega

end Counting

/-- Whether two different shards report a range. -/
def SharedRange (shards : List (List RangeReport)) (range : TokenRange) : Prop :=
  ∃ (earlier later : Nat) (first second : List RangeReport), earlier < later ∧
    shards[earlier]? = some first ∧ shards[later]? = some second ∧
    range ∈ first.map RangeReport.range ∧ range ∈ second.map RangeReport.range

def RangeReport.notAfter (first second : RangeReport) : Bool :=
  (compare first.range second.range).isLE

/-- The reports of several lists, merged in the order of the ranges. -/
def mergeReports (lists : List (List RangeReport)) : List RangeReport :=
  lists.foldr (fun list merged => list.merge merged RangeReport.notAfter) []

variable {shards lists : List (List RangeReport)} {range : TokenRange}

theorem not_sharedRange_iff : ¬ SharedRange shards range ↔
    (shards.map fun shard => shard.map RangeReport.range).Pairwise fun first second =>
      range ∈ first → range ∉ second := by
  rw [List.pairwise_map, List.pairwise_iff_getElem]
  constructor
  · intro apart earlier later earlierBound laterBound smaller inFirst inSecond
    exact apart ⟨earlier, later, _, _, smaller, List.getElem?_eq_getElem earlierBound,
      List.getElem?_eq_getElem laterBound, inFirst, inSecond⟩
  · intro apart shared
    obtain ⟨earlier, later, first, second, smaller, atEarlier, atLater, inFirst, inSecond⟩ := shared
    obtain ⟨earlierBound, rfl⟩ := List.getElem?_eq_some_iff.mp atEarlier
    obtain ⟨laterBound, rfl⟩ := List.getElem?_eq_some_iff.mp atLater
    exact apart earlier later earlierBound laterBound smaller inFirst inSecond

/-- Where no shard repeats a range, the ranges that occur more than once are the shared ones. -/
theorem count_range_le_one_iff {reports : List RangeReport} (dealt : reports.Perm shards.flatten)
    (distinct : ∀ shard ∈ shards, (shard.map RangeReport.range).Nodup) :
    (reports.map RangeReport.range).count range ≤ 1 ↔ ¬ SharedRange shards range := by
  rw [not_sharedRange_iff, (dealt.map RangeReport.range).count_eq, List.map_flatten]
  exact count_flatten_le_one_iff (List.forall_mem_map.mpr distinct)

theorem mergeReports_perm (lists : List (List RangeReport)) :
    (mergeReports lists).Perm lists.flatten := by
  induction lists with
  | nil => exact .nil
  | cons list lists listsIH =>
      rw [List.flatten_cons]
      exact (List.merge_perm_append ..).trans (listsIH.append_left list)

theorem mergeReports_ascending
    (ascending : ∀ list ∈ lists, list.Pairwise fun earlier later => earlier.notAfter later) :
    (mergeReports lists).Pairwise fun earlier later => earlier.notAfter later := by
  induction lists with
  | nil => exact .nil
  | cons list lists listsIH =>
      obtain ⟨listAscending, othersAscending⟩ := List.forall_mem_cons.mp ascending
      refine List.pairwise_merge ?_ ?_ _ _ listAscending (listsIH othersAscending)
      · intro first second third
        exact Std.TransCmp.isLE_trans
      · intro first second
        have swapped : compare second.range first.range =
            (compare first.range second.range).swap := Std.OrientedOrd.eq_swap
        rw [RangeReport.notAfter, RangeReport.notAfter, swapped]
        cases compare first.range second.range <;> rfl

namespace RingReport

variable {keyspace : Keyspace} {scope : Scope} {reports : List RangeReport} {ring : RingReport}
  {parts : List RingReport}

theorem shortfalls_ascending (ring : RingReport) :
    ring.shortfalls.Pairwise fun earlier later => earlier.notAfter later := by
  refine (ring.ranges.ascending.filter _).imp ?_
  intro earlier later smaller
  exact congrArg Ordering.isLE smaller

/-- Whether a ring lists the ranges of several rings and no others. -/
def Unites (ring : RingReport) (parts : List RingReport) : Prop :=
  ring.ranges.toList.Perm (parts.flatMap fun part => part.ranges.toList)

/-- Whether a detail of a ring is the sum of the numbers in this detail of several rings. -/
def AddsUp (name : String) (ring : RingReport) (parts : List RingReport) : Prop :=
  ∃ numbers : List Nat,
    List.Forall₂ (fun part (number : Nat) => (details part).field? name = some (.integer number))
      parts numbers ∧
    (details ring).field? name = some (.integer numbers.sum)

theorem addsUp_of_sum {name : String} {number : RingReport → Nat}
    (shown : ∀ ring, (details ring).field? name = some (.integer (number ring)))
    (sum : number ring = (parts.map number).sum) : AddsUp name ring parts := by
  refine ⟨parts.map number, ?_, sum ▸ shown ring⟩
  rw [List.forall₂_map_right_iff, List.forall₂_same]
  intro part _
  exact shown part

namespace Unites

theorem health_eq (united : ring.Unites parts) : health ring = .worst (parts.map health) := by
  rw [health_eq_worst, Health.worst_perm (united.map health), List.map_flatMap, List.flatMap_def,
    Health.worst_flatten, List.map_map]
  rfl

theorem shortfalls_perm (united : ring.Unites parts) :
    ring.shortfalls.Perm (parts.map shortfalls).flatten := by
  have filtered := united.filter fun report => !report.isMet
  rwa [List.filter_flatMap, List.flatMap_def] at filtered

theorem shortfalls_eq_merge (united : ring.Unites parts) :
    ring.shortfalls = mergeReports (parts.map shortfalls) := by
  have perm := united.shortfalls_perm.trans (mergeReports_perm _).symm
  refine perm.eq_of_pairwise ?_ ring.shortfalls_ascending (mergeReports_ascending ?_)
  · intro first second inRing inMerged before after
    have firstListed := List.mem_of_mem_filter inRing
    have secondListed := List.mem_of_mem_filter (perm.mem_iff.mpr inMerged)
    have sameRange : first.range = second.range :=
      Std.compare_eq_iff_eq.mp (Std.OrientedCmp.isLE_antisymm before after)
    exact Table.eq_of_ascending ring.ranges.ascending firstListed secondListed sameRange
  · intro list listed
    obtain ⟨part, _, rfl⟩ := List.mem_map.mp listed
    exact part.shortfalls_ascending

theorem details_addUp (united : ring.Unites parts) :
    AddsUp "total_ranges" ring parts ∧ AddsUp "available_ranges" ring parts ∧
      AddsUp "unavailable_ranges" ring parts := by
  refine ⟨addsUp_of_sum (fun ring => ring.details_fields.1) ?_,
    addsUp_of_sum (fun ring => ring.details_fields.2.1) ?_,
    addsUp_of_sum (fun ring => ring.details_fields.2.2.1) ?_⟩
  · exact united.length_eq.trans List.length_flatMap
  · simp only [size_sub_shortfalls]
    exact (united.countP_eq _).trans List.countP_flatMap
  · rw [united.shortfalls_perm.length_eq, List.length_flatten, List.map_map]
    rfl

end Unites

theorem build_shard (dealt : reports.Perm shards.flatten)
    (built : build keyspace scope reports = .ok ring) {shard : List RangeReport}
    (listed : shard ∈ shards) : ∃ part, build keyspace scope shard = .ok part := by
  obtain ⟨inScope, distinct, _⟩ := build_ok built
  rw [(dealt.map RangeReport.range).nodup_iff] at distinct
  exact build_of_nodup keyspace inScope
    (distinct.sublist ((List.sublist_flatten_of_mem listed).map RangeReport.range))

theorem parts_exist
    (each : ∀ shard ∈ shards, ∃ part, build keyspace scope shard = .ok part) :
    ∃ parts, List.Forall₂ (fun shard part => build keyspace scope shard = .ok part)
      shards parts := by
  induction shards with
  | nil => exact ⟨[], .nil⟩
  | cons shard shards shardsIH =>
      obtain ⟨⟨part, built⟩, others⟩ := List.forall_mem_cons.mp each
      obtain ⟨parts, builtParts⟩ := shardsIH others
      exact ⟨part :: parts, .cons built builtParts⟩

theorem unites_of_build (dealt : reports.Perm shards.flatten)
    (built : build keyspace scope reports = .ok ring)
    (builtParts : List.Forall₂ (fun shard part => build keyspace scope shard = .ok part)
      shards parts) : ring.Unites parts := by
  have listedParts : List.Forall₂ List.Perm (parts.map fun part => part.ranges.toList) shards := by
    rw [List.forall₂_map_left_iff]
    refine builtParts.flip.imp ?_
    intro part shard builtPart
    exact listed_of_build builtPart
  have pooled := List.Perm.flatten_congr listedParts
  rw [← List.flatMap_def] at pooled
  exact (listed_of_build built).trans (dealt.trans pooled.symm)

/-- Shards that are each in order make a report together exactly if they share no range. -/
theorem build_united_cases (keyspace : Keyspace) (inScope : scope.check = .ok ())
    (dealt : reports.Perm shards.flatten)
    (distinct : ∀ shard ∈ shards, (shard.map RangeReport.range).Nodup) :
    (∃ ring, build keyspace scope reports = .ok ring ∧ ∀ range, ¬ SharedRange shards range) ∨
      ∃ range, SharedRange shards range ∧
        build keyspace scope reports = .error (.duplicateRange range) := by
  rcases build_cases keyspace reports inScope with assembled | refused
  · obtain ⟨ring, built, different, _⟩ := assembled
    refine .inl ⟨ring, built, ?_⟩
    intro range
    have once := List.nodup_iff_count_le_one.mp different range
    exact (count_range_le_one_iff dealt distinct).mp once
  · obtain ⟨index, repeated, first, atIndex, stopped⟩ := refused
    refine .inr ⟨repeated.range, ?_, stopped⟩
    have twice : 2 ≤ (reports.map RangeReport.range).count repeated.range :=
      first.repeats.two_le_count (by simp [atIndex])
    by_contra unshared
    have once := (count_range_le_one_iff dealt distinct).mpr unshared
    omega

/-- A ring report of reports that are dealt out to shards exists exactly if each shard makes one
and no two shards share a range.  It is then the shards' reports put together: its health is the
worst of theirs, its numbers are the sums of theirs, and the ranges on which it falls short are
theirs, merged in the order of the ring. -/
theorem build_sharded (keyspace : Keyspace) (scope : Scope) (reports : List RangeReport)
    (shards : List (List RangeReport)) (nonempty : shards ≠ [])
    (dealt : reports.Perm shards.flatten) :
    (∀ ring, build keyspace scope reports = .ok ring →
      ∃ parts,
        List.Forall₂ (fun shard part => build keyspace scope shard = .ok part) shards parts ∧
        health ring = .worst (parts.map health) ∧
        AddsUp "total_ranges" ring parts ∧ AddsUp "available_ranges" ring parts ∧
        AddsUp "unavailable_ranges" ring parts ∧
        ring.shortfalls = mergeReports (parts.map shortfalls)) ∧
    ((∀ shard ∈ shards, ∃ part, build keyspace scope shard = .ok part) →
      ((∃ ring, build keyspace scope reports = .ok ring) ↔
        ∀ range, ¬ SharedRange shards range) ∧
      ((∃ range, SharedRange shards range) →
        ∃ range, SharedRange shards range ∧
          build keyspace scope reports = .error (.duplicateRange range))) := by
  constructor
  · intro ring built
    obtain ⟨parts, builtParts⟩ := parts_exist fun _ => build_shard dealt built
    have united := unites_of_build dealt built builtParts
    obtain ⟨total, available, unavailable⟩ := united.details_addUp
    exact ⟨parts, builtParts, united.health_eq, total, available, unavailable,
      united.shortfalls_eq_merge⟩
  · intro each
    have valid : ∀ shard ∈ shards,
        scope.check = .ok () ∧ (shard.map RangeReport.range).Nodup := by
      intro shard listed
      obtain ⟨part, built⟩ := each shard listed
      obtain ⟨inScope, distinct, _⟩ := build_ok built
      exact ⟨inScope, distinct⟩
    obtain ⟨shard, listed⟩ := List.exists_mem_of_ne_nil shards nonempty
    rcases build_united_cases keyspace (valid shard listed).1 dealt
      (fun shard listed => (valid shard listed).2) with assembled | refused
    · obtain ⟨ring, built, unshared⟩ := assembled
      refine ⟨⟨fun _ => unshared, fun _ => ⟨ring, built⟩⟩, ?_⟩
      intro shared
      obtain ⟨range, shared⟩ := shared
      exact absurd shared (unshared range)
    · obtain ⟨range, shared, stopped⟩ := refused
      refine ⟨⟨?_, fun unshared => absurd shared (unshared range)⟩,
        fun _ => ⟨range, shared, stopped⟩⟩
      intro succeeds
      obtain ⟨ring, built⟩ := succeeds
      rw [stopped] at built
      cases built

/-- Three shards, one of them empty; and two shards that share a range, with different counts. -/
theorem build_sharded_empty_and_shared :
    (∃ ring parts, build ⟨"ks", .simple 3⟩ ⟨.quorum, none⟩
        [⟨⟨⟨10⟩, ⟨0⟩⟩, 2, 1⟩, ⟨⟨⟨0⟩, ⟨5⟩⟩, 2, 0⟩, ⟨⟨⟨5⟩, ⟨10⟩⟩, 2, 2⟩] = .ok ring ∧
      List.Forall₂ (fun shard part => build ⟨"ks", .simple 3⟩ ⟨.quorum, none⟩ shard = .ok part)
        [[⟨⟨⟨5⟩, ⟨10⟩⟩, 2, 2⟩, ⟨⟨⟨10⟩, ⟨0⟩⟩, 2, 1⟩], [], [⟨⟨⟨0⟩, ⟨5⟩⟩, 2, 0⟩]] parts ∧
      AddsUp "available_ranges" ring parts ∧
      ring.shortfalls = mergeReports (parts.map shortfalls)) ∧
    ∃ range, build ⟨"ks", .simple 3⟩ ⟨.quorum, none⟩
      [⟨⟨⟨0⟩, ⟨5⟩⟩, 2, 0⟩, ⟨⟨⟨0⟩, ⟨5⟩⟩, 2, 3⟩] = .error (.duplicateRange range) := by
  constructor
  · obtain ⟨together, _⟩ := build_sharded ⟨"ks", .simple 3⟩ ⟨.quorum, none⟩
      [⟨⟨⟨10⟩, ⟨0⟩⟩, 2, 1⟩, ⟨⟨⟨0⟩, ⟨5⟩⟩, 2, 0⟩, ⟨⟨⟨5⟩, ⟨10⟩⟩, 2, 2⟩]
      [[⟨⟨⟨5⟩, ⟨10⟩⟩, 2, 2⟩, ⟨⟨⟨10⟩, ⟨0⟩⟩, 2, 1⟩], [], [⟨⟨⟨0⟩, ⟨5⟩⟩, 2, 0⟩]]
      (by decide) (by decide)
    obtain ⟨parts, builtParts, _, _, available, _, short⟩ := together _ rfl
    exact ⟨_, parts, rfl, builtParts, available, short⟩
  · obtain ⟨_, apart⟩ := build_sharded ⟨"ks", .simple 3⟩ ⟨.quorum, none⟩
      [⟨⟨⟨0⟩, ⟨5⟩⟩, 2, 0⟩, ⟨⟨⟨0⟩, ⟨5⟩⟩, 2, 3⟩] [[⟨⟨⟨0⟩, ⟨5⟩⟩, 2, 3⟩], [⟨⟨⟨0⟩, ⟨5⟩⟩, 2, 0⟩]]
      (by decide) (by decide)
    obtain ⟨_, fails⟩ :=
      apart (List.forall_mem_cons.mpr ⟨⟨_, rfl⟩, List.forall_mem_singleton.mpr ⟨_, rfl⟩⟩)
    obtain ⟨range, _, stopped⟩ :=
      fails ⟨⟨⟨0⟩, ⟨5⟩⟩, 0, 1, _, _, by decide, rfl, rfl, by decide, by decide⟩
    exact ⟨range, stopped⟩

end RingReport

end RingHealth
