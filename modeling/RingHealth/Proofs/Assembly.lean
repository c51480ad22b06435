import RingHealth.Document.Report
import RingHealth.Proofs.Insertion

namespace RingHealth

theorem Table.ranges_ascending (table : Table RangeReport) :
    table.toList.Pairwise fun earlier later => earlier.range.Precedes later.range :=
  table.ascending.imp TokenRange.compare_eq_lt_iff.mp

namespace RingReport

variable {keyspace : Keyspace} {scope : Scope} {reports others : List RangeReport}
  {ring other : RingReport} {fault : Fault}

theorem ext_ranges (sameKeyspace : ring.keyspace = other.keyspace)
    (sameScope : ring.scope = other.scope)
    (sameRanges : ring.ranges.toList.Perm other.ranges.toList) : ring = other := by
  cases ring
  cases other
  cases sameKeyspace
  cases sameScope
  cases Table.ext_perm sameRanges
  rfl

theorem ranges_ascending (ring : RingReport) :
    ring.ranges.toList.Pairwise fun earlier later => earlier.range.Precedes later.range :=
  ring.ranges.ranges_ascending

theorem assemble_of_check (keyspace : Keyspace) (inScope : scope.check = .ok ())
    (supply : List (Traced RangeReport)) :
    assemble keyspace scope supply = (do
      let ranges ← collect .empty supply
      .emit (.ringAssembled keyspace.name scope.level scope.datacenter ranges.size)
      pure { keyspace, scope, inScope, ranges }) := by
  unfold assemble
  split
  · rename_i outOfScope
    rw [inScope] at outOfScope
    cases outOfScope
  · rfl

theorem assemble_of_check_error {supply : List (Traced RangeReport)}
    (outOfScope : scope.check = .error fault) :
    assemble keyspace scope supply = .fail fault := by
  unfold assemble
  split
  · rename_i found outOfScope'
    rw [outOfScope] at outOfScope'
    cases outOfScope'
    rfl
  · rename_i inScope
    rw [outOfScope] at inScope
    cases inScope

/-- In a scope that is in order the reports are all kept, or the first repeated range is
refused. -/
theorem assemble_cases (tell : RangeReport → List Event) (keyspace : Keyspace)
    (reports : List RangeReport) (inScope : scope.check = .ok ()) :
    (∃ ring : RingReport, (reports.map RangeReport.range).Nodup ∧ ring.keyspace = keyspace ∧
        ring.scope = scope ∧ ring.ranges.toList.Perm reports ∧
        assemble keyspace scope (reports.map (.told tell)) =
          ⟨reports.flatMap tell ++
            [.ringAssembled keyspace.name scope.level scope.datacenter reports.length],
            .ok ring⟩) ∨
      ∃ index repeated, FirstRepeat (reports.map RangeReport.range) index ∧
        reports[index]? = some repeated ∧
        assemble keyspace scope (reports.map (.told tell)) =
          ⟨(reports.take (index + 1)).flatMap tell, .error (.duplicateRange repeated.range)⟩ := by
  rw [assemble_of_check keyspace inScope]
  rcases collect_empty_cases tell reports with filled | stopped
  · obtain ⟨table, distinct, listed, run⟩ := filled
    have size : table.size = reports.length := listed.length_eq
    refine .inl ⟨⟨keyspace, scope, inScope, table⟩, distinct, rfl, rfl, listed, ?_⟩
    rw [run, Traced.mk_ok_bind, size]
    rfl
  · obtain ⟨index, repeated, first, atIndex, run⟩ := stopped
    refine .inr ⟨index, repeated, first, atIndex, ?_⟩
    rw [run, Traced.mk_error_bind]

/-- What is told of the reports has no influence on what they are assembled to. -/
theorem outcome_assemble (tell : RangeReport → List Event) (keyspace : Keyspace) (scope : Scope)
    (reports : List RangeReport) :
    (assemble keyspace scope (reports.map (.told tell))).outcome =
      build keyspace scope reports := by
  change _ = (assemble keyspace scope (reports.map (.told fun _ => []))).outcome
  cases checked : scope.check with
  | error fault => rw [assemble_of_check_error checked, assemble_of_check_error checked]
  | ok =>
      rw [assemble_of_check keyspace checked, assemble_of_check keyspace checked]
      exact Traced.outcome_bind_congr (outcome_collect tell (fun _ => []) .empty reports) _

theorem build_of_check_error (outOfScope : scope.check = .error fault) :
    build keyspace scope reports = .error fault := by
  rw [build, assemble_of_check_error outOfScope, Traced.fail]

theorem build_cases (keyspace : Keyspace) (reports : List RangeReport)
    (inScope : scope.check = .ok ()) :
    (∃ ring, build keyspace scope reports = .ok ring ∧
        (reports.map RangeReport.range).Nodup ∧
        ring.keyspace = keyspace ∧ ring.scope = scope ∧ ring.ranges.toList.Perm reports) ∨
      ∃ index repeated, FirstRepeat (reports.map RangeReport.range) index ∧
        reports[index]? = some repeated ∧
        build keyspace scope reports = .error (.duplicateRange repeated.range) := by
  rw [← outcome_assemble fun _ => []]
  rcases assemble_cases (fun _ => []) keyspace reports inScope with assembled | refused
  · obtain ⟨ring, distinct, sameKeyspace, sameScope, listed, run⟩ := assembled
    exact .inl ⟨ring, by rw [run], distinct, sameKeyspace, sameScope, listed⟩
  · obtain ⟨index, repeated, first, atIndex, run⟩ := refused
    exact .inr ⟨index, repeated, first, atIndex, by rw [run]⟩

theorem build_ok (built : build keyspace scope reports = .ok ring) :
    scope.check = .ok () ∧ (reports.map RangeReport.range).Nodup ∧
      ring.keyspace = keyspace ∧ ring.scope = scope ∧ ring.ranges.toList.Perm reports := by
  cases checked : scope.check with
  | error fault =>
      rw [build_of_check_error checked] at built
      cases built
  | ok =>
      rcases build_cases keyspace reports checked with assembled | refused
      · obtain ⟨found, same, content⟩ := assembled
        rw [same] at built
        cases built
        exact ⟨rfl, content⟩
      · obtain ⟨_, _, _, _, stopped⟩ := refused
        rw [stopped] at built
        cases built

theorem listed_of_build (built : build keyspace scope reports = .ok ring) :
    ring.ranges.toList.Perm reports :=
  (build_ok built).2.2.2.2

theorem build_of_nodup (keyspace : Keyspace) (inScope : scope.check = .ok ())
    (distinct : (reports.map RangeReport.range).Nodup) :
    ∃ ring, build keyspace scope reports = .ok ring := by
  rcases build_cases keyspace reports inScope with assembled | refused
  · obtain ⟨ring, built, _⟩ := assembled
    exact ⟨ring, built⟩
  · obtain ⟨_, _, first, _⟩ := refused
    exact absurd distinct first.not_nodup

/-- The order of the supplied reports does not matter. -/
theorem build_perm (rearranged : reports.Perm others)
    (built : build keyspace scope reports = .ok ring) :
    build keyspace scope others = .ok ring := by
  obtain ⟨inScope, distinct, sameKeyspace, sameScope, listed⟩ := build_ok built
  obtain ⟨other, builtOther⟩ := build_of_nodup keyspace inScope
    ((rearranged.map RangeReport.range).nodup_iff.mp distinct)
  obtain ⟨_, _, otherKeyspace, otherScope, otherListed⟩ := build_ok builtOther
  have same : other = ring := ext_ranges (otherKeyspace.trans sameKeyspace.symm)
    (otherScope.trans sameScope.symm) (otherListed.trans (rearranged.symm.trans listed.symm))
  rw [builtOther, same]

/-- A report is built exactly from reports of different ranges at a scope that is in order;
otherwise the fault of the scope comes first, and after it the first repeated range.  What is
built keeps the given reports as they are, in ascending order, so it shows the same in every
respect for every order of the given reports. -/
theorem build_represents (keyspace : Keyspace) (scope : Scope) (reports : List RangeReport) :
    ((∃ ring, build keyspace scope reports = .ok ring) ↔
      scope.check = .ok () ∧ (reports.map RangeReport.range).Nodup) ∧
    (∀ fault, scope.check = .error fault → build keyspace scope reports = .error fault) ∧
    (scope.check = .ok () → ¬ (reports.map RangeReport.range).Nodup →
      ∃ index repeated, FirstRepeat (reports.map RangeReport.range) index ∧
        reports[index]? = some repeated ∧
        build keyspace scope reports = .error (.duplicateRange repeated.range)) ∧
    (∀ ring, build keyspace scope reports = .ok ring →
      ring.keyspace = keyspace ∧ ring.scope = scope ∧ ring.ranges.toList.Perm reports ∧
      ring.ranges.toList.Pairwise fun earlier later => earlier.range.Precedes later.range) ∧
    ∀ others, reports.Perm others →
      ((∃ ring, build keyspace scope others = .ok ring) ↔
        ∃ ring, build keyspace scope reports = .ok ring) ∧
      ∀ ring other, build keyspace scope reports = .ok ring →
        build keyspace scope others = .ok other →
        health other = health ring ∧ other.isHealthy = ring.isHealthy ∧
        other.shortfalls = ring.shortfalls ∧ details other = details ring ∧
        Document.write other = Document.write ring := by
  refine ⟨⟨?_, ?_⟩, fun fault => build_of_check_error, ?_, ?_, ?_⟩
  · intro succeeds
    obtain ⟨ring, built⟩ := succeeds
    obtain ⟨inScope, distinct, _⟩ := build_ok built
    exact ⟨inScope, distinct⟩
  · intro valid
    exact build_of_nodup keyspace valid.1 valid.2
  · intro inScope duplicated
    rcases build_cases keyspace reports inScope with assembled | refused
    · obtain ⟨_, _, distinct, _⟩ := assembled
      exact absurd distinct duplicated
    · exact refused
  · intro ring built
    obtain ⟨_, _, sameKeyspace, sameScope, listed⟩ := build_ok built
    exact ⟨sameKeyspace, sameScope, listed, ring.ranges_ascending⟩
  · intro others rearranged
    refine ⟨⟨?_, ?_⟩, ?_⟩
    · intro succeeds
      obtain ⟨ring, built⟩ := succeeds
      exact ⟨ring, build_perm rearranged.symm built⟩
    · intro succeeds
      obtain ⟨ring, built⟩ := succeeds
      exact ⟨ring, build_perm rearranged built⟩
    · intro ring other built builtOther
      have same : other = ring :=
        Except.ok.inj (builtOther.symm.trans (build_perm rearranged built))
      subst other
      exact ⟨rfl, rfl, rfl, rfl, rfl⟩

end RingReport

end RingHealth
