import RingHealth.Monitor
import RingHealth.Proofs.Assembly

namespace RingHealth

namespace Monitor

def announcements (reports : List RangeReport) : List Event :=
  (reports.filter fun report => !report.isMet).map .rangeUnavailable

variable {monitor : Monitor} {placement : Placement} {before after snapshot : Snapshot}
  {table smaller larger : Table RangeReport} {keyspace : Keyspace} {scope : Scope} {fault : Fault}

theorem prepare_cases (keyspace : Keyspace) (scope : Scope) :
    (∃ fault, scope.check = .error fault ∧ prepare keyspace scope = .fail fault) ∨
    (∃ fault, scope.check = .ok () ∧ keyspace.requirement scope = .error fault ∧
      prepare keyspace scope = .fail fault) ∨
    ∃ required inScope requires, prepare keyspace scope =
      ⟨[.monitorPrepared keyspace.name scope.level required],
        .ok ⟨keyspace, scope, required, inScope, requires⟩⟩ := by
  unfold prepare
  split
  · rename_i fault outOfScope
    exact .inl ⟨fault, outOfScope, rfl⟩
  · rename_i inScope
    split
    · rename_i fault failed
      exact .inr (.inl ⟨fault, inScope, failed, rfl⟩)
    · rename_i required requires
      exact .inr (.inr ⟨required, inScope, requires, rfl⟩)

theorem prepare_of_ok (prepared : (prepare keyspace scope).outcome = .ok monitor) :
    monitor.keyspace = keyspace ∧ monitor.scope = scope ∧
      (prepare keyspace scope).events =
        [.monitorPrepared keyspace.name scope.level monitor.required] := by
  rcases prepare_cases keyspace scope with
    ⟨_, _, run⟩ | ⟨_, _, _, run⟩ | ⟨required, inScope, requires, run⟩
  · rw [run] at prepared
    cases prepared
  · rw [run] at prepared
    cases prepared
  · rw [run] at prepared ⊢
    cases prepared
    exact ⟨rfl, rfl, rfl⟩

theorem prepare_of_error (failed : (prepare keyspace scope).outcome = .error fault) :
    (prepare keyspace scope).events = [] := by
  rcases prepare_cases keyspace scope with ⟨_, _, run⟩ | ⟨_, _, _, run⟩ | ⟨_, _, _, run⟩
  · rw [run, Traced.fail]
  · rw [run, Traced.fail]
  · rw [run] at failed
    cases failed

theorem flatMap_announcements (reports : List RangeReport) :
    (reports.flatMap fun report => announcements [report]) = announcements reports := by
  induction reports with
  | nil => rfl
  | cons report reports reportsIH =>
      rw [List.flatMap_cons, reportsIH]
      cases met : report.isMet <;> simp [announcements, met]

theorem examine_eq (monitor : Monitor) (placement : Placement) :
    monitor.examine placement = .told (fun report => announcements [report])
      (monitor.assess placement) := by
  unfold examine announcements Traced.told
  cases met : (monitor.assess placement).isMet <;> simp [met] <;> rfl

theorem map_examine (monitor : Monitor) (snapshot : Snapshot) :
    snapshot.map monitor.examine =
      (snapshot.map monitor.assess).map (.told fun report => announcements [report]) := by
  rw [List.map_map]
  exact List.map_congr_left fun placement _ => monitor.examine_eq placement

theorem map_range_assess (monitor : Monitor) (snapshot : Snapshot) :
    (snapshot.map monitor.assess).map RangeReport.range = snapshot.map Placement.range := by
  simp [assess]

/-- A snapshot whose ranges differ is reported in full; any other is refused at its first
repeated range. -/
theorem inspect_cases (monitor : Monitor) (snapshot : Snapshot) :
    (∃ ring : RingReport, (snapshot.map Placement.range).Nodup ∧
        ring.keyspace = monitor.keyspace ∧ ring.scope = monitor.scope ∧
        ring.ranges.toList.Perm (snapshot.map monitor.assess) ∧
        monitor.inspect snapshot =
          ⟨announcements (snapshot.map monitor.assess) ++
            [.ringAssembled monitor.keyspace.name monitor.scope.level monitor.scope.datacenter
              snapshot.length, verdict ring], .ok ring⟩) ∨
      ∃ index placement, FirstRepeat (snapshot.map Placement.range) index ∧
        snapshot[index]? = some placement ∧
        monitor.inspect snapshot =
          ⟨announcements ((snapshot.take (index + 1)).map monitor.assess),
            .error (.duplicateRange placement.range)⟩ := by
  rw [inspect, map_examine]
  rcases RingReport.assemble_cases (fun report => announcements [report]) monitor.keyspace
      (snapshot.map monitor.assess) monitor.inScope with assembled | refused
  · obtain ⟨ring, distinct, sameKeyspace, sameScope, listed, run⟩ := assembled
    rw [map_range_assess] at distinct
    refine .inl ⟨ring, distinct, sameKeyspace, sameScope, listed, ?_⟩
    rw [run, Traced.mk_ok_bind, flatMap_announcements, List.length_map, List.append_assoc]
    rfl
  · obtain ⟨index, repeated, first, assessed, run⟩ := refused
    rw [map_range_assess] at first
    rw [List.getElem?_map] at assessed
    obtain ⟨placement, atIndex, rfl⟩ := Option.map_eq_some_iff.mp assessed
    refine .inr ⟨index, placement, first, atIndex, ?_⟩
    rw [run, Traced.mk_error_bind, flatMap_announcements, List.map_take]
    rfl

/-- A check has the outcome of building a report from the assessments; in particular the scope,
which was in order when the monitor was prepared, is not at fault again. -/
theorem outcome_inspect (monitor : Monitor) (snapshot : Snapshot) :
    (monitor.inspect snapshot).outcome =
      RingReport.build monitor.keyspace monitor.scope (snapshot.map monitor.assess) := by
  rw [← RingReport.outcome_assemble fun report => announcements [report], ← map_examine, inspect]
  cases RingReport.assemble monitor.keyspace monitor.scope (snapshot.map monitor.examine) with
  | mk events outcome => cases outcome <;> rfl

theorem inspect_exists (monitor : Monitor) (distinct : (snapshot.map Placement.range).Nodup) :
    ∃ ring, (monitor.inspect snapshot).outcome = .ok ring ∧
      ring.ranges.toList.Perm (snapshot.map monitor.assess) := by
  rcases monitor.inspect_cases snapshot with reported | refused
  · obtain ⟨ring, _, _, _, listed, run⟩ := reported
    exact ⟨ring, by rw [run], listed⟩
  · obtain ⟨_, _, repeated, _⟩ := refused
    exact absurd distinct repeated.not_nodup

theorem listed_of_inspect {ring : RingReport}
    (reported : (monitor.inspect snapshot).outcome = .ok ring) :
    ring.ranges.toList.Perm (snapshot.map monitor.assess) := by
  rw [outcome_inspect] at reported
  obtain ⟨_, _, _, _, listed⟩ := RingReport.build_ok reported
  exact listed

end Monitor

end RingHealth
