import RingHealth.Proofs.Inspection

namespace RingHealth

/-- An event as it is recorded. -/
structure LogEntry where
  importance : Importance
  message : String
  fields : List (String × Json)

namespace LogEntry

def prepared (keyspace : String) (level : Level) (required : UInt32) : LogEntry :=
  ⟨.debug, "created token ring diagnostic generator",
    [("keyspace", .string keyspace), ("consistency_level", .string level.name),
      ("required_replicas", .integer required.toNat)]⟩

def shortfall (report : RangeReport) : LogEntry :=
  ⟨.trace, "token range unavailable",
    [("range", .string (toString report.range)), ("required", .integer report.required.toNat),
      ("alive", .integer report.alive.toNat)]⟩

def assembled (keyspace : String) (scope : Scope) (ranges : Nat) : LogEntry :=
  ⟨.debug, "built token ring diagnostic",
    [("keyspace", .string keyspace), ("consistency_level", .string scope.level.name),
      ("datacenter", .string (scope.datacenter.getD "-")), ("ranges", .integer ranges)]⟩

/-- The entry that closes a check, by the health that it has found. -/
def closing (keyspace : String) (level : Level) (unavailable total : Nat) : Health → LogEntry
  | .available => ⟨.debug, "token ring available", [("keyspace", .string keyspace)]⟩
  | .unavailable =>
      ⟨.warn, "token ring cannot achieve consistency level",
        [("keyspace", .string keyspace), ("consistency_level", .string level.name),
          ("unavailable", .integer unavailable), ("total", .integer total)]⟩
  | .unknown =>
      ⟨.warn, "token ring diagnostic has no token ranges", [("keyspace", .string keyspace)]⟩

variable {keyspace : String} {level : Level} {unavailable total : Nat}

theorem importance_closing (health : Health) :
    (closing keyspace level unavailable total health).importance =
      if health = .available then .debug else .warn := by
  cases health <;> rfl

theorem filter_trace_shortfall (reports : List RangeReport) :
    (reports.map shortfall).filter (fun entry => entry.importance = .trace) =
      reports.map shortfall := by
  rw [List.filter_eq_self, List.forall_mem_map]
  intro report _
  rfl

theorem filter_trace_closing {scope : Scope} (health : Health) :
    [assembled keyspace scope total, closing keyspace level unavailable total health].filter
      (fun entry => entry.importance = .trace) = [] := by
  cases health <;> rfl

end LogEntry

namespace Event

def entry (event : Event) : LogEntry := ⟨event.importance, event.message, event.fields⟩

/-- The report that an event announces to fall short. -/
def shortfall? : Event → Option RangeReport
  | rangeUnavailable report => some report
  | _ => none

/-- The event that closes a check, by the health that it has found. -/
def closing (keyspace : String) (level : Level) (unavailable total : Nat) : Health → Event
  | .available => ringAvailable keyspace
  | .unavailable => ringUnavailable keyspace level unavailable total
  | .unknown => ringEmpty keyspace

variable {keyspace : String} {level : Level} {unavailable total : Nat}

theorem entry_ringAssembled (scope : Scope) :
    (ringAssembled keyspace scope.level scope.datacenter total).entry =
      .assembled keyspace scope total := rfl

theorem entry_closing (health : Health) :
    (closing keyspace level unavailable total health).entry =
      .closing keyspace level unavailable total health := by
  cases health <;> rfl

theorem shortfall?_closing (health : Health) :
    (closing keyspace level unavailable total health).shortfall? = none := by
  cases health <;> rfl

end Event

/-- What is recorded of a run. -/
def Traced.entries (run : Traced α) : List LogEntry := run.events.map Event.entry

namespace Monitor

variable {monitor : Monitor} {snapshot : Snapshot} {ring : RingReport}

theorem entry_announcements (reports : List RangeReport) :
    (announcements reports).map Event.entry =
      (reports.filter fun report => report.alive < report.required).map .shortfall := by
  rw [announcements, List.map_map, RangeReport.filter_not_isMet]
  rfl

theorem shortfall?_announcements (reports : List RangeReport) :
    (announcements reports).filterMap Event.shortfall? =
      reports.filter fun report => !report.isMet := by
  rw [announcements, List.filterMap_map]
  exact List.filterMap_some

theorem shortfalls_perm (listed : ring.ranges.toList.Perm (snapshot.map monitor.assess)) :
    ring.shortfalls.Perm ((snapshot.map monitor.assess).filter fun report => !report.isMet) :=
  listed.filter _

/-- The closing event names the health of the ring, and counts its ranges and those that fall
short. -/
theorem verdict_eq (listed : ring.ranges.toList.Perm (snapshot.map monitor.assess)) :
    verdict ring =
      .closing ring.keyspace.name ring.scope.level ring.shortfalls.length snapshot.length
        (health ring) := by
  have size : ring.ranges.size = snapshot.length := by
    simpa [Table.size, Table.toList] using listed.length_eq
  rw [verdict, size]
  cases health ring <;> rfl

/-- The events of a check that ends with a report: the ranges that fall short in the order of the
snapshot, then that the report is complete, then the health of the ring. -/
def story (monitor : Monitor) (snapshot : Snapshot) (ring : RingReport) : List Event :=
  announcements (snapshot.map monitor.assess) ++
    [.ringAssembled monitor.keyspace.name monitor.scope.level monitor.scope.datacenter
        snapshot.length,
      .closing monitor.keyspace.name monitor.scope.level ring.shortfalls.length snapshot.length
        (health ring)]

/-- Whether a check records what its report shows, in the order of the snapshot. -/
structure Narrates (monitor : Monitor) (snapshot : Snapshot) (ring : RingReport) : Prop where
  events : (monitor.inspect snapshot).events = monitor.story snapshot ring
  entries : (monitor.inspect snapshot).entries =
    ((snapshot.map monitor.assess).filter fun report => report.alive < report.required).map
        .shortfall ++
      [.assembled monitor.keyspace.name monitor.scope snapshot.length,
        .closing monitor.keyspace.name monitor.scope.level ring.shortfalls.length snapshot.length
          (health ring)]
  importance : (monitor.inspect snapshot).entries.map LogEntry.importance =
    List.replicate ring.shortfalls.length .trace ++
      [.debug, if health ring = .available then .debug else .warn]
  traced : ((monitor.inspect snapshot).entries.filter fun entry => entry.importance = .trace).Perm
    (ring.shortfalls.map .shortfall)
  announced : ((monitor.inspect snapshot).events.filterMap Event.shortfall?).Perm ring.shortfalls

theorem narrates_of_events (listed : ring.ranges.toList.Perm (snapshot.map monitor.assess))
    (events : (monitor.inspect snapshot).events = monitor.story snapshot ring) :
    monitor.Narrates snapshot ring := by
  have fallShort := shortfalls_perm listed
  have entries := congrArg (List.map Event.entry) events
  rw [story, List.map_append, entry_announcements, List.map_cons, List.map_singleton,
    Event.entry_closing, Event.entry_ringAssembled] at entries
  refine ⟨events, entries, ?_, ?_, ?_⟩
  · rw [Traced.entries, entries, fallShort.length_eq, RangeReport.filter_not_isMet,
      List.map_append, List.map_map, List.map_cons, List.map_singleton, LogEntry.importance_closing]
    exact congrArg (· ++ _) List.map_const'
  · rw [RangeReport.filter_not_isMet] at fallShort
    rw [Traced.entries, entries, List.filter_append, LogEntry.filter_trace_shortfall,
      LogEntry.filter_trace_closing, List.append_nil]
    exact (fallShort.map _).symm
  · rw [events, story, List.filterMap_append, shortfall?_announcements,
      List.filterMap_cons_none rfl, List.filterMap_cons_none (Event.shortfall?_closing _),
      List.filterMap_nil, List.append_nil]
    exact fallShort.symm

/-- Preparing a monitor records one event with its requirement, and none if it fails.  A check
of different ranges records what its report shows.  A check that meets a repeated range ends with
the ranges that fall short up to and including that one. -/
theorem events_narrate (keyspace : Keyspace) (scope : Scope) :
    (∀ fault, (prepare keyspace scope).outcome = .error fault →
      (prepare keyspace scope).events = []) ∧
    ∀ monitor, (prepare keyspace scope).outcome = .ok monitor →
      monitor.keyspace = keyspace ∧ monitor.scope = scope ∧
      (prepare keyspace scope).events =
        [.monitorPrepared keyspace.name scope.level monitor.required] ∧
      (prepare keyspace scope).entries = [.prepared keyspace.name scope.level monitor.required] ∧
      (prepare keyspace scope).events.map Event.importance = [.debug] ∧
      ∀ snapshot : Snapshot,
        ((snapshot.map Placement.range).Nodup → ∃ ring,
          (monitor.inspect snapshot).outcome = .ok ring ∧ monitor.Narrates snapshot ring) ∧
        ∀ index, FirstRepeat (snapshot.map Placement.range) index →
          (∃ placement, snapshot[index]? = some placement ∧
            (monitor.inspect snapshot).outcome = .error (.duplicateRange placement.range)) ∧
          (monitor.inspect snapshot).events =
            announcements ((snapshot.take (index + 1)).map monitor.assess) ∧
          (monitor.inspect snapshot).entries =
            (((snapshot.take (index + 1)).map monitor.assess).filter fun report =>
              report.alive < report.required).map .shortfall := by
  refine ⟨fun fault => prepare_of_error, ?_⟩
  intro monitor prepared
  obtain ⟨rfl, rfl, created⟩ := prepare_of_ok prepared
  refine ⟨rfl, rfl, created, by rw [Traced.entries, created]; rfl, by rw [created]; rfl, ?_⟩
  intro snapshot
  rcases monitor.inspect_cases snapshot with reported | refused
  · obtain ⟨ring, distinct, sameKeyspace, sameScope, listed, run⟩ := reported
    have closing := verdict_eq listed
    rw [sameKeyspace, sameScope] at closing
    rw [closing] at run
    refine ⟨fun _ => ⟨ring, by rw [run], narrates_of_events listed (by rw [run, story])⟩, ?_⟩
    intro index first
    exact absurd distinct first.not_nodup
  · obtain ⟨found, placement, first, atFound, run⟩ := refused
    refine ⟨fun distinct => absurd distinct first.not_nodup, ?_⟩
    intro index other
    obtain rfl := first.unique other
    refine ⟨⟨placement, atFound, by rw [run]⟩, by rw [run], ?_⟩
    rw [Traced.entries, run, entry_announcements]

/-- The repeated range is announced before it is refused, and the range after it is not. -/
theorem events_narrate_repeated :
    ∃ monitor, (prepare ⟨"ks", .simple 3⟩ ⟨.quorum, none⟩).outcome = .ok monitor ∧
      (monitor.inspect [⟨⟨⟨0⟩, ⟨10⟩⟩, [⟨"a", "x", true⟩, ⟨"b", "x", true⟩]⟩,
        ⟨⟨⟨10⟩, ⟨20⟩⟩, [⟨"a", "x", true⟩, ⟨"a", "x", true⟩]⟩, ⟨⟨⟨10⟩, ⟨20⟩⟩, []⟩,
        ⟨⟨⟨20⟩, ⟨0⟩⟩, []⟩]).entries =
      [⟨.trace, "token range unavailable",
          [("range", .string "]10,20]"), ("required", .integer 2), ("alive", .integer 1)]⟩,
        ⟨.trace, "token range unavailable",
          [("range", .string "]10,20]"), ("required", .integer 2), ("alive", .integer 0)]⟩] := by
  refine ⟨⟨_, _, 2, rfl, rfl⟩, rfl, ?_⟩
  obtain ⟨_, told⟩ := events_narrate ⟨"ks", .simple 3⟩ ⟨.quorum, none⟩
  obtain ⟨_, _, _, _, _, narrated⟩ := told ⟨_, _, 2, rfl, rfl⟩ rfl
  have first : FirstRepeat
      ([⟨⟨0⟩, ⟨10⟩⟩, ⟨⟨10⟩, ⟨20⟩⟩] ++ ⟨⟨10⟩, ⟨20⟩⟩ :: [TokenRange.mk ⟨20⟩ ⟨0⟩]) 2 :=
    firstRepeat_append (by decide) (by decide)
  obtain ⟨_, _, entries⟩ := (narrated [⟨⟨⟨0⟩, ⟨10⟩⟩, [⟨"a", "x", true⟩, ⟨"b", "x", true⟩]⟩,
    ⟨⟨⟨10⟩, ⟨20⟩⟩, [⟨"a", "x", true⟩, ⟨"a", "x", true⟩]⟩, ⟨⟨⟨10⟩, ⟨20⟩⟩, []⟩,
    ⟨⟨⟨20⟩, ⟨0⟩⟩, []⟩]).2 2 first
  exact entries.trans rfl

end Monitor

end RingHealth
