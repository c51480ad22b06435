import RingHealth.Proofs.Views

namespace RingHealth

/-- What is read from the document of a ring report. -/
structure Account where
  keyspace : String
  level : Level
  datacenter : Option String
  health : Health
  ranges : List RangeReport
deriving DecidableEq

/-- Only a report whose status goes by its numbers is read. -/
instance : OfJson RangeReport where
  ofJson? json :=
    match json.fields? ["range", "status", "required", "alive"] with
    | some [some range, some status, some required, some alive] => do
        let range ← ofJson? range
        let status ← ofJson? status
        let required ← ofJson? required
        let alive ← ofJson? alive
        let report : RangeReport := ⟨range, required, alive⟩
        if health report = status then some report else none
    | _ => none

instance : LawfulJson RangeReport where
  ofJson?_toJson report := by
    change (do
      let range ← ofJson? (toJson report.range)
      let status ← ofJson? (toJson (health report))
      let required ← ofJson? (toJson report.required)
      let alive ← ofJson? (toJson report.alive)
      if health (RangeReport.mk range required alive) = status then
        some (RangeReport.mk range required alive) else none) = _
    simp only [ofJson?_toJson, Option.bind_eq_bind, Option.bind_some, if_pos]

instance : OfJson Account where
  ofJson? json :=
    match json.fields?
        ["keyspace", "consistency_level", "datacenter", "status", "token_ranges"] with
    | some [some keyspace, some level, datacenter, some health, some ranges] => do
        let keyspace ← ofJson? keyspace
        let level ← ofJson? level
        let datacenter ← Scope.datacenterOfField? datacenter
        let health ← ofJson? health
        let ranges ← ofJson? ranges
        some { keyspace, level, datacenter, health, ranges }
    | _ => none

namespace RingReport

variable {keyspace otherKeyspace : Keyspace} {scope otherScope : Scope}
  {reports others : List RangeReport} {ring other : RingReport}

def account (ring : RingReport) : Account where
  keyspace := ring.keyspace.name
  level := ring.scope.level
  datacenter := ring.scope.datacenter
  health := health ring
  ranges := ring.ranges.toList

theorem ofJson?_toJson_account (ring : RingReport) : ofJson? (toJson ring) = some ring.account := by
  have fields : (toJson ring).fields?
      ["keyspace", "consistency_level", "datacenter", "status", "token_ranges"] =
        some [some (toJson ring.keyspace.name), some (toJson ring.scope.level),
          ring.scope.datacenter.map toJson, some (toJson (health ring)),
          some (toJson ring.ranges.toList)] := by
    simp only [toJson, Json.fields?]
    cases ring.scope.datacenter <;> rfl
  have datacenter : Scope.datacenterOfField? (ring.scope.datacenter.map toJson) =
      some ring.scope.datacenter := by
    cases ring.scope.datacenter <;> rfl
  rw [ofJson?, instOfJsonAccount]
  simp only [fields, ofJson?_toJson, datacenter, Option.bind_eq_bind, Option.bind_some, account]

theorem names_toJson (ring : RingReport) :
    (toJson ring).names = ["keyspace", "consistency_level"] ++
      (if ring.scope.level ∈ [.localOne, .localQuorum, .localSerial] then ["datacenter"] else []) ++
      ["status", "token_ranges"] := by
  have isLocal := Scope.isLocal_of_check ring.inScope
  simp only [← Level.isLocal_iff, isLocal, toJson, Json.names]
  cases ring.scope.datacenter <;> rfl

theorem account_eq_iff :
    ring.account = other.account ↔
      ring.keyspace.name = other.keyspace.name ∧ ring.scope.level = other.scope.level ∧
        ring.scope.datacenter = other.scope.datacenter ∧
        ring.ranges.toList = other.ranges.toList := by
  simp only [account, Account.mk.injEq]
  constructor
  · intro same
    obtain ⟨sameName, sameLevel, sameDatacenter, _, sameRanges⟩ := same
    exact ⟨sameName, sameLevel, sameDatacenter, sameRanges⟩
  · intro same
    obtain ⟨sameName, sameLevel, sameDatacenter, sameRanges⟩ := same
    have sameHealth : health ring = health other := by
      rw [health_eq_worst, health_eq_worst, sameRanges]
    exact ⟨sameName, sameLevel, sameDatacenter, sameHealth, sameRanges⟩

theorem toJson_eq_of_account (same : ring.account = other.account) :
    toJson ring = toJson other := by
  simp only [account, Account.mk.injEq] at same
  obtain ⟨sameName, sameLevel, sameDatacenter, sameHealth, sameRanges⟩ := same
  simp only [toJson, sameName, sameLevel, sameDatacenter, sameHealth, sameRanges]

/-- Two rings are written alike exactly if their accounts are the same. -/
theorem write_eq_iff_account :
    Document.write ring = Document.write other ↔ ring.account = other.account := by
  constructor
  · intro same
    have read := ring.ofJson?_toJson_account
    rw [Json.text_injective same, ofJson?_toJson_account] at read
    exact (Option.some.inj read).symm
  · intro same
    exact congrArg Json.text (toJson_eq_of_account same)

theorem ranges_eq_iff_perm (built : build keyspace scope reports = .ok ring)
    (builtOther : build otherKeyspace otherScope others = .ok other) :
    ring.ranges.toList = other.ranges.toList ↔ reports.Perm others := by
  have listed := listed_of_build built
  have otherListed := listed_of_build builtOther
  constructor
  · intro same
    rw [same] at listed
    exact listed.symm.trans otherListed
  · intro rearranged
    exact congrArg Table.toList (Table.ext_perm (listed.trans (rearranged.trans otherListed.symm)))

theorem eq_iff_account :
    ring = other ↔ ring.account = other.account ∧
      ring.keyspace.replication = other.keyspace.replication := by
  constructor
  · intro same
    subst other
    exact ⟨rfl, rfl⟩
  · intro same
    obtain ⟨sameAccount, sameReplication⟩ := same
    obtain ⟨sameName, sameLevel, sameDatacenter, sameRanges⟩ := account_eq_iff.mp sameAccount
    exact ext_ranges (congrArg₂ Keyspace.mk sameName sameReplication)
      (congrArg₂ Scope.mk sameLevel sameDatacenter) (.of_eq sameRanges)

theorem build_moved (built : build keyspace scope reports = .ok ring) (replication : Replication) :
    ∃ moved, build ⟨keyspace.name, replication⟩ scope reports = .ok moved ∧
      Document.write moved = Document.write ring := by
  obtain ⟨inScope, distinct, rfl, rfl, _⟩ := build_ok built
  obtain ⟨moved, builtMoved⟩ := build_of_nodup ⟨ring.keyspace.name, replication⟩ inScope distinct
  obtain ⟨_, _, sameKeyspace, sameScope, _⟩ := build_ok builtMoved
  refine ⟨moved, builtMoved, write_eq_iff_account.mpr (account_eq_iff.mpr ?_)⟩
  exact ⟨by rw [sameKeyspace], by rw [sameScope], by rw [sameScope],
    (ranges_eq_iff_perm builtMoved built).mpr (.refl _)⟩

/-- Two ring reports have the same document exactly if they agree in the name of the keyspace, in
the level, in the datacenter and in the reports of the ranges, and these agree if the same reports
were supplied in any order.  Of a ring only the replication is missing in its document, which is
one object with the names in a fixed order that is read back as the ring's account. -/
theorem document_determines (built : build keyspace scope reports = .ok ring)
    (builtOther : build otherKeyspace otherScope others = .ok other) :
    (Document.write ring = Document.write other ↔
      ring.keyspace.name = other.keyspace.name ∧ ring.scope.level = other.scope.level ∧
        ring.scope.datacenter = other.scope.datacenter ∧
        ring.ranges.toList = other.ranges.toList) ∧
    (ring.ranges.toList = other.ranges.toList ↔ reports.Perm others) ∧
    (ring = other ↔ Document.write ring = Document.write other ∧
      ring.keyspace.replication = other.keyspace.replication) ∧
    (∀ replication, ∃ moved, build ⟨keyspace.name, replication⟩ scope reports = .ok moved ∧
      Document.write moved = Document.write ring) ∧
    ∃ json, Json.read? (Document.write ring) = some json ∧
      json.names = ["keyspace", "consistency_level"] ++
        (if scope.level ∈ [.localOne, .localQuorum, .localSerial] then ["datacenter"] else []) ++
        ["status", "token_ranges"] ∧
      ofJson? json = some
        { keyspace := keyspace.name, level := scope.level, datacenter := scope.datacenter,
          health := health ring, ranges := ring.ranges.toList : Account } := by
  refine ⟨write_eq_iff_account.trans account_eq_iff, ranges_eq_iff_perm built builtOther, ?_,
    build_moved built, toJson ring, Json.read?_text _, ?_, ?_⟩
  · rw [eq_iff_account, write_eq_iff_account]
  · obtain ⟨_, _, _, rfl, _⟩ := build_ok built
    exact ring.names_toJson
  · obtain ⟨_, _, rfl, rfl, _⟩ := build_ok built
    exact ring.ofJson?_toJson_account

/-- Rings of two replications have one document, whatever the order of their reports. -/
theorem document_determines_but_replication :
    ∃ ring other,
      build ⟨"a\"b", .simple 3⟩ ⟨.localOne, some "x\n"⟩
        [⟨⟨⟨5⟩, ⟨-5⟩⟩, 1, 1⟩, ⟨⟨⟨-5⟩, ⟨5⟩⟩, 1, 0⟩] = .ok ring ∧
      build ⟨"a\"b", .simple 1⟩ ⟨.localOne, some "x\n"⟩
        [⟨⟨⟨-5⟩, ⟨5⟩⟩, 1, 0⟩, ⟨⟨⟨5⟩, ⟨-5⟩⟩, 1, 1⟩] = .ok other ∧
      Document.write ring = Document.write other ∧ ring ≠ other := by
  have built : build ⟨"a\"b", .simple 3⟩ ⟨.localOne, some "x\n"⟩
      [⟨⟨⟨5⟩, ⟨-5⟩⟩, 1, 1⟩, ⟨⟨⟨-5⟩, ⟨5⟩⟩, 1, 0⟩] = .ok ⟨_, _, rfl, _⟩ := rfl
  have builtOther : build ⟨"a\"b", .simple 1⟩ ⟨.localOne, some "x\n"⟩
      [⟨⟨⟨-5⟩, ⟨5⟩⟩, 1, 0⟩, ⟨⟨⟨5⟩, ⟨-5⟩⟩, 1, 1⟩] = .ok ⟨_, _, rfl, _⟩ := rfl
  obtain ⟨sameDocument, sameRanges, equal, _⟩ := document_determines built builtOther
  exact ⟨_, _, built, builtOther, sameDocument.mpr ⟨rfl, rfl, rfl, sameRanges.mpr (by decide)⟩,
    fun same => absurd (equal.mp same).2 (by decide)⟩

end RingReport

end RingHealth
