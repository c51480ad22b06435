import RingHealth.Text
import RingHealth.TokenRange

namespace RingHealth

inductive Level where
  /-- Any node, hints included. -/
  | any
  | one
  | two
  | three
  | quorum
  | all
  | localOne
  | localQuorum
  /-- A majority of the replicas of each datacenter. -/
  | eachQuorum
  | serial
  | localSerial
deriving DecidableEq, Repr

namespace Level

/-- Every level, in protocol order. -/
def every : List Level :=
  [any, one, two, three, quorum, all, localOne, localQuorum, eachQuorum, serial, localSerial]

def isLocal : Level → Bool
  | localOne | localQuorum | localSerial => true
  | _ => false

theorem isLocal_iff (level : Level) :
    level.isLocal = true ↔ level ∈ [localOne, localQuorum, localSerial] := by
  cases level <;> decide

def isSerial : Level → Bool
  | serial | localSerial => true
  | _ => false

def name : Level → String
  | any => "ANY"
  | one => "ONE"
  | two => "TWO"
  | three => "THREE"
  | quorum => "QUORUM"
  | all => "ALL"
  | localOne => "LOCAL_ONE"
  | localQuorum => "LOCAL_QUORUM"
  | eachQuorum => "EACH_QUORUM"
  | serial => "SERIAL"
  | localSerial => "LOCAL_SERIAL"

instance : ToString Level := ⟨name⟩

instance : Named Level where
  nameOf := name
  every := every
  mem_every level := by cases level <;> decide
  distinct first second := by cases first <;> cases second <;> decide

/-- The level that a text names, whatever blank characters surround the name and in
whatever case its ASCII letters are. -/
def ofText? (text : String) : Option Level :=
  Named.ofName? (String.ofList ((Text.trim text.toList).map Char.toUpper))

end Level

/-- How the arguments of a check contradict each other. -/
inductive ArgumentFault where
  | noDatacenter (level : Level)
  /-- A datacenter whose name has no other than blank characters. -/
  | blankDatacenter
  | needlessDatacenter (datacenter : String) (level : Level)
  /-- Replicas are to be counted in a datacenter that is not given. -/
  | uncountable (level : Level)
  | factorOverflow (keyspace : String)
deriving DecidableEq, Repr

inductive Fault where
  | invalidArgument (reason : ArgumentFault)
  | duplicateRange (range : TokenRange)
  | unknownDatacenter (keyspace datacenter : String)
  /-- The level does not come down to a single count of replicas. -/
  | unsupportedLevel (level : Level)
  | unknownLevel (name : String)
deriving DecidableEq, Repr

def ArgumentFault.message : ArgumentFault → String
  | noDatacenter level =>
      s!"consistency level {level} is datacenter-local but no datacenter was given"
  | blankDatacenter => "datacenter must not be blank"
  | needlessDatacenter datacenter level =>
      s!"datacenter {datacenter} given for non-local consistency level {level}"
  | uncountable level => s!"{level} requires a datacenter"
  | factorOverflow keyspace =>
      s!"replication factors of keyspace {keyspace} overflow a replica count"

def Fault.message : Fault → String
  | invalidArgument reason => s!"invalid argument: {reason.message}"
  | duplicateRange range => s!"duplicate token range {range}"
  | unknownDatacenter keyspace datacenter =>
      s!"keyspace {keyspace} has no replicas in datacenter {datacenter}"
  | unsupportedLevel level =>
      s!"consistency level {level} is not supported for ring diagnostics"
  | unknownLevel name => s!"unknown consistency level: {name}"

def Level.parse (text : String) : Except Fault Level :=
  match ofText? text with
  | some level => .ok level
  | none => .error (.unknownLevel text)

/-- A level, and the datacenter that a datacenter-local level is about. -/
structure Scope where
  level : Level
  datacenter : Option String
deriving DecidableEq, Repr

namespace Scope

/-- A check at the level `QUORUM`, if nothing else is asked for. -/
instance : Inhabited Scope := ⟨⟨.quorum, none⟩⟩

/-- A datacenter has to be given exactly for the datacenter-local levels, and its name
must not be blank. -/
def check (scope : Scope) : Except Fault Unit :=
  match scope.level.isLocal, scope.datacenter with
  | true, none => .error (.invalidArgument (.noDatacenter scope.level))
  | true, some datacenter =>
      if Text.allBlank datacenter.toList then .error (.invalidArgument .blankDatacenter)
      else .ok ()
  | false, some datacenter =>
      .error (.invalidArgument (.needlessDatacenter datacenter scope.level))
  | false, none => .ok ()

variable {scope : Scope} {level : Level} {datacenter : String}

theorem isLocal_of_check (inScope : scope.check = .ok ()) :
    scope.level.isLocal = scope.datacenter.isSome := by
  unfold check at inScope
  split at inScope <;> simp_all

theorem check_without_datacenter (notLocal : level.isLocal = false) :
    (Scope.mk level none).check = .ok () := by
  simp [check, notLocal]

theorem check_with_datacenter (isLocal : level.isLocal = true)
    (named : Text.allBlank datacenter.toList = false) :
    (Scope.mk level (some datacenter)).check = .ok () := by
  simp [check, isLocal, named]

end Scope

end RingHealth
