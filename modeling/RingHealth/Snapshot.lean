import RingHealth.Scope

namespace RingHealth

/-- A node that holds a replica of a token range. -/
structure Replica where
  node : String
  datacenter : String
  alive : Bool
deriving DecidableEq, Repr

structure Placement where
  range : TokenRange
  replicas : List Replica
deriving DecidableEq, Repr

abbrev Snapshot := List Placement

/-- Whether a replica counts at a scope: it is alive, and if the scope has a datacenter, in
that one. -/
def Replica.countsAt (replica : Replica) (scope : Scope) : Bool :=
  replica.alive &&
    match scope.datacenter with
    | none => true
    | some datacenter => replica.datacenter == datacenter

def aliveNodes (scope : Scope) (replicas : List Replica) : List String :=
  ((replicas.filter (·.countsAt scope)).map Replica.node).eraseDups

/-- The count of a number of nodes; numbers beyond the greatest count share it. -/
def saturatingCount (number : Nat) : UInt32 :=
  if number < UInt32.size then .ofNat number else .ofNat (UInt32.size - 1)

theorem toNat_saturatingCount (number : Nat) :
    (saturatingCount number).toNat = min (UInt32.size - 1) number := by
  unfold saturatingCount
  split
  · rename_i small
    rw [UInt32.toNat_ofNat_of_lt' small]
    omega
  · rename_i large
    rw [UInt32.toNat_ofNat_of_lt' (by decide)]
    omega

/-- No requirement lies beyond the count at which counting stops. -/
theorem le_saturatingCount_iff (required : UInt32) (number : Nat) :
    required ≤ saturatingCount number ↔ required.toNat ≤ number := by
  have small := required.toNat_lt_size
  rw [UInt32.le_iff_toNat_le, toNat_saturatingCount]
  omega

end RingHealth
