import Mathlib.Algebra.BigOperators.Group.Finset.Basic
import RingHealth.Proofs.FactorSum
import RingHealth.Proofs.Insertion
import RingHealth.Proofs.Rewriting

namespace RingHealth.Replication

/-- The last factor that a list gives a datacenter. -/
def lastFactor? (factors : List (String × UInt32)) (datacenter : String) : Option UInt32 :=
  (factors.reverse.find? fun entry => entry.1 = datacenter).map Prod.snd

/-- Whether two lists name the same datacenters with the same last factors. -/
def SameLast (factors others : List (String × UInt32)) : Prop :=
  ∀ datacenter, lastFactor? factors datacenter = lastFactor? others datacenter

/-- The last factors of all datacenters that a list names, added up without a bound. -/
def sumOfLast (factors : List (String × UInt32)) : Nat :=
  ∑ datacenter ∈ (factors.map Prod.fst).toFinset, ((lastFactor? factors datacenter).getD 0).toNat

variable {factors others before after : List (String × UInt32)} {datacenter : String}
  {factor old : UInt32}

theorem lastFactor?_eq_some_iff :
    lastFactor? factors datacenter = some factor ↔
      ∃ before after, factors = before ++ (datacenter, factor) :: after ∧
        ∀ entry ∈ after, entry.1 ≠ datacenter := by
  rw [lastFactor?, Option.map_eq_some_iff]
  refine ⟨fun found => ?_, fun split => ?_⟩
  · obtain ⟨entry, found, rfl⟩ := found
    obtain ⟨named, after, before, split, others⟩ := List.find?_eq_some_iff_append.mp found
    obtain rfl := of_decide_eq_true named
    refine ⟨before.reverse, after.reverse, ?_, fun other member => ?_⟩
    · simpa using congrArg List.reverse split
    · simpa using others other (List.mem_reverse.mp member)
  · obtain ⟨before, after, rfl, others⟩ := split
    refine ⟨(datacenter, factor), List.find?_eq_some_iff_append.mpr ?_, rfl⟩
    refine ⟨decide_eq_true rfl, after.reverse, before.reverse, by simp, fun other member => ?_⟩
    simpa using others other (List.mem_reverse.mp member)

theorem lastFactor?_eq_none_iff :
    lastFactor? factors datacenter = none ↔ ∀ entry ∈ factors, entry.1 ≠ datacenter := by
  simp [lastFactor?]

theorem lastFactor?_append :
    lastFactor? (factors ++ others) datacenter =
      (lastFactor? others datacenter).or (lastFactor? factors datacenter) := by
  rw [lastFactor?, List.reverse_append, List.find?_append]
  exact Option.map_or

theorem lastFactor?_of_nodup (distinct : (factors.map Prod.fst).Nodup) :
    lastFactor? factors datacenter = some factor ↔ (datacenter, factor) ∈ factors := by
  rw [lastFactor?_eq_some_iff]
  refine ⟨fun split => ?_, fun member => ?_⟩
  · obtain ⟨before, after, rfl, _⟩ := split
    simp
  · obtain ⟨before, after, rfl⟩ := List.append_of_mem member
    refine ⟨before, after, rfl, fun entry later same => ?_⟩
    rw [List.map_append, List.map_cons] at distinct
    have fresh := (List.nodup_cons.mp (List.nodup_append.mp distinct).2.1).1
    exact fresh (List.mem_map.mpr ⟨entry, later, same⟩)

theorem mem_ofList_iff :
    (datacenter, factor) ∈ (Table.ofList factors).toList ↔
      lastFactor? factors datacenter = some factor := by
  rw [← factorIn?_eq_some_iff]
  exact Eq.congr_left (factorIn?_ofFactors factors datacenter)

theorem ofFactors_eq_iff : ofFactors factors = ofFactors others ↔ SameLast factors others := by
  refine ⟨fun same datacenter => ?_, fun same => ?_⟩
  · have found := congrArg (factorIn? · datacenter) same
    rwa [factorIn?_ofFactors, factorIn?_ofFactors] at found
  · refine congrArg networkTopology (Table.ext_mem fun entry => ?_)
    rw [mem_ofList_iff, mem_ofList_iff, same entry.1]

theorem sameLast_of_overwritten (overwritten : ∃ entry ∈ after, entry.1 = datacenter) :
    SameLast (before ++ (datacenter, old) :: after) (before ++ after) := by
  intro wanted
  rw [lastFactor?_append, lastFactor?_append, ← List.singleton_append, lastFactor?_append,
    Option.or_assoc]
  cases found : lastFactor? after wanted with
  | some factor => simp
  | none =>
      obtain ⟨entry, later, rfl⟩ := overwritten
      have other := lastFactor?_eq_none_iff.mp found entry later
      have single : lastFactor? [(entry.1, old)] wanted = none :=
        lastFactor?_eq_none_iff.mpr (by simpa using other)
      rw [single, Option.none_or]

theorem sameLast_of_perm (distinct : (factors.map Prod.fst).Nodup)
    (rearranged : factors.Perm others) : SameLast factors others := by
  intro datacenter
  ext factor
  rw [lastFactor?_of_nodup distinct, rearranged.mem_iff,
    lastFactor?_of_nodup ((rearranged.map Prod.fst).nodup_iff.mp distinct)]

theorem sameLast_twice : SameLast (factors ++ factors) factors := by
  intro datacenter
  rw [lastFactor?_append, Option.or_self]

theorem toFinset_names_ofList :
    ((Table.ofList factors).toList.map Prod.fst).toFinset = (factors.map Prod.fst).toFinset := by
  ext datacenter
  have named : datacenter ∈ (Table.ofList factors).toList.map Prod.fst ↔
      lastFactor? factors datacenter ≠ none := by
    simp [mem_ofList_iff, Option.ne_none_iff_exists']
  rw [List.mem_toFinset, List.mem_toFinset, named, ne_eq, lastFactor?_eq_none_iff]
  simp

theorem exactSum_ofFactors (factors : List (String × UInt32)) :
    (ofFactors factors).exactSum = sumOfLast factors := by
  let weight (datacenter : String) := ((lastFactor? factors datacenter).getD 0).toNat
  have weighted : ∀ entry ∈ (Table.ofList factors).toList, entry.2.toNat = weight entry.1 := by
    intro entry kept
    simp only [weight, mem_ofList_iff.mp kept, Option.getD_some]
  calc (ofFactors factors).exactSum
      = ((Table.ofList factors).toList.map fun entry => entry.2.toNat).sum := rfl
    _ = (((Table.ofList factors).toList.map Prod.fst).map weight).sum := by
        rw [List.map_map, List.map_congr_left weighted]
        rfl
    _ = ∑ datacenter ∈ ((Table.ofList factors).toList.map Prod.fst).toFinset, weight datacenter :=
        (List.sum_toFinset weight (Table.ofList factors).nodup_keys).symm
    _ = sumOfLast factors := by rw [toFinset_names_ofList, sumOfLast]

theorem factorSum?_ofFactors (factors : List (String × UInt32)) :
    (ofFactors factors).factorSum? =
      if sumOfLast factors < UInt32.size then some (.ofNat (sumOfLast factors)) else none := by
  split
  next fits => rw [factorSum?_eq_some_iff, exactSum_ofFactors, UInt32.toNat_ofNat_of_lt' fits]
  next large => rw [factorSum?_eq_none_iff, exactSum_ofFactors]; exact Nat.le_of_not_lt large

/-- Replication made of a list has in each datacenter the last factor of the list for it, and in
all datacenters together the sum of these, if that is a count.  It is determined by the last
factors, and so is its document: overwritten factors, repetitions of the whole list and, where no
name is repeated, the order of the list do not show. -/
theorem ofFactors_keeps_last (factors : List (String × UInt32)) :
    (∀ datacenter factor, (ofFactors factors).factorIn? datacenter = some factor ↔
      ∃ before after, factors = before ++ (datacenter, factor) :: after ∧
        ∀ entry ∈ after, entry.1 ≠ datacenter) ∧
    (∀ datacenter, (ofFactors factors).factorIn? datacenter = none ↔
      ∀ entry ∈ factors, entry.1 ≠ datacenter) ∧
    (ofFactors factors).factorSum? =
      (if sumOfLast factors < UInt32.size then some (.ofNat (sumOfLast factors)) else none) ∧
    (∀ before datacenter old after, factors = before ++ (datacenter, old) :: after →
      (∃ entry ∈ after, entry.1 = datacenter) → ofFactors factors = ofFactors (before ++ after)) ∧
    (∀ others, (ofFactors factors = ofFactors others ↔ SameLast factors others) ∧
      (Document.write (ofFactors factors) = Document.write (ofFactors others) ↔
        SameLast factors others) ∧
      (SameLast factors others → (ofFactors factors).factorSum? = (ofFactors others).factorSum?)) ∧
    ((factors.map Prod.fst).Nodup → ∀ others, factors.Perm others →
      ofFactors factors = ofFactors others) ∧
    ofFactors (factors ++ factors) = ofFactors factors := by
  refine ⟨fun datacenter factor => ?_, fun datacenter => ?_, factorSum?_ofFactors factors, ?_, ?_,
    ?_, ofFactors_eq_iff.mpr sameLast_twice⟩
  · rw [factorIn?_ofFactors]
    exact lastFactor?_eq_some_iff
  · rw [factorIn?_ofFactors]
    exact lastFactor?_eq_none_iff
  · rintro before datacenter old after rfl overwritten
    exact ofFactors_eq_iff.mpr (sameLast_of_overwritten overwritten)
  · intro others
    refine ⟨ofFactors_eq_iff, ?_, fun same => by rw [ofFactors_eq_iff.mpr same]⟩
    rw [← ofFactors_eq_iff]
    exact ⟨Document.eq_of_write_eq, congrArg Document.write⟩
  · intro distinct others rearranged
    exact ofFactors_eq_iff.mpr (sameLast_of_perm distinct rearranged)

/-- The greatest factor of all is overwritten and does not make the sum too large. -/
example : (ofFactors [("x", 4294967295), ("y", 1), ("x", 2)]).factorSum? = some 3 := by
  decide

end RingHealth.Replication
