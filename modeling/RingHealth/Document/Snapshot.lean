import RingHealth.Document.Basic
import RingHealth.Snapshot

namespace RingHealth

instance : ToJson Token := ⟨fun token => .integer token.value.toInt⟩

/-- Only integer literals are tokens, and only those of 64 bits. -/
instance : OfJson Token where
  ofJson?
    | .integer value =>
        if Int64.minValue.toInt ≤ value ∧ value ≤ Int64.maxValue.toInt then some ⟨.ofInt value⟩
        else none
    | _ => none

instance : LawfulJson Token where
  ofJson?_toJson token := by
    change (if Int64.minValue.toInt ≤ token.value.toInt ∧
        token.value.toInt ≤ Int64.maxValue.toInt then
      some (Token.mk (.ofInt token.value.toInt)) else none) = _
    have above := token.value.le_toInt
    have below := token.value.toInt_lt
    rw [if_pos ⟨above, Int.le_of_lt_add_one below⟩, Int64.ofInt_toInt]

instance : ToJson TokenRange where
  toJson range := .object [("start", toJson range.start), ("end", toJson range.stop)]

instance : OfJson TokenRange where
  ofJson? json :=
    match json.fields? ["start", "end"] with
    | some [some start, some stop] => do
        let start ← ofJson? start
        let stop ← ofJson? stop
        some ⟨start, stop⟩
    | _ => none

instance : LawfulJson TokenRange where
  ofJson?_toJson range := by
    change (do
      let start ← ofJson? (toJson range.start)
      let stop ← ofJson? (toJson range.stop)
      some (TokenRange.mk start stop)) = _
    rw [ofJson?_toJson, ofJson?_toJson]
    rfl

instance : ToJson Replica where
  toJson replica :=
    .object [("node", toJson replica.node), ("datacenter", toJson replica.datacenter),
      ("alive", toJson replica.alive)]

instance : OfJson Replica where
  ofJson? json :=
    match json.fields? ["node", "datacenter", "alive"] with
    | some [some node, some datacenter, some alive] => do
        let node ← ofJson? node
        let datacenter ← ofJson? datacenter
        let alive ← ofJson? alive
        some ⟨node, datacenter, alive⟩
    | _ => none

instance : LawfulJson Replica := ⟨fun _ => rfl⟩

instance : ToJson Placement where
  toJson placement :=
    .object [("range", toJson placement.range), ("replicas", toJson placement.replicas)]

instance : OfJson Placement where
  ofJson? json :=
    match json.fields? ["range", "replicas"] with
    | some [some range, some replicas] => do
        let range ← ofJson? range
        let replicas ← ofJson? replicas
        some ⟨range, replicas⟩
    | _ => none

instance : LawfulJson Placement where
  ofJson?_toJson placement := by
    change (do
      let range ← ofJson? (toJson placement.range)
      let replicas ← ofJson? (toJson placement.replicas)
      some (Placement.mk range replicas)) = _
    rw [ofJson?_toJson, ofJson?_toJson]
    rfl

end RingHealth
