import ShardSync.Wire.Reader
import ShardSync.Wire.Writer

/-!
# Shards

A shard is one numbered part of an index. The index has a readable name and
an identity that was assigned to it when it was created.
-/

set_option autoImplicit false

namespace ShardSync

open Wire

structure ShardId where
  index : String
  indexUuid : String
  number : UInt32
deriving Repr, DecidableEq, Inhabited

/-- Shards are ordered by name, identity and number. -/
instance : Ord ShardId where
  compare := compareLex (compareOn (·.index))
    (compareLex (compareOn (·.indexUuid)) (compareOn (·.number)))

instance : Std.TransOrd ShardId :=
  inferInstanceAs <| Std.TransCmp <| compareLex (compareOn ShardId.index)
    (compareLex (compareOn ShardId.indexUuid) (compareOn ShardId.number))

instance : Std.LawfulEqOrd ShardId where
  eq_of_compare {first second} same := by
    obtain ⟨index, indexUuid, number⟩ := first
    obtain ⟨index', indexUuid', number'⟩ := second
    have parts : compare index index' = .eq ∧ compare indexUuid indexUuid' = .eq ∧
        compare number number' = .eq := by
      simpa [compareLex, compareOn, Ordering.then_eq_eq] using
        (show compareLex (compareOn ShardId.index) (compareLex (compareOn ShardId.indexUuid)
          (compareOn ShardId.number)) ⟨index, indexUuid, number⟩
            ⟨index', indexUuid', number'⟩ = .eq from same)
    obtain ⟨sameIndex, sameUuid, sameNumber⟩ := parts
    rw [Std.LawfulEqOrd.eq_of_compare sameIndex, Std.LawfulEqOrd.eq_of_compare sameUuid,
      Std.LawfulEqOrd.eq_of_compare sameNumber]

namespace ShardId

def label (shard : ShardId) : String :=
  s!"[{shard.index}][{shard.number}]"

def write (shard : ShardId) : Bytes :=
  Write.text shard.index ++ Write.text shard.indexUuid ++ Write.vint shard.number.toInt32

/-- Reads a shard. Numbers with the sign bit set are refused. -/
def read : Reader ShardId := do
  let index ← Reader.text
  let indexUuid ← Reader.text
  let number ← Reader.vint
  if number < 0 then throw (.invalidData s!"negative shard number {number}")
  else return { index, indexUuid, number := number.toUInt32 }

end ShardId

end ShardSync
