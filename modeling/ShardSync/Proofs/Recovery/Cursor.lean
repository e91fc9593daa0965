import Mathlib.Algebra.Ring.Int.Defs
import ShardSync.Proofs.Recovery.Replay

/-!
# The cursor of a replay

The cursor of a target is a 64-bit number: behind the last sequence number it begins
again with the least one. As long as it does not run over, or comes upon no operation
with the least number then, the decisions about a batch are about consecutive integers.
-/

set_option autoImplicit false

namespace ShardSync.Recovery

namespace Target

/-- The cursor is at a place that is a sequence number, or comes right behind the last one. -/
structure StandsAt (target : Target) (place : Int) : Prop where
  nextSeqNo : target.nextSeqNo = .ofInt place
  least : -2 ^ 63 ≤ place
  most : place ≤ 2 ^ 63

/-- The operations that are left do not go beyond the last sequence number, or none of
those that come could be mistaken for what follows it. -/
def Lasts (target : Target) (place : Int) (operations : List Operation) : Prop :=
  place + (target.totalOps - target.opsRecovered : Nat) ≤ 2 ^ 63 ∨
    ∀ operation ∈ operations, operation.seqNo ≠ .minValue

theorem Lasts.mono {target : Target} {place : Int} {fewer more : List Operation}
    (lasts : target.Lasts place more) (subset : fewer ⊆ more) : target.Lasts place fewer :=
  lasts.imp_right fun others operation member => others operation (subset member)

theorem standsAt_toInt (target : Target) : target.StandsAt target.nextSeqNo.toInt where
  nextSeqNo := (Int64.ofInt_toInt _).symm
  least := target.nextSeqNo.le_toInt
  most := Int.le_of_lt target.nextSeqNo.toInt_lt

namespace StandsAt

variable {target : Target} {place : Int} {seqNo : Int64}

theorem toInt (stands : target.StandsAt place) (within : place < 2 ^ 63) :
    target.nextSeqNo.toInt = place := by
  rw [stands.nextSeqNo]
  exact Int64.toInt_ofInt_of_le stands.least within

theorem lt_of_seen (stands : target.StandsAt place) (seen : seqNo < target.nextSeqNo) :
    seqNo.toInt < place := by
  rcases Int.lt_or_eq_of_le stands.most with within | beyond
  · rw [← stands.toInt within]
    exact Int64.lt_iff_toInt_lt.mp seen
  · rw [beyond]
    exact seqNo.toInt_lt

theorem eq_of_next (stands : target.StandsAt place) (next : seqNo = target.nextSeqNo) :
    seqNo.toInt = place ∨ place = 2 ^ 63 ∧ seqNo = .minValue := by
  rcases Int.lt_or_eq_of_le stands.most with within | beyond
  · exact .inl (next ▸ stands.toInt within)
  · refine .inr ⟨beyond, ?_⟩
    rw [next, stands.nextSeqNo, beyond]
    decide

theorem le_of_admitted (stands : target.StandsAt place)
    (admitted : seqNo < target.nextSeqNo ∨ seqNo = target.nextSeqNo) : seqNo.toInt ≤ place := by
  rcases admitted with seen | next
  · exact Int.le_of_lt (stands.lt_of_seen seen)
  · rcases stands.eq_of_next next with same | ⟨rfl, _⟩
    · exact Int.le_of_eq same
    · exact Int.le_of_lt seqNo.toInt_lt

theorem localCheckpoint (stands : target.StandsAt place) :
    target.localCheckpoint = .ofInt (place - 1) := by
  rw [Target.localCheckpoint, stands.nextSeqNo, Int64.ofInt_sub]
  rfl

theorem toInt_localCheckpoint (stands : target.StandsAt place) (inside : -2 ^ 63 < place) :
    target.localCheckpoint.toInt = place - 1 := by
  have most := stands.most
  rw [stands.localCheckpoint]
  exact Int64.toInt_ofInt_of_le (by omega) (by omega)

end StandsAt

/-- Behind the last sequence number, the checkpoint is below zero. -/
theorem toInt_localCheckpoint_of_beyond {target : Target} {place : Int}
    (cursor : target.nextSeqNo = .ofInt place) (beyond : 2 ^ 63 < place) (near : place ≤ 2 ^ 64) :
    target.localCheckpoint.toInt = place - 1 - 2 ^ 64 := by
  have cycle : Int64.ofInt (2 ^ 64) = 0 := by decide
  have around : target.localCheckpoint = .ofInt (place - 1 - 2 ^ 64) := by
    rw [localCheckpoint, cursor, Int64.ofInt_sub, Int64.ofInt_sub, cycle, Int64.sub_zero]
    rfl
  rw [around]
  exact Int64.toInt_ofInt_of_le (by omega) (by omega)

end Target

namespace Receiver

variable {segments : List Segment} {place : Int} {receiver between final : Receiver}
  {operation : Operation} {operations : List Operation} {decisions : List Decision}

theorem standsAt_advance (stands : receiver.target.StandsAt place) (within : place < 2 ^ 63) :
    receiver.advance.target.StandsAt (place + 1) where
  nextSeqNo := by
    rw [advance, Int64.ofInt_add, ← stands.nextSeqNo]
    rfl
  least := by have := stands.least; omega
  most := within

theorem Decides.standsAt {decision : Decision}
    (decides : receiver.Decides segments operation decision between)
    (stands : receiver.target.StandsAt place) : between.target.StandsAt place := by
  rw [decides.target.2.1]
  exact ⟨stands.nextSeqNo, stands.least, stands.most⟩

/-- The decisions about the operations of a batch, when the cursor is at the given place
and does not run over before it is put to use. -/
inductive Sequenced (segments : List Segment) :
    Int → Receiver → List Operation → List Decision → Receiver → Prop where
  | done {place : Int} {receiver : Receiver} : Sequenced segments place receiver [] [] receiver
  | passed {place : Int} {receiver final : Receiver} {operation : Operation}
      {operations : List Operation} {decisions : List Decision}
      (seen : operation.seqNo.toInt < place)
      (rest : Sequenced segments place receiver operations decisions final) :
      Sequenced segments place receiver (operation :: operations) decisions final
  | decided {place : Int} {receiver between final : Receiver} {operation : Operation}
      {operations : List Operation} {decision : Decision} {decisions : List Decision}
      (next : operation.seqNo.toInt = place)
      (decides : Decides segments receiver operation decision between)
      (rest : Sequenced segments (place + 1) between.advance operations decisions final) :
      Sequenced segments place receiver (operation :: operations) (decision :: decisions) final

theorem Replayed.sequenced (replayed : receiver.Replayed segments operations decisions final)
    (stands : receiver.target.StandsAt place) (lasts : receiver.target.Lasts place operations) :
    Sequenced segments place receiver operations decisions final ∧
      final.target.StandsAt (place + decisions.length) := by
  induction replayed generalizing place with
  | done => exact ⟨.done, (Int.add_zero place).symm ▸ stands⟩
  | passed seen rest ih =>
      obtain ⟨sequenced, standing⟩ := ih stands (lasts.mono (List.subset_cons_self ..))
      exact ⟨.passed (stands.lt_of_seen seen) sequenced, standing⟩
  | @decided receiver between _ operation _ _ decisions next room decides rest ih =>
      obtain ⟨_, target, _⟩ := decides.target
      have same : operation.seqNo.toInt = place := by
        refine (stands.eq_of_next next).resolve_right ?_
        rintro ⟨beyond, least⟩
        rcases lasts with lasting | others
        · omega
        · exact others operation List.mem_cons_self least
      have within : place < 2 ^ 63 := same ▸ operation.seqNo.toInt_lt
      obtain ⟨sequenced, standing⟩ := ih (standsAt_advance (decides.standsAt stands) within) <|
        lasts.imp (fun lasting => by rw [advance, target]; dsimp only; omega)
          fun others other member => others other (List.mem_cons_of_mem _ member)
      refine ⟨.decided same decides sequenced, ?_⟩
      have count : place + 1 + (decisions.length : Int) = place + (decisions.length + 1 : Nat) := by
        omega
      rw [List.length_cons, ← count]
      exact standing

end Receiver

end ShardSync.Recovery
