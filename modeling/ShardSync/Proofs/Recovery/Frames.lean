import ShardSync.Proofs.Recovery.Messages
import ShardSync.Proofs.Wire.Yielding

/-!
# Frames

What a decoder makes of any bytes at all. A message that it accepts lies in the range
of the messages that are read as they were written, so what is accepted once is
accepted as the same message when it is sent on. And no bytes that are accepted begin
others that are, so a frame that has been cut off or run into the next one is refused.
-/

set_option autoImplicit false

namespace ShardSync

open Wire Reader

namespace Wire

/-- A decoder gets every value within a range as it was written, fails on what was
written of the others, and gets nothing outside of the range from any bytes. -/
structure RoundTrips {α : Type} (write : α → Bytes) (decode : Bytes → Except DecodeError α)
    (inRange : α → Prop) : Prop where
  recovers : ∀ value, inRange value → decode (write value) = .ok value
  refuses : ∀ value, ¬ inRange value → ∃ error, decode (write value) = .error error
  accepts : ∀ input value, decode input = .ok value → inRange value
  sends_on : ∀ input value, decode input = .ok value → decode (write value) = .ok value

theorem Reader.roundTrips {α : Type} {reader : Reader α} {write : α → Bytes}
    {inRange : α → Prop}
    (recovers : ∀ value, reader.Recovers (write value) (inRange value) value)
    (yields : reader.Yields inRange) : RoundTrips write reader.decode inRange where
  recovers value within := ((recovers value).decode_eq_ok_iff value).mpr ⟨within, rfl⟩
  refuses value outside := by
    cases outcome : reader.decode (write value) with
    | error error => exact ⟨error, rfl⟩
    | ok other => exact absurd (((recovers value).decode_eq_ok_iff other).mp outcome).1 outside
  accepts _ _ decoded := (yields.holds_of_decode decoded).1
  sends_on _ value decoded :=
    ((recovers value).decode_eq_ok_iff value).mpr ⟨(yields.holds_of_decode decoded).1, rfl⟩

/-- What is accepted is not accepted any more when bytes are put behind it, which are
reported as left over, or when some at its end are missing. -/
def IsSelfDelimiting {α : Type} (decode : Bytes → Except DecodeError α) : Prop :=
  ∀ frame value, decode frame = .ok value →
    (∀ more, more ≠ [] → decode (frame ++ more) = .error (.trailingBytes more.length)) ∧
      ∀ front missing, missing ≠ [] → front ++ missing = frame →
        ∃ error, decode front = .error error

theorem Reader.isSelfDelimiting {α : Type} {reader : Reader α} {property : α → Prop}
    (yields : reader.Yields property) : IsSelfDelimiting reader.decode := by
  intro frame value decoded
  refine ⟨fun more further => yields.decode_append decoded further,
    fun front missing further split => ?_⟩
  cases outcome : reader.decode front with
  | error error => exact ⟨error, rfl⟩
  | ok other =>
      -- the whole frame would have bytes left over
      have refused := yields.decode_append outcome further
      rw [split, decoded] at refused
      cases refused

end Wire

theorem ShardId.yields : ShardId.read.Yields ShardId.IsReadable := by
  refine .bind yields_text fun index readable => .bind yields_text fun uuid readableToo =>
    .bind yields_vint fun number _ => .ite (fun _ => .throw _ _) fun positive => .pure ?_
  refine ⟨readable, readableToo, ?_⟩
  have signed := toInt32_neg_iff number.toUInt32.toNat_lt
  rw [UInt32.ofNat_toNat, Int32.toInt32_toUInt32] at signed
  exact Nat.lt_of_not_le fun large => positive (signed.mpr large)

theorem NodeId.yields : NodeId.read.Yields NodeId.IsReadable := by
  refine .bind yields_text fun spelling _ => ?_
  cases Text.Uuid.parse? spelling with
  | none => exact .throw _ _
  | some id => exact .bind yields_text fun name readable => .pure readable

theorem FileMetadata.yields : FileMetadata.read.Yields FileMetadata.IsReadable :=
  .bind yields_text fun _ readable => .bind yields_vlong fun _ _ => .bind yields_u32 fun _ _ =>
    .pure readable

theorem Action.yields : Action.read.Yields Action.IsReadable := by
  refine .bind yields_u8 fun tag _ => ?_
  split
  · exact .bind yields_text fun _ readable => .bind yields_i64 fun _ _ =>
      .bind yields_bytes fun _ small => .pure ⟨readable, small⟩
  · exact .bind yields_text fun _ readable => .bind yields_i64 fun _ _ => .pure readable
  · exact .bind yields_text fun _ readable => .pure readable
  · exact .throw _ _

theorem Operation.yields : Operation.read.Yields (·.action.IsReadable) :=
  .bind yields_i64 fun _ _ => .bind yields_i64 fun _ _ => .bind Action.yields fun _ readable =>
    .pure readable

namespace Recovery

theorem StartRequest.yields : StartRequest.read.Yields StartRequest.IsReadable :=
  .bind yields_i64 fun _ _ => .bind ShardId.yields fun _ shard =>
    .bind NodeId.yields fun _ source => .bind NodeId.yields fun _ target =>
      .bind (yields_list _ _ FileMetadata.yields) fun _ files => .bind yields_i64 fun _ _ =>
        .pure ⟨shard, source, target, files⟩

theorem Announcement.yields : Announcement.read.Yields Announcement.IsReadable :=
  .bind (yields_list _ _ yields_text) fun _ names =>
    .bind (yields_list _ _ yields_vlong) fun _ sizes =>
      .bind (yields_list _ _ yields_text) fun _ existingNames =>
        .bind (yields_list _ _ yields_vlong) fun _ existingSizes =>
          .pure ⟨names, sizes.1, existingNames, existingSizes.1⟩

theorem Chunk.yields : Chunk.read.Yields Chunk.IsReadable :=
  .bind FileMetadata.yields fun _ file => .bind yields_vlong fun _ _ =>
    .bind yields_bytes fun _ content => .bind yields_bool fun _ _ => .bind yields_u32 fun _ _ =>
      .pure ⟨file, content⟩

theorem yields_total : readTotal.Yields (·.toNat < 2 ^ 31) :=
  .bind yields_natural fun value small => .pure <| by
    rw [UInt32.toNat_ofNat', Nat.mod_eq_of_lt (by omega)]
    exact small

namespace Request

theorem yields_step {reader : Reader Command} (yields : reader.Yields Command.IsReadable) :
    (readStep reader).Yields Request.IsReadable :=
  .bind yields_i64 fun _ _ => .bind yields_i64 fun _ _ => .bind ShardId.yields fun _ shard =>
    .bind yields fun _ command => .pure ⟨shard, command⟩

theorem yields : Request.read.Yields Request.IsReadable := by
  refine .bind yields_u8 fun tag _ => ?_
  split
  · exact yields_step (.bind Announcement.yields fun _ announcement =>
      .bind yields_total fun _ total => .pure ⟨announcement, total⟩)
  · exact yields_step (.bind Chunk.yields fun _ chunk =>
      .bind yields_total fun _ total => .pure ⟨chunk, total⟩)
  · exact yields_step (.bind yields_i64 fun _ _ => .bind yields_total fun _ total => .pure total)
  · exact yields_step (.bind (yields_list _ _ Operation.yields) fun _ operations =>
      .bind yields_total fun _ total => .pure ⟨operations, total⟩)
  · exact yields_step (.bind yields_i64 fun _ _ => .pure trivial)
  · exact .bind yields_i64 fun _ _ => .bind ShardId.yields fun _ shard =>
      .bind yields_text fun _ reason => .pure ⟨shard, reason⟩
  · exact .throw _ _

end Request

theorem Reply.yields : Reply.read.Yields Reply.IsReadable := by
  refine .bind yields_u8 fun tag _ => ?_
  split
  · exact .pure trivial
  · exact .bind yields_vlong fun _ _ => .pure trivial
  · exact .bind yields_i64 fun _ _ => .pure trivial
  · exact .bind yields_i64 fun _ _ => .pure trivial
  · exact .bind yields_text fun _ code => .bind yields_text fun _ detail => .pure ⟨code, detail⟩
  · exact .throw _ _

/-- Messages are read as they were written exactly if their numbers of operations and of
shards, their texts, byte strings and lists are within bounds, and all that is read from
any bytes is within them. -/
theorem messages_roundTrip :
    RoundTrips Request.write Request.decode Request.IsReadable ∧
      RoundTrips Reply.write Reply.decode Reply.IsReadable ∧
      RoundTrips StartRequest.write StartRequest.decode StartRequest.IsReadable :=
  ⟨Reader.roundTrips Request.recovers Request.yields,
    Reader.roundTrips Reply.recovers Reply.yields,
    Reader.roundTrips StartRequest.recovers StartRequest.yields⟩

/-- A message that is cut off, or that runs into further bytes, is refused. -/
theorem messages_selfDelimiting :
    IsSelfDelimiting Request.decode ∧ IsSelfDelimiting Reply.decode ∧
      IsSelfDelimiting StartRequest.decode :=
  ⟨Reader.isSelfDelimiting Request.yields, Reader.isSelfDelimiting Reply.yields,
    Reader.isSelfDelimiting StartRequest.yields⟩

end Recovery

end ShardSync
