import ShardSync.Proofs.Text.Uuid
import ShardSync.Proofs.Translog.Records
import ShardSync.Recovery.Message

/-!
# Messages on the wire

A message is read as it was written, or it is refused. What is refused is too
large to be read: its texts, its lists, its number of operations, or the number of
its shard.
-/

set_option autoImplicit false

namespace ShardSync

open Wire Reader

/-- A shard's number is read as a signed one, which may not be negative. -/
def ShardId.IsReadable (shard : ShardId) : Prop :=
  IsReadableText shard.index ∧ IsReadableText shard.indexUuid ∧ shard.number.toNat < 2 ^ 31

theorem ShardId.recovers (shard : ShardId) :
    ShardId.read.Recovers shard.write shard.IsReadable shard := by
  have negative : shard.number.toInt32 < 0 ↔ 2 ^ 31 ≤ shard.number.toNat := by
    have signed := toInt32_neg_iff shard.number.toNat_lt
    rwa [UInt32.ofNat_toNat] at signed
  have checked : Recovers (if shard.number.toInt32 < 0 then
        throw (.invalidData s!"negative shard number {shard.number.toInt32}")
      else pure { shard with number := shard.number.toInt32.toUInt32 } : Reader ShardId) []
      (shard.number.toNat < 2 ^ 31) shard := by
    by_cases small : shard.number.toNat < 2 ^ 31
    · rw [if_neg (by rw [negative]; omega), UInt32.toUInt32_toInt32]
      exact (Recovers.pure shard).of_eq rfl (iff_true_intro small)
    · rw [if_pos (negative.mpr (Nat.le_of_not_lt small))]
      exact (Recovers.throw _ shard).of_eq rfl (iff_false_intro small)
  refine Recovers.of_eq (.bind (recovers_text _) (.bind (recovers_text _)
    (.bind (recovers_vint _) checked))) ?_ ?_
  · simp [write]
  · simp [IsReadable]

def NodeId.IsReadable (node : NodeId) : Prop := IsReadableText node.name

theorem NodeId.recovers (node : NodeId) :
    NodeId.read.Recovers node.write node.IsReadable node := by
  have short : IsReadableText (toString node.id) :=
    Nat.lt_of_le_of_lt node.id.length_encode_le (by decide)
  refine Recovers.of_eq (@Recovers.bind _ _ _ _ _ (Write.text node.name) _ node.IsReadable _ node
    (recovers_text (toString node.id)) ?_) rfl ?_
  · rw [Text.Uuid.parse?_toString]
    exact Recovers.of_eq (.bind (recovers_text _) (.pure _)) (List.append_nil _).symm
      (by simp [IsReadable])
  · simp [short]

def FileMetadata.IsReadable (file : FileMetadata) : Prop := IsReadableText file.name

theorem FileMetadata.recovers (file : FileMetadata) :
    FileMetadata.read.Recovers file.write file.IsReadable file := by
  refine Recovers.of_eq (.bind (recovers_text _) (.bind (recovers_vlong _)
    (.bind (recovers_u32 _) (.pure _)))) ?_ ?_
  · simp [write]
  · simp [IsReadable]

namespace Recovery

namespace StartRequest

def IsReadable (request : StartRequest) : Prop :=
  request.shard.IsReadable ∧ request.source.IsReadable ∧ request.target.IsReadable ∧
    request.files.length ≤ listLimit ∧ ∀ file ∈ request.files, file.IsReadable

theorem recovers (request : StartRequest) :
    StartRequest.read.Recovers request.write request.IsReadable request := by
  have large (file : FileMetadata) : 6 ≤ file.write.length := by
    have name := length_text_pos file.name
    have length := length_groups_pos file.length.toNat
    simp only [FileMetadata.write, Write.vlong, Write.u32, List.length_append,
      Bytes.length_bigEndian]
    omega
  have files : Recovers (list "metadata snapshot" FileMetadata.leastBytes FileMetadata.read)
      (Write.list FileMetadata.write request.files)
      (request.files.length ≤ listLimit ∧ ∀ file ∈ request.files, file.IsReadable)
      request.files :=
    recovers_list _ (fun file _ => file.recovers) fun file _ => large file
  refine Recovers.of_eq (.bind (recovers_i64 _) (.bind request.shard.recovers
    (.bind request.source.recovers (.bind request.target.recovers (.bind files
      (.bind (recovers_i64 _) (.pure _))))))) ?_ ?_
  · simp [write]
  · simp [IsReadable]

theorem decode_write_iff (request other : StartRequest) :
    decode request.write = .ok other ↔ request.IsReadable ∧ other = request :=
  request.recovers.decode_eq_ok_iff other

end StartRequest

namespace Announcement

/-- Whether a list of names is short enough to be read, and so is every name. -/
def AreReadable (names : List String) : Prop :=
  names.length ≤ listLimit ∧ ∀ name ∈ names, IsReadableText name

def IsReadable (announcement : Announcement) : Prop :=
  AreReadable announcement.names ∧ announcement.sizes.length ≤ listLimit ∧
    AreReadable announcement.existingNames ∧ announcement.existingSizes.length ≤ listLimit

theorem recovers (announcement : Announcement) :
    Announcement.read.Recovers announcement.write announcement.IsReadable announcement := by
  refine Recovers.of_eq (.bind (recovers_texts _ _) (.bind (recovers_vlongs _ _)
    (.bind (recovers_texts _ _) (.bind (recovers_vlongs _ _) (.pure _))))) ?_ ?_
  · simp [write]
  · simp [IsReadable, AreReadable]

end Announcement

namespace Chunk

def IsReadable (chunk : Chunk) : Prop :=
  chunk.file.IsReadable ∧ chunk.content.length < 2 ^ 31

theorem recovers (chunk : Chunk) : Chunk.read.Recovers chunk.write chunk.IsReadable chunk := by
  refine Recovers.of_eq (.bind chunk.file.recovers (.bind (recovers_vlong _)
    (.bind (recovers_bytes _) (.bind (recovers_bool _) (.bind (recovers_u32 _) (.pure _)))))) ?_ ?_
  · simp [write]
  · simp [IsReadable]

end Chunk

theorem recovers_total (total : UInt32) :
    readTotal.Recovers (writeTotal total) (total.toNat < 2 ^ 31) total := by
  have number : Recovers (pure (UInt32.ofNat total.toNat) : Reader UInt32) [] True total := by
    rw [UInt32.ofNat_toNat]
    exact .pure total
  exact ((recovers_natural _).bind number).of_eq (List.append_nil _).symm (by simp)

theorem recovers_operations (what : String) (operations : List Operation) :
    Recovers (list what Operation.leastBytes Operation.read)
      (Write.list Operation.write operations)
      (operations.length ≤ listLimit ∧ ∀ operation ∈ operations, operation.action.IsReadable)
      operations := by
  refine recovers_list what (fun operation _ => operation.recovers) fun operation _ => ?_
  have action : 2 ≤ operation.action.write.length := by
    cases operation.action with
    | index id version source =>
        have := length_text_pos id
        simp only [Action.write, Write.u8, List.length_append, List.length_singleton]
        omega
    | delete id version =>
        have := length_text_pos id
        simp only [Action.write, Write.u8, List.length_append, List.length_singleton]
        omega
    | noOp reason =>
        have := length_text_pos reason
        simp only [Action.write, Write.u8, List.length_append, List.length_singleton]
        omega
  simp only [Operation.write, Operation.leastBytes, Write.i64, List.length_append,
    Bytes.length_bigEndian]
  omega

namespace Command

def IsReadable : Command → Prop
  | .announce announcement totalOps => announcement.IsReadable ∧ totalOps.toNat < 2 ^ 31
  | .transfer chunk totalOps => chunk.IsReadable ∧ totalOps.toNat < 2 ^ 31
  | .filesComplete _ totalOps => totalOps.toNat < 2 ^ 31
  | .replay operations totalOps =>
      (operations.length ≤ listLimit ∧
        ∀ operation ∈ operations, operation.action.IsReadable) ∧ totalOps.toNat < 2 ^ 31
  | .finalize _ => True

end Command

namespace Request

def IsReadable : Request → Prop
  | .step _ _ shard command => shard.IsReadable ∧ command.IsReadable
  | .cancel _ shard reason => shard.IsReadable ∧ IsReadableText reason

theorem recovers_step {reader : Reader Command} {command : Command}
    (recovers : reader.Recovers command.write command.IsReadable command)
    (number recovery : Int64) (shard : ShardId) :
    (readStep reader).Recovers
      (Write.i64 number ++ Write.i64 recovery ++ shard.write ++ command.write)
      (shard.IsReadable ∧ command.IsReadable) (.step number recovery shard command) := by
  refine Recovers.of_eq (.bind (recovers_i64 _) (.bind (recovers_i64 _)
    (.bind shard.recovers (.bind recovers (.pure _))))) ?_ ?_
  · simp
  · simp

theorem recovers (request : Request) :
    Request.read.Recovers request.write request.IsReadable request := by
  cases request with
  | cancel recovery shard reason =>
      refine Recovers.of_eq (.bind (recovers_u8 6) (.bind (recovers_i64 _)
        (.bind shard.recovers (.bind (recovers_text _) (.pure _))))) ?_ ?_
      · simp [write]
      · simp [IsReadable]
  | step number recovery shard command =>
      cases command with
      | announce announcement totalOps =>
          refine Recovers.of_eq (.bind (recovers_u8 1) (recovers_step (.of_eq
            (.bind announcement.recovers (.bind (recovers_total totalOps)
              (.pure (Command.announce announcement totalOps)))) ?_ ?_) _ _ _)) ?_ ?_
          all_goals simp [write, IsReadable, Command.tag, Command.write, Command.IsReadable]
      | transfer chunk totalOps =>
          refine Recovers.of_eq (.bind (recovers_u8 2) (recovers_step (.of_eq
            (.bind chunk.recovers (.bind (recovers_total totalOps)
              (.pure (Command.transfer chunk totalOps)))) ?_ ?_) _ _ _)) ?_ ?_
          all_goals simp [write, IsReadable, Command.tag, Command.write, Command.IsReadable]
      | filesComplete startSeqNo totalOps =>
          refine Recovers.of_eq (.bind (recovers_u8 3) (recovers_step (.of_eq
            (.bind (recovers_i64 startSeqNo) (.bind (recovers_total totalOps)
              (.pure (Command.filesComplete startSeqNo totalOps)))) ?_ ?_) _ _ _)) ?_ ?_
          all_goals simp [write, IsReadable, Command.tag, Command.write, Command.IsReadable]
      | replay operations totalOps =>
          refine Recovers.of_eq (.bind (recovers_u8 4) (recovers_step (.of_eq
            (.bind (recovers_operations _ operations) (.bind (recovers_total totalOps)
              (.pure (Command.replay operations totalOps)))) ?_ ?_) _ _ _)) ?_ ?_
          all_goals simp [write, IsReadable, Command.tag, Command.write, Command.IsReadable]
      | finalize globalCheckpoint =>
          refine Recovers.of_eq (.bind (recovers_u8 5) (recovers_step (.of_eq
            (.bind (recovers_i64 globalCheckpoint) (.pure (Command.finalize globalCheckpoint)))
              ?_ ?_) _ _ _)) ?_ ?_
          all_goals simp [write, IsReadable, Command.tag, Command.write, Command.IsReadable]

theorem decode_write_iff (request other : Request) :
    decode request.write = .ok other ↔ request.IsReadable ∧ other = request :=
  request.recovers.decode_eq_ok_iff other

end Request

namespace Reply

def IsReadable : Reply → Prop
  | .failure code detail => IsReadableText code ∧ IsReadableText detail
  | _ => True

theorem recovers (reply : Reply) : Reply.read.Recovers reply.write reply.IsReadable reply := by
  cases reply with
  | ack =>
      refine Recovers.of_eq (.bind (recovers_u8 0) (.pure _)) ?_ ?_
      all_goals simp [write, IsReadable]
  | chunkAck position =>
      refine Recovers.of_eq (.bind (recovers_u8 1) (.bind (recovers_vlong _) (.pure _))) ?_ ?_
      all_goals simp [write, IsReadable]
  | opsAck localCheckpoint =>
      refine Recovers.of_eq (.bind (recovers_u8 2) (.bind (recovers_i64 _) (.pure _))) ?_ ?_
      all_goals simp [write, IsReadable]
  | finalizeAck localCheckpoint =>
      refine Recovers.of_eq (.bind (recovers_u8 3) (.bind (recovers_i64 _) (.pure _))) ?_ ?_
      all_goals simp [write, IsReadable]
  | failure code detail =>
      refine Recovers.of_eq (.bind (recovers_u8 4) (.bind (recovers_text _)
        (.bind (recovers_text _) (.pure _)))) ?_ ?_
      all_goals simp [write, IsReadable]

theorem decode_write_iff (reply other : Reply) :
    decode reply.write = .ok other ↔ reply.IsReadable ∧ other = reply :=
  reply.recovers.decode_eq_ok_iff other

end Reply

end Recovery

end ShardSync
