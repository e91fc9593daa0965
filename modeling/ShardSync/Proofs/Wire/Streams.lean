import ShardSync.Proofs.Recovery.Messages

/-!
# Streams of values

Values of any kinds can be written one behind the other and are read back in the same
order, without anything between them that would say where one ends. A reader takes what
was written for its value and stops there, so the next one begins where it has to. A
sequence with a value that is too large is not read.
-/

set_option autoImplicit false

namespace ShardSync.Wire

namespace Reader

theorem recovers_i32 (value : Int32) : Recovers i32 (Write.i32 value) True value := by
  have number : Recovers (pure value.toUInt32.toInt32 : Reader Int32) [] True value := by
    rw [Int32.toInt32_toUInt32]
    exact .pure value
  exact ((recovers_u32 value.toUInt32).bind number).of_eq (List.append_nil _).symm (by simp)

theorem recovers_optionalText (value? : Option String) :
    Recovers optionalText (Write.optionalText value?) (∀ value ∈ value?, IsReadableText value)
      value? := by
  cases value? with
  | none => exact ((recovers_bool false).bind (.pure none)).of_eq rfl (by simp)
  | some value =>
      have present : Recovers (do return some (← text)) (Write.text value ++ [])
          (IsReadableText value ∧ True) (some value) :=
        (recovers_text value).bind (.pure (some value))
      refine Recovers.of_eq (Recovers.bind (recovers_bool true) present) ?_ ?_
      · simp [Write.optionalText]
      · simp

end Reader

/-- How values of a type are written, and which of them are read back. -/
structure Format where
  Value : Type
  read : Reader Value
  write : Value → Bytes
  IsReadable : Value → Prop
  recovers : ∀ value, read.Recovers (write value) (IsReadable value) value

/-- The kinds of values that a stream holds. A list is read under a name, by which the
report of a failure calls its elements. -/
inductive Kind where
  | u8
  | bool
  | i32
  | i64
  | vint
  | vlong
  | text
  | bytes
  | optionalText
  | texts (what : String)
  | vlongs (what : String)
  | shard
  | node
  | file
  | operation
deriving Repr, DecidableEq

/-- Texts and byte strings are readable below `2 ^ 31` octets, shards if their number is
below `2 ^ 31`, lists up to `Reader.listLimit` elements. -/
def Kind.format : Kind → Format
  | .u8 => ⟨UInt8, Reader.u8, Write.u8, fun _ => True, Reader.recovers_u8⟩
  | .bool => ⟨Bool, Reader.bool, Write.bool, fun _ => True, Reader.recovers_bool⟩
  | .i32 => ⟨Int32, Reader.i32, Write.i32, fun _ => True, Reader.recovers_i32⟩
  | .i64 => ⟨Int64, Reader.i64, Write.i64, fun _ => True, Reader.recovers_i64⟩
  | .vint => ⟨Int32, Reader.vint, Write.vint, fun _ => True, Reader.recovers_vint⟩
  | .vlong => ⟨UInt64, Reader.vlong, Write.vlong, fun _ => True, Reader.recovers_vlong⟩
  | .text => ⟨String, Reader.text, Write.text, Reader.IsReadableText, Reader.recovers_text⟩
  | .bytes => ⟨Bytes, Reader.bytes, Write.bytes, (·.length < 2 ^ 31), Reader.recovers_bytes⟩
  | .optionalText =>
      ⟨Option String, Reader.optionalText, Write.optionalText,
        fun value? => ∀ value ∈ value?, Reader.IsReadableText value, Reader.recovers_optionalText⟩
  | .texts what =>
      ⟨List String, Reader.list what 1 Reader.text, Write.list Write.text,
        fun values =>
          values.length ≤ Reader.listLimit ∧ ∀ value ∈ values, Reader.IsReadableText value,
        Reader.recovers_texts what⟩
  | .vlongs what =>
      ⟨List UInt64, Reader.list what 1 Reader.vlong, Write.list Write.vlong,
        (·.length ≤ Reader.listLimit), Reader.recovers_vlongs what⟩
  | .shard => ⟨ShardId, ShardId.read, ShardId.write, ShardId.IsReadable, ShardId.recovers⟩
  | .node => ⟨NodeId, NodeId.read, NodeId.write, NodeId.IsReadable, NodeId.recovers⟩
  | .file =>
      ⟨FileMetadata, FileMetadata.read, FileMetadata.write, FileMetadata.IsReadable,
        FileMetadata.recovers⟩
  | .operation =>
      ⟨Operation, Operation.read, Operation.write, (·.action.IsReadable), Operation.recovers⟩

/-- A value of one of the kinds. -/
structure Field where
  kind : Kind
  value : kind.format.Value

namespace Field

def write (field : Field) : Bytes := field.kind.format.write field.value

def IsReadable (field : Field) : Prop := field.kind.format.IsReadable field.value

end Field

namespace Reader

/-- One value of each of the given kinds, in their order. -/
def fields : List Kind → Reader (List Field)
  | [] => return []
  | kind :: kinds => do
      let value ← kind.format.read
      return ⟨kind, value⟩ :: (← fields kinds)

/-- How many bytes of an input stand before what is left of it. -/
def position (input rest : Bytes) : Nat := input.length - rest.length

/-- Values that are written one behind the other are readable if each of them is. -/
theorem recovers_fields (values : List Field) :
    (fields (values.map Field.kind)).Recovers (values.flatMap Field.write)
      (∀ value ∈ values, value.IsReadable) values := by
  induction values with
  | nil => exact (Recovers.pure []).of_eq rfl (by simp)
  | cons value values ih =>
      have first := value.kind.format.recovers value.value
      refine (first.bind (ih.bind (.pure (value :: values)))).of_eq ?_ ?_
      · simp [Field.write]
      · simp [Field.IsReadable]

theorem finish_eq_ok_iff (rest : Bytes) : (finish.start rest).1 = .ok () ↔ rest = [] := by
  cases rest with
  | nil => exact iff_of_true rfl rfl
  | cons byte rest => exact iff_of_false nofun nofun

/-- Values that are written one behind the other are read back in their order, whatever
comes behind them. The reader stops where the last of them ends, and that is the end of
the input if and only if nothing comes behind. -/
theorem streams_compose (values : List Field) (readable : ∀ value ∈ values, value.IsReadable)
    (further : Bytes) :
    let written := values.flatMap Field.write
    let (outcome, rest) := (fields (values.map Field.kind)).start (written ++ further)
    outcome = .ok values ∧ rest = further ∧
      position (written ++ further) rest = written.length ∧
      ((finish.start rest).1 = .ok () ↔ further = []) := by
  intro written
  rw [(recovers_fields values).takes readable further]
  refine ⟨rfl, rfl, ?_, finish_eq_ok_iff further⟩
  rw [position, List.length_append, Nat.add_sub_cancel_right]

/-- A number with its sign bit set, a text of two octets, a list with the largest number,
an operation, and an octet that announces another group behind them. -/
theorem streams_compose_mixture :
    let values : List Field := [
      ⟨.vint, (-1 : Int32)⟩, ⟨.optionalText, some "é"⟩, ⟨.vlongs "sizes", [0, 0xFFFFFFFFFFFFFFFF]⟩,
      ⟨.operation, { seqNo := 0, primaryTerm := 1, action := .delete "a" 2 }⟩]
    let written := values.flatMap Field.write
    (∀ value ∈ values, value.IsReadable) ∧
      (fields (values.map Field.kind)).start (written ++ [0x80]) = (.ok values, [0x80]) ∧
      position (written ++ [0x80]) [0x80] = 48 ∧ (finish.start [0x80]).1 ≠ .ok () := by
  intro values written
  have readable : ∀ value ∈ values, value.IsReadable := by
    simp only [values, List.forall_mem_cons]
    refine ⟨trivial, ?text, ?list, ?operation, List.forall_mem_nil _⟩
    case text =>
      rintro _ ⟨⟩
      exact (by decide : (Text.Utf8.encode "é").length < 2 ^ 31)
    case list => exact (by decide : 2 ≤ listLimit)
    case operation => exact (by decide : (Action.delete "a" 2).IsReadable)
  obtain ⟨read, rest, stops, finished⟩ := streams_compose values readable [0x80]
  have length : written.length = 48 := by decide +kernel
  refine ⟨readable, Prod.ext read rest, ?_, fun none => ?_⟩
  · rw [← length, ← stops, rest]
  · rw [rest] at finished
    exact absurd (finished.mp none) (List.cons_ne_nil _ _)

end Reader

end ShardSync.Wire
