import Mathlib.Algebra.Group.Nat.Defs
import ShardSync.Wire.Reader
import ShardSync.Wire.Writer

/-!
# Reading what has been written

A reader takes what the writer of the same kind has written, and only that, or it
fails. It fails if a length or a count is too large. It never gets another value
than the one that was written.
-/

set_option autoImplicit false

namespace ShardSync.Wire

/-- What a reader makes of a value that has been written. If the value is readable
its bytes are taken, else the reader fails, whatever comes behind them. -/
structure Reader.Recovers {α : Type} (reader : Reader α) (written : Bytes) (readable : Prop)
    (value : α) : Prop where
  takes : readable → ∀ rest, reader.start (written ++ rest) = (.ok value, rest)
  fails : ¬ readable → ∀ rest, ∃ error left,
    reader.start (written ++ rest) = (.error error, left)

/-- What reading comes to on given bytes. If the value is readable it is got and the
rest is left, else reading fails. -/
structure Reads {ε α : Type} (reader : ExceptT ε (StateM Bytes) α) (input : Bytes)
    (readable : Prop) (value : α) (rest : Bytes) : Prop where
  takes : readable → reader.run.run input = (.ok value, rest)
  fails : ¬ readable → ∃ error left, reader.run.run input = (.error error, left)

namespace Reads

variable {ε α β : Type} {reader : ExceptT ε (StateM Bytes) α} {input rest : Bytes}
  {readable also : Prop} {value : α}

theorem pure (value : α) (input : Bytes) :
    Reads (Pure.pure value : ExceptT ε (StateM Bytes) α) input True value input where
  takes _ := rfl
  fails lacking := absurd trivial lacking

theorem bind {next : α → ExceptT ε (StateM Bytes) β} {between : Bytes} {result : β}
    (first : Reads reader input readable value between)
    (second : readable → Reads (next value) between also result rest) :
    Reads (reader >>= next) input (readable ∧ also) result rest := by
  have ran : (reader >>= next).run.run input =
      match reader.run.run input with
      | (.ok value, left) => (next value).run.run left
      | (.error error, left) => (.error error, left) := by
    change (ExceptT.bindCont next (reader.run.run input).1).run (reader.run.run input).2 = _
    cases reader.run.run input with
    | mk outcome left => cases outcome <;> rfl
  constructor
  · intro both
    rw [ran, first.takes both.1]
    exact (second both.1).takes both.2
  · intro lacking
    by_cases begun : readable
    · rw [ran, first.takes begun]
      exact (second begun).fails fun also => lacking ⟨begun, also⟩
    · obtain ⟨error, left, failed⟩ := first.fails begun
      rw [ran, failed]
      exact ⟨error, left, rfl⟩

theorem of_iff (reads : Reads reader input readable value rest) (alike : also ↔ readable) :
    Reads reader input also value rest := by
  rwa [propext alike]

end Reads

namespace Reader

variable {α β : Type}

theorem start_bind (reader : Reader α) (next : α → Reader β) (input : Bytes) :
    (reader >>= next).start input =
      match reader.start input with
      | (.ok value, rest) => (next value).start rest
      | (.error error, rest) => (.error error, rest) := by
  change (ExceptT.bindCont next (reader.start input).1) (reader.start input).2 = _
  cases reader.start input with
  | mk outcome rest => cases outcome <;> rfl

namespace Recovers

theorem pure (value : α) : Recovers (Pure.pure value) [] True value where
  takes _ _ := rfl
  fails lacking := absurd trivial lacking

theorem throw (error : DecodeError) (value : α) :
    Recovers (MonadExcept.throw error) [] False value where
  takes never := never.elim
  fails _ rest := ⟨error, rest, rfl⟩

theorem reads {reader : Reader α} {written : Bytes} {readable : Prop} {value : α}
    (recovers : Recovers reader written readable value) (rest : Bytes) :
    Reads reader (written ++ rest) readable value rest :=
  ⟨fun fits => recovers.takes fits rest, fun lacking => recovers.fails lacking rest⟩

/-- What is read behind a value matters only if that could be read. -/
theorem bind_of {reader : Reader α} {next : α → Reader β} {front back : Bytes}
    {readable also : Prop} {value : α} {result : β}
    (first : Recovers reader front readable value)
    (second : readable → Recovers (next value) back also result) :
    Recovers (reader >>= next) (front ++ back) (readable ∧ also) result := by
  have reads (rest : Bytes) := (first.reads (back ++ rest)).bind fun fits =>
    (second fits).reads rest
  simp only [← List.append_assoc] at reads
  exact ⟨fun both rest => (reads rest).takes both, fun lacking rest => (reads rest).fails lacking⟩

theorem bind {reader : Reader α} {next : α → Reader β} {front back : Bytes}
    {readable also : Prop} {value : α} {result : β}
    (first : Recovers reader front readable value)
    (second : Recovers (next value) back also result) :
    Recovers (reader >>= next) (front ++ back) (readable ∧ also) result :=
  first.bind_of fun _ => second

theorem of_eq {reader : Reader α} {written other : Bytes} {readable also : Prop} {value : α}
    (recovers : Recovers reader written readable value) (same : other = written)
    (alike : also ↔ readable) : Recovers reader other also value := by
  rw [same, propext alike]
  exact recovers

/-- What is read from a whole message is what was written, if anything is. -/
theorem decode_eq_ok_iff {reader : Reader α} {written : Bytes} {readable : Prop} {value : α}
    (recovers : Recovers reader written readable value) (other : α) :
    reader.decode written = .ok other ↔ readable ∧ other = value := by
  unfold decode
  by_cases fits : readable
  · have taken := recovers.takes fits []
    rw [List.append_nil] at taken
    rw [taken]
    simp [fits, eq_comm]
  · obtain ⟨error, left, failed⟩ := recovers.fails fits []
    rw [List.append_nil] at failed
    rw [failed]
    simp [fits]

end Recovers

theorem start_take {count : Nat} {front : Bytes} (length : front.length = count)
    (rest : Bytes) : (take count).start (front ++ rest) = (.ok front, rest) := by
  change (if (List.take count (front ++ rest)).length = count then _ else _ :
    Reader Bytes).start (front ++ rest) = _
  rw [← length, List.take_left, if_pos rfl]
  change (_, List.drop front.length (front ++ rest)) = _
  rw [List.drop_left]

theorem recovers_u8 (value : UInt8) : Recovers u8 (Write.u8 value) True value where
  takes _ _ := rfl
  fails lacking := absurd trivial lacking

theorem recovers_bool (value : Bool) : Recovers bool (Write.bool value) True value where
  takes _ _ := by cases value <;> rfl
  fails lacking := absurd trivial lacking

end Reader

theorem Bytes.ofBigEndian_bigEndian (width value : Nat) :
    Bytes.ofBigEndian (Bytes.bigEndian width value) = value % 256 ^ width := by
  induction width generalizing value with
  | zero => simp [Bytes.bigEndian, Bytes.ofBigEndian, Nat.mod_one]
  | succ width ih =>
      have split : Bytes.ofBigEndian (Bytes.bigEndian (width + 1) value) =
          Bytes.ofBigEndian (Bytes.bigEndian width (value / 256)) * 256 + value % 256 := by
        simp [Bytes.bigEndian, Bytes.ofBigEndian, List.foldl_append]
      rw [split, ih, Nat.pow_succ', Nat.mod_mul, Nat.mul_comm, Nat.add_comm]

namespace Reader

variable {α : Type}

theorem recovers_u32 (value : UInt32) : Recovers u32 (Write.u32 value) True value where
  takes _ rest := by
    have number : UInt32.ofNat (Bytes.ofBigEndian (Bytes.bigEndian 4 value.toNat)) = value := by
      have bounded : value.toNat < 256 ^ 4 := value.toNat_lt
      rw [Bytes.ofBigEndian_bigEndian, Nat.mod_eq_of_lt bounded, UInt32.ofNat_toNat]
    rw [u32, Write.u32, start_bind, start_take (Bytes.length_bigEndian 4 _)]
    change (Except.ok _, rest) = _
    rw [number]
  fails lacking := absurd trivial lacking

theorem recovers_i64 (value : Int64) : Recovers i64 (Write.i64 value) True value where
  takes _ rest := by
    have number :
        (UInt64.ofNat (Bytes.ofBigEndian (Bytes.bigEndian 8 value.toUInt64.toNat))).toInt64 =
          value := by
      have bounded : value.toUInt64.toNat < 256 ^ 8 := value.toUInt64.toNat_lt
      rw [Bytes.ofBigEndian_bigEndian, Nat.mod_eq_of_lt bounded, UInt64.ofNat_toNat,
        Int64.toInt64_toUInt64]
    rw [i64, Write.i64, start_bind, start_take (Bytes.length_bigEndian 8 _)]
    change (Except.ok _, rest) = _
    rw [number]
  fails lacking := absurd trivial lacking

theorem start_groups_small {value : Nat} (small : value < 128) (limit : Nat) (rest : Bytes) :
    (groups? (limit + 1)).start (groups value ++ rest) = (.ok (some value), rest) := by
  have byte : (UInt8.ofNat value).toNat = value := by
    simp only [UInt8.toNat_ofNat']
    omega
  have low : UInt8.ofNat value < 128 := by
    rw [UInt8.lt_iff_toNat_lt, byte]
    exact small
  rw [groups, if_pos small, groups?, List.singleton_append, start_bind]
  change (if UInt8.ofNat value < 128 then _ else _ : Reader (Option Nat)).start rest = _
  rw [if_pos low, byte]
  rfl

theorem start_groups_large {value : Nat} (large : 128 ≤ value) (limit : Nat) (rest : Bytes) :
    (groups? (limit + 1)).start (groups value ++ rest) =
      match (groups? limit).start (groups (value / 128) ++ rest) with
      | (.ok high?, left) => (.ok (high?.map fun high => value % 128 + 128 * high), left)
      | (.error error, left) => (.error error, left) := by
  have byte : (UInt8.ofNat (value % 128 + 128)).toNat = value % 128 + 128 := by
    simp only [UInt8.toNat_ofNat']
    omega
  have high : ¬ UInt8.ofNat (value % 128 + 128) < 128 := by
    rw [UInt8.lt_iff_toNat_lt, byte]
    simp
  rw [groups, if_neg (by omega), groups?, List.cons_append, start_bind]
  change (if UInt8.ofNat (value % 128 + 128) < 128 then _ else _ :
    Reader (Option Nat)).start (groups (value / 128) ++ rest) = _
  rw [if_neg high, start_bind, byte, Nat.add_sub_cancel]
  cases (groups? limit).start (groups (value / 128) ++ rest) with
  | mk outcome left => cases outcome <;> rfl

/-- A number is read from its groups if there are not too many of them. -/
theorem start_groups (limit value : Nat) (rest : Bytes) :
    (value < 128 ^ (limit + 1) →
      (groups? (limit + 1)).start (groups value ++ rest) = (.ok (some value), rest)) ∧
    (128 ^ (limit + 1) ≤ value →
      ∃ left, (groups? (limit + 1)).start (groups value ++ rest) = (.ok none, left)) := by
  have least (limit : Nat) : 128 ≤ 128 ^ (limit + 1) := Nat.le_self_pow (by omega) 128
  induction limit generalizing value with
  | zero =>
      constructor
      · exact fun small => start_groups_small (by omega) 0 rest
      · intro large
        rw [start_groups_large (by omega)]
        exact ⟨_, rfl⟩
  | succ limit ih =>
      by_cases small : value < 128
      · refine ⟨fun _ => start_groups_small small _ rest, fun large => ?_⟩
        have := least (limit + 1)
        omega
      · rw [start_groups_large (by omega), @Nat.pow_succ' 128 (limit + 1)]
        obtain ⟨fits, exceeds⟩ := ih (value / 128)
        constructor
        · intro bounded
          rw [fits (Nat.div_lt_of_lt_mul bounded)]
          simp only [Option.map_some, Nat.mod_add_div]
        · intro exceeding
          obtain ⟨left, none⟩ := exceeds ((Nat.le_div_iff_mul_le (by omega)).mpr (by omega))
          rw [none]
          exact ⟨left, rfl⟩

theorem recovers_vlong (value : UInt64) : Recovers vlong (Write.vlong value) True value where
  takes _ rest := by
    have small : value.toNat < 128 ^ (9 + 1) := by
      have := value.toNat_lt
      omega
    rw [vlong, Write.vlong, start_bind, (start_groups 9 value.toNat rest).1 small]
    change (Except.ok (UInt64.ofNat value.toNat), rest) = _
    rw [UInt64.ofNat_toNat]
  fails lacking := absurd trivial lacking

theorem recovers_groups (value : Nat) :
    Recovers vint (groups value) (value < UInt32.size) (UInt32.ofNat value).toInt32 where
  takes small rest := by
    have bounded : value < 128 ^ (4 + 1) := Nat.lt_trans small (by decide)
    rw [vint, start_bind, (start_groups 4 value rest).1 bounded]
    change (if value < UInt32.size then _ else _ : Reader Int32).start rest = _
    rw [if_pos small]
    rfl
  fails large rest := by
    rw [vint, start_bind]
    by_cases bounded : value < 128 ^ (4 + 1)
    · rw [(start_groups 4 value rest).1 bounded]
      change ∃ error left, (if value < UInt32.size then _ else _ : Reader Int32).start rest =
        (.error error, left)
      rw [if_neg large]
      exact ⟨_, _, rfl⟩
    · obtain ⟨left, none⟩ := (start_groups 4 value rest).2 (Nat.le_of_not_lt bounded)
      rw [none]
      exact ⟨_, _, rfl⟩

theorem recovers_vint (value : Int32) : Recovers vint (Write.vint value) True value := by
  have whole := recovers_groups value.toUInt32.toNat
  rw [UInt32.ofNat_toNat, Int32.toInt32_toUInt32] at whole
  exact whole.of_eq rfl (iff_of_true trivial value.toUInt32.toNat_lt)

theorem toInt32_neg_iff {value : Nat} (fits : value < 2 ^ 32) :
    (UInt32.ofNat value).toInt32 < 0 ↔ 2 ^ 31 ≤ value := by
  rw [Int32.lt_iff_toInt_lt]
  simp [Int.bmod]
  omega

/-- Lengths and counts are readable below `2 ^ 31`. -/
theorem recovers_natural (value : Nat) :
    Recovers natural (Write.count value) (value < 2 ^ 31) value := by
  have checked (fits : value < 2 ^ 32) :
      Recovers (if (UInt32.ofNat value).toInt32 < 0 then
          throw (.negativeLength (UInt32.ofNat value).toInt32.toInt)
        else pure (UInt32.ofNat value).toInt32.toInt.toNat : Reader Nat) []
        (value < 2 ^ 31) value := by
    by_cases small : value < 2 ^ 31
    · have same : (UInt32.ofNat value).toInt32.toInt.toNat = value := by
        simp [Int.bmod]
        omega
      rw [if_neg (by rw [toInt32_neg_iff fits]; omega), same]
      exact (Recovers.pure value).of_eq rfl (iff_true_intro small)
    · rw [if_pos ((toInt32_neg_iff fits).mpr (Nat.le_of_not_lt small))]
      exact (Recovers.throw _ value).of_eq rfl (iff_false_intro small)
  refine ((recovers_groups value).bind_of checked).of_eq (List.append_nil _).symm ?_
  exact ⟨fun small => ⟨Nat.lt_trans small (by decide), small⟩, And.right⟩

theorem recovers_bytes (value : Bytes) :
    Recovers bytes (Write.bytes value) (value.length < 2 ^ 31) value where
  takes small rest := by
    have there : (value ++ rest).hasAtLeast value.length = true := by simp
    have measured : (do
        let input ← get
        if input.hasAtLeast value.length then return value.length
        else throw (.unexpectedEnd value.length input.length) : Reader Nat).start
          (value ++ rest) = (.ok value.length, value ++ rest) := by
      change (if (value ++ rest).hasAtLeast value.length = true then pure value.length
        else throw _ : Reader Nat).start (value ++ rest) = _
      rw [if_pos there]
      rfl
    rw [bytes, length, Write.bytes, start_bind, start_bind, List.append_assoc,
      (recovers_natural value.length).takes small]
    dsimp only
    rw [measured]
    exact start_take rfl rest
  fails large rest := by
    obtain ⟨error, left, failed⟩ :=
      (recovers_natural value.length).fails large (value ++ rest)
    rw [bytes, length, Write.bytes, start_bind, start_bind, List.append_assoc, failed]
    exact ⟨error, left, rfl⟩

/-- Whether the encoding of a text is short enough to be read. -/
def IsReadableText (text : String) : Prop := (Text.Utf8.encode text).length < 2 ^ 31

theorem recovers_text (value : String) :
    Recovers text (Write.text value) (IsReadableText value) value := by
  refine ((recovers_bytes _).bind ?_).of_eq (List.append_nil _).symm
    (and_iff_left trivial).symm
  rw [Text.Utf8.decode_encode]
  exact .pure value

/-- Elements that are read one after the other, behind those read before. -/
theorem recovers_times {item : Reader α} {write : α → Bytes} {readable : α → Prop}
    {values : List α}
    (each : ∀ value ∈ values, Recovers item (write value) (readable value) value)
    (collected : List α) :
    Recovers (times item values.length collected) (values.flatMap write)
      (∀ value ∈ values, readable value) (collected.reverse ++ values) := by
  induction values generalizing collected with
  | nil =>
      rw [List.append_nil]
      exact (Recovers.pure _).of_eq rfl (by simp)
  | cons value values ih =>
      rw [List.forall_mem_cons] at each
      have later := ih each.2 (value :: collected)
      rw [List.reverse_cons, List.append_assoc, List.singleton_append] at later
      exact (each.1.bind later).of_eq List.flatMap_cons List.forall_mem_cons

theorem start_count {declared : Nat} (small : declared < 2 ^ 31) (what : String) (least : Nat)
    (rest : Bytes) :
    (count what least).start (Write.count declared ++ rest) =
      if declared ≤ listLimit && rest.hasAtLeast (declared * max least 1) then
        (.ok declared, rest)
      else
        let room := min (rest.length / max least 1) listLimit
        (.error (.countTooLarge what declared room), rest) := by
  rw [count, start_bind, (recovers_natural declared).takes small]
  change (if declared ≤ listLimit && rest.hasAtLeast (declared * max least 1) then _ else _ :
    Reader Nat).start rest = _
  split <;> rfl

/-- A count is read if there is room for as many elements, and not too many of them. -/
theorem reads_count {declared least : Nat} (what : String) {rest : Bytes}
    (room : declared * max least 1 ≤ rest.length) :
    Reads (count what least) (Write.count declared ++ rest) (declared ≤ listLimit) declared
      rest where
  takes short := by
    change (count what least).start _ = _
    rw [start_count (Nat.lt_of_le_of_lt short (by decide)), if_pos]
    simp only [Bool.and_eq_true, decide_eq_true_eq, Bytes.hasAtLeast_iff]
    exact ⟨short, room⟩
  fails long := by
    change ∃ error left, (count what least).start _ = (.error error, left)
    by_cases small : declared < 2 ^ 31
    · rw [start_count small, if_neg (by simp [long])]
      exact ⟨_, _, rfl⟩
    · obtain ⟨error, left, failed⟩ := (recovers_natural declared).fails small rest
      rw [count, start_bind, failed]
      exact ⟨error, left, rfl⟩

theorem length_flatMap_write {write : α → Bytes} {values : List α} {least : Nat}
    (large : ∀ value ∈ values, least ≤ (write value).length) :
    values.length * least ≤ (values.flatMap write).length := by
  induction values with
  | nil => simp
  | cons value values ih =>
      rw [List.forall_mem_cons] at large
      have later := ih large.2
      rw [List.length_cons, Nat.succ_mul, List.flatMap_cons, List.length_append]
      omega

/-- A list is readable if its elements are, and there are not too many of them. -/
theorem recovers_list {item : Reader α} {write : α → Bytes} {readable : α → Prop}
    {values : List α} {least : Nat} (what : String)
    (each : ∀ value ∈ values, Recovers item (write value) (readable value) value)
    (large : ∀ value ∈ values, max least 1 ≤ (write value).length) :
    Recovers (list what least item) (Write.list write values)
      (values.length ≤ listLimit ∧ ∀ value ∈ values, readable value) values := by
  have room (rest : Bytes) :
      values.length * max least 1 ≤ (values.flatMap write ++ rest).length := by
    have := length_flatMap_write large
    rw [List.length_append]
    omega
  have reads (rest : Bytes) : Reads (list what least item)
      (Write.count values.length ++ (values.flatMap write ++ rest))
      (values.length ≤ listLimit ∧ ∀ value ∈ values, readable value) values rest :=
    .bind (reads_count what (room rest)) fun _ => (recovers_times each []).reads rest
  refine ⟨fun both rest => ?_, fun lacking rest => ?_⟩
  · rw [Write.list, List.append_assoc]
    exact (reads rest).takes both
  · rw [Write.list, List.append_assoc]
    exact (reads rest).fails lacking

theorem length_groups_pos (value : Nat) : 1 ≤ (groups value).length := by
  unfold groups
  split
  · simp
  · simp

theorem length_text_pos (value : String) : 1 ≤ (Write.text value).length := by
  have := length_groups_pos (Text.Utf8.encode value).length
  rw [Write.text, Write.bytes, Write.count, List.length_append]
  omega

/-- A list of names is readable if every name is, and there are not too many. -/
theorem recovers_texts (what : String) (values : List String) :
    Recovers (list what 1 text) (Write.list Write.text values)
      (values.length ≤ listLimit ∧ ∀ value ∈ values, IsReadableText value) values :=
  recovers_list what (fun value _ => recovers_text value) fun value _ => length_text_pos value

theorem recovers_vlongs (what : String) (values : List UInt64) :
    Recovers (list what 1 vlong) (Write.list Write.vlong values)
      (values.length ≤ listLimit) values := by
  refine Recovers.of_eq (recovers_list what (fun value _ => recovers_vlong value) ?_) rfl ?_
  · exact fun value _ => length_groups_pos value.toNat
  · simp

end Reader

end ShardSync.Wire
