import Mathlib.Algebra.BigOperators.Ring.List
import Mathlib.Algebra.Ring.Nat
import ShardSync.Proofs.Wire.Reading

/-!
# Numbers in groups of seven bits

What a reader of groups makes of any bytes. In front of every input stands a number,
or more groups than there may be, or groups that the input breaks off. A number of 32
bits is read exactly, and refused if its groups exceed 32 bits. A number of 64 bits is
read modulo `2 ^ 64`, so a reader of it is exact on an input if and only if no number
that exceeds 64 bits stands in front of it.
-/

set_option autoImplicit false

namespace ShardSync.Wire

/-- The sum of groups of seven bits, lowest group first. -/
def groupSum (groups : Bytes) : Nat :=
  (groups.zipIdx.map fun entry => entry.1.toNat % 128 * 128 ^ entry.2).sum

/-- Groups that end a number: each of them but the last announces a further one. -/
structure AreWhole (groups : Bytes) : Prop where
  announced : ∀ byte ∈ groups.dropLast, 128 ≤ byte
  last : ∃ byte, groups.getLast? = some byte ∧ byte < 128

/-- A number in at most `limit` groups, with what stands behind it. -/
structure Begins (limit : Nat) (input groups rest : Bytes) : Prop where
  split : input = groups ++ rest
  whole : AreWhole groups
  short : groups.length ≤ limit

/-- Whether a number that is too large stands in front of the input. -/
def Overflows (limit bound : Nat) (input : Bytes) : Prop :=
  ∃ groups rest, Begins limit input groups rest ∧ bound ≤ groupSum groups

/-- Whether no group ends a number within the limit. -/
def IsEndless (limit : Nat) (input : Bytes) : Prop :=
  limit ≤ input.length ∧ ∀ byte ∈ input.take limit, 128 ≤ byte

/-- Whether the input ends within a number. -/
def IsBrokenOff (limit : Nat) (input : Bytes) : Prop :=
  input.length < limit ∧ ∀ byte ∈ input, 128 ≤ byte

/-- A reader that takes the numbers below `bound` in at most `limit` groups as they are,
and fails on all else that may stand in front of the input. -/
structure Reader.IsExactOn {α : Type} (reader : Reader α) (limit bound : Nat)
    (pattern : Nat → α) (input : Bytes) : Prop where
  ok_iff : ∀ value rest, reader.start input = (.ok value, rest) ↔
    ∃ groups, Begins limit input groups rest ∧ groupSum groups < bound ∧
      value = pattern (groupSum groups)
  tooLong_iff : (reader.start input).1 = .error (.varintTooLong limit) ↔
    Overflows limit bound input ∨ IsEndless limit input
  ended_iff : (reader.start input).1 = .error (.unexpectedEnd 1 0) ↔ IsBrokenOff limit input

theorem groupSum_cons (byte : UInt8) (groups : Bytes) :
    groupSum (byte :: groups) = byte.toNat % 128 + 128 * groupSum groups := by
  have shifted : (groups.zipIdx 1).map (fun entry => entry.1.toNat % 128 * 128 ^ entry.2) =
      groups.zipIdx.map fun entry => 128 * (entry.1.toNat % 128 * 128 ^ entry.2) := by
    rw [List.zipIdx_succ, List.map_map]
    refine List.map_congr_left fun entry _ => ?_
    simp only [Function.comp_apply, Nat.pow_succ]
    rw [Nat.mul_comm (128 ^ entry.2), Nat.mul_left_comm]
  rw [groupSum, List.zipIdx_cons, List.map_cons, List.sum_cons, Nat.zero_add, shifted,
    List.sum_map_mul_left, Nat.pow_zero, Nat.mul_one, groupSum]

theorem areWhole_cons_iff {byte : UInt8} {groups : Bytes} :
    AreWhole (byte :: groups) ↔
      groups = [] ∧ byte < 128 ∨ 128 ≤ byte ∧ AreWhole groups := by
  cases groups with
  | nil =>
      constructor
      · rintro ⟨-, last, same, small⟩
        cases same
        exact .inl ⟨rfl, small⟩
      · rintro (⟨-, small⟩ | ⟨-, -, last, same, -⟩)
        · exact ⟨by simp, byte, rfl, small⟩
        · cases same
  | cons next groups =>
      constructor
      · rintro ⟨announced, last⟩
        rw [List.dropLast_cons_cons, List.forall_mem_cons] at announced
        exact .inr ⟨announced.1, announced.2, last⟩
      · rintro (⟨absurd, -⟩ | ⟨announces, announced, last⟩)
        · cases absurd
        · refine ⟨?_, last⟩
          rw [List.dropLast_cons_cons, List.forall_mem_cons]
          exact ⟨announces, announced⟩

theorem not_areWhole_nil : ¬ AreWhole [] := fun whole => by
  obtain ⟨byte, same, -⟩ := whole.last
  cases same

/-- One of the three stands in front of every input. -/
theorem front_cases (limit : Nat) (input : Bytes) :
    (∃ groups rest, Begins limit input groups rest) ∨ IsEndless limit input ∨
      IsBrokenOff limit input := by
  induction limit generalizing input with
  | zero => exact .inr (.inl ⟨Nat.zero_le _, by simp⟩)
  | succ limit ih =>
      cases input with
      | nil => exact .inr (.inr ⟨Nat.zero_lt_succ _, by simp⟩)
      | cons byte input =>
          by_cases small : byte < 128
          · have whole : AreWhole [byte] := areWhole_cons_iff.mpr (.inl ⟨rfl, small⟩)
            exact .inl ⟨[byte], input, rfl, whole, Nat.succ_le_succ (Nat.zero_le _)⟩
          have announces := UInt8.not_lt.mp small
          rcases ih input with ⟨groups, rest, rfl, whole, short⟩ | endless | brokenOff
          · have wholeLonger := areWhole_cons_iff.mpr (.inr ⟨announces, whole⟩)
            exact .inl ⟨byte :: groups, rest, rfl, wholeLonger, Nat.succ_le_succ short⟩
          · refine .inr (.inl ⟨Nat.succ_le_succ endless.1, ?_⟩)
            rw [List.take_succ_cons]
            exact List.forall_mem_cons.mpr ⟨announces, endless.2⟩
          · refine .inr (.inr ⟨Nat.succ_lt_succ brokenOff.1, ?_⟩)
            exact List.forall_mem_cons.mpr ⟨announces, brokenOff.2⟩

namespace Reader

variable {α : Type}

theorem start_groups?_cons (limit : Nat) (byte : UInt8) (input : Bytes) :
    (groups? (limit + 1)).start (byte :: input) =
      if byte < 128 then (.ok (some byte.toNat), input)
      else
        match (groups? limit).start input with
        | (.ok high?, rest) => (.ok (high?.map fun high => byte.toNat - 128 + 128 * high), rest)
        | (.error error, rest) => (.error error, rest) := by
  rw [groups?, start_bind]
  change (if byte < 128 then _ else _ : Reader (Option Nat)).start input = _
  split
  · rfl
  · rw [start_bind]
    cases (groups? limit).start input with
    | mk outcome rest => cases outcome <;> rfl

theorem start_groups?_of_begins {limit : Nat} {input groups rest : Bytes}
    (begins : Begins limit input groups rest) :
    (groups? limit).start input = (.ok (some (groupSum groups)), rest) := by
  obtain ⟨rfl, whole, short⟩ := begins
  induction groups generalizing limit with
  | nil => exact absurd whole not_areWhole_nil
  | cons byte groups ih =>
      obtain ⟨limit, rfl⟩ := Nat.exists_eq_add_one_of_ne_zero (Nat.ne_zero_of_lt short)
      rw [List.cons_append, start_groups?_cons, groupSum_cons]
      rcases areWhole_cons_iff.mp whole with ⟨rfl, small⟩ | ⟨announces, whole⟩
      · have small' : byte.toNat < 128 := UInt8.lt_iff_toNat_lt.mp small
        rw [if_pos small, Nat.mod_eq_of_lt small']
        rfl
      · have large : 128 ≤ byte.toNat := UInt8.le_iff_toNat_le.mp announces
        have low : byte.toNat % 128 = byte.toNat - 128 := by
          have := byte.toNat_lt
          omega
        rw [if_neg (UInt8.not_lt.mpr announces), ih whole (Nat.le_of_succ_le_succ short), low]
        rfl

theorem start_groups?_of_endless {limit : Nat} {input : Bytes}
    (endless : IsEndless limit input) :
    (groups? limit).start input = (.ok none, input.drop limit) := by
  obtain ⟨long, announced⟩ := endless
  induction limit generalizing input with
  | zero => rfl
  | succ limit ih =>
      cases input with
      | nil => cases long
      | cons byte input =>
          rw [List.take_succ_cons, List.forall_mem_cons] at announced
          rw [start_groups?_cons, if_neg (UInt8.not_lt.mpr announced.1),
            ih (Nat.le_of_succ_le_succ long) announced.2]
          rfl

theorem start_groups?_of_brokenOff {limit : Nat} {input : Bytes}
    (brokenOff : IsBrokenOff limit input) :
    (groups? limit).start input = (.error (.unexpectedEnd 1 0), []) := by
  obtain ⟨short, announced⟩ := brokenOff
  induction limit generalizing input with
  | zero => cases short
  | succ limit ih =>
      cases input with
      | nil => rfl
      | cons byte input =>
          rw [List.forall_mem_cons] at announced
          rw [start_groups?_cons, if_neg (UInt8.not_lt.mpr announced.1),
            ih (Nat.lt_of_succ_lt_succ short) announced.2]

/-- What a reader of a number comes to, whatever stands in front of the input. -/
structure Decides (reader : Reader α) (limit : Nat) (outcome : Nat → Except DecodeError α) :
    Prop where
  number : ∀ {input groups rest : Bytes}, Begins limit input groups rest →
    reader.start input = (outcome (groupSum groups), rest)
  endless : ∀ {input : Bytes}, IsEndless limit input →
    reader.start input = (.error (.varintTooLong limit), input.drop limit)
  brokenOff : ∀ {input : Bytes}, IsBrokenOff limit input →
    reader.start input = (.error (.unexpectedEnd 1 0), [])

theorem decides_of_groups? {limit : Nat} {next : Option Nat → Reader α}
    {outcome : Nat → Except DecodeError α}
    (known : ∀ sum rest, (next (some sum)).start rest = (outcome sum, rest))
    (unknown : ∀ rest, (next none).start rest = (.error (.varintTooLong limit), rest)) :
    Decides (groups? limit >>= next) limit outcome where
  number begins := by
    rw [start_bind, start_groups?_of_begins begins]
    exact known _ _
  endless endless := by
    rw [start_bind, start_groups?_of_endless endless]
    exact unknown _
  brokenOff brokenOff := by
    rw [start_bind, start_groups?_of_brokenOff brokenOff]

/-- The outcome of a reader that refuses the numbers from `bound` on. -/
def bounded (limit bound : Nat) (pattern : Nat → α) (sum : Nat) : Except DecodeError α :=
  if sum < bound then .ok (pattern sum) else .error (.varintTooLong limit)

theorem decides_vint :
    vint.Decides 5 (bounded 5 (2 ^ 32) fun sum => (UInt32.ofNat sum).toInt32) := by
  refine decides_of_groups? (fun sum rest => ?_) fun _ => rfl
  change (if sum < UInt32.size then _ else _ : Reader Int32).start rest = _
  by_cases small : sum < UInt32.size
  · rw [if_pos small, bounded, if_pos (show sum < 2 ^ 32 from small)]
    rfl
  · rw [if_neg small, bounded, if_neg (show ¬ sum < 2 ^ 32 from small)]
    rfl

theorem decides_vlong : vlong.Decides 10 fun sum => .ok (UInt64.ofNat sum) :=
  decides_of_groups? (fun _ _ => rfl) fun _ => rfl

namespace Decides

variable {reader : Reader α} {limit bound : Nat} {pattern : Nat → α}
  {outcome : Nat → Except DecodeError α} {input : Bytes}

/-- A reader is exact if it keeps to the bound where a number stands in front. -/
theorem isExactOn (decides : reader.Decides limit outcome)
    (keeps : ∀ groups rest, Begins limit input groups rest →
      outcome (groupSum groups) = bounded limit bound pattern (groupSum groups)) :
    reader.IsExactOn limit bound pattern input := by
  have taken {groups rest : Bytes} (begins : Begins limit input groups rest)
      (small : groupSum groups < bound) :
      reader.start input = (.ok (pattern (groupSum groups)), rest) := by
    rw [decides.number begins, keeps groups rest begins, bounded, if_pos small]
  have refused {groups rest : Bytes} (begins : Begins limit input groups rest)
      (large : bound ≤ groupSum groups) :
      reader.start input = (.error (.varintTooLong limit), rest) := by
    rw [decides.number begins, keeps groups rest begins, bounded, if_neg (by omega)]
  have outcomes :
      (∃ groups rest, Begins limit input groups rest ∧ groupSum groups < bound) ∨
        (Overflows limit bound input ∨ IsEndless limit input) ∨ IsBrokenOff limit input := by
    rcases front_cases limit input with ⟨groups, rest, begins⟩ | endless | brokenOff
    · rcases Nat.lt_or_ge (groupSum groups) bound with small | large
      · exact .inl ⟨groups, rest, begins, small⟩
      · exact .inr (.inl (.inl ⟨groups, rest, begins, large⟩))
    · exact .inr (.inl (.inr endless))
    · exact .inr (.inr brokenOff)
  have tooLong (long : Overflows limit bound input ∨ IsEndless limit input) :
      (reader.start input).1 = .error (.varintTooLong limit) := by
    rcases long with ⟨groups, rest, begins, large⟩ | endless
    · rw [refused begins large]
    · rw [decides.endless endless]
  have ended (brokenOff : IsBrokenOff limit input) :
      (reader.start input).1 = .error (.unexpectedEnd 1 0) := by
    rw [decides.brokenOff brokenOff]
  -- The three outcomes exclude each other, so each of them tells what stands in front.
  refine ⟨fun value rest => ⟨fun ran => ?_, ?_⟩, ⟨fun failed => ?_, tooLong⟩,
    ⟨fun failed => ?_, ended⟩⟩
  · rcases outcomes with ⟨groups, left, begins, small⟩ | long | brokenOff
    · rw [taken begins small] at ran
      cases ran
      exact ⟨groups, begins, small, rfl⟩
    · have failed := tooLong long
      rw [ran] at failed
      cases failed
    · have failed := ended brokenOff
      rw [ran] at failed
      cases failed
  · rintro ⟨groups, begins, small, rfl⟩
    exact taken begins small
  · rcases outcomes with ⟨groups, left, begins, small⟩ | long | brokenOff
    · simp [taken begins small] at failed
    · exact long
    · simp [ended brokenOff] at failed
  · rcases outcomes with ⟨groups, left, begins, small⟩ | long | brokenOff
    · simp [taken begins small] at failed
    · simp [tooLong long] at failed
    · exact brokenOff

/-- A reader without a bound takes every number, modulo the width of its values. -/
theorem ok_iff (decides : reader.Decides limit fun sum => .ok (pattern sum)) (value : α)
    (rest : Bytes) :
    reader.start input = (.ok value, rest) ↔
      ∃ groups, Begins limit input groups rest ∧ value = pattern (groupSum groups) := by
  constructor
  · intro ran
    rcases front_cases limit input with ⟨groups, left, begins⟩ | endless | brokenOff
    · rw [decides.number begins] at ran
      cases ran
      exact ⟨groups, begins, rfl⟩
    · rw [decides.endless endless] at ran
      cases ran
    · rw [decides.brokenOff brokenOff] at ran
      cases ran
  · rintro ⟨groups, begins, rfl⟩
    exact decides.number begins

theorem isExactOn_iff (decides : reader.Decides limit fun sum => .ok (pattern sum)) :
    reader.IsExactOn limit bound pattern input ↔ ¬ Overflows limit bound input := by
  constructor
  · intro exact overflows
    have failed := exact.tooLong_iff.mpr (.inl overflows)
    obtain ⟨groups, rest, begins, -⟩ := overflows
    rw [decides.number begins] at failed
    cases failed
  · intro fits
    refine decides.isExactOn fun groups rest begins => ?_
    have small : groupSum groups < bound :=
      Nat.lt_of_not_le fun large => fits ⟨groups, rest, begins, large⟩
    rw [bounded, if_pos small]

end Decides

/-- Reading a number of 32 bits is exact on every input. Reading one of 64 bits is exact
where no number that exceeds 64 bits stands in front, and else drops the high bits. -/
theorem varints_exact_iff (input : Bytes) :
    vint.IsExactOn 5 (2 ^ 32) (fun sum => (UInt32.ofNat sum).toInt32) input ∧
      (vlong.IsExactOn 10 (2 ^ 64) UInt64.ofNat input ↔ ¬ Overflows 10 (2 ^ 64) input) ∧
      ∀ value rest, vlong.start input = (.ok value, rest) ↔
        ∃ groups, Begins 10 input groups rest ∧ value = UInt64.ofNat (groupSum groups) :=
  ⟨decides_vint.isExactOn fun _ _ _ => rfl, decides_vlong.isExactOn_iff, decides_vlong.ok_iff⟩

/-- The second lowest bit of the tenth group stands for `2 ^ 64`. It is lost, and the
number is read as zero. -/
theorem not_exact_shiftedOut :
    let input : Bytes := List.replicate 9 0x80 ++ [0x02]
    groupSum input = 2 ^ 64 ∧ vlong.start input = (.ok 0, []) ∧
      ¬ vlong.IsExactOn 10 (2 ^ 64) UInt64.ofNat input := by
  intro input
  have sum : groupSum input = 2 ^ 64 := by decide +kernel
  have begins : Begins 10 input input [] := by
    refine ⟨(List.append_nil _).symm, ⟨?_, 0x02, ?_, ?_⟩, ?_⟩ <;> decide +kernel
  refine ⟨sum, ?_, fun exact => ?_⟩
  · rw [decides_vlong.number begins, sum]
    rfl
  · exact decides_vlong.isExactOn_iff.mp exact ⟨input, [], begins, Nat.le_of_eq sum.symm⟩

end Reader

end ShardSync.Wire
