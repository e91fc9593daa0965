import ShardSync.Proofs.Wire.Reading

/-!
# What a reader can get

A reader that succeeds gets a value within its range, whatever the bytes are that it
was given. It does not look beyond the bytes it takes: with more bytes behind them it
gets the same value and stops at the same place. So no bytes that a message takes up
begin those of another one.
-/

set_option autoImplicit false

namespace ShardSync.Wire

namespace Reader

variable {α β : Type}

/-- All values that a reader gets have a property, and what comes behind the bytes
it takes is of no account. -/
structure Yields (reader : Reader α) (property : α → Prop) : Prop where
  holds : ∀ {input rest : Bytes} {value : α}, reader.start input = (.ok value, rest) →
    property value
  grows : ∀ {input rest : Bytes} {value : α}, reader.start input = (.ok value, rest) →
    ∀ more, reader.start (input ++ more) = (.ok value, rest ++ more)

theorem bind_ok {reader : Reader α} {next : α → Reader β} {input rest : Bytes} {result : β}
    (ran : (reader >>= next).start input = (.ok result, rest)) :
    ∃ value between, reader.start input = (.ok value, between) ∧
      (next value).start between = (.ok result, rest) := by
  rw [start_bind] at ran
  cases first : reader.start input with
  | mk outcome between =>
      rw [first] at ran
      cases outcome with
      | error error => cases ran
      | ok value => exact ⟨value, between, rfl, ran⟩

namespace Yields

theorem pure {property : α → Prop} {value : α} (holds : property value) :
    Yields (Pure.pure value) property where
  holds ran := by
    cases ran
    exact holds
  grows ran more := by
    cases ran
    rfl

theorem throw (error : DecodeError) (property : α → Prop) :
    Yields (MonadExcept.throw error) property where
  holds ran := by cases ran
  grows ran := by cases ran

theorem bind {reader : Reader α} {next : α → Reader β} {property : α → Prop}
    {result : β → Prop} (first : reader.Yields property)
    (second : ∀ value, property value → (next value).Yields result) :
    (reader >>= next).Yields result where
  holds ran := by
    obtain ⟨value, between, got, ran⟩ := bind_ok ran
    exact (second value (first.holds got)).holds ran
  grows ran more := by
    obtain ⟨value, between, got, ran⟩ := bind_ok ran
    rw [start_bind, first.grows got more]
    exact (second value (first.holds got)).grows ran more

theorem mono {reader : Reader α} {property weaker : α → Prop} (yields : reader.Yields property)
    (implies : ∀ value, property value → weaker value) : reader.Yields weaker where
  holds ran := implies _ (yields.holds ran)
  grows := yields.grows

/-- A value that is got under a condition. -/
theorem ite {condition : Prop} [Decidable condition] {first second : Reader α}
    {property : α → Prop} (positive : condition → first.Yields property)
    (negative : ¬ condition → second.Yields property) :
    Yields (if condition then first else second) property := by
  split
  · next given => exact positive given
  · next given => exact negative given

/-- What is read from a whole message has the property. -/
theorem holds_of_decode {reader : Reader α} {property : α → Prop}
    (yields : reader.Yields property) {input : Bytes} {value : α}
    (decoded : reader.decode input = .ok value) :
    property value ∧ reader.start input = (.ok value, []) := by
  unfold decode at decoded
  split at decoded
  · cases decoded
  · next got =>
      cases decoded
      exact ⟨yields.holds got, got⟩
  · cases decoded

/-- Bytes behind a whole message are left over. -/
theorem decode_append {reader : Reader α} {property : α → Prop}
    (yields : reader.Yields property) {input : Bytes} {value : α}
    (decoded : reader.decode input = .ok value) {more : Bytes} (further : more ≠ []) :
    reader.decode (input ++ more) = .error (.trailingBytes more.length) := by
  obtain ⟨byte, rest, rfl⟩ := List.exists_cons_of_ne_nil further
  obtain ⟨_, got⟩ := yields.holds_of_decode decoded
  rw [decode, yields.grows got]
  rfl

end Yields

theorem yields_take (count : Nat) : (take count).Yields fun front => front.length = count := by
  have start (input : Bytes) : (take count).start input =
      if (input.take count).length = count then (.ok (input.take count), input.drop count)
      else (.error (.unexpectedEnd count input.length), input) := by
    change (if (input.take count).length = count then _ else _ : Reader Bytes).start input = _
    split <;> rfl
  constructor
  · intro input rest value ran
    rw [start] at ran
    split at ran
    · next enough =>
        cases ran
        exact enough
    · cases ran
  · intro input rest value ran more
    rw [start] at ran ⊢
    split at ran
    · next enough =>
        have within : count ≤ input.length := by
          rw [List.length_take] at enough
          omega
        cases ran
        rw [List.take_append_of_le_length within, if_pos enough,
          List.drop_append_of_le_length within]
    · cases ran

theorem yields_u8 : u8.Yields fun _ => True := by
  constructor
  · exact fun _ => trivial
  · intro input rest value ran more
    cases input with
    | nil => cases ran
    | cons byte input =>
        cases ran
        rfl

theorem yields_bool : bool.Yields fun _ => True :=
  .bind yields_u8 fun _ _ => .ite (fun _ => .pure trivial) fun _ =>
    .ite (fun _ => .pure trivial) fun _ => .throw _ _

theorem yields_u32 : u32.Yields fun _ => True :=
  .bind (yields_take 4) fun _ _ => .pure trivial

theorem yields_i64 : i64.Yields fun _ => True :=
  .bind (yields_take 8) fun _ _ => .pure trivial

theorem yields_groups? (limit : Nat) : (groups? limit).Yields fun _ => True := by
  induction limit with
  | zero => exact .pure trivial
  | succ limit ih =>
      exact .bind yields_u8 fun _ _ => .ite (fun _ => .pure trivial) fun _ =>
        .bind ih fun _ _ => .pure trivial

theorem yields_vint : vint.Yields fun _ => True := by
  refine .bind (yields_groups? 5) fun value? _ => ?_
  cases value? with
  | none => exact .throw _ _
  | some value => exact .ite (fun _ => .pure trivial) fun _ => .throw _ _

theorem yields_vlong : vlong.Yields fun _ => True := by
  refine .bind (yields_groups? 10) fun value? _ => ?_
  cases value? with
  | none => exact .throw _ _
  | some value => exact .pure trivial

theorem yields_natural : natural.Yields (· < 2 ^ 31) := by
  refine .bind yields_vint fun value _ => .ite (fun _ => .throw _ _) fun _ => .pure ?_
  have := value.toInt_lt
  omega

/-- A check of the bytes that are left, which more of them do not turn around. -/
theorem yields_checked {check : Bytes → Bool} {error : Bytes → DecodeError} {value : α}
    {property : α → Prop} (holds : ∀ input, check input = true → property value)
    (stays : ∀ input more : Bytes, check input = true → check (input ++ more) = true) :
    Yields (do
      let input ← get
      if check input then return value else throw (error input)) property := by
  have start (input : Bytes) : (do
      let input ← get
      if check input then return value else throw (error input) : Reader α).start input =
        if check input then (.ok value, input) else (.error (error input), input) := by
    change (if check input then pure value else throw (error input) : Reader α).start input = _
    split <;> rfl
  constructor
  · intro input rest got ran
    rw [start] at ran
    split at ran
    · next passed =>
        cases ran
        exact holds input passed
    · cases ran
  · intro input rest got ran more
    rw [start] at ran ⊢
    split at ran
    · next passed =>
        cases ran
        rw [if_pos (stays input more passed)]
    · cases ran

theorem hasAtLeast_append {input : Bytes} {count : Nat} (enough : input.hasAtLeast count = true)
    (more : Bytes) : (input ++ more).hasAtLeast count = true := by
  rw [Bytes.hasAtLeast_iff] at enough ⊢
  rw [List.length_append]
  omega

theorem yields_length : length.Yields (· < 2 ^ 31) :=
  .bind yields_natural fun _ small =>
    yields_checked (fun _ _ => small) fun _ more enough => hasAtLeast_append enough more

theorem yields_count (what : String) (least : Nat) :
    (count what least).Yields (· ≤ listLimit) := by
  refine .bind yields_natural fun declared _ => yields_checked ?_ ?_
  · intro input passed
    rw [Bool.and_eq_true] at passed
    exact of_decide_eq_true passed.1
  · intro input more passed
    rw [Bool.and_eq_true] at passed ⊢
    exact ⟨passed.1, hasAtLeast_append passed.2 more⟩

theorem yields_bytes : bytes.Yields (·.length < 2 ^ 31) :=
  .bind yields_length fun count small => (yields_take count).mono fun front length => by
    rw [length]
    exact small

theorem yields_text : text.Yields IsReadableText := by
  refine .bind yields_bytes fun bytes small => ?_
  cases decoded : Text.Utf8.decode bytes with
  | error fault => exact .throw _ _
  | ok value =>
      refine .pure ?_
      rw [IsReadableText, Text.Utf8.encode_of_decode decoded]
      exact small

theorem yields_times {item : Reader α} {property : α → Prop} (each : item.Yields property)
    (count : Nat) {collected : List α} (before : ∀ value ∈ collected, property value) :
    (times item count collected).Yields fun values =>
      values.length = collected.length + count ∧ ∀ value ∈ values, property value := by
  induction count generalizing collected with
  | zero =>
      refine .pure ⟨List.length_reverse, fun value member => ?_⟩
      exact before value (List.mem_reverse.mp member)
  | succ count ih =>
      refine .bind each fun value holds => ?_
      refine (ih (List.forall_mem_cons.mpr ⟨holds, before⟩)).mono fun values given => ?_
      refine ⟨?_, given.2⟩
      rw [given.1, List.length_cons]
      omega

theorem yields_list (what : String) (least : Nat) {item : Reader α} {property : α → Prop}
    (each : item.Yields property) :
    (list what least item).Yields fun values =>
      values.length ≤ listLimit ∧ ∀ value ∈ values, property value := by
  refine .bind (yields_count what least) fun count short => ?_
  refine (yields_times each count (fun _ member => absurd member List.not_mem_nil)).mono
    fun values given => ⟨?_, given.2⟩
  rw [given.1, List.length_nil, Nat.zero_add]
  exact short

end Reader

end ShardSync.Wire
