import Mathlib.Data.List.Basic
import ShardSync.Proofs.Engine.Documents

/-!
# Histories that are held in part

When some operations of a history are held by segments already, replaying the
history applies only those of the others that are not older than a held
document. For an id, that leaves what the whole history leaves, unless the
history ends with a held deletion of the id and an index operation is the last
one on it that is not held: then the document comes back.
-/

set_option autoImplicit false

namespace ShardSync.Recovery

open Engine (after put)

def lastWith (operations : List Operation) (id : Bytes) : Option Operation :=
  (operations.filter (·.key? == some id)).getLast?

/-- What is live after operations on an engine without documents. -/
def afterAll (operations : List Operation) : Bytes → Option Document :=
  operations.foldl after fun _ => none

theorem foldl_after (operations : List Operation) (documents : Bytes → Option Document)
    (id : Bytes) :
    operations.foldl after documents id =
      match lastWith operations id with
      | some operation => operation.live?
      | none => documents id := by
  induction operations generalizing documents with
  | nil => rfl
  | cons operation operations ih =>
      rw [List.foldl_cons, ih]
      unfold lastWith
      by_cases carries : operation.key? = some id
      · rw [List.filter_cons_of_pos (by simp [carries]), List.getLast?_cons]
        cases (operations.filter (·.key? == some id)).getLast? with
        | some last => rfl
        | none =>
            dsimp only [Option.getD_none]
            rw [after, carries]
            exact if_pos rfl
      · rw [List.filter_cons_of_neg (by simp [carries])]
        cases (operations.filter (·.key? == some id)).getLast? with
        | some last => rfl
        | none =>
            dsimp only
            rw [after]
            cases key : operation.key? with
            | none => rfl
            | some other =>
                refine if_neg fun same => carries ?_
                rw [key, same]

theorem afterAll_eq (operations : List Operation) (id : Bytes) :
    afterAll operations id = (lastWith operations id).bind Operation.live? := by
  rw [afterAll, foldl_after]
  cases lastWith operations id <;> rfl

def heldOf (history held : List Operation) : List Operation := history.filter (· ∈ held)

/-- Whether a document of the same id is as young as an operation. -/
def isNewer (documents : Bytes → Option Document) (operation : Operation) : Bool :=
  operation.key?.any fun id => ((documents id).bind (·.seqNo?)).any (operation.seqNo ≤ ·)

/-- Whether a replay skips an operation: it is held, or a held document is younger. -/
def skips (history held : List Operation) (operation : Operation) : Bool :=
  decide (operation ∈ held) || isNewer (afterAll (heldOf history held)) operation

/-- What is live when the first operations of a history have been replayed. -/
def settled (history held first : List Operation) : Bytes → Option Document :=
  (first.filter (!skips history held ·)).foldl after (afterAll (heldOf history held))

/-- A held deletion is the last operation on an id, and before it an operation
that is not held, and is the last of these, stores a document under the id. -/
def Resurrected (history held : List Operation) (id : String) : Prop :=
  ∃ deletion stored, deletion ∈ held ∧
    lastWith history (Text.Utf8.encode id) = some deletion ∧
    (∃ version, deletion.action = .delete id version) ∧
    lastWith (history.filter (· ∉ held)) (Text.Utf8.encode id) = some stored ∧
    ∃ version source, stored.action = .index id version source

theorem encode_injective {first second : String}
    (same : Text.Utf8.encode first = Text.Utf8.encode second) : first = second := by
  have decoded := congrArg Text.Utf8.decode same
  rw [Text.Utf8.decode_encode, Text.Utf8.decode_encode] at decoded
  exact Except.ok.inj decoded

theorem action_of_key {operation : Operation} {id : String}
    (key : operation.key? = some (Text.Utf8.encode id)) :
    ((∃ version source, operation.action = .index id version source) ∧
        operation.live? = some operation.document) ∨
      (∃ version, operation.action = .delete id version) ∧ operation.live? = none := by
  unfold Operation.key? Operation.id? at key
  unfold Operation.live? Operation.document
  cases action : operation.action with
  | index other version source =>
      rw [action] at key
      have same := encode_injective (Option.some.inj key)
      rw [same]
      exact .inl ⟨⟨version, source, rfl⟩, rfl⟩
  | delete other version =>
      rw [action] at key
      have same := encode_injective (Option.some.inj key)
      rw [same]
      exact .inr ⟨⟨version, rfl⟩, rfl⟩
  | noOp reason =>
      rw [action] at key
      cases key

section

variable {history held : List Operation} {id : Bytes} {last : Operation}

theorem lastWith_filter_of_none (missing : lastWith history id = none) (keep : Operation → Bool) :
    lastWith (history.filter keep) id = none := by
  have none : history.filter (·.key? == some id) = [] := List.getLast?_eq_none_iff.mp missing
  rw [lastWith, List.filter_comm, none]
  rfl

theorem lastWith_filter_of_keep (found : lastWith history id = some last)
    {keep : Operation → Bool} (kept : keep last = true) :
    lastWith (history.filter keep) id = some last := by
  obtain ⟨before, split⟩ := List.getLast?_eq_some_iff.mp found
  rw [lastWith, List.filter_comm, split, List.filter_append, List.filter_cons_of_pos kept,
    List.filter_nil, List.getLast?_concat]

theorem mem_of_lastWith (found : lastWith history id = some last) :
    last ∈ history ∧ last.key? = some id := by
  have member := List.mem_filter.mp (List.mem_of_getLast? found)
  exact ⟨member.1, beq_iff_eq.mp member.2⟩

/-- The last operation on an id is younger than all others on it. -/
theorem le_of_lastWith (increasing : history.Pairwise fun first second => first.seqNo < second.seqNo)
    (found : lastWith history id = some last) {operation : Operation}
    (member : operation ∈ history) (carries : operation.key? = some id) :
    operation = last ∨ operation.seqNo < last.seqNo := by
  obtain ⟨before, split⟩ := List.getLast?_eq_some_iff.mp found
  have ordered := increasing.filter (·.key? == some id)
  have listed : operation ∈ history.filter (·.key? == some id) :=
    List.mem_filter.mpr ⟨member, beq_iff_eq.mpr carries⟩
  rw [split] at ordered listed
  rcases List.mem_append.mp listed with earlier | latest
  · exact .inr ((List.pairwise_append.mp ordered).2.2 operation earlier last (List.mem_singleton_self _))
  · exact .inl (List.mem_singleton.mp latest)

theorem mem_heldOf_iff {operation : Operation} :
    operation ∈ heldOf history held ↔ operation ∈ history ∧ operation ∈ held := by
  rw [heldOf, List.mem_filter, decide_eq_true_eq]

theorem afterAll_heldOf (found : lastWith history id = some last) (isHeld : last ∈ held) :
    afterAll (heldOf history held) id = last.live? := by
  rw [afterAll_eq, heldOf, lastWith_filter_of_keep found (decide_eq_true isHeld)]
  rfl

end

theorem settled_eq (history held first : List Operation) (id : Bytes) :
    settled history held first id =
      match lastWith (first.filter (!skips history held ·)) id with
      | some operation => operation.live?
      | none => afterAll (heldOf history held) id :=
  foldl_after ..

theorem isNewer_of_key {operation : Operation} {id : Bytes} (carries : operation.key? = some id)
    (documents : Bytes → Option Document) :
    isNewer documents operation =
      ((documents id).bind (·.seqNo?)).any (operation.seqNo ≤ ·) := by
  rw [isNewer, carries]
  rfl

section

variable {history held : List Operation} {id : String} {last : Operation}

/-- The last operation on an id is not skipped unless it is held. -/
theorem settled_of_not_held
    (increasing : history.Pairwise fun first second => first.seqNo < second.seqNo)
    (found : lastWith history (Text.Utf8.encode id) = some last) (fresh : last ∉ held) :
    settled history held history (Text.Utf8.encode id) = last.live? := by
  have unskipped : skips history held last = false := by
    rw [skips, decide_eq_false fresh, Bool.false_or, isNewer_of_key (mem_of_lastWith found).2,
      afterAll_eq]
    cases latest : lastWith (heldOf history held) (Text.Utf8.encode id) with
    | none => rfl
    | some other =>
        obtain ⟨listed, same⟩ := mem_of_lastWith latest
        obtain ⟨listed, otherHeld⟩ := mem_heldOf_iff.mp listed
        rcases le_of_lastWith increasing found listed same with rfl | older
        · exact absurd otherHeld fresh
        · rcases action_of_key same with ⟨_, live⟩ | ⟨_, removed⟩
          · rw [Option.bind_some, live, Option.bind_some, other.seqNo?_document, Option.any_some]
            exact decide_eq_false (Int64.not_le.mpr older)
          · rw [Option.bind_some, removed]
            rfl
  rw [settled_eq, lastWith_filter_of_keep found (by rw [unskipped]; rfl)]

/-- A held document that is the youngest makes everything on its id be skipped. -/
theorem settled_of_held_live
    (increasing : history.Pairwise fun first second => first.seqNo < second.seqNo)
    (found : lastWith history (Text.Utf8.encode id) = some last) (isHeld : last ∈ held)
    (live : last.live? = some last.document) :
    settled history held history (Text.Utf8.encode id) = last.live? := by
  have initial := afterAll_heldOf found isHeld
  have none : lastWith (history.filter (!skips history held ·)) (Text.Utf8.encode id) = none := by
    refine List.getLast?_eq_none_iff.mpr (List.filter_eq_nil_iff.mpr fun operation kept => ?_)
    intro same
    have same := beq_iff_eq.mp same
    obtain ⟨listed, unskipped⟩ := List.mem_filter.mp kept
    have younger : operation.seqNo ≤ last.seqNo := by
      rcases le_of_lastWith increasing found listed same with rfl | older
      · exact Int64.le_refl _
      · exact Int64.le_of_lt older
    rw [skips, isNewer_of_key same, initial, live, Option.bind_some, last.seqNo?_document,
      Option.any_some, decide_eq_true younger, Bool.or_true] at unskipped
    cases unskipped
  rw [settled_eq, none]
  exact initial

/-- After a held deletion that is the youngest, everything on its id that is not
held has been applied. -/
theorem settled_of_held_removed (found : lastWith history (Text.Utf8.encode id) = some last)
    (isHeld : last ∈ held) (removed : last.live? = none) :
    settled history held history (Text.Utf8.encode id) =
      (lastWith (history.filter (· ∉ held)) (Text.Utf8.encode id)).bind Operation.live? := by
  have initial := afterAll_heldOf found isHeld
  have applied : lastWith (history.filter (!skips history held ·)) (Text.Utf8.encode id) =
      lastWith (history.filter (· ∉ held)) (Text.Utf8.encode id) := by
    unfold lastWith
    rw [List.filter_filter, List.filter_filter]
    refine congrArg List.getLast? (List.filter_congr fun operation _ => ?_)
    by_cases same : operation.key? = some (Text.Utf8.encode id)
    · rw [skips, isNewer_of_key same, initial, removed]
      simp
    · rw [beq_eq_false_iff_ne.mpr same]
      rfl
  rw [settled_eq, applied, initial, removed]
  cases lastWith (history.filter (· ∉ held)) (Text.Utf8.encode id) <;> rfl

end

/-- For an id, a replay over held operations agrees with the whole history
exactly if it does not bring a document back. -/
theorem settled_eq_iff {history held : List Operation}
    (increasing : history.Pairwise fun first second => first.seqNo < second.seqNo) (id : String) :
    (settled history held history (Text.Utf8.encode id)).map Document.numbers =
        (afterAll history (Text.Utf8.encode id)).map Document.numbers ↔
      ¬ Resurrected history held id := by
  rw [afterAll_eq history]
  cases found : lastWith history (Text.Utf8.encode id) with
  | none =>
      have initial : afterAll (heldOf history held) (Text.Utf8.encode id) = none := by
        rw [afterAll_eq, heldOf, lastWith_filter_of_none found]
        rfl
      rw [settled_eq, lastWith_filter_of_none found, initial]
      refine iff_of_true rfl ?_
      intro given
      obtain ⟨deletion, stored, _, same, _⟩ := given
      rw [found] at same
      cases same
  | some last =>
      rw [Option.bind_some]
      -- what the last operation on the id does matters only if it is held
      by_cases isHeld : last ∈ held
      · rcases action_of_key (mem_of_lastWith found).2 with
          ⟨⟨version, source, stores⟩, live⟩ | ⟨⟨version, removes⟩, removed⟩
        · rw [settled_of_held_live increasing found isHeld live]
          refine iff_of_true rfl ?_
          intro given
          obtain ⟨deletion, stored, _, same, ⟨other, deletes⟩, _⟩ := given
          rw [found] at same
          cases same
          rw [stores] at deletes
          cases deletes
        · rw [settled_of_held_removed found isHeld removed, removed]
          cases later : lastWith (history.filter (· ∉ held)) (Text.Utf8.encode id) with
          | none =>
              refine iff_of_true rfl ?_
              intro given
              obtain ⟨deletion, stored, _, _, _, same, _⟩ := given
              rw [later] at same
              cases same
          | some stored =>
              rw [Option.bind_some]
              rcases action_of_key (mem_of_lastWith later).2 with
                ⟨stores, live⟩ | ⟨⟨other, deletes⟩, none⟩
              · refine iff_of_false ?_ fun unresurrected => unresurrected
                  ⟨last, stored, isHeld, found, ⟨version, removes⟩, later, stores⟩
                rw [live]
                intro same
                cases same
              · rw [none]
                refine iff_of_true rfl ?_
                intro given
                obtain ⟨deletion, other, _, _, _, same, _, _, stores⟩ := given
                rw [later] at same
                cases same
                rw [deletes] at stores
                cases stores
      · rw [settled_of_not_held increasing found isHeld]
        refine iff_of_true rfl ?_
        intro given
        obtain ⟨deletion, stored, deletionHeld, same, _⟩ := given
        rw [found] at same
        cases same
        exact isHeld deletionHeld

/-- Whether a document is as young as an operation does not depend on the
operations before it that have been replayed. -/
theorem isNewer_settled {history held first : List Operation} {operation : Operation}
    (older : ∀ earlier ∈ first, earlier.seqNo < operation.seqNo) :
    isNewer (settled history held first) operation =
      isNewer (afterAll (heldOf history held)) operation := by
  cases key : operation.key? with
  | none => rw [isNewer, isNewer, key]; rfl
  | some id =>
      rw [isNewer_of_key key, isNewer_of_key key, settled_eq]
      cases found : lastWith (first.filter (!skips history held ·)) id with
      | none => rfl
      | some last =>
          obtain ⟨member, carries⟩ := mem_of_lastWith found
          obtain ⟨member, unskipped⟩ := List.mem_filter.mp member
          have before := older last member
          have applied : ((last.live?).bind (·.seqNo?)).any (operation.seqNo ≤ ·) = false := by
            unfold Operation.live?
            split
            · rfl
            · rw [Option.bind_some, last.seqNo?_document, Option.any_some]
              exact decide_eq_false (Int64.not_le.mpr before)
          rw [skips, isNewer_of_key carries, Bool.not_or, Bool.and_eq_true, Bool.not_eq_true'] at unskipped
          have initial := unskipped.2
          dsimp only
          rw [applied]
          cases present : (afterAll (heldOf history held) id).bind (·.seqNo?) with
          | none => rfl
          | some seqNo =>
              rw [present, Option.any_some, Bool.not_eq_true'] at initial
              have below := Int64.not_le.mp (of_decide_eq_false initial)
              rw [Option.any_some, eq_comm]
              exact decide_eq_false (Int64.not_le.mpr (Int64.lt_trans below before))

theorem settled_concat (history held first : List Operation) (operation : Operation) :
    settled history held (first ++ [operation]) =
      if skips history held operation then settled history held first
      else after (settled history held first) operation := by
  unfold settled
  rw [List.filter_append, List.foldl_append]
  cases skipped : skips history held operation <;> simp [skipped]

end ShardSync.Recovery
