import ShardSync.Proofs.Recovery.Causes
import ShardSync.Proofs.Store.Pins

/-!
# A source always cleans up

A session that has been given its turn may be answered anything, be asked to stop at any
time, and work on a source that others write to and pin files of. When it is over it has
released what it had pinned. If it has failed, the last thing that it has sent is a
request to give up, and its error says where it arose; if it is done, it has sent no such
request.
-/

set_option autoImplicit false

namespace ShardSync.Recovery

/-- What may happen while a session is going on. -/
inductive Turn where
  | answer (index : Nat) (answer : Except Error Reply)
  /-- Somebody asks the session to stop. -/
  | cancel (reason : String)
  /-- The session stops to wait, if somebody has asked it to stop. -/
  | abandon
  /-- Others change the files and the history of the source. -/
  | change (files : Std.ExtTreeMap String Content) (translog : Translog)
  /-- Others pin files of the source. -/
  | pin (names : List String)
  | unpin (names : List String)

namespace Turn

/-- What others make of the pins of a store. -/
def pinned (pins : Std.ExtTreeMap String Nat) : Turn → Std.ExtTreeMap String Nat
  | pin names => names.foldl Store.pin pins
  | unpin names => names.foldl Store.unpin pins
  | _ => pins

/-- What others make of the source. -/
def disturbed (source : SourceShard) : Turn → SourceShard
  | change files translog => { store := { source.store with files }, translog }
  | turn => { source with store.pins := turn.pinned source.store.pins }

/-- The pins that others leave. -/
def pinnedAll (turns : List Turn) (pins : Std.ExtTreeMap String Nat) :
    Std.ExtTreeMap String Nat :=
  turns.foldl pinned pins

/-- Others release only what they hold. All pins that are there at first are theirs. -/
def AreOwed (pins : Std.ExtTreeMap String Nat) : List Turn → Prop
  | [] => True
  | turn :: turns =>
      (∀ names, turn = .unpin names → ∀ name, names.count name ≤ Store.held pins name) ∧
        AreOwed (turn.pinned pins) turns

/-- Whether others pin or release files. -/
def isPinning : Turn → Bool
  | pin _ | unpin _ => true
  | _ => false

theorem pinnedAll_of_not_pinning {turns : List Turn}
    (unpinned : ∀ turn ∈ turns, turn.isPinning = false) (pins : Std.ExtTreeMap String Nat) :
    pinnedAll turns pins = pins := by
  induction turns generalizing pins with
  | nil => rfl
  | cons turn turns ih =>
      obtain ⟨first, later⟩ := List.forall_mem_cons.mp unpinned
      have same : turn.pinned pins = pins := by
        cases turn <;> first | rfl | cases first
      rw [pinnedAll, List.foldl_cons, same]
      exact ih later pins

end Turn

/-- A session, what it has sent, oldest first, and the failure that it has met. -/
structure Conduct where
  sender : Sender
  sent : List Request := []
  failure? : Option Failure := none

namespace Conduct

def advance (conduct : Conduct) (after : Sender) (met : Option Failure) : Conduct where
  sender := after
  sent := conduct.sent ++ Dialogue.sent conduct.sender.delivery after.delivery
  failure? := conduct.failure?.or met

/-- The session before its turn. Somebody may have asked it to stop. -/
def fresh (start : StartRequest) (settings : Settings) (cancellation : Cancellation)
    (source : SourceShard) (journal : Log.Journal) : Conduct where
  sender := {
    delivery := { Delivery.ofStart start settings with
      session := .ofStart start cancellation
      isLaunched := true }
    source
    journal }

/-- The session has its turn. -/
def begin (conduct : Conduct) : Conduct :=
  conduct.advance (.takeIn conduct.sender.opening) (Sender.failure? conduct.sender.opening)

def next (conduct : Conduct) : Turn → Conduct
  | .answer index answer =>
      conduct.advance (conduct.sender.take index answer) (conduct.sender.failureOf index answer)
  | .cancel reason => { conduct with sender := conduct.sender.cancel reason }
  | .abandon =>
      conduct.advance (.takeIn (.ok none, conduct.sender))
        (Sender.failure? (.ok none, conduct.sender))
  | turn => { conduct with sender.source := turn.disturbed conduct.sender.source }

def run (conduct : Conduct) (turns : List Turn) : Conduct := turns.foldl next conduct

end Conduct

/-- An error with the place where a failure arose. What the cause says of its place of its
own stays. -/
structure Error.Tells (error : Error) (start : StartRequest) (failure : Failure) : Prop where
  kind : error.kind = failure.cause.kind
  detail : error.detail = failure.cause.detail
  recovery : error.recovery? = some (failure.cause.recovery?.getD start.recovery)
  shard : error.shard? = some (failure.cause.shard?.getD start.shard)
  phase : error.phase? = some (failure.cause.phase?.getD failure.phase)

theorem Error.tells_located (start : StartRequest) (failure : Failure) :
    Error.Tells ((failure.cause.inContext start.recovery start.shard).inPhase failure.phase)
      start failure := by
  obtain ⟨⟨kind, detail, recovery?, shard?, phase?⟩, phase⟩ := failure
  refine ⟨rfl, rfl, ?_, ?_, ?_⟩
  · cases recovery? <;> rfl
  · cases shard? <;> rfl
  · cases phase? <;> rfl

/-- A failure that does not say where it arose is told that. -/
theorem Error.ArisesIn.located {cause : Error} {phase : Phase} (arises : cause.ArisesIn phase)
    (start : StartRequest) :
    let error := (cause.inContext start.recovery start.shard).inPhase phase
    error.recovery? = some start.recovery ∧ error.shard? = some start.shard ∧
      error.phase? = some phase := by
  obtain ⟨kind, detail, recovery?, shard?, phase?⟩ := cause
  obtain ⟨rfl, rfl, known⟩ := arises
  refine ⟨rfl, rfl, ?_⟩
  cases phase? with
  | none => rfl
  | some other => exact congrArg some (known other rfl)

/-- Others hold some pins of a source, and the session holds the rest. -/
structure Holding (start : StartRequest) (others : Std.ExtTreeMap String Nat) (basis : Basis) :
    Prop where
  recovery : basis.recovery = start.recovery
  shard : basis.shard = start.shard
  counted : Store.IsCounted basis.source.store.pins
  countedOthers : Store.IsCounted others
  held : ∀ name, Store.held basis.source.store.pins name = Store.held others name +
    (basis.snapshot?.elim [] fun snapshot => snapshot.files.map (·.name)).count name

namespace Holding

variable {start : StartRequest} {others : Std.ExtTreeMap String Nat} {basis : Basis}

theorem released (holding : Holding start others basis) : Holding start others basis.released := by
  cases pinned : basis.snapshot? with
  | none =>
      have same : basis.released = basis := by rw [Basis.released, pinned]
      rw [same]
      exact holding
  | some snapshot =>
      have same : basis.released = { basis with
          source.store := basis.source.store.release snapshot
          snapshot? := none } := by rw [Basis.released, pinned]
      have held := holding.held
      rw [pinned] at held
      rw [same]
      refine ⟨holding.recovery, holding.shard, holding.counted.foldl_unpin _,
        holding.countedOthers, fun name => ?_⟩
      dsimp only [Store.release]
      rw [Store.held_foldl_unpin, held]
      simp

theorem pinned (holding : Holding start others basis) (free : basis.snapshot? = none)
    {snapshot : Snapshot} {store : Store}
    (taken : basis.source.store.takeSnapshot = .ok (snapshot, store)) :
    Holding start others { basis with
      source := { basis.source with store }
      snapshot? := some snapshot } := by
  obtain ⟨-, rfl⟩ := Store.takeSnapshot_eq_ok_iff.mp taken
  refine ⟨holding.recovery, holding.shard, holding.counted.foldl_pin _, holding.countedOthers,
    fun name => ?_⟩
  have held := holding.held name
  rw [free] at held
  dsimp only
  rw [Store.held_foldl_pin, held]
  simp

/-- A session that has nothing pinned leaves the pins of the others. -/
theorem eq (holding : Holding start others basis) (free : basis.snapshot? = none) :
    basis.source.store.pins = others := by
  refine holding.counted.ext holding.countedOthers fun name => ?_
  rw [holding.held, free]
  rfl

/-- What others do to the source does not touch what the session holds. -/
theorem disturbed (holding : Holding start others basis) {turn : Turn}
    (owed : ∀ names, turn = .unpin names → ∀ name, names.count name ≤ Store.held others name) :
    Holding start (turn.pinned others) { basis with source := turn.disturbed basis.source } := by
  have held := holding.held
  cases turn with
  | pin names =>
      refine ⟨holding.recovery, holding.shard, holding.counted.foldl_pin names,
        holding.countedOthers.foldl_pin names, fun name => ?_⟩
      dsimp only [Turn.disturbed, Turn.pinned]
      rw [Store.held_foldl_pin, Store.held_foldl_pin, held]
      omega
  | unpin names =>
      refine ⟨holding.recovery, holding.shard, holding.counted.foldl_unpin names,
        holding.countedOthers.foldl_unpin names, fun name => ?_⟩
      have enough := owed names rfl name
      dsimp only [Turn.disturbed, Turn.pinned]
      rw [Store.held_foldl_unpin, Store.held_foldl_unpin, held]
      omega
  | _ => exact ⟨holding.recovery, holding.shard, holding.counted, holding.countedOthers, held⟩

end Holding

namespace Conduct

variable {start : StartRequest} {others : Std.ExtTreeMap String Nat} {told : Error → Prop}
  {conduct : Conduct}

/-- A failure, the error that it has been made into, and that the target has been told. -/
structure Blames (start : StartRequest) (told : Error → Prop) (conduct : Conduct)
    (error : Error) (failure : Failure) : Prop where
  met : conduct.failure? = some failure
  going : failure.phase.isTerminal = false
  located : error = (failure.cause.inContext start.recovery start.shard).inPhase failure.phase
  source : failure.cause.ArisesIn failure.phase ∨ told failure.cause
  last : conduct.sent.getLast? = some (.cancel start.recovery start.shard error.detail)

/-- What holds of a session in every run. -/
inductive Keeps (start : StartRequest) (told : Error → Prop)
    (others : Std.ExtTreeMap String Nat) (conduct : Conduct) : Prop where
  | waits (waits : conduct.sender.Waits (Holding start others))
      (quiet : ∀ request ∈ conduct.sent, request.isCancel = false)
      (unmet : conduct.failure? = none)
  | cancelling {error : Error} {failure : Failure}
      (cancelling : conduct.sender.Cancelling (Holding start others) error)
      (blames : conduct.Blames start told error failure)
  | failed {error : Error} {failure : Failure}
      (finished : conduct.sender.Over (Holding start others) (.error error))
      (blames : conduct.Blames start told error failure)
  | done {checkpoint : Int64}
      (finished : conduct.sender.Over (Holding start others) (.ok checkpoint))
      (quiet : ∀ request ∈ conduct.sent, request.isCancel = false)

/-- A session that has sent no request to give up takes in what came of a step. -/
theorem keeps_advance {after : Sender} {met : Option Failure}
    (ordinary : ∀ sent ∈ conduct.sender.delivery.outstanding, sent.request.isCancel = false)
    (quiet : ∀ request ∈ conduct.sent, request.isCancel = false) (unmet : conduct.failure? = none)
    (source : ∀ failure ∈ met, failure.cause.ArisesIn failure.phase ∨ told failure.cause)
    (settles : after.Settles (Holding start others) met) :
    (conduct.advance after met).Keeps start told others := by
  cases settles with
  | waits waits =>
      refine .waits waits (List.forall_mem_append.mpr ⟨quiet, fun request member => ?_⟩) ?_
      · obtain ⟨sent, outstanding, rfl⟩ := Dialogue.outstanding_of_mem_sent member
        exact waits.ordinary sent outstanding
      · rw [advance, unmet, Option.none_or]
  | @fails _ cause error phase cancelling going same =>
      obtain ⟨timeout, asked⟩ := cancelling.asked
      rw [cancelling.basis.recovery, cancelling.basis.shard] at asked same
      have sent : Dialogue.sent conduct.sender.delivery after.delivery =
          [.cancel start.recovery start.shard error.detail] := by
        rw [Dialogue.sent, asked, List.filter_cons_of_pos]
        · rfl
        · refine decide_eq_true fun before => ?_
          have ordinary := ordinary _ before
          cases ordinary
      refine .cancelling cancelling ⟨?_, going, same, source _ rfl, ?_⟩
      · rw [advance, unmet, Option.none_or]
      · rw [advance, sent, List.getLast?_concat]
  | finishes finished =>
      refine .done finished ?_
      rw [advance, Dialogue.sent, finished.idle]
      simpa using quiet

/-- Nothing is sent, and no failure is met, when nothing comes of a turn. -/
theorem advance_same (conduct : Conduct) : conduct.advance conduct.sender none = conduct := by
  rw [advance, Dialogue.sent_of_same rfl, List.append_nil, Option.or_none]

/-- The session is over, and has sent nothing more. -/
theorem Blames.advance {error : Error} {failure : Failure}
    (blames : conduct.Blames start told error failure) {after : Sender}
    (idle : after.delivery.outstanding = []) (met : Option Failure) :
    (conduct.advance after met).Blames start told error failure := by
  refine ⟨?_, blames.going, blames.located, blames.source, ?_⟩
  · rw [Conduct.advance, blames.met, Option.some_or]
  · rw [Conduct.advance, Dialogue.sent, idle, List.filter_nil, List.map_nil, List.append_nil]
    exact blames.last

theorem keeps_begin {settings : Settings} {cancellation : Cancellation} {source : SourceShard}
    {journal : Log.Journal} (counted : Store.IsCounted source.store.pins) :
    (fresh start settings cancellation source journal).begin.Keeps start told
      source.store.pins := by
  have holding : Holding start source.store.pins
      (fresh start settings cancellation source journal).sender.basis :=
    ⟨rfl, rfl, counted, counted, fun _ => rfl⟩
  have unasked : (fresh start settings cancellation source journal).sender.Fresh
      (Holding start source.store.pins) :=
    ⟨⟨rfl, rfl, fun sent member => (List.not_mem_nil member).elim, holding⟩, rfl, rfl, rfl⟩
  refine keeps_advance unasked.ordinary (fun request member => (List.not_mem_nil member).elim) rfl
    (fun failure met => ?_) (unasked.begin (fun _ => Holding.released) ?_)
  · exact .inl (Sender.arisesIn_of_opening met)
  · exact fun snapshot store taken => holding.pinned rfl taken

theorem Blames.moved {error : Error} {failure : Failure}
    (blames : conduct.Blames start told error failure) (sender : Sender) :
    Blames start told { conduct with sender } error failure :=
  ⟨blames.met, blames.going, blames.located, blames.source, blames.last⟩

theorem Keeps.answer (keeps : conduct.Keeps start told others) (index : Nat)
    {answer : Except Error Reply} (heard : ∀ error, answer = .error error → told error) :
    (conduct.next (.answer index answer)).Keeps start told others := by
  cases keeps with
  | waits waits quiet unmet =>
      refine keeps_advance waits.ordinary quiet unmet (fun failure met => ?_)
        (waits.take (fun _ => Holding.released) index answer)
      exact (Sender.failureOf_cases met).imp_right (heard _)
  | cancelling cancelling blames =>
      have unmet : conduct.sender.failureOf index answer = none := by
        unfold Sender.failureOf Delivery.isWaiting
        rw [cancelling.stage]
        split <;> rfl
      rcases cancelling.take (fun _ => Holding.released) index answer with same | finished
      · rw [Conduct.next, same, unmet, advance_same]
        exact .cancelling cancelling blames
      · exact .failed finished (blames.advance finished.idle _)
  | failed finished blames =>
      rw [Conduct.next, finished.take]
      exact .failed finished (blames.advance finished.idle _)
  | done finished quiet =>
      rw [Conduct.next, finished.take]
      refine .done finished ?_
      rw [advance, Dialogue.sent_of_same rfl, List.append_nil]
      exact quiet

theorem Keeps.cancel (keeps : conduct.Keeps start told others) (reason : String) :
    (conduct.next (.cancel reason)).Keeps start told others := by
  cases keeps with
  | waits waits quiet unmet => exact .waits (waits.cancel reason) quiet unmet
  | cancelling cancelling blames => exact .cancelling (cancelling.cancel reason) (blames.moved _)
  | failed finished blames => exact .failed (finished.cancel reason) (blames.moved _)
  | done finished quiet => exact .done (finished.cancel reason) quiet

theorem next_abandon_of_not_waiting (idle : conduct.sender.delivery.isWaiting = false) :
    conduct.next .abandon = conduct := by
  have unmet : Sender.failure? (.ok none, conduct.sender) = none := by
    unfold Sender.failure?
    dsimp only
    split
    · rfl
    · exact if_neg (ne_true_of_eq_false idle)
  rw [next, Sender.takeIn_of_not_waiting idle, unmet, advance_same]

theorem Keeps.abandon (keeps : conduct.Keeps start told others) :
    (conduct.next .abandon).Keeps start told others := by
  cases keeps with
  | waits waits quiet unmet =>
      refine keeps_advance waits.ordinary quiet unmet (fun failure met => ?_) waits.abandon
      exact .inl (Sender.arisesIn_of_failure? (Sending.raises_pure none) met)
  | cancelling cancelling blames =>
      rw [next_abandon_of_not_waiting (by rw [Delivery.isWaiting, cancelling.stage])]
      exact .cancelling cancelling blames
  | failed finished blames =>
      rw [next_abandon_of_not_waiting (by rw [Delivery.isWaiting, finished.stage])]
      exact .failed finished blames
  | done finished quiet =>
      rw [next_abandon_of_not_waiting (by rw [Delivery.isWaiting, finished.stage])]
      exact .done finished quiet

theorem Keeps.disturbed (keeps : conduct.Keeps start told others) {turn : Turn}
    (owed : ∀ names, turn = .unpin names → ∀ name, names.count name ≤ Store.held others name) :
    Keeps start told (turn.pinned others)
      { conduct with sender.source := turn.disturbed conduct.sender.source } := by
  cases keeps with
  | waits waits quiet unmet =>
      exact .waits (waits.moved rfl (waits.basis.disturbed owed)) quiet unmet
  | cancelling cancelling blames =>
      exact .cancelling (cancelling.moved rfl (cancelling.basis.disturbed owed)) (blames.moved _)
  | failed finished blames =>
      exact .failed (finished.moved rfl (finished.basis.disturbed owed)) (blames.moved _)
  | done finished quiet => exact .done (finished.moved rfl (finished.basis.disturbed owed)) quiet

/-- A turn keeps what holds of the session, for the pins that others leave. -/
theorem Keeps.next (keeps : conduct.Keeps start told others) {turn : Turn}
    (heard : ∀ index error, turn = .answer index (.error error) → told error)
    (owed : ∀ names, turn = .unpin names → ∀ name, names.count name ≤ Store.held others name) :
    (conduct.next turn).Keeps start told (turn.pinned others) := by
  cases turn with
  | answer index answer =>
      exact keeps.answer index fun error same => heard index error (by rw [same])
  | cancel reason => exact keeps.cancel reason
  | abandon => exact keeps.abandon
  | change | pin | unpin => exact keeps.disturbed owed

theorem Keeps.run (keeps : conduct.Keeps start told others) {turns : List Turn}
    (heard : ∀ index error, .answer index (.error error) ∈ turns → told error)
    (owed : Turn.AreOwed others turns) :
    (conduct.run turns).Keeps start told (Turn.pinnedAll turns others) := by
  induction turns generalizing conduct others with
  | nil => exact keeps
  | cons turn turns ih =>
      refine ih (keeps.next (fun index error same => ?_) owed.1) (fun index error member => ?_)
        owed.2
      · exact heard index error (by rw [same]; exact List.mem_cons_self)
      · exact heard index error (List.mem_cons_of_mem _ member)

/-- What a session leaves that is over. -/
structure CleansUp (start : StartRequest) (before : Store) (turns : List Turn)
    (result : Except Error Int64) (conduct : Conduct) : Prop where
  /-- The pins are those that others have left. -/
  pins : conduct.sender.source.store.pins = Turn.pinnedAll turns before.pins
  undisturbed : (∀ turn ∈ turns, turn.isPinning = false) →
    conduct.sender.source.store.pins = before.pins
  done : conduct.sender.phase = .done ↔ result.isOk = true
  failed : conduct.sender.phase = .failed ↔ result.isOk = false
  succeeds : ∀ checkpoint, result = .ok checkpoint →
    conduct.sender.delivery.session.progress.isCancelled = false ∧
      ∀ request ∈ conduct.sent, request.isCancel = false
  fails : ∀ error, result = .error error →
    conduct.sender.delivery.session.progress.isCancelled = error.isCancellation ∧
      conduct.sent.getLast? = some (.cancel start.recovery start.shard error.detail) ∧
      ∃ failure, conduct.failure? = some failure ∧ failure.phase.isTerminal = false ∧
        error.Tells start failure ∧ ((∀ index, .answer index (.error failure.cause) ∉ turns) →
          error.recovery? = some start.recovery ∧ error.shard? = some start.shard ∧
            error.phase? = some failure.phase)

theorem Keeps.cleansUp {before : Store} {turns : List Turn} {result : Except Error Int64}
    (keeps : conduct.Keeps start (fun error => ∃ index, .answer index (.error error) ∈ turns)
      (Turn.pinnedAll turns before.pins))
    (ended : conduct.sender.delivery.result? = some result) :
    conduct.CleansUp start before turns result := by
  have finished {other : Except Error Int64}
      (finished : conduct.sender.Over (Holding start (Turn.pinnedAll turns before.pins)) other) :
      result = other ∧
        conduct.sender.source.store.pins = Turn.pinnedAll turns before.pins := by
    rw [finished.result?] at ended
    exact ⟨(Option.some.inj ended).symm, finished.basis.eq finished.free⟩
  have undisturbed (same : conduct.sender.source.store.pins = Turn.pinnedAll turns before.pins)
      (unpinned : ∀ turn ∈ turns, turn.isPinning = false) :
      conduct.sender.source.store.pins = before.pins :=
    same.trans (Turn.pinnedAll_of_not_pinning unpinned _)
  cases keeps with
  | waits waits =>
      rw [waits.result?] at ended
      cases ended
  | cancelling cancelling =>
      rw [cancelling.result?] at ended
      cases ended
  | @failed error failure stays blames =>
      obtain ⟨rfl, pins⟩ := finished stays
      refine ⟨pins, undisturbed pins, ?_, ?_, nofun, ?_⟩
      · rw [stays.phase]
        exact ⟨nofun, nofun⟩
      · rw [stays.phase]
        exact ⟨fun _ => rfl, fun _ => rfl⟩
      · rintro _ ⟨⟩
        refine ⟨stays.flag, blames.last, failure, blames.met, blames.going, ?_, fun unheard => ?_⟩
        · rw [blames.located]
          exact Error.tells_located start failure
        · have arises := blames.source.resolve_right fun ⟨index, heard⟩ => unheard index heard
          rw [blames.located]
          exact arises.located start
  | done stays quiet =>
      obtain ⟨rfl, pins⟩ := finished stays
      refine ⟨pins, undisturbed pins, ?_, ?_, ?_, nofun⟩
      · rw [stays.phase]
        exact ⟨fun _ => rfl, fun _ => rfl⟩
      · rw [stays.phase]
        exact ⟨nofun, nofun⟩
      · rintro _ ⟨⟩
        exact ⟨stays.flag, quiet⟩

/-- Whatever a session is answered, and whenever somebody asks it to stop, it cleans up. -/
theorem cleans_up (start : StartRequest) (settings : Settings) (cancellation : Cancellation)
    (source : SourceShard) (journal : Log.Journal) (turns : List Turn)
    (counted : Store.IsCounted source.store.pins) (owed : Turn.AreOwed source.store.pins turns)
    {result : Except Error Int64}
    (ended : ((fresh start settings cancellation source journal).begin.run
      turns).sender.delivery.result? = some result) :
    ((fresh start settings cancellation source journal).begin.run turns).CleansUp start
      source.store turns result := by
  refine Keeps.cleansUp ((keeps_begin counted).run ?_ owed) ended
  exact fun index error heard => ⟨index, heard⟩

/-- A source with a file that somebody else holds. -/
def heldSource : SourceShard where
  store := {
    files := .ofList [("_1.seg", Content.ofBytes [0x61])]
    pins := .ofList [("_1.seg", 1)] }

def emptyTarget : StartRequest where
  recovery := 7
  shard := default
  source := { id := .zero, name := "one" }
  target := { id := .zero, name := "two" }
  files := []
  startSeqNo := 0

/-- A session is asked to stop while others pin the file too, and its request to give up is
not answered. -/
def stopping : List Turn := [
  .answer 0 (.ok .ack), .pin ["_1.seg"], .cancel "enough", .abandon,
  .answer 0 (.error (.timeout "cancel" 30000))]

theorem cleans_up_stopping :
    ((fresh emptyTarget {} {} heldSource {}).begin.run stopping).CleansUp emptyTarget
      heldSource.store stopping
      (.error ⟨.cancelled, "enough", some 7, some default, some .files⟩) := by
  refine cleans_up emptyTarget {} {} heldSource {} stopping ?_ ?_ ?_
  · have same : heldSource.store.pins = Store.pin ∅ "_1.seg" := rfl
    rw [same]
    exact Store.isCounted_empty.pin "_1.seg"
  · exact ⟨nofun, nofun, nofun, nofun, nofun, trivial⟩
  · decide +kernel

end Conduct

end ShardSync.Recovery
