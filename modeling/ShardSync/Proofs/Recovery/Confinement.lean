import ShardSync.Proofs.Recovery.Installation
import ShardSync.Proofs.Store.Temporaries

/-!
# What a recovery leaves alone

Until a recovery is made final, it changes its own temporary files and no
others; then it changes live files as well. It never touches the temporary
files of another recovery, and when it has failed its own are gone.
-/

set_option autoImplicit false

namespace ShardSync.Recovery

/-- The files that a recovery receives are kept under names that it may use. -/
structure Receiver.Owns (recovery : Int64) (within : String → Prop) (receiver : Receiver) :
    Prop where
  numbered : receiver.target.recovery = recovery
  stored : ∀ (name : String) (incoming : Incoming),
    receiver.target.incoming[name]? = some incoming → within incoming.tempName

namespace Receiving

variable {α β : Type} {recovery : Int64} {within : String → Prop}

/-- Whatever comes of the step, it changes no other files than those that the
recovery may use. -/
def Confined (recovery : Int64) (within : String → Prop) (step : Receiving α) : Prop :=
  ∀ receiver : Receiver, receiver.Owns recovery within →
    (step.start receiver).2.Owns recovery within ∧
      Store.Changes within receiver.copy.store (step.start receiver).2.copy.store

/-- The part of a receiver that confinement is about. -/
def holdings (receiver : Receiver) : Int64 × Std.ExtTreeMap String Incoming × Store :=
  (receiver.target.recovery, receiver.target.incoming, receiver.copy.store)

namespace Confined

theorem of_keeps {step : Receiving α} (kept : Keeps holdings step) :
    Confined recovery within step := by
  intro receiver owns
  have same := kept receiver
  simp only [holdings, Prod.mk.injEq] at same
  obtain ⟨sameRecovery, sameIncoming, sameStore⟩ := same
  constructor
  · constructor
    · exact sameRecovery.trans owns.numbered
    · intro name incoming found
      rw [sameIncoming] at found
      exact owns.stored name incoming found
  · rw [sameStore]
    exact .refl _

theorem check (outcome : Except Error α) : Confined recovery within (Receiving.check outcome) :=
  of_keeps (.check outcome)

theorem pure (value : α) : Confined recovery within (Pure.pure value : Receiving α) :=
  of_keeps (.pure value)

theorem throw (error : Error) : Confined recovery within (MonadExcept.throw error : Receiving α) :=
  of_keeps (.throw error)

/-- What follows a step only has to be confined for the values the step returns. -/
theorem bind_of_ok {step : Receiving α} {next : α → Receiving β}
    (first : Confined recovery within step)
    (second : ∀ value receiver between, step.start receiver = (.ok value, between) →
      Confined recovery within (next value)) :
    Confined recovery within (step >>= next) := by
  intro receiver owns
  have confined := first receiver owns
  rw [start_bind]
  cases ran : step.start receiver with
  | mk outcome between =>
      rw [ran] at confined
      cases outcome with
      | error error => exact confined
      | ok value =>
          have later := second value receiver between ran between confined.1
          exact ⟨later.1, confined.2.trans later.2⟩

theorem bind {step : Receiving α} {next : α → Receiving β} (first : Confined recovery within step)
    (second : ∀ value, Confined recovery within (next value)) :
    Confined recovery within (step >>= next) :=
  bind_of_ok first fun value _ _ _ => second value

/-- What a step does next may depend on the receiver it finds. -/
theorem get_bind {next : Receiver → Receiving β}
    (each : ∀ receiver : Receiver, receiver.Owns recovery within →
      Confined recovery within (next receiver)) :
    Confined recovery within ((MonadState.get : Receiving Receiver) >>= next) := by
  intro receiver owns
  rw [start_get_bind]
  exact each receiver owns receiver owns

theorem ite {condition : Prop} [Decidable condition] {first second : Receiving α}
    (left : Confined recovery within first) (right : Confined recovery within second) :
    Confined recovery within (if condition then first else second) := by
  split
  · exact left
  · exact right

theorem forM {items : List α} {step : α → Receiving Unit}
    (each : ∀ item ∈ items, Confined recovery within (step item)) :
    Confined recovery within (items.forM step) := by
  induction items with
  | nil => exact pure ()
  | cons item items ih =>
      rw [List.forall_mem_cons] at each
      rw [List.forM_eq_forM, List.forM_cons]
      exact bind each.1 fun _ => ih each.2

theorem setIncoming {name : String} {incoming : Incoming}
    (own : within incoming.tempName) :
    Confined recovery within (Receiving.modifyTarget fun target =>
      { target with incoming := target.incoming.insert name incoming }) := by
  intro receiver owns
  refine ⟨⟨owns.numbered, fun other entry found => ?_⟩, .refl _⟩
  simp only [start_modifyTarget, Std.ExtTreeMap.getElem?_insert] at found
  split at found
  · cases found
    exact own
  · exact owns.stored other entry found

theorem throughStore {operation : Store → Except StoreError α × Store}
    (changes : ∀ store, Store.Changes within store
      (operation store).2) :
    Confined recovery within (Receiving.throughStore operation) := by
  intro receiver owns
  exact ⟨⟨owns.numbered, owns.stored⟩, changes _⟩

theorem onStore {operation : Store → Except StoreError Store}
    (changes : ∀ store after, operation store = .ok after →
      Store.Changes within store after) :
    Confined recovery within (Receiving.onStore operation) := by
  intro receiver owns
  rw [start_onStore]
  cases performed : operation receiver.copy.store with
  | error error => exact ⟨owns, .refl _⟩
  | ok store => exact ⟨⟨owns.numbered, owns.stored⟩, changes _ _ performed⟩

end Confined

theorem confined_stage {file : String × UInt64}
    (own : within (Store.tempName recovery file.1)) : Confined recovery within (stage file) := by
  unfold stage
  apply Confined.get_bind
  intro receiver owns
  rw [owns.numbered]
  apply Confined.bind
  · exact .throughStore fun store => Store.changes_createSized own _
  · intro _
    exact .setIncoming own

theorem confined_announce {announcement : Announcement}
    (own : ∀ name ∈ announcement.names, within (Store.tempName recovery name))
    (totalOps : UInt32) : Confined recovery within (announce announcement totalOps) := by
  refine .get_bind fun receiver owns => .bind (.check _) fun _ => .bind (.check _) fun bytes => ?_
  apply Confined.bind
  · exact .forM fun file member => confined_stage (own file.1 (List.of_mem_zip member).1)
  · intro _
    apply Confined.of_keeps
    refine .bind (.modifyTarget fun _ => rfl) fun _ => .bind (.modifyProgress fun _ => rfl) ?_
    intro _
    exact .bind (.transition fun _ _ => rfl) fun _ => .bind (.log fun _ _ => rfl) fun _ => .pure _

theorem confined_discard {incoming : Incoming}
    (own : within incoming.tempName) :
    Confined recovery within (discard incoming) := by
  intro receiver owns
  simp only [discard, start_get_bind]
  cases deleted : receiver.copy.store.delete incoming.tempName with
  | error error => exact ⟨⟨owns.numbered, owns.stored⟩, .refl _⟩
  | ok store => exact ⟨⟨owns.numbered, owns.stored⟩, Store.changes_delete own deleted⟩

theorem confined_checkContent {incoming : Incoming}
    (own : within incoming.tempName) (chunk : Chunk) :
    Confined recovery within (checkContent incoming chunk) := by
  refine .ite ?_ (.pure ())
  refine .bind (.of_keeps (.count fun _ => rfl)) fun _ => ?_
  refine .bind (.of_keeps (.log fun _ _ => rfl)) fun _ => ?_
  exact .bind (confined_discard own) fun _ => .throw _

theorem confined_verify {incoming : Incoming}
    (own : within incoming.tempName) (file : FileMetadata) :
    Confined recovery within (verify incoming file) := by
  refine .get_bind fun receiver owns => ?_
  cases receiver.copy.store.verify incoming.tempName file with
  | error error =>
      refine .bind (.of_keeps (.count fun _ => rfl)) fun _ => ?_
      refine .bind (.of_keeps (.log fun _ _ => rfl)) fun _ => ?_
      exact .bind (confined_discard own) fun _ => .throw _
  | ok _ =>
      refine .bind (.setIncoming own) fun _ => .of_keeps ?_
      exact .bind (.modifyProgress fun _ => rfl) fun _ => .log fun _ _ => rfl

theorem tempName_writeChunk {incoming after : Incoming} {chunk : Chunk}
    {receiver final : Receiver}
    (ran : (writeChunk incoming chunk).start receiver = (.ok after, final)) :
    after.tempName = incoming.tempName := by
  unfold writeChunk at ran
  split at ran
  · rw [(pure_ok ran).1]
  · obtain ⟨_, _, _, ran⟩ := bind_ok ran
    obtain ⟨_, _, _, ran⟩ := bind_ok ran
    rw [← (pure_ok ran).1]
    rfl

theorem confined_writeChunk {incoming : Incoming}
    (own : within incoming.tempName) (chunk : Chunk) :
    Confined recovery within (writeChunk incoming chunk) := by
  refine .ite (.pure incoming) ?_
  apply Confined.bind
  · exact .onStore fun store after written => Store.changes_writeAt own written
  · intro _
    exact .bind (.setIncoming own) fun _ => .pure _

theorem confined_transfer (chunk : Chunk) : Confined recovery within (transfer chunk) := by
  refine .get_bind fun receiver owns => .bind (.check _) fun _ => ?_
  cases found : receiver.target.incoming[chunk.file.name]? with
  | none => exact .throw _
  | some incoming =>
      have own := owns.stored _ _ found
      refine .ite ?_ (.pure _)
      refine .bind_of_ok (.check _) fun described _ _ known => ?_
      simp only [start_check, Prod.mk.injEq] at known
      have own : within described.tempName := by
        rw [(describe_ok known.1).1]
        exact own
      refine .bind (.setIncoming own) fun _ => .bind (.check _) fun _ => ?_
      refine .bind (confined_checkContent own chunk) fun _ => ?_
      refine .bind_of_ok (confined_writeChunk own chunk) fun written _ _ wrote => ?_
      have own : within written.tempName := by
        rw [tempName_writeChunk wrote]
        exact own
      exact .ite (.bind (confined_verify own chunk.file) fun _ => .pure _) (.pure _)

theorem holdings_filesComplete (startSeqNo : Int64) (totalOps : UInt32) :
    Keeps holdings (filesComplete startSeqNo totalOps) := by
  have staged (file : String × String) : Keeps holdings (stagedSegment file) := by
    refine .bind .get fun receiver => .bind (.check _) fun content => ?_
    cases Segment.decode content with
    | ok segment => exact .pure segment
    | error error => exact .bind (.log fun _ _ => rfl) fun _ => .throw _
  refine .bind .get fun receiver => .bind (.check _) fun _ => .bind (.check _) fun _ => ?_
  refine .bind (.check _) fun _ => .bind (.mapM fun file _ => staged file) fun segments => ?_
  refine .bind .get fun _ => .bind (.check _) fun _ => .bind (.setEngine fun _ => rfl) fun _ => ?_
  refine .bind (.modifyTarget fun _ => rfl) fun _ => .bind (.transition fun _ _ => rfl) fun _ => ?_
  exact .bind (.log fun _ _ => rfl) fun _ => .bind (.log fun _ _ => rfl) fun _ => .pure _

theorem confined_filesComplete (startSeqNo : Int64) (totalOps : UInt32) :
    Confined recovery within (filesComplete startSeqNo totalOps) :=
  .of_keeps (holdings_filesComplete startSeqNo totalOps)

theorem confined_replay (operations : List Operation) (totalOps : UInt32) :
    Confined recovery within (replay operations totalOps) :=
  .of_keeps ((besidesOps_replay operations totalOps).part holdings)

end Receiving

namespace Receiver

/-- Whether a request makes the recovery final: it asks for that when all
operations have been replayed. -/
def Admits (receiver : Receiver) : Request → Prop
  | .step _ _ _ (.finalize _) =>
      receiver.phase = .ops ∧ receiver.target.opsRecovered = receiver.target.totalOps
  | _ => False

/-- The names of the files that a recovery may change in answer to a request. -/
def MayChange (recovery : Int64) (receiver : Receiver) (request : Request) (name : String) :
    Prop :=
  Store.isTempOf recovery name = true ∨ receiver.Admits request ∧ Store.isTemp name = false

theorem owns_of_sound {recovery : Int64} {receiver : Receiver} (sound : receiver.target.Sound)
    (numbered : receiver.target.recovery = recovery) :
    receiver.Owns recovery (Store.isTempOf recovery · = true) where
  numbered := numbered
  stored name incoming found := by
    rw [sound.stored name incoming found, numbered]
    exact Store.isTempOf_tempName recovery name

theorem changes_perform {recovery : Int64} {receiver : Receiver}
    (numbered : receiver.target.recovery = recovery) (sound : receiver.target.Sound)
    (number other : Int64) (shard : ShardId) (command : Command) :
    (command.perform.start receiver).2.target.recovery = recovery ∧
      Store.Changes (receiver.MayChange recovery (.step number other shard command))
        receiver.copy.store (command.perform.start receiver).2.copy.store := by
  have owns := owns_of_sound sound numbered
  have confined {step : Receiving Reply}
      (kept : Receiving.Confined recovery (Store.isTempOf recovery · = true) step) :
      (step.start receiver).2.target.recovery = recovery ∧
        Store.Changes (receiver.MayChange recovery (.step number other shard command))
          receiver.copy.store (step.start receiver).2.copy.store := by
    obtain ⟨still, changes⟩ := kept receiver owns
    exact ⟨still.numbered, changes.mono fun name own => .inl own⟩
  cases command with
  | announce announcement totalOps =>
      exact confined (Receiving.confined_announce (fun name _ => Store.isTempOf_tempName _ _) _)
  | transfer chunk totalOps => exact confined (Receiving.confined_transfer _)
  | filesComplete startSeqNo totalOps => exact confined (Receiving.confined_filesComplete _ _)
  | replay operations totalOps => exact confined (Receiving.confined_replay _ _)
  | finalize globalCheckpoint =>
      change ((Receiving.finalize globalCheckpoint).start receiver).2.target.recovery = _ ∧
        Store.Changes _ _ ((Receiving.finalize globalCheckpoint).start receiver).2.copy.store
      by_cases ready : receiver.phase = .ops ∧
          receiver.target.opsRecovered = receiver.target.totalOps
      · obtain ⟨journal, _, outcome⟩ :=
          Receiving.start_finalize ready.1 ready.2 globalCheckpoint
        have promoting : Store.Changes
            (receiver.MayChange recovery (.step number other shard (.finalize globalCheckpoint)))
            receiver.copy.store (receiver.copy.store.promote receiver.target.received
              receiver.target.announcedNames).2 := by
          apply Store.changes_promote
          · intro file member
            obtain ⟨incoming, found, same⟩ :=
              Target.mem_received_iff.mp (show (file.1, file.2) ∈ _ from member)
            constructor
            · exact .inr ⟨ready, sound.staging.permanent file member⟩
            · exact .inl (same ▸ owns.stored file.1 incoming found)
          · intro name live
            exact .inr ⟨ready, live⟩
        rw [outcome]
        split
        · next promoted =>
            rw [promoted] at promoting
            exact ⟨numbered, promoting⟩
        · next stopped =>
            rw [stopped] at promoting
            exact ⟨numbered, promoting⟩
      · obtain ⟨error, refused⟩ := Receiving.finalize_refused ready globalCheckpoint
        rw [refused]
        exact ⟨numbered, .refl _⟩

theorem recovery_abort (receiver : Receiver) (description : String) (cancelled : Bool)
    (event : Log.Event) (fields : List (String × String)) :
    (receiver.abort description cancelled event fields).target.recovery =
      receiver.target.recovery := by
  unfold abort
  dsimp only
  split <;> simp [log, logLine]

theorem Answer.recovery_eq {receiver after : Receiver} {request : Request} {reply : Reply}
    (answer : receiver.Answer request reply after) :
    after.target.recovery = receiver.target.recovery := by
  cases answer with
  | cancelled =>
      unfold cancel
      split
      · rfl
      · exact recovery_abort ..
  | refused => rfl
  | performed _ ran => exact ((Receiving.enduring_perform _).part (·.1)).of_ok ran
  | failed _ ran =>
      exact (recovery_abort ..).trans (((Receiving.enduring_perform _).part (·.1)).after ran)

theorem changes_abort (receiver : Receiver) (description : String) (cancelled : Bool)
    (event : Log.Event) (fields : List (String × String)) :
    Store.Changes (fun name => Store.isTempOf receiver.target.recovery name = true)
      receiver.copy.store (receiver.abort description cancelled event fields).copy.store := by
  rw [store_abort]
  exact Store.changes_removeTemps _ _

/-- A recovery that is given up leaves none of its temporary files behind. -/
theorem cleared_abort {receiver : Receiver} (wellNamed : receiver.copy.store.WellNamed)
    (description : String) (cancelled : Bool) (event : Log.Event)
    (fields : List (String × String)) {name : String}
    (own : Store.isTempOf receiver.target.recovery name = true) :
    (receiver.abort description cancelled event fields).copy.store.files[name]? = none := by
  rw [store_abort, Store.files_removeTemps]
  · exact if_pos own
  · intro name there own
    exact wellNamed.isRemovable there (Store.isTemp_of_isTempOf own)

/-- What a recovery can have made of the store that it began with. -/
structure Within (recovery : Int64) (before : Store) (receiver : Receiver) : Prop where
  numbered : receiver.target.recovery = recovery
  sound : receiver.phase ≠ .failed → receiver.target.Sound
  changes : Store.Changes
    (fun name => Store.isTempOf recovery name = true ∨ Store.isTemp name = false)
    before receiver.copy.store
  cleared : receiver.phase = .failed →
    ∀ name, Store.isTempOf recovery name = true → receiver.copy.store.files[name]? = none

namespace Within

variable {recovery : Int64} {before : Store} {receiver between : Receiver}

theorem begun (recovery : Int64) (shard : ShardId) (copy : ShardCopy) (journal : Log.Journal) :
    Within recovery copy.store { target := { recovery, shard }, copy, journal } where
  numbered := rfl
  sound _ := Target.sound_begun recovery shard
  changes := .refl _
  cleared failed := by cases failed

theorem abort (wellNamed : before.WellNamed) (numbered : between.target.recovery = recovery)
    (changes : Store.Changes
      (fun name => Store.isTempOf recovery name = true ∨ Store.isTemp name = false)
      before between.copy.store)
    (going : between.isOver = false) (description : String) (cancelled : Bool)
    (event : Log.Event) (fields : List (String × String)) :
    Within recovery before (between.abort description cancelled event fields) where
  numbered := by rw [recovery_abort, numbered]
  sound lasting := absurd (phase_abort going ..) lasting
  changes :=
    changes.trans ((changes_abort between ..).mono fun name own => .inl (numbered ▸ own))
  cleared _ name own := cleared_abort (wellNamed.changes changes) _ _ _ _ (numbered ▸ own)

/-- The answer to any request keeps within these bounds. -/
theorem answer {after : Receiver} {request : Request} {reply : Reply}
    (wellNamed : before.WellNamed) (within : Within recovery before receiver)
    (answer : Answer receiver request reply after) : Within recovery before after := by
  have wider {request : Request} (name : String)
      (may : receiver.MayChange recovery request name) :
      Store.isTempOf recovery name = true ∨ Store.isTemp name = false := by
    cases may with
    | inl own => exact .inl own
    | inr live => exact .inr live.2
  cases answer with
  | @cancelled _ _ reason =>
      cases ended : receiver.isOver with
      | true =>
          rw [cancel_of_isOver ended]
          exact within
      | false =>
          unfold cancel
          rw [if_neg (by simpa [isOver] using ended)]
          exact abort wellNamed within.numbered within.changes ended ..
  | refused ended => exact within
  | @performed number other shard command _ _ going ran =>
      have sound := within.sound (not_failed_of_going going)
      have changes := changes_perform within.numbered sound number other shard command
      rw [ran] at changes
      refine ⟨changes.1, fun _ => Receiving.sound_perform sound ran,
        within.changes.trans (changes.2.mono wider), fun failed => ?_⟩
      rw [(Command.phase_of_ok ran).2] at failed
      cases command <;> cases failed
  | @failed number other shard command error between going ran =>
      have sound := within.sound (not_failed_of_going going)
      have changes := changes_perform within.numbered sound number other shard command
      rw [ran] at changes
      exact abort wellNamed changes.1 (within.changes.trans (changes.2.mono wider))
        (Receiving.isOver_perform going ran) ..

theorem handleAll (wellNamed : before.WellNamed) (within : Within recovery before receiver)
    (requests : List Request) : Within recovery before (receiver.handleAll requests).2 := by
  induction requests generalizing receiver with
  | nil => exact within
  | cons request requests ih =>
      exact ih (within.answer wellNamed (answer_handle receiver request))

end Within

/-- An answer that does not make the recovery final leaves the live files alone. -/
theorem Answer.live {recovery : Int64} {before : Store} {receiver after : Receiver}
    {request : Request} {reply : Reply} (within : Within recovery before receiver)
    (answer : Answer receiver request reply after) (refused : ¬ receiver.Admits request)
    (name : String) : after.copy.store.live name = receiver.copy.store.live name := by
  have unchanged {step : Request} {between : Receiver} (refused : ¬ receiver.Admits step)
      (changes : Store.Changes (receiver.MayChange recovery step) receiver.copy.store
        between.copy.store) :
      between.copy.store.live name = receiver.copy.store.live name := by
    unfold Store.live
    cases temp : Store.isTemp name with
    | true => rfl
    | false =>
        simp only [Bool.false_eq_true, if_false]
        apply changes.elsewhere
        rintro (own | ⟨admitted, _⟩)
        · rw [Store.isTemp_of_isTempOf own] at temp
          cases temp
        · exact refused admitted
  cases answer with
  | @cancelled _ _ reason =>
      unfold cancel
      split
      · rfl
      · rw [store_abort, Store.live_removeTemps]
  | refused ended => rfl
  | @performed number other shard command _ _ going ran =>
      have changes := changes_perform within.numbered (within.sound (not_failed_of_going going))
        number other shard command
      rw [ran] at changes
      exact unchanged refused changes.2
  | @failed number other shard command error between going ran =>
      have changes := changes_perform within.numbered (within.sound (not_failed_of_going going))
        number other shard command
      rw [ran] at changes
      rw [live_fail]
      exact unchanged refused changes.2

/-- No request of a run makes the recovery final. -/
def Unfinalized (receiver : Receiver) : List Request → Prop
  | [] => True
  | request :: requests =>
      ¬ receiver.Admits request ∧ (receiver.handle request).2.Unfinalized requests

theorem live_handleAll {recovery : Int64} {before : Store} {receiver : Receiver}
    (wellNamed : before.WellNamed) (within : Within recovery before receiver)
    {requests : List Request} (unfinalized : receiver.Unfinalized requests) (name : String) :
    (receiver.handleAll requests).2.copy.store.live name = receiver.copy.store.live name := by
  induction requests generalizing receiver with
  | nil => rfl
  | cons request requests ih =>
      have answer := answer_handle receiver request
      have later := ih (within.answer wellNamed answer) unfinalized.2
      exact later.trans (answer.live within unfinalized.1 name)

/-- A recovery that is over stays as it is. -/
theorem handleAll_of_isOver {receiver : Receiver} (ended : receiver.isOver = true)
    (requests : List Request) : (receiver.handleAll requests).2 = receiver := by
  induction requests with
  | nil => rfl
  | cons request requests ih =>
      have same : (receiver.handle request).2 = receiver := by
        cases request with
        | cancel recovery shard reason => exact cancel_of_isOver ended reason
        | step number recovery shard command =>
            obtain ⟨error, refused⟩ := handle_of_isOver ended number recovery shard command
            rw [refused]
      change ((receiver.handle request).2.handleAll requests).2 = receiver
      rw [same]
      exact ih

/-- Whatever requests a recovery gets: it leaves the live files alone until it
is made final, has no temporary file once it has failed, and never touches the
temporary files of another recovery. -/
theorem confined_handleAll (recovery : Int64) (shard : ShardId) (copy : ShardCopy)
    (journal : Log.Journal) (wellNamed : copy.store.WellNamed) (requests : List Request) :
    let begun : Receiver := { target := { recovery, shard }, copy, journal }
    let after := (begun.handleAll requests).2
    (begun.Unfinalized requests →
      ∀ name, after.copy.store.live name = copy.store.live name) ∧
    (after.phase = .failed → ∀ (later : List Request) (name : String),
      (after.handleAll later).2.phase = .failed ∧
        (after.handleAll later).2.copy.store.files[Store.tempName recovery name]? = none) ∧
    ∀ other : Int64, other ≠ recovery → ∀ name,
      after.copy.store.files[Store.tempName other name]? =
        copy.store.files[Store.tempName other name]? := by
  intro begun after
  have started : Within recovery copy.store begun := .begun recovery shard copy journal
  have within : Within recovery copy.store after := started.handleAll wellNamed requests
  refine ⟨?_, ?_, ?_⟩
  · intro unfinalized name
    exact live_handleAll wellNamed started unfinalized name
  · intro failed later name
    have ended : after.isOver = true := isOver_of_phase failed
    rw [handleAll_of_isOver ended]
    exact ⟨failed, within.cleared failed _ (Store.isTempOf_tempName recovery name)⟩
  · intro other differ name
    apply within.changes.elsewhere
    rintro (own | live)
    · exact differ (Store.isTempOf_unique (Store.isTempOf_tempName other name) own)
    · rw [Store.isTemp_tempName] at live
      cases live

/-- A shard with a live file, and with a temporary file that another recovery
has left behind. -/
def littered : Store where
  files := (∅ : Std.ExtTreeMap String Content)
    |>.insert "stale" (.ofBytes [0x73])
    |>.insert "recovery.7.x" (.ofBytes [0x78])

theorem wellNamed_littered : littered.WellNamed where
  valid name member := by
    simp only [littered, Std.ExtTreeMap.mem_insert, Std.LawfulEqCmp.compare_eq_iff_eq,
      Std.ExtTreeMap.not_mem_empty, or_false] at member
    rcases member with rfl | rfl <;> decide
  unheld name _ := rfl

/-- The requests of a recovery that is cancelled when its files are there. -/
def transferAndCancel : List Request :=
  transferOne ++ [.cancel 77 obstructedShard "enough"]

theorem unfinalized_transferAndCancel (receiver : Receiver) :
    receiver.Unfinalized transferAndCancel := by
  simp only [transferAndCancel, transferOne, List.cons_append, List.nil_append, Unfinalized,
    Admits, not_false_eq_true, and_self]

/-- What becomes of a new recovery of that shard when it is cancelled. -/
def givenUp : Receiver :=
  (Receiver.mk { recovery := 77, shard := obstructedShard } { store := littered } {}
    |>.handleAll transferAndCancel).2

theorem confined_handleAll_littered :
    givenUp.phase = .failed ∧
      (∀ name, givenUp.copy.store.live name = littered.live name) ∧
      givenUp.copy.store.files[Store.tempName 77 "new"]? = none ∧
      givenUp.copy.store.files[Store.tempName 7 "x"]? =
        littered.files[Store.tempName 7 "x"]? := by
  obtain ⟨live, cleared, others⟩ := confined_handleAll 77 obstructedShard { store := littered } {}
    wellNamed_littered transferAndCancel
  have failed : givenUp.phase = .failed := by decide +kernel
  have gone := cleared failed [] "new"
  exact ⟨failed, live (unfinalized_transferAndCancel _), gone.2, others 7 (by decide) "x"⟩

end Receiver

end ShardSync.Recovery
