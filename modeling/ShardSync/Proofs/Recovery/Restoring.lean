import ShardSync.Proofs.Recovery.Coverage

/-!
# What giving up makes of the engine

A target that fails takes segments which are not live away from the engine. It
does so by building the engine again from the live files, and where they cannot
be read it leaves the engine alone. Until it stages segments it has not touched
the engine, and then there is nothing to take away.
-/

set_option autoImplicit false

namespace ShardSync

/-- Two engines that cannot be told apart by their numbers or by searches. -/
structure Engine.Agrees (first second : Engine) : Prop where
  localCheckpoint : first.localCheckpoint = second.localCheckpoint
  maxSeqNo : first.maxSeqNo = second.maxSeqNo
  documents : ∀ id, (first.get id).1 = (second.get id).1

namespace Engine

theorem Agrees.refl (engine : Engine) : engine.Agrees engine := ⟨rfl, rfl, fun _ => rfl⟩

theorem Agrees.symm {first second : Engine} (agrees : first.Agrees second) :
    second.Agrees first :=
  ⟨agrees.localCheckpoint.symm, agrees.maxSeqNo.symm, fun id => (agrees.documents id).symm⟩

theorem Agrees.trans {first second third : Engine} (earlier : first.Agrees second)
    (later : second.Agrees third) : first.Agrees third :=
  ⟨earlier.localCheckpoint.trans later.localCheckpoint, earlier.maxSeqNo.trans later.maxSeqNo,
    fun id => (earlier.documents id).trans (later.documents id)⟩

/-- Engines that agree agree with the same engines. -/
theorem Agrees.congr {first second : Engine} (agrees : first.Agrees second) (other : Engine) :
    first.Agrees other ↔ second.Agrees other :=
  ⟨agrees.symm.trans, agrees.trans⟩

/-- Which segments can be worked on, and what their numbers say, does not depend
on the generations that were given away before. -/
theorem survey_generation (segments : List Segment) (tracker : Tracker)
    (next other : Generation) :
    (survey segments tracker next).map Prod.fst = (survey segments tracker other).map Prod.fst := by
  induction segments generalizing tracker next other with
  | nil => rfl
  | cons segment segments ih =>
      simp only [survey]
      cases Lookup.ofSegment segment with
      | error error => rfl
      | ok lookup =>
          cases successor? segment.generation with
          | none => rfl
          | some after => exact ih _ _ _

/-- An engine that is given its segments agrees with a new one on them, or
neither can work on them. -/
theorem prepare_cases (engine : Engine) (segments : List Segment) :
    (∃ prepared fresh, engine.prepare segments = .ok prepared ∧
      ofSegments segments = .ok fresh ∧ prepared.Agrees fresh) ∨
    ∃ error other, engine.prepare segments = .error error ∧
      ofSegments segments = .error other := by
  have same := survey_generation segments {} engine.nextGeneration ({} : Engine).nextGeneration
  simp only [ofSegments, prepare]
  cases surveyed : survey segments {} engine.nextGeneration with
  | error error =>
      cases fresh : survey segments {} ({} : Engine).nextGeneration with
      | error other => exact .inr ⟨error, other, rfl, rfl⟩
      | ok outcome =>
          rw [surveyed, fresh] at same
          cases same
  | ok outcome =>
      cases fresh : survey segments {} ({} : Engine).nextGeneration with
      | error other =>
          rw [surveyed, fresh] at same
          cases same
      | ok other =>
          rw [surveyed, fresh] at same
          obtain ⟨tracker, next⟩ := outcome
          obtain ⟨trackerOther, nextOther⟩ := other
          simp only [Except.map, Except.ok.injEq] at same
          subst same
          exact .inl ⟨_, _, rfl, rfl, rfl, rfl, fun _ => rfl⟩

end Engine

namespace Recovery

/-- The engine that can be built from the live files of a store alone. -/
def liveOnly? (store : Store) : Option Engine :=
  (loadSegments store).toOption.bind fun segments => (Engine.ofSegments segments).toOption

theorem liveEngine_cases (copy : ShardCopy) :
    (∃ engine fresh, Receiver.liveEngine copy = .ok engine ∧
      liveOnly? copy.store = some fresh ∧ engine.Agrees fresh) ∨
    ∃ error, Receiver.liveEngine copy = .error error ∧ liveOnly? copy.store = none := by
  simp only [Receiver.liveEngine, liveOnly?]
  cases loadSegments copy.store with
  | error error => exact .inr ⟨error, rfl, rfl⟩
  | ok segments =>
      rcases copy.engine.prepare_cases segments with
        ⟨prepared, fresh, ran, also, agrees⟩ | ⟨error, other, failed, also⟩
      · refine .inl ⟨prepared, fresh, ?_, ?_, agrees⟩
        · simp [bind, Except.bind, ran, Except.mapError]
        · simp [also, Except.toOption]
      · refine .inr ⟨.ofEngine error, ?_, ?_⟩
        · simp [bind, Except.bind, failed, Except.mapError]
        · simp [also, Except.toOption]

namespace Receiver

/-- The engine that the handling of a request leaves behind before a failure is
dealt with. -/
def leaves (receiver : Receiver) : Request → Engine
  | .cancel _ _ _ => receiver.copy.engine
  | .step _ _ _ command => (command.perform.start receiver).2.copy.engine

theorem engine_removeTemps (receiver : Receiver) :
    receiver.removeTemps.copy.engine = receiver.copy.engine := by
  unfold removeTemps
  cases receiver.copy.store.removeTemps receiver.target.recovery with
  | mk outcome store => cases outcome <;> rfl

theorem engine_abort (receiver : Receiver) (description : String) (cancelled : Bool)
    (event : Log.Event) (fields : List (String × String)) :
    (receiver.abort description cancelled event fields).copy.engine =
      receiver.removeTemps.restoreEngine.copy.engine := by
  unfold abort
  dsimp only
  split <;> rfl

/-- Giving up a recovery that has not staged anything leaves the engine alone. -/
theorem engine_abort_of_unstaged {receiver : Receiver}
    (unstaged : receiver.target.hasStaged = false) (description : String) (cancelled : Bool)
    (event : Log.Event) (fields : List (String × String)) :
    (receiver.abort description cancelled event fields).copy.engine = receiver.copy.engine := by
  rw [engine_abort, restoreEngine, target_removeTemps, unstaged, if_neg Bool.false_ne_true,
    engine_removeTemps]

/-- What giving up a recovery leaves of an engine that works on staged segments:
the one that can be built from the live files, or the same one. -/
def Restores (store : Store) (left restored : Engine) : Prop :=
  match liveOnly? store with
  | some fresh => restored.Agrees fresh
  | none => restored = left

theorem engine_abort_of_staged {receiver : Receiver}
    (staged : receiver.target.hasStaged = true) (description : String) (cancelled : Bool)
    (event : Log.Event) (fields : List (String × String)) :
    Restores (receiver.abort description cancelled event fields).copy.store receiver.copy.engine
      (receiver.abort description cancelled event fields).copy.engine := by
  have kept := engine_removeTemps receiver
  rw [store_abort, ← store_removeTemps, engine_abort, restoreEngine, target_removeTemps, staged,
    if_pos rfl, Restores]
  dsimp only
  rcases liveEngine_cases receiver.removeTemps.copy with
    ⟨engine, fresh, built, alone, agrees⟩ | ⟨error, failed, alone⟩
  · rw [built, alone]
    exact agrees
  · rw [failed, alone]
    exact kept

end Receiver

namespace Receiving

/-- What a failure does depends on this part of a receiver. -/
def staging (receiver : Receiver) : Bool × Engine :=
  (receiver.target.hasStaged, receiver.copy.engine)

theorem staging_announce (announcement : Announcement) (totalOps : UInt32) :
    Keeps staging (announce announcement totalOps) := by
  refine .bind .get fun receiver => .bind (.check _) fun _ => .bind (.check _) fun bytes => ?_
  refine .bind (.forM fun file _ => (besidesFiles_stage file).part staging) fun _ => ?_
  refine .bind (.modifyTarget fun _ => rfl) fun _ => .bind (.modifyProgress fun _ => rfl) ?_
  intro _
  exact .bind (.transition fun _ _ => rfl) fun _ => .bind (.log fun _ _ => rfl) fun _ => .pure _

theorem staging_stagedSegment (file : String × String) : Keeps staging (stagedSegment file) := by
  refine .bind .get fun receiver => .bind (.check _) fun content => ?_
  cases Segment.decode content with
  | ok segment => exact .pure segment
  | error error => exact .bind (.log fun _ _ => rfl) fun _ => .throw _

/-- Completing the files gives the engine its segments at the very end, when
nothing can fail any more. -/
theorem staging_filesComplete {startSeqNo : Int64} {totalOps : UInt32} {error : Error}
    {receiver final : Receiver}
    (ran : (filesComplete startSeqNo totalOps).start receiver = (.error error, final)) :
    staging final = staging receiver := by
  unfold filesComplete at ran
  rw [start_get_bind] at ran
  obtain rfl | ⟨_, expected, ran⟩ := check_bind_error ran
  · rfl
  have phase : receiver.phase = .files := Progress.expect_ok expected
  obtain rfl | ⟨_, _, ran⟩ := check_bind_error ran
  · rfl
  obtain rfl | ⟨_, _, ran⟩ := check_bind_error ran
  · rfl
  obtain stopped | ⟨segments, between, read, ran⟩ := bind_error ran
  · exact (Keeps.mapM fun file _ => staging_stagedSegment file).after stopped
  obtain ⟨_, same⟩ := mapM_stagedSegment_ok read
  rw [same, start_get_bind] at ran
  obtain rfl | ⟨engine, _, ran⟩ := check_bind_error ran
  · rfl
  have may : receiver.target.progress.phase.mayBecome .ops = true := by
    rw [show receiver.target.progress.phase = .files from phase]
    rfl
  rw [start_bind_of_ok (start_setEngine _ _), start_bind_of_ok (start_modifyTarget _ _),
    start_bind_of_ok (start_transition ?allowed),
    start_bind_of_ok (start_log _ _ _), start_bind_of_ok (start_log _ _ _), start_pure] at ran
  case allowed => exact may
  cases ran

/-- Operations are replayed only when all files are there. -/
theorem replay_refused {receiver : Receiver} (elsewhere : receiver.phase ≠ .ops)
    (operations : List Operation) (totalOps : UInt32) :
    ∃ error, (replay operations totalOps).start receiver = (.error error, receiver) := by
  have unexpected : ∃ error, receiver.target.progress.expect .ops = .error error :=
    ⟨_, if_neg elsewhere⟩
  obtain ⟨error, unexpected⟩ := unexpected
  unfold replay
  rw [start_get_bind, start_bind, unexpected, start_check]
  exact ⟨error, rfl⟩

end Receiving

namespace Receiver

theorem hasStaged_of_error {command : Command} {error : Error} {receiver between : Receiver}
    (ran : command.perform.start receiver = (.error error, between)) :
    between.target.hasStaged = receiver.target.hasStaged ∧
      (receiver.phase ≠ .ops → between.copy.engine = receiver.copy.engine) := by
  have kept {step : Receiving Reply} (keeps : Receiving.Keeps Receiving.staging step)
      (ran : step.start receiver = (.error error, between)) :
      between.target.hasStaged = receiver.target.hasStaged ∧
        (receiver.phase ≠ .ops → between.copy.engine = receiver.copy.engine) := by
    have same := keeps.after ran
    rw [Receiving.staging, Receiving.staging, Prod.mk.injEq] at same
    exact ⟨same.1, fun _ => same.2⟩
  cases command with
  | announce announcement totalOps => exact kept (Receiving.staging_announce _ _) ran
  | transfer chunk totalOps =>
      exact kept ((Receiving.besidesFiles_transfer chunk).part Receiving.staging) ran
  | filesComplete startSeqNo totalOps =>
      have same := Receiving.staging_filesComplete ran
      rw [Receiving.staging, Receiving.staging, Prod.mk.injEq] at same
      exact ⟨same.1, fun _ => same.2⟩
  | replay operations totalOps =>
      constructor
      · exact ((Receiving.besidesOps_replay operations totalOps).part
          (·.target.hasStaged)).after ran
      · intro elsewhere
        obtain ⟨cause, refused⟩ := Receiving.replay_refused elsewhere operations totalOps
        rw [show (Command.replay operations totalOps).perform.start receiver = _ from refused]
          at ran
        cases ran
        rfl
  | finalize globalCheckpoint =>
      change (Receiving.finalize globalCheckpoint).start receiver = _ at ran
      by_cases ready : receiver.phase = .ops ∧
          receiver.target.opsRecovered = receiver.target.totalOps
      · obtain ⟨journal, _, outcome⟩ := Receiving.start_finalize ready.1 ready.2 globalCheckpoint
        rw [outcome] at ran
        split at ran
        · cases ran
        · cases ran
          exact ⟨rfl, fun _ => rfl⟩
      · obtain ⟨refusal, outcome⟩ := Receiving.finalize_refused ready globalCheckpoint
        rw [outcome] at ran
        cases ran
        exact ⟨rfl, fun _ => rfl⟩

/-- A recovery that is going on. It leaves the engine as it was in the beginning
until it stages segments, which it does before it replays operations. -/
structure Unstaged (origin : Engine) (receiver : Receiver) : Prop where
  going : receiver.isOver = false
  staged : receiver.target.hasStaged = true ↔ receiver.phase = .ops
  engine : receiver.phase ≠ .ops → receiver.copy.engine = origin

theorem Answer.unstaged {origin : Engine} {receiver after : Receiver} {request : Request}
    {reply : Reply} (before : receiver.Unstaged origin)
    (answer : Answer receiver request reply after) (going : after.isOver = false) :
    after.Unstaged origin := by
  cases answer with
  | @cancelled _ _ reason =>
      have failed := phase_cancel before.going reason
      rw [isOver_eq, failed] at going
      cases going
  | refused ended => exact before
  | failed _ ran =>
      rw [isOver_eq, phase_fail before.going ran] at going
      cases going
  | @performed _ _ _ command _ _ _ ran =>
      have unaltered {step : Receiving Reply} (keeps : Receiving.Keeps Receiving.staging step)
          (ran : step.start receiver = (.ok reply, after)) (same : receiver.phase ≠ .ops)
          (moved : after.phase = .files) : after.Unstaged origin := by
        have kept := keeps.of_ok ran
        rw [Receiving.staging, Receiving.staging, Prod.mk.injEq] at kept
        refine ⟨going, ?_, fun _ => kept.2.trans (before.engine same)⟩
        rw [kept.1, before.staged, moved]
        exact iff_of_false same (by decide)
      obtain ⟨needed, reached⟩ := Command.phase_of_ok ran
      cases command with
      | announce announcement totalOps =>
          refine unaltered (Receiving.staging_announce _ _) ran (fun inOps => ?_) reached
          rw [needed] at inOps
          cases inOps
      | transfer chunk totalOps =>
          refine unaltered ((Receiving.besidesFiles_transfer chunk).part Receiving.staging) ran
            (fun inOps => ?_) reached
          rw [needed] at inOps
          cases inOps
      | filesComplete startSeqNo totalOps =>
          obtain ⟨_, _, _, _, _, _, _, _, _, target, _⟩ := Receiving.filesComplete_ok ran
          refine ⟨going, iff_of_true ?_ reached, fun elsewhere => absurd reached elsewhere⟩
          rw [target]
      | replay operations totalOps =>
          have kept := ((Receiving.besidesOps_replay operations totalOps).part
            (·.target.hasStaged)).of_ok ran
          refine ⟨going, iff_of_true ?_ reached, fun elsewhere => absurd reached elsewhere⟩
          exact kept.trans (before.staged.mpr needed)
      | finalize globalCheckpoint =>
          rw [isOver_eq, reached] at going
          cases going

theorem Unstaged.of_same {origin : Engine} {receiver other : Receiver}
    (unstaged : receiver.Unstaged origin) (target : other.target = receiver.target)
    (engine : other.copy.engine = receiver.copy.engine) : other.Unstaged origin := by
  have phase : other.phase = receiver.phase := congrArg (·.progress.phase) target
  refine ⟨?_, ?_, ?_⟩
  · rw [isOver_eq, phase]
    exact unstaged.going
  · rw [target, phase]
    exact unstaged.staged
  · rw [engine, phase]
    exact unstaged.engine

/-- What a recovery leaves of the engine when a request makes it fail. -/
theorem Answer.restores {origin : Engine} {receiver after : Receiver} {request : Request}
    {reply : Reply} (before : receiver.Unstaged origin)
    (answer : Answer receiver request reply after) (failed : after.phase = .failed) :
    (receiver.phase ≠ .ops → after.copy.engine = origin) ∧
      (receiver.phase = .ops →
        Restores after.copy.store (receiver.leaves request) after.copy.engine) := by
  have going := before.going
  cases answer with
  | @cancelled _ _ reason =>
      unfold cancel
      rw [if_neg (by simpa [isOver] using going)]
      constructor
      · intro elsewhere
        rw [engine_abort_of_unstaged, before.engine elsewhere]
        rw [← Bool.not_eq_true, before.staged]
        exact elsewhere
      · intro inOps
        exact engine_abort_of_staged (before.staged.mpr inOps) ..
  | refused ended =>
      rw [going] at ended
      cases ended
  | @performed _ _ _ command _ _ _ ran =>
      rw [(Command.phase_of_ok ran).2] at failed
      cases command <;> cases failed
  | @failed _ _ _ command error between _ ran =>
      obtain ⟨same, untouched⟩ := hasStaged_of_error ran
      constructor
      · intro elsewhere
        rw [fail, engine_abort_of_unstaged, untouched elsewhere, before.engine elsewhere]
        rw [same, ← Bool.not_eq_true, before.staged]
        exact elsewhere
      · intro inOps
        rw [leaves, ran]
        exact engine_abort_of_staged (same.trans (before.staged.mpr inOps)) ..

end Receiver

end Recovery

end ShardSync
