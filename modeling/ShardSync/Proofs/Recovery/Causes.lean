import ShardSync.Proofs.Recovery.Conclusion

/-!
# The failures of a session's own steps

A step that fails says what is wrong, and at most which phase the session is in. Which
recovery of which shard it is, and the phase, are added in one place on the way out.
-/

set_option autoImplicit false

namespace ShardSync.Recovery

/-- A failure that does not say where it arose. -/
structure Error.IsUnplaced (error : Error) : Prop where
  recovery : error.recovery? = none
  shard : error.shard? = none
  phase : error.phase? = none

/-- A failure that says at most that it arose in the given phase. -/
structure Error.ArisesIn (error : Error) (phase : Phase) : Prop where
  recovery : error.recovery? = none
  shard : error.shard? = none
  phase : ∀ known ∈ error.phase?, known = phase

theorem Error.IsUnplaced.arisesIn {error : Error} (unplaced : error.IsUnplaced) (phase : Phase) :
    error.ArisesIn phase :=
  ⟨unplaced.recovery, unplaced.shard, fun known same => by
    rw [unplaced.phase] at same
    cases same⟩

theorem Error.isUnplaced_ofStore (cause : StoreError) : (Error.ofStore cause).IsUnplaced := by
  unfold Error.ofStore
  split <;> exact ⟨rfl, rfl, rfl⟩

namespace Sending

variable {α β : Type}

/-- The step fails only with what arises in the phase that the session is in then. -/
def Raises (step : Sending α) : Prop :=
  ∀ sender error after, step.start sender = (.error error, after) → error.ArisesIn after.phase

theorem Raises.bind {step : Sending α} {next : α → Sending β} (first : Raises step)
    (later : ∀ value, Raises (next value)) : Raises (step >>= next) := by
  intro sender error after failed
  rw [start_bind] at failed
  split at failed
  · exact later _ _ _ _ failed
  · next ran =>
      cases failed
      exact first _ _ _ ran

theorem raises_of_ok {step : Sending α}
    (succeeds : ∀ sender, ∃ value after, step.start sender = (.ok value, after)) :
    Raises step := by
  intro sender error after failed
  obtain ⟨value, between, same⟩ := succeeds sender
  rw [same] at failed
  cases failed

theorem raises_pure (value : α) : Raises (pure value) := raises_of_ok fun _ => ⟨_, _, rfl⟩

theorem raises_get : Raises (get : Sending Sender) := raises_of_ok fun _ => ⟨_, _, rfl⟩

theorem raises_throw {error : Error} (unplaced : error.IsUnplaced) :
    Raises (throw error : Sending α) := by
  intro sender thrown after failed
  cases failed
  exact unplaced.arisesIn _

theorem raises_check {outcome : Except Error α}
    (unplaced : ∀ error, outcome = .error error → error.IsUnplaced) : Raises (check outcome) := by
  intro sender error after failed
  obtain ⟨same, rfl⟩ := Prod.mk.inj failed
  exact (unplaced error same).arisesIn _

theorem raises_checkCancelled : Raises checkCancelled := by
  refine raises_get.bind fun sender => raises_check fun error cancelled => ?_
  unfold Cancellation.check at cancelled
  split at cancelled
  · cases cancelled
  · cases cancelled
    exact ⟨rfl, rfl, rfl⟩

theorem start_transition (phase : Phase) (sender : Sender) :
    (transition phase).start sender =
      match sender.delivery.session.progress.transition phase with
      | .ok progress => (.ok (), { sender with delivery.session.progress := progress })
      | .error error => (.error error, sender) := by
  change (check (sender.delivery.session.progress.transition phase) >>= fun progress =>
    modifyProgress fun _ => progress : Sending Unit).start sender = _
  rw [start_bind]
  cases sender.delivery.session.progress.transition phase <;> rfl

/-- A transition that is refused says from which phase. -/
theorem raises_transition (phase : Phase) : Raises (transition phase) := by
  intro sender error after failed
  rw [start_transition] at failed
  unfold Progress.transition at failed
  split at failed
  · cases failed
  · next refused =>
      split at refused
      · cases refused
      · cases refused
        cases failed
        exact ⟨rfl, rfl, fun known same => by cases same; rfl⟩

theorem raises_closeScope (results : List (String × String)) : Raises (closeScope results) := by
  refine raises_get.bind fun sender => ?_
  dsimp only
  split
  · exact raises_pure ()
  · exact raises_of_ok fun _ => ⟨_, _, rfl⟩

theorem raises_sendFinalize : Raises sendFinalize :=
  (raises_transition .finalize).bind fun _ => raises_of_ok fun _ => ⟨_, _, rfl⟩

theorem raises_sendBatch (rest : Batches) : Raises (sendBatch rest) := by
  unfold sendBatch
  split
  · exact raises_checkCancelled.bind fun _ => raises_of_ok fun _ => ⟨_, _, rfl⟩
  · split
    · exact raises_throw ⟨rfl, rfl, rfl⟩
    · exact raises_get.bind fun _ => (raises_closeScope _).bind fun _ => raises_sendFinalize

theorem raises_sendOperations : Raises sendOperations := by
  refine (raises_transition .ops).bind fun _ => ?_
  refine Raises.bind (raises_of_ok fun _ => ⟨_, _, rfl⟩) fun _ => ?_
  exact raises_get.bind fun _ => raises_sendBatch _

theorem raises_sendPieces (pieces : List Piece) : Raises (sendPieces pieces) := by
  induction pieces with
  | nil =>
      refine raises_get.bind fun sender => ?_
      split <;> exact raises_of_ok fun _ => ⟨_, _, rfl⟩
  | cons piece pieces ih =>
      refine raises_checkCancelled.bind fun _ => raises_get.bind fun sender => ?_
      refine Raises.bind (raises_check fun error failed => ?_) fun chunk => ?_
      · cases cut : piece.chunk sender.source.store with
        | ok => simp [cut, Except.mapError] at failed
        | error cause =>
            simp only [cut, Except.mapError, Except.error.injEq] at failed
            rw [← failed]
            exact Error.isUnplaced_ofStore cause
      · refine Raises.bind (raises_of_ok fun _ => ⟨_, _, rfl⟩) fun _ => ?_
        split
        · exact Raises.bind (raises_of_ok fun _ => ⟨_, _, rfl⟩) fun _ => ih
        · exact raises_of_ok fun _ => ⟨_, _, rfl⟩

theorem raises_sendFiles : Raises sendFiles :=
  (raises_transition .files).bind fun _ => raises_of_ok fun _ => ⟨_, _, rfl⟩

theorem raises_pinFiles : Raises pinFiles := by
  refine raises_get.bind fun sender => Raises.bind (raises_check fun error failed => ?_) fun _ => ?_
  · cases taken : sender.source.store.takeSnapshot with
    | ok => simp [taken, Except.mapError] at failed
    | error cause =>
        simp only [taken, Except.mapError, Except.error.injEq] at failed
        rw [← failed]
        exact Error.isUnplaced_ofStore cause
  · exact raises_of_ok fun _ => ⟨_, _, rfl⟩

theorem raises_begin : Raises begin := by
  refine raises_pinFiles.bind fun files => raises_checkCancelled.bind fun _ => ?_
  refine raises_get.bind fun sender => Raises.bind (raises_check fun error failed => ?_) fun _ => ?_
  · unfold plan at failed
    dsimp only at failed
    split at failed
    · cases failed
    · cases failed
      exact ⟨rfl, rfl, rfl⟩
  · exact Raises.bind (raises_of_ok fun _ => ⟨_, _, rfl⟩) fun _ => raises_sendFiles

theorem raises_acceptChunk (request : Request) (reply : Reply) :
    Raises (acceptChunk request reply) := by
  unfold acceptChunk
  split
  · split
    · exact raises_of_ok fun _ => ⟨_, _, rfl⟩
    · exact raises_throw ⟨rfl, rfl, rfl⟩
  · exact raises_throw ⟨rfl, rfl, rfl⟩

theorem raises_acceptBatch (batch : List Operation) (reply : Reply) :
    Raises (acceptBatch batch reply) := by
  unfold acceptBatch
  dsimp only
  split
  · split
    · exact Raises.bind (raises_throw ⟨rfl, rfl, rfl⟩) fun _ => raises_of_ok fun _ => ⟨_, _, rfl⟩
    · exact raises_of_ok fun _ => ⟨_, _, rfl⟩
  · exact raises_throw ⟨rfl, rfl, rfl⟩

theorem raises_resumePieces (ready? : Option Request) (pieces : List Piece) :
    Raises (resumePieces ready? pieces) := by
  unfold resumePieces
  cases ready? with
  | none => exact raises_sendPieces pieces
  | some request =>
      refine raises_get.bind fun _ => Raises.bind (raises_of_ok fun _ => ⟨_, _, rfl⟩) fun _ => ?_
      exact raises_sendPieces pieces

theorem raises_proceed (request : Request) (reply : Reply) : Raises (proceed request reply) := by
  refine raises_get.bind fun sender => ?_
  dsimp only
  split
  · exact (raises_sendPieces _).bind fun _ => raises_pure none
  · refine (raises_acceptChunk request _).bind fun _ => ?_
    exact (raises_resumePieces _ _).bind fun _ => raises_pure none
  · refine Raises.bind (raises_get.bind fun _ => raises_closeScope _) fun _ => ?_
    exact raises_sendOperations.bind fun _ => raises_pure none
  · refine (raises_acceptBatch _ _).bind fun _ => ?_
    exact (raises_sendBatch _).bind fun _ => raises_pure none
  · refine (raises_transition .done).bind fun _ => ?_
    exact (raises_closeScope _).bind fun _ => raises_pure _
  · exact raises_throw ⟨rfl, rfl, rfl⟩
  · exact raises_throw ⟨rfl, rfl, rfl⟩

end Sending

namespace Sender

variable {sender : Sender} {failure : Failure}

/-- What a session meets of its own accord arises in the phase that it is in. -/
theorem arisesIn_of_failure? {step : Sending (Option Int64)} (raises : Sending.Raises step)
    (met : failure? (step.start sender) = some failure) :
    failure.cause.ArisesIn failure.phase := by
  have ran := raises sender
  generalize step.start sender = outcome at met ran
  obtain ⟨result, after⟩ := outcome
  cases result with
  | error error =>
      cases met
      exact ran _ _ rfl
  | ok result? =>
      cases result? with
      | some checkpoint => cases met
      | none =>
          unfold failure? Cancellation.check at met
          dsimp only at met
          cases reason : after.delivery.session.cancellation.reason? with
          | none => simp [reason] at met
          | some reason =>
              simp only [*] at met
              split at met
              · cases met
                exact Error.IsUnplaced.arisesIn ⟨rfl, rfl, rfl⟩ _
              · cases met

theorem arisesIn_of_opening (met : failure? sender.opening = some failure) :
    failure.cause.ArisesIn failure.phase :=
  arisesIn_of_failure? (Sending.raises_begin.bind fun _ => Sending.raises_pure none) met

/-- A failure arises in the session unless the transport answers with it. -/
theorem failureOf_cases {index : Nat} {answer : Except Error Reply}
    (met : sender.failureOf index answer = some failure) :
    failure.cause.ArisesIn failure.phase ∨ answer = .error failure.cause := by
  unfold failureOf at met
  split at met
  · cases met
  · split at met
    · cases answer with
      | error error =>
          cases met
          exact .inr rfl
      | ok reply => exact .inl (arisesIn_of_failure? (Sending.raises_proceed _ reply) met)
    · cases met

end Sender

end ShardSync.Recovery
