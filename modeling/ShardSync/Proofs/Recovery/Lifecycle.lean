import Mathlib.Data.List.Destutter
import ShardSync.Proofs.Recovery.Confinement
import ShardSync.Proofs.Recovery.Replay

/-!
# The life of a target

Between two requests a target is in one of five phases. It goes through them in one
order: the files are announced, then they are there, then the operations are replayed
and the recovery is done, unless it fails on the way. Once it is over nothing about it
changes any more, and the text of a failed one is that of its first failure.
-/

set_option autoImplicit false

namespace ShardSync.Recovery

namespace Phase

/-- The phases that the requests of a recovery find, if nothing goes wrong. -/
def route : List Phase := [.init, .files, .ops, .done]

/-- How one request can change the phase. -/
inductive Leads : Phase → Phase → Prop where
  | announced : Leads .init .files
  | received : Leads .files .ops
  | finished : Leads .ops .done
  | failed {phase : Phase} (going : phase.isTerminal = false) : Leads phase .failed

theorem Leads.going {before after : Phase} (leads : Leads before after) :
    before.isTerminal = false := by
  cases leads with
  | announced => rfl
  | received => rfl
  | finished => rfl
  | failed going => exact going

theorem nil_of_isTerminal {phase : Phase} {later : List Phase} (ended : phase.isTerminal = true)
    (chain : (phase :: later).IsChain Leads) : later = [] := by
  cases later with
  | nil => rfl
  | cons next later =>
      have going := (List.isChain_cons_cons.mp chain).1.going
      rw [ended] at going
      cases going

/-- Phases that follow each other from the first one on keep to the route, and leave it
at most once, for failure. -/
theorem along_route {later : List Phase} (chain : (.init :: later).IsChain Leads) :
    ∃ passed, passed <+: route ∧
      (.init :: later = passed ∨ .init :: later = passed ++ [.failed] ∧ .done ∉ passed) := by
  -- Beside failure there is one way on from each phase, so this ends after four steps.
  cases later with
  | nil => exact ⟨[.init], by decide, .inl rfl⟩
  | cons second later =>
      obtain ⟨first, chain⟩ := List.isChain_cons_cons.mp chain
      cases first with
      | failed =>
          rw [nil_of_isTerminal rfl chain]
          exact ⟨[.init], by decide, .inr ⟨rfl, by decide⟩⟩
      | announced =>
          cases later with
          | nil => exact ⟨[.init, .files], by decide, .inl rfl⟩
          | cons third later =>
              obtain ⟨next, chain⟩ := List.isChain_cons_cons.mp chain
              cases next with
              | failed =>
                  rw [nil_of_isTerminal rfl chain]
                  exact ⟨[.init, .files], by decide, .inr ⟨rfl, by decide⟩⟩
              | received =>
                  cases later with
                  | nil => exact ⟨[.init, .files, .ops], by decide, .inl rfl⟩
                  | cons fourth later =>
                      obtain ⟨last, chain⟩ := List.isChain_cons_cons.mp chain
                      cases last with
                      | failed =>
                          rw [nil_of_isTerminal rfl chain]
                          exact ⟨[.init, .files, .ops], by decide, .inr ⟨rfl, by decide⟩⟩
                      | finished =>
                          rw [nil_of_isTerminal rfl chain]
                          exact ⟨route, by decide, .inl rfl⟩

/-- Without repetitions, phases that stay or change in this way change at every step. -/
theorem isChain_destutter' {first : Phase} {later : List Phase}
    (chain : (first :: later).IsChain fun before after => after = before ∨ Leads before after) :
    ∃ rest, later.destutter' (· ≠ ·) first = first :: rest ∧ (first :: rest).IsChain Leads := by
  induction later generalizing first with
  | nil => exact ⟨[], rfl, List.isChain_singleton first⟩
  | cons next later ih =>
      obtain ⟨step, chain⟩ := List.isChain_cons_cons.mp chain
      obtain ⟨rest, same, changes⟩ := ih chain
      by_cases stays : first = next
      · subst stays
        exact ⟨rest, by simpa using same, changes⟩
      · have leads : Leads first next := step.resolve_left (Ne.symm stays)
        exact ⟨next :: rest, by simpa [stays] using same, .cons_cons leads changes⟩

end Phase

namespace Command

theorem not_failure_of_ok {command : Command} {reply : Reply} {receiver final : Receiver}
    (ran : command.perform.start receiver = (.ok reply, final)) (code detail : String) :
    reply ≠ .failure code detail := by
  cases command with
  | announce announcement totalOps => simp [(Receiving.announce_ok ran).2.1]
  | transfer chunk totalOps => simp [Receiving.transfer_reply ran]
  | filesComplete startSeqNo totalOps => simp [(Receiving.filesComplete_ok ran).2.1]
  | replay operations totalOps =>
      obtain ⟨_, _, _, _, _, _, _, _, same⟩ := Receiving.replay_eq_ok_iff.mp ran
      simp [same]
  | finalize globalCheckpoint =>
      change (Receiving.finalize globalCheckpoint).start receiver = _ at ran
      by_cases ready : receiver.phase = .ops ∧
          receiver.target.opsRecovered = receiver.target.totalOps
      · obtain ⟨_, _, outcome⟩ := Receiving.start_finalize ready.1 ready.2 globalCheckpoint
        rw [outcome] at ran
        split at ran
        · cases ran
          simp
        · cases ran
      · obtain ⟨_, outcome⟩ := Receiving.finalize_refused ready globalCheckpoint
        rw [outcome] at ran
        cases ran

end Command

namespace Receiver

/-- What holds of a target between two requests. -/
structure Settled (receiver : Receiver) : Prop where
  phase : receiver.phase ≠ .finalize
  failure : receiver.phase = .failed ↔ receiver.target.progress.failure?.isSome = true
  cancelled : receiver.target.progress.isCancelled = true → receiver.phase = .failed

/-- Why a target that is going on fails at a request, if it does. -/
def fault? (receiver : Receiver) : Request → Option String
  | .cancel _ _ reason => some reason
  | .step _ _ _ command =>
      match command.perform.start receiver with
      | (.ok _, _) => none
      | (.error error, between) => some (between.locate error).message

/-- Why the first of some requests fails at which the target was still going on. -/
def firstFault? (receiver : Receiver) : List Request → Option String
  | [] => none
  | request :: requests =>
      if receiver.isOver then none
      else receiver.fault? request <|> (receiver.handle request).2.firstFault? requests

/-- The phases that are seen before the first request and after each of them. -/
def phases (receiver : Receiver) : List Request → List Phase
  | [] => [receiver.phase]
  | request :: requests => receiver.phase :: (receiver.handle request).2.phases requests

theorem settled_begun (recovery : Int64) (shard : ShardId) (copy : ShardCopy)
    (journal : Log.Journal) : Settled { target := { recovery, shard }, copy, journal } where
  phase := by simp [Receiver.phase]
  failure := by simp [Receiver.phase]
  cancelled := by simp

variable {receiver after : Receiver} {request : Request} {reply : Reply}

theorem Settled.of_going (settled : receiver.Settled) (going : receiver.isOver = false) :
    receiver.target.progress.failure? = none ∧
      receiver.target.progress.isCancelled = false := by
  have lasting : receiver.phase ≠ .failed := not_failed_of_going going
  constructor
  · simpa using mt settled.failure.mpr lasting
  · simpa using mt settled.cancelled lasting

/-- A recovery that is given up has the failure for its text. -/
theorem settled_abort (going : receiver.isOver = false)
    (unfailed : receiver.target.progress.failure? = none) (description : String)
    (cancelled : Bool) (event : Log.Event) (fields : List (String × String)) :
    let ended := receiver.abort description cancelled event fields
    ended.Settled ∧ ended.target.progress.failure? = some description := by
  intro ended
  have failed : ended.phase = .failed := phase_abort going ..
  have text : ended.target.progress.failure? = some description := by
    simp [ended, progress_abort going, unfailed]
  refine ⟨⟨?_, ?_, fun _ => failed⟩, text⟩
  · simp [failed]
  · simp [failed, text]

theorem fault?_of_ok {command : Command} (ran : command.perform.start receiver = (.ok reply, after))
    (number recovery : Int64) (shard : ShardId) :
    receiver.fault? (.step number recovery shard command) = none := by
  simp [fault?, ran]

theorem fault?_of_error {command : Command} {error : Error}
    (ran : command.perform.start receiver = (.error error, after))
    (number recovery : Int64) (shard : ShardId) :
    receiver.fault? (.step number recovery shard command) =
      some (after.locate error).message := by
  simp [fault?, ran]

theorem enduring_of_start {command : Command} {outcome : Except Error Reply}
    (ran : command.perform.start receiver = (outcome, after)) :
    after.target.progress.isCancelled = receiver.target.progress.isCancelled ∧
      after.target.progress.failure? = receiver.target.progress.failure? := by
  have kept := (Receiving.enduring_perform command).after ran
  simp only [Receiving.enduring, Prod.mk.injEq] at kept
  exact kept.2.2

/-- A request that a target going on gets leaves it settled, with the text of its failure
if it fails. -/
theorem Answer.settled (answer : receiver.Answer request reply after) (settled : receiver.Settled)
    (going : receiver.isOver = false) :
    after.Settled ∧ after.target.progress.failure? = receiver.fault? request := by
  obtain ⟨unfailed, uncancelled⟩ := settled.of_going going
  cases answer with
  | @cancelled _ _ reason =>
      have aborted := settled_abort going unfailed reason true .recoveryCancelled
        [("reason", reason)]
      have same : receiver.cancel reason =
          receiver.abort reason true .recoveryCancelled [("reason", reason)] :=
        if_neg (by simpa [isOver] using going)
      rw [same]
      exact aborted
  | refused ended =>
      rw [going] at ended
      cases ended
  | @performed number recovery shard command _ _ _ ran =>
      obtain ⟨cancelled, failure⟩ := enduring_of_start ran
      obtain ⟨_, phase⟩ := Command.phase_of_ok ran
      rw [fault?_of_ok ran]
      refine ⟨⟨?_, ?_, ?_⟩, failure.trans unfailed⟩
      · cases command <;> simp [phase, Command.leadsTo]
      · cases command <;> simp [phase, Command.leadsTo, failure, unfailed]
      · simp [cancelled, uncancelled]
  | @failed number recovery shard command error between _ ran =>
      obtain ⟨_, failure⟩ := enduring_of_start ran
      rw [fault?_of_error ran]
      exact settled_abort (Receiving.isOver_perform going ran) (failure.trans unfailed) _ _ _ _

theorem Answer.leads (answer : receiver.Answer request reply after) :
    after.phase = receiver.phase ∨ Phase.Leads receiver.phase after.phase := by
  cases answer with
  | @cancelled _ _ reason =>
      cases ended : receiver.isOver with
      | true => exact .inl (by rw [cancel_of_isOver ended])
      | false =>
          rw [phase_cancel ended]
          exact .inr (.failed ended)
  | refused ended => exact .inl rfl
  | @performed _ _ _ command _ _ going ran =>
      obtain ⟨before, later⟩ := Command.phase_of_ok ran
      rw [before, later]
      cases command with
      | announce => exact .inr .announced
      | transfer => exact .inl rfl
      | filesComplete => exact .inr .received
      | replay => exact .inl rfl
      | finalize => exact .inr .finished
  | @failed _ _ _ command error between going ran =>
      rw [phase_fail going ran]
      exact .inr (.failed going)

/-- Whoever is told of a failure finds the recovery over. -/
theorem Answer.isOver_of_failure (answer : receiver.Answer request reply after)
    {code detail : String} (told : reply = .failure code detail) : after.isOver = true := by
  cases answer with
  | cancelled => cases told
  | refused ended => exact ended
  | performed going ran => exact absurd told (Command.not_failure_of_ok ran code detail)
  | failed going ran =>
      exact isOver_of_phase (phase_fail going ran _)

theorem Settled.handle (settled : receiver.Settled) (request : Request) :
    (receiver.handle request).2.Settled := by
  cases ended : receiver.isOver with
  | true =>
      have same : (receiver.handle request).2 = receiver := handleAll_of_isOver ended [request]
      rwa [same]
  | false => exact ((answer_handle receiver request).settled settled ended).1

theorem Settled.handleAll (settled : receiver.Settled) (requests : List Request) :
    (receiver.handleAll requests).2.Settled := by
  induction requests generalizing receiver with
  | nil => exact settled
  | cons request requests ih => exact ih (settled.handle request)

theorem isChain_phases (receiver : Receiver) (requests : List Request) :
    ∃ later, receiver.phases requests = receiver.phase :: later ∧
      (receiver.phase :: later).IsChain
        fun before after => after = before ∨ Phase.Leads before after := by
  induction requests generalizing receiver with
  | nil => exact ⟨[], rfl, List.isChain_singleton _⟩
  | cons request requests ih =>
      obtain ⟨later, same, chain⟩ := ih (receiver.handle request).2
      exact ⟨_ :: later, congrArg (receiver.phase :: ·) same,
        .cons_cons (answer_handle receiver request).leads chain⟩

theorem firstFault?_of_isOver (ended : receiver.isOver = true) (requests : List Request) :
    receiver.firstFault? requests = none := by
  cases requests <;> simp [firstFault?, ended]

/-- The text of a failure is that of the first request that has failed. -/
theorem Settled.failure?_handleAll (settled : receiver.Settled) (requests : List Request) :
    (receiver.handleAll requests).2.target.progress.failure? =
      (receiver.target.progress.failure? <|> receiver.firstFault? requests) := by
  induction requests generalizing receiver with
  | nil => simp [Receiver.handleAll, firstFault?]
  | cons request requests ih =>
      cases ended : receiver.isOver with
      | true => simp [handleAll_of_isOver ended, firstFault?_of_isOver ended]
      | false =>
          obtain ⟨later, text⟩ := (answer_handle receiver request).settled settled ended
          have rest := ih later
          rw [text] at rest
          simpa [Receiver.handleAll, firstFault?, ended, (settled.of_going ended).1] using rest

/-- Whatever requests a target gets, it goes through its phases in one order and stops at
the first failure, whose text it keeps. Nothing changes any more once it is over. -/
theorem phases_in_order (recovery : Int64) (shard : ShardId) (copy : ShardCopy)
    (journal : Log.Journal) (requests : List Request) :
    let begun : Receiver := { target := { recovery, shard }, copy, journal }
    let after := (begun.handleAll requests).2
    (∃ passed, passed <+: Phase.route ∧
      ((begun.phases requests).destutter (· ≠ ·) = passed ∨
        (begun.phases requests).destutter (· ≠ ·) = passed ++ [.failed] ∧ .done ∉ passed)) ∧
    after.Settled ∧
    after.target.progress.failure? = begun.firstFault? requests ∧
    (∀ (request : Request) (code detail : String),
      (after.handle request).1 = .failure code detail → (after.handle request).2.isOver = true) ∧
    (after.isOver = true → ∀ later, (after.handleAll later).2 = after) := by
  intro begun after
  have settled : begun.Settled := settled_begun recovery shard copy journal
  refine ⟨?_, settled.handleAll requests, settled.failure?_handleAll requests, ?_, ?_⟩
  · obtain ⟨later, same, chain⟩ := isChain_phases begun requests
    obtain ⟨rest, changed, chain⟩ := Phase.isChain_destutter' chain
    rw [same, List.destutter_cons', changed]
    exact Phase.along_route chain
  · intro request code detail told
    exact (answer_handle after request).isOver_of_failure told
  · exact handleAll_of_isOver

/-- A batch that speaks of another number of operations than was announced. -/
def tooMany : Request := .step 4 77 obstructedShard (.replay [] 1)

/-- The recovery fails at the batch, and the later cancellation comes too late. -/
theorem phases_in_order_tooMany :
    let received := (obstructed.handleAll transferOne).2
    let failed := (obstructed.handleAll (transferOne ++ [tooMany])).2
    (received.handle tooMany).1 =
        .failure "RECOVERY_PROTOCOL_VIOLATION" "total operations changed from 0 to 1" ∧
      (received.handle tooMany).2.isOver = true ∧ failed.isOver = true ∧
      (failed.handleAll [.cancel 77 obstructedShard "late"]).2 = failed ∧
      failed.target.progress.failure? = obstructed.firstFault? (transferOne ++ [tooMany]) := by
  intro received failed
  obtain ⟨_, _, _, told, _⟩ := phases_in_order 77 obstructedShard obstructed.copy {} transferOne
  obtain ⟨_, _, text, _, lasting⟩ :=
    phases_in_order 77 obstructedShard obstructed.copy {} (transferOne ++ [tooMany])
  have reply : (received.handle tooMany).1 =
      .failure "RECOVERY_PROTOCOL_VIOLATION" "total operations changed from 0 to 1" := by
    decide +kernel
  have ended : failed.isOver = true := by decide +kernel
  exact ⟨reply, told tooMany _ _ reply, ended, lasting ended _, text⟩

end Receiver

end ShardSync.Recovery
