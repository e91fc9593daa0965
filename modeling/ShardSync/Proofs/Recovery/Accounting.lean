import ShardSync.Proofs.Recovery.Agreement
import ShardSync.Proofs.Recovery.Counters
import ShardSync.Proofs.Recovery.Dues

/-!
# The counts of both sides

A session that has succeeded has counted all that there was to send, and its target
has counted the same files, octets and operations.
-/

set_option autoImplicit false

namespace ShardSync.Recovery

namespace Batches

/-- A history without a gap is divided without a rest. -/
theorem amount_divide {settings : Settings} {expected : Int} {batch : List Operation}
    {bytes : Nat} {operations : List Operation}
    (whole : (divide settings expected batch bytes operations).gap? = none) :
    (divide settings expected batch bytes operations).amount =
      { ops := batch.length + operations.length } := by
  induction operations generalizing expected batch bytes with
  | nil =>
      unfold divide
      cases batch <;> simp [amount]
  | cons operation operations ih =>
      unfold divide at whole ⊢
      dsimp only at whole ⊢
      split at whole
      · cases whole
      · next same =>
          rw [if_neg same]
          split at whole
          · next full =>
              rw [if_pos full]
              have rest := ih whole
              simp only [amount, Amount.mk.injEq, true_and] at rest
              ext <;> simp [push, amount, rest]
              omega
          · next room =>
              rw [if_neg room, ih whole]
              ext <;> simp
              omega

end Batches

/-- All operations of a history without a gap are sent. -/
theorem Script.amount_of_whole {script : Script} {agenda : Agenda}
    (planned : script.agenda? = some agenda) (whole : agenda.batches.gap? = none) :
    agenda.batches.amount = { ops := agenda.totalOps.toNat } := by
  obtain ⟨files, operations, _, _, short, rfl⟩ := planned_cases planned
  rw [Batches.ofHistory, Batches.amount_divide whole, UInt32.toNat_ofNat_of_lt' short]
  simp

namespace Sender

/-- The sessions that can come of a script, whatever they are answered. -/
inductive Reached (script : Script) : Sender → Prop where
  | opened : Reached script script.opened
  | launched {sender : Sender} (reached : Reached script sender) : Reached script sender.launch
  | cancelled {sender : Sender} {reason : String} (reached : Reached script sender) :
      Reached script (sender.cancel reason)
  | abandoned {sender : Sender} (reached : Reached script sender) : Reached script sender.abandon
  | received {sender : Sender} {index : Nat} {answer : Except Error Reply}
      (reached : Reached script sender) : Reached script (sender.receive index answer)

variable {script : Script} {sender : Sender}

theorem Reached.fits (reached : Reached script sender) : sender.Fits script := by
  induction reached with
  | opened => exact fits_opened script
  | launched _ ih =>
      rcases ih.launch with same | ⟨_, launched, _⟩
      · rwa [same]
      · exact launched
  | cancelled _ ih => exact ih.cancel _
  | abandoned _ ih =>
      rcases ih.abandon with same | ⟨_, abandoned, _⟩
      · rwa [same]
      · exact abandoned
  | @received sender index answer _ ih =>
      cases found : sender.delivery.outstanding[index]? with
      | none =>
          unfold Sender.receive
          rwa [found]
      | some sent =>
          cases ih.receives found answer with
          | continued _ _ continues => exact continues.1
          | acknowledged _ _ fits => exact fits
          | refused _ _ fits => exact fits
          | released _ fits => exact fits

theorem Reached.honest (reached : Reached script sender) : sender.Honest := by
  induction reached with
  | opened => exact honest_opened script
  | launched _ ih => exact ih.launch
  | cancelled _ ih => exact ih.cancel _
  | abandoned _ ih => exact ih.abandon
  | received reached ih => exact ih.receive reached.fits _ _

end Sender

/-- All that was announced has been counted. -/
structure Progress.Complete (progress : Progress) : Prop where
  files : progress.filesSent + progress.filesReused = progress.filesTotal
  bytes : progress.bytesTransferred + progress.bytesReused = progress.bytesTotal
  ops : progress.opsRecovered = progress.opsTotal

/-- A session that has succeeded has counted all of its agenda. -/
theorem Sender.Reached.counted {script : Script} {sender : Sender}
    (reached : Reached script sender)
    (finished : sender.delivery.session.progress.phase = .done) :
    script.agenda? = some sender.delivery.agenda ∧
      sender.delivery.session.progress.totals = sender.delivery.agenda.totals ∧
      sender.delivery.session.progress.amount = {
        bytes := sender.delivery.agenda.inventory.bytesToSend
        files := sender.delivery.agenda.inventory.toSend.length
        ops := sender.delivery.agenda.totalOps.toNat } := by
  obtain ⟨checkpoint, ended, planned, whole⟩ := reached.fits.of_done finished
  obtain ⟨announced, counted⟩ := reached.honest.ended checkpoint ended
  refine ⟨planned, announced, ?_⟩
  rw [← add_zero (Progress.amount _), counted, Agenda.amount, Script.amount_of_whole planned whole]
  ext <;> simp [Inventory.amount]

theorem Sender.Reached.complete {script : Script} {sender : Sender}
    (reached : Reached script sender)
    (finished : sender.delivery.session.progress.phase = .done) :
    sender.delivery.session.progress.Complete := by
  obtain ⟨_, announced, counted⟩ := reached.counted finished
  simp only [Progress.totals, Agenda.totals, Totals.mk.injEq] at announced
  simp only [Progress.amount, Amount.mk.injEq] at counted
  obtain ⟨files, filesReused, bytes, bytesReused, ops⟩ := announced
  obtain ⟨transferred, sent, recovered⟩ := counted
  constructor
  · rw [files, filesReused, sent, Inventory.totalFiles]
  · rw [bytes, bytesReused, transferred, Inventory.totalBytes]
  · rw [recovered, ops]

namespace Target

/-- A target of a session counts what the session has announced. -/
structure Tallies (script : Script) (target : Target) : Prop extends target.Counting where
  told : target.progress.phase ≠ .init → target.progress.phase ≠ .failed →
    ∃ agenda, script.agenda? = some agenda ∧ target.progress.totals = agenda.totals

theorem tallies_begun (script : Script) (recovery : Int64) (shard : ShardId) :
    Tallies script { recovery, shard } where
  toCounting := counting_begun recovery shard
  told begun := absurd rfl begun

end Target

theorem sum_lengths (files : List FileMetadata) :
    ((files.map (·.length)).map (·.toNat)).sum = FileMetadata.totalLength files := by
  induction files with
  | nil => rfl
  | cons file files ih =>
      rw [List.map_cons, List.map_cons, List.sum_cons, ih]
      rfl

namespace Receiving

variable {receiver final : Receiver} {reply : Reply}

/-- No command but the announcement changes what was announced. -/
theorem totals_of_ok {command : Command} (ran : command.perform.start receiver = (.ok reply, final))
    (begun : receiver.phase ≠ .init) :
    final.target.progress.totals = receiver.target.progress.totals := by
  cases command with
  | announce => exact absurd (announce_ok ran).1 begun
  | transfer chunk =>
      exact ((besidesFiles_transfer chunk).part (·.target.progress.totals)).of_ok ran
  | filesComplete startSeqNo totalOps =>
      exact congrArg (·.1.totals) ((counts_filesComplete startSeqNo totalOps).of_ok ran)
  | replay operations totalOps =>
      exact ((besidesOps_replay operations totalOps).part (·.target.progress.totals)).of_ok ran
  | finalize globalCheckpoint =>
      exact congrArg (·.1.totals) ((counts_finalize globalCheckpoint).of_ok ran)

theorem totals_announce {agenda : Agenda}
    (ran : (announce agenda.announcement agenda.totalOps).start receiver = (.ok reply, final)) :
    final.target.progress.totals = agenda.totals := by
  obtain ⟨_, _, bytes, between, accepted, _, _, same⟩ := announce_ok ran
  obtain ⟨_, total, reused⟩ := Announcement.sizes_of_accept accepted
  simp only [Agenda.announcement, sum_lengths] at total reused
  rw [same]
  simp [Progress.totals, Progress.setFileTotals, Agenda.totals, Agenda.announcement, total, reused,
    Inventory.totalFiles, Inventory.totalBytes, Inventory.bytesToSend, Inventory.bytesReused]

end Receiving

namespace Receiver

variable {script : Script} {before : Store} {receiver after : Receiver} {request : Request}
  {reply : Reply}

theorem Conforms.tallies (conforms : receiver.Conforms script before)
    (tallies : receiver.target.Tallies script) (allowed : script.Allows request)
    (answer : receiver.Answer request reply after) : after.target.Tallies script := by
  refine ⟨answer.counting (fun _ => conforms.sound) tallies.toCounting, fun begun lasting => ?_⟩
  cases answer with
  | cancelled => exact absurd (phase_cancel conforms.going _) lasting
  | refused ended =>
      rw [conforms.going] at ended
      cases ended
  | failed going ran => exact absurd (phase_fail going ran _) lasting
  | performed going ran =>
      by_cases fresh : receiver.phase = .init
      · cases allowed with
        | step planned permitted =>
            have needs := (Command.phase_of_ok ran).1
            rw [fresh] at needs
            cases permitted with
            | announce => exact ⟨_, planned, Receiving.totals_announce ran⟩
            | _ => cases needs
      · rw [Receiving.totals_of_ok ran fresh]
        exact tallies.told fresh (not_failed_of_going going)

end Receiver

namespace Service

variable {script : Script} {place : Place} {before : Store} {service : Service}
  {request : Request}

/-- The recovery of a session is a target that counts what the session has announced. -/
def Tallies (script : Script) (service : Service) : Prop :=
  ∃ target : Target, target.Tallies script ∧
    service.progressOf script.start.shard script.start.recovery = some target.progress ∧
    ∀ registered, service.targets[script.start.recovery]? = some registered →
      registered.target = target

/-- What is known of the progress of a recovery after a request to it. -/
theorem progressOf_handle {registered : Registered}
    (there : service.targets[request.recovery]? = some registered)
    (own : registered.target.shard = request.shard)
    (slot : service.slotPlace request.shard = some place) :
    let after := ((service.receiver registered).handle request).2
    (service.handle request).2.progressOf request.shard request.recovery =
        some after.target.progress ∧
      ∀ other, (service.handle request).2.targets[request.recovery]? = some other →
        other.target = after.target := by
  intro after
  have moved := (Receiver.answer_handle (service.receiver registered) request).shard
  obtain ⟨gone, finished, _⟩ := ended_worked (own ▸ slot) after moved
  rw [handle_of_registered there own]
  dsimp only
  split
  · rw [progressOf, gone, ← own, finished]
    exact ⟨if_pos rfl, fun _ found => by cases found⟩
  · have found := targets_worked service request.recovery request.recovery registered after
    rw [if_pos rfl] at found
    rw [progressOf, found]
    refine ⟨rfl, ?_⟩
    rintro other same
    cases same
    rfl

theorem Tallies.handle (tallies : service.Tallies script)
    (stands : service.Stands script place before) (allowed : script.Allows request) :
    (service.handle request).2.Tallies script := by
  obtain ⟨recovery, shard⟩ := allowed.ids
  obtain ⟨target, holds, known, same⟩ := tallies
  cases there : service.targets[script.start.recovery]? with
  | none =>
      have stray : (service.handle request).2 = service := by
        refine (handle_of_stray fun registered found => ?_).1
        rw [recovery, there] at found
        cases found
      rw [stray]
      exact ⟨target, holds, known, same⟩
  | some registered =>
      cases stands with
      | failed _ ended => cases ended.1.symm.trans there
      | done _ gone => cases gone.symm.trans there
      | @going other slot found own placed conforms =>
          obtain rfl := Option.some.inj (found.symm.trans there)
          have answer := Receiver.answer_handle (service.receiver other) request
          have here : (service.receiver other).target.Tallies script := by
            rw [← same other there] at holds
            exact holds
          have after := progressOf_handle (recovery ▸ there) (own.trans shard.symm) (shard ▸ slot)
          rw [recovery, shard] at after
          exact ⟨_, conforms.tallies here allowed answer, after⟩

theorem Tallies.respond (tallies : service.Tallies script)
    (stands : service.Stands script place before) (allowed : script.Allows request) :
    (service.respond request).2.Tallies script := by
  by_cases readable : request.IsReadable
  · rw [respond_of_readable readable]
    exact tallies.handle stands allowed
  · obtain ⟨error, refused⟩ := respond_of_unreadable readable service
    rw [refused]
    exact tallies

theorem tallies_started {started : Service} {shard : ShardId} {node : NodeId}
    (asked : service.startRecovery shard node = (.ok script.start, started)) :
    started.Tallies script := by
  obtain ⟨place, _, _, _, _, _, rfl⟩ := startRecovery_ok asked
  have found : ((service.superseded shard).opened shard script.start.recovery
      { target := { recovery := script.start.recovery, shard }, place }).targets[
        script.start.recovery]? =
        some { target := { recovery := script.start.recovery, shard }, place } := by
    rw [opened, modifySlot, targets_insert, if_pos rfl]
  refine ⟨_, Target.tallies_begun script script.start.recovery shard, ?_, ?_⟩
  · rw [progressOf, found]
  · intro registered there
    rw [found] at there
    cases there
    rfl

end Service

namespace Dialogue

variable {script : Script} {place : Place} {before : Store} {dialogue : Dialogue}

/-- Both sides count truly. -/
structure Counts (script : Script) (dialogue : Dialogue) : Prop where
  sender : dialogue.sender.Reached script
  service : dialogue.service.Tallies script

namespace Counts

theorem next (counts : dialogue.Counts script) (sustains : dialogue.Sustains script place before)
    (occurrence : Occurrence) : (dialogue.next occurrence).Counts script := by
  cases occurrence with
  | launch => exact ⟨counts.sender.launched, counts.service⟩
  | cancel reason => exact ⟨counts.sender.cancelled, counts.service⟩
  | abandon => exact ⟨counts.sender.abandoned, counts.service⟩
  | lose index error => exact ⟨counts.sender.received, counts.service⟩
  | deliver index again =>
      change (dialogue.deliver index again).Counts script
      unfold Dialogue.deliver
      cases found : dialogue.requests[index]? with
      | none => exact counts
      | some request =>
          have allowed := sustains.allowed request (List.mem_of_getElem? found)
          exact ⟨counts.sender, counts.service.respond sustains.stands allowed⟩
  | answer index position =>
      change (dialogue.answer index position).Counts script
      rcases answer_cases dialogue index position with same | ⟨_, _, _, _, same⟩
      · rw [same]
        exact counts
      · rw [same]
        exact ⟨counts.sender.received, counts.service⟩

theorem run (counts : dialogue.Counts script) (sustains : dialogue.Sustains script place before)
    (asked : before.Lists script.start.files) (occurrences : List Occurrence) :
    (dialogue.run occurrences).Counts script := by
  induction occurrences generalizing dialogue with
  | nil => exact counts
  | cons occurrence occurrences ih =>
      exact ih (counts.next sustains occurrence) (sustains.next asked occurrence)

end Counts

/-- The two sides have counted the same. -/
structure Balances (sender target : Progress) : Prop where
  totals : target.totals = sender.totals
  files : target.filesSent = sender.filesSent
  ops : target.opsRecovered = sender.opsRecovered

theorem Counts.balances (counts : dialogue.Counts script)
    (sustains : dialogue.Sustains script place before)
    (finished : dialogue.sender.delivery.session.progress.phase = .done) :
    ∃ progress,
      dialogue.service.progressOf script.start.shard script.start.recovery = some progress ∧
      progress.phase = .done ∧
      Balances dialogue.sender.delivery.session.progress progress := by
  obtain ⟨checkpoint, ended, _, _⟩ := sustains.fits.of_done finished
  obtain ⟨⟨gone, progress, kept, phase⟩, _⟩ := sustains.ended checkpoint ended
  obtain ⟨target, tallies, known, _⟩ := counts.service
  have found :
      dialogue.service.progressOf script.start.shard script.start.recovery = some progress := by
    rw [Service.progressOf, gone, kept]
    exact if_pos rfl
  obtain rfl : target.progress = progress := Option.some.inj (known.symm.trans found)
  obtain ⟨planned, announced, counted⟩ := counts.sender.counted finished
  have complete := counts.sender.complete finished
  obtain ⟨agenda, same, told⟩ := tallies.told (by simp [phase]) (by simp [phase])
  obtain rfl : dialogue.sender.delivery.agenda = agenda :=
    Option.some.inj (planned.symm.trans same)
  have totals := told.trans announced.symm
  obtain ⟨files, ops⟩ := tallies.done phase
  simp only [Progress.totals, Totals.mk.injEq] at totals
  obtain ⟨filesTotal, filesReused, _, _, opsTotal⟩ := totals
  refine ⟨_, known, phase, told.trans announced.symm, ?files, ?ops⟩
  case files =>
    have sender := complete.files
    omega
  case ops => rw [ops, opsTotal, complete.ops]

/-- Both sides of a recovery account for all of it. Whatever requests a target gets,
its counts keep within what was announced; whatever a session is answered, it has
counted everything when it succeeds; and then its target has counted the same. -/
theorem accounts {service started : Service} {shard : ShardId} {node : NodeId} {script : Script}
    (asked : service.startRecovery shard node = (.ok script.start, started))
    (occurrences : List Occurrence) :
    let dialogue := (opened script started).run occurrences
    (∀ (recovery : Int64) (shard : ShardId) (target : Target),
      Target.Reached recovery shard target → target.Counted) ∧
    (∀ sender : Sender, sender.Reached script →
      sender.delivery.session.progress.phase = .done →
      sender.delivery.session.progress.Complete) ∧
    (dialogue.sender.delivery.session.progress.phase = .done →
      ∃ progress,
        dialogue.service.progressOf script.start.shard script.start.recovery = some progress ∧
        progress.phase = .done ∧
        Balances dialogue.sender.delivery.session.progress progress) := by
  obtain ⟨_, lists, place, stands⟩ := Service.stands_started asked
  have sustains : (opened script started).Sustains script place (started.storeOf shard) :=
    .opened stands
  have counts : (opened script started).Counts script := ⟨.opened, Service.tallies_started asked⟩
  refine ⟨?target, ?session, ?both⟩
  case target => exact fun _ _ _ reached => reached.counting.toCounted
  case session => exact fun _ reached => reached.complete
  case both =>
    exact (counts.run sustains lists occurrences).balances (sustains.run lists occurrences)

/-- One file with one octet and one operation are sent, and both sides have counted that. -/
theorem accounts_copying :
    (exchanged 0 default {} 5).sender.delivery.session.progress.Complete ∧
      (exchanged 0 default {} 5).sender.delivery.session.progress.amount = ⟨1, 1, 1⟩ ∧
      ∃ progress, (exchanged 0 default {} 5).service.progressOf default 1 = some progress ∧
        progress.phase = .done ∧
        Balances (exchanged 0 default {} 5).sender.delivery.session.progress progress := by
  have asked : (hosting 0 default {}).startRecovery default Watched.receivingNode =
      (.ok (copying 0 default).start, recovering 0 default {}) := by
    refine Prod.ext ?_ rfl
    decide +kernel
  obtain ⟨_, complete, balances⟩ := accounts asked (alternating 5)
  have finished : (exchanged 0 default {} 5).sender.delivery.session.progress.phase = .done ∧
      (exchanged 0 default {} 5).sender.delivery.session.progress.amount = ⟨1, 1, 1⟩ := by
    rw [exchanged_eq]
    decide +kernel
  have counts : (exchanged 0 default {} 5).Counts (copying 0 default) := by
    obtain ⟨_, lists, _, stands⟩ := Service.stands_started asked
    exact Counts.run ⟨.opened, Service.tallies_started asked⟩ (.opened stands) lists _
  exact ⟨complete _ counts.sender finished.1, finished.2, balances finished.1⟩

end Dialogue

end ShardSync.Recovery
