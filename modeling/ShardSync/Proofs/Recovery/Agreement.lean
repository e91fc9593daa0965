import ShardSync.Proofs.Recovery.Dialogue
import ShardSync.Proofs.Recovery.Division

/-!
# Outcomes

When a session waits for all answers, it and its target come to the same end: the
session asks to finish only when nothing else is to be answered, and it tells the
target of its failure only when the target has not finished.
-/

set_option autoImplicit false

namespace ShardSync.Recovery

theorem Request.kind_of_isOrdinary {request : Request} (ordinary : request.isOrdinary = true) :
    request.isFinal = false ∧ request.isCancel = false := by
  cases request with
  | cancel => cases ordinary
  | step number recovery shard command =>
      cases command with
      | finalize => cases ordinary
      | _ => exact ⟨rfl, rfl⟩

/-- A session that has not failed waits for no answer to a cancellation, and only
one that has asked to finish waits for the answer to that. -/
theorem Sender.Fits.asks {script : Script} {sender : Sender} (fits : sender.Fits script) :
    (sender.isShut = false →
      ∀ sent ∈ sender.delivery.outstanding, sent.request.isCancel = false) ∧
    (sender.isOpen = true ∨ sender.isShut = true →
      ∀ sent ∈ sender.delivery.outstanding, sent.request.isFinal = false) ∧
    (sender.delivery.outstanding.map (·.request)).countP (·.isFinal) ≤ 1 := by
  by_cases isOpen : sender.isOpen = true
  · have kind := fun sent member => Request.kind_of_isOrdinary (fits.ordinary isOpen sent member)
    have none : (sender.delivery.outstanding.map (·.request)).countP (·.isFinal) = 0 := by
      simp only [List.countP_eq_zero, List.forall_mem_map, Bool.not_eq_true]
      exact fun sent member => (kind sent member).1
    exact ⟨fun _ sent member => (kind sent member).2, fun _ sent member => (kind sent member).1,
      none ▸ Nat.zero_le 1⟩
  · cases fits with
    | queued _ stage => simp [Sender.isOpen, stage] at isOpen
    | announcing _ stage => simp [Sender.isOpen, stage] at isOpen
    | sending _ stage => simp [Sender.isOpen, stage] at isOpen
    | completing _ stage => simp [Sender.isOpen, stage] at isOpen
    | replaying _ stage => simp [Sender.isOpen, stage] at isOpen
    | finalizing _ _ _ _ _ stage asked =>
        obtain ⟨number, timeout, asked⟩ := asked
        simp [asked, Request.isCancel, Request.isFinal, Sender.isOpen, Sender.isShut, stage]
    | cancelling _ _ stage asked =>
        obtain ⟨timeout, asked⟩ := asked
        simp [asked, Request.isFinal, Sender.isShut, stage]
    | failed _ _ _ idle => simp [idle]
    | done _ _ _ _ _ _ idle => simp [idle]

namespace Sender

variable {script : Script} {sender : Sender}

theorem Fits.asked_of_finalizing (fits : sender.Fits script)
    (stage : sender.delivery.stage = .finalizing) :
    ∀ sent ∈ sender.delivery.outstanding, sent.request.isFinal = true := by
  cases fits with
  | finalizing _ _ _ _ _ _ asked =>
      obtain ⟨number, timeout, asked⟩ := asked
      rw [asked]
      exact List.forall_mem_singleton.mpr rfl
  | _ => simp_all

theorem Fits.asked_of_cancelling {error : Error} (fits : sender.Fits script)
    (stage : sender.delivery.stage = .cancelling error) :
    ∀ sent ∈ sender.delivery.outstanding,
      sent.request = .cancel script.start.recovery script.start.shard error.detail := by
  cases fits with
  | cancelling _ _ known asked =>
      rw [stage] at known
      cases known
      obtain ⟨timeout, asked⟩ := asked
      rw [asked]
      exact List.forall_mem_singleton.mpr rfl
  | _ => simp_all

theorem Fits.idle_of_ended {result : Except Error Int64} (fits : sender.Fits script)
    (stage : sender.delivery.stage = .ended result) : sender.delivery.outstanding = [] := by
  cases fits with
  | failed _ _ _ idle => exact idle
  | done _ _ _ _ _ _ idle => exact idle
  | _ => simp_all

/-- A session that has succeeded has sent all that it had to. -/
theorem Fits.of_done (fits : sender.Fits script)
    (finished : sender.delivery.session.progress.phase = .done) :
    ∃ checkpoint, sender.delivery.stage = .ended (.ok checkpoint) ∧
      script.agenda? = some sender.delivery.agenda ∧
      sender.delivery.agenda.batches.gap? = none := by
  have past : sender.delivery.session.progress.isTerminal = true := by
    rw [Progress.isTerminal, finished]
    rfl
  have ended {script : Script} (engaged : sender.Engaged script) : False :=
    Bool.noConfusion (engaged.going.symm.trans past)
  cases fits with
  | queued engaged => exact (ended engaged).elim
  | announcing busy => exact (ended busy.toEngaged).elim
  | sending busy => exact (ended busy.toEngaged).elim
  | completing busy => exact (ended busy.toEngaged).elim
  | replaying busy => exact (ended busy.toEngaged).elim
  | finalizing engaged => exact (ended engaged).elim
  | cancelling _ phase => cases finished.symm.trans phase
  | failed _ phase => cases finished.symm.trans phase
  | @done agenda checkpoint _ planned same whole _ stage =>
      subst same
      exact ⟨checkpoint, stage, planned, whole⟩

end Sender

/-- A history without a gap ends where the log of the source ends. -/
theorem Script.highest_of_whole {script : Script} {agenda : Agenda}
    (planned : script.agenda? = some agenda) (keyed : script.source.translog.Keyed)
    (natural : 0 ≤ script.start.startSeqNo) (whole : agenda.batches.gap? = none) :
    agenda.globalCheckpoint = script.start.startSeqNo.toInt + agenda.totalOps.toNat - 1 := by
  obtain ⟨files, operations, _, rfl, short, rfl⟩ := Script.planned_cases planned
  rw [UInt32.toNat_ofNat_of_lt' short]
  exact Batches.highest_of_whole keyed natural whole

namespace Dialogue

variable {script : Script} {place : Place} {before : Store} {dialogue : Dialogue}
  {change : Sender → Sender}

/-- The requests whose answers the session has not taken. -/
def inFlight (dialogue : Dialogue) : List Request :=
  dialogue.requests ++ dialogue.answers.map (·.1)

/-- What holds of a recovery as long as the session waits for its answers. -/
structure Heeds (script : Script) (dialogue : Dialogue) : Prop where
  unfinished : dialogue.sender.isOpen = true ∨ dialogue.sender.isShut = true →
    ¬ dialogue.service.HasEnded script .done ∧
      ∀ request ∈ dialogue.requests, request.isFinal = false
  unasked : dialogue.sender.isOpen = true →
    ∀ request ∈ dialogue.inFlight, request.isFinal = false
  calm : dialogue.sender.isShut = false →
    ∀ request ∈ dialogue.inFlight, request.isCancel = false
  single : dialogue.inFlight.countP (·.isFinal) ≤ 1
  pending : ∀ request ∈ dialogue.requests, request.isFinal = true →
    ¬ dialogue.service.HasEnded script .done
  unacknowledged : ∀ entry ∈ dialogue.answers, entry.1.isFinal = true →
    (∀ checkpoint, entry.2 ≠ .ok (.finalizeAck checkpoint)) →
      ¬ dialogue.service.HasEnded script .done
  heeded : ∀ entry ∈ dialogue.answers, entry.1.isCancel = true → entry.1.IsReadable →
    dialogue.service.HasEnded script .failed
  failed : ∀ error, dialogue.sender.delivery.stage = .ended (.error error) →
    (Request.cancel script.start.recovery script.start.shard error.detail).IsReadable →
      dialogue.service.HasEnded script .failed

theorem sublist_sent (before after : Delivery) :
    (sent before after).Sublist (after.outstanding.map (·.request)) :=
  List.filter_sublist.map _

/-- A session that takes a step has in flight what it had, and what it has sent. -/
theorem mem_inFlight_onSender {answers : List (Request × Except Error Reply)}
    (fewer : answers.Sublist dialogue.answers) {request : Request}
    (member : request ∈ inFlight { dialogue.onSender change with answers }) :
    request ∈ dialogue.inFlight ∨
      ∃ sent ∈ (change dialogue.sender).delivery.outstanding, sent.request = request := by
  simp only [inFlight, onSender, List.mem_append] at member
  rcases member with (earlier | fresh) | answered
  · exact .inl (List.mem_append_left _ earlier)
  · exact .inr (outstanding_of_mem_sent fresh)
  · exact .inl (List.mem_append_right _ ((fewer.map _).subset answered))

theorem countP_inFlight_onSender {answers : List (Request × Except Error Reply)}
    (fewer : answers.Sublist dialogue.answers) :
    (inFlight { dialogue.onSender change with answers }).countP (·.isFinal) ≤
      dialogue.inFlight.countP (·.isFinal) +
        ((change dialogue.sender).delivery.outstanding.map (·.request)).countP (·.isFinal) := by
  simp only [inFlight, onSender, List.countP_append]
  have answered := (fewer.map (·.1)).countP_le (p := (·.isFinal))
  have fresh := (sublist_sent dialogue.sender.delivery
    (change dialogue.sender).delivery).countP_le (p := (·.isFinal))
  omega

theorem countP_answered_pos {answers : List (Request × Except Error Reply)}
    {entry : Request × Except Error Reply} (answered : entry ∈ answers)
    (final : entry.1.isFinal = true) : 0 < (answers.map (·.1)).countP (·.isFinal) :=
  List.countP_pos_iff.mpr ⟨entry.1, List.mem_map_of_mem answered, final⟩

/-- A request that has been answered was in flight before. -/
theorem mem_inFlight_of_delivered {service : Service} {requests : List Request}
    {request other : Request} {answer : Except Error Reply} (member : request ∈ dialogue.requests)
    (fewer : requests ⊆ dialogue.requests)
    (flying : other ∈ inFlight { dialogue with
      service, requests, answers := dialogue.answers ++ [(request, answer)] }) :
    other ∈ dialogue.inFlight := by
  simp only [inFlight, List.map_append, List.mem_append, List.map_singleton,
    List.mem_singleton] at flying ⊢
  rcases flying with earlier | answered | rfl
  · exact .inl (fewer earlier)
  · exact .inr answered
  · exact .inl member

/-- What is left to be delivered. A request to finish arrives only once. -/
theorem requests_of_deliver {requests left : List Request} {request : Request} {index : Nat}
    {again : Bool} (found : requests[index]? = some request)
    (remaining :
      (if again && request.mayRepeat then requests else requests.eraseIdx index) = left) :
    left.Sublist requests ∧
      left.countP (·.isFinal) + [request].countP (·.isFinal) ≤ requests.countP (·.isFinal) := by
  obtain ⟨inside, here⟩ := List.getElem?_eq_some_iff.mp found
  split at remaining
  · next repeats =>
      have ordinary : request.isFinal = false := by
        cases request with
        | cancel => rfl
        | step number recovery shard command =>
            cases command <;> simp_all [Request.mayRepeat, Request.isFinal]
      subst remaining
      simp [ordinary]
  · subst remaining
    have split := (List.getElem_cons_eraseIdx_perm inside).countP_eq (·.isFinal)
    rw [here, List.countP_cons] at split
    simp only [List.countP_singleton]
    exact ⟨List.eraseIdx_sublist _ _, by omega⟩

namespace Heeds

theorem opened {service : Service} (going : service.targets[script.start.recovery]? ≠ none) :
    (Dialogue.opened script service).Heeds script where
  unfinished _ := ⟨fun ended => going ended.1, fun request member => by cases member⟩
  unasked _ request member := by cases member
  calm _ request member := by cases member
  single := Nat.zero_le 1
  pending request member := by cases member
  unacknowledged entry member := by cases member
  heeded entry member := by cases member
  failed error stage := by cases stage

/-- A session that goes on from an open stage, where nothing final is in flight. -/
theorem continued {answers : List (Request × Except Error Reply)} (heeds : dialogue.Heeds script)
    (isOpen : dialogue.sender.isOpen = true)
    (continues : (change dialogue.sender).Continues script)
    (fewer : answers.Sublist dialogue.answers) :
    Heeds script { dialogue.onSender change with answers } := by
  obtain ⟨unfinished, ordinary⟩ := heeds.unfinished (.inl isOpen)
  obtain ⟨calm, ready, single⟩ := continues.1.asks
  have unshut : dialogue.sender.isShut = false := by
    unfold Sender.isOpen at isOpen
    unfold Sender.isShut
    split at isOpen <;> simp_all
  constructor
  case unfinished =>
    refine fun which => ⟨unfinished, fun request member => ?_⟩
    cases List.mem_append.mp member with
    | inl earlier => exact ordinary request earlier
    | inr fresh =>
        obtain ⟨sent, outstanding, rfl⟩ := outstanding_of_mem_sent fresh
        exact ready which sent outstanding
  case unasked =>
    intro still request member
    cases mem_inFlight_onSender fewer member with
    | inl earlier => exact heeds.unasked isOpen request earlier
    | inr fresh =>
        obtain ⟨sent, outstanding, rfl⟩ := fresh
        exact ready (.inl still) sent outstanding
  case calm =>
    intro still request member
    cases mem_inFlight_onSender fewer member with
    | inl earlier => exact heeds.calm unshut request earlier
    | inr fresh =>
        obtain ⟨sent, outstanding, rfl⟩ := fresh
        exact calm still sent outstanding
  case single =>
    have none : dialogue.inFlight.countP (·.isFinal) = 0 := by
      simpa [List.countP_eq_zero] using heeds.unasked isOpen
    have counted := @countP_inFlight_onSender dialogue change answers fewer
    omega
  case pending => exact fun _ _ _ => unfinished
  case unacknowledged => exact fun _ _ _ _ => unfinished
  case heeded =>
    intro entry member cancels
    have quiet := heeds.calm unshut entry.1
      (List.mem_append_right _ (List.mem_map_of_mem (fewer.subset member)))
    rw [quiet] at cancels
    cases cancels
  case failed =>
    intro error stage
    cases continues.2 with
    | inl waiting => simp_all [onSender, Delivery.isWaiting]
    | inr cancelling => simp_all [onSender, Sender.isCancelling]

/-- A step that changes neither the stage of the session nor what it waits for. -/
theorem still (heeds : dialogue.Heeds script)
    (stage : (change dialogue.sender).delivery.stage = dialogue.sender.delivery.stage)
    (same : (change dialogue.sender).delivery.outstanding =
      dialogue.sender.delivery.outstanding) : (dialogue.onSender change).Heeds script := by
  have isOpen : (change dialogue.sender).isOpen = dialogue.sender.isOpen := by
    simp only [Sender.isOpen, stage]
  have isShut : (change dialogue.sender).isShut = dialogue.sender.isShut := by
    simp only [Sender.isShut, stage]
  have requests : (dialogue.onSender change).requests = dialogue.requests := by
    rw [onSender, sent_of_same same, List.append_nil]
  have inFlight : (dialogue.onSender change).inFlight = dialogue.inFlight := by
    rw [Dialogue.inFlight, requests]
    rfl
  refine ⟨?_, ?_, ?_, inFlight ▸ heeds.single, requests ▸ heeds.pending, heeds.unacknowledged,
    heeds.heeded, ?_⟩
  · rw [requests]
    exact isOpen ▸ isShut ▸ heeds.unfinished
  · rw [inFlight]
    exact isOpen ▸ heeds.unasked
  · rw [inFlight]
    exact isShut ▸ heeds.calm
  · exact fun error ended => heeds.failed error (stage ▸ ended)

/-- A session that has nothing more to ask: it is over, or it tells the target of
its failure. -/
theorem closed {answers : List (Request × Except Error Reply)} (heeds : dialogue.Heeds script)
    (fits : (change dialogue.sender).Fits script)
    (isOpen : (change dialogue.sender).isOpen = false)
    (calm : (change dialogue.sender).isShut = false → dialogue.sender.isShut = false)
    (ready : ∀ sent ∈ (change dialogue.sender).delivery.outstanding,
      sent.request.isFinal = false)
    (fewer : answers.Sublist dialogue.answers)
    (unfinished : (change dialogue.sender).isShut = true →
      ¬ dialogue.service.HasEnded script .done ∧
        ∀ request ∈ dialogue.requests, request.isFinal = false)
    (failed : ∀ error, (change dialogue.sender).delivery.stage = .ended (.error error) →
      (Request.cancel script.start.recovery script.start.shard error.detail).IsReadable →
        dialogue.service.HasEnded script .failed) :
    Heeds script { dialogue.onSender change with answers } := by
  have fresh (request : Request)
      (member : request ∈ sent dialogue.sender.delivery (change dialogue.sender).delivery) :
      request.isFinal = false := by
    obtain ⟨sent, outstanding, rfl⟩ := outstanding_of_mem_sent member
    exact ready sent outstanding
  constructor
  case unfinished =>
    intro which
    have shut : (change dialogue.sender).isShut = true :=
      which.resolve_left fun still => Bool.noConfusion (isOpen.symm.trans still)
    obtain ⟨unfinished, ordinary⟩ := unfinished shut
    refine ⟨unfinished, fun request member => ?_⟩
    cases List.mem_append.mp member with
    | inl earlier => exact ordinary request earlier
    | inr later => exact fresh request later
  case unasked => exact fun still => Bool.noConfusion (isOpen.symm.trans still)
  case calm =>
    intro still request member
    cases mem_inFlight_onSender fewer member with
    | inl earlier => exact heeds.calm (calm still) request earlier
    | inr later =>
        obtain ⟨sent, outstanding, rfl⟩ := later
        exact fits.asks.1 still sent outstanding
  case single =>
    have none : ((change dialogue.sender).delivery.outstanding.map (·.request)).countP
        (·.isFinal) = 0 := by
      simpa [List.countP_eq_zero] using ready
    have counted := @countP_inFlight_onSender dialogue change answers fewer
    have single := heeds.single
    omega
  case pending =>
    intro request member final
    cases List.mem_append.mp member with
    | inl earlier => exact heeds.pending request earlier final
    | inr later => exact Bool.noConfusion ((fresh request later).symm.trans final)
  case unacknowledged => exact fun entry member => heeds.unacknowledged entry (fewer.subset member)
  case heeded => exact fun entry member => heeds.heeded entry (fewer.subset member)
  case failed => exact failed

theorem answer (heeds : dialogue.Heeds script) (sustains : dialogue.Sustains script place before)
    (index position : Nat) : (dialogue.answer index position).Heeds script := by
  rcases answer_cases dialogue index position with same | ⟨sent, answer, outstanding, found, same⟩
  · rw [same]
    exact heeds
  · rw [same]
    have waited := List.mem_of_getElem? outstanding
    have entry := List.mem_of_getElem? found
    have fewer := List.eraseIdx_sublist dialogue.answers position
    cases sustains.fits.receives outstanding answer with
    | continued waiting unasked continues =>
        exact heeds.continued (Sender.isOpen_of_waiting waiting unasked) continues fewer
    | acknowledged stage answered fits ended =>
        have idle := fits.idle_of_ended ended
        refine heeds.closed fits ?isOpen ?calm ?ready fewer ?unfinished ?failed
        case isOpen => simp [Sender.isOpen, ended]
        case calm => simp [Sender.isShut, stage]
        case ready => simp [idle]
        case unfinished => simp [Sender.isShut, ended]
        case failed => simp [ended]
    | refused stage answered fits ended =>
        have final := sustains.fits.asked_of_finalizing stage sent waited
        have shut := Sender.isShut_of_isCancelling ended
        refine heeds.closed fits ?isOpen ?calm ?ready fewer ?unfinished ?failed
        case isOpen =>
          unfold Sender.isCancelling at ended
          unfold Sender.isOpen
          split at ended
          · next stage => simp [stage]
          · cases ended
        case calm => exact fun still => Bool.noConfusion (shut.symm.trans still)
        case ready => exact fits.asks.2.1 (.inr shut)
        case unfinished =>
          refine fun _ => ⟨heeds.unacknowledged _ entry final answered, fun request member => ?_⟩
          have asked := countP_answered_pos entry final
          have single := heeds.single
          rw [inFlight, List.countP_append] at single
          have none : dialogue.requests.countP (·.isFinal) = 0 := by omega
          exact Bool.eq_false_iff.mpr (List.countP_eq_zero.mp none request member)
        case failed => exact fun error past => by simp [Sender.isCancelling, past] at ended
    | @released error stage fits ended =>
        have cancels := sustains.fits.asked_of_cancelling stage sent waited
        refine heeds.closed fits ?isOpen ?calm ?ready fewer ?unfinished ?failed
        case isOpen => simp [Sender.isOpen, ended]
        case calm => simp [Sender.isShut, ended]
        case ready => simp [fits.idle_of_ended ended]
        case unfinished => exact fun _ => heeds.unfinished (.inr (by simp [Sender.isShut, stage]))
        case failed =>
          intro other past readable
          rw [ended] at past
          cases past
          rw [← cancels] at readable
          exact heeds.heeded _ entry (by rw [cancels]; rfl) readable

theorem deliver (heeds : dialogue.Heeds script) (sustains : dialogue.Sustains script place before)
    (asked : before.Lists script.start.files) (index : Nat) (again : Bool) :
    (dialogue.deliver index again).Heeds script := by
  unfold Dialogue.deliver
  cases found : dialogue.requests[index]? with
  | none => exact heeds
  | some request =>
      have member := List.mem_of_getElem? found
      have allowed := sustains.allowed request member
      obtain ⟨_, lasting, truthful⟩ := sustains.stands.respond asked allowed
      have unfinished (ordinary : request.isFinal = false) :=
        sustains.stands.respond_unfinished asked allowed fun checkpoint acknowledged =>
          Bool.noConfusion (ordinary.symm.trans (truthful checkpoint acknowledged).1)
      have single := heeds.single
      rw [inFlight, List.countP_append] at single
      dsimp only
      generalize remaining : (if again && request.mayRepeat then dialogue.requests
        else dialogue.requests.eraseIdx index) = requests
      obtain ⟨fewer, counted⟩ := requests_of_deliver found remaining
      constructor
      case unfinished =>
        intro which
        obtain ⟨going, ordinary⟩ := heeds.unfinished which
        exact ⟨unfinished (ordinary request member) going,
          fun other left => ordinary other (fewer.subset left)⟩
      case unasked =>
        intro still other flying
        exact heeds.unasked still other (mem_inFlight_of_delivered member fewer.subset flying)
      case calm =>
        intro still other flying
        exact heeds.calm still other (mem_inFlight_of_delivered member fewer.subset flying)
      case single =>
        simp only [inFlight, List.map_append, List.countP_append, List.map_singleton]
        omega
      case pending =>
        intro other left final
        cases ordinary : request.isFinal with
        | false => exact unfinished ordinary (heeds.pending other (fewer.subset left) final)
        | true =>
            have one : 0 < requests.countP (·.isFinal) :=
              List.countP_pos_iff.mpr ⟨other, left, final⟩
            simp only [List.countP_singleton, ordinary, if_true] at counted
            omega
      case unacknowledged =>
        intro entry answered final refused
        cases List.mem_append.mp answered with
        | inl earlier =>
            cases ordinary : request.isFinal with
            | false => exact unfinished ordinary (heeds.unacknowledged entry earlier final refused)
            | true =>
                have one := countP_answered_pos earlier final
                simp only [List.countP_singleton, ordinary, if_true] at counted
                omega
        | inr fresh =>
            obtain rfl := List.mem_singleton.mp fresh
            exact sustains.stands.respond_unfinished asked allowed refused
              (heeds.pending request member final)
      case heeded =>
        intro entry answered cancels readable
        cases List.mem_append.mp answered with
        | inl earlier => exact lasting _ (heeds.heeded entry earlier cancels readable)
        | inr fresh =>
            obtain rfl := List.mem_singleton.mp fresh
            have shut : dialogue.sender.isShut = true := by
              by_contra calm
              have quiet := heeds.calm (Bool.eq_false_iff.mpr calm) request
                (List.mem_append_left _ member)
              exact Bool.noConfusion (quiet.symm.trans cancels)
            exact sustains.stands.respond_cancelled asked allowed cancels readable
              (heeds.unfinished (.inr shut)).1
      case failed => exact fun error past readable => lasting _ (heeds.failed error past readable)

theorem next (heeds : dialogue.Heeds script) (sustains : dialogue.Sustains script place before)
    (asked : before.Lists script.start.files) {occurrence : Occurrence}
    (faithful : occurrence.isFaithful = true) : (dialogue.next occurrence).Heeds script := by
  cases occurrence with
  | launch =>
      change (dialogue.onSender Sender.launch).Heeds script
      cases sustains.fits.launch with
      | inl same => exact heeds.still (by rw [same]) (by rw [same])
      | inr launched =>
          obtain ⟨stage, continues⟩ := launched
          exact heeds.continued (by simp [Sender.isOpen, stage]) continues (.refl _)
  | cancel reason =>
      change (dialogue.onSender (·.cancel reason)).Heeds script
      exact heeds.still rfl rfl
  | abandon => cases faithful
  | deliver index again => exact heeds.deliver sustains asked index again
  | answer index position => exact heeds.answer sustains index position
  | lose index error => cases faithful

theorem run (heeds : dialogue.Heeds script) (sustains : dialogue.Sustains script place before)
    (asked : before.Lists script.start.files) {occurrences : List Occurrence}
    (faithful : ∀ occurrence ∈ occurrences, occurrence.isFaithful = true) :
    (dialogue.run occurrences).Heeds script := by
  induction occurrences generalizing dialogue with
  | nil => exact heeds
  | cons occurrence occurrences ih =>
      rw [List.forall_mem_cons] at faithful
      exact ih (heeds.next sustains asked faithful.1) (sustains.next asked occurrence) faithful.2

end Heeds

/-- What a session that has succeeded with the given checkpoint has come to. -/
structure Succeeds (start : StartRequest) (dialogue : Dialogue) (checkpoint : Int64) : Prop where
  result : dialogue.sender.delivery.result? = some (.ok checkpoint)
  /-- The checkpoint is the one that the session has asked the target to finish with. -/
  agreed : checkpoint = .ofInt dialogue.sender.delivery.agenda.globalCheckpoint
  done : ∃ progress, dialogue.service.progressOf start.shard start.recovery = some progress ∧
    progress.phase = .done ∧
    progress.opsRecovered = dialogue.sender.delivery.agenda.totalOps.toNat ∧
    progress.opsTotal = dialogue.sender.delivery.agenda.totalOps.toNat
  /-- All files that were announced are there, as they were announced. -/
  files : ∀ file ∈ dialogue.sender.delivery.agenda.inventory.toSend ++
      dialogue.sender.delivery.agenda.inventory.alreadyPresent,
    ∃ content, (dialogue.service.storeOf start.shard).live file.name = some content ∧
      FileMetadata.ofContent file.name content = file

theorem Sustains.succeeds (sustains : dialogue.Sustains script place before)
    (asked : before.Lists script.start.files) (natural : 0 ≤ script.start.startSeqNo)
    (keyed : script.source.translog.Keyed)
    (finished : dialogue.sender.delivery.session.progress.phase = .done) :
    ∃ checkpoint, dialogue.Succeeds script.start checkpoint := by
  obtain ⟨checkpoint, stage, planned, whole⟩ := sustains.fits.of_done finished
  obtain ⟨ended, other, same, answered⟩ := sustains.ended checkpoint stage
  rw [planned, Option.some.injEq] at same
  subst same
  obtain ⟨progress, found, fulfilled⟩ := sustains.stands.fulfilled planned ended
  refine ⟨checkpoint, ?result, ?agreed, ?done, ?files⟩
  case result => rw [Delivery.result?, stage]
  case agreed => rw [answered, Script.highest_of_whole planned keyed natural whole]
  case done =>
    exact ⟨progress, found, fulfilled.phase, fulfilled.opsRecovered, fulfilled.opsTotal⟩
  case files => exact fun file member => fulfilled.described planned asked member

/-- A session that is over has a target that is over, and they have ended alike. -/
theorem Heeds.terminal (heeds : dialogue.Heeds script)
    (sustains : dialogue.Sustains script place before) {result : Except Error Int64}
    (past : dialogue.sender.delivery.result? = some result)
    (readable : ∀ error, result = .error error →
      (Request.cancel script.start.recovery script.start.shard error.detail).IsReadable) :
    ∃ phase, dialogue.sender.delivery.session.progress.phase = phase ∧
      phase.isTerminal = true ∧ dialogue.service.HasEnded script phase := by
  unfold Delivery.result? at past
  split at past
  · next stage =>
      cases past
      cases sustains.fits with
      | failed _ phase known =>
          cases known.symm.trans stage
          exact ⟨.failed, phase, rfl, heeds.failed _ stage (readable _ rfl)⟩
      | done _ _ _ _ phase known =>
          cases known.symm.trans stage
          exact ⟨.done, phase, rfl, (sustains.ended _ stage).1⟩
      | _ => simp_all
  · cases past

/-- A session and its target agree on how the recovery has ended. Whatever becomes
of the messages, a session that succeeds has a target that is done; and if the
session waits for all answers, they end alike, unless the target cannot read that
it has been cancelled. -/
theorem agrees {service started : Service} {shard : ShardId} {node : NodeId} {script : Script}
    (asked : service.startRecovery shard node = (.ok script.start, started))
    (natural : 0 ≤ script.start.startSeqNo) (keyed : script.source.translog.Keyed)
    (occurrences : List Occurrence) :
    let dialogue := (opened script started).run occurrences
    (dialogue.sender.delivery.session.progress.phase = .done →
      ∃ checkpoint, dialogue.Succeeds script.start checkpoint) ∧
    ((∀ occurrence ∈ occurrences, occurrence.isFaithful = true) →
      ∀ result, dialogue.sender.delivery.result? = some result →
        (∀ error, result = .error error →
          script.start.shard.IsReadable ∧ Wire.Reader.IsReadableText error.detail) →
        ∃ progress,
          dialogue.service.progressOf script.start.shard script.start.recovery = some progress ∧
          progress.phase.isTerminal = true ∧
          progress.phase = dialogue.sender.delivery.session.progress.phase) := by
  dsimp only
  obtain ⟨_, lists, place, stands⟩ := Service.stands_started asked
  have sustains := (Sustains.opened stands).run lists occurrences
  refine ⟨sustains.succeeds lists natural keyed, fun faithful result past readable => ?_⟩
  have going : started.targets[script.start.recovery]? ≠ none := by
    obtain ⟨_, _, _, _, _, _, rfl⟩ := Service.startRecovery_ok asked
    rw [Service.opened, Service.modifySlot, Service.targets_insert, if_pos rfl]
    exact Option.some_ne_none _
  have heeds := (Heeds.opened going).run (Sustains.opened stands) lists faithful
  obtain ⟨phase, same, terminal, gone, progress, finished, ended⟩ :=
    heeds.terminal sustains past readable
  refine ⟨progress, ?_, ended ▸ terminal, ended.trans same.symm⟩
  rw [Service.progressOf, gone, finished]
  exact if_pos rfl

/-- A service with one shard, which has taken part in no recovery yet. Some recoveries of
other services have been numbered before. -/
def hosting (issued : Nat) (shard : ShardId) (store : Store) : Service :=
  Service.register {
    node := Watched.receivingNode
    issued
    stores := (∅ : Std.ExtTreeMap String Store).insert "a" store } shard "a" {}

def copied : Operation := { seqNo := 0, primaryTerm := 1, action := .index "a" 1 [] }

/-- A session for that shard. The source holds one file and one operation. -/
def copying (issued : Nat) (shard : ShardId) : Script where
  start := {
    recovery := .ofNat (issued + 1), shard
    source := Watched.receivingNode, target := Watched.receivingNode
    files := [], startSeqNo := 0 }
  settings := {}
  source := {
    store := { files := (∅ : Std.ExtTreeMap String Content).insert "new" (.ofBytes [0x6E]) }
    translog := {
      operations := (∅ : Std.ExtTreeMap Int64 Operation).insert copied.seqNo copied } }

def copiedFiles : List FileMetadata := [⟨"new", 1, checksum [0x6E]⟩]

/-- The session when it has announced what it is going to send. -/
def announcing (issued : Nat) (shard : ShardId) : Sender :=
  .settle ((do Sending.sendFiles; return none : Sending (Option Int64)).start
    { (copying issued shard).opened.begun with
      source.store.pins := (∅ : Std.ExtTreeMap String Nat).insert "new" 1
      delivery.snapshot? := some ⟨copiedFiles⟩
      delivery.agenda := {
        inventory := .diff copiedFiles []
        totalOps := 1
        batches := { batches := [[copied]] }
        globalCheckpoint := 0 } })

theorem launch_copying (issued : Nat) (shard : ShardId) :
    (copying issued shard).opened.launch = announcing issued shard := by
  have taken : (copying issued shard).source.store.takeSnapshot = .ok (⟨copiedFiles⟩,
      { (copying issued shard).source.store with
        pins := (∅ : Std.ExtTreeMap String Nat).insert "new" 1 }) := by
    refine Store.takeSnapshot_eq_ok_iff.2 ⟨?_, rfl⟩
    change (copying 0 default).source.store.liveFiles = .ok copiedFiles
    decide +kernel
  -- What is highest in a tree does not reduce: it is found by well-founded recursion.
  have last : (copying issued shard).opened.source.translog.maxSeqNo = 0 := by
    simp [Translog.maxSeqNo, copying, copied, Script.opened, Std.ExtTreeMap.maxKey?_insert]
  refine Sender.launch_of_planned rfl rfl taken ?_
  unfold Sending.plan
  dsimp only
  rw [last]
  rfl

/-- The session comes to its turn, and then its requests and their answers pass one
after the other. -/
def alternating (count : Nat) : List Occurrence :=
  .launch :: (List.replicate count [.deliver 0 false, .answer 0 0]).flatten

/-- The service when it has begun to recover its shard. -/
def recovering (issued : Nat) (shard : ShardId) (store : Store) : Service :=
  ((hosting issued shard store).startRecovery shard Watched.receivingNode).2

/-- The recovery of that shard, and what has become of it. -/
def exchanged (issued : Nat) (shard : ShardId) (store : Store) (count : Nat) : Dialogue :=
  (opened (copying issued shard) (recovering issued shard store)).run (alternating count)

theorem exchanged_eq (issued : Nat) (shard : ShardId) (store : Store) (count : Nat) :
    exchanged issued shard store count =
      ((opened (copying issued shard) (recovering issued shard store)).onSender
        fun _ => announcing issued shard).run
          (List.replicate count [.deliver 0 false, .answer 0 0]).flatten := by
  rw [← launch_copying]
  rfl

theorem agrees_copying :
    (∃ checkpoint, (exchanged 0 default {} 5).Succeeds (copying 0 default).start checkpoint) ∧
      ∃ progress, (exchanged 0 default {} 5).service.progressOf default 1 = some progress ∧
        progress.phase = .done := by
  have asked : (hosting 0 default {}).startRecovery default Watched.receivingNode =
      (.ok (copying 0 default).start, recovering 0 default {}) := by
    refine Prod.ext ?_ rfl
    decide +kernel
  have keyed : (copying 0 default).source.translog.Keyed :=
    (Translog.keyed_empty none).insert _ none
  obtain ⟨succeeds, alike⟩ := agrees asked (by decide) keyed (alternating 5)
  have past : (exchanged 0 default {} 5).sender.delivery.result? = some (.ok 0) ∧
      (exchanged 0 default {} 5).sender.delivery.session.progress.phase = .done := by
    rw [exchanged_eq]
    decide +kernel
  obtain ⟨progress, found, _, phase⟩ := alike (by decide) (.ok 0) past.1 nofun
  exact ⟨succeeds past.2, progress, found, phase.trans past.2⟩

/-- The number of this shard is too large for a request. The target understands neither
the announcement nor that the session gives up. -/
def unreadable : ShardId := { index := "a", indexUuid := "a", number := 0x80000000 }

theorem parted_of_unreadable :
    (hosting 0 unreadable {}).startRecovery unreadable Watched.receivingNode =
        (.ok (copying 0 unreadable).start, recovering 0 unreadable {}) ∧
      (∀ occurrence ∈ alternating 2, occurrence.isFaithful = true) ∧
      (exchanged 0 unreadable {} 2).requests = [] ∧
      (exchanged 0 unreadable {} 2).sender.delivery.result?.isSome = true ∧
      (exchanged 0 unreadable {} 2).sender.delivery.session.progress.phase = .failed ∧
      ((exchanged 0 unreadable {} 2).service.progressOf unreadable 1).map (·.phase) = some .init := by
  refine ⟨Prod.ext ?_ rfl, by decide, ?_⟩
  · decide +kernel
  · rw [exchanged_eq]
    decide +kernel

end Dialogue

end ShardSync.Recovery
