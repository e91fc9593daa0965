import ShardSync.Proofs.Recovery.Conclusion
import ShardSync.Recovery.Manager

/-!
# The task of a session

Every session has a task of its own. The task waits for one of the permits of its manager,
hands it back when the work is over, counts the session, and takes it off the list of those
that have not ended. A session that is asked to stop while it waits tells the target
without a permit. Other tasks may take their steps in between.
-/

set_option autoImplicit false

namespace ShardSync.Recovery

/-- What a session is counted as that is over. -/
inductive Account where
  | completed
  | failed
  | cancelled
deriving Repr, DecidableEq

def Account.of : Except Error Int64 → Account
  | .ok _ => completed
  | .error error => if error.isCancellation then cancelled else failed

def Tally.of (tally : Tally) : Account → Nat
  | .completed => tally.completed
  | .failed => tally.failed
  | .cancelled => tally.cancelled

/-- How far the task of a session has got. -/
inductive Station where
  | waiting
  /-- It has obtained a permit. -/
  | admitted
  | working
  /-- The session is over, and its permit has not been handed back. -/
  | returned
  /-- The session was asked to stop while it waited. -/
  | refused
  /-- The session is over and has no permit. It has not been counted. -/
  | concluded
  | counted
  | ended
deriving Repr, DecidableEq

namespace Station

def holdsPermit : Station → Bool
  | admitted | working | returned => true
  | _ => false

def hasCounted : Station → Bool
  | counted | ended => true
  | _ => false

/-- Whether work may lead from a station to another one: it takes the permit along, if there
is one, and counts nothing. -/
def LeadsTo (station next : Station) : Prop :=
  next.holdsPermit = station.holdsPermit ∧ station.hasCounted = false ∧ next.hasCounted = false
deriving Decidable

theorem ne_ended_of_uncounted {station : Station} (uncounted : station.hasCounted = false) :
    (station == .ended) = false := by
  cases station <;> first | rfl | cases uncounted

end Station

structure Task where
  delivery : Delivery
  station : Station := .waiting

/-- What the tasks of a manager share. -/
structure Commons where
  permits : Nat
  journal : Log.Journal := {}
  /-- The places of the sessions that have not ended, by the numbers of their recoveries. -/
  listed : Std.ExtTreeMap Int64 Nat := ∅

/-- A step of a task that no other task's step comes in between. -/
inductive Act where
  | acquire
  | refuse
  | begin (source : SourceShard)
  | answer (source : SourceShard) (index : Nat) (answer : Except Error Reply)
  /-- The session stops to wait, if somebody has asked it to stop. -/
  | abandon (source : SourceShard)
  | release
  | report
  | remove
  /-- Somebody asks the session to stop. -/
  | stop (reason : String)

def Commons.tally (commons : Commons) : Tally := Log.tally commons.journal.metrics

namespace Task

def recovery (task : Task) : Int64 := task.delivery.session.recovery

def holdsPermit (task : Task) : Bool := task.station.holdsPermit

def hasEnded (task : Task) : Bool := task.station == .ended

/-- Whether the session has begun to transfer anything and is not over. -/
def isActive (task : Task) : Bool :=
  task.delivery.session.progress.phase != .init && !task.delivery.session.progress.isTerminal

def isCountedAs (account : Account) (task : Task) : Bool :=
  task.station.hasCounted && task.delivery.result?.any (Account.of · == account)

/-- The session at work. Its source is not its own. -/
def sender (task : Task) (commons : Commons) (source : SourceShard) : Sender where
  delivery := task.delivery
  source
  journal := commons.journal

/-- The session has done some work. Then it is over, or it is not. -/
def left (commons : Commons) (after : Sender) (finished going : Station) : Task × Commons :=
  ({ delivery := after.delivery
     station := if after.delivery.result?.isSome then finished else going },
    { commons with journal := after.journal })

/-- What comes of a step that the task can take. -/
def step (task : Task) (commons : Commons) (act : Act) : Option (Task × Commons) :=
  match task.station, act with
  | .waiting, .acquire =>
      match task.delivery.session.cancellation.check, commons.permits with
      | .ok (), permits + 1 =>
          let begun := (task.sender commons {}).begun
          some ({ delivery := begun.delivery, station := .admitted },
            { commons with permits, journal := begun.journal })
      | _, _ => none
  | .waiting, .refuse =>
      match task.delivery.session.cancellation.check with
      | .ok () => none
      | .error error =>
          some (left commons ((task.sender commons {}).fail error) .concluded .refused)
  | .admitted, .begin source =>
      some (left commons (Sender.takeIn (task.sender commons source).opening) .returned .working)
  | .working, .answer source index answer =>
      some (left commons ((task.sender commons source).take index answer) .returned .working)
  | .working, .abandon source =>
      some (left commons (Sender.takeIn (.ok none, task.sender commons source)) .returned .working)
  | .refused, .answer source index answer =>
      some (left commons ((task.sender commons source).take index answer) .concluded .refused)
  | .returned, .release =>
      some ({ task with station := .concluded }, { commons with permits := commons.permits + 1 })
  | .concluded, .report =>
      some ({ task with station := .counted },
        { commons with journal := (task.sender commons {}).reported.journal })
  | .counted, .remove =>
      some ({ task with station := .ended },
        { commons with listed := commons.listed.erase task.recovery })
  | _, .stop reason => some ({ task with delivery := (task.delivery.cancel reason).2 }, commons)
  | _, _ => none

/-- The session by itself. -/
def bare (task : Task) : Sender where
  delivery := task.delivery
  source := {}

/-- What holds of a session whose task has got to a station. -/
def Stands (task : Task) : Station → Prop
  | .waiting => task.bare.Fresh (·.isLaunched = false)
  | .admitted => task.bare.Fresh (·.isLaunched = true)
  | .working => task.bare.Waits (·.isLaunched = true) ∨
      ∃ error, task.bare.Cancelling (·.isLaunched = true) error
  | .returned => ∃ result, task.bare.Over (·.isLaunched = true) result
  | .refused => ∃ error, task.bare.Cancelling (·.isLaunched = false) error
  | .concluded | .counted | .ended => ∃ result, task.bare.Over (fun _ => True) result

def Sound (task : Task) : Prop := task.Stands task.station

/-- What a step does to the task is what it does to the permits, the counters and the list. -/
structure Trades (task : Task) (commons : Commons) (after : Task) (later : Commons) : Prop where
  recovery : after.recovery = task.recovery
  permits : later.permits + after.holdsPermit.toNat = commons.permits + task.holdsPermit.toNat
  started : later.tally.started + task.delivery.isLaunched.toNat =
    commons.tally.started + after.delivery.isLaunched.toNat
  counted (account : Account) : later.tally.of account + (task.isCountedAs account).toNat =
    commons.tally.of account + (after.isCountedAs account).toNat
  listed : later.listed = commons.listed ∧ after.hasEnded = task.hasEnded ∨
    later.listed = commons.listed.erase task.recovery ∧
      task.hasEnded = false ∧ after.hasEnded = true
  stays : task.delivery.isLaunched = true → after.delivery.isLaunched = true
  launched : after.delivery.isLaunched = true →
    task.delivery.isLaunched = true ∨ after.holdsPermit = true

/-- What the work of a session leaves alone. -/
def Untouched (task : Task) (commons : Commons) (isLaunched : Bool) (basis : Basis) : Prop :=
  basis.recovery = task.recovery ∧ basis.isLaunched = isLaunched ∧ basis.tally = commons.tally

variable {task after : Task} {commons later : Commons}

theorem Trades.of_same (recovery : after.recovery = task.recovery)
    (held : after.holdsPermit = task.holdsPermit) (ended : after.hasEnded = task.hasEnded)
    (counted : ∀ account, after.isCountedAs account = task.isCountedAs account)
    (launched : after.delivery.isLaunched = task.delivery.isLaunched)
    (permits : later.permits = commons.permits) (tally : later.tally = commons.tally)
    (listed : later.listed = commons.listed) : task.Trades commons after later where
  recovery := recovery
  permits := by rw [permits, held]
  started := by rw [tally, launched]
  counted account := by rw [tally, counted]
  listed := .inl ⟨listed, ended⟩
  stays before := by rw [launched, before]
  launched later := .inl (launched ▸ later)

theorem trades_left {sender : Sender} {station finished going : Station} {isLaunched : Bool}
    (basis : Untouched task commons isLaunched sender.basis)
    (launched : task.delivery.isLaunched = isLaunched) (place : task.station = station)
    (leads : station.LeadsTo finished ∧ station.LeadsTo going) :
    task.Trades commons (left commons sender finished going).1
      (left commons sender finished going).2 := by
  obtain ⟨recovery, still, tally⟩ := basis
  have next : task.station.LeadsTo (left commons sender finished going).1.station := by
    rw [place, left]
    dsimp only
    split
    · exact leads.1
    · exact leads.2
  obtain ⟨held, uncounted, stays⟩ := next
  refine .of_same recovery held ?_ (fun account => ?_) (still.trans launched.symm) rfl tally rfl
  · rw [hasEnded, hasEnded, Station.ne_ended_of_uncounted uncounted,
      Station.ne_ended_of_uncounted stays]
  · rw [isCountedAs, isCountedAs, uncounted, stays, Bool.false_and, Bool.false_and]

theorem Untouched.released {isLaunched : Bool} (basis : Basis)
    (untouched : Untouched task commons isLaunched basis) :
    Untouched task commons isLaunched basis.released := by
  unfold Basis.released
  split <;> exact untouched

section AtWork

/-! At work a session is what it is by itself. -/

variable {isLaunched : Bool} (commons : Commons) (source : SourceShard)

theorem fresh_sender (fresh : task.bare.Fresh (·.isLaunched = isLaunched)) :
    (task.sender commons source).Fresh (Untouched task commons isLaunched) :=
  fresh.moved rfl ⟨rfl, fresh.basis, rfl⟩

theorem waits_sender (waits : task.bare.Waits (·.isLaunched = isLaunched)) :
    (task.sender commons source).Waits (Untouched task commons isLaunched) :=
  waits.moved rfl ⟨rfl, waits.basis, rfl⟩

theorem cancelling_sender {error : Error}
    (cancelling : task.bare.Cancelling (·.isLaunched = isLaunched) error) :
    (task.sender commons source).Cancelling (Untouched task commons isLaunched) error :=
  cancelling.moved rfl ⟨rfl, cancelling.basis, rfl⟩

end AtWork

/-- What a step keeps of a task, and what it does besides. -/
def Advances (task : Task) (commons : Commons) (next : Task × Commons) : Prop :=
  next.1.Sound ∧ task.Trades commons next.1 next.2

theorem advances_acquire (fresh : task.bare.Fresh (·.isLaunched = false))
    (place : task.station = .waiting) {permits : Nat} (free : commons.permits = permits + 1) :
    task.Advances commons
      ({ delivery := (task.sender commons {}).begun.delivery, station := .admitted },
        { commons with permits, journal := (task.sender commons {}).begun.journal }) := by
  have unlaunched : task.delivery.isLaunched = false := fresh.basis
  refine ⟨⟨⟨fresh.going, fresh.calm, fresh.ordinary, rfl⟩, fresh.phase, fresh.stage, fresh.idle⟩,
    ⟨rfl, ?_, ?_, fun account => ?_, .inl ⟨rfl, ?_⟩, fun _ => rfl, fun _ => .inr rfl⟩⟩
  · rw [free, holdsPermit, holdsPermit, place]
    rfl
  · rw [unlaunched]
    rfl
  · rw [isCountedAs, place]
    cases account <;> rfl
  · rw [hasEnded, hasEnded, place]
    rfl

theorem advances_refuse (fresh : task.bare.Fresh (·.isLaunched = false))
    (place : task.station = .waiting) (error : Error) :
    task.Advances commons
      (left commons ((task.sender commons {}).fail error) .concluded .refused) := by
  cases (fresh_sender commons {} fresh).toUnderway.fail error with
  | @fails _ _ located _ cancelling =>
      refine ⟨?_, trades_left cancelling.basis fresh.basis place (by decide)⟩
      rw [left, cancelling.result?]
      exact ⟨located, cancelling.moved rfl cancelling.basis.2.1⟩

/-- A session that holds a permit does some work. -/
theorem advances_of_settles {sender : Sender} {met : Option Failure} {station : Station}
    (settles : sender.Settles (Untouched task commons true) met)
    (launched : task.delivery.isLaunched = true) (place : task.station = station)
    (leads : station.LeadsTo .returned ∧ station.LeadsTo .working) :
    task.Advances commons (left commons sender .returned .working) := by
  refine ⟨?_, trades_left settles.basis launched place leads⟩
  cases settles with
  | waits waits =>
      rw [left, waits.result?]
      exact .inl (waits.moved rfl waits.basis.2.1)
  | @fails _ _ error _ cancelling =>
      rw [left, cancelling.result?]
      exact .inr ⟨error, cancelling.moved rfl cancelling.basis.2.1⟩
  | @finishes _ checkpoint finished =>
      rw [left, finished.result?]
      exact ⟨.ok checkpoint, finished.moved rfl finished.basis.2.1⟩

theorem advances_begin (fresh : task.bare.Fresh (·.isLaunched = true))
    (place : task.station = .admitted) (source : SourceShard) :
    task.Advances commons
      (left commons (Sender.takeIn (task.sender commons source).opening) .returned .working) := by
  have settles := (fresh_sender commons source fresh).begin Untouched.released
    fun _ _ _ => ⟨rfl, fresh.basis, rfl⟩
  exact advances_of_settles settles fresh.basis place (by decide)

/-- The target has been told that the session gives up, and answers or does not. -/
theorem advances_cancelling {error : Error} {isLaunched : Bool} {finished going : Station}
    (cancelling : task.bare.Cancelling (·.isLaunched = isLaunched) error)
    (place : task.station = going) (leads : going.LeadsTo finished ∧ going.LeadsTo going)
    (concludes : ∀ {sender : Sender}, sender.Over (·.isLaunched = isLaunched) (.error error) →
      Sound ⟨sender.delivery, finished⟩)
    (stays : task.Sound) (source : SourceShard) (index : Nat) (answer : Except Error Reply) :
    task.Advances commons
      (left commons ((task.sender commons source).take index answer) finished going) := by
  have launched : task.delivery.isLaunched = isLaunched := cancelling.basis
  have cancelling := cancelling_sender commons source cancelling
  rcases cancelling.take Untouched.released index answer with same | finished
  · rw [same]
    refine ⟨?_, trades_left cancelling.basis launched place leads⟩
    rw [left, cancelling.result?]
    subst place
    exact stays
  · refine ⟨?_, trades_left finished.basis launched place leads⟩
    rw [left, finished.result?]
    exact concludes (finished.moved rfl finished.basis.2.1)

theorem advances_answer (working : task.bare.Waits (·.isLaunched = true) ∨
      ∃ error, task.bare.Cancelling (·.isLaunched = true) error)
    (place : task.station = .working) (stays : task.Sound) (source : SourceShard) (index : Nat)
    (answer : Except Error Reply) :
    task.Advances commons
      (left commons ((task.sender commons source).take index answer) .returned .working) := by
  rcases working with waits | ⟨error, cancelling⟩
  · have settles := (waits_sender commons source waits).take Untouched.released index answer
    exact advances_of_settles settles waits.basis place (by decide)
  · have ended {sender : Sender} (finished : sender.Over (·.isLaunched = true) (.error error)) :
        Sound ⟨sender.delivery, .returned⟩ := ⟨.error error, finished.moved rfl finished.basis⟩
    exact advances_cancelling cancelling place (by decide) ended stays source index answer

theorem advances_abandon (working : task.bare.Waits (·.isLaunched = true) ∨
      ∃ error, task.bare.Cancelling (·.isLaunched = true) error)
    (place : task.station = .working) (source : SourceShard) :
    task.Advances commons
      (left commons (Sender.takeIn (.ok none, task.sender commons source)) .returned .working) := by
  rcases working with waits | ⟨error, cancelling⟩
  · exact advances_of_settles (waits_sender commons source waits).abandon waits.basis place
      (by decide)
  · have same := cancelling_sender commons source cancelling
    have launched : task.delivery.isLaunched = true := cancelling.basis
    rw [Sender.takeIn_of_not_waiting (by rw [Delivery.isWaiting, same.stage])]
    refine ⟨?_, trades_left same.basis launched place (by decide)⟩
    rw [left, same.result?]
    exact .inr ⟨error, cancelling⟩

/-- A session counts as one of what it comes to, and as nothing else. -/
theorem tally_report (sender : Sender) (result : Except Error Int64) :
    (Log.tally (sender.report result).journal.metrics).started =
        (Log.tally sender.journal.metrics).started ∧
      ∀ account, (Log.tally (sender.report result).journal.metrics).of account =
        (Log.tally sender.journal.metrics).of account + (Account.of result == account).toNat := by
  cases result with
  | ok checkpoint => exact ⟨rfl, fun account => by cases account <;> rfl⟩
  | error error =>
      unfold Sender.report Account.of
      dsimp only
      split <;> exact ⟨rfl, fun account => by cases account <;> rfl⟩

theorem advances_report {result : Except Error Int64}
    (finished : task.bare.Over (fun _ => True) result) (place : task.station = .concluded) :
    task.Advances commons ({ task with station := .counted },
      { commons with journal := (task.sender commons {}).reported.journal }) := by
  have result? : task.delivery.result? = some result := finished.result?
  have reported : (task.sender commons {}).reported = (task.sender commons {}).report result :=
    Sender.reported_of_result result?
  obtain ⟨started, counted⟩ := tally_report (task.sender commons {}) result
  refine ⟨⟨result, finished⟩, rfl, ?_, ?_, fun account => ?_, .inl ⟨rfl, ?_⟩, id, .inl⟩
  · rw [holdsPermit, holdsPermit, place]
    rfl
  · rw [reported]
    exact congrArg (· + _) started
  · rw [reported, isCountedAs, isCountedAs, place, result?]
    exact counted account
  · rw [hasEnded, hasEnded, place]
    rfl

theorem advances_release {result : Except Error Int64}
    (finished : task.bare.Over (·.isLaunched = true) result) (place : task.station = .returned) :
    task.Advances commons ({ task with station := .concluded },
      { commons with permits := commons.permits + 1 }) := by
  refine ⟨⟨result, finished.moved rfl trivial⟩,
    ⟨rfl, ?_, rfl, fun account => ?_, .inl ⟨rfl, ?_⟩, id, .inl⟩⟩
  · rw [holdsPermit, holdsPermit, place]
    rfl
  · rw [isCountedAs, isCountedAs, place]
    rfl
  · rw [hasEnded, hasEnded, place]
    rfl

theorem advances_remove {result : Except Error Int64}
    (finished : task.bare.Over (fun _ => True) result) (place : task.station = .counted) :
    task.Advances commons ({ task with station := .ended },
      { commons with listed := commons.listed.erase task.recovery }) := by
  refine ⟨⟨result, finished⟩, ⟨rfl, ?_, rfl, fun account => ?_, .inr ⟨rfl, ?_, rfl⟩, id, .inl⟩⟩
  · rw [holdsPermit, holdsPermit, place]
    rfl
  · rw [isCountedAs, isCountedAs, place]
    rfl
  · rw [hasEnded, place]
    rfl

theorem advances_stop (sound : task.Sound) (commons : Commons) (reason : String) :
    task.Advances commons ({ task with delivery := (task.delivery.cancel reason).2 }, commons) := by
  refine ⟨?_, .of_same rfl rfl rfl (fun _ => rfl) rfl rfl rfl rfl⟩
  obtain ⟨delivery, station⟩ := task
  cases station with
  | waiting | admitted => exact Sender.Fresh.cancel sound reason
  | working =>
      exact sound.imp (·.cancel reason) fun ⟨error, failing⟩ => ⟨error, failing.cancel reason⟩
  | refused => exact sound.imp fun _ failing => failing.cancel reason
  | returned | concluded | counted | ended =>
      exact sound.imp fun _ finished => finished.cancel reason

theorem Sound.stands (sound : task.Sound) {station : Station} (place : task.station = station) :
    task.Stands station :=
  place ▸ sound

/-- Every step that a task can take keeps what holds of its session. -/
theorem Sound.step (sound : task.Sound) {act : Act} {next : Task × Commons}
    (stepped : task.step commons act = some next) : task.Advances commons next := by
  unfold Task.step at stepped
  split at stepped
  · next place =>
      split at stepped
      · next free =>
          cases stepped
          exact advances_acquire (sound.stands place) place free
      · cases stepped
  · next place =>
      split at stepped
      · cases stepped
      · cases stepped
        exact advances_refuse (sound.stands place) place _
  · next place =>
      cases stepped
      exact advances_begin (sound.stands place) place _
  · next place =>
      cases stepped
      exact advances_answer (sound.stands place) place sound _ _ _
  · next place =>
      cases stepped
      exact advances_abandon (sound.stands place) place _
  · next place =>
      cases stepped
      obtain ⟨error, cancelling⟩ := sound.stands place
      refine advances_cancelling cancelling place (by decide) (fun finished => ?_) sound _ _ _
      exact ⟨.error error, finished.moved rfl trivial⟩
  · next place =>
      cases stepped
      obtain ⟨result, finished⟩ := sound.stands place
      exact advances_release finished place
  · next place =>
      cases stepped
      obtain ⟨result, finished⟩ := sound.stands place
      exact advances_report finished place
  · next place =>
      cases stepped
      obtain ⟨result, finished⟩ := sound.stands place
      exact advances_remove finished place
  · cases stepped
    exact advances_stop sound commons _
  · cases stepped

/-- A session is active under a permit only. -/
theorem Sound.holdsPermit (sound : task.Sound) (active : task.isActive = true) :
    task.holdsPermit = true := by
  have resting {phase : Phase} (same : task.delivery.session.progress.phase = phase)
      (rests : phase = .init ∨ phase.isTerminal = true) : False := by
    rw [isActive, Progress.isTerminal, same] at active
    rcases rests with rfl | terminal
    · cases active
    · rw [terminal, Bool.not_true, Bool.and_false] at active
      cases active
  have finished {result : Except Error Int64} : (endOf result).isTerminal = true := by
    cases result <;> rfl
  obtain ⟨delivery, station⟩ := task
  cases station with
  | admitted | working | returned => rfl
  | waiting => exact (resting (Sender.Fresh.phase sound) (.inl rfl)).elim
  | refused =>
      obtain ⟨error, cancelling⟩ := sound
      exact (resting cancelling.phase (.inr rfl)).elim
  | concluded | counted | ended =>
      obtain ⟨result, concluded⟩ := sound
      exact (resting concluded.phase (.inr finished)).elim

/-- A session that holds a permit has had its turn. -/
theorem Sound.launched (sound : task.Sound) (held : task.holdsPermit = true) :
    task.delivery.isLaunched = true := by
  obtain ⟨delivery, station⟩ := task
  cases station with
  | admitted => exact (Sender.Fresh.toUnderway sound).basis
  | working => exact sound.elim (·.basis) fun ⟨_, cancelling⟩ => cancelling.basis
  | returned =>
      obtain ⟨result, finished⟩ := sound
      exact finished.basis
  | waiting | refused | concluded | counted | ended => cases held

/-- A session that has ended counts as what its result is. -/
theorem Sound.counted (sound : task.Sound) (ended : task.hasEnded = true) :
    ∃ result, task.delivery.result? = some result ∧
      ∀ account, task.isCountedAs account = (Account.of result == account) := by
  have place : task.station = .ended := eq_of_beq ended
  obtain ⟨result, finished⟩ := sound.stands place
  have result? : task.delivery.result? = some result := finished.result?
  refine ⟨result, result?, fun account => ?_⟩
  rw [isCountedAs, place, result?]
  rfl

end Task

end ShardSync.Recovery
