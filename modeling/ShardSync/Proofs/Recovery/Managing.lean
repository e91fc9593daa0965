import ShardSync.Proofs.Recovery.Pool
import ShardSync.Proofs.Recovery.Registry

/-!
# Tasks that are not interrupted

A manager that gives a session its turn, or passes an answer on to it, does in one go what
the task of the session does in several steps. So a run of a manager is a run of its
tasks, in which no task's steps come in between those of another one.
-/

set_option autoImplicit false

namespace ShardSync.Recovery

/-- Whether a task waits for something outside at a station. -/
def Station.rests : Station → Bool
  | waiting | working | refused | ended => true
  | _ => false

/-- Where a session goes on with its work, and where it is once it is over. -/
def Station.IsWork (going finished : Station) : Prop :=
  going = .working ∧ finished = .returned ∨ going = .refused ∧ finished = .concluded

namespace Task

/-- Takes those of the given steps that it can take. -/
def follow (next : Task × Commons) (acts : List Act) : Task × Commons :=
  acts.foldl (fun next act => (next.1.step next.2 act).getD next) next

def finishing : List Act := [.release, .report, .remove]

def launching (source : SourceShard) : List Act :=
  [.refuse, .acquire, .begin source] ++ finishing

/-- A task at rest whose session is at work as the given sender. -/
structure Shows (next : Task × Commons) (sender : Sender) : Prop where
  delivery : next.1.delivery = sender.delivery
  journal : next.2.journal = sender.journal
  rests : next.1.station.rests = true

variable {task : Task} {commons : Commons} {source : SourceShard}

theorem follow_of_step {next : Task × Commons} {act : Act}
    (stepped : task.step commons act = some next) (acts : List Act) :
    follow (task, commons) (act :: acts) = follow next acts := by
  rw [follow, List.foldl_cons, stepped]
  rfl

theorem follow_of_none {act : Act} (stuck : task.step commons act = none) (acts : List Act) :
    follow (task, commons) (act :: acts) = follow (task, commons) acts := by
  rw [follow, List.foldl_cons, stuck]
  rfl

theorem Sound.follow (sound : task.Sound) (commons : Commons) (acts : List Act) :
    (follow (task, commons) acts).1.recovery = task.recovery := by
  induction acts generalizing task commons with
  | nil => rfl
  | cons act acts ih =>
      cases stepped : task.step commons act with
      | none =>
          rw [follow_of_none stepped]
          exact ih sound commons
      | some next =>
          obtain ⟨after, trades⟩ := sound.step stepped
          rw [follow_of_step stepped]
          exact (ih after next.2).trans trades.recovery

theorem delivery_report (sender : Sender) (result : Except Error Int64) :
    (sender.report result).delivery = sender.delivery := by
  cases result with
  | ok checkpoint => rfl
  | error error =>
      unfold Sender.report
      dsimp only
      split <;> rfl

/-- What is reported of a session does not depend on its source. -/
theorem journal_report (sender : Sender) (source : SourceShard) (result : Except Error Int64) :
    ({ sender with source }.report result).journal = (sender.report result).journal := by
  cases result with
  | ok checkpoint => rfl
  | error error =>
      unfold Sender.report
      dsimp only
      split <;> rfl

/-- Once its session is over, a task that is not interrupted comes to its end. -/
theorem shows_finishing {going finished : Station} (work : going.IsWork finished)
    (commons : Commons) (after : Sender) :
    Shows (follow (left commons after finished going) finishing) after.reported := by
  unfold left
  cases result? : after.delivery.result? with
  | none =>
      rw [Sender.reported_of_unended result?]
      rcases work with ⟨rfl, rfl⟩ | ⟨rfl, rfl⟩ <;> exact ⟨rfl, rfl, rfl⟩
  | some result =>
      rw [Sender.reported_of_result result?]
      have journal : { after with source := {} }.reported.journal =
          (after.report result).journal := by
        have same : { after with source := {} }.reported =
            { after with source := {} }.report result := Sender.reported_of_result result?
        rw [same, journal_report]
      rcases work with ⟨rfl, rfl⟩ | ⟨rfl, rfl⟩ <;>
        exact ⟨(delivery_report after result).symm, journal, rfl⟩

/-- A session that fails before its turn leaves its source alone. -/
theorem fail_source (sender : Sender) (source : SourceShard) (error : Error) :
    { sender with source }.fail error = { sender.fail error with source } := by
  obtain ⟨⟨session, settings, start, stage, isLaunched, agenda, outstanding, snapshot?, scope?,
    clock⟩, _, journal⟩ := sender
  cases scope? <;> rfl

theorem follow_refused (delivery : Delivery) (commons : Commons) (source : SourceShard) :
    follow ({ delivery, station := .refused }, commons) (.acquire :: .begin source :: finishing) =
      ({ delivery, station := .refused }, commons) :=
  rfl

/-- A session that was asked to stop before its turn is refused one. -/
theorem shows_launch_refused (queued : task.delivery.stage = .queued)
    (place : task.station = .waiting) (source : SourceShard) {error : Error}
    (asked : task.delivery.session.cancellation.check = .error error) :
    Shows (follow (task, commons) (launching source)) (task.sender commons source).launch := by
  have launch : (task.sender commons source).launch = (task.sender commons source).fail error := by
    unfold Sender.launch
    rw [show (task.sender commons source).delivery.stage = .queued from queued,
      show (task.sender commons source).delivery.session.cancellation.check = _ from asked]
  have refuse : task.step commons .refuse =
      some (left commons ((task.sender commons {}).fail error) .concluded .refused) := by
    simp only [Task.step, place, asked]
  have failed := fail_source (task.sender commons {}) source error
  rw [launch, launching, List.cons_append, follow_of_step refuse, left,
    Sender.result?_fail (task.sender commons {}) error]
  simp only [Option.isSome_none, Bool.false_eq_true, if_false, List.cons_append, List.nil_append,
    follow_refused]
  exact ⟨congrArg (·.delivery) failed.symm, congrArg (·.journal) failed.symm, rfl⟩

/-- A session that has a permit begins. -/
theorem shows_launch_admitted (fresh : task.bare.Fresh (·.isLaunched = false))
    (place : task.station = .waiting) (source : SourceShard) {permits : Nat}
    (free : commons.permits = permits + 1)
    (unasked : task.delivery.session.cancellation.check = .ok ()) :
    Shows (follow (task, commons) (launching source)) (task.sender commons source).launch := by
  let admitted : Task :=
    { delivery := (task.sender commons {}).begun.delivery, station := .admitted }
  let left : Commons := { commons with permits, journal := (task.sender commons {}).begun.journal }
  have sound : admitted.bare.Fresh (·.isLaunched = true) := (advances_acquire fresh place free).1
  have launch : (task.sender commons source).launch =
      (Sender.takeIn (admitted.sender left source).opening).reported := by
    unfold Sender.launch
    rw [show (task.sender commons source).delivery.stage = .queued from fresh.stage,
      show (task.sender commons source).delivery.session.cancellation.check = _ from unasked]
    refine Sender.settle_eq_reported ((fresh_sender left source sound).ensures_opening ?_)
    exact fun _ _ _ => ⟨rfl, rfl, rfl⟩
  have refuse : task.step commons .refuse = none := by simp only [Task.step, place, unasked]
  have acquire : task.step commons .acquire = some (admitted, left) := by
    simp only [Task.step, place, unasked, free]
    rfl
  have begins : admitted.step left (.begin source) =
      some (Task.left left (Sender.takeIn (admitted.sender left source).opening)
        .returned .working) := rfl
  rw [launch, launching, List.cons_append, follow_of_none refuse, List.cons_append,
    follow_of_step acquire, List.cons_append, follow_of_step begins, List.nil_append]
  exact shows_finishing (.inl ⟨rfl, rfl⟩) _ _

theorem shows_launch_waiting (fresh : task.bare.Fresh (·.isLaunched = false))
    (place : task.station = .waiting) (source : SourceShard)
    (free : 0 < commons.permits ∨ task.delivery.session.cancellation.isCancelled = true) :
    Shows (follow (task, commons) (launching source)) (task.sender commons source).launch := by
  cases check : task.delivery.session.cancellation.check with
  | error error => exact shows_launch_refused fresh.stage place source check
  | ok =>
      have unasked : task.delivery.session.cancellation.isCancelled ≠ true := by
        unfold Cancellation.check at check
        unfold Cancellation.isCancelled
        split at check
        · next none => rw [none]; exact Bool.false_ne_true
        · cases check
      obtain ⟨permits, some_free⟩ := Nat.exists_eq_add_one_of_ne_zero
        (Nat.pos_iff_ne_zero.mp (free.resolve_right unasked))
      exact shows_launch_admitted fresh place source some_free check

/-- A task at rest has come past the waiting, or it waits for its turn. -/
theorem Sound.ne_queued (sound : task.Sound) (rests : task.station.rests = true)
    (past : task.station ≠ .waiting) : task.delivery.stage ≠ .queued := by
  obtain ⟨delivery, station⟩ := task
  cases station with
  | waiting => exact absurd rfl past
  | admitted | returned | concluded | counted => cases rests
  | working =>
      rcases sound with waits | ⟨error, cancelling⟩
      · intro queued
        have waiting : delivery.isWaiting = true := waits.waiting
        rw [Delivery.isWaiting, queued] at waiting
        cases waiting
      · exact fun queued => by cases cancelling.stage.symm.trans queued
  | refused =>
      obtain ⟨error, cancelling⟩ := sound
      exact fun queued => by cases cancelling.stage.symm.trans queued
  | ended =>
      obtain ⟨result, finished⟩ := sound
      exact fun queued => by cases finished.stage.symm.trans queued

/-- The turn of a session comes once. -/
theorem shows_launch_past (sound : task.Sound) (rests : task.station.rests = true)
    (past : task.station ≠ .waiting) (commons : Commons) (source : SourceShard) :
    follow (task, commons) (launching source) = (task, commons) ∧
      (task.sender commons source).launch = task.sender commons source := by
  have stage := sound.ne_queued rests past
  constructor
  · obtain ⟨delivery, station⟩ := task
    cases station <;> first | exact absurd rfl past | rfl | cases rests
  · unfold Sender.launch
    split
    · next queued _ => exact absurd queued stage
    · next queued _ => exact absurd queued stage
    · rfl

theorem shows_sender (rests : task.station.rests = true) :
    Shows (task, commons) (task.sender commons source) :=
  ⟨rfl, rfl, rests⟩

theorem shows_receive (sound : task.Sound) (rests : task.station.rests = true)
    (source : SourceShard) (index : Nat) (answer : Except Error Reply) :
    Shows (follow (task, commons) (.answer source index answer :: finishing))
      ((task.sender commons source).receive index answer) := by
  have idle (idle : task.delivery.outstanding = []) :
      (task.sender commons source).receive index answer = task.sender commons source := by
    unfold Sender.receive
    rw [show (task.sender commons source).delivery.outstanding = [] from idle]
    rfl
  have answers {going finished : Station} (place : task.station = going)
      (work : going.IsWork finished)
      (same : (task.sender commons source).receive index answer =
        ((task.sender commons source).take index answer).reported) :
      Shows (follow (task, commons) (.answer source index answer :: finishing))
        ((task.sender commons source).receive index answer) := by
    have stepped : task.step commons (.answer source index answer) =
        some (left commons ((task.sender commons source).take index answer) finished going) := by
      unfold Task.step
      rw [place]
      rcases work with ⟨rfl, rfl⟩ | ⟨rfl, rfl⟩ <;> rfl
    rw [follow_of_step stepped, same]
    exact shows_finishing work _ _
  obtain ⟨delivery, station⟩ := task
  cases station with
  | admitted | returned | concluded | counted => cases rests
  | waiting =>
      rw [idle (Sender.Fresh.idle sound)]
      exact shows_sender rests
  | working =>
      refine answers rfl (.inl ⟨rfl, rfl⟩) ?_
      rcases sound with waits | ⟨error, cancelling⟩
      · exact (waits_sender commons source waits).receive_eq index answer
      · exact (cancelling_sender commons source cancelling).receive_eq index answer
  | refused =>
      obtain ⟨error, cancelling⟩ := sound
      exact answers rfl (.inr ⟨rfl, rfl⟩)
        ((cancelling_sender commons source cancelling).receive_eq index answer)
  | ended =>
      obtain ⟨result, finished⟩ := sound
      rw [idle finished.idle]
      exact shows_sender rests

theorem shows_cancel (rests : task.station.rests = true) (commons : Commons) (source : SourceShard)
    (reason : String) :
    Shows (follow (task, commons) [.stop reason]) ((task.sender commons source).cancel reason) := by
  have stepped : task.step commons (.stop reason) =
      some ({ task with delivery := (task.delivery.cancel reason).2 }, commons) := by
    obtain ⟨delivery, station⟩ := task
    cases station <;> rfl
  rw [follow_of_step stepped]
  exact ⟨rfl, rfl, rests⟩

theorem shows_abandon (sound : task.Sound) (rests : task.station.rests = true)
    (source : SourceShard) :
    Shows (follow (task, commons) (.abandon source :: finishing))
      (task.sender commons source).abandon := by
  have idle (idle : task.delivery.isWaiting = false) :
      (task.sender commons source).abandon = task.sender commons source :=
    Sender.takeIn_of_not_waiting idle
  obtain ⟨delivery, station⟩ := task
  cases station with
  | admitted | returned | concluded | counted => cases rests
  | waiting =>
      have stage : delivery.stage = .queued := Sender.Fresh.stage sound
      rw [idle (by rw [Delivery.isWaiting, stage])]
      exact shows_sender rests
  | working =>
      have same : (Task.sender ⟨delivery, .working⟩ commons source).abandon =
          (Sender.takeIn (.ok none, Task.sender ⟨delivery, .working⟩ commons source)).reported := by
        rcases sound with waits | ⟨error, cancelling⟩
        · exact (waits_sender commons source waits).abandon_eq
        · have cancelling := cancelling_sender commons source cancelling
          have resting := Sender.takeIn_of_not_waiting
            (by rw [Delivery.isWaiting, cancelling.stage])
          rw [resting, Sender.reported_of_unended cancelling.result?]
          exact resting
      have stepped : Task.step ⟨delivery, .working⟩ commons (.abandon source) =
          some (left commons
            (Sender.takeIn (.ok none, Task.sender ⟨delivery, .working⟩ commons source))
            .returned .working) := rfl
      rw [same, follow_of_step stepped]
      exact shows_finishing (.inl ⟨rfl, rfl⟩) _ _
  | refused =>
      obtain ⟨error, cancelling⟩ := sound
      have stage : delivery.stage = .cancelling error := cancelling.stage
      rw [idle (by rw [Delivery.isWaiting, stage])]
      exact shows_sender rests
  | ended =>
      obtain ⟨result, finished⟩ := sound
      have stage : delivery.stage = .ended result := finished.stage
      rw [idle (by rw [Delivery.isWaiting, stage])]
      exact shows_sender rests

theorem Sound.unended (sound : task.Sound) (place : task.station = .working) :
    task.delivery.result? = none := by
  rcases sound.stands place with waits | ⟨error, cancelling⟩
  · exact waits.result?
  · exact cancelling.result?

theorem Sound.isRunning (sound : task.Sound) (rests : task.station.rests = true) :
    task.delivery.isRunning = task.holdsPermit := by
  obtain ⟨delivery, station⟩ := task
  cases station with
  | admitted | returned | concluded | counted => cases rests
  | waiting =>
      have unlaunched : delivery.isLaunched = false := (Sender.Fresh.toUnderway sound).basis
      rw [Delivery.isRunning, unlaunched]
      rfl
  | working =>
      have launched : delivery.isLaunched = true := sound.launched rfl
      have unended : delivery.result? = none := sound.unended rfl
      rw [Delivery.isRunning, launched, unended]
      rfl
  | refused =>
      obtain ⟨error, cancelling⟩ := sound
      have unlaunched : delivery.isLaunched = false := cancelling.basis
      rw [Delivery.isRunning, unlaunched]
      rfl
  | ended =>
      obtain ⟨result, finished⟩ := sound
      have ended : delivery.result? = some result := finished.result?
      rw [Delivery.isRunning, ended]
      exact Bool.and_false _

theorem Sound.isNone_result? (sound : task.Sound) (rests : task.station.rests = true) :
    task.delivery.result?.isNone = !task.hasEnded := by
  obtain ⟨delivery, station⟩ := task
  cases station with
  | admitted | returned | concluded | counted => cases rests
  | waiting =>
      have stage : delivery.stage = .queued := Sender.Fresh.stage sound
      rw [Delivery.result?, stage]
      rfl
  | working =>
      have unended : delivery.result? = none := sound.unended rfl
      rw [unended]
      rfl
  | refused =>
      obtain ⟨error, cancelling⟩ := sound
      have unended : delivery.result? = none := cancelling.result?
      rw [unended]
      rfl
  | ended =>
      obtain ⟨result, finished⟩ := sound
      have ended : delivery.result? = some result := finished.result?
      rw [ended]
      rfl

end Task

namespace Pool

/-- The manager as it is when all tasks are at rest. -/
def manager (pool : Pool) : Manager where
  settings := pool.settings
  sessions := pool.tasks.foldl (fun sessions task => sessions.insert task.recovery task.delivery) ∅
  journal := pool.journal

variable {pool : Pool}

theorem getElem?_sessions (distinct : (pool.tasks.map Task.recovery).Nodup) (recovery : Int64)
    (delivery : Delivery) : pool.manager.sessions[recovery]? = some delivery ↔
      ∃ task ∈ pool.tasks, task.recovery = recovery ∧ task.delivery = delivery := by
  unfold manager
  dsimp only
  generalize pool.tasks = tasks at distinct
  induction tasks using List.reverseRecOn with
  | nil => simp
  | append_singleton tasks task ih =>
      rw [List.map_append, List.map_singleton] at distinct
      have earlier := List.Nodup.of_append_left distinct
      have unused : task.recovery ∉ tasks.map Task.recovery := fun among =>
        List.disjoint_of_nodup_append distinct among List.mem_cons_self
      simp only [List.foldl_append, List.foldl_cons, List.foldl_nil,
        Std.ExtTreeMap.getElem?_insert, Std.compare_eq_iff_eq, List.mem_append,
        List.mem_singleton]
      split
      · next same =>
          subst same
          constructor
          · rintro ⟨⟩
            exact ⟨task, .inr rfl, rfl, rfl⟩
          · rintro ⟨other, member | rfl, same, rfl⟩
            · exact (unused (same ▸ List.mem_map_of_mem member)).elim
            · rfl
      · next other =>
          rw [ih earlier]
          constructor
          · exact fun ⟨one, member, same⟩ => ⟨one, .inl member, same⟩
          · rintro ⟨one, member | rfl, same, held⟩
            · exact ⟨one, member, same, held⟩
            · exact absurd same other

theorem perm_values (distinct : (pool.tasks.map Task.recovery).Nodup) :
    pool.manager.sessions.values.Perm (pool.tasks.map (·.delivery)) := by
  have keyed : pool.manager.sessions.toList.Perm
      (pool.tasks.map fun task => (task.recovery, task.delivery)) := by
    refine (List.perm_ext_iff_of_nodup ?_ ?_).mpr fun entry => ?_
    · exact Std.ExtTreeMap.distinct_keys_toList.imp fun apart same =>
        apart (by rw [same, Std.compare_eq_iff_eq])
    · refine List.Nodup.of_map Prod.fst ?_
      rw [List.map_map]
      exact distinct
    · obtain ⟨recovery, delivery⟩ := entry
      rw [Std.ExtTreeMap.mem_toList_iff_getElem?_eq_some, getElem?_sessions distinct, List.mem_map]
      simp only [Prod.mk.injEq]
  rw [values_eq_map_toList]
  refine (keyed.map (·.2)).trans ?_
  rw [List.map_map]
  rfl

theorem sessions_put (distinct : (pool.tasks.map Task.recovery).Nodup) {place : Nat} {task : Task}
    {next : Task × Commons} (found : pool.tasks[place]? = some task)
    (same : next.1.recovery = task.recovery) : (pool.put place next).manager.sessions =
      pool.manager.sessions.insert task.recovery next.1.delivery := by
  have inside := (List.getElem?_eq_some_iff.mp found).1
  have still : ((pool.put place next).tasks.map Task.recovery).Nodup := by
    rw [put, map_recovery_set found same]
    exact distinct
  have there : next.1 ∈ (pool.put place next).tasks :=
    List.mem_of_getElem? (List.getElem?_set_self inside)
  refine Std.ExtTreeMap.ext_getElem? fun recovery => Option.ext fun delivery => ?_
  simp only [getElem?_sessions still, Std.ExtTreeMap.getElem?_insert, Std.compare_eq_iff_eq]
  split
  · next here =>
      subst here
      constructor
      · rintro ⟨other, member, named, rfl⟩
        rw [List.inj_on_of_nodup_map still there member (same.trans named.symm)]
      · rintro ⟨⟩
        exact ⟨next.1, there, same, rfl⟩
  · next elsewhere =>
      rw [getElem?_sessions distinct]
      constructor
      · rintro ⟨other, member, rfl, held⟩
        refine ⟨other, (List.mem_or_eq_of_mem_set member).resolve_right ?_, rfl, held⟩
        rintro rfl
        exact elsewhere same.symm
      · rintro ⟨other, member, rfl, held⟩
        obtain ⟨position, at_⟩ := List.getElem?_of_mem member
        have apart : place ≠ position := by
          rintro rfl
          rw [found] at at_
          cases at_
          exact elsewhere rfl
        exact ⟨other, List.mem_of_getElem? ((List.getElem?_set_ne apart).trans at_), rfl, held⟩

theorem manager_step (distinct : (pool.tasks.map Task.recovery).Nodup) {place : Nat} {task : Task}
    {next : Task × Commons} (found : pool.tasks[place]? = some task)
    (same : next.1.recovery = task.recovery) {change : Sender → Sender} {source : SourceShard}
    (shows : Task.Shows next (change (task.sender pool.toCommons source))) :
    (pool.manager.step task.recovery change source).2 = (pool.put place next).manager := by
  have held : pool.manager.sessions[task.recovery]? = some task.delivery :=
    (getElem?_sessions distinct _ _).mpr ⟨task, List.mem_of_getElem? found, rfl, rfl⟩
  have sessions := sessions_put distinct found same
  rw [shows.delivery] at sessions
  have changed : change ⟨task.delivery, source, pool.manager.journal⟩ =
      change (task.sender pool.toCommons source) := rfl
  unfold Manager.step
  rw [held]
  dsimp only
  rw [changed, ← sessions, ← shows.journal]
  rfl

theorem put_self {place : Nat} {task : Task} (found : pool.tasks[place]? = some task) :
    pool.put place (task, pool.toCommons) = pool := by
  obtain ⟨inside, rfl⟩ := List.getElem?_eq_some_iff.mp found
  unfold put
  rw [List.set_getElem_self]

theorem put_put (pool : Pool) (place : Nat) (next other : Task × Commons) :
    (pool.put place next).put place other = pool.put place other := by
  unfold put
  rw [List.set_set]

/-- The steps of one task come to what the task comes to. -/
theorem run_acts {place : Nat} {task : Task} (found : pool.tasks[place]? = some task)
    (acts : List Act) :
    pool.run (acts.map (.act place)) =
      pool.put place (Task.follow (task, pool.toCommons) acts) := by
  induction acts generalizing pool task with
  | nil => exact (put_self found).symm
  | cons act acts ih =>
      rw [List.map_cons, run, List.foldl_cons]
      change ((pool.act place act).run (acts.map (.act place))) = _
      cases stepped : task.step pool.toCommons act with
      | none =>
          have same : pool.act place act = pool := by
            rw [Pool.act, found, Option.bind_some, stepped]
          rw [same, ih found, Task.follow_of_none stepped]
      | some next =>
          have inside := (List.getElem?_eq_some_iff.mp found).1
          have same : pool.act place act = pool.put place next := by
            rw [Pool.act, found, Option.bind_some, stepped]
          have there : (pool.put place next).tasks[place]? = some next.1 :=
            List.getElem?_set_self inside
          rw [same, ih there, put_put, Task.follow_of_step stepped]
          rfl

/-- All tasks wait for something outside. -/
def AtRest (pool : Pool) : Prop := ∀ task ∈ pool.tasks, task.station.rests = true

variable {settings : Settings} {journal : Log.Journal}

theorem AtRest.put (rest : pool.AtRest) (place : Nat) {next : Task × Commons}
    (rests : next.1.station.rests = true) : (pool.put place next).AtRest := fun other member =>
  (List.mem_or_eq_of_mem_set member).elim (rest other) fun same => by rw [same]; exact rests

theorem running_manager (books : pool.Books settings journal) (lists : pool.Lists)
    (rest : pool.AtRest) : pool.manager.running = pool.tasks.countP (·.holdsPermit) := by
  rw [Manager.running, (perm_values lists.distinct).countP_eq, List.countP_map]
  refine List.countP_congr fun task member => ?_
  rw [Function.comp_apply, (books.sound task member).isRunning (rest task member)]

theorem activeSessions_manager (books : pool.Books settings journal) (lists : pool.Lists)
    (rest : pool.AtRest) : pool.manager.activeSessions = pool.activeSessions := by
  rw [activeSessions, lists.size, Manager.activeSessions, (perm_values lists.distinct).countP_eq,
    List.countP_map]
  refine List.countP_congr fun task member => ?_
  rw [Function.comp_apply, (books.sound task member).isNone_result? (rest task member)]

end Pool

namespace Manager

/-- What may happen to a manager, one thing after the other. -/
inductive Event where
  | queue (start : StartRequest)
  | launch (recovery : Int64) (source : SourceShard)
  | receive (recovery : Int64) (source : SourceShard) (index : Nat) (answer : Except Error Reply)
  | abandon (recovery : Int64) (source : SourceShard)
  | cancel (recovery : Int64) (reason : String)

def Event.queued? : Event → Option Int64
  | .queue start => some start.recovery
  | _ => none

def next (manager : Manager) : Event → Manager
  | .queue start => manager.queue start
  | .launch recovery source => (manager.launch recovery source).2
  | .receive recovery source index answer =>
      (manager.step recovery (fun sender => sender.receive index answer) source).2
  | .abandon recovery source => (manager.step recovery Sender.abandon source).2
  | .cancel recovery reason => (manager.cancel recovery reason).2

def run (manager : Manager) (events : List Event) : Manager := events.foldl next manager

end Manager

namespace Pool

variable {pool : Pool} {settings : Settings} {journal : Log.Journal}

/-- What happens to the manager comes about by steps of the tasks. -/
def Realizes (pool : Pool) (event : Manager.Event) : Prop :=
  ∃ events : List Event, events.filterMap Event.started? = event.queued?.toList ∧
    (pool.run events).AtRest ∧ (pool.run events).manager = pool.manager.next event

theorem realizes_nothing (rest : pool.AtRest) {event : Manager.Event} (old : event.queued? = none)
    (same : pool.manager.next event = pool.manager) : pool.Realizes event :=
  ⟨[], by rw [old]; rfl, rest, same.symm⟩

theorem realizes_acts (rest : pool.AtRest) {event : Manager.Event} (old : event.queued? = none)
    {place : Nat} {task : Task} (found : pool.tasks[place]? = some task) (acts : List Act)
    (rests : (Task.follow (task, pool.toCommons) acts).1.station.rests = true)
    (same : (pool.put place (Task.follow (task, pool.toCommons) acts)).manager =
      pool.manager.next event) : pool.Realizes event := by
  have unstarted : (acts.map (Event.act place)).filterMap Event.started? = [] := by
    rw [List.filterMap_map, List.filterMap_eq_nil_iff]
    exact fun _ _ => rfl
  refine ⟨acts.map (.act place), ?_, ?_, ?_⟩
  · rw [unstarted, old]
    rfl
  · rw [run_acts found]
    exact rest.put place rests
  · rw [run_acts found, same]

theorem realizes_queue (rest : pool.AtRest) (start : StartRequest) :
    pool.Realizes (.queue start) := by
  refine ⟨[.start start], rfl, ?_, ?_⟩
  · exact List.forall_mem_append.mpr ⟨rest, List.forall_mem_singleton.mpr rfl⟩
  · simp only [run, List.foldl_cons, List.foldl_nil, Pool.next, Pool.start, manager,
      List.foldl_append, Manager.next, Manager.queue]
    rfl

/-- A number is that of a session, or the manager does not know it. -/
theorem Lists.known (lists : pool.Lists) (recovery : Int64) :
    (∃ (place : Nat) (task : Task), pool.tasks[place]? = some task ∧ task.recovery = recovery) ∨
      pool.manager.sessions[recovery]? = none := by
  cases held : pool.manager.sessions[recovery]? with
  | none => exact .inr rfl
  | some delivery =>
      obtain ⟨task, member, named, _⟩ := (getElem?_sessions lists.distinct _ _).mp held
      obtain ⟨place, found⟩ := List.getElem?_of_mem member
      exact .inl ⟨place, task, found, named⟩

theorem Lists.session (lists : pool.Lists) {place : Nat} {task : Task}
    (found : pool.tasks[place]? = some task) :
    pool.manager.sessions[task.recovery]? = some task.delivery :=
  (getElem?_sessions lists.distinct _ _).mpr ⟨task, List.mem_of_getElem? found, rfl, rfl⟩

/-- What a session does in one go comes about by steps of its task. -/
theorem realizes_step (books : pool.Books settings journal) (lists : pool.Lists)
    (rest : pool.AtRest) {event : Manager.Event} (old : event.queued? = none) {recovery : Int64}
    {change : Sender → Sender} {source : SourceShard} (acts : List Act)
    (steps : pool.manager.next event = (pool.manager.step recovery change source).2)
    (shows : ∀ (place : Nat) (task : Task), pool.tasks[place]? = some task →
      task.recovery = recovery → Task.Shows (Task.follow (task, pool.toCommons) acts)
        (change (task.sender pool.toCommons source))) : pool.Realizes event := by
  rcases lists.known recovery with ⟨place, task, found, named⟩ | unknown
  · have shows := shows place task found named
    have same := (books.sound task (List.mem_of_getElem? found)).follow pool.toCommons acts
    refine realizes_acts rest old found acts shows.rests ?_
    rw [steps, ← named]
    exact (manager_step lists.distinct found same shows).symm
  · refine realizes_nothing rest old ?_
    rw [steps, Manager.step, unknown]

theorem mayLaunch_iff (books : pool.Books settings journal) (lists : pool.Lists)
    (rest : pool.AtRest) {place : Nat} {task : Task} (found : pool.tasks[place]? = some task) :
    pool.manager.mayLaunch task.recovery = true ↔
      0 < pool.permits ∨ task.delivery.session.cancellation.isCancelled = true := by
  have limit : pool.manager.limit = Manager.limit { settings } := by
    rw [← books.configured]
    rfl
  have permits := books.permits
  rw [Manager.mayLaunch, lists.session found, running_manager books lists rest, limit, ← permits,
    Bool.or_eq_true, decide_eq_true_iff, Option.any_some]
  refine or_congr_left ?_
  omega

theorem realizes_launch (books : pool.Books settings journal) (lists : pool.Lists)
    (rest : pool.AtRest) (recovery : Int64) (source : SourceShard) :
    pool.Realizes (.launch recovery source) := by
  by_cases may : pool.manager.mayLaunch recovery = true
  · have steps : pool.manager.next (.launch recovery source) =
        (pool.manager.step recovery Sender.launch source).2 := congrArg Prod.snd (if_pos may)
    refine realizes_step books lists rest rfl (Task.launching source) steps ?_
    rintro place task found rfl
    have sound := books.sound task (List.mem_of_getElem? found)
    have rests := rest task (List.mem_of_getElem? found)
    by_cases waiting : task.station = .waiting
    · exact Task.shows_launch_waiting (sound.stands waiting) waiting source
        ((mayLaunch_iff books lists rest found).mp may)
    · obtain ⟨same, launch⟩ := Task.shows_launch_past sound rests waiting pool.toCommons source
      rw [same, launch]
      exact Task.shows_sender rests
  · exact realizes_nothing rest rfl (congrArg Prod.snd (if_neg may))

theorem realizes_cancel (books : pool.Books settings journal) (lists : pool.Lists)
    (rest : pool.AtRest) (recovery : Int64) (reason : String) :
    pool.Realizes (.cancel recovery reason) := by
  cases held : pool.manager.sessions[recovery]? with
  | none =>
      refine realizes_nothing rest rfl ?_
      rw [Manager.next, Manager.cancel, held]
  | some delivery =>
      by_cases ended : delivery.result?.isSome = true
      · refine realizes_nothing rest rfl ?_
        rw [Manager.next, Manager.cancel, held]
        dsimp only
        rw [if_pos ended]
      · have steps : pool.manager.next (.cancel recovery reason) =
            (pool.manager.step recovery (fun sender => sender.cancel reason) {}).2 := by
          rw [Manager.next, Manager.cancel, Manager.step, held]
          dsimp only
          rw [if_neg ended]
          rfl
        refine realizes_step books lists rest rfl [.stop reason] steps ?_
        rintro place task found _
        exact Task.shows_cancel (rest task (List.mem_of_getElem? found)) pool.toCommons {} reason

/-- Whatever happens to a manager comes about by steps of the tasks. -/
theorem realizes (books : pool.Books settings journal) (lists : pool.Lists) (rest : pool.AtRest)
    (event : Manager.Event) : pool.Realizes event := by
  cases event with
  | queue start => exact realizes_queue rest start
  | launch recovery source => exact realizes_launch books lists rest recovery source
  | receive recovery source index answer =>
      refine realizes_step books lists rest rfl
        (.answer source index answer :: Task.finishing) rfl ?_
      rintro place task found _
      have member := List.mem_of_getElem? found
      exact Task.shows_receive (books.sound task member) (rest task member) source index answer
  | abandon recovery source =>
      refine realizes_step books lists rest rfl (.abandon source :: Task.finishing) rfl ?_
      rintro place task found _
      have member := List.mem_of_getElem? found
      exact Task.shows_abandon (books.sound task member) (rest task member) source
  | cancel recovery reason => exact realizes_cancel books lists rest recovery reason

/-- A run of a manager is a run of its tasks that is not interrupted, and the manager sees of
the sessions what the tasks have come to. So what holds of all runs of tasks holds of it. -/
theorem exists_run (settings : Settings) (journal : Log.Journal) (events : List Manager.Event)
    (distinct : (events.filterMap Manager.Event.queued?).Nodup) :
    ∃ steps : List Event, ∃ pool, pool = (opened settings journal).run steps ∧
      steps.filterMap Event.started? = events.filterMap Manager.Event.queued? ∧
        pool.manager = Manager.run { settings, journal } events ∧
          pool.manager.running = pool.tasks.countP (·.holdsPermit) ∧
            pool.manager.activeSessions = pool.activeSessions := by
  have opening := books_opened settings journal
  have listing {steps : List Event} {numbers : List Int64}
      (started : steps.filterMap Event.started? = numbers) (distinct : numbers.Nodup) :
      ((opened settings journal).run steps).Lists :=
    (lists_opened settings journal).run opening steps (started ▸ distinct)
  have reached : ∃ steps : List Event,
      steps.filterMap Event.started? = events.filterMap Manager.Event.queued? ∧
        ((opened settings journal).run steps).AtRest ∧
          ((opened settings journal).run steps).manager =
            Manager.run { settings, journal } events := by
    induction events using List.reverseRecOn with
    | nil => exact ⟨[], rfl, fun task member => (List.not_mem_nil member).elim, rfl⟩
    | append_singleton events event ih =>
        rw [List.filterMap_append] at distinct
        have earlier := List.Nodup.of_append_left distinct
        obtain ⟨steps, started, rest, same⟩ := ih earlier
        obtain ⟨more, added, resting, next⟩ :=
          realizes (opening.run steps) (listing started earlier) rest event
        refine ⟨steps ++ more, ?_, ?_, ?_⟩
        · rw [List.filterMap_append, List.filterMap_append, started, added, List.filterMap_cons]
          cases event.queued? <;> rfl
        · rw [run_append]
          exact resting
        · rw [run_append, next, same, Manager.run, Manager.run, List.foldl_append]
          rfl
  obtain ⟨steps, started, rest, same⟩ := reached
  have books := opening.run steps
  have lists := listing started distinct
  exact ⟨steps, _, rfl, started, same, running_manager books lists rest,
    activeSessions_manager books lists rest⟩

end Pool

end ShardSync.Recovery
