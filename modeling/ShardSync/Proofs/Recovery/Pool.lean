import ShardSync.Proofs.Recovery.Tasks

/-!
# The tasks of a manager

The sessions of a manager run at the same time: their tasks take steps in any order, more
sessions are started, and some are asked to stop. No more of them are active than there
are permits; each is counted once, by the time it has ended, as what its result is; and the
list of the manager holds those that have not ended.
-/

set_option autoImplicit false

namespace ShardSync.Recovery

structure Pool extends Commons where
  settings : Settings := {}
  /-- The tasks of all sessions that have been started, oldest first. -/
  tasks : List Task := []

namespace Pool

inductive Event where
  | start (start : StartRequest)
  /-- A task takes a step, if it can take it. -/
  | act (place : Nat) (act : Act)
  /-- Somebody asks the manager to stop a session. -/
  | cancel (recovery : Int64) (reason : String)

/-- The number of the session that is started. -/
def Event.started? : Event → Option Int64
  | .start request => some request.recovery
  | _ => none

def opened (settings : Settings) (journal : Log.Journal) : Pool where
  settings
  permits := Manager.limit { settings }
  journal

def activeSessions (pool : Pool) : Nat := pool.listed.size

def start (pool : Pool) (start : StartRequest) : Pool :=
  let delivery := Delivery.ofStart start pool.settings
  { pool with
    listed := pool.listed.insert start.recovery pool.tasks.length
    journal := pool.journal.log (.ofEvent .recoveryQueued delivery.session.logFields)
    tasks := pool.tasks ++ [{ delivery }] }

def put (pool : Pool) (place : Nat) (next : Task × Commons) : Pool :=
  { pool with
    toCommons := next.2
    tasks := pool.tasks.set place next.1 }

def act (pool : Pool) (place : Nat) (act : Act) : Pool :=
  match pool.tasks[place]?.bind fun task => task.step pool.toCommons act with
  | none => pool
  | some next => pool.put place next

def cancel (pool : Pool) (recovery : Int64) (reason : String) : Pool :=
  match pool.listed[recovery]? with
  | none => pool
  | some place => pool.act place (.stop reason)

def next (pool : Pool) : Event → Pool
  | .start start => pool.start start
  | .act place act => pool.act place act
  | .cancel recovery reason => pool.cancel recovery reason

def run (pool : Pool) (events : List Event) : Pool := events.foldl next pool

/-- What can become of a manager and its sessions. -/
inductive Becomes (pool : Pool) : Event → Pool → Prop where
  | starts (start : StartRequest) : Becomes pool (.start start) (pool.start start)
  | stays {event : Event} (old : event.started? = none) : Becomes pool event pool
  | steps {event : Event} (old : event.started? = none) {place : Nat} {task : Task} {act : Act}
      {next : Task × Commons} (found : pool.tasks[place]? = some task)
      (stepped : task.step pool.toCommons act = some next) :
      Becomes pool event (pool.put place next)

theorem becomes_act (pool : Pool) {event : Event} (old : event.started? = none) (place : Nat)
    (act : Act) : pool.Becomes event (pool.act place act) := by
  unfold Pool.act
  cases found : pool.tasks[place]? with
  | none => exact .stays old
  | some task =>
      cases stepped : task.step pool.toCommons act with
      | none =>
          rw [Option.bind_some, stepped]
          exact .stays old
      | some next =>
          rw [Option.bind_some, stepped]
          exact .steps old found stepped

theorem becomes_next (pool : Pool) (event : Event) : pool.Becomes event (pool.next event) := by
  cases event with
  | start start => exact .starts start
  | act place act => exact pool.becomes_act rfl place act
  | cancel recovery reason =>
      unfold next cancel
      dsimp only
      split
      · exact .stays rfl
      · exact pool.becomes_act rfl _ _

theorem run_append (pool : Pool) (events others : List Event) :
    pool.run (events ++ others) = (pool.run events).run others :=
  List.foldl_append

theorem run_concat (pool : Pool) (events : List Event) (event : Event) :
    pool.run (events ++ [event]) = (pool.run events).next event :=
  pool.run_append events [event]

section Places

variable {tasks : List Task} {place : Nat} {task : Task}

theorem countP_set (property : Task → Bool) (found : tasks[place]? = some task) (after : Task) :
    (tasks.set place after).countP property + (property task).toNat =
      tasks.countP property + (property after).toNat := by
  obtain ⟨inside, rfl⟩ := List.getElem?_eq_some_iff.mp found
  have counts : property tasks[place] = true → 0 < tasks.countP property := fun holds =>
    List.countP_pos_iff.mpr ⟨_, List.getElem_mem inside, holds⟩
  rw [List.countP_set inside, Bool.toNat, Bool.toNat, Bool.cond_eq_ite, Bool.cond_eq_ite]
  split
  · next holds =>
      have positive := counts holds
      omega
  · rfl

theorem map_recovery_set (found : tasks[place]? = some task) {after : Task}
    (same : after.recovery = task.recovery) :
    (tasks.set place after).map Task.recovery = tasks.map Task.recovery := by
  have there : (tasks.map Task.recovery)[place]? = some after.recovery := by
    rw [List.getElem?_map, found, Option.map_some, same]
  obtain ⟨inside, there⟩ := List.getElem?_eq_some_iff.mp there
  rw [List.map_set, ← there, List.set_getElem_self]

end Places

/-- The books of a manager: what its tasks hold, and what it has counted besides what the
journal held at first. -/
structure Books (settings : Settings) (journal : Log.Journal) (pool : Pool) : Prop where
  configured : pool.settings = settings
  sound : ∀ task ∈ pool.tasks, task.Sound
  permits : pool.permits + pool.tasks.countP (·.holdsPermit) = Manager.limit { settings }
  started : pool.tally.started =
    (Log.tally journal.metrics).started + pool.tasks.countP (·.delivery.isLaunched)
  counted (account : Account) : pool.tally.of account =
    (Log.tally journal.metrics).of account + pool.tasks.countP (·.isCountedAs account)

variable {settings : Settings} {journal : Log.Journal} {pool after : Pool} {event : Event}

theorem books_opened (settings : Settings) (journal : Log.Journal) :
    (opened settings journal).Books settings journal where
  configured := rfl
  sound _ member := (List.not_mem_nil member).elim
  permits := rfl
  started := rfl
  counted _ := rfl

/-- A session that is queued has nothing, and counts as nothing. -/
theorem Books.start (books : pool.Books settings journal) (start : StartRequest) :
    (pool.start start).Books settings journal where
  configured := books.configured
  sound := by
    refine List.forall_mem_append.mpr ⟨books.sound, List.forall_mem_singleton.mpr ?_⟩
    exact ⟨⟨rfl, rfl, fun sent member => (List.not_mem_nil member).elim, rfl⟩, rfl, rfl, rfl⟩
  permits := by
    rw [Pool.start, List.countP_append]
    exact books.permits
  started := by
    rw [Pool.start, List.countP_append]
    exact books.started
  counted account := by
    rw [Pool.start, List.countP_append]
    exact books.counted account

theorem Books.put (books : pool.Books settings journal) {place : Nat} {task : Task}
    {next : Task × Commons} (found : pool.tasks[place]? = some task)
    (advances : task.Advances pool.toCommons next) :
    (pool.put place next).Books settings journal := by
  obtain ⟨sound, trades⟩ := advances
  refine ⟨books.configured, fun other member => ?_, ?_, ?_, fun account => ?_⟩
  · rcases List.mem_or_eq_of_mem_set member with before | rfl
    · exact books.sound other before
    · exact sound
  · have counts := countP_set (·.holdsPermit) found next.1
    have moved := trades.permits
    have before := books.permits
    unfold Pool.put
    dsimp only
    omega
  · have counts := countP_set (·.delivery.isLaunched) found next.1
    have moved := trades.started
    have before := books.started
    unfold Pool.put
    dsimp only
    omega
  · have counts := countP_set (·.isCountedAs account) found next.1
    have moved := trades.counted account
    have before := books.counted account
    unfold Pool.put
    dsimp only
    omega

theorem Books.becomes (books : pool.Books settings journal) (becomes : pool.Becomes event after) :
    after.Books settings journal := by
  cases becomes with
  | starts start => exact books.start start
  | stays => exact books
  | steps _ found stepped =>
      exact books.put found ((books.sound _ (List.mem_of_getElem? found)).step stepped)

theorem Books.run (books : pool.Books settings journal) (events : List Event) :
    (pool.run events).Books settings journal := by
  induction events generalizing pool with
  | nil => exact books
  | cons event events ih => exact ih (books.becomes (pool.becomes_next event))

/-- Whoever is started is there from then on, in the order of the starts. -/
theorem Books.recoveries (books : pool.Books settings journal)
    (becomes : pool.Becomes event after) :
    after.tasks.map Task.recovery = pool.tasks.map Task.recovery ++ event.started?.toList := by
  cases becomes with
  | starts start => rw [Pool.start, List.map_append]; rfl
  | stays old => rw [old, Option.toList_none, List.append_nil]
  | steps old found stepped =>
      rw [old, Option.toList_none, List.append_nil]
      have advances := (books.sound _ (List.mem_of_getElem? found)).step stepped
      exact map_recovery_set found advances.2.recovery

theorem Books.recoveries_run (books : pool.Books settings journal) (events : List Event) :
    (pool.run events).tasks.map Task.recovery =
      pool.tasks.map Task.recovery ++ events.filterMap Event.started? := by
  induction events generalizing pool with
  | nil => exact (List.append_nil _).symm
  | cons event events ih =>
      have becomes := pool.becomes_next event
      refine (ih (books.becomes becomes)).trans ?_
      rw [books.recoveries becomes, List.append_assoc, List.filterMap_cons]
      cases event.started? <;> rfl

/-- The list of a manager whose sessions have different numbers. -/
structure Lists (pool : Pool) : Prop where
  distinct : (pool.tasks.map Task.recovery).Nodup
  listed (recovery : Int64) (place : Nat) : pool.listed[recovery]? = some place ↔
    ∃ task, pool.tasks[place]? = some task ∧ task.recovery = recovery ∧ task.hasEnded = false

theorem lists_opened (settings : Settings) (journal : Log.Journal) :
    (opened settings journal).Lists := by
  refine ⟨List.nodup_nil, fun recovery place => ?_⟩
  simp only [opened, Std.ExtTreeMap.getElem?_empty, List.getElem?_nil, reduceCtorEq, false_and,
    exists_false]

theorem Lists.start (lists : pool.Lists) {start : StartRequest}
    (unused : start.recovery ∉ pool.tasks.map Task.recovery) : (pool.start start).Lists := by
  have absent {place : Nat} {task : Task} (found : pool.tasks[place]? = some task) :
      task.recovery ≠ start.recovery := fun same =>
    unused (same ▸ List.mem_map_of_mem (List.mem_of_getElem? found))
  refine ⟨?_, fun recovery place => ?_⟩
  · rw [Pool.start, List.map_append]
    exact lists.distinct.append (List.nodup_singleton _) (List.disjoint_singleton.mpr unused)
  · simp only [Pool.start, Std.ExtTreeMap.getElem?_insert, Std.compare_eq_iff_eq]
    rcases Nat.lt_trichotomy place pool.tasks.length with inside | rfl | beyond
    · rw [List.getElem?_append_left inside, ← lists.listed]
      split
      · next same =>
          subst same
          refine ⟨fun same => absurd inside (by simp_all), fun there => ?_⟩
          obtain ⟨task, found, same, _⟩ := (lists.listed _ _).mp there
          exact (absent found same).elim
      · rfl
    · rw [List.getElem?_concat_length]
      split
      · next same => exact ⟨fun _ => ⟨_, rfl, same, rfl⟩, fun _ => rfl⟩
      · next other =>
          refine ⟨fun there => ?_, fun ⟨_, found, same, _⟩ => ?_⟩
          · obtain ⟨task, found, _⟩ := (lists.listed _ _).mp there
            exact absurd (List.getElem?_eq_some_iff.mp found).1 (Nat.lt_irrefl _)
          · cases found
            exact absurd same other
    · rw [List.getElem?_eq_none (by rw [List.length_append]; exact beyond)]
      refine ⟨fun there => ?_, fun ⟨_, found, _⟩ => by cases found⟩
      split at there
      · cases there
        exact absurd beyond (Nat.lt_irrefl _)
      · obtain ⟨task, found, _⟩ := (lists.listed _ _).mp there
        exact absurd (List.getElem?_eq_some_iff.mp found).1 (by omega)

theorem Lists.place_eq (lists : pool.Lists) {place other : Nat} {task again : Task}
    (found : pool.tasks[place]? = some task) (there : pool.tasks[other]? = some again)
    (same : again.recovery = task.recovery) : place = other := by
  obtain ⟨inside, _⟩ := List.getElem?_eq_some_iff.mp found
  refine (List.getElem?_inj (by rwa [List.length_map]) lists.distinct).mp ?_
  rw [List.getElem?_map, List.getElem?_map, found, there, Option.map_some, Option.map_some, same]

theorem Lists.put (lists : pool.Lists) {place : Nat} {task : Task} {next : Task × Commons}
    (found : pool.tasks[place]? = some task)
    (trades : task.Trades pool.toCommons next.1 next.2) : (pool.put place next).Lists := by
  refine ⟨?_, fun recovery other => ?_⟩
  · unfold Pool.put
    dsimp only
    rw [map_recovery_set found trades.recovery]
    exact lists.distinct
  · unfold Pool.put
    dsimp only
    have inside := (List.getElem?_eq_some_iff.mp found).1
    have kept := lists.listed recovery other
    rcases trades.listed with ⟨same, ended⟩ | ⟨erased, going, ended⟩
    · rw [same, kept]
      by_cases here : place = other
      · subst here
        simp only [found, List.getElem?_set_self inside, Option.some.injEq, exists_eq_left',
          trades.recovery, ended]
      · rw [List.getElem?_set_ne here]
    · simp only [erased, Std.ExtTreeMap.getElem?_erase, Std.compare_eq_iff_eq]
      by_cases here : place = other
      · subst here
        simp only [List.getElem?_set_self inside, Option.some.injEq, exists_eq_left', ended,
          Bool.true_eq_false, and_false, iff_false]
        split
        · exact nofun
        · next another =>
            intro there
            obtain ⟨again, same, named, _⟩ := kept.mp there
            rw [found] at same
            cases same
            exact another named
      · rw [List.getElem?_set_ne here]
        split
        · next same =>
            refine ⟨nofun, fun ⟨again, there, named, _⟩ => ?_⟩
            exact absurd (lists.place_eq found there (named.trans same.symm)) here
        · exact kept

theorem Lists.becomes (lists : pool.Lists) (books : pool.Books settings journal)
    (becomes : pool.Becomes event after)
    (unused : ∀ recovery ∈ event.started?, recovery ∉ pool.tasks.map Task.recovery) :
    after.Lists := by
  cases becomes with
  | starts start => exact lists.start (unused _ rfl)
  | stays => exact lists
  | steps _ found stepped =>
      exact lists.put found ((books.sound _ (List.mem_of_getElem? found)).step stepped).2

theorem Lists.run (lists : pool.Lists) (books : pool.Books settings journal) (events : List Event)
    (distinct : (pool.tasks.map Task.recovery ++ events.filterMap Event.started?).Nodup) :
    (pool.run events).Lists := by
  induction events generalizing pool with
  | nil => exact lists
  | cons event events ih =>
      have becomes := pool.becomes_next event
      have recoveries := books.recoveries becomes
      rw [List.filterMap_cons] at distinct
      refine ih (lists.becomes books becomes fun recovery started => ?_) (books.becomes becomes) ?_
      · rw [Option.mem_def.mp started] at distinct
        exact (List.nodup_middle.mp distinct).notMem ∘ List.mem_append_left _
      · rw [recoveries]
        cases started : event.started? with
        | none => simpa [started] using distinct
        | some recovery => simpa [started] using distinct

theorem Lists.size (lists : pool.Lists) :
    pool.listed.size = pool.tasks.countP (!·.hasEnded) := by
  have distinct : ((pool.tasks.filter (!·.hasEnded)).map Task.recovery).Nodup :=
    lists.distinct.sublist (List.filter_sublist.map _)
  have same : pool.listed.keys.Perm ((pool.tasks.filter (!·.hasEnded)).map Task.recovery) := by
    refine (List.perm_ext_iff_of_nodup Std.ExtTreeMap.nodup_keys distinct).mpr fun recovery => ?_
    rw [Std.ExtTreeMap.mem_keys, Std.ExtTreeMap.mem_iff_isSome_getElem?, Option.isSome_iff_exists,
      List.mem_map]
    constructor
    · rintro ⟨place, there⟩
      obtain ⟨task, found, same, going⟩ := (lists.listed recovery place).mp there
      exact ⟨task, List.mem_filter.mpr ⟨List.mem_of_getElem? found, by rw [going]; rfl⟩, same⟩
    · rintro ⟨task, member, same⟩
      obtain ⟨member, going⟩ := List.mem_filter.mp member
      obtain ⟨place, found⟩ := List.getElem?_of_mem member
      exact ⟨place, (lists.listed recovery place).mpr ⟨task, found, same, by simpa using going⟩⟩
  rw [← Std.ExtTreeMap.length_keys, same.length_eq, List.length_map, ← List.countP_eq_length_filter]

/-- A session that has had its turn has had it for good. -/
theorem Becomes.stays_launched (becomes : pool.Becomes event after)
    (books : pool.Books settings journal) {place : Nat} {task : Task}
    (found : pool.tasks[place]? = some task) (launched : task.delivery.isLaunched = true) :
    ∃ same, after.tasks[place]? = some same ∧ same.delivery.isLaunched = true := by
  have inside := (List.getElem?_eq_some_iff.mp found).1
  cases becomes with
  | starts start =>
      refine ⟨task, ?_, launched⟩
      rw [Pool.start, List.getElem?_append_left inside, found]
  | stays => exact ⟨task, found, launched⟩
  | @steps _ _ changed before _ next there stepped =>
      by_cases here : changed = place
      · subst here
        rw [found] at there
        cases there
        have advances := (books.sound _ (List.mem_of_getElem? found)).step stepped
        exact ⟨next.1, List.getElem?_set_self inside, advances.2.stays launched⟩
      · exact ⟨task, by rw [Pool.put, List.getElem?_set_ne here, found], launched⟩

/-- A session has its turn when its task obtains a permit. -/
theorem Becomes.held_of_launched (becomes : pool.Becomes event after)
    (books : pool.Books settings journal) {place : Nat} {task : Task}
    (found : after.tasks[place]? = some task) (launched : task.delivery.isLaunched = true) :
    task.holdsPermit = true ∨
      ∃ before, pool.tasks[place]? = some before ∧ before.delivery.isLaunched = true := by
  cases becomes with
  | starts start =>
      rw [Pool.start, List.getElem?_append] at found
      split at found
      · exact .inr ⟨task, found, launched⟩
      · have fresh := List.mem_singleton.mp (List.mem_of_getElem? found)
        rw [fresh] at launched
        cases launched
  | stays => exact .inr ⟨task, found, launched⟩
  | @steps _ _ changed before _ next there stepped =>
      by_cases here : changed = place
      · subst here
        have inside := (List.getElem?_eq_some_iff.mp there).1
        rw [Pool.put, List.getElem?_set_self inside] at found
        cases found
        have advances := (books.sound _ (List.mem_of_getElem? there)).step stepped
        rcases advances.2.launched launched with earlier | held
        · exact .inr ⟨before, there, earlier⟩
        · exact .inl held
      · rw [Pool.put, List.getElem?_set_ne here] at found
        exact .inr ⟨task, found, launched⟩

theorem Books.stays_launched (books : pool.Books settings journal) (events : List Event)
    {place : Nat} {task : Task} (found : pool.tasks[place]? = some task)
    (launched : task.delivery.isLaunched = true) :
    ∃ same, (pool.run events).tasks[place]? = some same ∧ same.delivery.isLaunched = true := by
  induction events generalizing pool task with
  | nil => exact ⟨task, found, launched⟩
  | cons event events ih =>
      have becomes := pool.becomes_next event
      obtain ⟨same, there, still⟩ := becomes.stays_launched books found launched
      exact ih (books.becomes becomes) there still

/-- At some time the session at a place has held a permit. -/
def HasHeld (pool : Pool) (events : List Event) (place : Nat) : Prop :=
  ∃ earlier, earlier <+: events ∧
    ∃ task, (pool.run earlier).tasks[place]? = some task ∧ task.holdsPermit = true

theorem launched_iff_hasHeld (settings : Settings) (journal : Log.Journal) (events : List Event)
    {place : Nat} {task : Task}
    (found : ((opened settings journal).run events).tasks[place]? = some task) :
    task.delivery.isLaunched = true ↔ (opened settings journal).HasHeld events place := by
  constructor
  · intro launched
    induction events using List.reverseRecOn generalizing task with
    | nil => cases found
    | append_singleton events event ih =>
        rw [run_concat] at found
        have books := (books_opened settings journal).run events
        rcases (becomes_next _ event).held_of_launched books found launched with
          held | ⟨before, there, earlier⟩
        · exact ⟨events ++ [event], List.prefix_rfl, task, by rw [run_concat, found], held⟩
        · obtain ⟨part, among, obtained⟩ := ih there earlier
          exact ⟨part, among.trans (List.prefix_append _ _), obtained⟩
  · rintro ⟨earlier, ⟨later, rfl⟩, holder, there, held⟩
    have books := (books_opened settings journal).run earlier
    have launched := (books.sound holder (List.mem_of_getElem? there)).launched held
    obtain ⟨same, still, stays⟩ := books.stays_launched later there launched
    rw [run_append, still] at found
    cases found
    exact stays

/-- What holds of the sessions of a manager that was opened, whatever has happened since. -/
structure InOrder (settings : Settings) (journal : Log.Journal) (events : List Event)
    (pool : Pool) : Prop where
  sessions : pool.tasks.map Task.recovery = events.filterMap Event.started?
  limited : pool.tasks.countP (·.isActive) ≤ max settings.maxConcurrentRecoveries 1
  launched (place : Nat) (task : Task) (found : pool.tasks[place]? = some task) :
    task.delivery.isLaunched = true ↔ (opened settings journal).HasHeld events place
  started : pool.journal.metrics.recoveriesStarted =
    journal.metrics.recoveriesStarted + pool.tasks.countP (·.delivery.isLaunched)
  completed : pool.journal.metrics.recoveriesCompleted =
    journal.metrics.recoveriesCompleted + pool.tasks.countP (·.isCountedAs .completed)
  failed : pool.journal.metrics.recoveriesFailed =
    journal.metrics.recoveriesFailed + pool.tasks.countP (·.isCountedAs .failed)
  cancelled : pool.journal.metrics.recoveriesCancelled =
    journal.metrics.recoveriesCancelled + pool.tasks.countP (·.isCountedAs .cancelled)
  ended (task : Task) (member : task ∈ pool.tasks) (ended : task.hasEnded = true) :
    ∃ result, task.delivery.result? = some result ∧
      ∀ account, task.isCountedAs account = (Account.of result == account)
  active : pool.activeSessions = pool.tasks.countP (!·.hasEnded)

/-- Whatever the sessions of a manager do, and in whatever order, no more of them are active
than may be, and each is counted and listed as it should be. -/
theorem inOrder_run (settings : Settings) (journal : Log.Journal) (events : List Event)
    (distinct : (events.filterMap Event.started?).Nodup) :
    ((opened settings journal).run events).InOrder settings journal events := by
  have opened := books_opened settings journal
  have books := opened.run events
  have lists := (lists_opened settings journal).run opened events distinct
  refine ⟨opened.recoveries_run events, ?_, ?_, books.started, books.counted .completed,
    books.counted .failed, books.counted .cancelled, fun task member => ?_, lists.size⟩
  · calc ((Pool.opened settings journal).run events).tasks.countP (·.isActive)
        ≤ ((Pool.opened settings journal).run events).tasks.countP (·.holdsPermit) :=
          List.countP_mono_left fun task member => (books.sound task member).holdsPermit
      _ ≤ Manager.limit { settings } := by
          rw [← books.permits]
          exact Nat.le_add_left _ _
      _ = max settings.maxConcurrentRecoveries 1 := rfl
  · exact fun place task => launched_iff_hasHeld settings journal events
  · exact (books.sound task member).counted

/-- A session has the only permit. Another one is stopped while it waits. -/
def contending : List Event :=
  let request (recovery : Int64) : StartRequest := {
    recovery
    shard := default
    source := { id := .zero, name := "one" }
    target := { id := .zero, name := "two" }
    files := []
    startSeqNo := 0 }
  [.start (request 7), .start (request 8), .act 0 .acquire, .act 0 (.begin {}), .act 1 .acquire,
    .cancel 8 "enough", .act 1 .refuse, .act 1 (.answer {} 0 (.ok .ack)), .act 1 .report,
    .act 1 .remove]

theorem inOrder_contending :
    ((opened { maxConcurrentRecoveries := 1 } {}).run contending).InOrder
        { maxConcurrentRecoveries := 1 } {} contending ∧
      ((opened { maxConcurrentRecoveries := 1 } {}).run contending).activeSessions = 1 ∧
      ((opened { maxConcurrentRecoveries := 1 } {}).run contending).tasks.map (·.isActive) =
        [true, false] ∧
      ((opened { maxConcurrentRecoveries := 1 } {}).run contending).tally = ⟨1, 0, 0, 1⟩ :=
  ⟨inOrder_run _ _ _ (by decide), by decide +kernel, by decide +kernel, by decide +kernel⟩

end Pool

end ShardSync.Recovery
