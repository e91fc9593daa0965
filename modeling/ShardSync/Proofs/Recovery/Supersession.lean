import ShardSync.Proofs.Recovery.Following

/-!
# Superseding a recovery while it is being asked

A recovery of a shard is started while callers are at work on an earlier one of the same
shard. Each of them may have looked its target up before, and may still ask or retire it
afterwards. When the new recovery has been started, nothing that is done to the earlier
one has an effect any more.
-/

set_option autoImplicit false

namespace ShardSync.Recovery.Shared

variable {shared : Shared} {shard : ShardId} {recovery : Int64} {registered : Registered}

/-- The move makes the shard recoverable. -/
def registers (shard : ShardId) : Move → Bool
  | .register other _ _ => other = shard
  | _ => false

theorem slotPlace_next {move : Move} (other : registers shard move = false) :
    (shared.next move).service.slotPlace shard = shared.service.slotPlace shard := by
  have takes := takes_next shared move
  generalize shared.next move = after at takes
  cases takes with
  | none => rfl
  | turns => rfl
  | skips => rfl
  | registers registered store engine =>
      have differ : registered ≠ shard := of_decide_eq_false other
      exact (Service.slotPlace_register ..).trans (if_neg differ)
  | works =>
      simp only [setCaller, worked]
      split <;> rfl
  | retires => exact (Service.shrinks_retire ..).slots shard
  | starts started source =>
      have superseded := Service.slotPlace_superseded shared.service started shard
      rcases start_cases shared started source with same | same | ⟨_, _, _, _, _, same⟩
      · rw [same]
      · rw [same]
        exact superseded
      · rw [same]
        refine Eq.trans ?_ superseded
        apply Service.slotPlace_modifySlot
        exact fun _ => rfl

theorem slotPlace_run {node : NodeId} {stores : Std.ExtTreeMap String Store} {moves : List Move}
    (never : moves.countP (registers shard) = 0) :
    (run node stores moves).service.slotPlace shard = none := by
  induction moves using List.reverseRecOn with
  | nil => rfl
  | append_singleton moves move ih =>
      rw [List.countP_append, Nat.add_eq_zero_iff, List.countP_singleton] at never
      rw [run_concat, slotPlace_next (by simpa using never.2)]
      exact ih never.1

/-- The shard is not registered again. -/
def RegisteredOnce (shard : ShardId) (moves : List Move) : Prop :=
  moves.countP (registers shard) ≤ 1

theorem RegisteredOnce.earlier {moves later : List Move}
    (once : RegisteredOnce shard (moves ++ later)) : RegisteredOnce shard moves :=
  (List.sublist_append_left ..).countP_le.trans once

/-- The recoveries of the shard work where the shard is. -/
def IsHome (shared : Shared) (shard : ShardId) : Prop :=
  ∀ (recovery : Int64) (registered : Registered), shared.target? recovery = some registered →
    registered.target.shard = shard → shared.service.slotPlace shard = some registered.place

/-- A target that was not there before is that of a recovery that has been started. -/
theorem target?_next {move : Move} (fresh : shared.target? recovery = none)
    (there : (shared.next move).target? recovery = some registered) :
    shared.service.slotPlace registered.target.shard = some registered.place := by
  have stray {after : Shared} (carries : Carries shared after)
      (there : after.target? recovery = some registered) : False := by
    obtain ⟨_, was, _⟩ := carries.descends recovery registered there
    cases fresh.symm.trans was
  have takes := takes_next shared move
  generalize shared.next move = after at takes there
  cases takes with
  | none => exact absurd there (stray (.of_same rfl))
  | turns => exact absurd there (stray (.of_same rfl))
  | skips => exact absurd there (stray (.of_same rfl))
  | registers => exact absurd there (stray (.of_same rfl))
  | retires => exact absurd there (stray (.of_same (target?_retired ..)))
  | works _ busy answer =>
      refine absurd there (stray (.of_update busy (target?_worked ..) rfl fun ended => ?_))
      exact answer.rests ended ▸ ended
  | starts shard source =>
      have carries := carries_makeWay shared shard
      rcases start_cases shared shard source with same | same | ⟨start, place, _, slot, _, same⟩
      · exact absurd (same ▸ there) (stray (.of_same rfl))
      · exact absurd (same ▸ there) (stray carries)
      · rw [same, target?_opened, Function.update_apply] at there
        split at there
        · cases there
          exact slot
        · exact absurd there (stray carries)

theorem home_run {node : NodeId} {stores : Std.ExtTreeMap String Store} {moves : List Move}
    (once : RegisteredOnce shard moves)
    (lasting : (run node stores moves).service.issued < 2 ^ 64) :
    (run node stores moves).IsHome shard := by
  induction moves using List.reverseRecOn with
  | nil => exact fun _ _ there => by cases there
  | append_singleton moves move ih =>
      intro recovery registered there own
      have earlier := (issued_le_run node stores moves [move]).trans_lt lasting
      have home := ih once.earlier earlier
      rw [run_concat] at there lasting ⊢
      have before : (run node stores moves).service.slotPlace shard = some registered.place := by
        cases was : (run node stores moves).target? recovery with
        | none => exact own ▸ target?_next was there
        | some found =>
            obtain ⟨_, follows⟩ := follows_next (coherent_run node stores moves earlier)
              (tended_run node stores moves earlier) lasting
            obtain ⟨later, follows⟩ := follows recovery found was
            obtain rfl : later = registered := Option.some.inj (follows.there.symm.trans there)
            rw [follows.place]
            exact home recovery found was (follows.shard.symm.trans own)
      cases again : registers shard move with
      | false => rw [slotPlace_next again, before]
      | true =>
          rw [RegisteredOnce, List.countP_append, List.countP_singleton, if_pos again] at once
          rw [slotPlace_run (by omega)] at before
          cases before

theorem dropped_drop_ne {dropped : Int64} (gone : shared.dropped recovery ≠ none) :
    (shared.drop dropped registered).dropped recovery ≠ none := by
  rw [dropped_drop]
  split
  · nofun
  · exact gone

/-- What has been dropped once is known to have been. -/
theorem dropped_next (gone : shared.dropped recovery ≠ none) (move : Move) :
    (shared.next move).dropped recovery ≠ none := by
  have takes := takes_next shared move
  generalize shared.next move = after at takes
  cases takes with
  | none => exact gone
  | turns => exact gone
  | skips => exact gone
  | registers => exact gone
  | works =>
      simp only [setCaller, worked]
      split
      · exact gone
      · exact dropped_drop_ne gone
  | retires =>
      simp only [setCaller, retired]
      split
      · exact gone
      · exact dropped_drop_ne gone
  | starts =>
      simp only [start]
      split
      · exact gone
      · exact dropped_drop_ne gone

theorem dropped_run {node : NodeId} {stores : Std.ExtTreeMap String Store} {moves : List Move}
    (gone : (run node stores moves).dropped recovery ≠ none) (later : List Move) :
    (run node stores (moves ++ later)).dropped recovery ≠ none := by
  induction later using List.reverseRecOn with
  | nil => rwa [List.append_nil]
  | append_singleton later move ih =>
      rw [← List.append_assoc, run_concat]
      exact dropped_next ih move

/-- No earlier recovery of a shard is registered when a new one has been started. -/
theorem dropped_start (coherent : shared.Coherent) (home : shared.IsHome shard)
    (there : shared.target? recovery = some registered) (own : registered.target.shard = shard)
    (source : NodeId) : (shared.start shard source).dropped recovery ≠ none := by
  cases current : shared.service.targets[recovery]? with
  | none =>
      have gone : shared.dropped recovery ≠ none := by
        rw [← target?_of_unregistered current, there]
        nofun
      exact dropped_next gone (.start shard source)
  | some found =>
      obtain rfl : found = registered :=
        Option.some.inj ((target?_of_registered current).symm.trans there)
      have active : shared.service.activeOf shard = some recovery :=
        coherent.placed.active shard recovery found.place found.place
          (home recovery found there own) (Service.placeOf_eq_some current) rfl
      have displaced := Service.displacedBy_eq_some.mpr ⟨active, found, current, rfl⟩
      rw [start, displaced]
      change (shared.drop recovery _).dropped recovery ≠ none
      rw [dropped_drop, if_pos rfl]
      nofun

/-- The move is a step of a request for the recovery. -/
def Concerns (shared : Shared) (recovery : Int64) : Move → Prop
  | .lookUp _ request => request.recovery = recovery
  | .work caller => ∃ request, shared.callers caller = .holding request ∧
      request.recovery = recovery
  | .retire caller => ∃ reply, shared.callers caller = .retiring recovery reply
  | _ => False

/-- Nothing has changed except for what the callers wait for. -/
structure Unmoved (before after : Shared) : Prop where
  copies : after.service.copyAt = before.service.copyAt
  slots : after.service.slots = before.service.slots
  targets : after.service.targets = before.service.targets
  dropped : after.dropped = before.dropped
  journal : after.service.journal = before.service.journal

theorem copyAt_keep_same (service : Service) (registered : Registered) :
    (service.keep registered.place (service.receiver registered)).copyAt = service.copyAt := by
  funext place
  simp only [Service.copyAt, Service.keep, Service.receiver, Std.ExtTreeMap.getD_insert,
    Std.LawfulEqCmp.compare_eq_iff_eq]
  congr 1 <;>
  · split
    · next same => rw [same]
    · rfl

/-- A step of a request for a recovery that has been dropped does nothing. -/
theorem unmoved_next {move : Move} (coherent : shared.Coherent)
    (gone : shared.dropped recovery ≠ none) (concerns : shared.Concerns recovery move) :
    Unmoved shared (shared.next move) := by
  obtain ⟨dropped, gone⟩ := Option.ne_none_iff_exists'.mp gone
  obtain ⟨ended, unregistered⟩ := coherent.settled recovery dropped gone
  have takes := takes_next shared move
  generalize shared.next move = after at takes
  cases takes with
  | none => exact ⟨rfl, rfl, rfl, rfl, rfl⟩
  | turns => exact ⟨rfl, rfl, rfl, rfl, rfl⟩
  | registers => cases concerns
  | skips => cases concerns
  | starts => cases concerns
  | @works caller request registered holds there reply receiver answer =>
      obtain ⟨other, held, rfl⟩ := concerns
      obtain rfl : request = other := Caller.holding.inj (holds.symm.trans held)
      obtain rfl : dropped = registered :=
        Option.some.inj (gone.symm.trans ((target?_of_unregistered unregistered).symm.trans there))
      obtain rfl := answer.rests ended
      rw [worked_of_unregistered unregistered]
      refine ⟨copyAt_keep_same shared.service dropped, rfl, rfl, ?_, rfl⟩
      exact Function.update_eq_self_iff.mpr gone.symm
  | @retires caller other reply holds =>
      obtain ⟨_, held⟩ := concerns
      obtain ⟨rfl, _⟩ := Caller.retiring.inj (holds.symm.trans held)
      rw [retired, Service.retire, unregistered]
      exact ⟨rfl, rfl, rfl, rfl, rfl⟩

theorem start_ok {source : NodeId} {start : StartRequest}
    (started : (shared.service.startRecovery shard source).1 = .ok start) :
    ∃ place, (shared.start shard source).service.slotPlace shard = some place ∧
      (shared.start shard source).service.targets[start.recovery]? =
        some { target := { recovery := start.recovery, shard }, place } ∧
      ((shared.start shard source).service.copyAt place).store.liveFiles = .ok start.files ∧
      start.startSeqNo =
        .ofInt (((shared.start shard source).service.copyAt place).engine.localCheckpoint + 1) := by
  cases outcome : shared.service.startRecovery shard source with
  | mk result after =>
      rw [outcome] at started
      cases started
      obtain ⟨place, slot, _, _, listed, next, rfl⟩ := Service.startRecovery_ok outcome
      have service : (shared.start shard source).service =
          (shared.service.superseded shard).opened shard start.recovery
            { target := { recovery := start.recovery, shard }, place } := by
        rw [Shared.start, outcome]
      rw [service]
      refine ⟨place, ?_, ?_, listed, next⟩
      · refine Eq.trans ?_ ((Service.slotPlace_superseded shared.service shard shard).trans slot)
        apply Service.slotPlace_modifySlot
        exact fun _ => rfl
      · rw [Service.targets_opened, if_pos rfl]

/-- What has come of a recovery that was started to reach the first state, and of which a
successor was started to reach the second. -/
structure Superseded (named : Prop) (began restarted shared : Shared) (shard : ShardId)
    (recovery : Int64) (registered : Registered) : Prop where
  ended : registered.isOver = true
  left : restarted.target? recovery = some registered
  stays : shared.target? recovery = some registered
  /-- Whoever still asks or retires it achieves nothing. -/
  inert : ∀ move, shared.Concerns recovery move → Unmoved shared (shared.next move)
  failed : named → registered.target.progress.phase = .failed →
    ∀ file, Store.isTempOf recovery file = true →
      (shared.service.storeOf shard).files[file]? = none
  done : registered.target.progress.phase = .done →
    ∀ name, (shared.service.storeOf shard).files[Store.tempName recovery name]? =
      if name ∈ registered.target.incoming then none
      else (began.service.storeOf shard).files[Store.tempName recovery name]?

/-- What has come of a recovery that was started to reach the first state. -/
structure Succeeds (restarted shared : Shared) (shard : ShardId) (start : StartRequest) :
    Prop where
  files : (restarted.service.storeOf shard).liveFiles = .ok start.files
  engine : ∃ engine, restarted.service.engine? shard = some engine ∧
    start.startSeqNo = .ofInt (engine.localCheckpoint + 1)
  /-- It is registered, unless it is over. -/
  registered : ∃ registered, shared.target? start.recovery = some registered ∧
    (shared.service.targets[start.recovery]? = some registered ∨ registered.isOver = true)

variable {node : NodeId} {stores : Std.ExtTreeMap String Store} {moves later : List Move}
  {source : NodeId} {start : StartRequest}

theorem run_start (node : NodeId) (stores : Std.ExtTreeMap String Store) (moves : List Move)
    (shard : ShardId) (source : NodeId) :
    run node stores (moves ++ [.start shard source]) = (run node stores moves).start shard source :=
  run_concat ..

theorem succeeds_run (started : ((run node stores moves).service.startRecovery shard source).1 =
      .ok start)
    (lasting : (run node stores (moves ++ [.start shard source] ++ later)).service.issued < 2 ^ 64) :
    Succeeds (run node stores (moves ++ [.start shard source]))
      (run node stores (moves ++ [.start shard source] ++ later)) shard start := by
  obtain ⟨place, slot, begun, listed, next⟩ := start_ok started
  rw [← run_start] at slot begun listed next
  constructor
  case files =>
    rw [Service.storeOf_eq slot]
    exact listed
  case engine => exact ⟨_, Service.engine?_of_slotPlace slot, next⟩
  case registered =>
    obtain ⟨last, follows⟩ := follows_run (target?_of_registered begun) later lasting
    refine ⟨last, follows.there, ?_⟩
    cases current : (run node stores
        (moves ++ [.start shard source] ++ later)).service.targets[start.recovery]? with
    | some found =>
        exact .inl ((target?_of_registered current).symm.trans follows.there)
    | none =>
        have gone := (target?_of_unregistered current).symm.trans follows.there
        exact .inr ((coherent_run node stores _ lasting).settled _ last gone).1

/-- What has been dropped stays as it is, and so do the files that bear its number. -/
theorem superseded_run {began : Shared} {first : Int64}
    (gone : (run node stores moves).dropped first = some registered)
    (own : registered.target.shard = shard)
    (tidy : ((run node stores moves).service.receiver registered).Tidy (ProperlyNamed stores) first
      (began.service.storeOf shard))
    (once : RegisteredOnce shard (moves ++ later))
    (lasting : (run node stores (moves ++ later)).service.issued < 2 ^ 64) :
    Superseded (ProperlyNamed stores) began (run node stores moves)
      (run node stores (moves ++ later)) shard first registered := by
  have coherent := coherent_run node stores _ lasting
  have known : (run node stores moves).dropped first ≠ none := by
    rw [gone]
    nofun
  obtain ⟨ended, unregistered⟩ :=
    (coherent_run node stores moves ((issued_le_run ..).trans_lt lasting)).settled first _ gone
  have left := (target?_of_unregistered unregistered).trans gone
  obtain ⟨last, follows⟩ := follows_run left later lasting
  obtain rfl := follows.rests ended
  have tidy := follows.tidy _ tidy
  have store : (run node stores (moves ++ later)).service.storeOf shard =
      ((run node stores (moves ++ later)).service.receiver last).copy.store :=
    Service.storeOf_eq (home_run once lasting first last follows.there own)
  refine ⟨ended, left, follows.there, fun move => ?inert, ?failed, ?done⟩
  case inert => exact unmoved_next coherent (dropped_run known later)
  case failed =>
    intro proper failed file own
    obtain ⟨name, rfl⟩ := Store.exists_tempName own
    rw [store]
    exact tidy.cleared proper failed name
  case done =>
    intro done name
    rw [store]
    split
    · next received => exact tidy.promoted done name received
    · next other =>
        exact tidy.spared (fun failed => by cases done.symm.trans failed) name other

/-- A run in which two recoveries of a shard are started. -/
structure Overlap where
  shard : ShardId
  source : NodeId
  sourceToo : NodeId
  earlier : List Move
  between : List Move
  later : List Move

namespace Overlap

def toBegin (overlap : Overlap) : List Move :=
  overlap.earlier ++ [.start overlap.shard overlap.source]

def toRestart (overlap : Overlap) : List Move :=
  overlap.toBegin ++ overlap.between ++ [.start overlap.shard overlap.sourceToo]

def toEnd (overlap : Overlap) : List Move := overlap.toRestart ++ overlap.later

end Overlap

/-- However the steps of callers interleave with the start of a recovery, the earlier
recoveries of its shard are over from then on, and nothing comes of what is asked of them. -/
theorem supersession (node : NodeId) (stores : Std.ExtTreeMap String Store) (overlap : Overlap)
    {first second : StartRequest} (once : RegisteredOnce overlap.shard overlap.toEnd)
    (started : ((run node stores overlap.earlier).service.startRecovery overlap.shard
      overlap.source).1 = .ok first)
    (startedToo : ((run node stores (overlap.toBegin ++ overlap.between)).service.startRecovery
      overlap.shard overlap.sourceToo).1 = .ok second)
    (lasting : (run node stores overlap.toEnd).service.issued < 2 ^ 64) :
    (∃ registered, Superseded (ProperlyNamed stores) (run node stores overlap.toBegin)
      (run node stores overlap.toRestart) (run node stores overlap.toEnd) overlap.shard
        first.recovery registered) ∧
    Succeeds (run node stores overlap.toRestart) (run node stores overlap.toEnd) overlap.shard
      second := by
  refine ⟨?earlier, succeeds_run startedToo lasting⟩
  have lastingRestart := (issued_le_run ..).trans_lt lasting
  have lastingBetween := (issued_le_run ..).trans_lt lastingRestart
  -- The recovery is followed from its start up to the one of its successor.
  obtain ⟨place, slot, begun, _, _⟩ := start_ok started
  rw [← run_start] at slot begun
  obtain ⟨grown, follows⟩ :=
    follows_run (target?_of_registered begun) overlap.between lastingBetween
  have gone := dropped_start (coherent_run node stores _ lastingBetween)
    (home_run once.earlier.earlier lastingBetween) follows.there follows.shard overlap.sourceToo
  rw [← run_start] at gone
  obtain ⟨left, gone⟩ := Option.ne_none_iff_exists'.mp gone
  have settled := (coherent_run node stores _ lastingRestart).settled _ left gone
  obtain ⟨last, followsToo⟩ :=
    follows_run follows.there [.start overlap.shard overlap.sourceToo] lastingRestart
  obtain rfl : last = left := Option.some.inj
    (followsToo.there.symm.trans ((target?_of_unregistered settled.2).trans gone))
  have all := follows.trans followsToo
  refine ⟨last, superseded_run gone all.shard (all.tidy _ ?_) once lasting⟩
  rw [Overlap.toBegin, Service.storeOf_eq slot]
  exact .begun ..

open Watched (receivingNode)

/-- The recoveries of an earlier process had numbers as well. One of them has left a file
behind that bears the number of the first recovery. -/
def littered : Std.ExtTreeMap String Store :=
  (∅ : Std.ExtTreeMap String Store).insert "a"
    { files := (∅ : Std.ExtTreeMap String Content).insert "recovery.77.old" (.ofBytes [0x78]) }

theorem properlyNamed_littered : ProperlyNamed littered := by
  intro name
  rw [littered, Std.ExtTreeMap.getD_insert]
  split
  · refine ⟨fun file member => ?_, fun _ _ => rfl⟩
    simp only [Std.ExtTreeMap.mem_insert, Std.LawfulEqCmp.compare_eq_iff_eq,
      Std.ExtTreeMap.not_mem_empty, or_false] at member
    rw [← member]
    decide
  · exact ⟨fun file member => absurd member (by simp), fun _ _ => rfl⟩

/-- What the service asks for when it starts a recovery of a shard that has no files. -/
def asked (recovery : Int64) : StartRequest where
  recovery
  shard := default
  source := receivingNode
  target := receivingNode
  files := []
  startSeqNo := 0

/-- Other services have started 76 recoveries when the shard is registered. -/
def hosted : List Move := List.replicate 76 .elsewhere ++ [.register default "a" {}]

/-- A file has been announced, and two callers have looked the target up. One of them goes
on when the target has made way for another one. -/
def belated : Overlap where
  shard := default
  source := receivingNode
  sourceToo := receivingNode
  earlier := hosted
  between := [
    .lookUp 0 (.step 0 77 default (.announce ⟨["new"], [1], [], []⟩ 0)),
    .work 0,
    .lookUp 1 (.cancel 77 default "enough"),
    .lookUp 2 (.step 1 77 default (.finalize 0))]
  later := [.work 1, .retire 1]

theorem supersession_belated :
    Unmoved (run receivingNode littered belated.toEnd)
        ((run receivingNode littered belated.toEnd).next (.work 2)) ∧
      (∀ file, Store.isTempOf 77 file = true →
        ((run receivingNode littered belated.toEnd).service.storeOf default).files[file]? =
          none) ∧
      ∃ registered, (run receivingNode littered belated.toEnd).target? 78 = some registered ∧
        ((run receivingNode littered belated.toEnd).service.targets[(78 : Int64)]? =
          some registered ∨ registered.isOver = true) := by
  have started : ((run receivingNode littered belated.earlier).service.startRecovery default
      receivingNode).1 = .ok (asked 77) := by
    decide +kernel
  have startedToo : ((run receivingNode littered
      (belated.toBegin ++ belated.between)).service.startRecovery default receivingNode).1 =
        .ok (asked 78) := by
    decide +kernel
  obtain ⟨⟨registered, superseded⟩, succeeds⟩ := supersession receivingNode littered belated
    (by unfold RegisteredOnce; decide) started startedToo (by decide +kernel)
  refine ⟨superseded.inert _ ⟨.step 1 77 default (.finalize 0), ?holds, rfl⟩,
    superseded.failed properlyNamed_littered ?failed, succeeds.registered⟩
  case holds => decide +kernel
  case failed =>
    have failed : ((run receivingNode littered belated.toEnd).target? (asked 77).recovery).map
        (·.target.progress.phase) = some .failed := by
      decide +kernel
    rw [superseded.stays] at failed
    exact Option.some.inj failed

/-- The recovery is finished, and retired only when another one has been started. -/
def finished : Overlap where
  shard := default
  source := receivingNode
  sourceToo := receivingNode
  earlier := hosted
  between := [
    .lookUp 0 (.step 0 77 default (.announce ⟨[], [], [], []⟩ 0)),
    .work 0,
    .lookUp 0 (.step 1 77 default (.filesComplete 0 0)),
    .work 0,
    .lookUp 0 (.step 2 77 default (.finalize 0)),
    .work 0]
  later := [.retire 0]

/-- A file that does not come from any recovery, with a name that no store accepts. -/
def defaced : Std.ExtTreeMap String Store :=
  (∅ : Std.ExtTreeMap String Store).insert "a"
    { files := (∅ : Std.ExtTreeMap String Content).insert "recovery.77.Z\\x" (.ofBytes [0x78]) }

/-- A file that bore the number of a finished recovery before is still there when another
one has been started. And a recovery that has been superseded leaves what it has staged if
a file comes first that cannot be deleted. -/
theorem littered_finished :
    (((run receivingNode littered (finished.toBegin ++
        finished.between)).service.startRecovery default receivingNode).1 = .ok (asked 78) ∧
      ((run receivingNode littered finished.toEnd).target? 77).map
        (·.target.progress.phase) = some .done ∧
      Store.isTempOf 77 "recovery.77.old" = true ∧
      ((run receivingNode littered finished.toEnd).service.storeOf default).files[
        "recovery.77.old"]? = some (.ofBytes [0x78])) ∧
    ((run receivingNode defaced (belated.toBegin ++
        belated.between)).service.startRecovery default receivingNode).1 = .ok (asked 78) ∧
      ((run receivingNode defaced belated.toEnd).target? 77).map
        (·.target.progress.phase) = some .failed ∧
      (((run receivingNode defaced belated.toEnd).service.storeOf default).files[
        Store.tempName 77 "new"]?).isSome = true := by
  decide +kernel

end ShardSync.Recovery.Shared
