import ShardSync.Engine.Basic
import ShardSync.Proofs.Engine.Tracker

/-!
# What an engine has processed

An engine that has been given segments has processed their sequence numbers,
and from then on those of the operations it applies. Nothing else adds to them.
-/

set_option autoImplicit false

namespace ShardSync.Engine

def numbers (segments : List Segment) : List Int :=
  segments.flatMap fun segment => (segment.seqNos?.elim [] (·.values)).map (·.toInt)

theorem numbers_cons (segment : Segment) (segments : List Segment) :
    numbers (segment :: segments) =
      (segment.seqNos?.elim [] (·.values)).map (·.toInt) ++ numbers segments := rfl

theorem survey_processed {segments : List Segment} {tracker surveyed : Tracker}
    {next after : Generation} (sound : tracker.Sound)
    (accepted : survey segments tracker next = .ok (surveyed, after)) :
    surveyed.Sound ∧ ∀ number, surveyed.hasProcessed number = true ↔
      tracker.hasProcessed number = true ∨ number ∈ numbers segments ∧ 0 ≤ number := by
  induction segments generalizing tracker next with
  | nil =>
      cases accepted
      exact ⟨sound, fun number => by simp [numbers]⟩
  | cons segment segments ih =>
      unfold survey at accepted
      split at accepted
      · cases accepted
      · split at accepted
        · cases accepted
        · obtain ⟨soundMarked, marked⟩ := Tracker.foldl_mark_spec sound
            ((segment.seqNos?.elim [] (·.values)).map (·.toInt))
          rw [List.foldl_map] at soundMarked marked
          obtain ⟨soundLater, later⟩ := ih soundMarked accepted
          refine ⟨soundLater, fun number => ?_⟩
          rw [later, marked, numbers_cons, List.mem_append, or_and_right, or_assoc]

theorem prepare_ok {engine prepared : Engine} {segments : List Segment}
    (accepted : engine.prepare segments = .ok prepared) :
    ∃ tracker nextGeneration,
      survey segments {} engine.nextGeneration = .ok (tracker, nextGeneration) ∧
      prepared = { segments, tracker, nextGeneration, isPrepared := true } := by
  unfold prepare at accepted
  cases surveyed : survey segments {} engine.nextGeneration with
  | error error =>
      rw [surveyed] at accepted
      cases accepted
  | ok result =>
      rw [surveyed] at accepted
      cases accepted
      exact ⟨result.1, result.2, rfl, rfl⟩

theorem prepare_processed {engine prepared : Engine} {segments : List Segment}
    (accepted : engine.prepare segments = .ok prepared) :
    prepared.tracker.Sound ∧ ∀ number, prepared.hasProcessed number = true ↔
      number ∈ numbers segments ∧ 0 ≤ number := by
  obtain ⟨tracker, nextGeneration, surveyed, rfl⟩ := prepare_ok accepted
  obtain ⟨sound, processed⟩ := survey_processed Tracker.sound_empty surveyed
  refine ⟨sound, fun number => ?_⟩
  rw [hasProcessed, processed, or_iff_right]
  simp [Tracker.hasProcessed]
  omega

theorem mem_numbers_congr {first second : List Segment} (same : first.Perm second)
    {number : Int} : number ∈ numbers first ↔ number ∈ numbers second :=
  (same.flatMap_right _).mem_iff

theorem allocate_ok {engine after : Engine} {generation : Generation}
    (allocated : engine.allocate = .ok (generation, after)) :
    generation = engine.nextGeneration ∧
      ∃ next, successor? engine.nextGeneration = some next ∧
        after = { engine with nextGeneration := next } := by
  unfold allocate at allocated
  split at allocated
  · next next found =>
      cases allocated
      exact ⟨rfl, next, found, rfl⟩
  · cases allocated

/-- Deleting a live copy leaves the tracker and the sources alone. -/
theorem removeLive_frame (engine : Engine) (id : Bytes) :
    ∃ segments pending resolver nextGeneration, (engine.removeLive id).2 =
      { engine with segments, pending, resolver, nextGeneration } := by
  unfold removeLive
  split
  · exact ⟨_, _, _, _, rfl⟩
  · dsimp only
    split
    · exact ⟨_, _, _, _, rfl⟩
    · exact ⟨_, _, _, _, rfl⟩
    · split
      · exact ⟨_, _, _, _, rfl⟩
      · next allocated =>
          obtain ⟨_, next, _, rfl⟩ := allocate_ok allocated
          exact ⟨_, _, _, _, rfl⟩

theorem perform_frame (engine : Engine) (operation : Operation) :
    ∃ segments pending resolver nextGeneration sources, (engine.perform operation).2 =
      { engine with segments, pending, resolver, nextGeneration, sources } := by
  unfold perform
  cases operation.action with
  | index id | delete id =>
      obtain ⟨segments, pending, resolver, nextGeneration, frame⟩ :=
        removeLive_frame engine (Text.Utf8.encode id)
      dsimp only
      split
      · next removed =>
          rw [removed] at frame
          exact ⟨_, _, _, _, _, frame⟩
      · next removed =>
          rw [removed] at frame
          cases frame
          exact ⟨_, _, _, _, _, rfl⟩
  | noOp reason => exact ⟨_, _, _, _, _, rfl⟩

theorem tracker_perform (engine : Engine) (operation : Operation) :
    (engine.perform operation).2.tracker = engine.tracker := by
  obtain ⟨_, _, _, _, _, frame⟩ := perform_frame engine operation
  rw [frame]

/-- Applying an operation marks its sequence number, which is not negative. -/
theorem apply_ok {engine after : Engine} {operation : Operation}
    (applied : engine.apply operation = (.ok (), after)) :
    engine.isPrepared = true ∧ 0 ≤ operation.seqNo ∧
      ∃ between, engine.perform operation = (.ok (), between) ∧
        after = { between with tracker := between.tracker.mark operation.seqNo.toInt } := by
  unfold apply at applied
  split at applied
  · cases applied
  · next prepared =>
      split at applied
      · cases applied
      · next positive =>
          split at applied
          · cases applied
          · next between performed =>
              cases applied
              refine ⟨by simpa using prepared, ?_, between, performed, rfl⟩
              exact Int64.not_lt.mp positive

theorem apply_processed {engine after : Engine} {operation : Operation}
    (sound : engine.tracker.Sound) (applied : engine.apply operation = (.ok (), after)) :
    after.tracker.Sound ∧ ∀ number, after.hasProcessed number = true ↔
      engine.hasProcessed number = true ∨ number = operation.seqNo.toInt ∧ 0 ≤ number := by
  obtain ⟨_, _, between, performed, rfl⟩ := apply_ok applied
  have same := tracker_perform engine operation
  rw [performed] at same
  have same : between.tracker = engine.tracker := same
  have marked := Tracker.mark_spec sound operation.seqNo.toInt
  rw [← same] at marked
  refine ⟨marked.1, fun number => ?_⟩
  rw [hasProcessed, hasProcessed, ← same]
  exact marked.2 number

theorem refresh_frame {engine after : Engine} (refreshed : engine.refresh = .ok after) :
    ∃ segments pending nextGeneration,
      after = { engine with segments, pending, nextGeneration } := by
  unfold refresh at refreshed
  split at refreshed
  · cases refreshed
    exact ⟨_, _, _, rfl⟩
  · cases allocated : engine.allocate with
    | error error =>
        rw [allocated] at refreshed
        cases refreshed
    | ok result =>
        obtain ⟨_, next, _, same⟩ := allocate_ok (show engine.allocate = .ok (result.1, result.2)
          from allocated)
        rw [allocated] at refreshed
        cases refreshed
        rw [same]
        exact ⟨_, _, _, rfl⟩

theorem tracker_refresh {engine after : Engine} (refreshed : engine.refresh = .ok after) :
    after.tracker = engine.tracker := by
  obtain ⟨_, _, _, rfl⟩ := refresh_frame refreshed
  rfl

end ShardSync.Engine
