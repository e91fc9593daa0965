import ShardSync.Proofs.Recovery.Coverage

/-!
# One recovery of a shard after the other

What the events of a run make of a service. A recovery that is started works on
what the one before it has left: if that one had been going on it is cancelled
first. A shard remembers how the last of its recoveries has ended, and no event
but the end of a recovery makes it remember a failure.
-/

set_option autoImplicit false

namespace ShardSync.Recovery.Service

/-- How the last recovery of a shard that is over has ended. -/
def finishedOf (service : Service) (shard : ShardId) : Option (Int64 × Progress) :=
  service.slots[shard]?.bind (·.finished?)

/-- Some shard remembers that the recovery has failed. -/
def HasFailed (service : Service) (recovery : Int64) : Prop :=
  ∃ shard progress, service.finishedOf shard = some (recovery, progress) ∧
    progress.phase = .failed

theorem hasFailed_iff {service : Service} {recovery : Int64} :
    service.HasFailed recovery ↔ ∃ entry ∈ service.slots.toList, ∃ last ∈ entry.2.finished?,
      last.1 = recovery ∧ last.2.phase = .failed := by
  unfold HasFailed finishedOf
  constructor
  · rintro ⟨shard, progress, found, ended⟩
    rw [Option.bind_eq_some_iff] at found
    obtain ⟨slot, known, finished⟩ := found
    exact ⟨(shard, slot), Std.ExtTreeMap.mem_toList_iff_getElem?_eq_some.mpr known,
      (recovery, progress), finished, rfl, ended⟩
  · rintro ⟨⟨shard, slot⟩, known, ⟨last, progress⟩, finished, rfl, ended⟩
    have known := Std.ExtTreeMap.mem_toList_iff_getElem?_eq_some.mp known
    exact ⟨shard, progress, by rw [known]; exact finished, ended⟩

instance (service : Service) (recovery : Int64) : Decidable (service.HasFailed recovery) :=
  decidable_of_iff _ hasFailed_iff.symm

theorem hasFailed_modifySlot {service : Service} {shard : ShardId} {change : Slot → Slot}
    {recovery : Int64} (failed : (service.modifySlot shard change).HasFailed recovery) :
    service.HasFailed recovery ∨ ∃ slot progress, service.slots[shard]? = some slot ∧
      (change slot).finished? = some (recovery, progress) ∧ progress.phase = .failed := by
  obtain ⟨other, progress, found, ended⟩ := failed
  rw [finishedOf, slots_modifySlot] at found
  split at found
  · next same =>
      subst same
      cases known : service.slots[shard]? with
      | none =>
          rw [known] at found
          cases found
      | some slot =>
          rw [known] at found
          exact .inr ⟨slot, progress, rfl, found, ended⟩
  · exact .inl ⟨other, progress, found, ended⟩

/-- A change of a slot that keeps how its last recovery has ended. -/
theorem hasFailed_annotate {service : Service} {shard : ShardId} {change : Slot → Slot}
    {recovery : Int64} (failed : (service.modifySlot shard change).HasFailed recovery)
    (same : ∀ slot, (change slot).finished? = slot.finished?) :
    service.HasFailed recovery := by
  rcases hasFailed_modifySlot failed with before | ⟨slot, progress, known, finished, ended⟩
  · exact before
  · refine ⟨shard, progress, ?_, ended⟩
    rw [finishedOf, known, ← finished, same]
    rfl

theorem hasFailed_register {service : Service} {shard : ShardId} {store : String}
    {engine : Engine} {recovery : Int64}
    (failed : (service.register shard store engine).HasFailed recovery) :
    service.HasFailed recovery := by
  obtain ⟨other, progress, found, ended⟩ := failed
  rw [finishedOf, slots_register] at found
  split at found
  · cases found
  · exact ⟨other, progress, found, ended⟩

theorem hasFailed_forget {service : Service} {forgotten recovery : Int64}
    (failed : (service.forget forgotten).2.HasFailed recovery) : service.HasFailed recovery := by
  unfold forget at failed
  split at failed
  · exact failed
  · rcases hasFailed_modifySlot failed with before | ⟨_, _, _, finished, _⟩
    · exact before
    · cases finished

theorem hasFailed_retire {service : Service} {retired recovery : Int64}
    (failed : (service.retire retired).HasFailed recovery) :
    service.HasFailed recovery ∨ recovery = retired ∧ ∃ registered,
      service.targets[retired]? = some registered ∧
        registered.target.progress.phase = .failed := by
  unfold retire at failed
  cases there : service.targets[retired]? with
  | none =>
      rw [there] at failed
      exact .inl failed
  | some registered =>
      rw [there] at failed
      rcases hasFailed_modifySlot failed with before | ⟨_, _, _, finished, ended⟩
      · exact .inl before
      · cases finished
        exact .inr ⟨rfl, registered, rfl, ended⟩

theorem copyAt_keep (service : Service) (place : Place) (receiver : Receiver) :
    (service.keep place receiver).copyAt place = receiver.copy := by
  simp [copyAt, keep]

theorem engine?_of_slotPlace {service : Service} {shard : ShardId} {place : Place}
    (found : service.slotPlace shard = some place) :
    service.engine? shard = some (service.engineAt place.engine) := by
  rw [slotPlace, Option.map_eq_some_iff] at found
  obtain ⟨slot, known, rfl⟩ := found
  rw [engine?, known]
  rfl

/-- The service in which the active recovery of a shard has made way for a new one. -/
def superseded (service : Service) (shard : ShardId) : Service :=
  supersede { service with issued := service.issued + 1 } shard (.ofNat (service.issued + 1))

theorem copyAt_retire (service : Service) (recovery : Int64) :
    (service.retire recovery).copyAt = service.copyAt := by
  unfold retire
  split <;> rfl

/-- A recovery that is going on is cancelled when another one of its shard is started. -/
theorem supersede_of_registered {service : Service} {shard : ShardId} {previous : Int64}
    {registered : Registered} (active : service.activeOf shard = some previous)
    (there : service.targets[previous]? = some registered)
    (going : registered.target.progress.isTerminal = false) (successor : Int64) :
    ∃ reason line, service.supersede shard successor =
      (keep { service.modifySlot shard fun slot => { slot with active? := none } with
        targets := service.targets.erase previous } registered.place
          (((service.receiver registered).cancel reason).logLine line)).modifySlot shard fun slot =>
            { slot with
              finished? :=
                some (previous, ((service.receiver registered).cancel reason).target.progress) } := by
  refine ⟨s!"superseded by recovery [{successor}]", .ofEvent .recoverySuperseded [
    ("recovery_id", toString previous), ("shard", shard.label),
    ("superseded_by", toString successor)], ?_⟩
  unfold supersede
  rw [show service.slots[shard]?.bind (·.active?) = some previous from active]
  dsimp only
  rw [show (service.modifySlot shard fun slot => { slot with active? := none }).targets =
    service.targets from rfl, there]
  dsimp only
  rw [if_neg (by simpa [receiver] using going)]
  rfl

theorem hasFailed_supersede {service : Service} {shard : ShardId} {successor recovery : Int64}
    (going : ∀ (recovery : Int64) (registered : Registered),
      service.targets[recovery]? = some registered →
        registered.target.progress.isTerminal = false)
    (unfailed : ¬ service.HasFailed recovery)
    (failed : (service.supersede shard successor).HasFailed recovery) :
    ∃ registered reason, service.targets[recovery]? = some registered ∧
      ((service.supersede shard successor).copyAt registered.place) =
        ((service.receiver registered).cancel reason).copy ∧
      ((service.receiver registered).cancel reason).phase = .failed := by
  rcases supersede_cases service shard successor with
    ⟨_, same⟩ | ⟨previous, _, _, same⟩ | ⟨previous, registered, _, _, active, there, _⟩
  · rw [same] at failed
    exact absurd failed unfailed
  · rw [same] at failed
    exact absurd (hasFailed_annotate failed fun _ => rfl) unfailed
  · obtain ⟨reason, line, same⟩ :=
      supersede_of_registered active there (going previous registered there) successor
    rw [same] at failed ⊢
    rcases hasFailed_modifySlot failed with before | ⟨slot, progress, _, finished, ended⟩
    · have before : (service.modifySlot shard fun slot =>
          { slot with active? := none }).HasFailed recovery := before
      exact absurd (hasFailed_annotate before fun _ => rfl) unfailed
    · cases finished
      exact ⟨registered, reason, there, copyAt_keep .., ended⟩

theorem shrinks_superseded {service : Service} (placed : service.Placed) (shard : ShardId) :
    Shrinks service (service.superseded shard) := by
  have numbered : Placed { service with issued := service.issued + 1 } :=
    placed.shrinks (.of_same rfl rfl rfl)
  have renumbered : Shrinks service { service with issued := service.issued + 1 } :=
    .of_same rfl rfl rfl
  exact renumbered.trans (shrinks_supersede numbered shard _)

theorem spares_superseded {service : Service} (placed : service.Placed) (shard : ShardId) :
    Spares service (service.superseded shard) := by
  have numbered : Placed { service with issued := service.issued + 1 } :=
    placed.shrinks (.of_same rfl rfl rfl)
  exact spares_supersede numbered shard _

/-- A recovery that is started works on what the one before has left. -/
theorem startRecovery_ok {service after : Service} {shard : ShardId} {source : NodeId}
    {start : StartRequest} (started : service.startRecovery shard source = (.ok start, after)) :
    ∃ place, service.slotPlace shard = some place ∧
      start.recovery = .ofNat (service.issued + 1) ∧ start.shard = shard ∧
      ((service.superseded shard).copyAt place).store.liveFiles = .ok start.files ∧
      start.startSeqNo =
        .ofInt (((service.superseded shard).copyAt place).engine.localCheckpoint + 1) ∧
      after = (service.superseded shard).opened shard start.recovery
        { target := { recovery := start.recovery, shard }, place } := by
  unfold startRecovery at started
  cases found : service.slots[shard]? with
  | none =>
      rw [found] at started
      cases started
  | some slot =>
      rw [found] at started
      dsimp only at started
      refine ⟨slot.place, by rw [slotPlace, found]; rfl, ?_⟩
      split at started
      · cases started
      · next files listed =>
          cases started
          exact ⟨rfl, rfl, listed, rfl, rfl⟩

theorem startRecovery_error {service after : Service} {shard : ShardId} {source : NodeId}
    {error : Error} (started : service.startRecovery shard source = (.error error, after)) :
    after = service ∨ after = service.superseded shard := by
  unfold startRecovery at started
  cases found : service.slots[shard]? with
  | none =>
      rw [found] at started
      cases started
      exact .inl rfl
  | some slot =>
      rw [found] at started
      dsimp only at started
      split at started
      · cases started
        exact .inr rfl
      · cases started

/-- What an event makes of a service. -/
def after (service : Service) : Event → Service
  | .register shard store engine => service.register shard store engine
  | .modify store change => service.modifyStore store change
  | .start shard source => (service.startRecovery shard source).2
  | .remove recovery => (service.remove recovery).2
  | .handle request => (service.handle request).2
  | .elsewhere => service.skipNumber

end ShardSync.Recovery.Service
