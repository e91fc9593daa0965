import ShardSync.Proofs.Recovery.Exclusive

/-!
# The numbers of recoveries

The recoveries of a process are numbered one after the other, and a service uses some of
the numbers. As long as they last, a recovery that is not registered any more never comes
back.
-/

set_option autoImplicit false

namespace ShardSync.Recovery.Service

/-- A service that knew no shard, after it has answered some calls. -/
def serving (node : NodeId) (calls : List Call) : Service := calls.foldl answered { node }

theorem serving_concat (node : NodeId) (calls : List Call) (call : Call) :
    serving node (calls ++ [call]) = (serving node calls).answered call := by
  simp [serving]

theorem service_run (node : NodeId) (calls : List Call) :
    (Roster.run node calls).service = serving node calls := by
  induction calls using List.reverseRecOn with
  | nil => rfl
  | append_singleton calls call ih =>
      rw [Roster.run_concat, serving_concat, ← ih]
      rfl

theorem placed_serving (node : NodeId) (calls : List Call) : (serving node calls).Placed :=
  service_run node calls ▸ (Roster.accounted_run node calls).placed

/-- The number that a call gives out: that of the recovery that it starts. -/
def handsOut (service : Service) : Call → Option Int64
  | .event (.start shard source) =>
      (service.startRecovery shard source).1.toOption.map (·.recovery)
  | _ => none

/-- The numbers that a service gives out while it answers some calls. -/
def handedOut (service : Service) : List Call → List Int64
  | [] => []
  | call :: calls => (service.handsOut call).toList ++ (service.answered call).handedOut calls

def HasIssued (service : Service) (recovery : Int64) : Prop :=
  ∃ number, 0 < number ∧ number ≤ service.issued ∧ recovery = .ofNat number

/-- The number has been issued, and there is no such recovery any more. -/
structure IsSpent (service : Service) (recovery : Int64) : Prop where
  issued : service.HasIssued recovery
  gone : service.targets[recovery]? = none

variable {service : Service} {call : Call} {recovery : Int64}

theorem issued_supersede (service : Service) (shard : ShardId) (successor : Int64) :
    (service.supersede shard successor).issued = service.issued := by
  rcases supersede_cases service shard successor with
    ⟨_, same⟩ | ⟨_, _, _, same⟩ | ⟨_, _, _, _, _, _, same⟩ <;> rw [same] <;> rfl

theorem issued_superseded (service : Service) (shard : ShardId) :
    (service.superseded shard).issued = service.issued + 1 :=
  issued_supersede { service with issued := service.issued + 1 } shard _

theorem issued_retire (service : Service) (recovery : Int64) :
    (service.retire recovery).issued = service.issued := by
  unfold retire
  split <;> rfl

theorem issued_forget (service : Service) (recovery : Int64) :
    (service.forget recovery).2.issued = service.issued := by
  unfold forget
  split <;> rfl

theorem issued_remove (service : Service) (recovery : Int64) :
    (service.remove recovery).2.issued = service.issued := by
  unfold remove
  split
  · exact issued_forget service recovery
  · split
    · exact (issued_forget _ recovery).trans (issued_retire service recovery)
    · rfl

theorem issued_handle (service : Service) (request : Request) :
    (service.handle request).2.issued = service.issued := by
  rcases handle_cases service request with same | ⟨_, _, _, _, ⟨_, same⟩ | same⟩
  · rw [same]
  · rw [same]
    rfl
  · rw [same]
    exact issued_retire _ _

theorem issued_handleBytes (service : Service) (input : Bytes) :
    (service.handleBytes input).2.issued = service.issued := by
  rcases handleBytes_cases service input with same | ⟨request, same⟩
  · rw [same]
  · rw [same]
    exact issued_handle service request

theorem issued_le_answered (service : Service) (call : Call) :
    service.issued ≤ (service.answered call).issued := by
  cases call with
  | frame input => exact (issued_handleBytes service input).ge
  | event event =>
      cases event with
      | register => exact le_rfl
      | modify => exact le_rfl
      | elsewhere => exact Nat.le_succ _
      | remove recovery => exact (issued_remove service recovery).ge
      | handle request => exact (issued_handle service request).ge
      | start shard source =>
          have next := issued_superseded service shard
          simp only [answered, after]
          rcases startRecovery_outcome service shard source with
            ⟨_, _, started⟩ | ⟨_, started⟩ | ⟨_, _, started⟩
          · rw [started]
          · rw [started, next]
            exact Nat.le_succ _
          · rw [started]
            change service.issued ≤ (service.superseded shard).issued
            omega

theorem issued_le_foldl (service : Service) (calls : List Call) :
    service.issued ≤ (calls.foldl answered service).issued := by
  induction calls generalizing service with
  | nil => exact le_rfl
  | cons call calls ih => exact (issued_le_answered service call).trans (ih _)

theorem issued_le_serving (node : NodeId) (calls later : List Call) :
    (serving node calls).issued ≤ (serving node (calls ++ later)).issued := by
  unfold serving
  rw [List.foldl_append]
  exact issued_le_foldl _ later

/-- A number that is given out is the next one. -/
theorem handsOut_cases (out : service.handsOut call = some recovery) :
    recovery = .ofNat (service.issued + 1) ∧
      (service.answered call).issued = service.issued + 1 := by
  unfold handsOut at out
  split at out
  · next shard source =>
      cases started : service.startRecovery shard source with
      | mk outcome after =>
          rw [started] at out
          cases outcome with
          | error error => cases out
          | ok start =>
              cases out
              obtain ⟨place, _, number, _, _, _, rfl⟩ := startRecovery_ok started
              refine ⟨number, ?_⟩
              simp only [answered, Service.after, started]
              exact issued_superseded service shard
  · cases out

/-- A recovery that is registered was so before, or the call has given its number out. -/
theorem registered_answered (placed : service.Placed)
    (there : (service.answered call).targets[recovery]? ≠ none) :
    service.targets[recovery]? ≠ none ∨ service.handsOut call = some recovery := by
  have remains {after : Service} (shrinks : Shrinks service after)
      (there : after.targets[recovery]? ≠ none) : service.targets[recovery]? ≠ none :=
    fun gone => there (shrinks.gone gone)
  have handled (request : Request) (there : (service.handle request).2.targets[recovery]? ≠ none) :
      service.targets[recovery]? ≠ none := by
    rcases handle_cases service request with same | ⟨_, after, found, _, ⟨_, same⟩ | same⟩
    · rwa [same] at there
    · rw [same] at there
      exact remains (shrinks_worked placed found after) there
    · rw [same] at there
      exact remains ((shrinks_worked placed found after).trans (shrinks_retire _ _)) there
  cases call with
  | frame input =>
      rcases handleBytes_cases service input with same | ⟨request, same⟩
      · exact .inl (by rwa [answered, same] at there)
      · exact .inl (handled request (by rwa [answered, same] at there))
  | event event =>
      cases event with
      | register => exact .inl there
      | modify => exact .inl there
      | elsewhere => exact .inl there
      | remove removed => exact .inl (remains (shrinks_remove service removed) there)
      | handle request => exact .inl (handled request there)
      | start shard source =>
          simp only [answered, after, handsOut] at there ⊢
          rcases startRecovery_outcome service shard source with
            ⟨_, _, started⟩ | ⟨_, started⟩ | ⟨start, _, started⟩
          · rw [started] at there
            exact .inl there
          · rw [started] at there
            exact .inl (remains (shrinks_superseded placed shard) there)
          · rw [started] at there ⊢
            by_cases own : start.recovery = recovery
            · exact .inr (congrArg some own)
            · rw [targets_opened, if_neg own] at there
              exact .inl (remains (shrinks_superseded placed shard) there)

theorem HasIssued.answered (issued : service.HasIssued recovery) (call : Call) :
    (service.answered call).HasIssued recovery := by
  obtain ⟨number, positive, below, same⟩ := issued
  exact ⟨number, positive, below.trans (issued_le_answered service call), same⟩

theorem hasIssued_of_handsOut (out : service.handsOut call = some recovery) :
    (service.answered call).HasIssued recovery := by
  obtain ⟨same, issued⟩ := handsOut_cases out
  exact ⟨service.issued + 1, Nat.succ_pos _, issued.ge, same⟩

/-- Every recovery that is registered has got its number from the service. -/
theorem hasIssued_serving (node : NodeId) (calls : List Call)
    (there : (serving node calls).targets[recovery]? ≠ none) :
    (serving node calls).HasIssued recovery := by
  induction calls using List.reverseRecOn with
  | nil => simp [serving] at there
  | append_singleton calls call ih =>
      rw [serving_concat] at there ⊢
      rcases registered_answered (placed_serving node calls) there with before | out
      · exact (ih before).answered call
      · exact hasIssued_of_handsOut out

theorem number_inj {first second : Nat} (small : first < 2 ^ 64) (smallToo : second < 2 ^ 64) :
    Int64.ofNat first = Int64.ofNat second ↔ first = second := by
  constructor
  · intro same
    have bits := congrArg BitVec.toNat (congrArg Int64.toBitVec same)
    simp only [Int64.toBitVec_ofNat', BitVec.toNat_ofNat] at bits
    rwa [Nat.mod_eq_of_lt small, Nat.mod_eq_of_lt smallToo] at bits
  · exact congrArg _

/-- As long as the numbers last, a number that is given out is new. -/
theorem HasIssued.ne_of_handsOut {next : Int64} (issued : service.HasIssued recovery)
    (out : service.handsOut call = some next)
    (lasting : (service.answered call).issued < 2 ^ 64) : recovery ≠ next := by
  obtain ⟨number, _, below, rfl⟩ := issued
  obtain ⟨rfl, following⟩ := handsOut_cases out
  rw [Ne, number_inj (by omega) (by omega)]
  omega

/-- As long as the numbers last, no call brings a recovery back. -/
theorem IsSpent.answered (spent : service.IsSpent recovery) (placed : service.Placed)
    (lasting : (service.answered call).issued < 2 ^ 64) :
    (service.answered call).IsSpent recovery := by
  refine ⟨spent.issued.answered call, ?_⟩
  by_contra there
  rcases registered_answered placed there with before | out
  · exact before spent.gone
  · exact spent.issued.ne_of_handsOut out lasting rfl

theorem IsSpent.serving {node : NodeId} {calls : List Call}
    (spent : (serving node calls).IsSpent recovery) (later : List Call)
    (lasting : (Service.serving node (calls ++ later)).issued < 2 ^ 64) :
    (Service.serving node (calls ++ later)).IsSpent recovery := by
  induction later using List.reverseRecOn with
  | nil => rwa [List.append_nil]
  | append_singleton later call ih =>
      rw [← List.append_assoc, serving_concat] at lasting ⊢
      have before := ih ((issued_le_answered _ call).trans_lt lasting)
      exact before.answered (placed_serving node _) lasting

theorem mem_handedOut {calls : List Call} (member : recovery ∈ service.handedOut calls) :
    ∃ number, service.issued < number ∧ number ≤ (calls.foldl answered service).issued ∧
      recovery = .ofNat number := by
  induction calls generalizing service with
  | nil => cases member
  | cons call calls ih =>
      rcases List.mem_append.mp member with now | later
      · obtain ⟨same, issued⟩ := handsOut_cases (Option.mem_toList.mp now)
        have grows := issued_le_foldl (service.answered call) calls
        exact ⟨_, Nat.lt_succ_self _, issued.ge.trans grows, same⟩
      · obtain ⟨number, above, below, same⟩ := ih later
        exact ⟨number, (issued_le_answered service call).trans_lt above, below, same⟩

/-- The numbers that are given out ascend. -/
theorem pairwise_handedOut (service : Service) (calls : List Call)
    (lasting : (calls.foldl answered service).issued < 2 ^ 63) :
    (service.handedOut calls).Pairwise (· < ·) := by
  induction calls generalizing service with
  | nil => exact .nil
  | cons call calls ih =>
      refine List.pairwise_append.mpr ⟨?now, ih _ lasting, ?apart⟩
      case now => cases service.handsOut call <;> simp
      case apart =>
        intro first now second later
        obtain ⟨same, issued⟩ := handsOut_cases (Option.mem_toList.mp now)
        obtain ⟨number, above, below, sameToo⟩ := mem_handedOut later
        rw [List.foldl_cons] at lasting
        rw [same, sameToo, Int64.ofNat_lt_iff_lt (by omega) (by omega)]
        omega

end ShardSync.Recovery.Service
