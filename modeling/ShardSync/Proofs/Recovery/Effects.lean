import ShardSync.Proofs.Recovery.Conformance
import ShardSync.Proofs.Recovery.Counters
import ShardSync.Proofs.Recovery.Transfers

/-!
# What requests do to the files being received

Whatever comes of a request, there are five things that it can do to the files of its
recovery: leave them, post the announced ones, take a chunk or spoil a file with one, and
give the files their live names. When the recovery fails, temporary files go away and
nothing else happens to them.
-/

set_option autoImplicit false

namespace ShardSync.Store

/-- A file is as before or gone. -/
def Sheds (name : String) (before after : Store) : Prop :=
  after.files[name]? = before.files[name]? ∨ after.files[name]? = none

theorem Sheds.trans {name : String} {first second third : Store}
    (earlier : Sheds name first second) (later : Sheds name second third) :
    Sheds name first third := by
  rcases later with same | gone
  · rcases earlier with unchanged | gone
    · exact .inl (same.trans unchanged)
    · exact .inr (same.trans gone)
  · exact .inr gone

theorem sheds_deleteAll (store : Store) (names : List String) (name : String) :
    Sheds name store (store.deleteAll names).2 := by
  rw [Sheds, files_deleteAll]
  split
  · exact .inr rfl
  · exact .inl rfl

theorem sheds_removeTemps (store : Store) (recovery : Int64) (name : String) :
    Sheds name store (store.removeTemps recovery).2 :=
  sheds_deleteAll store _ name

/-- Renaming files takes temporary ones away and brings none. -/
theorem sheds_renameAll {store : Store} {files : List (String × String)} {name : String}
    (permanent : ∀ file ∈ files, isTemp file.1 = false) (temp : isTemp name = true) :
    Sheds name store (store.renameAll files).2 := by
  induction files generalizing store with
  | nil => exact .inl rfl
  | cons file files ih =>
      obtain ⟨here, later⟩ := List.forall_mem_cons.mp permanent
      unfold renameAll
      cases renamed : store.rename file.2 file.1 with
      | error error => exact .inl rfl
      | ok between =>
          refine Sheds.trans ?_ (ih later)
          obtain ⟨_, _, content, _, rfl⟩ := rename_eq_ok_iff.mp renamed
          have elsewhere : compare file.1 name ≠ .eq := fun same => by
            rw [Std.LawfulEqOrd.eq_of_compare same, temp] at here
            cases here
          rw [Sheds, Std.ExtTreeMap.getElem?_insert, if_neg elsewhere,
            Std.ExtTreeMap.getElem?_erase]
          split
          · exact .inr rfl
          · exact .inl rfl

theorem sheds_promote {store : Store} {files : List (String × String)} {keep : List String}
    {name : String} (permanent : ∀ file ∈ files, isTemp file.1 = false)
    (temp : isTemp name = true) : Sheds name store (store.promote files keep).2 := by
  have moving : Sheds name store (store.renameAll files).2 := sheds_renameAll permanent temp
  unfold promote
  split
  · exact .inl rfl
  · split
    · next stopped => rwa [stopped] at moving
    · next renamed ended =>
        rw [ended] at moving
        exact moving.trans (sheds_deleteAll _ _ _)

/-- A file that cannot be made is left as it was, or empty. -/
theorem createSized_cases (store : Store) (name : String) (length : Nat) :
    ((store.createSized name length).1 = .ok () ∧
      (store.createSized name length).2 =
        { store with files := store.files.insert name (.blank length) }) ∨
    ∃ error, (store.createSized name length).1 = .error error ∧
      ((store.createSized name length).2 = store ∨
        (store.createSized name length).2 =
          { store with files := store.files.insert name {} }) := by
  unfold createSized
  split
  · exact .inr ⟨_, rfl, .inl rfl⟩
  · split
    · exact .inl ⟨rfl, rfl⟩
    · exact .inr ⟨_, rfl, .inr rfl⟩

end ShardSync.Store

namespace ShardSync.Recovery

/-- The files to receive are among those of an announcement, and are as they were made. -/
def Receiver.Posts (announcement : Announcement) (before after : Receiver) : Prop :=
  ∀ (name : String) (incoming : Incoming), after.target.incoming[name]? = some incoming →
    ∃ size, (name, size) ∈ announcement.names.zip announcement.sizes ∧
      incoming = {
        tempName := Store.tempName before.target.recovery name, length := size.toNat } ∧
      after.copy.store.files[incoming.tempName]? = some (.blank size.toNat)

/-- What an answer does to the files of a recovery. -/
inductive Receiver.Effect (before : Receiver) : Request → Reply → Receiver → Prop where
  | rests {request : Request} {reply : Reply} {after : Receiver}
      (untaken : request.chunk? = none ∨ ∃ error, reply = .ofError error)
      (incoming : after.target.incoming = before.target.incoming)
      (files : ∀ name, Store.isTemp name = true →
        after.copy.store.files[name]? = before.copy.store.files[name]? ∨
          after.copy.store.files[name]? = none ∧ after.phase = .failed) :
      Effect before request reply after
  | posts {number asked : Int64} {shard : ShardId} {announcement : Announcement}
      {totalOps : UInt32} {reply : Reply} {between after : Receiver}
      (begun : before.phase = .init) (posts : Posts announcement before between)
      (incoming : after.target.incoming = between.target.incoming)
      (files : ∀ name, Store.isTemp name = true →
        after.copy.store.files[name]? = between.copy.store.files[name]? ∨
          after.copy.store.files[name]? = none ∧ after.phase = .failed) :
      Effect before (.step number asked shard (.announce announcement totalOps)) reply after
  | takes {number asked : Int64} {shard : ShardId} {chunk : Chunk} {totalOps : UInt32}
      {after : Receiver} {incoming entry : Incoming}
      (found : before.target.incoming[chunk.file.name]? = some incoming)
      (sets : Receiving.Sets chunk.file.name entry before after)
      (takes : Takes chunk incoming before.copy.store entry after.copy.store)
      (checked : incoming.isVerified = false →
        (∃ described, incoming.describe chunk.file = .ok described) ∧
          chunk.position.toNat + chunk.content.length ≤ incoming.length) :
      Effect before (.step number asked shard (.transfer chunk totalOps))
        (.chunkAck chunk.position) after
  | spoils {number asked : Int64} {shard : ShardId} {chunk : Chunk} {totalOps : UInt32}
      {error : Error} {after : Receiver} {incoming entry : Incoming} {between : Store}
      (found : before.target.incoming[chunk.file.name]? = some incoming)
      (pending : incoming.isVerified = false)
      (sets : Receiving.Sets chunk.file.name entry before after)
      (spoils : Spoils chunk incoming before.copy.store entry between)
      (files : ∀ name, Store.Sheds name between after.copy.store)
      (failed : after.phase = .failed) :
      Effect before (.step number asked shard (.transfer chunk totalOps)) (.ofError error) after
  | moves {request : Request} {reply : Reply} {after : Receiver}
      (untaken : request.chunk? = none)
      (incoming : after.target.incoming = before.target.incoming) (done : after.phase = .done)
      (files : ∀ (name : String) (incoming : Incoming),
        before.target.incoming[name]? = some incoming →
        after.copy.store.files[incoming.tempName]? = none ∧
          after.copy.store.live name = before.copy.store.files[incoming.tempName]?) :
      Effect before request reply after

namespace Receiving

variable {receiver final : Receiver}

/-- A chunk of a file that is not complete is taken if it says what is known of the file,
and lies within it. -/
theorem transfer_checked {chunk : Chunk} {reply : Reply} {incoming : Incoming}
    (found : receiver.target.incoming[chunk.file.name]? = some incoming)
    (pending : incoming.isVerified = false)
    (ran : (transfer chunk).start receiver = (.ok reply, final)) :
    (∃ described, incoming.describe chunk.file = .ok described) ∧
      chunk.position.toNat + chunk.content.length ≤ incoming.length := by
  unfold transfer at ran
  rw [start_get_bind] at ran
  obtain ⟨_, _, ran⟩ := check_bind_ok ran
  rw [found] at ran
  dsimp only at ran
  rw [if_pos (by rw [pending]; rfl)] at ran
  obtain ⟨described, known, ran⟩ := check_bind_ok ran
  obtain ⟨_, _, _, ran⟩ := bind_ok ran
  obtain ⟨_, bounded, _⟩ := check_bind_ok ran
  have within := Incoming.checkBounds_ok bounded
  rw [Incoming.describe_eq_ok known] at within
  exact ⟨⟨described, known⟩, within⟩

/-- Another temporary file makes no difference to the files that are posted already. -/
theorem posts_insert {announcement : Announcement} {between : Receiver} {name : String}
    (posts : receiver.Posts announcement between)
    (numbered : between.target.recovery = receiver.target.recovery)
    (new : between.target.incoming[name]? = none) (content : Content) :
    receiver.Posts announcement { between with
      copy.store.files := between.copy.store.files.insert
        (Store.tempName between.target.recovery name) content } := by
  intro other incoming found
  obtain ⟨size, member, rfl, made⟩ := posts other incoming found
  have apart : compare (Store.tempName between.target.recovery name)
      (Store.tempName receiver.target.recovery other) ≠ .eq := by
    intro same
    have same := Store.tempName_injective (numbered ▸ Std.LawfulEqOrd.eq_of_compare same)
    rw [← same, new] at found
    cases found
  refine ⟨size, member, rfl, ?_⟩
  rwa [Std.ExtTreeMap.getElem?_insert, if_neg apart]

/-- Files are posted one after the other, up to the first that cannot be made. -/
theorem ensures_forM_stage_posts {announcement : Announcement} {between : Receiver}
    {files : List (String × UInt64)} (distinct : (files.map Prod.fst).Nodup)
    (listed : ∀ file ∈ files, file ∈ announcement.names.zip announcement.sizes)
    (fresh : ∀ name ∈ files.map Prod.fst, between.target.incoming[name]? = none)
    (numbered : between.target.recovery = receiver.target.recovery)
    (posts : receiver.Posts announcement between) :
    Ensures (receiver.Posts announcement) (files.forM stage)
      (fun _ => receiver.Posts announcement) between := by
  induction files generalizing between with
  | nil => exact posts
  | cons file files ih =>
      obtain ⟨outside, distinct⟩ := List.nodup_cons.mp distinct
      obtain ⟨here, listed⟩ := List.forall_mem_cons.mp listed
      obtain ⟨new, fresh⟩ := List.forall_mem_cons.mp fresh
      rw [List.forM_eq_forM, List.forM_cons]
      simp only [stage, ensures_bind, ensures_get]
      rw [Ensures, start_throughStore]
      rcases between.copy.store.createSized_cases
          (Store.tempName between.target.recovery file.1) file.2.toNat with
        ⟨made, store⟩ | ⟨error, refused, store⟩
      · rw [made, store]
        refine ih distinct listed (fun name member => ?_) numbered fun name incoming found => ?_
        · have differ : file.1 ≠ name := fun same => outside (same ▸ member)
          have apart : compare file.1 name ≠ .eq := fun same =>
            differ (Std.LawfulEqOrd.eq_of_compare same)
          simpa [Std.ExtTreeMap.getElem?_insert, apart] using fresh name member
        · simp only [Std.ExtTreeMap.getElem?_insert] at found
          split at found
          · next same =>
              cases found
              rw [← Std.LawfulEqOrd.eq_of_compare same, ← numbered]
              exact ⟨file.2, here, rfl, Std.ExtTreeMap.getElem?_insert_self⟩
          · exact posts_insert posts numbered new _ name incoming found
      · rw [refused]
        rcases store with store | store
        · rw [store]
          exact posts
        · rw [store]
          exact posts_insert posts numbered new {}

theorem ensures_announce_posts (sound : receiver.target.Sound) (announcement : Announcement)
    (totalOps : UInt32) :
    let rests (after : Receiver) : Prop := holdings after = holdings receiver ∨
      receiver.phase = .init ∧ receiver.Posts announcement after
    Ensures rests (announce announcement totalOps) (fun _ => rests) receiver := by
  intro rests
  rw [announce, ensures_bind, ensures_get, ensures_bind]
  refine ensures_check (.inl rfl) fun _ expected => ?_
  have begun : receiver.phase = .init := Progress.expect_ok expected
  have none (name : String) : receiver.target.incoming[name]? = none := by
    rw [sound.unannounced begun]
    exact Std.ExtTreeMap.getElem?_empty
  rw [ensures_bind]
  refine ensures_check (.inl rfl) fun bytes accepted => ?_
  rw [ensures_bind]
  refine (ensures_forM_stage_posts (Announcement.files_of_accept accepted).2
    (fun file member => member) (fun name _ => none name) rfl fun name incoming found => ?_).mono
    (fun after posts => .inr ⟨begun, posts⟩) fun _ between posts => ?_
  · rw [none] at found
    cases found
  · dsimp only
    refine Ensures.of_keeps ?_ fun after (same : holdings after = holdings between) => ?_
    · refine .bind (.modifyTarget fun _ => rfl) fun _ => .bind (.modifyProgress fun _ => rfl) ?_
      intro _
      exact .bind (.transition fun _ _ => rfl) fun _ => .bind (.log fun _ _ => rfl) fun _ => .pure _
    · simp only [holdings, Prod.mk.injEq] at same
      refine .inr ⟨begun, fun name incoming found => ?_⟩
      rw [same.2.1] at found
      rw [same.2.2]
      exact posts name incoming found

/-- An announcement that is taken has posted all its files. -/
theorem announce_complete {announcement : Announcement} {totalOps : UInt32} {reply : Reply}
    (ran : (announce announcement totalOps).start receiver = (.ok reply, final)) :
    ∀ file ∈ announcement.names.zip announcement.sizes, ∃ incoming,
      final.target.incoming[file.1]? = some incoming ∧ incoming.length = file.2.toNat := by
  obtain ⟨_, _, bytes, between, accepted, staged, _, target⟩ := announce_ok ran
  obtain ⟨blank, _⟩ := forM_stage_blank (Announcement.files_of_accept accepted).2 staged
  intro file member
  rw [target]
  exact ⟨_, (blank file member).1, rfl⟩

/-- A recovery that is made final moves every received file to its live name. -/
theorem finalize_moves {globalCheckpoint : Int64} {reply : Reply} (sound : receiver.target.Sound)
    (ran : (finalize globalCheckpoint).start receiver = (.ok reply, final)) :
    final.target.incoming = receiver.target.incoming ∧ final.phase = .done ∧
      ∀ (name : String) (incoming : Incoming), receiver.target.incoming[name]? = some incoming →
        final.copy.store.files[incoming.tempName]? = none ∧
          final.copy.store.live name = receiver.copy.store.files[incoming.tempName]? := by
  obtain ⟨_, _, _, target, unobstructed, live, temps⟩ := finalize_promotes sound ran
  refine ⟨by rw [target], by rw [Receiver.phase, target], fun name incoming found => ?_⟩
  have member : (name, incoming.tempName) ∈ receiver.target.received :=
    Target.mem_received_iff.mpr ⟨incoming, found, rfl⟩
  constructor
  · rw [temps _ (sound.staging.temporary _ member), if_pos (List.mem_map_of_mem member)]
  · exact (live name).trans (Target.liveAfter_of_received unobstructed found)

theorem finalize_sheds {globalCheckpoint : Int64} {error : Error} (sound : receiver.target.Sound)
    (ran : (finalize globalCheckpoint).start receiver = (.error error, final)) :
    final.target.incoming = receiver.target.incoming ∧
      ∀ name, Store.isTemp name = true →
        Store.Sheds name receiver.copy.store final.copy.store := by
  by_cases ready : receiver.phase = .ops ∧
      receiver.target.opsRecovered = receiver.target.totalOps
  · obtain ⟨journal, _, outcome⟩ := start_finalize ready.1 ready.2 globalCheckpoint
    rw [outcome] at ran
    have sheds {name : String} (temp : Store.isTemp name = true) :
        Store.Sheds name receiver.copy.store (receiver.copy.store.promote
          receiver.target.received receiver.target.announcedNames).2 :=
      Store.sheds_promote sound.staging.permanent temp
    split at ran
    · cases ran
    · next stopped =>
        cases ran
        rw [stopped] at sheds
        exact ⟨rfl, fun name => sheds⟩
  · obtain ⟨refusal, outcome⟩ := finalize_refused ready globalCheckpoint
    rw [outcome] at ran
    cases ran
    exact ⟨rfl, fun name _ => .inl rfl⟩

end Receiving

namespace Receiver

variable {receiver between : Receiver} {request : Request} {reply : Reply}

/-- A recovery that is given up keeps what it knows of its files, and each of these is as
before or gone. -/
theorem sheds_abort (going : between.isOver = false) (description : String) (cancelled : Bool)
    (event : Log.Event) (fields : List (String × String)) :
    let after := between.abort description cancelled event fields
    after.target.incoming = between.target.incoming ∧ after.phase = .failed ∧
      ∀ name, Store.Sheds name between.copy.store after.copy.store := by
  refine ⟨incoming_abort .., phase_abort going .., fun name => ?_⟩
  rw [store_abort]
  exact Store.sheds_removeTemps ..

theorem Effect.of_sheds {after : Receiver}
    (untaken : request.chunk? = none ∨ ∃ error, reply = .ofError error)
    (incoming : after.target.incoming = receiver.target.incoming) (failed : after.phase = .failed)
    (files : ∀ name, Store.isTemp name = true →
      Store.Sheds name receiver.copy.store after.copy.store) :
    Effect receiver request reply after :=
  .rests untaken incoming fun name temp => (files name temp).imp id fun gone => ⟨gone, failed⟩

theorem Effect.of_holdings {after : Receiver}
    (untaken : request.chunk? = none ∨ ∃ error, reply = .ofError error)
    (kept : Receiving.holdings after = Receiving.holdings receiver) :
    Effect receiver request reply after := by
  simp only [Receiving.holdings, Prod.mk.injEq] at kept
  exact .rests untaken kept.2.1 fun name _ => .inl (by rw [kept.2.2])

theorem effect_performed {number asked : Int64} {shard : ShardId} {command : Command}
    {after : Receiver} (sound : receiver.target.Sound)
    (ran : command.perform.start receiver = (.ok reply, after)) :
    Effect receiver (.step number asked shard command) reply after := by
  cases command with
  | announce announcement totalOps =>
      rcases (Receiving.ensures_announce_posts sound announcement totalOps).of_ok ran with
        kept | ⟨begun, posts⟩
      · exact .of_holdings (.inl rfl) kept
      · exact .posts begun posts rfl fun name _ => .inl rfl
  | transfer chunk totalOps =>
      obtain ⟨incoming, entry, found, sets, takes⟩ := Receiving.transfer_takes ran
      rw [Receiving.transfer_reply ran]
      exact .takes found sets takes fun pending => Receiving.transfer_checked found pending ran
  | filesComplete startSeqNo totalOps =>
      exact .of_holdings (.inl rfl)
        ((Receiving.holdings_filesComplete startSeqNo totalOps).of_ok ran)
  | replay operations totalOps =>
      exact .of_holdings (.inl rfl)
        (((Receiving.besidesOps_replay operations totalOps).part Receiving.holdings).of_ok ran)
  | finalize globalCheckpoint =>
      obtain ⟨incoming, done, files⟩ := Receiving.finalize_moves sound ran
      exact .moves rfl incoming done files

theorem effect_failed {number asked : Int64} {shard : ShardId} {command : Command} {error : Error}
    (sound : receiver.target.Sound) (going : receiver.isOver = false)
    (ran : command.perform.start receiver = (.error error, between)) (reported : Error) :
    Effect receiver (.step number asked shard command) (.ofError reported)
      (between.fail reported) := by
  obtain ⟨incoming, failed, files⟩ := sheds_abort (Receiving.isOver_perform going ran)
    reported.message reported.isCancellation (failureEvent reported)
    [("code", reported.kind.code), ("reason", reported.detail)]
  have rests (kept : Receiving.holdings between = Receiving.holdings receiver) :
      Effect receiver (.step number asked shard command) (.ofError reported)
        (between.fail reported) := by
    simp only [Receiving.holdings, Prod.mk.injEq] at kept
    exact .of_sheds (.inr ⟨reported, rfl⟩) (incoming.trans kept.2.1) failed
      fun name _ => kept.2.2 ▸ files name
  cases command with
  | announce announcement totalOps =>
      rcases (Receiving.ensures_announce_posts sound announcement totalOps).of_error ran with
        kept | ⟨begun, posts⟩
      · exact rests kept
      · exact .posts begun posts incoming fun name _ =>
          (files name).imp id fun gone => ⟨gone, failed⟩
  | transfer chunk totalOps =>
      rcases Receiving.transfer_spoils ran with
        ⟨rfl, _⟩ | ⟨before, entry, found, pending, sets, spoils⟩
      · exact rests rfl
      · have setsToo : Receiving.Sets chunk.file.name entry receiver (between.fail reported) := by
          rw [Receiving.Sets, show (between.fail reported).target.incoming = _ from incoming]
          exact sets
        exact .spoils found pending setsToo spoils files failed
  | filesComplete startSeqNo totalOps =>
      exact rests ((Receiving.holdings_filesComplete startSeqNo totalOps).after ran)
  | replay operations totalOps =>
      exact rests
        (((Receiving.besidesOps_replay operations totalOps).part Receiving.holdings).after ran)
  | finalize globalCheckpoint =>
      obtain ⟨kept, sheds⟩ := Receiving.finalize_sheds sound ran
      exact .of_sheds (.inl rfl) (incoming.trans kept) failed fun name temp =>
        (sheds name temp).trans (files name)

/-- What any request does to the files of a recovery. -/
theorem effect_handle (sound : receiver.phase ≠ .failed → receiver.target.Sound)
    (request : Request) :
    Effect receiver request (receiver.handle request).1 (receiver.handle request).2 := by
  have answer := answer_handle receiver request
  generalize (receiver.handle request).1 = reply at answer ⊢
  generalize (receiver.handle request).2 = after at answer ⊢
  cases answer with
  | @cancelled _ _ reason =>
      cases ended : receiver.isOver with
      | true =>
          rw [cancel_of_isOver ended]
          exact .of_holdings (.inl rfl) rfl
      | false =>
          obtain ⟨incoming, failed, files⟩ := sheds_abort ended reason true .recoveryCancelled
            [("reason", reason)]
          have given : receiver.cancel reason = receiver.abort reason true .recoveryCancelled
              [("reason", reason)] := if_neg (by simpa [isOver] using ended)
          rw [given]
          exact .of_sheds (.inl rfl) incoming failed fun name _ => files name
  | refused ended => exact .of_holdings (.inr ⟨_, rfl⟩) rfl
  | performed going ran => exact effect_performed (sound (not_failed_of_going going)) ran
  | failed going ran => exact effect_failed (sound (not_failed_of_going going)) going ran _

/-- An announcement that does not fail posts all its files. -/
theorem entered_of_announce {number asked : Int64} {shard : ShardId} {announcement : Announcement}
    {totalOps : UInt32} (begun : receiver.phase = .init)
    (lasting : (receiver.handle (.step number asked shard
      (.announce announcement totalOps))).2.phase ≠ .failed) :
    ∀ file ∈ announcement.names.zip announcement.sizes, ∃ incoming,
      (receiver.handle (.step number asked shard
        (.announce announcement totalOps))).2.target.incoming[file.1]? = some incoming ∧
      incoming.length = file.2.toNat := by
  have going : receiver.isOver = false := isOver_of_phase begun
  cases ran : (Command.announce announcement totalOps).perform.start receiver with
  | mk outcome after =>
      cases outcome with
      | ok reply =>
          rw [handle_of_ok going ran]
          exact Receiving.announce_complete ran
      | error error =>
          rw [handle_of_error going ran] at lasting
          exact absurd (phase_fail going ran _) lasting

end Receiver

end ShardSync.Recovery
