import Mathlib.Data.List.Perm.Basic
import ShardSync.Proofs.Recovery.Conformance
import ShardSync.Proofs.Recovery.Rollback
import ShardSync.Proofs.Recovery.Verification

/-!
# Segments before and after a recovery is made final

The operations are replayed on segments some of which are still under temporary names. Once
the recovery is made final, its live files hold the same segments: nothing that happens in
between changes a file that was announced, and to promote a file only changes its name. So
an engine that is built from the live files begins where the replay began.
-/

set_option autoImplicit false

namespace ShardSync.Recovery

section Segments

/-- Segments of different generations are put in one order, in whichever order they are
found. -/
theorem byGeneration_eq_of_perm {first second : List Segment} (perm : first.Perm second)
    (distinct : (second.map (·.generation)).Nodup) :
    byGeneration first = byGeneration second := by
  have sorted (segments : List Segment) : (byGeneration segments).Pairwise
      fun earlier later => decide (earlier.generation ≤ later.generation) = true := by
    apply List.pairwise_mergeSort
    · intro first second third earlier later
      exact decide_eq_true
        (UInt64.le_trans (of_decide_eq_true earlier) (of_decide_eq_true later))
    · intro first second
      simpa using UInt64.le_total first.generation second.generation
  have same : (byGeneration first).Perm (byGeneration second) :=
    ((byGeneration_perm first).trans perm).trans (byGeneration_perm second).symm
  refine List.Perm.eq_of_pairwise ?_ (sorted first) (sorted second) same
  intro segment other member listed before after
  have generation := UInt64.le_antisymm (of_decide_eq_true before) (of_decide_eq_true after)
  have here := (byGeneration_perm second).mem_iff.mp (same.mem_iff.mp member)
  have there := (byGeneration_perm second).mem_iff.mp listed
  exact List.inj_on_of_nodup_map distinct here there generation

theorem exists_perm_of_mapM {ε α β : Type} {change : α → Except ε β} {items others : List α}
    {results : List β} (perm : others.Perm items) (changed : items.mapM change = .ok results) :
    ∃ found, others.mapM change = .ok found ∧ found.Perm results := by
  obtain ⟨found, all, same⟩ := List.perm_comp_forall₂ perm (mapM_eq_ok_iff.mp changed)
  exact ⟨found, mapM_eq_ok_iff.mpr all, same⟩

end Segments

/-- Files that a target does not receive are there, under names that a file may have. -/
structure Target.Spares (target : Target) (store : Store) : Prop where
  distinct : target.existing.Nodup
  there : ∀ name ∈ target.existing,
    Store.isValidName name = true ∧ (store.live name).isSome = true

/-- Making a recovery final gets to the end and leaves these live files. -/
structure Target.Promotes (target : Target) (before after : Store) : Prop where
  possible : target.Unobstructed before
  live : ∀ name, after.live name = target.liveAfter before name

namespace Target

variable {target : Target} {before after : Store}

theorem map_fst_stagedNames (target : Target) :
    target.stagedNames.map (·.1) = target.announcedNames := by
  rw [stagedNames, announcedNames, List.map_append, List.map_map, List.map_map,
    ← Std.ExtTreeMap.map_fst_toList_eq_keys]
  congr 1
  exact List.map_id _

theorem map_fst_filter_stagedNames (target : Target) :
    (target.stagedNames.filter (isSegmentName ·.1)).map (·.1) =
      target.announcedNames.filter isSegmentName := by
  rw [← map_fst_stagedNames, List.filter_map]
  rfl

theorem nodup_announcedNames (sound : target.Sound) (distinct : target.existing.Nodup) :
    target.announcedNames.Nodup := by
  refine List.nodup_append.mpr ⟨Std.ExtTreeMap.nodup_keys, distinct, ?_⟩
  rintro name received other spared rfl
  exact sound.apart name spared (Std.ExtTreeMap.mem_keys.mp received)

theorem Promotes.congr {other : Target} (promotes : target.Promotes before after)
    (incoming : target.incoming = other.incoming) (existing : target.existing = other.existing) :
    other.Promotes before after := by
  have announced : target.announcedNames = other.announcedNames := by
    rw [announcedNames, announcedNames, incoming, existing]
  have received : target.received = other.received := by
    rw [Target.received, Target.received, incoming]
  obtain ⟨⟨names, stale⟩, live⟩ := promotes
  rw [incoming] at names
  rw [announced] at stale
  simp only [liveAfter, announced, received] at live
  exact ⟨⟨names, stale⟩, live⟩

theorem Promotes.announced (promotes : target.Promotes before after) {name : String}
    (there : name ∈ after.liveNames) : name ∈ target.announcedNames := by
  by_contra unannounced
  rw [Store.mem_liveNames_iff, promotes.live,
    liveAfter_of_unannounced promotes.possible unannounced] at there
  cases there

theorem Promotes.isValidName (promotes : target.Promotes before after)
    (spares : target.Spares before) {name : String} (announced : name ∈ target.announcedNames) :
    Store.isValidName name = true := by
  rcases mem_announcedNames_iff.mp announced with received | spared
  · exact promotes.possible.names name received
  · exact (spares.there name spared).1

/-- Every announced file has become live, as it was stored. -/
theorem Promotes.stored (promotes : target.Promotes before after) (sound : target.Sound)
    {file : String × String} (member : file ∈ target.stagedNames) :
    after.live file.1 = before.files[file.2]? := by
  rcases List.mem_append.mp member with received | spared
  · obtain ⟨⟨name, incoming⟩, listed, rfl⟩ := List.mem_map.mp received
    have found := Std.ExtTreeMap.mem_toList_iff_getElem?_eq_some.mp listed
    rw [promotes.live, liveAfter_of_received promotes.possible found]
  · obtain ⟨name, listed, rfl⟩ := List.mem_map.mp spared
    have announced := mem_announcedNames_iff.mpr (.inr listed)
    rw [promotes.live, liveAfter_of_existing sound promotes.possible listed,
      Store.live_of_not_isTemp (sound.permanent name announced)]

theorem Promotes.readSegments (promotes : target.Promotes before after) (sound : target.Sound)
    (spares : target.Spares before) {segments : List Segment}
    (staged : (target.stagedNames.filter (isSegmentName ·.1)).mapM
      (fun file => readSegment before file.2) = .ok segments) :
    (target.announcedNames.filter isSegmentName).mapM (readSegment after) = .ok segments := by
  rw [← map_fst_filter_stagedNames, List.mapM_map]
  -- What could be read under one name can now be read under the other.
  refine mapM_eq_ok_of_forall (fun file member segment read => ?_) staged
  have listed := (List.mem_filter.mp member).1
  have announced : file.1 ∈ target.announcedNames := by
    rw [← map_fst_stagedNames]
    exact List.mem_map_of_mem listed
  obtain ⟨content, -, there, decoded⟩ := readSegment_eq_ok_iff.mp read
  have promoted : after.files[file.1]? = some content :=
    Store.files_of_live ((promotes.stored sound listed).trans there)
  exact readSegment_eq_ok_iff.mpr
    ⟨content, promotes.isValidName spares announced, promoted, decoded⟩

/-- The live names come in the order of the store, the announced ones in that of the target. -/
theorem Promotes.perm_names (promotes : target.Promotes before after) (sound : target.Sound)
    (spares : target.Spares before) {segments : List Segment}
    (read : (target.announcedNames.filter isSegmentName).mapM (readSegment after) =
      .ok segments) :
    (after.liveNames.filter isSegmentName).Perm (target.announcedNames.filter isSegmentName) := by
  have single : after.liveNames.Nodup := after.files.nodup_keys.filter _
  have once := nodup_announcedNames sound spares.distinct
  refine (List.perm_ext_iff_of_nodup (single.filter _) (once.filter _)).mpr fun name => ?_
  rw [List.mem_filter, List.mem_filter]
  constructor
  · rintro ⟨there, holds⟩
    exact ⟨promotes.announced there, holds⟩
  · rintro ⟨announced, holds⟩
    obtain ⟨segment, readOne⟩ := exists_of_mapM read (List.mem_filter.mpr ⟨announced, holds⟩)
    obtain ⟨content, -, there, -⟩ := readSegment_eq_ok_iff.mp readOne
    refine ⟨Store.mem_liveNames_iff.mpr ?_, holds⟩
    rw [Store.live_of_not_isTemp (sound.permanent name announced), there]
    rfl

theorem Promotes.loadSegments (promotes : target.Promotes before after) (sound : target.Sound)
    (spares : target.Spares before) {segments : List Segment}
    (staged : (target.stagedNames.filter (isSegmentName ·.1)).mapM
      (fun file => readSegment before file.2) = .ok segments) :
    ∃ found, Recovery.loadSegments after = .ok (byGeneration found) ∧ found.Perm segments := by
  obtain ⟨files, lists⟩ := Store.exists_lists fun name there =>
    promotes.isValidName spares (promotes.announced there)
  have again := promotes.readSegments sound spares staged
  obtain ⟨found, read, same⟩ := exists_perm_of_mapM (promotes.perm_names sound spares again) again
  refine ⟨found, ?_, same⟩
  rw [Recovery.loadSegments, Store.liveFiles_eq_ok_iff.mpr lists]
  simp only [Except.mapError, bind, Except.bind, lists.names, read]
  rfl

end Target

/-- What is announced as present is there when the announcement is accepted. -/
theorem Announcement.spares_of_accept {announcement : Announcement} {store : Store}
    {bytes : AnnouncedBytes} (accepted : announcement.accept store = .ok bytes) :
    announcement.existingNames.Nodup ∧ ∀ name ∈ announcement.existingNames,
      Store.isValidName name = true ∧ (store.live name).isSome = true := by
  have distinct := (checkNames_ok (accept_ok accepted)).1
  refine ⟨(List.nodup_append.mp distinct).2.1, fun name member => ?_⟩
  simp only [accept, bind_eq_ok_iff, mapError_eq_ok_iff] at accepted
  obtain ⟨_, counted, _, _, held, listed, _, checked, -⟩ := accepted
  have lists := Store.liveFiles_eq_ok_iff.mp listed
  have lengths : announcement.existingNames.length = announcement.existingSizes.length := by
    by_contra differ
    simp [checkCounts, differ, bind, Except.bind] at counted
    split at counted <;> cases counted
  have zipped := List.map_fst_zip (Nat.le_of_eq lengths)
  obtain ⟨file, told, rfl⟩ := List.mem_map.mp (zipped ▸ member)
  have found := forM_eq_ok_iff.mp checked file told
  unfold checkHeld at found
  split at found
  · cases found
  · next other search =>
      have same : other.name = file.1 := by simpa using List.find?_some search
      obtain ⟨valid, content, there, -⟩ := lists.described other (List.mem_of_find?_eq_some search)
      rw [same] at valid there
      exact ⟨valid, by rw [there]; rfl⟩

namespace Receiver

variable {receiver after : Receiver} {request : Request} {reply : Reply}

/-- While a recovery goes on without failing, its requests are carried out. -/
theorem Answer.performs (answer : receiver.Answer request reply after)
    (going : receiver.isOver = false) (lasting : after.phase ≠ .failed) :
    ∃ number recovery shard command, request = .step number recovery shard command ∧
      command.perform.start receiver = (.ok reply, after) := by
  cases answer with
  | cancelled => exact absurd (phase_cancel going _) lasting
  | refused ended => exact absurd (going.symm.trans ended) Bool.false_ne_true
  | performed _ ran => exact ⟨_, _, _, _, rfl, ran⟩
  | failed _ ran => exact absurd (phase_fail going ran _) lasting

/-- Until it is over, a target leaves alone what it does not receive. -/
theorem Answer.spares (answer : receiver.Answer request reply after)
    (sound : receiver.target.Sound) (spares : receiver.target.Spares receiver.copy.store)
    (going : receiver.isOver = false) (still : after.isOver = false) :
    after.target.Spares after.copy.store := by
  have kept (refused : ¬ receiver.Admits request) (name : String) :
      after.copy.store.live name = receiver.copy.store.live name :=
    answer.live ⟨rfl, fun _ => sound, .refl _,
      fun failed => absurd failed (not_failed_of_going going)⟩ refused name
  have unchanged (refused : ¬ receiver.Admits request)
      (existing : after.target.existing = receiver.target.existing) :
      after.target.Spares after.copy.store := by
    constructor
    case distinct => exact existing ▸ spares.distinct
    case there =>
      intro name member
      rw [kept refused]
      exact spares.there name (existing ▸ member)
  obtain ⟨number, recovery, shard, command, rfl, ran⟩ :=
    answer.performs going (not_failed_of_going still)
  cases command with
  | announce announcement totalOps =>
      obtain ⟨-, -, bytes, between, accepted, -, -, target⟩ := Receiving.announce_ok ran
      obtain ⟨distinct, there⟩ := Announcement.spares_of_accept accepted
      have existing : after.target.existing = announcement.existingNames := by rw [target]
      constructor
      case distinct => exact existing ▸ distinct
      case there =>
        intro name member
        rw [kept nofun]
        exact there name (existing ▸ member)
  | transfer chunk totalOps =>
      exact unchanged nofun
        (((Receiving.besidesFiles_transfer chunk).part (·.target.existing)).of_ok ran)
  | filesComplete startSeqNo totalOps =>
      obtain ⟨-, -, -, -, segments, engine, -, -, -, target, -⟩ := Receiving.filesComplete_ok ran
      exact unchanged nofun (by rw [target])
  | replay operations totalOps =>
      exact unchanged nofun
        (((Receiving.besidesOps_replay operations totalOps).part (·.target.existing)).of_ok ran)
  | finalize globalCheckpoint =>
      have ended : after.isOver = true := isOver_of_phase (Command.phase_of_ok ran).2
      cases still.symm.trans ended

theorem spares_handleAll (recovery : Int64) (shard : ShardId) (copy : ShardCopy)
    (journal : Log.Journal) (requests : List Request) :
    let begun : Receiver := { target := { recovery, shard }, copy, journal }
    let reached := (begun.handleAll requests).2
    reached.isOver = false → reached.target.Spares reached.copy.store := by
  intro begun
  induction requests using List.reverseRecOn with
  | nil => exact fun _ => ⟨List.nodup_nil, fun name member => by cases member⟩
  | append_singleton requests request ih =>
      rw [(handleAll_append begun requests [request]).2]
      intro reached going
      have earlier : (begun.handleAll requests).2.isOver = false := going_of_handle going
      have sound := sound_handleAll requests (not_failed_of_going earlier)
      exact (answer_handle _ request).spares sound (ih earlier) earlier going

/-- The files that a target knows of, and the store that it works on. -/
def stock (receiver : Receiver) : Std.ExtTreeMap String Incoming × List String × Store :=
  (receiver.target.incoming, receiver.target.existing, receiver.copy.store)

/-- While operations are replayed the files stay, and then they are promoted. -/
theorem Answer.ops (answer : receiver.Answer request reply after) (sound : receiver.target.Sound)
    (inOps : receiver.phase = .ops) (lasting : after.phase ≠ .failed) :
    (after.phase = .ops ∧ after.target.Sound ∧ after.stock = receiver.stock) ∨
      (after.phase = .done ∧ receiver.target.Promotes receiver.copy.store after.copy.store) := by
  obtain ⟨number, recovery, shard, command, rfl, ran⟩ :=
    answer.performs (going_of_ops inOps) lasting
  obtain ⟨needs, leads⟩ := Command.phase_of_ok ran
  rw [inOps] at needs
  cases command with
  | announce | transfer | filesComplete => cases needs
  | replay operations totalOps =>
      exact .inl ⟨leads, Receiving.sound_perform sound ran,
        ((Receiving.besidesOps_replay operations totalOps).part stock).of_ok ran⟩
  | finalize globalCheckpoint =>
      obtain ⟨-, -, -, -, possible, live, -⟩ := Receiving.finalize_promotes sound ran
      exact .inr ⟨leads, possible, live⟩

theorem promotes_of_stock {other : Receiver} {store : Store} (same : other.stock = receiver.stock)
    (promotes : other.target.Promotes other.copy.store store) :
    receiver.target.Promotes receiver.copy.store store := by
  simp only [stock, Prod.mk.injEq] at same
  obtain ⟨incoming, existing, unchanged⟩ := same
  rw [unchanged] at promotes
  exact promotes.congr incoming existing

theorem promotes_handleAll (sound : receiver.target.Sound) (inOps : receiver.phase = .ops)
    (requests : List Request) (done : (receiver.handleAll requests).2.phase = .done) :
    receiver.target.Promotes receiver.copy.store (receiver.handleAll requests).2.copy.store := by
  induction requests generalizing receiver with
  | nil => cases inOps.symm.trans done
  | cons request requests ih =>
      change ((receiver.handle request).2.handleAll requests).2.phase = .done at done
      change receiver.target.Promotes _
        ((receiver.handle request).2.handleAll requests).2.copy.store
      -- A recovery that has failed would not be done at the end.
      have lasting : (receiver.handle request).2.phase ≠ .failed := by
        intro failed
        rw [handleAll_of_isOver (isOver_of_phase failed) requests] at done
        cases failed.symm.trans done
      rcases (answer_handle receiver request).ops sound inOps lasting with
        ⟨still, later, same⟩ | ⟨ended, promotes⟩
      · exact promotes_of_stock same (ih later still done)
      · rwa [handleAll_of_isOver (isOver_of_phase ended) requests]

/-- What is live at the end are the files as they were when the transfer was complete. -/
theorem promotes_of_completed (sound : receiver.target.Sound) {startSeqNo : Int64}
    {totalOps : UInt32}
    (ran : (Command.filesComplete startSeqNo totalOps).perform.start receiver = (.ok reply, after))
    (requests : List Request) (done : (after.handleAll requests).2.phase = .done) :
    receiver.target.Promotes receiver.copy.store (after.handleAll requests).2.copy.store := by
  have opened : after.phase = .ops := (Command.phase_of_ok ran).2
  have soundAfter : after.target.Sound := Receiving.sound_perform sound ran
  obtain ⟨-, -, -, -, segments, engine, -, -, copied, target, -⟩ := Receiving.filesComplete_ok ran
  have same : after.stock = receiver.stock := by
    rw [stock, copied, target]
    rfl
  exact promotes_of_stock same (promotes_handleAll soundAfter opened requests done)

theorem exists_rebuilt {engine handing : Engine} {segments : List Segment} {store : Store}
    (prepared : engine.prepare segments = .ok handing)
    (loaded : loadSegments store = .ok segments) :
    ∃ rebuilt, liveOnly? store = some rebuilt ∧ handing.Agrees rebuilt := by
  rcases engine.prepare_cases segments with
    ⟨other, fresh, again, built, agrees⟩ | ⟨error, other, refused, -⟩
  · obtain rfl := Except.ok.inj (prepared.symm.trans again)
    refine ⟨fresh, ?_, agrees⟩
    rw [liveOnly?, loaded]
    simp only [Except.toOption, Option.bind_some, built]
  · cases prepared.symm.trans refused

/-- With this request the transfer is complete. The segments of the stored files are handed
to the engine, and this makes the given one of it. -/
structure Hands (receiver : Receiver) (request : Request) (handed : List Segment)
    (engine : Engine) : Prop where
  asked : ∃ number recovery shard startSeqNo totalOps,
    request = .step number recovery shard (.filesComplete startSeqNo totalOps)
  acknowledged : (receiver.handle request).1 = .ack
  staged : ∃ segments, receiver.staged = .ok segments ∧ handed = byGeneration segments
  prepared : receiver.copy.engine.prepare handed = .ok engine
  given : (receiver.handle request).2.copy.engine = engine

/-- The segments that have been handed to the engine in the course of these requests, and
what it was then. -/
def Handed (begun : Receiver) (requests : List Request) (handed : List Segment)
    (engine : Engine) : Prop :=
  ∃ earlier request later, requests = earlier ++ request :: later ∧
    (begun.handleAll earlier).2.Hands request handed engine

/-- The transfer has been completed, and nothing has failed since. -/
def HasOpened (receiver : Receiver) : Prop := receiver.phase = .ops ∨ receiver.phase = .done

theorem HasOpened.lasting (opened : receiver.HasOpened) : receiver.phase ≠ .failed := by
  intro failed
  rcases opened with inOps | done
  · cases failed.symm.trans inOps
  · cases failed.symm.trans done

/-- No recovery gets to its operations but through the end of the transfer. -/
theorem exists_hands (early : ¬ receiver.HasOpened)
    (opened : (receiver.handle request).2.HasOpened) :
    ∃ handed engine, receiver.Hands request handed engine := by
  have going : receiver.isOver = false := by
    by_contra ended
    rw [handle_of_over (Bool.eq_true_of_not_eq_false ended)] at opened
    exact early opened
  obtain ⟨number, recovery, shard, command, rfl, ran⟩ :=
    (answer_handle receiver request).performs going opened.lasting
  obtain ⟨needs, leads⟩ := Command.phase_of_ok ran
  cases command with
  | announce | transfer =>
      rcases opened with inOps | done
      · cases leads.symm.trans inOps
      · cases leads.symm.trans done
  | replay | finalize => exact absurd (.inl needs) early
  | filesComplete startSeqNo totalOps =>
      obtain ⟨-, replied, -, -, segments, engine, staged, prepared, copy, -⟩ :=
        Receiving.filesComplete_ok ran
      exact ⟨_, engine, ⟨_, _, _, _, _, rfl⟩, replied, ⟨segments, staged, rfl⟩, prepared,
        congrArg ShardCopy.engine copy⟩

theorem exists_handed (begun : Receiver) (fresh : ¬ begun.HasOpened) (requests : List Request)
    (opened : (begun.handleAll requests).2.HasOpened) :
    ∃ handed engine, begun.Handed requests handed engine := by
  induction requests using List.reverseRecOn with
  | nil => exact absurd opened fresh
  | append_singleton requests request ih =>
      rw [(handleAll_append begun requests [request]).2] at opened
      by_cases already : (begun.handleAll requests).2.HasOpened
      · obtain ⟨handed, engine, earlier, first, later, rfl, hands⟩ := ih already
        exact ⟨handed, engine, earlier, first, later ++ [request], by simp, hands⟩
      · obtain ⟨handed, engine, hands⟩ := exists_hands already opened
        exact ⟨handed, engine, requests, request, [], rfl, hands⟩

/-- When a recovery is done, the live files hold the segments that were handed to the engine,
in the same order if their generations differ. Then an engine that is built from the live
files agrees with the one that the operations were replayed on, as it was before them. -/
theorem rebuilt_alike (recovery : Int64) (shard : ShardId) (copy : ShardCopy)
    (journal : Log.Journal) (requests : List Request) :
    let begun : Receiver := { target := { recovery, shard }, copy, journal }
    let reached := (begun.handleAll requests).2
    reached.phase = .done →
    (∃ handed engine, begun.Handed requests handed engine) ∧
    ∀ handed engine, begun.Handed requests handed engine →
      (handed.map (·.generation)).Nodup →
      loadSegments reached.copy.store = .ok handed ∧
        ∃ rebuilt, liveOnly? reached.copy.store = some rebuilt ∧ engine.Agrees rebuilt := by
  intro begun reached done
  have fresh : ¬ begun.HasOpened := by
    rintro (inOps | done)
    · cases inOps
    · cases done
  refine ⟨exists_handed begun fresh requests (.inr done), ?_⟩
  rintro handed engine ⟨earlier, request, later, rfl, hands⟩ distinct
  obtain ⟨number, asked, part, startSeqNo, totalOps, rfl⟩ := hands.asked
  obtain ⟨segments, staged, rfl⟩ := hands.staged
  have ran := perform_of_handle (Prod.ext hands.acknowledged rfl) nofun
  have going : (begun.handleAll earlier).2.isOver = false :=
    isOver_of_phase (Receiving.filesComplete_ok ran).1
  have sound := sound_handleAll earlier (not_failed_of_going going)
  have spares := spares_handleAll recovery shard copy journal earlier going
  have onwards : reached = (((begun.handleAll earlier).2.handle
      (.step number asked part (.filesComplete startSeqNo totalOps))).2.handleAll later).2 :=
    (handleAll_append begun earlier _).2
  rw [onwards] at done ⊢
  obtain ⟨found, loaded, perm⟩ :=
    (promotes_of_completed sound ran later done).loadSegments sound spares staged
  have apart : (segments.map (·.generation)).Nodup :=
    ((byGeneration_perm segments).map _).nodup_iff.mp distinct
  rw [byGeneration_eq_of_perm perm apart] at loaded
  exact ⟨loaded, exists_rebuilt hands.prepared loaded⟩

/-- A segment with one document, which has the given sequence number. -/
def sealedOne (generation : Generation) (seqNo : Int64) : Segment :=
  (SegmentBuilder.add {} (SegmentBuilder.liveDocument [0x61] 1 seqNo 1)).build generation

/-- A target that holds the first segment of its source, and a third one that the source
does not have. -/
def holdingFirst : Receiver where
  target := { recovery := 77, shard := obstructedShard }
  copy.store.files := (∅ : Std.ExtTreeMap String Content)
    |>.insert "_1.seg" (.ofBytes (sealedOne 1 0).encode)
    |>.insert "_3.seg" (.ofBytes (sealedOne 3 2).encode)

def bringsSecond : List Request :=
  let content : Content := .ofBytes (sealedOne 2 1).encode
  [.step 1 77 obstructedShard <| .announce {
      names := ["_2.seg"], sizes := [50], existingNames := ["_1.seg"], existingSizes := [50] } 0,
    .step 2 77 obstructedShard <| .transfer {
      file := .ofContent "_2.seg" content
      position := 0, content := content.toBytes, isLast := true
      checksum := checksum content.toBytes } 0]

def broughtSecond : Receiver := (holdingFirst.handleAll bringsSecond).2

def completesSecond : Request := .step 3 77 obstructedShard (.filesComplete 2 0)

def installsSecond : List Request :=
  bringsSecond ++ [completesSecond, .step 4 77 obstructedShard (.finalize 1)]

def bothSegments : List Segment := [sealedOne 1 0, sealedOne 2 1]

/-- The received segment is the first of the stored files, and the second of the segments
that the engine is given. -/
theorem opens_broughtSecond : ∃ engine opened,
    (Command.filesComplete 2 0).perform.start broughtSecond = (.ok .ack, opened) ∧
      opened.stock = broughtSecond.stock ∧
      opened.target.opsRecovered = opened.target.totalOps ∧
      broughtSecond.Hands completesSecond bothSegments engine := by
  have inFiles : broughtSecond.phase = .files := by decide +kernel
  have verified : broughtSecond.target.checkVerified = .ok () := by decide +kernel
  have total : (0 : UInt32).toNat = broughtSecond.target.totalOps := by decide +kernel
  have recovered : broughtSecond.target.opsRecovered = broughtSecond.target.totalOps := by
    decide +kernel
  have staged : broughtSecond.staged = .ok bothSegments.reverse := by decide +kernel
  have sorted : byGeneration bothSegments.reverse = bothSegments := by
    simp [byGeneration, bothSegments, List.mergeSort, sealedOne, SegmentBuilder.build]
  have usable : (broughtSecond.copy.engine.prepare bothSegments).toOption.isSome = true := by
    decide +kernel
  obtain ⟨engine, made⟩ := Option.isSome_iff_exists.mp usable
  have prepared := eq_ok_of_toOption made
  obtain ⟨opened, ran⟩ : ∃ opened,
      (Receiving.filesComplete 2 0).start broughtSecond = (.ok .ack, opened) :=
    Receiving.start_filesComplete inFiles verified total staged (sorted.symm ▸ prepared)
  have performed : (Command.filesComplete 2 0).perform.start broughtSecond = (.ok .ack, opened) :=
    ran
  have handled : broughtSecond.handle completesSecond = (.ack, opened) :=
    handle_of_ok (isOver_of_phase inFiles) performed 3 77 obstructedShard
  obtain ⟨-, -, -, -, segments, other, again, given, copied, target, -⟩ :=
    Receiving.filesComplete_ok ran
  obtain rfl := Except.ok.inj (staged.symm.trans again)
  obtain rfl := Except.ok.inj (prepared.symm.trans (sorted ▸ given))
  refine ⟨engine, opened, performed, ?_, ?_, ?_⟩
  · rw [stock, copied, target]
    rfl
  · rw [target]
    exact recovered
  · exact ⟨⟨3, 77, obstructedShard, 2, 0, rfl⟩, congrArg Prod.fst handled,
      ⟨_, staged, sorted.symm⟩, prepared, by rw [handled, copied]⟩

theorem done_installsSecond : (holdingFirst.handleAll installsSecond).2.phase = .done := by
  obtain ⟨engine, opened, performed, same, recovered, -⟩ := opens_broughtSecond
  simp only [stock, Prod.mk.injEq] at same
  obtain ⟨incoming, existing, store⟩ := same
  have received : opened.target.received = broughtSecond.target.received := by
    rw [Target.received, Target.received, incoming]
  have announced : opened.target.announcedNames = broughtSecond.target.announcedNames := by
    rw [Target.announcedNames, Target.announcedNames, incoming, existing]
  have sound : broughtSecond.target.Sound := sound_handleAll bringsSecond (by decide +kernel)
  have ready : opened.target.Ready opened.copy.store := by
    refine ⟨recovered, Target.forall_isStored_iff.mp ?_⟩
    rw [received, store]
    decide +kernel
  have possible : opened.target.Unobstructed opened.copy.store := by
    constructor
    case names =>
      refine Target.forall_isValidName_iff.mp ?_
      rw [received]
      decide +kernel
    case stale =>
      rw [announced, store]
      decide +kernel
  obtain ⟨reply, after, finalized, done, -⟩ :=
    finalize_of_ready (Receiving.sound_perform sound performed)
      (Command.phase_of_ok performed).2 ready 4 77 obstructedShard 1
  have going : broughtSecond.isOver = false := by decide +kernel
  have handled := handle_of_ok going performed 3 77 obstructedShard
  have onwards : (holdingFirst.handleAll installsSecond).2 =
      ((broughtSecond.handle completesSecond).2.handle
        (.step 4 77 obstructedShard (.finalize 1))).2 :=
    (handleAll_append holdingFirst bringsSecond _).2
  rw [onwards, completesSecond, handled, finalized]
  exact done possible

theorem rebuilt_alike_installsSecond :
    (holdingFirst.handleAll installsSecond).2.phase = .done ∧
      (bothSegments.map (·.generation)).Nodup ∧
      ∃ engine, holdingFirst.Handed installsSecond bothSegments engine ∧
        loadSegments (holdingFirst.handleAll installsSecond).2.copy.store = .ok bothSegments ∧
        ∃ rebuilt, liveOnly? (holdingFirst.handleAll installsSecond).2.copy.store = some rebuilt ∧
          engine.Agrees rebuilt := by
  have distinct : (bothSegments.map (·.generation)).Nodup := by decide
  obtain ⟨-, alike⟩ := rebuilt_alike 77 obstructedShard holdingFirst.copy {} installsSecond
    done_installsSecond
  obtain ⟨engine, opened, -, -, -, hands⟩ := opens_broughtSecond
  have handed : holdingFirst.Handed installsSecond bothSegments engine :=
    ⟨bringsSecond, completesSecond, [.step 4 77 obstructedShard (.finalize 1)], rfl, hands⟩
  exact ⟨done_installsSecond, distinct, engine, handed, alike bothSegments engine handed distinct⟩

end Receiver

end ShardSync.Recovery
