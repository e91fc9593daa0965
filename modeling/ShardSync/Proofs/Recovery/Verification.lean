import ShardSync.Proofs.Recovery.Completion
import ShardSync.Proofs.Recovery.Retention

/-!
# What a verified file is

A file that is marked as verified has the announced length, and the length and the checksum
of the one description that all of its chunks came with. From then on its content stays,
until it becomes a live file or goes away with the recovery.
-/

set_option autoImplicit false

namespace ShardSync.Recovery

/-- The announcement that the recovery was begun with says so of a file. -/
def Announced (begun : Receiver) (requests : List Request) (name : String) (size : UInt64) :
    Prop :=
  ∃ earlier number asked shard announcement totalOps,
    earlier ++ [.step number asked shard (.announce announcement totalOps)] <+: requests ∧
      (begun.handleAll earlier).2.phase = .init ∧
      (name, size) ∈ announcement.names.zip announcement.sizes

/-- The chunk was acknowledged when its file was not yet verified. -/
def Accepted (begun : Receiver) (requests : List Request) (chunk : Chunk) : Prop :=
  ∃ earlier request incoming, earlier ++ [request] <+: requests ∧
    request.chunk? = some chunk ∧
    ((begun.handleAll earlier).2.handle request).1 = .chunkAck chunk.position ∧
    (begun.handleAll earlier).2.target.incoming[chunk.file.name]? = some incoming ∧
    incoming.isVerified = false

namespace Receiver

variable {receiver : Receiver} {request : Request}

theorem handle_of_over (ended : receiver.isOver = true) :
    (receiver.handle request).2 = receiver :=
  handleAll_of_isOver ended [request]

/-- A recovery that is over stays so. -/
theorem going_of_handle (going : (receiver.handle request).2.isOver = false) :
    receiver.isOver = false := by
  cases ended : receiver.isOver with
  | false => rfl
  | true => rwa [handle_of_over ended, ended] at going

theorem sound_handleAll {recovery : Int64} {shard : ShardId} {copy : ShardCopy}
    {journal : Log.Journal} (requests : List Request) :
    let reached :=
      (({ target := { recovery, shard }, copy, journal } : Receiver).handleAll requests).2
    reached.phase ≠ .failed → reached.target.Sound :=
  (reached_handleAll .begun requests).sound

theorem lasting_of_handle (lasting : (receiver.handle request).2.phase ≠ .failed) :
    receiver.phase ≠ .failed := by
  intro failed
  rw [handle_of_over (isOver_of_phase failed)] at lasting
  exact lasting failed

end Receiver

section Run

variable {recovery : Int64} {shard : ShardId} {copy : ShardCopy} {journal : Log.Journal}
  {begun : Receiver} {requests : List Request} {request : Request} {name : String} {size : UInt64}
  {chunk : Chunk}

theorem announced_concat :
    Announced begun (requests ++ [request]) name size ↔
      Announced begun requests name size ∨
        ∃ number asked shard announcement totalOps,
          request = .step number asked shard (.announce announcement totalOps) ∧
          (begun.handleAll requests).2.phase = .init ∧
          (name, size) ∈ announcement.names.zip announcement.sizes := by
  constructor
  · rintro ⟨earlier, number, asked, shard, announcement, totalOps, inside, begins, listed⟩
    rcases List.prefix_concat_iff.mp inside with last | inside
    · obtain ⟨rfl, same⟩ := List.append_inj' last rfl
      cases same
      exact .inr ⟨number, asked, shard, announcement, totalOps, rfl, begins, listed⟩
    · exact .inl ⟨earlier, number, asked, shard, announcement, totalOps, inside, begins, listed⟩
  · rintro (⟨earlier, number, asked, shard, announcement, totalOps, inside, begins, listed⟩ |
      ⟨number, asked, shard, announcement, totalOps, rfl, begins, listed⟩)
    · exact ⟨earlier, number, asked, shard, announcement, totalOps,
        inside.trans (List.prefix_append _ _), begins, listed⟩
    · exact ⟨requests, number, asked, shard, announcement, totalOps, List.prefix_refl _, begins,
        listed⟩

theorem accepted_concat :
    Accepted begun (requests ++ [request]) chunk ↔
      Accepted begun requests chunk ∨
        ∃ incoming, request.chunk? = some chunk ∧
          ((begun.handleAll requests).2.handle request).1 = .chunkAck chunk.position ∧
          (begun.handleAll requests).2.target.incoming[chunk.file.name]? = some incoming ∧
          incoming.isVerified = false := by
  constructor
  · rintro ⟨earlier, other, incoming, inside, asked, replied, found, pending⟩
    rcases List.prefix_concat_iff.mp inside with last | inside
    · obtain ⟨rfl, same⟩ := List.append_inj' last rfl
      cases same
      exact .inr ⟨incoming, asked, replied, found, pending⟩
    · exact .inl ⟨earlier, other, incoming, inside, asked, replied, found, pending⟩
  · rintro (⟨earlier, other, incoming, inside, asked, replied, found, pending⟩ |
      ⟨incoming, asked, replied, found, pending⟩)
    · exact ⟨earlier, other, incoming, inside.trans (List.prefix_append _ _), asked, replied,
        found, pending⟩
    · exact ⟨requests, request, incoming, List.prefix_refl _, asked, replied, found, pending⟩

/-- How what a recovery knows of its files has come about. -/
structure Traced (recovery : Int64) (begun : Receiver) (requests : List Request)
    (reached : Receiver) : Prop where
  numbered : reached.target.recovery = recovery
  retains : reached.Retains recovery
  announced : ∀ (name : String) (incoming : Incoming),
    reached.target.incoming[name]? = some incoming →
    ∃ size, Announced begun requests name size ∧ incoming.length = size.toNat
  entered : reached.phase ≠ .failed → ∀ name size, Announced begun requests name size →
    ∃ incoming, reached.target.incoming[name]? = some incoming ∧ incoming.length = size.toNat
  accepted : ∀ chunk, Accepted begun requests chunk →
    ∃ incoming, reached.target.incoming[chunk.file.name]? = some incoming ∧
      incoming.file? = some chunk.file
  verified : ∀ (name : String) (incoming : Incoming),
    reached.target.incoming[name]? = some incoming → incoming.isVerified = true →
    ∃ chunk, Accepted begun requests chunk ∧ chunk.file.name = name

theorem traced_begun (recovery : Int64) (shard : ShardId) (copy : ShardCopy)
    (journal : Log.Journal) :
    let begun : Receiver := { target := { recovery, shard }, copy, journal }
    Traced recovery begun [] begun := by
  intro begun
  have none (name : String) : begun.target.incoming[name]? = none :=
    Std.ExtTreeMap.getElem?_empty
  have absent {name : String} {incoming : Incoming} {fate : Prop}
      (found : begun.target.incoming[name]? = some incoming) : fate := by
    rw [none] at found
    cases found
  constructor
  case numbered => rfl
  case retains => exact fun _ _ => absent
  case announced => exact fun _ _ => absent
  case entered =>
    rintro _ name size ⟨earlier, _, _, _, _, _, inside, _⟩
    simp at inside
  case accepted =>
    rintro chunk ⟨earlier, _, _, inside, _⟩
    simp at inside
  case verified => exact fun _ _ found _ => absent found

theorem Traced.handle (traced : Traced recovery begun requests (begun.handleAll requests).2)
    (sound : (begun.handleAll requests).2.phase ≠ .failed →
      (begun.handleAll requests).2.target.Sound) (request : Request) :
    Traced recovery begun (requests ++ [request])
      ((begun.handleAll requests).2.handle request).2 := by
  have effect := Receiver.effect_handle sound request
  have unannounced (begins : (begun.handleAll requests).2.phase = .init) :
      (begun.handleAll requests).2.target.incoming = ∅ :=
    (sound (by rw [begins]; nofun)).unannounced begins
  constructor
  case numbered => exact (Receiver.answer_handle _ request).recovery_eq.trans traced.numbered
  case retains => exact traced.retains.effect traced.numbered Receiver.going_of_handle effect
  case announced =>
    intro name entry found
    rcases effect.origin found with ⟨incoming, known, length, _⟩ |
      ⟨number, asked, part, announcement, totalOps, size, same, begins, listed, length, _⟩
    · obtain ⟨size, announced, sized⟩ := traced.announced name incoming known
      exact ⟨size, announced_concat.mpr (.inl announced), length.trans sized⟩
    · exact ⟨size, announced_concat.mpr (.inr ⟨number, asked, part, announcement, totalOps,
        same, begins, listed⟩), length⟩
  case entered =>
    intro lasting name size announced
    rcases announced_concat.mp announced with earlier |
      ⟨number, asked, part, announcement, totalOps, rfl, begins, listed⟩
    · obtain ⟨incoming, known, sized⟩ :=
        traced.entered (Receiver.lasting_of_handle lasting) name size earlier
      obtain ⟨entry, found, length, _⟩ := traced.retains.endures unannounced effect known
      exact ⟨entry, found, length.trans sized⟩
    · exact Receiver.entered_of_announce begins lasting (name, size) listed
  case accepted =>
    intro chunk accepted
    rcases accepted_concat.mp accepted with earlier | ⟨incoming, asked, replied, found, pending⟩
    · obtain ⟨incoming, known, described⟩ := traced.accepted chunk earlier
      obtain ⟨entry, found, _, keeps, _⟩ := traced.retains.endures unannounced effect known
      exact ⟨entry, found, keeps _ described⟩
    · exact effect.accepts asked replied found pending
  case verified =>
    intro name entry found verified
    rcases effect.origin found with ⟨incoming, known, _, origin⟩ |
      ⟨_, _, _, _, _, _, _, _, _, _, pending⟩
    · rcases origin verified with earlier | ⟨pending, chunk, asked, replied, rfl⟩
      · obtain ⟨chunk, accepted, same⟩ := traced.verified name incoming known earlier
        exact ⟨chunk, accepted_concat.mpr (.inl accepted), same⟩
      · have newly := accepted_concat.mpr (.inr ⟨incoming, asked, replied, known, pending⟩)
        exact ⟨chunk, newly, rfl⟩
    · exact absurd (pending.symm.trans verified) Bool.false_ne_true

theorem traced_handleAll (recovery : Int64) (shard : ShardId) (copy : ShardCopy)
    (journal : Log.Journal) (requests : List Request) :
    let begun : Receiver := { target := { recovery, shard }, copy, journal }
    Traced recovery begun requests (begun.handleAll requests).2 := by
  intro begun
  induction requests using List.reverseRecOn with
  | nil => exact traced_begun recovery shard copy journal
  | append_singleton requests request ih =>
      rw [(Receiver.handleAll_append begun requests [request]).2]
      exact ih.handle (Receiver.sound_handleAll requests) request

/-- Whatever is asked of a recovery later, a verified file stays what it is. -/
theorem stays_handleAll (recovery : Int64) (shard : ShardId) (copy : ShardCopy)
    (journal : Log.Journal) (requests later : List Request) {incoming : Incoming}
    {content : Content} :
    let begun : Receiver := { target := { recovery, shard }, copy, journal }
    let reached := (begun.handleAll requests).2
    reached.target.incoming[name]? = some incoming → incoming.isVerified = true →
    reached.copy.store.files[incoming.tempName]? = some content →
    (reached.handleAll later).2.target.incoming[name]? = some incoming ∧
      Stays name incoming content (reached.handleAll later).2 := by
  intro begun reached found verified there
  induction later using List.reverseRecOn with
  | nil => exact ⟨found, .inl there⟩
  | append_singleton later request ih =>
      obtain ⟨known, stays⟩ := ih
      rw [(Receiver.handleAll_append reached later [request]).2]
      change ((reached.handleAll later).2.handle request).2.target.incoming[name]? = _ ∧
        Stays name incoming content ((reached.handleAll later).2.handle request).2
      have whole := (Receiver.handleAll_append begun requests later).2
      rcases stays with there | ⟨gone, ended⟩
      · have traced : Traced recovery begun (requests ++ later)
            (begun.handleAll (requests ++ later)).2 :=
          traced_handleAll recovery shard copy journal (requests ++ later)
        have sound (lasting : (begun.handleAll (requests ++ later)).2.phase ≠ .failed) :
            (begun.handleAll (requests ++ later)).2.target.Sound :=
          Receiver.sound_handleAll (requests ++ later) lasting
        rw [whole] at traced sound
        obtain ⟨entry, still, _, _, same⟩ := traced.retains.endures
          (fun begins => (sound (by rw [begins]; nofun)).unannounced begins)
          (Receiver.effect_handle sound request) known
        obtain ⟨rfl, stays⟩ := same verified
        exact ⟨still, stays content there⟩
      · have isOver : (reached.handleAll later).2.isOver = true := by
          rw [Receiver.isOver_eq]
          rcases ended with failed | ⟨done, _⟩
          · rw [failed]
            rfl
          · rw [done]
            rfl
        rw [Receiver.handle_of_over isOver]
        exact ⟨known, .inr ⟨gone, ended⟩⟩

/-- All chunks of the file that were accepted before it was verified say the same of it,
and what is there of it has the length and the checksum that they say. -/
def Genuine (begun : Receiver) (requests : List Request) (reached : Receiver) (name : String)
    (incoming : Incoming) : Prop :=
  ∃ file, (∃ chunk, Accepted begun requests chunk ∧ chunk.file = file) ∧ file.name = name ∧
    (∀ chunk, Accepted begun requests chunk → chunk.file.name = name → chunk.file = file) ∧
    file.length.toNat = incoming.length ∧
    ∀ content, reached.copy.store.files[incoming.tempName]? = some content →
      content.length = file.length.toNat ∧ content.checksum = file.checksum

theorem Traced.genuine {reached : Receiver} (traced : Traced recovery begun requests reached)
    {incoming : Incoming} (found : reached.target.incoming[name]? = some incoming)
    (verified : incoming.isVerified = true) : Genuine begun requests reached name incoming := by
  have holds := (traced.retains name incoming found).holds
  obtain ⟨file, described, length, checksum⟩ := holds.verified verified
  have same (chunk : Chunk) (accepted : Accepted begun requests chunk)
      (named : chunk.file.name = name) : chunk.file = file := by
    obtain ⟨known, there, told⟩ := traced.accepted chunk accepted
    rw [named] at there
    cases found.symm.trans there
    exact Option.some.inj (told.symm.trans described)
  obtain ⟨chunk, accepted, named⟩ := traced.verified name incoming found verified
  refine ⟨file, ⟨chunk, accepted, same chunk accepted named⟩, ?_, same, length,
    fun content there => ⟨(holds.sized content there).trans length.symm, checksum content there⟩⟩
  rw [← same chunk accepted named, named]

/-- Whatever a recovery is asked, no file is longer than announced, and a verified file is
genuine and stays as it is until it becomes live or goes away with the recovery. The
transfer is not completed before all announced files are verified. -/
theorem verified_genuine (recovery : Int64) (shard : ShardId) (copy : ShardCopy)
    (journal : Log.Journal) (requests : List Request) :
    let begun : Receiver := { target := { recovery, shard }, copy, journal }
    let reached := (begun.handleAll requests).2
    (∀ (name : String) (incoming : Incoming), reached.target.incoming[name]? = some incoming →
      incoming.tempName = Store.tempName recovery name ∧
      (∃ size, Announced begun requests name size ∧ incoming.length = size.toNat) ∧
      (∀ content, reached.copy.store.files[incoming.tempName]? = some content →
        content.length = incoming.length) ∧
      (reached.isOver = false →
        ∃ content, reached.copy.store.files[incoming.tempName]? = some content) ∧
      (incoming.isVerified = true → Genuine begun requests reached name incoming)) ∧
    (∀ (name : String) (incoming : Incoming) (content : Content) (later : List Request),
      reached.target.incoming[name]? = some incoming → incoming.isVerified = true →
      reached.copy.store.files[incoming.tempName]? = some content →
      (reached.handleAll later).2.target.incoming[name]? = some incoming ∧
        Stays name incoming content (reached.handleAll later).2) ∧
    ∀ (number asked startSeqNo : Int64) (part : ShardId) (totalOps : UInt32),
      (reached.handle (.step number asked part (.filesComplete startSeqNo totalOps))).1 = .ack →
      ∀ name size, Announced begun requests name size →
        ∃ incoming content, reached.target.incoming[name]? = some incoming ∧
          incoming.isVerified = true ∧ incoming.length = size.toNat ∧
          reached.copy.store.files[incoming.tempName]? = some content ∧
          Genuine begun requests reached name incoming := by
  intro begun reached
  have traced := traced_handleAll recovery shard copy journal requests
  refine ⟨fun name incoming found => ⟨(traced.retains name incoming found).stored,
    traced.announced name incoming found, (traced.retains name incoming found).holds.sized,
    (traced.retains name incoming found).present, traced.genuine found⟩,
    fun name incoming content later => stays_handleAll recovery shard copy journal requests later,
    ?_⟩
  intro number asked startSeqNo part totalOps replied name size announced
  have ran := Receiver.perform_of_handle (Prod.ext replied rfl) nofun
  obtain ⟨inFiles, _, checked, _⟩ := Receiving.filesComplete_ok ran
  obtain ⟨incoming, found, length⟩ :=
    traced.entered (by rw [show (begun.handleAll requests).2.phase = _ from inFiles]; nofun)
      name size announced
  have verified := Target.verified_of_checkVerified checked found
  obtain ⟨content, there⟩ := (traced.retains name incoming found).present
    (Receiver.isOver_of_phase inFiles)
  exact ⟨incoming, content, found, verified, length, there, traced.genuine found verified⟩

/-- A new recovery of an empty shard. -/
def newRecovery : Receiver where
  target := { recovery := 77, shard := Receiver.obstructedShard }
  copy := {}

/-- Two halves of a file, the second of them twice, and a longer slice after them. -/
def bringsHalves : List Request :=
  .step 0 77 Receiver.obstructedShard (.announce announceFour 0) ::
    [(2, 2), (2, 2), (0, 2), (0, 3)].map fun slice => bringsSlice slice.1 slice.2

theorem verified_genuine_halves :
    ∃ reached incoming content, reached = (newRecovery.handleAll bringsHalves).2 ∧
      reached.target.incoming["a"]? = some incoming ∧ incoming.isVerified = true ∧
      reached.copy.store.files[incoming.tempName]? = some content ∧
      Genuine newRecovery bringsHalves reached "a" incoming ∧
      Stays "a" incoming content
        (reached.handleAll [.cancel 77 Receiver.obstructedShard "enough"]).2 := by
  unfold newRecovery
  obtain ⟨_, stays, complete⟩ := verified_genuine 77 Receiver.obstructedShard {} {} bringsHalves
  obtain ⟨incoming, content, found, verified, _, there, genuine⟩ :=
    complete 5 77 0 Receiver.obstructedShard 0 (by decide +kernel) "a" 4
      ⟨[], 0, 77, _, announceFour, 0, List.prefix_append [_] _, rfl, by decide⟩
  have stayed := stays "a" incoming content [.cancel 77 Receiver.obstructedShard "enough"] found
    verified there
  exact ⟨_, incoming, content, rfl, found, verified, there, genuine, stayed.2⟩

end Run

end ShardSync.Recovery
