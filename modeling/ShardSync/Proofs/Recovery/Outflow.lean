import ShardSync.Proofs.Recovery.Course
import ShardSync.Proofs.Recovery.Tiling
import ShardSync.Proofs.Recovery.Transfers

/-!
# The chunks that a session sends

When its announcement has been acknowledged, a session sends chunks, and more of them as
the first are acknowledged. In whichever order that happens, it sends the chunks of all
files, one file behind the other, under increasing numbers. As many acknowledgements as
there are chunks bring it to the end of the files, and none of them leaves it without a
chunk to wait for before.
-/

set_option autoImplicit false

namespace ShardSync.Recovery

open Sending (Ensures)

namespace Request

def number? : Request → Option Int64
  | .step number _ _ _ => some number
  | .cancel _ _ _ => none

end Request

namespace Sender

/-- The requests that bring the given chunks, numbered on from those before. -/
def transfers (sender : Sender) (chunks : List Chunk) : List Request :=
  chunks.mapIdx fun index chunk =>
    .step (.ofNat (sender.delivery.session.numbered + index)) sender.delivery.session.recovery
      sender.delivery.session.shard (.transfer chunk sender.delivery.agenda.totalOps)

/-- The session takes the reply to one of its outstanding requests, and sends others. -/
structure Sends (before : Sender) (index : Nat) (reply : Reply) (sent : List Request)
    (after : Sender) : Prop where
  takes : after = before.receive index (.ok reply)
  sends : after.delivery.outstanding.map (·.request) =
    (before.delivery.outstanding.map (·.request)).eraseIdx index ++ sent

/-- Between two replies to a session its clock goes on. Other sessions may write to the
journal, and pin the files of the source. -/
structure Rests (before after : Sender) : Prop where
  delivery : ∃ clock, after.delivery = { before.delivery with clock }
  files : after.source.store.files = before.source.store.files

/-- The announcement has been acknowledged, and then a number of chunks, any of the
outstanding ones first; since then these requests have been sent. -/
inductive Streams (announcing : Sender) : Nat → List Request → Sender → Prop where
  | announced {sent : List Request} {after : Sender} (sends : announcing.Sends 0 .ack sent after) :
      Streams announcing 0 sent after
  | acknowledged {count index : Nat} {earlier sent : List Request} {between after : Sender}
      {waiting : Outstanding} {chunk : Chunk} (streams : Streams announcing count earlier between)
      (found : between.delivery.outstanding[index]? = some waiting)
      (brings : waiting.request.chunk? = some chunk)
      (sends : between.Sends index (.chunkAck chunk.position) sent after) :
      Streams announcing (count + 1) (earlier ++ sent) after
  | rested {count : Nat} {sent : List Request} {between after : Sender}
      (streams : Streams announcing count sent between) (rests : between.Rests after) :
      Streams announcing count sent after

/-- The session waits for the acknowledgements of chunks, and goes on with any of them. -/
structure AwaitsChunks (sender : Sender) : Prop where
  busy : sender.delivery.outstanding ≠ []
  each : ∀ index waiting, sender.delivery.outstanding[index]? = some waiting →
    ∃ chunk sent after, waiting.request.chunk? = some chunk ∧
      sender.Sends index (.chunkAck chunk.position) sent after

/-- The session sends the given requests for chunks, in their order and no others. When
all have been acknowledged, it asks to end the files. -/
structure SendsOut (announcing : Sender) (requests : List Request) : Prop where
  begins : ∃ sent after, announcing.Streams 0 sent after
  bounded : ∀ count sent after, announcing.Streams count sent after → count ≤ requests.length
  goesOn : ∀ count sent after, announcing.Streams count sent after → count < requests.length →
    sent <+: requests ∧ after.AwaitsChunks
  ends : ∀ sent after, announcing.Streams requests.length sent after →
    after.delivery.stage = .completing ∧ ∃ last, sent = requests ++ [last] ∧ last.chunk? = none

/-- The session when it has sent another request. -/
def having (sender : Sender) (request : Outstanding) : Sender :=
  { sender with delivery.outstanding := sender.delivery.outstanding ++ [request] }

/-- A session on its way through the requests for chunks: it has sent some of them, of which
a number have been acknowledged, has one ready or none, and pieces for the others. -/
structure Midway (requests : List Request) (count : Nat) (sent : List Request)
    (ready? : Option Request) (pieces : List Piece) (sender : Sender) : Prop where
  unasked : sender.delivery.session.cancellation.reason? = none
  left : ∃ chunks, List.Forall₂ (fun piece chunk => piece.chunk sender.source.store = .ok chunk)
      pieces chunks ∧
    requests = sent ++ (ready?.toList ++ sender.transfers chunks)
  answered : count + sender.delivery.outstanding.length = sent.length
  waiting : ∀ waiting ∈ sender.delivery.outstanding, waiting.request.chunk?.isSome = true
  ready : ∀ request ∈ ready?, request.chunk?.isSome = true

/-- Where a session stands when a number of its chunks have been acknowledged. -/
inductive Flowing (requests : List Request) (count : Nat) (sent : List Request)
    (sender : Sender) : Prop where
  | sending {ready? : Option Request} {pieces : List Piece}
      (stage : sender.delivery.stage = .sending ready? pieces)
      (midway : sender.Midway requests count sent ready? pieces)
      (busy : sender.delivery.outstanding ≠ [])
  | completing {last : Request} (stage : sender.delivery.stage = .completing)
      (single : sender.delivery.outstanding.map (·.request) = [last]) (none : last.chunk? = none)
      (all : count = requests.length) (ended : sent = requests ++ [last])

/-- A session has sent more, and nobody has asked it to stop. -/
def FlowsOn (requests : List Request) (count : Nat) (sent : List Request)
    (before after : Sender) : Prop :=
  ∃ more, after.delivery.outstanding.map (·.request) =
      before.delivery.outstanding.map (·.request) ++ more ∧
    after.delivery.session.cancellation.reason? = none ∧
    after.Flowing requests count (sent ++ more)

namespace Midway

variable {sender : Sender} {requests sent : List Request} {count : Nat} {ready? : Option Request}
  {pieces : List Piece}

/-- The next piece is made a chunk of, and is the next to be sent. -/
theorem prepare {piece : Piece}
    (midway : sender.Midway requests count sent none (piece :: pieces)) :
    ∃ chunk, piece.chunk sender.source.store = .ok chunk ∧
      { sender with delivery.session.numbered := sender.delivery.session.numbered + 1 }.Midway
        requests count sent
        (some (.step (.ofNat sender.delivery.session.numbered) sender.delivery.session.recovery
          sender.delivery.session.shard (.transfer chunk sender.delivery.agenda.totalOps)))
        pieces := by
  obtain ⟨chunks, made, split⟩ := midway.left
  cases made with
  | @cons _ chunk _ chunks here later =>
      refine ⟨chunk, here, midway.unasked, ⟨chunks, later, ?_⟩, midway.answered, midway.waiting, ?_⟩
      · -- The chunks behind are numbered on from the number that this one takes.
        rw [split, transfers, List.mapIdx_cons, transfers]
        simp only [Nat.add_zero, Nat.add_right_comm _ 1, ← Nat.add_assoc, Option.toList_none,
          Option.toList_some, List.nil_append, List.singleton_append]
      · rintro _ ⟨⟩
        rfl

theorem send {request : Request} (midway : sender.Midway requests count sent (some request) pieces)
    (timeout : Nat) :
    (sender.having { request, timeout }).Midway requests count (sent ++ [request]) none pieces where
  unasked := midway.unasked
  left := by
    obtain ⟨chunks, made, split⟩ := midway.left
    exact ⟨chunks, made, by rw [split, List.append_assoc]; rfl⟩
  answered := by
    rw [having, List.length_append, List.length_append, ← midway.answered, Nat.add_assoc]
    rfl
  waiting := List.forall_mem_append.mpr
    ⟨midway.waiting, List.forall_mem_singleton.mpr (midway.ready request rfl)⟩
  ready _ member := by cases member

/-- One of the chunks is not waited for any more. -/
theorem without {index : Nat} (midway : sender.Midway requests count sent ready? pieces)
    (inside : index < sender.delivery.outstanding.length) :
    (sender.without index).Midway requests (count + 1) sent ready? pieces where
  unasked := midway.unasked
  left := midway.left
  answered := by
    rw [Sender.without, List.length_eraseIdx_of_lt inside, ← midway.answered]
    omega
  waiting waiting member := midway.waiting waiting (List.mem_of_mem_eraseIdx member)
  ready := midway.ready

/-- The session waits, with what is left in its stage. -/
theorem wait (midway : sender.Midway requests count sent ready? pieces)
    (busy : sender.delivery.outstanding ≠ []) :
    sender.FlowsOn requests count sent
      { sender with delivery.stage := .sending ready? pieces } := by
  refine ⟨[], (List.append_nil _).symm, midway.unasked, .sending rfl ?_ busy⟩
  rw [List.append_nil]
  exact ⟨midway.unasked, midway.left, midway.answered, midway.waiting, midway.ready⟩

/-- No chunk is left to be sent or waited for, and the session asks to end the files. -/
theorem finish {final : Sender} {last : Request}
    (midway : sender.Midway requests count sent none [])
    (idle : sender.delivery.outstanding = []) (stage : final.delivery.stage = .completing)
    (asked : final.delivery.outstanding.map (·.request) =
      sender.delivery.outstanding.map (·.request) ++ [last])
    (unasked : final.delivery.session.cancellation.reason? = none) (none : last.chunk? = none) :
    sender.FlowsOn requests count sent final := by
  obtain ⟨_, ⟨⟩, split⟩ := midway.left
  have all : requests = sent := split.trans (List.append_nil _)
  refine ⟨[last], asked, unasked, .completing stage ?_ none ?_ (by rw [all])⟩
  · rw [asked, idle]
    rfl
  · rw [all, ← midway.answered, idle]
    rfl

end Midway

theorem FlowsOn.of_sent {requests sent : List Request} {count : Nat} {before after : Sender}
    {request : Request} {timeout : Nat} (flows :
      (before.having { request, timeout }).FlowsOn requests count (sent ++ [request]) after) :
    before.FlowsOn requests count sent after := by
  obtain ⟨more, outstanding, unasked, flowing⟩ := flows
  refine ⟨request :: more, ?_, unasked, ?_⟩
  · rw [outstanding, having, List.map_append, List.append_assoc]
    rfl
  · rwa [List.append_assoc] at flowing

end Sender

namespace Sending

variable {sender : Sender} {requests sent : List Request} {count : Nat} {ready? : Option Request}
  {pieces : List Piece}

/-- The chunks of the pieces are sent as far as there is room. -/
theorem ensures_sendPieces_flowing (midway : sender.Midway requests count sent none pieces) :
    Ensures (fun _ => False) (sendPieces pieces)
      (fun _ after => sender.FlowsOn requests count sent after) sender := by
  -- What has been sent grows with every piece, and with it what is outstanding.
  induction pieces generalizing sender sent with
  | nil =>
      simp only [sendPieces, ensures_bind, ensures_get]
      by_cases idle : sender.delivery.outstanding = []
      · rw [if_pos (List.isEmpty_iff.mpr idle)]
        simp only [sendFilesComplete, ensures_bind, ensures_get, ensures_request,
          ensures_setStage, ensures_send]
        exact midway.finish idle rfl List.map_append midway.unasked rfl
      · rw [if_neg (by simpa using idle), ensures_setStage]
        exact midway.wait idle
  | cons piece pieces ih =>
      obtain ⟨chunk, made, prepared⟩ := midway.prepare
      simp only [sendPieces, ensures_bind, ensures_checkCancelled, Cancellation.check,
        midway.unasked, ensures_get, ensures_check, ensures_request, made, Except.mapError]
      split
      · rw [ensures_bind, ensures_send]
        refine (ih (prepared.send _)).mono fun _ after flows => ?_
        exact flows.of_sent
      · next full =>
          rw [ensures_setStage]
          -- There is always room for one.
          refine prepared.wait fun idle => full ?_
          have idle : sender.delivery.outstanding = [] := idle
          rw [idle]
          exact Nat.lt_of_lt_of_le Nat.zero_lt_one (Nat.le_max_right _ _)

theorem ensures_resumePieces_flowing (midway : sender.Midway requests count sent ready? pieces) :
    Ensures (fun _ => False) (resumePieces ready? pieces)
      (fun _ after => sender.FlowsOn requests count sent after) sender := by
  unfold resumePieces
  cases ready? with
  | none => exact ensures_sendPieces_flowing midway
  | some request =>
      simp only [ensures_bind, ensures_get, ensures_send]
      refine (ensures_sendPieces_flowing (midway.send _)).mono fun _ after flows => ?_
      exact flows.of_sent

theorem ensures_acceptChunk_midway {request : Request} {chunk : Chunk}
    (midway : sender.Midway requests count sent ready? pieces)
    (brings : request.chunk? = some chunk) :
    Ensures (fun _ => False) (acceptChunk request (.chunkAck chunk.position))
      (fun _ after => after.Midway requests count sent ready? pieces ∧
        after.delivery.outstanding = sender.delivery.outstanding) sender := by
  obtain ⟨_, _, _, _, rfl⟩ := Request.exists_of_chunk? brings
  simp only [acceptChunk, if_true, countChunk, ensures_bind, ensures_modifyProgress, ensures_count]
  exact ⟨⟨midway.unasked, midway.left, midway.answered, midway.waiting, midway.ready⟩, trivial⟩

theorem ensures_proceed_sending_flowing {request : Request} {chunk : Chunk}
    (stage : sender.delivery.stage = .sending ready? pieces)
    (midway : sender.Midway requests count sent ready? pieces)
    (brings : request.chunk? = some chunk) :
    Ensures (fun _ => False) (proceed request (.chunkAck chunk.position))
      (fun result after => result = none ∧ sender.FlowsOn requests count sent after) sender := by
  simp only [proceed, ensures_bind, ensures_get, stage]
  refine (ensures_acceptChunk_midway midway brings).mono fun _ between accepted => ?_
  obtain ⟨midway, same⟩ := accepted
  refine (ensures_resumePieces_flowing midway).mono fun _ after flows => ⟨rfl, ?_⟩
  rwa [Sender.FlowsOn, same] at flows

theorem ensures_proceed_announcing_flowing (stage : sender.delivery.stage = .announcing)
    (midway : sender.Midway requests count sent none
      (sender.delivery.agenda.inventory.toSend.flatMap
        (Piece.cut sender.delivery.settings.chunkSize))) (request : Request) :
    Ensures (fun _ => False) (proceed request .ack)
      (fun result after => result = none ∧ sender.FlowsOn requests count sent after) sender := by
  simp only [proceed, ensures_bind, ensures_get, stage]
  exact (ensures_sendPieces_flowing midway).mono fun _ after flows => ⟨rfl, flows⟩

end Sending

namespace Sender

variable {announcing sender : Sender} {requests sent : List Request} {count : Nat}

theorem sends_of_flowsOn {index : Nat} {waiting : Outstanding} {reply : Reply}
    (found : sender.delivery.outstanding[index]? = some waiting)
    (going : sender.isCancelling = false)
    (proceeds : Ensures (fun _ => False) (Sending.proceed waiting.request reply)
      (fun result after => result = none ∧ (sender.without index).FlowsOn requests count sent after)
      (sender.without index)) :
    ∃ more after, sender.Sends index reply more after ∧
      after.Flowing requests count (sent ++ more) := by
  obtain ⟨_, after, ran, rfl, more, outstanding, unasked, flowing⟩ := proceeds.ok
  refine ⟨more, after, ⟨?_, ?_⟩, flowing⟩
  · rw [receive_eq found going]
    simp only [ran, settle, Cancellation.check, unasked]
  · rw [outstanding, without, List.eraseIdx_map]

/-- The session goes on with the acknowledgement of any of its chunks. -/
theorem Flowing.sends {index : Nat} {waiting : Outstanding} {chunk : Chunk}
    (flowing : sender.Flowing requests count sent)
    (found : sender.delivery.outstanding[index]? = some waiting)
    (brings : waiting.request.chunk? = some chunk) :
    ∃ more after, sender.Sends index (.chunkAck chunk.position) more after ∧
      after.Flowing requests (count + 1) (sent ++ more) := by
  cases flowing with
  | sending stage midway =>
      have inside := (List.getElem?_eq_some_iff.mp found).1
      refine sends_of_flowsOn found (by simp [isCancelling, stage]) ?_
      exact Sending.ensures_proceed_sending_flowing stage (midway.without inside) brings
  | completing stage single none =>
      have member : waiting.request ∈ sender.delivery.outstanding.map (·.request) :=
        List.mem_map_of_mem (List.mem_of_getElem? found)
      rw [single, List.mem_singleton] at member
      rw [member, none] at brings
      cases brings

theorem Sends.same {index : Nat} {reply : Reply} {more moreToo : List Request}
    {after afterToo : Sender} (sends : sender.Sends index reply more after)
    (sendsToo : sender.Sends index reply moreToo afterToo) : more = moreToo ∧ after = afterToo := by
  have same : after = afterToo := sends.takes.trans sendsToo.takes.symm
  subst same
  exact ⟨List.append_cancel_left (sends.sends.symm.trans sendsToo.sends), rfl⟩

theorem Flowing.rests {after : Sender} (flowing : sender.Flowing requests count sent)
    (rests : sender.Rests after) : after.Flowing requests count sent := by
  obtain ⟨delivery, source, journal⟩ := after
  obtain ⟨⟨clock, rfl⟩, files⟩ := rests
  cases flowing with
  | sending stage midway busy =>
      obtain ⟨chunks, made, split⟩ := midway.left
      have left := made.imp fun piece chunk made => (Piece.chunk_congr files piece).trans made
      refine .sending stage ?_ busy
      exact ⟨midway.unasked, ⟨chunks, left, split⟩, midway.answered, midway.waiting, midway.ready⟩
  | completing stage single none all ended => exact .completing stage single none all ended

/-- Whatever has been acknowledged, the session is on its way. -/
theorem Streams.flowing {after : Sender}
    (begins : ∃ sent after, announcing.Sends 0 .ack sent after ∧ after.Flowing requests 0 sent)
    (streams : announcing.Streams count sent after) : after.Flowing requests count sent := by
  -- An event has one outcome, so it is the one in which the session goes on.
  induction streams with
  | announced sends =>
      obtain ⟨_, _, begins, flowing⟩ := begins
      obtain ⟨rfl, rfl⟩ := sends.same begins
      exact flowing
  | acknowledged _ found brings sends ih =>
      obtain ⟨_, _, goesOn, flowing⟩ := ih.sends found brings
      obtain ⟨rfl, rfl⟩ := sends.same goesOn
      exact flowing
  | rested _ rests ih => exact ih.rests rests

theorem Midway.ahead {ready? : Option Request} {pieces : List Piece}
    (midway : sender.Midway requests count sent ready? pieces)
    (busy : sender.delivery.outstanding ≠ []) : count < requests.length ∧ sent <+: requests := by
  obtain ⟨chunks, _, split⟩ := midway.left
  have begun : sent <+: requests := ⟨_, split.symm⟩
  refine ⟨Nat.lt_of_lt_of_le ?_ begun.length_le, begun⟩
  rw [← midway.answered]
  exact Nat.lt_add_of_pos_right (List.length_pos_iff.mpr busy)

theorem Midway.awaitsChunks {ready? : Option Request} {pieces : List Piece}
    (midway : sender.Midway requests count sent ready? pieces)
    (stage : sender.delivery.stage = .sending ready? pieces)
    (busy : sender.delivery.outstanding ≠ []) : sender.AwaitsChunks where
  busy
  each index waiting found := by
    have brings := midway.waiting waiting (List.mem_of_getElem? found)
    obtain ⟨chunk, brings⟩ := Option.isSome_iff_exists.mp brings
    obtain ⟨more, after, sends, _⟩ := (Flowing.sending stage midway busy).sends found brings
    exact ⟨chunk, more, after, brings, sends⟩

theorem sendsOut_of_flowing
    (begins : ∃ sent after, announcing.Sends 0 .ack sent after ∧ after.Flowing requests 0 sent) :
    announcing.SendsOut requests where
  begins := by
    obtain ⟨sent, after, sends, _⟩ := begins
    exact ⟨sent, after, .announced sends⟩
  bounded count sent after streams := by
    cases streams.flowing begins with
    | sending stage midway busy => exact Nat.le_of_lt (midway.ahead busy).1
    | completing stage single none all => exact Nat.le_of_eq all
  goesOn count sent after streams before := by
    cases streams.flowing begins with
    | sending stage midway busy =>
        exact ⟨(midway.ahead busy).2, midway.awaitsChunks stage busy⟩
    | completing stage single none all => exact absurd all (Nat.ne_of_lt before)
  ends sent after streams := by
    cases streams.flowing begins with
    | sending stage midway busy => exact absurd (midway.ahead busy).1 (Nat.lt_irrefl _)
    | completing stage single none all ended => exact ⟨stage, _, ended, none⟩

/-- The announcement is acknowledged, and the chunks of the pieces follow. -/
theorem sendsOut_transfers {announcement : Outstanding} {chunks : List Chunk}
    (stage : announcing.delivery.stage = .announcing)
    (asked : announcing.delivery.outstanding = [announcement])
    (unasked : announcing.delivery.session.cancellation.reason? = none)
    (made : List.Forall₂ (fun piece chunk => piece.chunk announcing.source.store = .ok chunk)
      (announcing.delivery.agenda.inventory.toSend.flatMap
        (Piece.cut announcing.delivery.settings.chunkSize)) chunks) :
    announcing.SendsOut (announcing.transfers chunks) := by
  have found : announcing.delivery.outstanding[0]? = some announcement := by rw [asked]; rfl
  have idle : (announcing.without 0).delivery.outstanding = [] := by rw [without, asked]; rfl
  have midway : (announcing.without 0).Midway (announcing.transfers chunks) 0 [] none
      (announcing.delivery.agenda.inventory.toSend.flatMap
        (Piece.cut announcing.delivery.settings.chunkSize)) :=
    ⟨unasked, ⟨chunks, made, rfl⟩, by rw [idle]; rfl, by simp [idle], by simp⟩
  have waits : (announcing.without 0).delivery.stage = .announcing := stage
  have proceeds := Sending.ensures_proceed_announcing_flowing waits midway announcement.request
  exact sendsOut_of_flowing (sends_of_flowsOn found (by simp [isCancelling, stage]) proceeds)

/-- The chunks are numbered upwards while the numbers last. -/
theorem pairwise_number_transfers {chunks : List Chunk}
    (last : announcing.delivery.session.numbered + chunks.length ≤ 2 ^ 63) :
    ((announcing.transfers chunks).filterMap Request.number?).Pairwise (· < ·) := by
  rw [List.pairwise_filterMap, List.pairwise_iff_getElem]
  intro first second insideFirst insideSecond before numberFirst isFirst numberSecond isSecond
  have inside : second < chunks.length := by rwa [transfers, List.length_mapIdx] at insideSecond
  simp only [transfers, List.getElem_mapIdx] at isFirst isSecond
  cases isFirst
  cases isSecond
  exact (Int64.ofNat_lt_iff_lt (by omega) (by omega)).mpr (by omega)

/-- The chunks that a session sends are, file by file, the content of the files. -/
theorem transfers_tile {announcement : Outstanding}
    (stage : announcing.delivery.stage = .announcing)
    (asked : announcing.delivery.outstanding = [announcement])
    (unasked : announcing.delivery.session.cancellation.reason? = none)
    (positive : 1 ≤ announcing.delivery.settings.chunkSize)
    (present : ∀ file ∈ announcing.delivery.agenda.inventory.toSend, ∃ source,
      announcing.source.store.read file.name = .ok source ∧
      source.length = file.length.toNat) :
    ∃ parts, List.Forall₂ (fun file chunks => ∃ source,
        announcing.source.store.read file.name = .ok source ∧
        Tiles announcing.delivery.settings.chunkSize file 0 source chunks)
        announcing.delivery.agenda.inventory.toSend parts ∧
      announcing.SendsOut (announcing.transfers parts.flatten) ∧
      (announcing.delivery.session.numbered + parts.flatten.length ≤ 2 ^ 63 →
        ((announcing.transfers parts.flatten).filterMap Request.number?).Pairwise (· < ·)) := by
  obtain ⟨parts, tiled, made⟩ := Piece.tiles_flatMap_cut positive present
  refine ⟨parts, tiled, ?_, pairwise_number_transfers⟩
  exact sendsOut_transfers stage asked unasked made

/-- A session whose turn has come. Of three files one is empty. -/
def offeringThree : Sender :=
  launch {
    delivery := .ofStart {
      recovery := 7, shard := default, source := { id := .zero, name := "one" }
      target := { id := .zero, name := "two" }, files := [], startSeqNo := 0 } { chunkSize := 2 }
    source.store.files := (∅ : Std.ExtTreeMap String Content)
      |>.insert "a" (.ofBytes [1, 2, 3, 4])
      |>.insert "b" (.ofBytes [])
      |>.insert "c" (.ofBytes [5, 6, 7]) }

theorem transfers_tile_three :
    ∃ parts : List (List Chunk), parts.map List.length = [2, 1, 2] ∧
      parts.map (·.flatMap (·.content)) = [[1, 2, 3, 4], [], [5, 6, 7]] ∧
      offeringThree.SendsOut (offeringThree.transfers parts.flatten) ∧
      ((offeringThree.transfers parts.flatten).filterMap Request.number?).Pairwise (· < ·) := by
  have stage : offeringThree.delivery.stage = .announcing := rfl
  have size : offeringThree.delivery.settings.chunkSize = 2 := by decide +kernel
  have numbered : offeringThree.delivery.session.numbered = 1 := by decide +kernel
  have listed : offeringThree.delivery.agenda.inventory.toSend = [
      .ofContent "a" (.ofBytes [1, 2, 3, 4]), .ofContent "b" (.ofBytes []),
      .ofContent "c" (.ofBytes [5, 6, 7])] := by decide +kernel
  have readFirst : offeringThree.source.store.read "a" = .ok [1, 2, 3, 4] := by decide +kernel
  have readSecond : offeringThree.source.store.read "b" = .ok [] := by decide +kernel
  have readThird : offeringThree.source.store.read "c" = .ok [5, 6, 7] := by decide +kernel
  have shape {file : FileMetadata} {content : Bytes} {chunks : List Chunk}
      (read : offeringThree.source.store.read file.name = .ok content)
      (tiled : ∃ source, offeringThree.source.store.read file.name = .ok source ∧
        Tiles 2 file 0 source chunks) :
      chunks.length = max 1 (content.length ⌈/⌉ 2) ∧ chunks.flatMap (·.content) = content := by
    obtain ⟨_, found, tiles⟩ := tiled
    cases Except.ok.inj (found.symm.trans read)
    exact ⟨tiles.counted, tiles.whole⟩
  obtain ⟨announcement, asked⟩ : ∃ announcement, offeringThree.delivery.outstanding =
      [announcement] := List.length_eq_one_iff.mp (by decide +kernel)
  obtain ⟨parts, tiled, sends, upward⟩ :=
    transfers_tile stage asked (by decide +kernel) (by decide +kernel) <| by
      rw [listed]
      simp only [List.forall_mem_cons]
      exact ⟨⟨_, readFirst, rfl⟩, ⟨_, readSecond, rfl⟩, ⟨_, readThird, rfl⟩, List.forall_mem_nil _⟩
  rw [listed, size] at tiled
  cases tiled with
  | @cons _ a _ _ first tiled =>
  cases tiled with
  | @cons _ b _ _ second tiled =>
  cases tiled with
  | @cons _ c _ _ third tiled =>
  cases tiled
  obtain ⟨countedFirst, wholeFirst⟩ := shape readFirst first
  obtain ⟨countedSecond, wholeSecond⟩ := shape readSecond second
  obtain ⟨countedThird, wholeThird⟩ := shape readThird third
  have lengths : [a, b, c].map List.length = [2, 1, 2] := by
    simp only [List.map_cons, List.map_nil, countedFirst, countedSecond, countedThird]
    decide
  refine ⟨_, lengths, ?_, sends, upward ?_⟩
  · simp only [List.map_cons, List.map_nil, wholeFirst, wholeSecond, wholeThird]
  · rw [numbered, List.length_flatten, lengths]
    decide

end Sender

end ShardSync.Recovery
