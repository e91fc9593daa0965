import Mathlib.Data.List.Forall2
import ShardSync.Proofs.Segment.Resolution

/-!
# Asking for documents before and after sealing

A builder is searched from its last document backwards, a sealed segment by its index and its
mask, and a lookup remembers what it was asked last. All of them find the same document, and
what a lookup reports of it are the fields that were collected.
-/

set_option autoImplicit false

namespace ShardSync

/-- What is reported of a document: the fields that the inquiry is about, or the first of them
that is absent. -/
def Document.report (document : Document) (generation : Generation) (position : Nat)
    (inquiry : Inquiry) : Except SegmentError Finding :=
  match inquiry, document.seqNo?, document.primaryTerm?, document.version? with
  | .version _ true, none, _, _ => .error (.missingValue generation position "_seq_no")
  | .version _ true, some _, none, _ => .error (.missingValue generation position "_primary_term")
  | .version _ _, _, _, none => .error (.missingValue generation position "_version")
  | .version _ true, some seqNo, some primaryTerm, some version =>
      .ok (.version ⟨position, version, some seqNo, some primaryTerm, generation⟩)
  | .version _ false, _, _, some version =>
      .ok (.version ⟨position, version, none, none, generation⟩)
  | .seqNo _, none, _, _ => .error (.missingValue generation position "_seq_no")
  | .seqNo _, some seqNo, _, _ => .ok (.seqNo ⟨position, seqNo, generation⟩)
  | .versionNumber _, _, _, none => .error (.missingValue generation position "_version")
  | .versionNumber _, _, _, some version => .ok (.versionNumber version)

namespace SegmentBuilder

variable {builder : SegmentBuilder} {id : Bytes} {position : Nat}

/-- The answer of a lookup, in terms of the documents that were collected. -/
inductive Answers (builder : SegmentBuilder) (generation : Generation) (inquiry : Inquiry) :
    Except SegmentError (Option Finding) → Prop where
  /-- No position is found, and none holds a live document with the id. -/
  | missing (unfound : builder.findLive? inquiry.id = none)
      (nowhere : ∀ position, ¬ builder.Bears inquiry.id position) :
      Answers builder generation inquiry (.ok none)
  /-- The highest such position is found, and the document there is reported. -/
  | found {position : Nat} {document : Document}
      (found : builder.findLive? inquiry.id = some position)
      (bears : builder.Bears inquiry.id position)
      (highest : ∀ other, builder.Bears inquiry.id other → other ≤ position)
      (stored : builder.document? position = some document) :
      Answers builder generation inquiry
        ((document.report generation position inquiry).map some)

/-- What an inquiry reads at a position of a sealed segment is what it reports of the document
that was collected there. -/
theorem hit_build {document : Document} (stored : builder.document? position = some document)
    (generation : Generation) (inquiry : Inquiry) :
    inquiry.hit (builder.build generation) position =
      document.report generation position inquiry := by
  obtain ⟨entry, there, rfl⟩ := Option.map_eq_some_iff.mp stored
  have seqNos : Lookup.value (builder.build generation) (builder.build generation).seqNos?
      position "_seq_no" = _ := value_build there generation (·.seqNo?) "_seq_no"
  have terms : Lookup.value (builder.build generation) (builder.build generation).primaryTerms?
      position "_primary_term" = _ :=
    value_build there generation (·.primaryTerm?) "_primary_term"
  have versions : Lookup.value (builder.build generation) (builder.build generation).versions?
      position "_version" = _ := value_build there generation (·.version?) "_version"
  unfold Document.report
  cases inquiry with
  | version id withSeqNo =>
      rw [Inquiry.hit, Lookup.versionHit, seqNos, terms, versions]
      cases withSeqNo with
      | false => cases entry.document.version? <;> rfl
      | true =>
          cases entry.document.seqNo? with
          | none => rfl
          | some seqNo =>
              cases entry.document.primaryTerm? with
              | none => rfl
              | some primaryTerm => cases entry.document.version? <;> rfl
  | seqNo id =>
      rw [Inquiry.hit, Lookup.seqNoHit, seqNos]
      cases entry.document.seqNo? <;> rfl
  | versionNumber id =>
      rw [Inquiry.hit, Lookup.versionHit, versions]
      cases entry.document.version? <;> rfl

end SegmentBuilder

namespace Lookup

/-- The answer to one inquiry, and the lookup afterwards. -/
def answer (lookup : Lookup) : Inquiry → Except SegmentError (Option Finding) × Lookup
  | .version id withSeqNo =>
      let (outcome, lookup) := lookup.version id withSeqNo
      (outcome.map (·.map .version), lookup)
  | .seqNo id =>
      let (outcome, lookup) := lookup.seqNo id
      (outcome.map (·.map .seqNo), lookup)
  | .versionNumber id =>
      let (outcome, lookup) := lookup.version id false
      (outcome.map (·.map fun hit => .versionNumber hit.version), lookup)

/-- The answers to inquiries that are made one after the other. -/
def answers (lookup : Lookup) : List Inquiry → List (Except SegmentError (Option Finding))
  | [] => []
  | inquiry :: inquiries =>
      let (outcome, lookup) := lookup.answer inquiry
      outcome :: lookup.answers inquiries

variable {lookup : Lookup} {builder : SegmentBuilder} {generation : Generation}

/-- A lookup that remembers nothing false reports what is read at the position that a search
finds. -/
theorem Remembers.report {α : Type} (remembers : lookup.Remembers) (id : Bytes)
    (hit : Segment → Nat → Except SegmentError α) :
    (lookup.report id hit).1 = (search? lookup.segment id).elim (.ok none)
        (fun position => (hit lookup.segment position).map some) ∧
      (lookup.report id hit).2.Remembers ∧ (lookup.report id hit).2.segment = lookup.segment := by
  obtain ⟨searched, later, bound⟩ := remembers.find? id
  rw [← searched]
  unfold Lookup.report
  cases outcome : lookup.find? id with
  | mk found? after =>
      rw [outcome] at later bound
      cases found? with
      | none => exact ⟨rfl, later, bound⟩
      | some position =>
          dsimp only at bound ⊢
          exact ⟨by rw [bound]; rfl, later, bound⟩

/-- One inquiry is answered by what a search finds, whatever was asked before. -/
theorem Remembers.answer (remembers : lookup.Remembers) (inquiry : Inquiry) :
    (lookup.answer inquiry).1 = (search? lookup.segment inquiry.id).elim (.ok none)
        (fun position => (inquiry.hit lookup.segment position).map some) ∧
      (lookup.answer inquiry).2.Remembers ∧
      (lookup.answer inquiry).2.segment = lookup.segment := by
  have wrapped {α : Type} (hit : Segment → Nat → Except SegmentError α) (wrap : α → Finding) :
      (lookup.report inquiry.id hit).1.map (·.map wrap) =
          (search? lookup.segment inquiry.id).elim (.ok none)
            (fun position => ((hit lookup.segment position).map wrap).map some) ∧
        (lookup.report inquiry.id hit).2.Remembers ∧
        (lookup.report inquiry.id hit).2.segment = lookup.segment := by
    obtain ⟨reported, later⟩ := remembers.report inquiry.id hit
    refine ⟨?_, later⟩
    rw [reported]
    cases search? lookup.segment inquiry.id with
    | none => rfl
    | some position =>
        dsimp only [Option.elim_some]
        cases hit lookup.segment position <;> rfl
  cases inquiry with
  | version id withSeqNo =>
      exact wrapped (fun segment position => versionHit segment position withSeqNo) .version
  | seqNo id => exact wrapped seqNoHit .seqNo
  | versionNumber id =>
      exact wrapped (fun segment position => versionHit segment position false)
        fun hit => .versionNumber hit.version

theorem Remembers.answers_build (remembers : lookup.Remembers)
    (bound : lookup.segment = builder.build generation) (inquiries : List Inquiry) :
    List.Forall₂ (builder.Answers generation) inquiries (lookup.answers inquiries) := by
  induction inquiries generalizing lookup with
  | nil => exact .nil
  | cons inquiry inquiries ih =>
      obtain ⟨answered, later, same⟩ := remembers.answer inquiry
      have here : builder.Answers generation inquiry (lookup.answer inquiry).1 := ?_
      · exact .cons here (ih later (same.trans bound))
      rw [answered, bound, SegmentBuilder.search?_build]
      cases found : builder.findLive? inquiry.id with
      | none => exact .missing found (SegmentBuilder.findLive?_eq_none_iff.mp found)
      | some position =>
          obtain ⟨bears, highest⟩ := SegmentBuilder.findLive?_eq_some_iff.mp found
          obtain ⟨entry, there, _⟩ := id bears
          have stored : builder.document? position = some entry.document := by
            rw [SegmentBuilder.document?, there]
            rfl
          rw [Option.elim_some, SegmentBuilder.hit_build stored]
          exact .found found bears highest stored

/-- Whatever documents are collected and deleted, and whatever is asked of a lookup that their
segment accepts, in whatever order and however often: each answer is about the document that
the builder finds, which is the highest live one with the id, and reports its fields. -/
theorem answers_as_collected
    (accepted : ofSegment (builder.build generation) = .ok lookup) (inquiries : List Inquiry) :
    List.Forall₂ (builder.Answers generation) inquiries (lookup.answers inquiries) := by
  obtain rfl := ofSegment_ok accepted
  refine Remembers.answers_build (fun id found? same => ?_) rfl inquiries
  cases same

/-- An id on three positions, the last of them masked out and the second one deleted, the trace
of a removal and of a no-op, and a document without a sequence number. -/
def mixture : SegmentBuilder :=
  (((({} : SegmentBuilder)
    |>.add (SegmentBuilder.liveDocument [1] 1 0 1)
    |>.add (SegmentBuilder.liveDocument [1] 2 1 1)
    |>.add (SegmentBuilder.liveDocument [1] 3 2 1)
    |>.add (SegmentBuilder.deleteTombstone [2] 4 3 1)
    |>.add (SegmentBuilder.noOpTombstone 4 1)
    |>.add { id? := some [3], version? := some 1 }).softDelete 1).hardDelete 2).softDelete 9

theorem answers_as_collected_mixture :
    let inquiries : List Inquiry :=
      [.version [1] true, .seqNo [3], .version [1] true, .seqNo [2], .version [3] false]
    let lookup : Lookup := { segment := mixture.build 7 }
    ofSegment (mixture.build 7) = .ok lookup ∧
      lookup.answers inquiries = [
        .ok (some (.version ⟨0, 1, some 0, some 1, 7⟩)), .error (.missingValue 7 5 "_seq_no"),
        .ok (some (.version ⟨0, 1, some 0, some 1, 7⟩)), .ok none,
        .ok (some (.version ⟨5, 1, none, none, 7⟩))] ∧
      List.Forall₂ (mixture.Answers 7) inquiries (lookup.answers inquiries) := by
  intro inquiries lookup
  have accepted : ofSegment (mixture.build 7) = .ok lookup := by
    rfl
  exact ⟨accepted, by decide +kernel, answers_as_collected accepted inquiries⟩

end Lookup

end ShardSync
