import ShardSync.Proofs.Engine.Identity
import ShardSync.Proofs.Segment.Caches

/-!
# Failures leave no trace

A use of an engine that fails may have filled the cache of the search, and that is all it has
done. The cache cannot be seen from outside, even where segments have a generation in common:
so the engine shows the same as before, and goes on as if that use had not been.
-/

set_option autoImplicit false

namespace ShardSync.Engine

inductive Answer where
  | done (outcome : Except EngineError Unit)
  | found (outcome : Except EngineError (Option VersionHit))
deriving DecidableEq

def answer (engine : Engine) : Use → Answer
  | .prepare segments => .done ((engine.prepare segments).map fun _ => ())
  | .call (.apply operation) => .done (engine.apply operation).1
  | .call .refresh => .done (engine.refresh.map fun _ => ())
  | .call (.get id) => .found (engine.get id).1

/-- All that an engine shows of itself. -/
structure View where
  segments : List Segment
  pending : SegmentBuilder
  localCheckpoint : Int
  maxSeqNo : Int
  hasProcessed : Int → Bool
  source? : String → Option Bytes
  get : String → Except EngineError (Option VersionHit)

def view (engine : Engine) : View where
  segments := engine.segments
  pending := engine.pending
  localCheckpoint := engine.localCheckpoint
  maxSeqNo := engine.maxSeqNo
  hasProcessed := engine.hasProcessed
  source? := engine.source?
  get id := (engine.get id).1

/-- What is seen of uses: the answer to each, and what the engine shows after it. -/
def responses (engine : Engine) : List Use → List (Answer × View)
  | [] => []
  | use :: uses => (engine.answer use, (engine.use use).view) :: (engine.use use).responses uses

/-- Two engines that differ in their caches only, both of which belong to their segments. -/
structure Interchangeable (engine other : Engine) : Prop where
  same : other = { engine with resolver := other.resolver }
  settled : engine.resolver.Settled engine.segments engine.nextGeneration
  settledOther : other.resolver.Settled engine.segments engine.nextGeneration
  older : ∀ segment ∈ engine.segments, segment.generation.toNat < engine.nextGeneration.toNat

/-- A step comes to the same with either cache, and if it fails it has changed nothing else. -/
structure Concurs (engine : Engine) (first second : Except EngineError Unit × Engine) : Prop where
  outcome : first.1 = second.1
  after : first.2.Interchangeable second.2
  failed : ∀ error, first.1 = .error error → engine.Interchangeable first.2

/-- The first segment with the generation is replaced, if there is one. -/
theorem replaceFirst_cases (replaced : Generation) (change : Segment → Segment)
    (segments : List Segment) :
    replaceFirst replaced change segments = segments ∨
      ∃ older segment newer, segments = older ++ segment :: newer ∧
        segment.generation = replaced ∧ (∀ other ∈ older, other.generation ≠ replaced) ∧
          replaceFirst replaced change segments = older ++ change segment :: newer := by
  induction segments with
  | nil => exact .inl rfl
  | cons first segments ih =>
      by_cases here : first.generation = replaced
      · exact .inr ⟨[], first, segments, rfl, here, by simp, by simp [replaceFirst, here]⟩
      · rcases ih with same | ⟨older, segment, newer, split, found, before, same⟩
        · exact .inl (by simp [replaceFirst, here, same])
        · exact .inr ⟨first :: older, segment, newer, by simp [split], found,
            List.forall_mem_cons.mpr ⟨here, before⟩, by simp [replaceFirst, here, same]⟩

/-- A segment that is put in the place of the first one with its generation, under another
generation, does not become the newest one of a third. -/
theorem newest?_of_replaceFirst {segments : List Segment} {replaced generation : Generation}
    {change : Segment → Segment}
    (apart : ∀ segment, (change segment).generation ≠ generation) {segment : Segment}
    (newest : Segment.newest? (replaceFirst replaced change segments) generation = some segment) :
    Segment.newest? segments generation = some segment := by
  rcases replaceFirst_cases replaced change segments with
    same | ⟨older, found, newer, rfl, rfl, before, same⟩
  · rwa [same] at newest
  · have changed := Segment.newest?_singleton_of_ne (apart found)
    simp only [same, Segment.newest?_append, Segment.newest?_cons _ newer, changed,
      Option.or_none] at newest ⊢
    by_cases here : found.generation = generation
    · have missing := Segment.newest?_eq_none (here ▸ before)
      simp only [missing, Option.or_none] at newest
      simp [newest]
    · simpa [Segment.newest?_singleton_of_ne here] using newest

variable {engine other later : Engine}

namespace Interchangeable

/-- An engine and the same one with another cache. -/
theorem exists_resolver (pair : engine.Interchangeable other) :
    ∃ resolver : Resolver, other = { engine with resolver } ∧
      resolver.Settled engine.segments engine.nextGeneration :=
  ⟨_, pair.same, pair.settledOther⟩

theorem left (pair : engine.Interchangeable other) : engine.Interchangeable engine :=
  ⟨rfl, pair.settled, pair.settled, pair.older⟩

theorem version (pair : engine.Interchangeable other) (id : Bytes) (withSeqNo : Bool) :
    ∃ outcome, ∃ resolver resolverOther : Resolver,
      engine.resolver.version engine.segments id withSeqNo = (outcome, resolver) ∧
        other.resolver.version other.segments id withSeqNo = (outcome, resolverOther) ∧
          resolver.Settled engine.segments engine.nextGeneration ∧
            resolverOther.Settled engine.segments engine.nextGeneration := by
  obtain ⟨resolver, rfl, settledOther⟩ := pair.exists_resolver
  exact pair.settled.version settledOther pair.older id withSeqNo

/-- New segments come under the next generation. -/
theorem grow (older : ∀ segment ∈ engine.segments,
      segment.generation.toNat < engine.nextGeneration.toNat) {segments : List Segment}
    {resolver resolverOther : Resolver} {next : Generation}
    (settled : resolver.Settled engine.segments engine.nextGeneration)
    (settledOther : resolverOther.Settled engine.segments engine.nextGeneration)
    (found : successor? engine.nextGeneration = some next)
    (listed : ∀ segment ∈ segments,
      segment ∈ engine.segments ∨ segment.generation = engine.nextGeneration)
    (kept : ∀ generation, engine.nextGeneration ≠ generation → ∀ segment,
      Segment.newest? segments generation = some segment →
        Segment.newest? engine.segments generation = some segment) :
    Interchangeable { engine with segments, resolver, nextGeneration := next }
      { engine with segments, resolver := resolverOther, nextGeneration := next } := by
  have number := toNat_of_successor? found
  have least : engine.nextGeneration.toNat ≤ next.toNat := by omega
  have kept (generation : Generation) (old : generation.toNat < engine.nextGeneration.toNat) :=
    kept generation fun same => Nat.lt_irrefl _ (same ▸ old)
  constructor
  case same => rfl
  case settled => exact settled.grow kept least
  case settledOther => exact settledOther.grow kept least
  case older =>
    intro segment member
    rcases listed segment member with before | new
    · exact Nat.lt_of_lt_of_le (older segment before) least
    · simp [new, number]

theorem replaceFirst (older : ∀ segment ∈ engine.segments,
      segment.generation.toNat < engine.nextGeneration.toNat)
    {resolver resolverOther : Resolver} {next : Generation}
    (settled : resolver.Settled engine.segments engine.nextGeneration)
    (settledOther : resolverOther.Settled engine.segments engine.nextGeneration)
    (found : successor? engine.nextGeneration = some next) (replaced : Generation)
    (position : Nat) :
    Interchangeable
      { engine with
        resolver
        nextGeneration := next
        segments := Engine.replaceFirst replaced
          (·.withSoftDeleted position engine.nextGeneration) engine.segments }
      { engine with
        resolver := resolverOther
        nextGeneration := next
        segments := Engine.replaceFirst replaced
          (·.withSoftDeleted position engine.nextGeneration) engine.segments } := by
  have sealed (segment : Segment) :=
    segment.generation_withSoftDeleted position engine.nextGeneration
  apply grow older settled settledOther found
  · intro segment member
    rcases replaceFirst_cases replaced (·.withSoftDeleted position engine.nextGeneration)
      engine.segments with same | ⟨_, first, _, split, _, _, same⟩
    · exact .inl (same ▸ member)
    · rw [same, List.perm_middle.mem_iff, List.mem_cons] at member
      rcases member with rfl | kept
      · exact .inr (sealed first)
      · rw [split, List.perm_middle.mem_iff]
        exact .inl (List.mem_cons_of_mem _ kept)
  · intro generation apart segment newest
    exact newest?_of_replaceFirst (fun segment => (sealed segment).trans_ne apart) newest

/-- Deleting a live copy changes nothing but the cache before all that can fail is done. -/
theorem removeLive (pair : engine.Interchangeable other) (id : Bytes) :
    engine.Concurs (engine.removeLive id) (other.removeLive id) := by
  obtain ⟨outcome, resolver, resolverOther, first, second, settled, settledOther⟩ :=
    pair.version id false
  obtain ⟨kept, rfl, settledKept⟩ := pair.exists_resolver
  have older := pair.older
  have filled : engine.Interchangeable { engine with resolver } :=
    ⟨rfl, pair.settled, settled, older⟩
  unfold Engine.removeLive
  cases pending : engine.pending.findLive? id with
  | some position => exact ⟨rfl, ⟨rfl, pair.settled, settledKept, older⟩, by simp⟩
  | none =>
      simp only [first, second]
      rcases outcome with error | hit?
      · exact ⟨rfl, ⟨rfl, settled, settledOther, older⟩, fun _ _ => filled⟩
      cases hit? with
      | none => exact ⟨rfl, ⟨rfl, settled, settledOther, older⟩, by simp⟩
      | some hit =>
          unfold allocate
          cases found : successor? engine.nextGeneration with
          | none => exact ⟨rfl, ⟨rfl, settled, settledOther, older⟩, fun _ _ => filled⟩
          | some next => exact ⟨rfl, replaceFirst older settled settledOther found _ _, by simp⟩

theorem perform (pair : engine.Interchangeable other) (operation : Operation) :
    engine.Concurs (engine.perform operation) (other.perform operation) := by
  cases key : operation.key? with
  | none =>
      simp only [perform_of_no_key key]
      obtain ⟨kept, rfl, settled⟩ := pair.exists_resolver
      exact ⟨rfl, ⟨rfl, pair.settled, settled, pair.older⟩, by simp⟩
  | some id =>
      have removed := pair.removeLive id
      simp only [perform_of_key key]
      generalize engine.removeLive id = first, other.removeLive id = second at removed ⊢
      obtain ⟨outcome, later⟩ := first
      obtain ⟨_, laterOther⟩ := second
      obtain ⟨rfl, after, failed⟩ := removed
      cases outcome with
      | error error => exact ⟨rfl, after, failed⟩
      | ok done =>
          obtain ⟨kept, same, settled⟩ := after.exists_resolver
          simp only at same
          subst same
          exact ⟨rfl, ⟨rfl, after.settled, settled, after.older⟩, by simp⟩

theorem apply (pair : engine.Interchangeable other) (operation : Operation) :
    engine.Concurs (engine.apply operation) (other.apply operation) := by
  have performed := pair.perform operation
  have prepared : other.isPrepared = engine.isPrepared := by
    obtain ⟨kept, rfl, -⟩ := pair.exists_resolver
    rfl
  unfold Engine.apply
  simp only [prepared]
  split
  · exact ⟨rfl, pair, fun _ _ => pair.left⟩
  split
  · exact ⟨rfl, pair, fun _ _ => pair.left⟩
  generalize engine.perform operation = first, other.perform operation = second at performed ⊢
  obtain ⟨outcome, later⟩ := first
  obtain ⟨_, laterOther⟩ := second
  obtain ⟨rfl, after, failed⟩ := performed
  cases outcome with
  | error error => exact ⟨rfl, after, failed⟩
  | ok done =>
      obtain ⟨kept, same, settled⟩ := after.exists_resolver
      simp only at same
      subst same
      exact ⟨rfl, ⟨rfl, after.settled, settled, after.older⟩, by simp⟩

theorem refresh (pair : engine.Interchangeable other) :
    engine.Concurs (engine.refresh.map fun _ => (), engine.refresh.toOption.getD engine)
      (other.refresh.map fun _ => (), other.refresh.toOption.getD other) := by
  obtain ⟨kept, rfl, settled⟩ := pair.exists_resolver
  unfold Engine.refresh allocate
  by_cases empty : engine.pending.entries.isEmpty = true
  · simp only [empty, if_true]
    exact ⟨rfl, pair, by simp [Except.map]⟩
  simp only [empty, if_false, Bool.false_eq_true]
  cases found : successor? engine.nextGeneration with
  | none => exact ⟨rfl, pair, fun _ _ => pair.left⟩
  | some next =>
      have grown : Interchangeable
          { engine with
            segments := engine.segments ++ [engine.pending.build engine.nextGeneration]
            nextGeneration := next }
          { engine with
            segments := engine.segments ++ [engine.pending.build engine.nextGeneration]
            resolver := kept
            nextGeneration := next } := by
        apply grow pair.older pair.settled settled found
        · intro segment member
          rcases List.mem_append.mp member with before | new
          · exact .inl before
          · exact .inr (by rw [List.mem_singleton.mp new]; rfl)
        · intro generation apart segment newest
          have other : Segment.newest? [engine.pending.build engine.nextGeneration] generation =
              none := Segment.newest?_singleton_of_ne apart
          simpa [Segment.newest?_append, other] using newest
      exact ⟨rfl, ⟨rfl, grown.settled, grown.settledOther, grown.older⟩, by
        simp [Except.map, bind, Except.bind, pure, Except.pure]⟩

end Interchangeable

/-- Segments are taken with an empty cache. -/
theorem interchangeable_prepare {segments : List Segment}
    (accepted : engine.prepare segments = .ok later) : later.Interchangeable later := by
  obtain ⟨tracker, nextGeneration, surveyed, rfl⟩ := prepare_ok accepted
  have older := (survey_older surveyed).2
  have empty := Resolver.settled_empty segments nextGeneration
  exact ⟨rfl, empty, empty, fun segment member => (older segment member).1⟩

theorem interchangeable_empty : Interchangeable {} {} where
  same := rfl
  settled := Resolver.settled_empty [] 1
  settledOther := Resolver.settled_empty [] 1
  older segment member := by cases member

namespace Interchangeable

/-- The same use of both has the same answer, and leaves them as they should be. -/
theorem use (pair : engine.Interchangeable other) (use : Use) :
    engine.answer use = other.answer use ∧ (engine.use use).Interchangeable (other.use use) ∧
      ∀ error, engine.answer use = .done (.error error) →
        engine.Interchangeable (engine.use use) := by
  have of_concurs {first second : Except EngineError Unit × Engine}
      (concurs : engine.Concurs first second) :
      Answer.done first.1 = .done second.1 ∧ first.2.Interchangeable second.2 ∧
        ∀ error, Answer.done first.1 = .done (.error error) → engine.Interchangeable first.2 :=
    ⟨congrArg Answer.done concurs.outcome, concurs.after,
      fun error failed => concurs.failed error (Answer.done.inj failed)⟩
  cases use with
  | prepare segments =>
      have same : other.prepare segments = engine.prepare segments := by
        obtain ⟨kept, rfl, -⟩ := pair.exists_resolver
        rfl
      have concurs : engine.Concurs
          ((engine.prepare segments).map fun _ => (), (engine.prepare segments).toOption.getD engine)
          ((other.prepare segments).map fun _ => (), (other.prepare segments).toOption.getD other) := by
        simp only [same]
        cases accepted : engine.prepare segments with
        | error error => exact ⟨rfl, pair, fun _ _ => pair.left⟩
        | ok prepared => exact ⟨rfl, interchangeable_prepare accepted, by simp [Except.map]⟩
      exact of_concurs concurs
  | call call =>
      cases call with
      | apply operation => exact of_concurs (pair.apply operation)
      | refresh => exact of_concurs pair.refresh
      | get id =>
          obtain ⟨outcome, resolver, resolverOther, first, second, settled, settledOther⟩ :=
            pair.version (Text.Utf8.encode id) true
          obtain ⟨kept, rfl, -⟩ := pair.exists_resolver
          simp only [answer, Engine.use, Engine.get, first, second, true_and]
          exact ⟨⟨rfl, settled, settledOther, pair.older⟩, by simp⟩

theorem view (pair : engine.Interchangeable other) : engine.view = other.view := by
  have found : (fun id => (engine.get id).1) = fun id => (other.get id).1 := by
    funext id
    exact Answer.found.inj (pair.use (.call (.get id))).1
  unfold Engine.view
  rw [found]
  obtain ⟨kept, rfl, -⟩ := pair.exists_resolver
  rfl

theorem responses (pair : engine.Interchangeable other) (uses : List Use) :
    engine.responses uses = other.responses uses := by
  induction uses generalizing engine other with
  | nil => rfl
  | cons use uses ih =>
      obtain ⟨answer, after, -⟩ := pair.use use
      simp only [Engine.responses, answer, after.view, ih after]

theorem visits (pair : engine.Interchangeable engine) (uses : List Use) :
    ∀ visited ∈ engine.visits uses, visited.Interchangeable visited := by
  induction uses generalizing engine with
  | nil => exact List.forall_mem_singleton.mpr pair
  | cons use uses ih => exact List.forall_mem_cons.mpr ⟨pair, ih (pair.use use).2.1⟩

end Interchangeable

/-- A use that fails, at whatever point of the life of an engine, changes nothing that can be
seen, then or ever after. -/
theorem unseen_of_failed {uses : List Use} (visited : engine ∈ visits {} uses) {use : Use}
    {error : EngineError} (failed : engine.answer use = .done (.error error)) :
    (engine.use use).view = engine.view ∧
      ∀ more, (engine.use use).responses more = engine.responses more := by
  have pair := interchangeable_empty.visits uses engine visited
  have left := (pair.use use).2.2 error failed
  exact ⟨left.view.symm, fun more => (left.responses more).symm⟩

/-- A segment with a document, under the last but one generation. -/
def lastSegment : Segment :=
  (({} : SegmentBuilder).add (SegmentBuilder.liveDocument (Text.Utf8.encode "a") 1 0 1)).build
    18446744073709551614

/-- An engine with this segment, and with no generation left to give away. -/
def exhausted : Engine := ({} : Engine).use (.prepare [lastSegment])

/-- The old copy of the document has been found, and cannot be replaced. -/
theorem unseen_of_exhausted :
    exhausted.answer (.call (.apply ⟨1, 1, .index "a" 2 []⟩)) =
        .done (.error (.generationsExhausted 18446744073709551615)) ∧
      (exhausted.use (.call (.apply ⟨1, 1, .index "a" 2 []⟩))).view = exhausted.view ∧
        ∀ more, (exhausted.use (.call (.apply ⟨1, 1, .index "a" 2 []⟩))).responses more =
          exhausted.responses more := by
  have visited : exhausted ∈ visits {} [.prepare [lastSegment]] :=
    List.mem_cons_of_mem _ List.mem_cons_self
  have failed : exhausted.answer (.call (.apply ⟨1, 1, .index "a" 2 []⟩)) =
      .done (.error (.generationsExhausted 18446744073709551615)) := by decide +kernel
  exact ⟨failed, unseen_of_failed visited failed⟩

end ShardSync.Engine
