import Mathlib.Algebra.Order.Floor.Div
import ShardSync.Proofs.Outcome
import ShardSync.Proofs.Recovery.Assembly

/-!
# The chunks of a file

The pieces that a file is cut into become chunks that lie side by side and are together
the content of the file. There are as few of them as their size allows, and one if the
file is empty.
-/

set_option autoImplicit false

namespace ShardSync.Recovery

/-- Chunks of at most `size` octets that are together the given octets, which stand in a
file from `offset` on and are the rest of it. -/
structure Tiles (size : Nat) (file : FileMetadata) (offset : Nat) (octets : Bytes)
    (chunks : List Chunk) : Prop where
  described : ∀ chunk ∈ chunks, chunk.file = file ∧ chunk.checksum = checksum chunk.content
  contiguous : ∀ front chunk back, chunks = front ++ chunk :: back →
    chunk.position.toNat = offset + (front.map (·.content.length)).sum
  small : ∀ chunk ∈ chunks, chunk.content.length ≤ size
  filled : octets ≠ [] → ∀ chunk ∈ chunks, chunk.content ≠ []
  empty : octets = [] → ∃ chunk, chunks = [chunk] ∧ chunk.content = []
  closed : ∃ front final, chunks = front ++ [final] ∧ final.isLast = true ∧
    ∀ chunk ∈ front, chunk.isLast = false
  whole : chunks.flatMap (·.content) = octets
  counted : chunks.length = max 1 (octets.length ⌈/⌉ size)

namespace Tiles

variable {size offset : Nat} {file : FileMetadata} {octets : Bytes} {chunks : List Chunk}

theorem last (positive : 1 ≤ size) (short : octets.length ≤ size) (placed : offset < 2 ^ 64) :
    Tiles size file offset octets
      [{ file, position := .ofNat offset, content := octets, isLast := true
         checksum := checksum octets }] where
  described := List.forall_mem_singleton.mpr ⟨rfl, rfl⟩
  contiguous front chunk back split := by
    cases front with
    | nil =>
        cases split
        exact UInt64.toNat_ofNat_of_lt placed
    | cons first front => simp at split
  small := List.forall_mem_singleton.mpr short
  filled some := List.forall_mem_singleton.mpr some
  empty none := ⟨_, rfl, none⟩
  closed := ⟨[], _, rfl, rfl, List.forall_mem_nil _⟩
  whole := List.flatMap_singleton ..
  counted := by
    rw [List.length_singleton, eq_comm, Nat.max_eq_left]
    rw [Nat.ceilDiv_eq_add_pred_div]
    exact Nat.le_of_lt_succ ((Nat.div_lt_iff_lt_mul positive).mpr (by omega))

theorem cons (positive : 1 ≤ size) (long : size < octets.length) (placed : offset < 2 ^ 64)
    (later : Tiles size file (offset + size) (octets.drop size) chunks) :
    Tiles size file offset octets
      ({ file, position := .ofNat offset, content := octets.take size, isLast := false
         checksum := checksum (octets.take size) } :: chunks) := by
  have taken : (octets.take size).length = size := List.length_take_of_le (Nat.le_of_lt long)
  have further : octets.drop size ≠ [] := by
    rw [Ne, List.drop_eq_nil_iff]
    exact Nat.not_le.mpr long
  constructor
  case described => exact List.forall_mem_cons.mpr ⟨⟨rfl, rfl⟩, later.described⟩
  case contiguous =>
    intro front chunk back split
    cases front with
    | nil =>
        cases split
        exact UInt64.toNat_ofNat_of_lt placed
    | cons first front =>
        rw [List.cons_append, List.cons.injEq] at split
        obtain ⟨rfl, split⟩ := split
        rw [later.contiguous front chunk back split, List.map_cons, List.sum_cons, taken,
          Nat.add_assoc]
  case small => exact List.forall_mem_cons.mpr ⟨Nat.le_of_eq taken, later.small⟩
  case filled =>
    refine fun _ => List.forall_mem_cons.mpr ⟨List.ne_nil_of_length_pos ?_, later.filled further⟩
    exact taken.symm ▸ positive
  case empty =>
    rintro rfl
    cases long
  case closed =>
    obtain ⟨front, final, rfl, isLast, before⟩ := later.closed
    exact ⟨_ :: front, final, rfl, isLast, List.forall_mem_cons.mpr ⟨rfl, before⟩⟩
  case whole => rw [List.flatMap_cons, later.whole, List.take_append_drop]
  case counted =>
    -- Something is left behind the first chunk, so the maximum is the quotient.
    have one : 1 ≤ (octets.length - size) ⌈/⌉ size := by
      rw [Nat.ceilDiv_eq_add_pred_div]
      exact (Nat.one_le_div_iff positive).mpr (by omega)
    have more : octets.length ⌈/⌉ size = (octets.length - size) ⌈/⌉ size + 1 := by
      rw [Nat.ceilDiv_eq_add_pred_div, Nat.ceilDiv_eq_add_pred_div, ← Nat.add_div_right _ positive]
      congr 1
      omega
    rw [List.length_cons, later.counted, List.length_drop, more]
    omega

end Tiles

namespace Piece

variable {size : Nat} {file : FileMetadata} {store : Store} {source : Bytes}

/-- A piece that lies within a file becomes a chunk. -/
theorem chunk_of_read {piece : Piece} (read : store.read piece.file.name = .ok source)
    (inside : piece.position + piece.length ≤ source.length) :
    piece.chunk store = .ok {
      file := piece.file
      position := .ofNat piece.position
      content := source.slice piece.position piece.length
      isLast := piece.isLast
      checksum := checksum (source.slice piece.position piece.length) } := by
  obtain ⟨content, found, same⟩ := bind_eq_ok_iff.mp read
  cases same
  exact chunk_eq_ok_iff.mpr ⟨content, found, by rwa [← Content.length_toBytes], rfl⟩

theorem tiles_cutFrom (positive : 1 ≤ size) (read : store.read file.name = .ok source)
    (length : source.length = file.length.toNat) {position : Nat}
    (inside : position ≤ source.length) :
    ∃ chunks, List.Forall₂ (fun piece chunk => piece.chunk store = .ok chunk)
        (cutFrom size file position) chunks ∧
      Tiles size file position (source.drop position) chunks := by
  have step : max size 1 = size := Nat.max_eq_left positive
  have bound : source.length < 2 ^ 64 := length ▸ file.length.toNat_lt
  -- The cases are those of the cut: the rest is one piece, or a whole piece comes first.
  fun_induction cutFrom size file position with
  | case1 position rest last =>
      have all : source.slice position rest = source.drop position := by
        rw [Bytes.slice, List.take_of_length_le (by rw [List.length_drop]; omega)]
      refine ⟨_, .cons (chunk_of_read read (by dsimp only; omega)) .nil, ?_⟩
      dsimp only
      rw [all]
      exact .last positive (by rw [List.length_drop]; omega) (by omega)
  | case2 position rest further ih =>
      rw [step] at further ih ⊢
      have within : position + size ≤ source.length := by omega
      obtain ⟨chunks, made, tiles⟩ := ih within
      refine ⟨_, .cons (chunk_of_read read within) made, ?_⟩
      refine .cons positive (by rw [List.length_drop]; omega) (by omega) ?_
      rwa [List.drop_drop]

/-- The chunks of several files, file by file. -/
theorem tiles_flatMap_cut {files : List FileMetadata} (positive : 1 ≤ size)
    (present : ∀ file ∈ files, ∃ source, store.read file.name = .ok source ∧
      source.length = file.length.toNat) :
    ∃ parts, List.Forall₂ (fun file chunks => ∃ source, store.read file.name = .ok source ∧
        Tiles size file 0 source chunks) files parts ∧
      List.Forall₂ (fun piece chunk => piece.chunk store = .ok chunk)
        (files.flatMap (cut size)) parts.flatten := by
  induction files with
  | nil => exact ⟨[], .nil, .nil⟩
  | cons file files ih =>
      obtain ⟨⟨source, read, length⟩, others⟩ := List.forall_mem_cons.mp present
      obtain ⟨parts, tiled, made⟩ := ih others
      obtain ⟨chunks, here, tiles⟩ := tiles_cutFrom positive read length (Nat.zero_le _)
      exact ⟨chunks :: parts, .cons ⟨source, read, tiles⟩ tiled, List.rel_append here made⟩

end Piece

end ShardSync.Recovery
