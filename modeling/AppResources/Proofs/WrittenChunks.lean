import AppResources.Proofs.BytesInPlace
import AppResources.Proofs.ChunkWalk

/-!
# Written chunks are walked

Chunks that were written one behind the other are found by a walk, each of them at its own
position, and the walk reaches the end of the buffer without a fault.

## Main definitions

* `ChunkParts`: a chunk before it is written.
* `ChunkParts.Fits`: its sizes can be written and are aligned.

## Main results

* `ChunkParts.frame_placed`: the header and the body of a written chunk.
* `ChunkParts.walkAt_bytes`: the walk over written chunks.
-/

namespace AppResources

/-- A chunk before it is written. -/
structure ChunkParts where
  /-- What the chunk holds. -/
  kind : ChunkKind
  /-- The header behind its first eight bytes. -/
  header : List UInt8
  /-- The bytes behind the header. -/
  body : List UInt8

namespace ChunkParts

variable {p c : ChunkParts} {ps : List ChunkParts} {b : ByteArray} {i position : Nat}

/-- The bytes of the chunk. -/
def bytes (p : ChunkParts) : List UInt8 :=
  Chunk.encode p.kind p.header p.body

/-- The number of bytes of the chunk. -/
def size (p : ChunkParts) : Nat :=
  chunkHeaderSize + p.header.length + p.body.length

/-- The chunk that is read back at a position. -/
def placed (position : Nat) (p : ChunkParts) : Chunk where
  kind := p.kind
  headerSize := chunkHeaderSize + p.header.length
  bytes := p.bytes.toByteArray
  position := position

/-- The chunks that are read back from a position on. -/
def placeAll (position : Nat) : List ChunkParts → List Chunk
  | [] => []
  | p :: ps => p.placed position :: placeAll (position + p.size) ps

/-- The sizes of the chunk can be written and are aligned, and its kind has a tag. -/
structure Fits (p : ChunkParts) : Prop where
  known : ChunkKind.ofTag p.kind.tag = p.kind
  headerAligned : p.header.length % 4 = 0
  bodyAligned : p.body.length % 4 = 0
  headerSmall : chunkHeaderSize + p.header.length < 65536
  small : p.size < 4294967296

theorem Fits.size_mod (h : p.Fits) : p.size % 4 = 0 := by
  have hheader := h.headerAligned
  have hbody := h.bodyAligned
  rw [size, chunkHeaderSize]
  omega

/-- What stands behind a chunk starts at a multiple of four again. -/
theorem Fits.aligned_behind (h : p.Fits) (hposition : position % 4 = 0) :
    (position + p.size) % 4 = 0 := by
  have hmod := h.size_mod
  omega

theorem length_bytes (p : ChunkParts) : p.bytes.length = p.size := by
  simp only [bytes, Chunk.encode, size, List.length_append, Bytes.length_bytes16,
    Bytes.length_bytes32, chunkHeaderSize]

/-! ### Chunks one behind the other -/

theorem placeAll_append (position : Nat) (ps qs : List ChunkParts) :
    placeAll position (ps ++ qs) =
      placeAll position ps ++ placeAll (position + (ps.flatMap bytes).length) qs := by
  induction ps generalizing position with
  | nil => rfl
  | cons p ps ih =>
      rw [List.cons_append, placeAll, ih, placeAll, List.cons_append, List.flatMap_cons,
        List.length_append, length_bytes, Nat.add_assoc]

theorem size_le_of_mem (hc : c ∈ ps) : c.size ≤ (ps.flatMap bytes).length := by
  obtain ⟨before, after, rfl⟩ := List.append_of_mem hc
  simp only [List.flatMap_append, List.flatMap_cons, List.length_append, length_bytes]
  omega

theorem length_le_flatMap_bytes (ps : List ChunkParts) :
    ps.length ≤ (ps.flatMap bytes).length := by
  induction ps with
  | nil => exact Nat.zero_le _
  | cons p ps ih =>
      rw [List.length_cons, List.flatMap_cons, List.length_append, length_bytes, size,
        chunkHeaderSize]
      omega

theorem length_flatMap_bytes_mod (hps : ∀ p ∈ ps, p.Fits) :
    (ps.flatMap bytes).length % 4 = 0 := by
  induction ps with
  | nil => rfl
  | cons p ps ih =>
      obtain ⟨hp, hrest⟩ := List.forall_mem_cons.mp hps
      have hfirst := hp.size_mod
      have hlater := ih hrest
      rw [List.flatMap_cons, List.length_append, length_bytes]
      omega

/-! ### Written chunks at their positions -/

@[simp] theorem kind_placed : (p.placed position).kind = p.kind := rfl

@[simp] theorem headerSize_placed :
    (p.placed position).headerSize = chunkHeaderSize + p.header.length := rfl

@[simp] theorem bytes_placed : (p.placed position).bytes = p.bytes.toByteArray := rfl

@[simp] theorem position_placed : (p.placed position).position = position := rfl

theorem size_placed : (p.placed position).size = p.size := by
  simp only [Chunk.size, placed, List.size_toByteArray, length_bytes]

/-- Where the parts of a chunk stand. -/
theorem holds_bytes_iff :
    Bytes.Holds b i p.bytes ↔
      Bytes.Holds b i (Bytes.bytes16 p.kind.tag) ∧
        Bytes.Holds b (i + 2)
          (Bytes.bytes16 (UInt16.ofNat (chunkHeaderSize + p.header.length))) ∧
        Bytes.Holds b (i + 4) (Bytes.bytes32 (UInt32.ofNat p.size)) ∧
        Bytes.Holds b (i + chunkHeaderSize) p.header ∧
        Bytes.Holds b (i + (chunkHeaderSize + p.header.length)) p.body := by
  simp only [bytes, Chunk.encode, Bytes.holds_append_iff, List.length_append,
    Bytes.length_bytes16, Bytes.length_bytes32, and_assoc, Nat.reduceAdd, size,
    chunkHeaderSize]

theorem frame_placed (p : ChunkParts) (position : Nat) :
    (p.placed position).frame = .ok (p.header.toByteArray, p.body.toByteArray) := by
  have hall := holds_bytes_iff.mp (Bytes.holds_toByteArray p.bytes)
  simp only [Nat.zero_add] at hall
  obtain ⟨_, _, _, hheader, hbody⟩ := hall
  have hsize : p.bytes.toByteArray.size = p.size := by
    rw [List.size_toByteArray, length_bytes]
  have hheaderSlice := hheader.slice (by rw [hsize, size]; omega)
  have hbodySlice := hbody.slice (by rw [hsize, size]; omega)
  simp only [Chunk.frame, placed, hsize]
  rw [hheaderSlice]
  show (do
    let payload ← Bytes.slice p.bytes.toByteArray (chunkHeaderSize + p.header.length) p.size
    pure (p.header.toByteArray, payload)) = _
  rw [size, hbodySlice]
  rfl

theorem readChunk_bytes (h : Bytes.Holds b i p.bytes) (hi : i ≤ b.size)
    (hposition : position % 4 = 0) (hp : p.Fits) :
    readChunk b i position = .ok (p.placed position) := by
  have hroom := h.size_le hi
  have hslice := h.slice hi
  rw [length_bytes] at hroom hslice
  obtain ⟨hkind, hheaderSize, htotal, _, _⟩ := holds_bytes_iff.mp h
  have hheaderNat : (UInt16.ofNat (chunkHeaderSize + p.header.length)).toNat =
      chunkHeaderSize + p.header.length :=
    UInt16.toNat_ofNat_of_lt' hp.headerSmall
  have hsizeNat : (UInt32.ofNat p.size).toNat = p.size := UInt32.toNat_ofNat_of_lt' hp.small
  have hheaderAligned := hp.headerAligned
  have hbodyAligned := hp.bodyAligned
  simp only [readChunk, hkind.word16?, hheaderSize.word16?, htotal.word32?, hheaderNat, hsizeNat]
  rw [if_neg (by omega), if_neg (by omega), if_neg (by omega), if_neg (by rw [size]; omega),
    if_neg (by simp only [size, chunkHeaderSize]; omega), hslice, hp.known]
  rfl

/-- The size in the header of a chunk has 32 bits. -/
theorem size_of_readChunk {c : Chunk} (h : Bytes.Holds b i p.bytes)
    (hc : readChunk b i position = .ok c) : c.size = p.size % 4294967296 := by
  obtain ⟨_, _, htotal, _, _⟩ := holds_bytes_iff.mp h
  have hsize := (Chunk.CutFrom.of_readChunk hc).total
  rw [htotal.word32?, Option.map_some, UInt32.toNat_ofNat'] at hsize
  exact (Option.some.inj hsize).symm

theorem walkFrom_bytes (hps : ∀ p ∈ ps, p.Fits) (h : Bytes.Holds b i (ps.flatMap bytes))
    (hsize : b.size = i + (ps.flatMap bytes).length) (hposition : position % 4 = 0) :
    walkFrom b i position = ⟨placeAll position ps, none⟩ := by
  induction ps generalizing i position with
  | nil =>
      exact walkFrom_of_le (by simp at hsize; omega)
  | cons p ps ih =>
      obtain ⟨hp, hrest⟩ := List.forall_mem_cons.mp hps
      rw [List.flatMap_cons] at h hsize
      rw [List.length_append, length_bytes] at hsize
      obtain ⟨hfirst, hlater⟩ := Bytes.holds_append_iff.mp h
      rw [length_bytes] at hlater
      have hpositive : 0 < p.size := by
        simp only [size, chunkHeaderSize]
        omega
      have hstep := hp.aligned_behind hposition
      have hread := readChunk_bytes hfirst (by omega) hposition hp
      have htail := ih hrest hlater (by omega) hstep
      rw [walkFrom_of_ok (by omega) hread, size_placed, htail, placeAll]

/-- A buffer of written chunks is walked to its end. -/
theorem walkAt_bytes (hps : ∀ p ∈ ps, p.Fits) (hposition : position % 4 = 0) :
    walkAt (ps.flatMap bytes).toByteArray position = ⟨placeAll position ps, none⟩ := by
  refine walkFrom_bytes hps (Bytes.holds_toByteArray _) ?_ hposition
  rw [List.size_toByteArray, Nat.zero_add]

end ChunkParts

end AppResources
