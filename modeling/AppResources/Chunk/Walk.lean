import AppResources.Chunk

/-!
# Walking over sibling chunks

A buffer of chunks is walked from its start. The walk ends at the end of the
buffer or at the first bytes that are no chunk. Broken bytes at the end are
tolerated where files are known to carry them (`recoverable`); any other fault
means that the buffer cannot be trusted at all (`fatal`).

## Main results

* `readChunk_size_pos`: every step makes progress, so the walk ends.
-/

namespace AppResources

/-- Why the bytes at some place are no chunk. -/
inductive ChunkFault where
  /-- Fewer bytes are left than a header has. -/
  | headerTruncated
  /-- The chunk says it is larger than what is left. -/
  | sizeTooLarge
  /-- The chunk starts at an offset that is no multiple of four. -/
  | unaligned
  /-- The header size does not cover the first eight bytes. -/
  | headerTooSmall
  /-- The header size exceeds the chunk. -/
  | headerTooLarge
  /-- A size is no multiple of four. -/
  | sizesUnaligned
  /-- A read left the buffer. -/
  | fault (f : ReadFault)
  deriving DecidableEq, Repr

namespace ChunkFault

/-- Whether everything read from the buffer has to be given up. -/
def isFatal : ChunkFault → Bool
  | .headerTruncated | .sizeTooLarge => false
  | .unaligned | .headerTooSmall | .headerTooLarge | .sizesUnaligned | .fault _ => true

/-- What is wrong. -/
def detail : ChunkFault → String
  | .headerTruncated => "not enough space for header"
  | .sizeTooLarge => "chunk size is bigger than given data"
  | .unaligned => "header not aligned on 4-byte boundary"
  | .headerTooSmall => "header size too small"
  | .headerTooLarge => "header size is larger than entire chunk"
  | .sizesUnaligned => "header sizes are not aligned on 4-byte boundary"
  | .fault .outOfBounds => "read past the end"
  | .fault .negative => "negative length"

/-- The message about a fault. -/
def message (f : ChunkFault) : String :=
  (if f.isFatal then "malformed chunk: " else "malformed chunk (recoverable): ") ++ f.detail

end ChunkFault

/-- The chunk at an index of a buffer, where `position` is that index counted from the start
of the outermost buffer. -/
def readChunk (b : ByteArray) (i position : Nat) : Except ChunkFault Chunk :=
  match Bytes.word16? b i, Bytes.word16? b (i + 2), Bytes.word32? b (i + 4) with
  | some kind, some headerSize, some size =>
    if b.size - i < size.toNat then .error .sizeTooLarge
    else if position % 4 ≠ 0 then .error .unaligned
    else if headerSize.toNat < chunkHeaderSize then .error .headerTooSmall
    else if size.toNat < headerSize.toNat then .error .headerTooLarge
    else if size.toNat % 4 ≠ 0 ∨ headerSize.toNat % 4 ≠ 0 then .error .sizesUnaligned
    else
      match Bytes.slice b i (i + size.toNat) with
      | .ok bytes =>
        .ok {
          kind := .ofTag kind
          headerSize := headerSize.toNat
          bytes := bytes
          position := position }
      | .error f => .error (.fault f)
  | _, _, _ => .error .headerTruncated

/-- A buffer as far as it could be walked. -/
structure Walk where
  /-- The chunks in order. -/
  chunks : List Chunk
  /-- What ended the walk before the end of the buffer. -/
  fault : Option ChunkFault

theorem readChunk_size_pos {b : ByteArray} {i position : Nat} {c : Chunk}
    (h : readChunk b i position = .ok c) : 0 < c.size ∧ i + c.size ≤ b.size := by
  unfold readChunk at h
  split at h
  next kind headerSize size hKind _ _ =>
    repeat' split at h
    all_goals cases h
    next hSlice =>
      unfold Bytes.slice at hSlice
      split at hSlice
      all_goals cases hSlice
      simp only [chunkHeaderSize] at *
      simp only [Chunk.size, ByteArray.size_extract]
      omega
  next => simp at h

/-- Walks on from an index. -/
def walkFrom (b : ByteArray) (i position : Nat) : Walk :=
  if i < b.size then
    match _hRead : readChunk b i position with
    | .ok c =>
      let rest := walkFrom b (i + c.size) (position + c.size)
      { rest with chunks := c :: rest.chunks }
    | .error e => ⟨[], some e⟩
  else ⟨[], none⟩
termination_by b.size - i
decreasing_by
  have := readChunk_size_pos _hRead
  omega

section WalkFrom

variable {b : ByteArray} {i position : Nat}

theorem walkFrom_of_ok {c : Chunk} (hi : i < b.size) (h : readChunk b i position = .ok c) :
    walkFrom b i position =
      ⟨c :: (walkFrom b (i + c.size) (position + c.size)).chunks,
        (walkFrom b (i + c.size) (position + c.size)).fault⟩ := by
  rw [walkFrom, if_pos hi]
  split
  · next d hd =>
    cases hd.symm.trans h
    rfl
  · next e he => cases he.symm.trans h

theorem walkFrom_of_error {e : ChunkFault} (hi : i < b.size)
    (h : readChunk b i position = .error e) : walkFrom b i position = ⟨[], some e⟩ := by
  rw [walkFrom, if_pos hi]
  split
  · next c hc => cases hc.symm.trans h
  · next f hf =>
    cases hf.symm.trans h
    rfl

theorem walkFrom_of_le (hi : b.size ≤ i) : walkFrom b i position = ⟨[], none⟩ := by
  rw [walkFrom, if_neg (Nat.not_lt.mpr hi)]

end WalkFrom

/-- Walks over a buffer that starts at the given position. -/
def walkAt (b : ByteArray) (position : Nat) : Walk :=
  walkFrom b 0 position

/-- Walks over a buffer that starts at the given offset. -/
def walk (b : ByteArray) (offset : UInt64) : Walk :=
  walkAt b offset.toNat

namespace Walk

/-- The fault of a walk after which nothing read from the buffer counts. -/
def fatal? (w : Walk) : Option ChunkFault :=
  w.fault.filter ChunkFault.isFatal

end Walk

/-- The chunks inside the payload of a chunk. -/
def Chunk.children (c : Chunk) : Walk :=
  walkAt c.payload c.payloadPosition

end AppResources
