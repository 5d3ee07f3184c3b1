import AppResources.Chunk.Walk

/-!
# Reading chunks one at a time

A reader stands in front of the bytes of a buffer that are left, and gives one chunk of them
after the other. Where the next bytes are no chunk it gives the fault instead; behind a fault
and behind the end of the buffer it gives nothing more.

`walk` takes all steps of a reader at once: `Walk.items` is what the reader gives.

## Main definitions

* `ChunkReader.next`: one step of a reader.
* `ChunkReader.after`: the reader behind a number of steps.
* `Chunk.reader`: the reader of the chunks inside a chunk.
-/

namespace AppResources

/-- A place in a buffer of chunks. -/
structure ChunkReader where
  /-- The bytes that are left. -/
  rest : ByteArray
  /-- Where they start, counted from the start of the outermost buffer. -/
  offset : UInt64
  /-- What ended the reading. -/
  fault : Option ChunkFault := none

namespace ChunkReader

/-- The reader of a buffer that starts at the given offset. -/
def start (b : ByteArray) (offset : UInt64) : ChunkReader where
  rest := b
  offset := offset

/-- Whether something is left to read. -/
def hasNext (r : ChunkReader) : Bool := r.fault.isNone && r.rest.size != 0

/-- The next chunk or fault, if there is one, and the reader behind it. -/
def next (r : ChunkReader) : Option (Except ChunkFault Chunk) × ChunkReader :=
  if r.hasNext then
    match readChunk r.rest 0 r.offset.toNat with
    | .ok c =>
      (some (.ok c), { r with
        rest := r.rest.extract c.size r.rest.size
        offset := r.offset + UInt64.ofNat c.size })
    | .error e => (some (.error e), { r with fault := some e })
  else (none, r)

/-- The reader behind a number of steps. -/
def after (r : ChunkReader) : Nat → ChunkReader
  | 0 => r
  | n + 1 => r.next.2.after n

end ChunkReader

/-- What the reader of a buffer gives: all chunks, and last the fault if there is one. -/
def Walk.items (w : Walk) : List (Except ChunkFault Chunk) :=
  w.chunks.map .ok ++ w.fault.toList.map .error

/-- The reader of the chunks inside the payload of a chunk. -/
def Chunk.reader (c : Chunk) : ChunkReader :=
  .start c.payload (c.offset + UInt64.ofNat c.headerSize)

end AppResources
