import AppResources.Chunk.Reader
import AppResources.Proofs.RecordReads

/-!
# A walk divides its buffer

The chunks that a walk finds lie one behind the other from the start of the buffer on. They
are cut out of it without a gap, up to its end or to the first bytes that are no chunk; each
of them has a framed and aligned header and knows its own offset. The chunks inside a chunk
divide its payload in the same way, so that a chunk at any depth stands in the outermost
buffer where its offset says.

A reader that takes one chunk at a time gives exactly what the walk finds, and nothing behind
that.

## Main definitions

* `Chunk.CutFrom`: what `readChunk` finds at an index of a buffer.
* `Contiguous`: chunks that were cut out one behind the other.
* `Chunk.LiesIn`: a chunk stands in a buffer where its offset says.
* `Walk.Partitions`: the chunks of a walk divide the front of a buffer.
* `ChunkReader.Yields`: all that a reader gives.
* `Walk.Finds`: the chunks at every depth.

## Main results

* `readChunk_eq_ok_iff`: when there is a chunk at an index.
* `contiguous_walkFrom`, `span_walkFrom`: what a walk finds, and how far it comes.
* `ChunkReader.yields_walkFrom`: a reader gives what the walk finds.
* `walk_partitions`: both for a buffer and for the payload of every chunk in it.
-/

namespace AppResources

/-! ## Bytes of a part of a buffer -/

namespace Bytes

variable {b : ByteArray} {i j k : Nat}

theorem getElem?_extract : (b.extract i j)[k]? = if i + k < j then b[i + k]? else none := by
  by_cases hk : k < (b.extract i j).size
  · have hsize := hk
    rw [ByteArray.size_extract] at hsize
    rw [getElem?_pos _ k hk, ByteArray.getElem_extract, if_pos (by omega),
      getElem?_pos b (i + k) (by omega)]
  · rw [getElem?_neg _ k hk]
    rw [ByteArray.size_extract] at hk
    split
    · rw [getElem?_neg b (i + k) (by omega)]
    · rfl

theorem word16?_extract (h : i + k + 2 ≤ j) :
    word16? (b.extract i j) k = word16? b (i + k) := by
  simp only [word16?, getElem?_extract]
  rw [if_pos (by omega), if_pos (by omega)]
  rfl

theorem word32?_extract (h : i + k + 4 ≤ j) :
    word32? (b.extract i j) k = word32? b (i + k) := by
  simp only [word32?, getElem?_extract]
  rw [if_pos (by omega), if_pos (by omega), if_pos (by omega), if_pos (by omega)]
  rfl

theorem size_drop : (b.extract i b.size).size = b.size - i := by
  rw [ByteArray.size_extract, Nat.min_self]

theorem getElem?_drop : (b.extract i b.size)[k]? = b[i + k]? := by
  rw [getElem?_extract]
  split
  · rfl
  · next h => rw [getElem?_neg b (i + k) h]

theorem word16?_drop : word16? (b.extract i b.size) k = word16? b (i + k) := by
  simp only [word16?, getElem?_drop, Nat.add_assoc]

theorem word32?_drop : word32? (b.extract i b.size) k = word32? b (i + k) := by
  simp only [word32?, getElem?_drop, Nat.add_assoc]

end Bytes

/-! ## One chunk -/

/-- A chunk that was cut out of a buffer at an index, where the buffer has a header that
describes it. -/
structure Chunk.CutFrom (c : Chunk) (b : ByteArray) (i position : Nat) : Prop where
  /-- The header says what the chunk holds. -/
  tag : (Bytes.word16? b i).map ChunkKind.ofTag = some c.kind
  /-- The header gives its own size. -/
  header : (Bytes.word16? b (i + 2)).map UInt16.toNat = some c.headerSize
  /-- The header gives the size of the chunk. -/
  total : (Bytes.word32? b (i + 4)).map UInt32.toNat = some c.size
  /-- The bytes of the chunk are those of the buffer. -/
  bytes_eq : c.bytes = b.extract i (i + c.size)
  /-- The buffer reaches as far as the chunk. -/
  inside : i + c.size ≤ b.size
  /-- The chunk knows its place. -/
  position_eq : c.position = position
  /-- The place is aligned. -/
  aligned : position % 4 = 0
  /-- The header covers the bytes that every chunk has. -/
  covers : chunkHeaderSize ≤ c.headerSize
  /-- The header lies within the chunk. -/
  headerSize_le : c.headerSize ≤ c.size
  /-- The header is aligned. -/
  headerSize_mod : c.headerSize % 4 = 0
  /-- The chunk is aligned. -/
  size_mod : c.size % 4 = 0

section ReadChunk

variable {b : ByteArray} {i j position : Nat} {c : Chunk}

theorem Chunk.CutFrom.of_readChunk (h : readChunk b i position = .ok c) :
    c.CutFrom b i position := by
  unfold readChunk at h
  split at h
  · next kind headerSize size hkind hheader hsize =>
    have hroom := Bytes.le_of_word32? hsize
    split at h
    · cases h
    next hinside =>
    split at h
    · cases h
    next haligned =>
    split at h
    · cases h
    next hcovers =>
    split at h
    · cases h
    next hle =>
    split at h
    · cases h
    next hmod =>
    rw [Bytes.slice, if_pos (by omega)] at h
    cases h
    have hcut : (b.extract i (i + size.toNat)).size = size.toNat := by
      rw [ByteArray.size_extract]
      omega
    have hmods : size.toNat % 4 = 0 ∧ headerSize.toNat % 4 = 0 := by omega
    exact {
      tag := by rw [hkind, Option.map_some]
      header := by rw [hheader, Option.map_some]
      total := by rw [hsize, Option.map_some, Chunk.size, hcut]
      bytes_eq := by rw [Chunk.size, hcut]
      inside := by
        rw [Chunk.size, hcut]
        omega
      position_eq := rfl
      aligned := Decidable.not_not.mp haligned
      covers := Nat.le_of_not_lt hcovers
      headerSize_le := by
        rw [Chunk.size, hcut]
        exact Nat.le_of_not_lt hle
      headerSize_mod := hmods.2
      size_mod := by
        rw [Chunk.size, hcut]
        exact hmods.1 }
  · cases h

theorem Chunk.CutFrom.readChunk_eq (h : c.CutFrom b i position) :
    readChunk b i position = .ok c := by
  obtain ⟨tag, htag, hkind⟩ := Option.map_eq_some_iff.mp h.tag
  obtain ⟨headerSize, hheader, hheaderSize⟩ := Option.map_eq_some_iff.mp h.header
  obtain ⟨size, htotal, hsize⟩ := Option.map_eq_some_iff.mp h.total
  have hinside := h.inside
  have haligned := h.aligned
  have hcovers := h.covers
  have hle := h.headerSize_le
  have hheaderMod := h.headerSize_mod
  have hsizeMod := h.size_mod
  simp only [readChunk, htag, hheader, htotal, hheaderSize, hsize]
  rw [if_neg (by omega), if_neg (by omega), if_neg (by omega), if_neg (by omega),
    if_neg (by omega), Bytes.slice, if_pos (by omega), ← h.bytes_eq, ← h.position_eq, hkind]

/-- There is a chunk at an index exactly if it can be cut out there. -/
theorem readChunk_eq_ok_iff : readChunk b i position = .ok c ↔ c.CutFrom b i position :=
  ⟨.of_readChunk, Chunk.CutFrom.readChunk_eq⟩

theorem Chunk.CutFrom.framed (h : c.CutFrom b i position) : c.Framed :=
  ⟨h.covers, h.headerSize_le⟩

/-- What is behind a chunk has no part in it. -/
theorem Chunk.CutFrom.extract (h : c.CutFrom b i position) (hj : i + c.size ≤ j) :
    c.CutFrom (b.extract 0 j) i position := by
  have hcovers := h.covers
  have hle := h.headerSize_le
  have hinside := h.inside
  simp only [chunkHeaderSize] at hcovers
  refine { h with tag := ?_, header := ?_, total := ?_, bytes_eq := ?_, inside := ?_ }
  · rw [Bytes.word16?_extract (by omega), Nat.zero_add]
    exact h.tag
  · rw [Bytes.word16?_extract (by omega), Nat.zero_add]
    exact h.header
  · rw [Bytes.word32?_extract (by omega), Nat.zero_add]
    exact h.total
  · rw [ByteArray.extract_extract, Nat.zero_add, Nat.zero_add, Nat.min_eq_left hj]
    exact h.bytes_eq
  · rw [ByteArray.size_extract]
    omega

/-- What is before an index has no part in the chunk there. -/
theorem readChunk_drop (hi : i ≤ b.size) :
    readChunk (b.extract i b.size) 0 position = readChunk b i position := by
  have hslice : ∀ n, Bytes.slice (b.extract i b.size) 0 n = Bytes.slice b i (i + n) := by
    intro n
    simp only [Bytes.slice, Bytes.size_drop, ByteArray.extract_extract]
    by_cases hn : i + n ≤ b.size
    · rw [if_pos (by omega), if_pos (by omega), Nat.add_zero, Nat.min_eq_left hn]
    · rw [if_neg (by omega), if_neg (by omega)]
  simp only [readChunk, Bytes.word16?_drop, Bytes.word32?_drop, Bytes.size_drop, hslice,
    Nat.add_zero, Nat.zero_add, Nat.sub_zero]

end ReadChunk

/-! ## Chunks one behind the other -/

namespace Chunk

/-- The number of bytes of chunks. -/
def span : List Chunk → Nat
  | [] => 0
  | c :: cs => c.size + span cs

@[simp] theorem span_nil : span [] = 0 := rfl

@[simp] theorem span_cons (c : Chunk) (cs : List Chunk) : span (c :: cs) = c.size + span cs := rfl

theorem span_append (cs ds : List Chunk) : span (cs ++ ds) = span cs + span ds := by
  induction cs with
  | nil => rw [List.nil_append, span_nil, Nat.zero_add]
  | cons c cs ih => rw [List.cons_append, span_cons, span_cons, ih, Nat.add_assoc]

/-- The bytes of chunks, joined. -/
def joined (cs : List Chunk) : List UInt8 := cs.flatMap (·.bytes.data.toList)

end Chunk

/-- Chunks that were cut out of a buffer one behind the other. -/
inductive Contiguous (b : ByteArray) : Nat → Nat → List Chunk → Prop
  | nil {i position : Nat} : Contiguous b i position []
  | cons {i position : Nat} {c : Chunk} {cs : List Chunk} (head : c.CutFrom b i position)
      (tail : Contiguous b (i + c.size) (position + c.size) cs) :
      Contiguous b i position (c :: cs)

theorem contiguous_walkFrom (b : ByteArray) (i position : Nat) :
    Contiguous b i position (walkFrom b i position).chunks := by
  fun_induction walkFrom b i position with
  | case1 i position hmore c hread rest ih => exact .cons (.of_readChunk hread) ih
  | case2 i position hmore e hread => exact .nil
  | case3 i position hend => exact .nil

/-- Only a fault keeps a walk from the end of the buffer. -/
theorem span_walkFrom {b : ByteArray} {i position : Nat} (hi : i ≤ b.size)
    (hfault : (walkFrom b i position).fault = none) :
    i + Chunk.span (walkFrom b i position).chunks = b.size := by
  fun_induction walkFrom b i position with
  | case1 i position hmore c hread rest ih =>
      have hrest : i + c.size + Chunk.span rest.chunks = b.size :=
        ih (readChunk_size_pos hread).2 hfault
      rw [Chunk.span_cons]
      omega
  | case2 i position hmore e hread => cases hfault
  | case3 i position hend =>
      rw [Chunk.span_nil]
      omega

namespace Contiguous

variable {b : ByteArray} {i position : Nat} {cs : List Chunk}

/-- The place of every chunk is known from the sizes of those before it. -/
theorem cutFrom_getElem (h : Contiguous b i position cs) {k : Nat} (hk : k < cs.length) :
    cs[k].CutFrom b (i + Chunk.span (cs.take k)) (position + Chunk.span (cs.take k)) := by
  induction h generalizing k with
  | nil => exact absurd hk (Nat.not_lt_zero k)
  | @cons i position c cs hc _ ih =>
      cases k with
      | zero => exact hc
      | succ k =>
          have hrest := ih (Nat.lt_of_succ_lt_succ hk)
          rw [Nat.add_assoc, Nat.add_assoc] at hrest
          rw [List.take_succ_cons, Chunk.span_cons]
          exact hrest

theorem cutFrom_of_mem (h : Contiguous b i position cs) {c : Chunk} (hc : c ∈ cs) :
    ∃ n, c.CutFrom b (i + n) (position + n) := by
  obtain ⟨k, hk, rfl⟩ := List.getElem_of_mem hc
  exact ⟨_, h.cutFrom_getElem hk⟩

theorem add_span_le (h : Contiguous b i position cs) (hi : i ≤ b.size) :
    i + Chunk.span cs ≤ b.size := by
  induction h with
  | nil => exact hi
  | cons hc _ ih =>
      have hrest := ih hc.inside
      rw [Chunk.span_cons]
      omega

theorem joined_eq (h : Contiguous b i position cs) :
    Chunk.joined cs = (b.extract i (i + Chunk.span cs)).data.toList := by
  induction h with
  | nil => simp [Chunk.joined]
  | @cons i position c cs hc _ ih =>
      have hsplit :
          b.extract i (i + c.size) ++ b.extract (i + c.size) (i + (c.size + Chunk.span cs)) =
            b.extract i (i + (c.size + Chunk.span cs)) := by
        rw [ByteArray.extract_append_extract, Nat.min_eq_left (by omega),
          Nat.max_eq_right (by omega)]
      rw [Chunk.joined, List.flatMap_cons, ← Chunk.joined, ih, hc.bytes_eq, Chunk.span_cons,
        ← hsplit, ByteArray.data_append, Array.toList_append, Nat.add_assoc]

end Contiguous

/-! ## Chunks in their buffer -/

/-- A chunk stands in a buffer, which starts at the given offset, where its own offset says. -/
structure Chunk.LiesIn (c : Chunk) (b : ByteArray) (start : Nat) : Prop where
  /-- The place of the chunk fits into a word. -/
  offset_eq : c.offset.toNat = c.position
  start_le : start ≤ c.offset.toNat
  end_le : c.offset.toNat + c.size ≤ start + b.size
  bytes_eq : c.bytes = b.extract (c.offset.toNat - start) (c.offset.toNat - start + c.size)

/-- The chunks of a walk divide the front of a buffer, which starts at the given offset. -/
structure Walk.Partitions (w : Walk) (b : ByteArray) (start : Nat) : Prop where
  /-- Joined again, the chunks are the front of the buffer. -/
  front : Chunk.joined w.chunks <+: b.data.toList
  /-- Without a fault they are all of it. -/
  whole : w.fault = none → Chunk.joined w.chunks = b.data.toList
  /-- Every chunk is cut out right behind those before it. -/
  bytes_eq : ∀ (k : Nat) (hk : k < w.chunks.length), w.chunks[k].bytes =
    b.extract (Chunk.span (w.chunks.take k)) (Chunk.span (w.chunks.take (k + 1)))
  /-- Every offset is known from the sizes of the chunks before it. -/
  offset_eq : ∀ (k : Nat) (hk : k < w.chunks.length),
    w.chunks[k].offset.toNat = start + Chunk.span (w.chunks.take k)
  /-- Every chunk lies in the buffer. -/
  inside : ∀ c ∈ w.chunks, c.LiesIn b start
  /-- Every header lies in its chunk. -/
  framed : ∀ c ∈ w.chunks, chunkHeaderSize ≤ c.headerSize ∧ c.headerSize ≤ c.size
  /-- Headers and chunks are aligned. -/
  aligned : ∀ c ∈ w.chunks, c.headerSize % 4 = 0 ∧ c.size % 4 = 0

section Places

variable {b : ByteArray} {start : Nat} {c d : Chunk}

theorem Chunk.toNat_offset (h : c.position < UInt64.size) : c.offset.toNat = c.position :=
  UInt64.toNat_ofNat_of_lt' h

theorem Chunk.size_payload (c : Chunk) : c.payload.size = c.size - c.headerSize :=
  Bytes.size_drop

theorem Chunk.CutFrom.liesIn {i : Nat} (h : c.CutFrom b i (start + i))
    (hfit : start + b.size < UInt64.size) : c.LiesIn b start := by
  have hposition := h.position_eq
  have hinside := h.inside
  have hoffset : c.offset.toNat = start + i := by
    rw [Chunk.toNat_offset (by omega), hposition]
  refine ⟨hoffset.trans hposition.symm, by omega, by omega, ?_⟩
  rw [hoffset, Nat.add_sub_cancel_left]
  exact h.bytes_eq

/-- What lies in the payload of a chunk lies in the buffer that the chunk was cut out of. -/
theorem Chunk.LiesIn.trans (hd : d.LiesIn c.payload (c.offset.toNat + c.headerSize))
    (hc : c.LiesIn b start) (hframed : c.headerSize ≤ c.size) : d.LiesIn b start := by
  have hpayload := c.size_payload
  have hstart := hd.start_le
  have hend := hd.end_le
  have hcstart := hc.start_le
  have hcend := hc.end_le
  refine ⟨hd.offset_eq, by omega, by omega, ?_⟩
  rw [hd.bytes_eq, Chunk.payload, ← Chunk.size, hc.bytes_eq, ByteArray.extract_extract,
    ByteArray.extract_extract]
  congr 1 <;> omega

/-- The chunks of a buffer divide it, wherever it starts. -/
theorem walkAt_partitions (hfit : start + b.size < UInt64.size) :
    (walkAt b start).Partitions b start := by
  have hcontiguous : Contiguous b 0 start (walkAt b start).chunks := contiguous_walkFrom b 0 start
  have hjoined := hcontiguous.joined_eq
  have hcut : ∀ c ∈ (walkAt b start).chunks, ∃ n, c.CutFrom b n (start + n) := by
    intro c hc
    obtain ⟨n, hn⟩ := hcontiguous.cutFrom_of_mem hc
    exact ⟨n, by rwa [Nat.zero_add] at hn⟩
  rw [Nat.zero_add] at hjoined
  exact {
    front := by
      rw [hjoined, ByteArray.data_extract, Array.toList_extract]
      exact List.take_prefix _ _
    whole := by
      intro hfault
      have hall := span_walkFrom (Nat.zero_le _) hfault
      rw [Nat.zero_add] at hall
      rw [hjoined, walkAt, hall, ByteArray.extract_zero_size]
    bytes_eq := by
      intro k hk
      have hk' := (hcontiguous.cutFrom_getElem hk).bytes_eq
      rw [Nat.zero_add] at hk'
      rw [List.take_add_one, List.getElem?_eq_getElem hk, Option.toList_some, Chunk.span_append,
        Chunk.span_cons, Chunk.span_nil, Nat.add_zero]
      exact hk'
    offset_eq := by
      intro k hk
      have hplace := hcontiguous.cutFrom_getElem hk
      have hin := hplace.inside
      have hposition := hplace.position_eq
      rw [Chunk.toNat_offset (by omega), hposition]
    inside := by
      intro c hc
      obtain ⟨n, hn⟩ := hcut c hc
      exact hn.liesIn hfit
    framed := by
      intro c hc
      obtain ⟨n, hn⟩ := hcut c hc
      exact ⟨hn.covers, hn.headerSize_le⟩
    aligned := by
      intro c hc
      obtain ⟨n, hn⟩ := hcut c hc
      exact ⟨hn.headerSize_mod, hn.size_mod⟩ }

end Places

/-! ## Readers -/

/-- A reader gives these items one after the other, and nothing behind them. -/
def ChunkReader.Yields (r : ChunkReader) (items : List (Except ChunkFault Chunk)) : Prop :=
  ∀ n, (r.after n).next.1 = items[n]?

namespace ChunkReader

variable {r behind : ChunkReader} {item : Except ChunkFault Chunk}
  {items : List (Except ChunkFault Chunk)}

theorem hasNext_iff : r.hasNext = true ↔ r.fault = none ∧ 0 < r.rest.size := by
  rw [hasNext, Bool.and_eq_true, Option.isNone_iff_eq_none, bne_iff_ne, Nat.pos_iff_ne_zero]

theorem Yields.nil (h : ¬ r.hasNext = true) : r.Yields [] := by
  have hnext : r.next = (none, r) := by
    rw [next, if_neg h]
  intro n
  induction n with
  | zero => rw [after, hnext, List.getElem?_nil]
  | succ n ih => rw [after, hnext, ih, List.getElem?_nil, List.getElem?_nil]

theorem Yields.cons (h : r.next = (some item, behind)) (hbehind : behind.Yields items) :
    r.Yields (item :: items) := by
  intro n
  cases n with
  | zero => rw [after, h, List.getElem?_cons_zero]
  | succ n => rw [after, h, List.getElem?_cons_succ, hbehind n]

/-- The reader that has come to an index of a buffer. -/
def standingAt (b : ByteArray) (i position : Nat) : ChunkReader where
  rest := b.extract i b.size
  offset := UInt64.ofNat position

section StandingAt

variable {b : ByteArray} {i position : Nat}

theorem start_eq_standingAt (b : ByteArray) (o : UInt64) : start b o = standingAt b 0 o.toNat := by
  rw [start, standingAt, ByteArray.extract_zero_size, UInt64.ofNat_toNat]

theorem hasNext_standingAt : (standingAt b i position).hasNext = true ↔ i < b.size := by
  rw [hasNext_iff, standingAt, Bytes.size_drop, Nat.sub_pos_iff_lt]
  exact and_iff_right rfl

theorem readChunk_standingAt (hi : i < b.size) (hposition : position < UInt64.size) :
    readChunk (standingAt b i position).rest 0 (standingAt b i position).offset.toNat =
      readChunk b i position := by
  simp only [standingAt]
  rw [UInt64.toNat_ofNat_of_lt' hposition, readChunk_drop (Nat.le_of_lt hi)]

theorem next_standingAt_of_ok {c : Chunk} (hi : i < b.size) (hposition : position < UInt64.size)
    (h : readChunk b i position = .ok c) :
    (standingAt b i position).next =
      (some (.ok c), standingAt b (i + c.size) (position + c.size)) := by
  rw [next, if_pos (hasNext_standingAt.mpr hi), readChunk_standingAt hi hposition, h]
  simp only [standingAt]
  rw [ByteArray.extract_extract, Bytes.size_drop, UInt64.ofNat_add,
    Nat.add_sub_cancel' (Nat.le_of_lt hi), Nat.min_self]

theorem next_standingAt_of_error {e : ChunkFault} (hi : i < b.size)
    (hposition : position < UInt64.size) (h : readChunk b i position = .error e) :
    (standingAt b i position).next =
      (some (.error e), { standingAt b i position with fault := some e }) := by
  rw [next, if_pos (hasNext_standingAt.mpr hi), readChunk_standingAt hi hposition, h]

/-- A reader gives what a walk finds from the same place on. -/
theorem yields_walkFrom (hfit : position + (b.size - i) < UInt64.size) :
    (standingAt b i position).Yields (walkFrom b i position).items := by
  fun_induction walkFrom b i position with
  | case1 i position hmore c hread rest ih =>
      have hinside := (readChunk_size_pos hread).2
      exact .cons (next_standingAt_of_ok hmore (by omega) hread) (ih (by omega))
  | case2 i position hmore e hread =>
      -- a reader that met a fault gives nothing more
      have hdone : ¬ ({ standingAt b i position with fault := some e } : ChunkReader).hasNext := by
        rw [hasNext_iff]
        exact fun h => Option.some_ne_none e h.1
      exact .cons (next_standingAt_of_error hmore (by omega) hread) (.nil hdone)
  | case3 i position hend => exact .nil (mt hasNext_standingAt.mp hend)

end StandingAt

end ChunkReader

/-! ## Chunks at every depth -/

/-- The chunks that a walk finds, the chunks inside them, and so on. -/
inductive Walk.Finds (w : Walk) : Chunk → Prop
  | here {c : Chunk} (h : c ∈ w.chunks) : w.Finds c
  | inside {c d : Chunk} (hc : w.Finds c) (hd : d ∈ c.children.chunks) : w.Finds d

section Finds

variable {b : ByteArray} {start : Nat} {c : Chunk}

theorem Chunk.LiesIn.payload_fit (h : c.LiesIn b start) (hle : c.headerSize ≤ c.size)
    (hfit : start + b.size < UInt64.size) :
    c.offset.toNat + c.headerSize + c.payload.size < UInt64.size := by
  have hend := h.end_le
  rw [Chunk.size_payload]
  omega

/-- The chunks inside a chunk divide its payload. -/
theorem Chunk.LiesIn.children_partitions (h : c.LiesIn b start) (hle : c.headerSize ≤ c.size)
    (hfit : start + b.size < UInt64.size) :
    c.children.Partitions c.payload (c.offset.toNat + c.headerSize) := by
  rw [Chunk.children, Chunk.payloadPosition, ← h.offset_eq]
  exact walkAt_partitions (h.payload_fit hle hfit)

theorem Chunk.LiesIn.reader_yields (h : c.LiesIn b start) (hle : c.headerSize ≤ c.size)
    (hfit : start + b.size < UInt64.size) : c.reader.Yields c.children.items := by
  have hroom := h.payload_fit hle hfit
  have hheader : c.headerSize < UInt64.size := by omega
  have hsum : c.offset.toNat + c.headerSize < UInt64.size := by omega
  have hstart : (c.offset + UInt64.ofNat c.headerSize).toNat = c.payloadPosition := by
    rw [UInt64.toNat_add, UInt64.toNat_ofNat_of_lt' hheader, Chunk.payloadPosition, ← h.offset_eq]
    exact Nat.mod_eq_of_lt hsum
  rw [Chunk.reader, ChunkReader.start_eq_standingAt, hstart]
  refine ChunkReader.yields_walkFrom ?_
  rw [Chunk.payloadPosition, ← h.offset_eq, Nat.sub_zero]
  exact hroom

/-- Every chunk at any depth lies in the outermost buffer. -/
theorem liesIn_of_finds (hfit : start + b.size < UInt64.size) (h : (walkAt b start).Finds c) :
    c.LiesIn b start ∧ c.headerSize ≤ c.size := by
  induction h with
  | @here c hc =>
      have hparts := walkAt_partitions hfit
      exact ⟨hparts.inside c hc, (hparts.framed c hc).2⟩
  | @inside c d _ hd ih =>
      have hparts := ih.1.children_partitions ih.2 hfit
      exact ⟨(hparts.inside d hd).trans ih.1 ih.2, (hparts.framed d hd).2⟩

end Finds

/-- A reader of a buffer gives what the walk over it finds, and the chunks divide the buffer.
The same holds of the payload of every chunk at any depth; and all of them stand in the buffer
where their offsets say. -/
theorem walk_partitions (b : ByteArray) (o : UInt64) (hfit : o.toNat + b.size < UInt64.size) :
    (ChunkReader.start b o).Yields (walk b o).items ∧ (walk b o).Partitions b o.toNat ∧
      ∀ c, (walk b o).Finds c →
        c.LiesIn b o.toNat ∧ c.reader.Yields c.children.items ∧
          c.children.Partitions c.payload (c.offset.toNat + c.headerSize) := by
  refine ⟨?_, walkAt_partitions hfit, fun c hc => ?_⟩
  · rw [ChunkReader.start_eq_standingAt]
    exact ChunkReader.yields_walkFrom (by omega)
  · obtain ⟨hlies, hle⟩ := liesIn_of_finds hfit hc
    exact ⟨hlies, hlies.reader_yields hle hfit, hlies.children_partitions hle hfit⟩

/-- A table with one chunk inside it, and the start of a header behind it. -/
def tornFile : ByteArray :=
  ⟨#[2, 0, 12, 0, 20, 0, 0, 0, 1, 0, 0, 0, 0, 0, 8, 0, 8, 0, 0, 0, 2, 0]⟩

/-- The table, where the file starts at offset 16. -/
def tornTable : Chunk := ⟨.table, 12, tornFile.extract 0 20, 16⟩

/-- The chunk inside the table. -/
def tornChild : Chunk := ⟨.null, 8, tornFile.extract 12 20, 28⟩

theorem walk_partitions_torn :
    (walk tornFile 16).chunks = [tornTable] ∧ (walk tornFile 16).fault = some .headerTruncated ∧
      tornTable.children.chunks = [tornChild] ∧
      (ChunkReader.start tornFile 16).Yields (walk tornFile 16).items ∧
      (walk tornFile 16).Partitions tornFile 16 ∧ tornChild.LiesIn tornFile 16 := by
  have hwalk : walk tornFile 16 = ⟨[tornTable], some .headerTruncated⟩ := by
    have htable : readChunk tornFile 0 16 = .ok tornTable := by rfl
    have hrest : readChunk tornFile 20 36 = .error .headerTruncated := by rfl
    have hsize : tornTable.size = 20 := rfl
    have htail : walkFrom tornFile (0 + 20) (16 + 20) = ⟨[], some .headerTruncated⟩ :=
      walkFrom_of_error (by decide) hrest
    show walkFrom tornFile 0 16 = _
    rw [walkFrom_of_ok (by decide) htable, hsize, htail]
  have hchildren : tornTable.children = ⟨[tornChild], none⟩ := by
    have hchild : readChunk tornTable.payload 0 28 = .ok tornChild := by rfl
    have hsize : tornChild.size = 8 := rfl
    have htail : walkFrom tornTable.payload (0 + 8) (28 + 8) = ⟨[], none⟩ :=
      walkFrom_of_le (by decide)
    show walkFrom tornTable.payload 0 28 = _
    rw [walkFrom_of_ok (by decide) hchild, hsize, htail]
  obtain ⟨hyields, hparts, hdeep⟩ := walk_partitions tornFile 16 (by decide)
  have htable : tornTable ∈ (walk tornFile 16).chunks := by
    rw [hwalk]
    exact List.mem_cons_self
  have hchild : tornChild ∈ tornTable.children.chunks := by
    rw [hchildren]
    exact List.mem_cons_self
  have hlies := (hdeep tornChild (.inside (.here htable) hchild)).1
  exact ⟨by rw [hwalk], by rw [hwalk], by rw [hchildren], hyields, hparts, hlies⟩

end AppResources
