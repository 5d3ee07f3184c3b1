import AppResources.Proofs.RecordReads
import AppResources.Proofs.WrittenRecords

/-!
# Written variants are read back

A variant is written with a table of offsets in front of its entries. Whatever the layout of the
table, its header is read back, and every entry that a slot of the table lists is read into its
own place. In the layout with a 32-bit offset for every entry the table lists all indices in
order, so that all entries are read.

## Main definitions

* `Variant.parts`: the chunk of a variant before it is written.
* `Variant.reread`: the variant that is read back.

## Main results

* `Variant.exists_readEntries`: the entries that slots list are read.
* `Variant.read_parts`: a variant with an offset for every entry is read back from its chunk.
-/

namespace AppResources.Variant

variable {b : ByteArray} {offsets : List (Option Nat)} {entries : List (Option Entry)}
  {index x start : Nat} {e : Entry}

/-! ## The table of offsets -/

/-- The slots with consecutive indices from a first one on. -/
def slotsFrom (index : Nat) : List (Option Nat) → List Slot
  | [] => []
  | offset :: rest => (index, offset) :: slotsFrom (index + 1) rest

theorem length_slotsFrom (index : Nat) (offsets : List (Option Nat)) :
    (slotsFrom index offsets).length = offsets.length := by
  induction offsets generalizing index with
  | nil => rfl
  | cons offset rest ih => exact congrArg (· + 1) (ih (index + 1))

theorem getElem?_slotsFrom (index k : Nat) (offsets : List (Option Nat)) :
    (slotsFrom index offsets)[k]? = offsets[k]?.map (index + k, ·) := by
  induction offsets generalizing index k with
  | nil => rfl
  | cons offset rest ih =>
      cases k with
      | zero => rfl
      | succ k =>
          rw [slotsFrom, List.getElem?_cons_succ, List.getElem?_cons_succ, ih, Nat.add_assoc,
            Nat.add_comm 1]

theorem mem_slotsFrom_iff {offset : Option Nat} :
    (index, offset) ∈ slotsFrom 0 offsets ↔ offsets[index]? = some offset := by
  simp only [List.mem_iff_getElem?, getElem?_slotsFrom, Nat.zero_add, Option.map_eq_some_iff,
    Prod.mk.injEq]
  constructor
  · rintro ⟨k, _, hk, rfl, rfl⟩
    exact hk
  · intro h
    exact ⟨index, offset, h, rfl, rfl⟩

/-- A table with a slot for every index describes as many entries. -/
theorem entryCount_slotsFrom (offsets : List (Option Nat)) :
    entryCount (slotsFrom 0 offsets) = offsets.length := by
  have hfold : ∀ (offsets : List (Option Nat)) (index n : Nat), n = index →
      (slotsFrom index offsets).foldl (fun n slot => max n (slot.1 + 1)) n =
        index + offsets.length := by
    intro offsets
    induction offsets with
    | nil =>
        intro index n hn
        exact hn
    | cons offset rest ih =>
        intro index n hn
        rw [slotsFrom, List.foldl_cons, ih (index + 1) _ (by simp only; omega)]
        simp only [List.length_cons]
        omega
  have hall := hfold offsets 0 0 rfl
  rwa [Nat.zero_add] at hall

theorem length_longOffset (offset : Option Nat) : (longOffset offset).length = 4 := by
  cases offset <;> rfl

/-- A table of 32-bit offsets is read back, where no offset is the one of absent entries. -/
theorem slotsAt_long {flags : UInt8} (hsparse : isSparse flags = false)
    (hlong : hasShortOffsets flags = false) (h : Bytes.Holds b 0 (offsets.flatMap longOffset))
    (hsize : b.size = 4 * offsets.length)
    (hoffsets : ∀ x, some x ∈ offsets → x < 4294967296 - 1) :
    slotsAt b flags = .ok (slotsFrom 0 offsets) := by
  have hcount : b.size / 4 = (slotsFrom 0 offsets).length := by
    rw [length_slotsFrom]
    omega
  simp only [slotsAt, hsparse, hlong, Bool.false_eq_true, if_false, hcount]
  apply mapM_range_eq
  intro k slot hslot
  rw [getElem?_slotsFrom, Nat.zero_add] at hslot
  obtain ⟨offset, hoffset, rfl⟩ := Option.map_eq_some_iff.mp hslot
  have hword := h.item length_longOffset hoffset
  rw [Nat.zero_add] at hword
  cases offset with
  | none =>
      rw [Bytes.Holds.word32At (v := absent32) hword]
      rfl
  | some x =>
      have hx := hoffsets x (List.mem_of_getElem? hoffset)
      have hnat : (UInt32.ofNat x).toNat = x :=
        UInt32.toNat_ofNat_of_lt' (show x < 4294967296 by omega)
      have hpresent : UInt32.ofNat x ≠ absent32 := by
        intro habsent
        have habsentNat : absent32.toNat = 4294967296 - 1 := rfl
        rw [← habsent, hnat] at habsentNat
        omega
      rw [Bytes.Holds.word32At (v := UInt32.ofNat x) hword]
      show Except.ok (k, if UInt32.ofNat x = absent32 then none else some _) = _
      rw [if_neg hpresent, hnat]

/-! ## The entries -/

theorem length_offsetsFrom (start : Nat) (entries : List (Option Entry)) :
    (offsetsFrom start entries).length = entries.length := by
  induction entries generalizing start with
  | nil => rfl
  | cons entry rest ih =>
      cases entry with
      | none => exact congrArg (· + 1) (ih start)
      | some e => exact congrArg (· + 1) (ih _)

theorem length_entryBytes_mod (entries : List (Option Entry)) :
    (entryBytes entries).length % 4 = 0 := by
  induction entries with
  | nil => rfl
  | cons entry rest ih =>
      cases entry with
      | none => exact ih
      | some e =>
          have hlength := e.length_encode
          have hbytes : (entryBytes (some e :: rest)).length =
            e.encode.length + (entryBytes rest).length := List.length_append
          omega

theorem entryBytes_append (xs ys : List (Option Entry)) :
    entryBytes (xs ++ ys) = entryBytes xs ++ entryBytes ys :=
  List.flatMap_append

/-- An entry that is present starts behind those in front of it. -/
theorem getElem?_offsetsFrom (start index : Nat) (entries : List (Option Entry)) :
    (offsetsFrom start entries)[index]? = entries[index]?.map
      (·.map fun _ => start + (entryBytes (entries.take index)).length) := by
  induction entries generalizing start index with
  | nil => rfl
  | cons entry rest ih =>
      cases index with
      | zero => cases entry <;> rfl
      | succ index =>
          cases entry with
          | none =>
              rw [offsetsFrom, List.getElem?_cons_succ, List.getElem?_cons_succ, ih]
              rfl
          | some e =>
              have hbytes : (entryBytes ((some e :: rest).take (index + 1))).length =
                e.encode.length + (entryBytes (rest.take index)).length := List.length_append
              rw [offsetsFrom, List.getElem?_cons_succ, List.getElem?_cons_succ, ih, hbytes,
                Nat.add_assoc]

theorem getElem?_offsetsFrom_eq_some_iff :
    (offsetsFrom 0 entries)[index]? = some (some x) ↔
      (∃ e, entries[index]? = some (some e)) ∧ x = (entryBytes (entries.take index)).length := by
  rw [getElem?_offsetsFrom, Nat.zero_add]
  cases entries[index]? with
  | none => simp
  | some entry => cases entry <;> simp [eq_comm]

theorem entryBytes_split (h : entries[index]? = some (some e)) :
    entryBytes entries = entryBytes (entries.take index) ++
      (e.encode ++ entryBytes (entries.drop (index + 1))) := by
  obtain ⟨hlt, he⟩ := List.getElem?_eq_some_iff.mp h
  have hdrop : entryBytes (entries.drop index) =
      e.encode ++ entryBytes (entries.drop (index + 1)) := by
    rw [List.drop_eq_getElem_cons hlt, he]
    rfl
  rw [← hdrop, ← entryBytes_append, List.take_append_drop]

/-- Every entry starts in front of the end of all entries. -/
theorem le_of_mem_offsetsFrom (h : some x ∈ offsetsFrom 0 entries) :
    x + 16 ≤ (entryBytes entries).length := by
  obtain ⟨index, hindex⟩ := List.mem_iff_getElem?.mp h
  obtain ⟨⟨e, he⟩, rfl⟩ := getElem?_offsetsFrom_eq_some_iff.mp hindex
  have hlength := e.length_encode
  rw [entryBytes_split he, List.length_append, List.length_append]
  omega

/-- An entry is read at its offset from the first one. -/
theorem read_at_offset (h : Bytes.Holds b start (entryBytes entries)) (haligned : start % 4 = 0)
    (hsize : b.size < 4294967296) (hstorable : ∀ e, some e ∈ entries → e.Storable)
    (hx : (offsetsFrom 0 entries)[index]? = some (some x)) :
    ∃ e, entries[index]? = some (some e) ∧ Entry.read b (x + start) = .ok e.reread := by
  obtain ⟨⟨e, he⟩, rfl⟩ := getElem?_offsetsFrom_eq_some_iff.mp hx
  refine ⟨e, he, ?_⟩
  have hmod := length_entryBytes_mod (entries.take index)
  rw [entryBytes_split he, Bytes.holds_append_iff, Bytes.holds_append_iff,
    Nat.add_comm start] at h
  exact Entry.read_of_holds h.2.1 (by omega) hsize (hstorable e (List.mem_of_getElem? he))

/-- Reading the entries of slots fills their places, and leaves the others alone. -/
theorem readEntries_of_slots {slots : List Slot} {want : Nat → Option Entry}
    {before : Array (Option Entry)} (hbound : ∀ slot ∈ slots, slot.1 < before.size)
    (hread : ∀ index x, (index, some x) ∈ slots →
      ∃ e, Entry.read b (x + start) = .ok e ∧ want index = some e) :
    ∃ found, readEntries b start slots before = .ok found ∧ ∀ index : Nat,
      ((∃ x, (index, some x) ∈ slots) → found[index]? = some (want index)) ∧
      ((∀ x, (index, some x) ∉ slots) → found[index]? = before[index]?) := by
  induction slots generalizing before with
  | nil =>
      refine ⟨before, rfl, fun index => ⟨?_, fun _ => rfl⟩⟩
      rintro ⟨x, hx⟩
      cases hx
  | cons slot slots ih =>
      obtain ⟨hslot, hslots⟩ := List.forall_mem_cons.mp hbound
      have hrest : ∀ index x, (index, some x) ∈ slots →
          ∃ e, Entry.read b (x + start) = .ok e ∧ want index = some e :=
        fun index x hx => hread index x (List.mem_cons_of_mem slot hx)
      match slot with
      | (i, none) =>
          obtain ⟨found, hfound, hplaces⟩ := ih hslots hrest
          refine ⟨found, hfound, fun index => ⟨?_, fun hnone => ?_⟩⟩
          · rintro ⟨x, hx⟩
            rcases List.mem_cons.mp hx with heq | hx
            · cases heq
            · exact (hplaces index).1 ⟨x, hx⟩
          · exact (hplaces index).2 fun x hx => hnone x (List.mem_cons_of_mem _ hx)
      | (i, some y) =>
          obtain ⟨e, he, hwant⟩ := hread i y List.mem_cons_self
          obtain ⟨found, hfound, hplaces⟩ := @ih (before.set i (some e) hslot)
            (by simpa only [Array.size_set] using hslots) hrest
          refine ⟨found, ?_, fun index => ⟨?_, fun hnone => ?_⟩⟩
          · rw [readEntries, he]
            show (if h : i < before.size then _ else _) = _
            rw [dif_pos hslot, hfound]
          · rintro ⟨x, hx⟩
            -- a later slot with the same index holds the same entry
            by_cases hlater : ∃ z, (index, some z) ∈ slots
            · exact (hplaces index).1 hlater
            · rcases List.mem_cons.mp hx with heq | hx
              · cases heq
                rw [(hplaces i).2 fun z hz => hlater ⟨z, hz⟩, Array.getElem?_set_self, hwant]
              · exact absurd ⟨x, hx⟩ hlater
          · have hne : i ≠ index := by
              rintro rfl
              exact hnone y List.mem_cons_self
            rw [(hplaces index).2 fun x hx => hnone x (List.mem_cons_of_mem _ hx),
              Array.getElem?_set_ne hslot hne]

/-! ## The chunk -/

variable {v : Variant}

/-- The table of offsets of a variant, up to the first entry. -/
def table (v : Variant) : List UInt8 :=
  Bytes.padded (offsetTable v.flags (offsetsFrom 0 v.entries.toList))

/-- The number of bytes of the table that are read. -/
def readSize (v : Variant) : Nat :=
  (if hasShortOffsets v.flags then 2 else 4) * listedCount v.flags v.entries.toList

/-- The chunk of a variant before it is written. -/
def parts (v : Variant) : ChunkParts where
  kind := .tableType
  header :=
    [v.typeId, v.flags] ++ Bytes.bytes16 0 ++
      Bytes.bytes32 (UInt32.ofNat (listedCount v.flags v.entries.toList)) ++
      Bytes.bytes32 (UInt32.ofNat (headerSize + v.table.length)) ++ v.config.record
  body := v.table ++ entryBytes v.entries.toList

theorem bytes_parts (v : Variant) : v.parts.bytes = v.encode := rfl

theorem length_header_parts (v : Variant) : v.parts.header.length = 76 := by
  have hrecord := v.config.length_record
  simp only [parts, List.length_append, List.length_cons, List.length_nil, Bytes.length_bytes16,
    Bytes.length_bytes32, hrecord]

theorem size_parts (v : Variant) :
    v.parts.size = 84 + v.table.length + (entryBytes v.entries.toList).length := by
  rw [ChunkParts.size, length_header_parts, parts, List.length_append, chunkHeaderSize,
    ← Nat.add_assoc]

theorem length_table_mod (v : Variant) : v.table.length % 4 = 0 :=
  Bytes.length_padded_mod _

theorem fits_parts (hsmall : v.parts.size < 4294967296) : v.parts.Fits where
  known := rfl
  headerAligned := by rw [length_header_parts]
  bodyAligned := by
    have htable := length_table_mod v
    have hentries := length_entryBytes_mod v.entries.toList
    rw [parts, List.length_append]
    omega
  headerSmall := by rw [length_header_parts]; decide
  small := hsmall

/-- Where the table of offsets and the entries stand behind the header. -/
theorem holds_bytes_parts (v : Variant) :
    Bytes.Holds v.parts.bytes.toByteArray 84 v.table ∧
      Bytes.Holds v.parts.bytes.toByteArray (84 + v.table.length)
        (entryBytes v.entries.toList) := by
  obtain ⟨_, _, _, _, hbody⟩ :=
    ChunkParts.holds_bytes_iff.mp (Bytes.holds_toByteArray v.parts.bytes)
  have hparts : v.parts.body = v.table ++ entryBytes v.entries.toList := rfl
  have hstart : chunkHeaderSize + 76 = 84 := rfl
  rw [hparts, Nat.zero_add, length_header_parts, hstart, Bytes.holds_append_iff] at hbody
  exact hbody

theorem listedCount_le (flags : UInt8) (entries : List (Option Entry)) :
    listedCount flags entries ≤ entries.length := by
  unfold listedCount
  split
  · exact List.countP_le_length
  · exact Nat.le_refl _

/-- The header of a variant is read back, so that only its body is left to be read. -/
theorem read_placed (hsmall : v.parts.size < 4294967296) (hfew : v.entries.size ≤ maxEntries)
    (position : Nat) :
    read (v.parts.placed position) =
      (readBody (v.parts.placed position) v.typeId v.flags
        (listedCount v.flags v.entries.toList) (84 + v.table.length) v.config).mapError
          (.invalid v.typeId) := by
  have hsize := size_parts v
  have hcount := listedCount_le v.flags v.entries.toList
  rw [Array.length_toList] at hcount
  rw [maxEntries] at hfew
  -- the fields of the header
  have hfields := Bytes.holds_toByteArray v.parts.header
  have hframe := ChunkParts.frame_placed v.parts position
  have hheader : v.parts.header.toByteArray.size < 4294967296 := by
    rw [List.size_toByteArray, length_header_parts]
    decide
  generalize v.parts.header.toByteArray = header at hfields hframe hheader
  simp only [parts, Bytes.holds_append_iff, Bytes.holds_cons_iff, List.length_append,
    List.length_cons, List.length_nil, Bytes.length_bytes16, Bytes.length_bytes32,
    Nat.reduceAdd, and_assoc] at hfields
  obtain ⟨htypeId, hflags, _, _, hlisted, hstart, hconfig⟩ := hfields
  have hheaderSize : headerSize = 84 := rfl
  have hlistedNat : (UInt32.ofNat (listedCount v.flags v.entries.toList)).toNat =
      listedCount v.flags v.entries.toList :=
    UInt32.toNat_ofNat_of_lt'
      (show listedCount v.flags v.entries.toList < 4294967296 by omega)
  have hstartNat : (UInt32.ofNat (headerSize + v.table.length)).toNat = 84 + v.table.length :=
    UInt32.toNat_ofNat_of_lt' (show headerSize + v.table.length < 4294967296 by omega)
  have hleast : ¬ (v.parts.placed position).headerSize < minHeaderSize := by
    rw [ChunkParts.headerSize_placed, length_header_parts]
    decide
  simp only [read, if_neg hleast, hframe, htypeId, hflags, hlisted.word32?, hstart.word32?,
    Config.read?_of_holds hconfig hheader, hlistedNat, hstartNat]

/-- The body of a variant is read back if its table and its entries are. -/
theorem readBody_placed (hnumbered : v.typeId ≠ 0) (hfew : v.entries.size ≤ maxEntries)
    (hroom : v.readSize ≤ v.table.length) {slots : List Slot}
    (hslots : slotsAt (v.table.take v.readSize).toByteArray v.flags = .ok slots)
    {found : Array (Option Entry)}
    (hfound : readEntries v.parts.bytes.toByteArray (84 + v.table.length) slots
      (Array.replicate (entryCount slots) none) = .ok found) (position : Nat) :
    readBody (v.parts.placed position) v.typeId v.flags
        (listedCount v.flags v.entries.toList) (84 + v.table.length) v.config =
      .ok ⟨v.typeId, v.flags, v.config, found⟩ := by
  have hsize := size_parts v
  have haligned := length_table_mod v
  have hcount := listedCount_le v.flags v.entries.toList
  rw [Array.length_toList] at hcount
  have hchunkSize : (v.parts.placed position).size = v.parts.size := ChunkParts.size_placed
  have hheaderSize : (v.parts.placed position).headerSize = 84 := by
    rw [ChunkParts.headerSize_placed, length_header_parts]
    rfl
  have hbytesSize : v.parts.bytes.toByteArray.size = v.parts.size := by
    rw [List.size_toByteArray, ChunkParts.length_bytes]
  have hminus : Bytes.minus (84 + v.table.length) 84 = .ok v.table.length := by
    rw [Bytes.minus, if_pos (by omega), Nat.add_sub_cancel_left]
  have htake := (holds_bytes_parts v).1.take v.readSize
  have hslice := htake.slice (by rw [hbytesSize, hsize]; omega)
  rw [List.length_take, Nat.min_eq_left hroom] at hslice
  rw [readSize] at hroom hslice hslots
  simp only [readBody, if_neg hnumbered, hheaderSize, hminus, hchunkSize,
    ChunkParts.bytes_placed, hslice, hslots, hfound,
    if_neg (show ¬ maxEntries < listedCount v.flags v.entries.toList by omega),
    if_neg (show ¬ 84 + v.table.length < 84 by omega), if_neg (Nat.not_lt_of_le hroom),
    if_neg (show ¬ v.parts.size < 84 + v.table.length by omega),
    if_neg (show ¬ (84 + v.table.length) % 4 ≠ 0 by omega)]

/-- The entries are read that slots of present entries list, each into its place. -/
theorem exists_readEntries {slots : List Slot} (hsmall : v.parts.size < 4294967296)
    (hstorable : ∀ e, some e ∈ v.entries.toList → e.Storable)
    (hslots : ∀ index x, (index, some x) ∈ slots →
      (offsetsFrom 0 v.entries.toList)[index]? = some (some x)) :
    ∃ found, readEntries v.parts.bytes.toByteArray (84 + v.table.length) slots
        (Array.replicate (entryCount slots) none) = .ok found ∧ ∀ index : Nat,
      ((∃ x, (index, some x) ∈ slots) →
        found[index]? = some (v.entries[index]?.join.map Entry.reread)) ∧
      ((∀ x, (index, some x) ∉ slots) →
        found[index]? = if index < entryCount slots then some none else none) := by
  have haligned := length_table_mod v
  have hbytesSize : v.parts.bytes.toByteArray.size = v.parts.size := by
    rw [List.size_toByteArray, ChunkParts.length_bytes]
  have hentry : ∀ index x, (index, some x) ∈ slots →
      ∃ e, Entry.read v.parts.bytes.toByteArray (x + (84 + v.table.length)) = .ok e ∧
        v.entries[index]?.join.map Entry.reread = some e := by
    intro index x hx
    obtain ⟨e, he, hread⟩ := read_at_offset (holds_bytes_parts v).2 (by omega)
      (by rw [hbytesSize]; exact hsmall) hstorable (hslots index x hx)
    rw [Array.getElem?_toList] at he
    exact ⟨e.reread, hread, by rw [he]; rfl⟩
  have hbound : ∀ slot ∈ slots, slot.1 < (Array.replicate (entryCount slots)
      (none : Option Entry)).size := by
    rw [Array.size_replicate]
    exact lt_entryCount
  obtain ⟨found, hfound, hplaces⟩ := readEntries_of_slots hbound hentry
  refine ⟨found, hfound, fun index => ⟨(hplaces index).1, fun hnone => ?_⟩⟩
  rw [(hplaces index).2 hnone, Array.getElem?_replicate]

/-! ## Variants with an offset for every entry -/

/-- The variant that is read back. -/
def reread (v : Variant) : Variant :=
  { v with entries := v.entries.map (·.map Entry.reread) }

/-- A variant whose numbers can be written, in the layout of 32-bit offsets. -/
structure Writable (v : Variant) : Prop where
  numbered : v.typeId ≠ 0
  dense : v.flags = 0
  few : v.entries.size ≤ maxEntries
  storable : ∀ e, some e ∈ v.entries.toList → e.Storable
  small : v.parts.size < 4294967296

theorem Writable.fits (h : v.Writable) : v.parts.Fits :=
  fits_parts h.small

theorem length_longOffsets (v : Variant) :
    ((offsetsFrom 0 v.entries.toList).flatMap longOffset).length = 4 * v.entries.size := by
  rw [Bytes.length_items length_longOffset, length_offsetsFrom, Array.length_toList]

/-- The table of offsets in a variant with an offset for every entry. -/
theorem table_dense (hdense : v.flags = 0) :
    v.table = (offsetsFrom 0 v.entries.toList).flatMap longOffset := by
  have hlength := length_longOffsets v
  have htable : offsetTable 0 (offsetsFrom 0 v.entries.toList) =
    (offsetsFrom 0 v.entries.toList).flatMap longOffset := rfl
  have hpadding : (4 - 4 * v.entries.size % 4) % 4 = 0 := by omega
  rw [table, hdense, htable, Bytes.padded, hlength, hpadding]
  exact List.append_nil _

/-- The slots that are read from the table of offsets. -/
theorem slotsAt_table (h : v.Writable) :
    slotsAt ((offsetsFrom 0 v.entries.toList).flatMap longOffset).toByteArray 0 =
      .ok (slotsFrom 0 (offsetsFrom 0 v.entries.toList)) := by
  have hsmall := h.small
  rw [size_parts] at hsmall
  apply slotsAt_long rfl rfl (Bytes.holds_toByteArray _)
  · rw [List.size_toByteArray, length_longOffsets, length_offsetsFrom, Array.length_toList]
  · intro x hx
    have := le_of_mem_offsetsFrom hx
    omega

/-- A variant is read back from its chunk. -/
theorem read_parts (h : v.Writable) (position : Nat) :
    read (v.parts.placed position) = .ok v.reread := by
  have hlength : v.entries.toList.length = v.entries.size := Array.length_toList
  have htable : v.table.length = 4 * v.entries.size := by
    rw [table_dense h.dense, length_longOffsets]
  have hreadSize : v.readSize = v.table.length := by
    rw [readSize, h.dense, htable, ← hlength]
    rfl
  have hslots : slotsAt (v.table.take v.readSize).toByteArray v.flags =
      .ok (slotsFrom 0 (offsetsFrom 0 v.entries.toList)) := by
    rw [hreadSize, List.take_length, table_dense h.dense, h.dense]
    exact slotsAt_table h
  have hcount : entryCount (slotsFrom 0 (offsetsFrom 0 v.entries.toList)) = v.entries.size := by
    rw [entryCount_slotsFrom, length_offsetsFrom, hlength]
  obtain ⟨found, hfound, hplaces⟩ := exists_readEntries h.small h.storable
    fun index x hx => mem_slotsFrom_iff.mp hx
  have hentries : found = v.entries.map (·.map Entry.reread) := by
    apply Array.ext_getElem?
    intro index
    have hplace := hplaces index
    simp only [mem_slotsFrom_iff, getElem?_offsetsFrom_eq_some_iff, Array.getElem?_toList,
      hcount] at hplace
    have habsent : ¬ (∃ e, v.entries[index]? = some (some e)) →
        found[index]? = if index < v.entries.size then some none else none :=
      fun hnone => hplace.2 fun x hx => hnone hx.1
    rw [Array.getElem?_map]
    match hentry : v.entries[index]? with
    | some (some e) =>
        rw [hplace.1 ⟨_, ⟨e, hentry⟩, rfl⟩, hentry]
        rfl
    | some none =>
        have hlt := (Array.getElem?_eq_some_iff.mp hentry).1
        rw [habsent (by rw [hentry]; nofun), if_pos hlt]
        rfl
    | none =>
        have hle := Array.getElem?_eq_none_iff.mp hentry
        rw [habsent (by rw [hentry]; nofun), if_neg (Nat.not_lt_of_le hle)]
        rfl
  rw [read_placed h.small h.few,
    readBody_placed h.numbered h.few (Nat.le_of_eq hreadSize) hslots hfound, hentries]
  rfl

end AppResources.Variant
