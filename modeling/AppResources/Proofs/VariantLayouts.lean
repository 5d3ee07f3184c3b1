import AppResources.Proofs.LoadSafety
import AppResources.Proofs.WrittenVariants
import Mathlib.Data.List.Perm.Subperm

/-!
# Variants in all layouts

The flags of a variant choose between an offset for every entry, in 32 or 16 bits, and pairs of
an index and an offset for the entries that are present. In each layout the table of offsets is
read into slots, and every entry is read at the offset of its slot, so that a variant whose kinds
are those with their tags is read back from its chunk whatever its layout: with one exception.
Where both flags are set the entries are written as pairs, of four bytes each, but only two bytes
for each of them are read, so that half of the entries are lost.

## Main definitions

* `Variant.Addressable`: a variant whose entries can be written and addressed in every layout.
* `Variant.ReadsBack`: its chunk is read, and has the entries that were put in.
* `Variant.slotsRead`: the slots that are read from its table of offsets.

## Main results

* `Variant.slotsAt_take_table`: the table of offsets is read into these slots.
* `Variant.exists_read_placed`: the entries that have a slot come back, and no others.
* `Variant.readsBack_iff`: when a variant is read back.
-/

namespace AppResources

theorem Bytes.Holds.of_isPrefix {b : ByteArray} {i : Nat} {xs ys : List UInt8}
    (h : Holds xs.toByteArray i ys) (hb : b.data.toList <+: xs) (hroom : i + ys.length ≤ b.size) :
    Holds b i ys := by
  obtain ⟨rest, rfl⟩ := hb
  have hlength : b.data.toList.length = b.size := Array.length_toList
  rw [Holds, List.data_toByteArray, List.drop_append_of_le_length (by omega)] at h
  refine List.prefix_of_prefix_length_le h (List.prefix_append _ rest) ?_
  rw [List.length_drop]
  omega

theorem Entry.length_encode_le {b : ByteArray} {e : Entry} (h : e.stored.ItemsWithin b) :
    e.encode.length ≤ 16 + b.size := by
  cases e with
  | plain key flags value => exact Nat.le_add_right 16 b.size
  | bag key flags parent items =>
      have hitems : itemSize * items.length ≤ b.size := h
      simp only [encode, List.length_append, Bytes.length_bytes16, Bytes.length_bytes32,
        length_encodeItems]
      omega

namespace Variant

variable {b : ByteArray} {flags : UInt8} {offsets : List (Option Nat)}
  {entries : List (Option Entry)} {v : Variant} {index x start : Nat} {e : Entry}

/-! ## Slots in order -/

theorem le_of_mem_slotsFrom {slot : Slot} (h : slot ∈ slotsFrom start offsets) :
    start ≤ slot.1 := by
  obtain ⟨k, hk⟩ := List.mem_iff_getElem?.mp h
  rw [getElem?_slotsFrom] at hk
  obtain ⟨_, _, rfl⟩ := Option.map_eq_some_iff.mp hk
  exact Nat.le_add_right start k

theorem pairwise_slotsFrom (start : Nat) (offsets : List (Option Nat)) :
    (slotsFrom start offsets).Pairwise fun s t => s.1 < t.1 := by
  induction offsets generalizing start with
  | nil => exact List.Pairwise.nil
  | cons offset rest ih =>
      refine List.pairwise_cons.mpr ⟨fun slot hslot => ?_, ih (start + 1)⟩
      exact le_of_mem_slotsFrom hslot

/-- The slots of the entries that are present, from an index on. -/
def presentFrom (start : Nat) (offsets : List (Option Nat)) : List Slot :=
  (slotsFrom start offsets).filter (·.2.isSome)

theorem mem_presentFrom_iff {offset : Option Nat} :
    (index, offset) ∈ presentFrom 0 offsets ↔
      offsets[index]? = some offset ∧ offset.isSome = true := by
  rw [presentFrom, List.mem_filter, mem_slotsFrom_iff]

/-- The bytes of an index and an offset. -/
def pairBytes (slot : Slot) : List UInt8 :=
  Bytes.bytes16 (UInt16.ofNat slot.1) ++ Bytes.bytes16 (UInt16.ofNat (slot.2.getD 0 / 4))

theorem length_pairBytes (slot : Slot) : (pairBytes slot).length = 4 := rfl

theorem sparsePairs_eq (start : Nat) (offsets : List (Option Nat)) :
    sparsePairs start offsets = (presentFrom start offsets).flatMap pairBytes := by
  induction offsets generalizing start with
  | nil => rfl
  | cons offset rest ih =>
      cases offset with
      | none => exact ih (start + 1)
      | some x => exact congrArg (_ ++ ·) (ih (start + 1))

theorem length_presentFrom (start offset : Nat) (entries : List (Option Entry)) :
    (presentFrom start (offsetsFrom offset entries)).length = entries.countP Option.isSome := by
  induction entries generalizing start offset with
  | nil => rfl
  | cons entry rest ih =>
      cases entry with
      | none => exact ih (start + 1) offset
      | some e =>
          rw [List.countP_cons_of_pos (by rfl), ← ih (start + 1) (offset + e.encode.length)]
          rfl

theorem length_shortOffset (offset : Option Nat) : (shortOffset offset).length = 2 := by
  cases offset <;> rfl

/-! ## Tables of offsets -/

/-- A table of pairs, or the front of one, is read into as many slots as it has room for. -/
theorem slotsAt_pairs {slots : List Slot} (hsparse : isSparse flags = true)
    (htable : b.data.toList <+: slots.flatMap pairBytes)
    (hslots : ∀ slot ∈ slots, slot.1 < 65536 ∧
      ∃ x, slot.2 = some x ∧ x % 4 = 0 ∧ x / 4 < 65536) :
    slotsAt b flags = .ok (slots.take (b.size / 4)) := by
  have hroom := htable.length_le
  rw [Bytes.length_items length_pairBytes, Array.length_toList, ByteArray.size_data] at hroom
  have hcount : (slots.take (b.size / 4)).length = b.size / 4 := by
    rw [List.length_take]
    omega
  have hread : ∀ k slot, (slots.take (b.size / 4))[k]? = some slot →
      (do
        let index ← Bytes.word16At b (4 * k)
        let offset ← Bytes.word16At b (4 * k + 2)
        return (index.toNat, some (4 * offset.toNat)) : Except ReadFault Slot) = .ok slot := by
    intro k slot hk
    have hlt := (List.getElem?_eq_some_iff.mp hk).1
    rw [List.getElem?_take_of_lt (by omega)] at hk
    have hitem := (Bytes.holds_toByteArray (slots.flatMap pairBytes)).item length_pairBytes hk
    rw [Nat.zero_add] at hitem
    have hpair := hitem.of_isPrefix htable (by rw [length_pairBytes]; omega)
    obtain ⟨hindex, hoffset⟩ := Bytes.holds_append_iff.mp hpair
    obtain ⟨hsmall, x, hx, haligned, hnear⟩ := hslots slot (List.mem_of_getElem? hk)
    have hindexNat : (UInt16.ofNat slot.1).toNat = slot.1 := by
      rw [UInt16.toNat_ofNat']
      omega
    have hoffsetNat : 4 * (UInt16.ofNat (slot.2.getD 0 / 4)).toNat = x := by
      rw [hx, Option.getD_some, UInt16.toNat_ofNat']
      omega
    rw [hindex.word16At, show 4 * k + 2 = 4 * k + (Bytes.bytes16 (UInt16.ofNat slot.1)).length
      from rfl, hoffset.word16At]
    show Except.ok ((UInt16.ofNat slot.1).toNat,
      some (4 * (UInt16.ofNat (slot.2.getD 0 / 4)).toNat)) = _
    rw [hindexNat, hoffsetNat, ← hx]
  have hmap := mapM_range_eq hread
  rw [hcount] at hmap
  rw [slotsAt, if_pos hsparse]
  exact hmap

/-- A table of 16-bit offsets is read back, where no offset is the one of absent entries. -/
theorem slotsAt_short (hsparse : isSparse flags = false) (hshort : hasShortOffsets flags = true)
    (h : Bytes.Holds b 0 (offsets.flatMap shortOffset)) (hsize : b.size = 2 * offsets.length)
    (hoffsets : ∀ x, some x ∈ offsets → x % 4 = 0 ∧ x / 4 < 65535) :
    slotsAt b flags = .ok (slotsFrom 0 offsets) := by
  have hcount : b.size / 2 = (slotsFrom 0 offsets).length := by
    rw [length_slotsFrom]
    omega
  simp only [slotsAt, hsparse, hshort, Bool.false_eq_true, if_false, if_true, hcount]
  apply mapM_range_eq
  intro k slot hslot
  rw [getElem?_slotsFrom, Nat.zero_add] at hslot
  obtain ⟨offset, hoffset, rfl⟩ := Option.map_eq_some_iff.mp hslot
  have hword := h.item length_shortOffset hoffset
  rw [Nat.zero_add] at hword
  cases offset with
  | none =>
      rw [Bytes.Holds.word16At (v := absent16) hword]
      rfl
  | some x =>
      obtain ⟨haligned, hnear⟩ := hoffsets x (List.mem_of_getElem? hoffset)
      have hnat : (UInt16.ofNat (x / 4)).toNat = x / 4 := by
        rw [UInt16.toNat_ofNat']
        omega
      have hpresent : UInt16.ofNat (x / 4) ≠ absent16 := by
        intro habsent
        have habsentNat : absent16.toNat = 65535 := rfl
        rw [← habsent, hnat] at habsentNat
        omega
      have hvalue : 4 * (x / 4) = x := by omega
      rw [Bytes.Holds.word16At (v := UInt16.ofNat (x / 4)) hword]
      show Except.ok (k, if UInt16.ofNat (x / 4) = absent16 then none else some _) = _
      rw [if_neg hpresent, hnat, hvalue]

/-! ## The last entry -/

/-- The last entry that is present ends where all entries end. -/
theorem exists_last (h : entryBytes entries ≠ []) :
    ∃ (index : Nat) (e : Entry), entries[index]? = some (some e) ∧
      entryBytes entries = entryBytes (entries.take index) ++ e.encode := by
  induction entries using List.reverseRecOn with
  | nil => exact absurd rfl h
  | append_singleton entries last ih =>
      rw [entryBytes_append] at h ⊢
      cases last with
      | none =>
          have hnone : entryBytes [none] = [] := rfl
          rw [hnone, List.append_nil] at h ⊢
          obtain ⟨index, e, he, hbytes⟩ := ih h
          have hlt := (List.getElem?_eq_some_iff.mp he).1
          refine ⟨index, e, ?_, ?_⟩
          · rw [List.getElem?_append_left hlt, he]
          · rw [List.take_append_of_le_length (Nat.le_of_lt hlt), hbytes]
      | some e =>
          have hlast : entryBytes [some e] = e.encode := List.append_nil _
          refine ⟨entries.length, e, ?_, ?_⟩
          · rw [List.getElem?_append_right (Nat.le_refl _), Nat.sub_self]
            rfl
          · rw [List.take_left, hlast]

/-! ## The slots that are read -/

/-- A variant whose entries can be written, and addressed in every layout. -/
structure Addressable (v : Variant) : Prop where
  few : v.entries.size ≤ maxEntries
  storable : ∀ e, some e ∈ v.entries.toList → e.Storable
  near : ∀ x, some x ∈ offsetsFrom 0 v.entries.toList → x / 4 < 65535

/-- An entry that is present is found at its index. -/
theorem Addressable.entry?_ofNat (h : v.Addressable)
    (he : v.entries.toList[index]? = some (some e)) :
    (UInt16.ofNat index).toNat = index ∧ v.entry? (UInt16.ofNat index) = some e := by
  have hfew := h.few
  rw [Array.getElem?_toList] at he
  have hlt := (Array.getElem?_eq_some_iff.mp he).1
  rw [maxEntries] at hfew
  have hnat : (UInt16.ofNat index).toNat = index := by
    rw [UInt16.toNat_ofNat']
    omega
  exact ⟨hnat, by rw [entry?_eq_some_iff, hnat, he]⟩

/-- The slots that are read from the table of offsets. In a table of pairs there are as many as
the bytes that are read have room for. -/
def slotsRead (v : Variant) : List Slot :=
  let offsets := offsetsFrom 0 v.entries.toList
  if isSparse v.flags then (presentFrom 0 offsets).take (v.readSize / 4)
  else slotsFrom 0 offsets

theorem Addressable.of_mem_offsets (h : v.Addressable)
    (hx : (offsetsFrom 0 v.entries.toList)[index]? = some (some x)) :
    index < 65535 ∧ x % 4 = 0 ∧ x / 4 < 65535 := by
  have hfew := h.few
  have hlt := (List.getElem?_eq_some_iff.mp hx).1
  rw [length_offsetsFrom, Array.length_toList] at hlt
  refine ⟨Nat.lt_of_lt_of_le hlt hfew, ?_, h.near x (List.mem_of_getElem? hx)⟩
  rw [(getElem?_offsetsFrom_eq_some_iff.mp hx).2]
  exact length_entryBytes_mod _

theorem length_sparsePairs (v : Variant) :
    (sparsePairs 0 (offsetsFrom 0 v.entries.toList)).length =
      4 * v.entries.toList.countP Option.isSome := by
  rw [sparsePairs_eq, Bytes.length_items length_pairBytes, length_presentFrom]

/-- What is read of the table does not exceed what is written. -/
theorem readSize_le (v : Variant) :
    v.readSize ≤ (offsetTable v.flags (offsetsFrom 0 v.entries.toList)).length := by
  rw [readSize, listedCount, offsetTable]
  cases isSparse v.flags with
  | true =>
      rw [if_pos rfl, if_pos rfl, length_sparsePairs]
      split <;> omega
  | false =>
      rw [if_neg Bool.false_ne_true, if_neg Bool.false_ne_true]
      split
      · rw [Bytes.length_items length_shortOffset, length_offsetsFrom]
      · rw [Bytes.length_items length_longOffset, length_offsetsFrom]

theorem take_table (v : Variant) :
    v.table.take v.readSize =
      (offsetTable v.flags (offsetsFrom 0 v.entries.toList)).take v.readSize := by
  rw [table, Bytes.padded, List.take_append_of_le_length (readSize_le v)]

theorem readSize_le_table (v : Variant) : v.readSize ≤ v.table.length := by
  rw [table, Bytes.padded, List.length_append]
  exact Nat.le_add_right_of_le (readSize_le v)

theorem Addressable.slotsAt_sparse (h : v.Addressable) (hsparse : isSparse v.flags = true) :
    slotsAt (v.table.take v.readSize).toByteArray v.flags =
      .ok ((presentFrom 0 (offsetsFrom 0 v.entries.toList)).take (v.readSize / 4)) := by
  have hle := readSize_le v
  rw [take_table]
  rw [offsetTable, if_pos hsparse, sparsePairs_eq] at hle ⊢
  have hsize : ((((presentFrom 0 (offsetsFrom 0 v.entries.toList)).flatMap pairBytes).take
      v.readSize).toByteArray).size = v.readSize := by
    rw [List.size_toByteArray, List.length_take, Nat.min_eq_left hle]
  rw [slotsAt_pairs hsparse (by rw [List.data_toByteArray]; exact List.take_prefix _ _)
    fun slot hslot => ?_, hsize]
  obtain ⟨hoffset, hpresent⟩ := mem_presentFrom_iff.mp hslot
  obtain ⟨x, hx⟩ := Option.isSome_iff_exists.mp hpresent
  rw [hx] at hoffset
  obtain ⟨hindex, haligned, hnear⟩ := h.of_mem_offsets hoffset
  exact ⟨by omega, x, hx, haligned, by omega⟩

theorem Addressable.slotsAt_dense (h : v.Addressable) (hdense : isSparse v.flags = false) :
    slotsAt (v.table.take v.readSize).toByteArray v.flags =
      .ok (slotsFrom 0 (offsetsFrom 0 v.entries.toList)) := by
  have hlength := length_offsetsFrom 0 v.entries.toList
  rw [take_table, readSize, listedCount, offsetTable, hdense, if_neg Bool.false_ne_true,
    if_neg Bool.false_ne_true, ← hlength]
  cases hshort : hasShortOffsets v.flags with
  | true =>
      rw [if_pos rfl, if_pos rfl, ← Bytes.length_items length_shortOffset, List.take_length]
      refine slotsAt_short hdense hshort (Bytes.holds_toByteArray _) ?_ fun x hx => ?_
      · rw [List.size_toByteArray, Bytes.length_items length_shortOffset]
      · obtain ⟨index, hindex⟩ := List.mem_iff_getElem?.mp hx
        exact (h.of_mem_offsets hindex).2
  | false =>
      rw [if_neg Bool.false_ne_true, if_neg Bool.false_ne_true,
        ← Bytes.length_items length_longOffset, List.take_length]
      refine slotsAt_long hdense hshort (Bytes.holds_toByteArray _) ?_ fun x hx => ?_
      · rw [List.size_toByteArray, Bytes.length_items length_longOffset]
      · have hnear := h.near x hx
        omega

/-- The table of offsets is read into the slots of the layout. -/
theorem slotsAt_take_table (h : v.Addressable) :
    slotsAt (v.table.take v.readSize).toByteArray v.flags = .ok v.slotsRead := by
  rw [slotsRead]
  cases hsparse : isSparse v.flags with
  | true => exact h.slotsAt_sparse hsparse
  | false => exact h.slotsAt_dense hsparse

/-! ## The entries that are read -/

theorem offset_of_mem_slotsRead (hx : (index, some x) ∈ v.slotsRead) :
    (offsetsFrom 0 v.entries.toList)[index]? = some (some x) := by
  unfold slotsRead at hx
  split at hx
  · exact (mem_presentFrom_iff.mp (List.mem_of_mem_take hx)).1
  · exact mem_slotsFrom_iff.mp hx

/-- A variant is read from its chunk. The entries that have a slot come back, and there are no
others. -/
theorem exists_read_placed (h : v.Addressable) (hnumbered : v.typeId ≠ 0)
    (hsmall : v.parts.size < 4294967296) (position : Nat) :
    ∃ w, read (v.parts.placed position) = .ok w ∧ ∀ i : UInt16,
      ((∃ x, (i.toNat, some x) ∈ v.slotsRead) → w.entry? i = (v.entry? i).map Entry.reread) ∧
      ((∀ x, (i.toNat, some x) ∉ v.slotsRead) → w.entry? i = none) := by
  obtain ⟨found, hfound, hplaces⟩ := exists_readEntries hsmall h.storable
    fun index x hx => offset_of_mem_slotsRead hx
  refine ⟨⟨v.typeId, v.flags, v.config, found⟩, ?_, fun i => ⟨fun hlisted => ?_, fun hnone => ?_⟩⟩
  · rw [read_placed hsmall h.few, readBody_placed hnumbered h.few (readSize_le_table v)
      (slotsAt_take_table h) hfound]
    rfl
  · rw [entry?_eq_join, entry?_eq_join, (hplaces i.toNat).1 hlisted]
    rfl
  · rw [entry?_eq_join, (hplaces i.toNat).2 hnone]
    split <;> rfl

/-! ## Variants that are read back -/

/-- The chunk of a variant is read, and has the entries that were put in. -/
def ReadsBack (v : Variant) : Prop :=
  ∃ c w, readChunk v.encode.toByteArray 0 0 = .ok c ∧ read c = .ok w ∧
    ∀ i : UInt16, w.entry? i = (v.entry? i).map Entry.stored

theorem readChunk_encode (hsmall : v.parts.size < 4294967296) :
    readChunk v.encode.toByteArray 0 0 = .ok (v.parts.placed 0) :=
  ChunkParts.readChunk_bytes (Bytes.holds_toByteArray v.parts.bytes) (Nat.zero_le _) rfl
    (fits_parts hsmall)

/-- A variant is read back exactly if every entry that is present has a slot, and its kinds are
those with their tags. -/
theorem readsBack_iff_slots (h : v.Addressable) (hnumbered : v.typeId ≠ 0)
    (hsmall : v.parts.size < 4294967296) :
    v.ReadsBack ↔
      (∀ index x, (offsetsFrom 0 v.entries.toList)[index]? = some (some x) →
        (index, some x) ∈ v.slotsRead) ∧
      ∀ e, some e ∈ v.entries.toList → e.IsCanonical := by
  obtain ⟨w, hread, hentries⟩ := exists_read_placed h hnumbered hsmall 0
  have hchunk := readChunk_encode hsmall
  constructor
  · rintro ⟨c, found, hc, hfound, hall⟩
    cases hchunk.symm.trans hc
    cases hread.symm.trans hfound
    have hslots : ∀ index x, (offsetsFrom 0 v.entries.toList)[index]? = some (some x) →
        (index, some x) ∈ v.slotsRead := by
      intro index x hx
      obtain ⟨⟨e, he⟩, -⟩ := getElem?_offsetsFrom_eq_some_iff.mp hx
      obtain ⟨hnat, hpresent⟩ := h.entry?_ofNat he
      by_contra hlost
      have hnone := (hentries (UInt16.ofNat index)).2 fun y hy => by
        rw [hnat] at hy
        have := offset_of_mem_slotsRead hy
        rw [hx] at this
        cases this
        exact hlost hy
      rw [hall, hpresent] at hnone
      cases hnone
    refine ⟨hslots, fun e he => ?_⟩
    obtain ⟨index, hindex⟩ := List.mem_iff_getElem?.mp he
    obtain ⟨hnat, hpresent⟩ := h.entry?_ofNat hindex
    have hoffset := getElem?_offsetsFrom_eq_some_iff.mpr ⟨⟨e, hindex⟩, rfl⟩
    have hlisted := (hentries (UInt16.ofNat index)).1
      ⟨_, by rw [hnat]; exact hslots index _ hoffset⟩
    rw [hall, hpresent, Option.map_some, Option.map_some, Option.some.injEq] at hlisted
    exact Entry.reread_eq_stored_iff.mp hlisted.symm
  · rintro ⟨hslots, hcanonical⟩
    refine ⟨_, w, hchunk, hread, fun i => ?_⟩
    cases hentry : v.entry? i with
    | none =>
        refine (hentries i).2 fun x hx => ?_
        obtain ⟨⟨e, he⟩, -⟩ :=
          getElem?_offsetsFrom_eq_some_iff.mp (offset_of_mem_slotsRead hx)
        rw [Array.getElem?_toList, ← entry?_eq_some_iff, hentry] at he
        cases he
    | some e =>
        have he := entry?_eq_some_iff.mp hentry
        rw [← Array.getElem?_toList] at he
        have hoffset := getElem?_offsetsFrom_eq_some_iff.mpr ⟨⟨e, he⟩, rfl⟩
        rw [(hentries i).1 ⟨_, hslots i.toNat _ hoffset⟩, hentry]
        exact congrArg some
          (Entry.reread_eq_stored_iff.mpr (hcanonical e (List.mem_of_getElem? he)))

theorem nodup_presentFrom (offsets : List (Option Nat)) : (presentFrom 0 offsets).Nodup := by
  refine ((pairwise_slotsFrom 0 offsets).filter _).imp fun hlt heq => ?_
  rw [heq] at hlt
  exact Nat.lt_irrefl _ hlt

/-- Every entry that is present has a slot, unless there are such entries in a layout of pairs
that is read as one of 16-bit offsets. -/
theorem forall_mem_slotsRead_iff :
    (∀ index x, (offsetsFrom 0 v.entries.toList)[index]? = some (some x) →
      (index, some x) ∈ v.slotsRead) ↔
      (isSparse v.flags = true → hasShortOffsets v.flags = true →
        ∀ e, some e ∉ v.entries.toList) := by
  have hcount := length_presentFrom 0 0 v.entries.toList
  constructor
  · intro hslots hsparse hshort e he
    have hlisted : v.slotsRead = (presentFrom 0 (offsetsFrom 0 v.entries.toList)).take
        (2 * v.entries.toList.countP Option.isSome / 4) := by
      rw [slotsRead, if_pos hsparse, readSize, if_pos hshort, listedCount, if_pos hsparse]
    -- all slots would have to be among the first half of them
    have hsubset : presentFrom 0 (offsetsFrom 0 v.entries.toList) ⊆ v.slotsRead := by
      rintro ⟨index, offset⟩ hslot
      obtain ⟨hoffset, hpresent⟩ := mem_presentFrom_iff.mp hslot
      obtain ⟨x, rfl⟩ := Option.isSome_iff_exists.mp hpresent
      exact hslots index x hoffset
    have hlength := (List.subperm_of_subset (nodup_presentFrom _) hsubset).length_le
    have hpositive : 0 < v.entries.toList.countP Option.isSome :=
      List.countP_pos_iff.mpr ⟨some e, he, rfl⟩
    rw [hlisted, List.length_take] at hlength
    omega
  · intro hlayout index x hx
    rw [slotsRead]
    split
    · next hsparse =>
      have hpresent : (index, some x) ∈ presentFrom 0 (offsetsFrom 0 v.entries.toList) :=
        mem_presentFrom_iff.mpr ⟨hx, rfl⟩
      cases hshort : hasShortOffsets v.flags with
      | true =>
          obtain ⟨⟨e, he⟩, -⟩ := getElem?_offsetsFrom_eq_some_iff.mp hx
          exact absurd (List.mem_of_getElem? he) (hlayout hsparse hshort e)
      | false =>
          have hroom : v.readSize / 4 = v.entries.toList.countP Option.isSome := by
            rw [readSize, hshort, listedCount, if_pos hsparse, if_neg Bool.false_ne_true,
              Nat.mul_div_cancel_left _ (by decide)]
          rwa [hroom, ← hcount, List.take_length]
    · exact mem_slotsFrom_iff.mpr hx

theorem not_readsBack_of_unnumbered (h : v.Addressable) (hunnumbered : v.typeId = 0)
    (hsmall : v.parts.size < 4294967296) : ¬ v.ReadsBack := by
  rintro ⟨c, w, hc, hread, -⟩
  cases (readChunk_encode hsmall).symm.trans hc
  rw [read_placed hsmall h.few, readBody, if_pos hunnumbered] at hread
  cases hread

theorem length_table_le (v : Variant) : v.table.length ≤ 4 * v.entries.size + 3 := by
  have hcount : v.entries.toList.countP Option.isSome ≤ v.entries.toList.length :=
    List.countP_le_length
  have hlength : v.entries.toList.length = v.entries.size := Array.length_toList
  have hoffsets : (offsetTable v.flags (offsetsFrom 0 v.entries.toList)).length ≤
      4 * v.entries.toList.length := by
    rw [offsetTable]
    split
    · rw [length_sparsePairs]
      omega
    split
    · rw [Bytes.length_items length_shortOffset, length_offsetsFrom]
      omega
    · rw [Bytes.length_items length_longOffset, length_offsetsFrom]
  rw [table, Bytes.padded, List.length_append, Bytes.length_zeros]
  omega

/-- The size in the header of a chunk has 32 bits, so that the last bag of a greater chunk is
cut off. -/
theorem ReadsBack.parts_small (hback : v.ReadsBack) (h : v.Addressable) :
    v.parts.size < 4294967296 := by
  obtain ⟨c, w, hc, hread, hall⟩ := hback
  have hwithin := (safe_read (Chunk.CutFrom.of_readChunk hc).framed).of_ok hread
  have hchunk : c.bytes.size = v.parts.size % 4294967296 :=
    ChunkParts.size_of_readChunk (Bytes.holds_toByteArray v.parts.bytes) hc
  have hsize := size_parts v
  have htable := length_table_le v
  have hfew := h.few
  rw [maxEntries] at hfew
  by_cases hempty : entryBytes v.entries.toList = []
  · rw [hempty, List.length_nil] at hsize
    omega
  · obtain ⟨index, e, he, hbytes⟩ := exists_last hempty
    obtain ⟨-, -, hnear⟩ :=
      h.of_mem_offsets (getElem?_offsetsFrom_eq_some_iff.mpr ⟨⟨e, he⟩, rfl⟩)
    have hentry : w.entry? (UInt16.ofNat index) = some e.stored := by
      rw [hall, (h.entry?_ofNat he).2]
      rfl
    rw [entry?_eq_some_iff] at hentry
    have hlast := Entry.length_encode_le (hwithin _ _ hentry)
    rw [hbytes, List.length_append] at hsize
    omega

/-- A variant is read back exactly if it has an id, the size of its chunk can be written, the kinds
of its values are those with their tags, and its present entries are not written as pairs with the
flag of 16-bit offsets set as well. -/
theorem readsBack_iff (h : v.Addressable) :
    v.ReadsBack ↔ v.typeId ≠ 0 ∧ v.encode.length < 4294967296 ∧
      (∀ e, some e ∈ v.entries.toList → e.IsCanonical) ∧
      (isSparse v.flags = true → hasShortOffsets v.flags = true →
        ∀ e, some e ∉ v.entries.toList) := by
  have hsize : v.encode.length = v.parts.size := ChunkParts.length_bytes v.parts
  rw [hsize]
  constructor
  · intro hback
    have hsmall := hback.parts_small h
    have hnumbered : v.typeId ≠ 0 := fun hzero =>
      not_readsBack_of_unnumbered h hzero hsmall hback
    obtain ⟨hslots, hcanonical⟩ := (readsBack_iff_slots h hnumbered hsmall).mp hback
    exact ⟨hnumbered, hsmall, hcanonical, forall_mem_slotsRead_iff.mp hslots⟩
  · rintro ⟨hnumbered, hsmall, hcanonical, hlayout⟩
    exact (readsBack_iff_slots h hnumbered hsmall).mpr
      ⟨forall_mem_slotsRead_iff.mpr hlayout, hcanonical⟩

/-- A value, a gap, and a bag, in the layout that the flags name. -/
def gapped (flags : UInt8) : Variant :=
  ⟨1, flags, {}, #[some (.plain 7 0 ⟨.decimal, 1⟩), none,
    some (.bag 8 0 0 [⟨0x01010000, ⟨.decimal, 2⟩⟩])]⟩

theorem eq_of_mem_gapped {flags : UInt8} (he : some e ∈ (gapped flags).entries.toList) :
    e = .plain 7 0 ⟨.decimal, 1⟩ ∨ e = .bag 8 0 0 [⟨0x01010000, ⟨.decimal, 2⟩⟩] := by
  have hmem : some e ∈ [some (.plain 7 0 ⟨.decimal, 1⟩), none,
    some (Entry.bag 8 0 0 [⟨0x01010000, ⟨.decimal, 2⟩⟩])] := he
  simpa using hmem

theorem addressable_gapped (flags : UInt8) : (gapped flags).Addressable where
  few := by
    show 3 ≤ maxEntries
    decide
  storable := by
    intro e he
    rcases eq_of_mem_gapped he with rfl | rfl
    · decide
    · decide
  near := by
    intro x hx
    have hmem : some x ∈ [some 0, none, some 16] := hx
    simp only [List.mem_cons, Option.some.injEq, List.not_mem_nil, or_false, reduceCtorEq,
      false_or] at hmem
    omega

theorem canonical_gapped (flags : UInt8) :
    ∀ e, some e ∈ (gapped flags).entries.toList → e.IsCanonical := by
  intro e he
  rcases eq_of_mem_gapped he with rfl | rfl
  · decide +kernel
  · decide +kernel

theorem readsBack_gapped :
    (gapped 0).Addressable ∧ (gapped 0).ReadsBack ∧ (gapped 1).ReadsBack ∧
      (gapped 2).ReadsBack ∧ ¬ (gapped 3).ReadsBack := by
  have hcanonical := canonical_gapped
  refine ⟨addressable_gapped 0, ?_, ?_, ?_, fun hback => ?_⟩
  · exact (readsBack_iff (addressable_gapped 0)).mpr
      ⟨by decide, by decide +kernel, hcanonical 0, nofun⟩
  · exact (readsBack_iff (addressable_gapped 1)).mpr
      ⟨by decide, by decide +kernel, hcanonical 1, nofun⟩
  · exact (readsBack_iff (addressable_gapped 2)).mpr
      ⟨by decide, by decide +kernel, hcanonical 2, nofun⟩
  · exact ((readsBack_iff (addressable_gapped 3)).mp hback).2.2.2 rfl rfl _ List.mem_cons_self

/-- Not every variant is read back whose id and size can be written, and whose kinds are those
with their tags. -/
theorem not_forall_readsBack :
    ¬ ∀ v : Variant, v.Addressable → v.typeId ≠ 0 → v.encode.length < 4294967296 →
      (∀ e, some e ∈ v.entries.toList → e.IsCanonical) → v.ReadsBack := by
  intro hall
  have hsmall : (gapped 3).encode.length < 4294967296 := by decide +kernel
  have hback := hall (gapped 3) (addressable_gapped 3) (by decide) hsmall (canonical_gapped 3)
  have hslots := ((readsBack_iff_slots (addressable_gapped 3) (by decide)
    (by rwa [← ChunkParts.length_bytes])).mp hback).1
  exact forall_mem_slotsRead_iff.mp hslots rfl rfl _ List.mem_cons_self

end Variant

end AppResources
