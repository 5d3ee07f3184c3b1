import AppResources.Proofs.CheckedRead
import Mathlib.Data.List.Induction

/-!
# Records are read inside their chunk

Values, entries, variants, type specs, libraries, string pools, overlay maps and nodes are
read with offsets, counts and sizes that come from the file. Each reader checks them before it
uses them. Here every reader is safe for every buffer, or for every chunk whose header lies
within the chunk; and the number of items that a loop goes through is bounded by the bytes
that the items take.

## Main definitions

* `Chunk.Framed`: the header of a chunk lies within it.
* `Entry.ItemsWithin`, `Variant.ItemsWithin`: the items of bags fit into the buffer.
* `StringPool.Within`: a pool lies within the bytes it is read from.

## Main results

* `Entry.safe_read`, `Variant.safe_read`, `TypeSpecHeader.safe_read`, `Library.safe_readAll`,
  `StringPool.safe_load`, `Idmap.safe_load`, `XmlNode.safe_read`.
-/

namespace AppResources

variable {b : ByteArray} {i : Nat}

theorem Value.safe_readAt (h : i + diskSize ≤ b.size) : Safe (readAt b i) fun _ => True := by
  simp only [diskSize] at h
  obtain ⟨size, hsize⟩ := Bytes.exists_word16? (b := b) (i := i) (by omega)
  obtain ⟨tag, htag⟩ := Bytes.exists_byte? (b := b) (i := i + 3) (by omega)
  obtain ⟨data, hdata⟩ := Bytes.exists_word32? (b := b) (i := i + 4) (by omega)
  simp only [readAt, read?, hsize, htag, hdata]
  trivial

/-! ## Entries -/

namespace Entry

theorem safe_itemAt (h : i + itemSize ≤ b.size) : Safe (itemAt b i) fun _ => True := by
  simp only [itemSize] at h
  refine (Bytes.safe_word32At (by omega)).bind fun name _ => ?_
  refine (Value.safe_readAt ?_).bind fun value _ => trivial
  simp only [Value.diskSize]
  omega

theorem safe_itemsAt {start count : Nat} (h : start + itemSize * count ≤ b.size) :
    Safe (itemsAt b start count) fun items => items.length = count := by
  have hitem : ∀ i < count, Safe (itemAt b (start + itemSize * i)) fun _ => True := by
    intro i hi
    apply safe_itemAt
    simp only [itemSize] at h ⊢
    omega
  exact (Safe.mapM_range hitem).mono fun items hitems => hitems.1

/-- The items of an entry take no more room than the buffer has. -/
def ItemsWithin (b : ByteArray) : Entry → Prop
  | .plain .. => True
  | .bag _ _ _ items => itemSize * items.length ≤ b.size

theorem safe_readBag {offset body : Nat} {flags : UInt16} {key : UInt32}
    (hbody : body ≤ b.size) : Safe (readBag b offset body flags key) (ItemsWithin b) := by
  unfold readBag
  split
  · exact rfl
  · next hsize =>
    simp only [bagHeaderSize] at hsize
    refine ((Bytes.safe_word32At (by omega)).mapError _).bind fun parent _ => ?_
    refine ((Bytes.safe_word32At (by omega)).mapError _).bind fun count _ => ?_
    split
    · exact rfl
    · refine ((Bytes.safe_minus hbody).mapError _).bind fun room hroom => ?_
      split
      · exact rfl
      · next hcount =>
        -- as many items fit behind `body` as the count says
        have hfit : body + itemSize * count.toNat ≤ b.size := by
          simp only [itemSize] at hcount ⊢
          omega
        refine ((Bytes.safe_within ⟨hbody, Nat.le_refl _⟩).mapError _).bind fun _ _ => ?_
        refine ((safe_itemsAt hfit).mapError _).bind fun items hitems => ?_
        show itemSize * items.length ≤ b.size
        rw [hitems]
        omega

theorem safe_readPlain {body : Nat} {flags : UInt16} {key : UInt32}
    (hsize : headerSize ≤ b.size) : Safe (readPlain b body flags key) (ItemsWithin b) := by
  unfold readPlain
  split
  · exact rfl
  · next hroom =>
    simp only [headerSize, Value.diskSize] at hsize hroom
    have hbody : body ≤ b.size := by omega
    refine ((Bytes.safe_within ⟨hbody, Nat.le_refl _⟩).mapError _).bind fun _ _ => ?_
    refine ((Value.safe_readAt ?_).mapError _).bind fun value _ => ?_
    · simp only [Value.diskSize]
      omega
    refine ((Bytes.safe_minus hbody).mapError _).bind fun room _ => ?_
    split
    · exact rfl
    split
    · exact rfl
    · exact trivial

/-- An entry can be read at any offset of any buffer. -/
theorem safe_read (b : ByteArray) (offset : Nat) : Safe (read b offset) (ItemsWithin b) := by
  unfold read
  split
  · exact rfl
  split
  · exact rfl
  next hroom =>
  have hsize : headerSize ≤ b.size := by
    omega
  have hoffset : offset + 8 ≤ b.size := by
    simp only [headerSize] at hroom hsize
    omega
  refine ((Bytes.safe_within ⟨by omega, Nat.le_refl _⟩).mapError _).bind fun _ _ => ?_
  refine ((Bytes.safe_word16At (by omega)).mapError _).bind fun size _ => ?_
  refine ((Bytes.safe_word16At (by omega)).mapError _).bind fun flags _ => ?_
  refine ((Bytes.safe_word32At (by omega)).mapError _).bind fun key _ => ?_
  split
  · exact trivial
  refine ((Bytes.safe_minus (by omega)).mapError _).bind fun room hrest => ?_
  split
  · exact rfl
  split
  · exact rfl
  next hbody =>
  split
  · exact safe_readBag (by omega)
  · exact safe_readPlain hsize

end Entry

/-! ## Chunks -/

namespace Chunk

variable {c : Chunk}

/-- The header of a chunk covers the bytes that every chunk has, and lies within the chunk. -/
structure Framed (c : Chunk) : Prop where
  covers : chunkHeaderSize ≤ c.headerSize
  inside : c.headerSize ≤ c.bytes.size

theorem Framed.frame_eq (h : c.Framed) : c.frame = .ok (c.header, c.payload) := by
  have hheader : Bytes.slice c.bytes chunkHeaderSize c.headerSize = .ok c.header :=
    if_pos ⟨h.covers, h.inside⟩
  have hpayload : Bytes.slice c.bytes c.headerSize c.bytes.size = .ok c.payload :=
    if_pos ⟨h.inside, Nat.le_refl _⟩
  rw [frame, hheader, hpayload]
  rfl

theorem size_header (h : c.Framed) : c.header.size = c.headerSize - chunkHeaderSize := by
  have hinside := h.inside
  rw [header, ByteArray.size_extract]
  omega

end Chunk

/-! ## Variants -/

namespace Variant

/-- Every slot takes two bytes of the table at least. -/
theorem safe_slotsAt (table : ByteArray) (flags : UInt8) :
    Safe (slotsAt table flags) fun slots => 2 * slots.length ≤ table.size := by
  unfold slotsAt
  split
  · refine (Safe.mapM_range (R := fun _ => True) fun i hi => ?_).mono fun slots h => by omega
    refine (Bytes.safe_word16At (by omega)).bind fun index _ => ?_
    exact (Bytes.safe_word16At (by omega)).bind fun offset _ => trivial
  split
  · refine (Safe.mapM_range (R := fun _ => True) fun i hi => ?_).mono fun slots h => by omega
    exact (Bytes.safe_word16At (by omega)).bind fun offset _ => trivial
  · refine (Safe.mapM_range (R := fun _ => True) fun i hi => ?_).mono fun slots h => by omega
    exact (Bytes.safe_word32At (by omega)).bind fun offset _ => trivial

theorem entryCount_concat (slots : List Slot) (slot : Slot) :
    entryCount (slots ++ [slot]) = max (entryCount slots) (slot.1 + 1) := by
  rw [entryCount, List.foldl_append]
  rfl

theorem lt_entryCount {slots : List Slot} : ∀ slot ∈ slots, slot.1 < entryCount slots := by
  induction slots using List.reverseRecOn with
  | nil => exact fun slot h => absurd h List.not_mem_nil
  | append_singleton slots last ih =>
      intro slot hslot
      rw [entryCount_concat]
      rcases List.mem_append.mp hslot with hslot | hslot
      · have := ih slot hslot
        omega
      · rw [List.mem_singleton.mp hslot]
        omega

/-- Entries are read into the places of the array, and take no more room than the buffer
has. -/
theorem safe_readEntries {b : ByteArray} {start : Nat} {slots : List Slot}
    {entries : Array (Option Entry)} (h : ∀ slot ∈ slots, slot.1 < entries.size) :
    Safe (readEntries b start slots entries) fun found =>
      found.size = entries.size ∧ ∀ (index : Nat) (e : Entry), found[index]? = some (some e) →
        entries[index]? = some (some e) ∨ e.ItemsWithin b := by
  induction slots generalizing entries with
  | nil => exact ⟨rfl, fun index e he => .inl he⟩
  | cons slot slots ih =>
      obtain ⟨hslot, hslots⟩ := List.forall_mem_cons.mp h
      match slot with
      | (index, none) => exact ih hslots
      | (index, some offset) =>
          have hentry := Entry.safe_read b (offset + start)
          rw [readEntries]
          split
          · next entry _ =>
            rw [dif_pos hslot]
            refine (ih ?_).mono fun found hfound => ⟨?_, fun i e he => ?_⟩
            · simpa only [Array.size_set] using hslots
            · rw [hfound.1, Array.size_set]
            · rcases hfound.2 i e he with hold | hwithin
              · rw [Array.getElem?_set] at hold
                split at hold
                · cases hold
                  exact .inr (hentry.of_ok ‹_›)
                · exact .inl hold
              · exact .inr hwithin
          · next f hread => exact hentry.fault_eq_none hread

/-- The items of every entry take no more room than the buffer has. -/
def ItemsWithin (b : ByteArray) (v : Variant) : Prop :=
  ∀ (index : Nat) (e : Entry), v.entries[index]? = some (some e) → e.ItemsWithin b

theorem safe_readBody {c : Chunk} {typeId flags : UInt8} {count entriesStart : Nat}
    {config : Config} :
    Safe (readBody c typeId flags count entriesStart config) (ItemsWithin c.bytes) := by
  unfold readBody
  extract_lets tableSize
  split
  · exact rfl
  split
  · exact rfl
  split
  · exact rfl
  next hstart =>
  have hminus : c.headerSize ≤ entriesStart := by omega
  obtain ⟨room, hroom, rfl⟩ := (Bytes.safe_minus hminus).exists_ok
  rw [hroom]
  dsimp only
  split
  · exact rfl
  next htable =>
  split
  · exact rfl
  next hend =>
  split
  · exact rfl
  simp only [Chunk.size] at hend
  -- the table stands between the header and the first entry
  have hinside : c.headerSize ≤ c.headerSize + tableSize ∧
      c.headerSize + tableSize ≤ c.bytes.size := by
    omega
  obtain ⟨table, hslice, _⟩ := (Bytes.safe_slice hinside).exists_ok
  obtain ⟨slots, hslots, _⟩ := (safe_slotsAt table flags).exists_ok
  have hentries : Safe (readEntries c.bytes entriesStart slots
      (Array.replicate (entryCount slots) none)) fun found =>
        ∀ (index : Nat) (e : Entry), found[index]? = some (some e) → e.ItemsWithin c.bytes := by
    refine (safe_readEntries ?_).mono fun found hfound index e he => ?_
    · simpa only [Array.size_replicate] using lt_entryCount
    · refine (hfound.2 index e he).resolve_left fun hnone => ?_
      rw [Array.getElem?_replicate] at hnone
      split at hnone <;> cases hnone
  simp only [hslice, hslots]
  split
  · next f hread => exact hentries.fault_eq_none hread
  · next found hread => exact hentries.of_ok hread

/-- A variant can be read from every chunk that is framed, and its items lie within it. -/
theorem safe_read {c : Chunk} (hc : c.Framed) : Safe (read c) (ItemsWithin c.bytes) := by
  unfold read
  split
  · exact rfl
  next hheader =>
  have hsize := Chunk.size_header hc
  simp only [minHeaderSize, chunkHeaderSize] at hheader hsize
  obtain ⟨typeId, htypeId⟩ := Bytes.exists_byte? (b := c.header) (i := 0) (by omega)
  obtain ⟨flags, hflags⟩ := Bytes.exists_byte? (b := c.header) (i := 1) (by omega)
  obtain ⟨count, hcount⟩ := Bytes.exists_word32? (b := c.header) (i := 4) (by omega)
  obtain ⟨start, hstart⟩ := Bytes.exists_word32? (b := c.header) (i := 8) (by omega)
  obtain ⟨declared, hdeclared⟩ := Bytes.exists_word32? (b := c.header) (i := 12) (by omega)
  rw [hc.frame_eq]
  simp only [htypeId, hflags, hcount, hstart, Config.read?, hdeclared]
  generalize Config.ofRecord _ = config
  have hbody : Safe (readBody c typeId flags count.toNat start.toNat config)
      (ItemsWithin c.bytes) := safe_readBody
  cases hread : readBody c typeId flags count.toNat start.toNat config with
  | ok v => exact hbody.of_ok hread
  | error f => exact hbody.fault_eq_none hread

end Variant

/-! ## Type specs and libraries -/

namespace TypeSpecHeader

theorem safe_axesAt {start count : Nat} (h : start + 4 * count ≤ b.size) :
    Safe (axesAt b start count) fun axes => axes.length = count := by
  have hword : ∀ i < count, Safe (do return (⟨← Bytes.word32At b (start + 4 * i)⟩ : Axes))
      fun _ => True := by
    intro i hi
    exact (Bytes.safe_word32At (by omega)).bind fun bits _ => trivial
  exact (Safe.mapM_range hword).mono fun axes haxes => haxes.1

/-- A type spec can be read from every chunk that is framed, and its id is not zero. -/
theorem safe_read {c : Chunk} (hc : c.Framed) : Safe (read c) fun spec => spec.id ≠ 0 := by
  unfold read
  rw [hc.frame_eq]
  dsimp only
  split
  · next id reserved variantCount count hid _ _ _ =>
    split
    · exact rfl
    next hzero =>
    split
    · exact rfl
    split
    · exact rfl
    next hpayload =>
    have hfit : 0 + 4 * count.toNat ≤ c.payload.size := by omega
    obtain ⟨axes, haxes, _⟩ := (safe_axesAt hfit).exists_ok
    rw [haxes]
    exact hzero
  · exact rfl

end TypeSpecHeader

namespace Library

theorem safe_readAt (h : i + diskSize ≤ b.size) : Safe (readAt b i) fun _ => True := by
  simp only [diskSize, nameSize] at h
  have hname : i + 4 ≤ i + diskSize ∧ i + diskSize ≤ b.size := by
    simp only [diskSize, nameSize]
    omega
  obtain ⟨id, hid, _⟩ := (Bytes.safe_word32At (b := b) (i := i) (by omega)).exists_ok
  obtain ⟨name, hslice, _⟩ := (Bytes.safe_slice hname).exists_ok
  simp only [readAt, hid, hslice]
  split
  · exact rfl
  · exact trivial

/-- Libraries can be read from every chunk that is framed. -/
theorem safe_readAll {c : Chunk} (hc : c.Framed) : Safe (readAll c) fun _ => True := by
  unfold readAll
  rw [hc.frame_eq]
  dsimp only
  split
  · exact rfl
  next count _ =>
  split
  · exact rfl
  next hfit =>
  have hlibrary : ∀ i < count.toNat, Safe (readAt c.payload (diskSize * i)) fun _ => True := by
    intro i hi
    apply safe_readAt
    simp only [diskSize, nameSize] at hfit ⊢
    omega
  exact (Safe.mapM_range hlibrary).mono fun _ _ => trivial

end Library

/-! ## String pools -/

namespace StringPool

theorem safe_refuseIf {condition : Bool} {f : PoolFault} (hf : HasFault.fault? f = none) :
    Safe (refuseIf condition f) fun _ => condition = false := by
  cases condition with
  | true => exact hf
  | false => exact rfl

/-- Pools with strings have a table of offsets behind their header, so that the last two bytes
are there to be compared with the start of the strings. The string data that is found lies
within the pool. -/
theorem safe_stringDataSize {data : ByteArray} {utf8 : Bool}
    {count styleCount headerSize stringsStart stylesStart : Nat}
    (hheader : minHeaderSize ≤ headerSize) :
    Safe (stringDataSize data utf8 count styleCount headerSize stringsStart stylesStart)
      fun units => stringsStart + unitSize utf8 * units ≤ data.size := by
  unfold stringDataSize
  extract_lets size checkEnd
  refine (safe_refuseIf rfl).bind fun _ hentries => ?_
  simp only [decide_eq_false_iff_not, minHeaderSize] at hentries hheader
  refine ((Bytes.safe_minus (by omega)).mapError _).bind fun lastStart hlast => ?_
  refine (safe_refuseIf rfl).bind fun _ hstrings => ?_
  simp only [decide_eq_false_iff_not] at hstrings
  have hend : ∀ stringBytes, stringsStart + stringBytes ≤ data.size →
      Safe (checkEnd stringBytes) fun units =>
        stringsStart + unitSize utf8 * units ≤ data.size := by
    intro stringBytes hinside
    simp only [checkEnd]
    refine (safe_refuseIf rfl).bind fun _ hunits => ?_
    simp only [decide_eq_false_iff_not] at hunits
    -- the last unit ends where the string data ends
    refine ((Bytes.safe_slice ?_).mapError _).bind fun terminator _ => ?_
    · cases utf8 with
      | true =>
          simp only [unitSize, if_true] at hunits ⊢
          omega
      | false =>
          simp only [unitSize, Bool.false_eq_true, if_false] at hunits ⊢
          omega
    refine (safe_refuseIf rfl).bind fun _ _ => ?_
    have hunitBytes := Nat.mul_div_le stringBytes (unitSize utf8)
    show stringsStart + unitSize utf8 * (stringBytes / unitSize utf8) ≤ data.size
    omega
  split
  · refine ((Bytes.safe_minus (by omega)).mapError _).bind fun stringBytes h => ?_
    exact hend stringBytes (by omega)
  · refine (safe_refuseIf rfl).bind fun _ hstyles => ?_
    refine (safe_refuseIf rfl).bind fun _ horder => ?_
    simp only [decide_eq_false_iff_not] at hstyles horder
    refine ((Bytes.safe_minus (by omega)).mapError _).bind fun stringBytes h => ?_
    exact hend stringBytes (by omega)

theorem safe_checkStyles {data : ByteArray} {count styleCount headerSize stylesStart : Nat} :
    Safe (checkStyles data count styleCount headerSize stylesStart) fun _ => True := by
  unfold checkStyles
  extract_lets size
  refine (safe_refuseIf rfl).bind fun _ _ => ?_
  refine (safe_refuseIf rfl).bind fun _ hstart => ?_
  simp only [decide_eq_false_iff_not] at hstart
  refine ((Bytes.safe_minus (by omega)).mapError _).bind fun room hroom => ?_
  extract_lets words stop
  refine (safe_refuseIf rfl).bind fun _ hwords => ?_
  simp only [decide_eq_false_iff_not] at hwords
  refine ((Bytes.safe_minus (by omega)).mapError _).bind fun start hmark => ?_
  refine ((Bytes.safe_slice (by omega)).mapError _).bind fun mark _ => ?_
  exact (safe_refuseIf rfl).mono fun _ _ => trivial

/-- A pool is the front of a chunk, and its string data lies within it. -/
structure Within (p : StringPool) (chunk : ByteArray) : Prop where
  data_eq : p.data = chunk.extract 0 p.data.size
  size_le : p.data.size ≤ chunk.size
  strings : 0 < p.count → p.stringsStart + unitSize p.utf8 * p.dataSize ≤ p.data.size

/-- A pool can be read from any bytes, and lies within them. -/
theorem safe_load (chunk : ByteArray) : Safe (load chunk) (Within · chunk) := by
  unfold load
  split
  · next headerSize size count styleCount flags stringsStart stylesStart _ _ _ _ _ _ _ =>
    refine (safe_refuseIf rfl).bind fun _ hheader => ?_
    refine (safe_refuseIf rfl).bind fun _ hsize => ?_
    simp only [decide_eq_false_iff_not, Bool.or_eq_false_iff] at hheader hsize
    refine ((Bytes.safe_slice (by omega)).mapError _).bind fun data hdata => ?_
    obtain ⟨hfront, hdataSize⟩ := hdata
    rw [Nat.sub_zero] at hdataSize
    extract_lets utf8 checkRest
    have hrest : ∀ dataSize,
        (0 < count.toNat → stringsStart.toNat + unitSize utf8 * dataSize ≤ data.size) →
        Safe (checkRest dataSize) (Within · chunk) := by
      intro dataSize hstrings
      have hwithin : Within ⟨count.toNat, styleCount.toNat, utf8, flags.toNat % 2 == 1,
          headerSize.toNat, stringsStart.toNat, data, dataSize⟩ chunk :=
        ⟨by rw [hdataSize]; exact hfront, by show data.size ≤ _; omega, hstrings⟩
      simp only [checkRest]
      split
      · exact safe_checkStyles.bind fun _ _ => hwithin
      · exact hwithin
    split
    · next hcount => exact hrest 0 fun hpositive => by simp [hcount] at hpositive
    · exact (safe_stringDataSize (by omega)).bind fun dataSize h => hrest dataSize fun _ => h
  · exact rfl

end StringPool

/-! ## Overlay maps -/

namespace Idmap

theorem safe_entriesAt {start count : Nat} (h : start + 4 * count ≤ b.size) :
    Safe (entriesAt b start count) fun entries => entries.length = count := by
  have hword : ∀ i < count, Safe (Bytes.word32At b (start + 4 * i)) fun _ => True :=
    fun i hi => Bytes.safe_word32At (by omega)
  exact (Safe.mapM_range hword).mono fun entries hentries => hentries.1

theorem safe_readMap (h : i + mapHeaderSize ≤ b.size) :
    Safe (readMap b i) fun found =>
      found.1.targetType ≠ 0 ∧ i + mapHeaderSize ≤ found.2 ∧ found.2 ≤ b.size := by
  simp only [mapHeaderSize] at h
  unfold readMap
  refine ((Bytes.safe_word16At (by omega)).mapError _).bind fun targetType _ => ?_
  refine ((Bytes.safe_word16At (by omega)).mapError _).bind fun overlayType _ => ?_
  refine ((Bytes.safe_word16At (by omega)).mapError _).bind fun count _ => ?_
  refine ((Bytes.safe_word16At (by omega)).mapError _).bind fun firstEntry _ => ?_
  extract_lets start
  refine ((Bytes.safe_minus h).mapError _).bind fun room hroom => ?_
  split
  · exact rfl
  next hids =>
  split
  · exact rfl
  next hcount =>
  have hstart : start = i + 8 := rfl
  refine ((safe_entriesAt (by omega)).mapError _).bind fun entries _ => ?_
  refine ⟨?_, ?_, ?_⟩
  · show targetType ≠ 0
    simp only [isId] at hids
    simp_all
  · show i + 8 ≤ start + 4 * count.toNat
    omega
  · show start + 4 * count.toNat ≤ b.size
    omega

theorem of_mem_insertMap {m entry : OverlayMap} {maps : List OverlayMap}
    (h : entry ∈ insertMap m maps) : entry = m ∨ entry ∈ maps := by
  induction maps with
  | nil => exact .inl (List.mem_singleton.mp h)
  | cons other rest ih =>
      simp only [insertMap] at h
      split at h
      · exact List.mem_cons.mp h
      split at h
      · rcases List.mem_cons.mp h with h | h
        · exact .inl h
        · exact .inr (List.mem_cons_of_mem other h)
      · rcases List.mem_cons.mp h with rfl | h
        · exact .inr List.mem_cons_self
        · exact (ih h).imp_right (List.mem_cons_of_mem other)

/-- Maps that stand for a type of the target. -/
def Targeted (maps : List OverlayMap) : Prop :=
  ∀ m ∈ maps, m.targetType ≠ 0

/-- The loop over the maps of a file ends: each of them takes its header of the rest. -/
theorem safe_readMaps {count : Nat} {maps : List OverlayMap} (hmaps : Targeted maps) :
    Safe (readMaps b i count maps) fun found =>
      Targeted found.2 ∧ mapHeaderSize * found.1 ≤ mapHeaderSize * count + (b.size - i) := by
  fun_induction readMaps b i count maps with
  | case1 i count maps hroom f hread => exact (safe_readMap hroom).fault_eq_none hread
  | case2 i count maps hroom m next hread ih =>
      obtain ⟨htarget, hstep, hnext⟩ := (safe_readMap hroom).of_ok hread
      refine (ih ?_).mono fun found hfound => ⟨hfound.1, ?_⟩
      · show Targeted (if m.entries.isEmpty then maps else insertMap m maps)
        split
        · exact hmaps
        · intro entry hentry
          rcases of_mem_insertMap hentry with rfl | hentry
          · exact htarget
          · exact hmaps entry hentry
      · have hrest := hfound.2
        simp only [mapHeaderSize] at hstep hrest ⊢
        omega
  | case3 i count maps hroom =>
      refine ⟨hmaps, ?_⟩
      simp only
      omega

/-- An overlay map can be loaded from any bytes, and its maps stand for types of the target. -/
theorem safe_load (b : ByteArray) : Safe (load b) fun m => Targeted m.maps := by
  unfold load
  split
  · split
    · exact rfl
    split
    · exact rfl
    split
    · exact rfl
    split
    · exact rfl
    have hmaps : Safe (readMaps b headerSize 0 []) fun found => Targeted found.2 :=
      (safe_readMaps fun m hm => absurd hm List.not_mem_nil).mono fun _ h => h.1
    split
    · next f hread => exact hmaps.fault_eq_none hread
    · next count maps hread =>
      split
      · exact rfl
      · exact hmaps.of_ok hread
  · exact rfl

end Idmap

/-! ## Nodes -/

theorem XmlAttribute.safe_readAt (h : i + diskSize ≤ b.size) :
    Safe (readAt b i) fun _ => True := by
  simp only [diskSize] at h
  refine (Bytes.safe_word32At (by omega)).bind fun space _ => ?_
  refine (Bytes.safe_word32At (by omega)).bind fun name _ => ?_
  refine (Bytes.safe_word32At (by omega)).bind fun rawValue _ => ?_
  refine (Value.safe_readAt ?_).bind fun value _ => trivial
  simp only [Value.diskSize]
  omega

/-- The attributes of an element stand one behind the other at a distance that is no less than
what each of them takes, and the last one ends within the element. -/
theorem XmlElement.safe_read {origin : NodeOrigin} : Safe (read b origin) fun _ => True := by
  unfold read
  split
  · next space name start size count _ _ _ _ _ _ _ _ _ _ _ =>
    extract_lets stop attributes
    split
    · exact rfl
    next hstop =>
    split
    · exact rfl
    next hsize =>
    have hattributes : Safe attributes fun _ => True := by
      refine (Bytes.safe_within ⟨by omega, by omega⟩).bind fun _ _ => ?_
      refine (Safe.mapM_range (R := fun _ => True) fun i hi => ?_).mono fun _ _ => trivial
      apply XmlAttribute.safe_readAt
      have hcount : 0 < count := by
        show 0 < count.toNat
        omega
      have hleast : XmlAttribute.diskSize ≤ size.toNat := by
        by_contra hless
        exact hsize ⟨hcount, by omega⟩
      -- the attribute and those in front of it take no more than all of them
      have hend : size.toNat * (i + 1) ≤ size.toNat * count.toNat := Nat.mul_le_mul_left _ hi
      rw [Nat.mul_succ] at hend
      omega
    obtain ⟨found, hfound, _⟩ := hattributes.exists_ok
    rw [hfound]
    exact trivial
  · exact rfl

namespace XmlNode

theorem safe_readFields {kind : ChunkKind} {origin : NodeOrigin} :
    Safe (readFields kind b origin) fun _ => True := by
  have helement : Safe (XmlElement.read b origin) fun _ => True := XmlElement.safe_read
  unfold readFields
  split
  case h_3 =>
    cases hread : XmlElement.read b origin with
    | ok element => exact trivial
    | error f => exact helement.fault_eq_none hread
  case h_6 => exact rfl
  all_goals
    split
    · exact trivial
    · exact rfl

/-- A node can be read from every chunk that is framed. -/
theorem safe_read {c : Chunk} (hc : c.Framed) : Safe (read c) fun _ => True := by
  unfold read
  split
  · exact rfl
  rw [hc.frame_eq]
  dsimp only
  split
  · exact safe_readFields
  · exact rfl

end XmlNode

end AppResources
