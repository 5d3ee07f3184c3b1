import AppResources.Encoding.Idmap
import AppResources.Proofs.WrittenRecords

/-!
# Overlay maps are read back

The maps of an overlay are written one behind the other behind a header of fixed size, and are
read back as they were put in, except that maps without entries are dropped.

A map stores 32-bit words, and a lookup answers with an entry index of 16 bits. The answer is
the lower half of the stored word, so that it is the stored number only where the upper half is
zero. Whether lookups in a file give the numbers that were put in is therefore a matter of the
words that a lookup can come to.

## Main definitions

* `OverlayMap.Stores`: the number that a map holds for an entry of the target.
* `OverlayMap.Narrow`: every word that a lookup can come to is an entry index.
* `Idmap.ReadsNumbers`: lookups give the numbers that were put in.

## Main results

* `OverlayMap.lookup?_eq_some_iff`: what a lookup answers.
* `Idmap.load_encode`: a file of maps loads.
* `Idmap.readsNumbers_iff`: when lookups give the numbers that were put in.
-/

namespace AppResources

/-! ## Lookups -/

namespace OverlayMap

variable {m : OverlayMap} {target replacement : UInt16}

/-- The word that a map holds for an entry of the target, if the map covers the entry. -/
def word? (m : OverlayMap) (target : UInt16) : Option UInt32 :=
  if m.firstEntry.toNat ≤ target.toNat then
    m.entries[target.toNat - m.firstEntry.toNat]?
  else none

/-- A map covers an entry of the target and holds a number for it, which is not the mark of
entries without a replacement. -/
structure Stores (m : OverlayMap) (target : UInt16) (number : Nat) : Prop where
  first_le : m.firstEntry.toNat ≤ target.toNat
  lt_last : target.toNat < m.firstEntry.toNat + m.entries.size
  number_eq : m.entries[target.toNat - m.firstEntry.toNat].toNat = number
  ne_absent : m.entries[target.toNat - m.firstEntry.toNat] ≠ absent

/-- Every word that belongs to an entry of the target is an entry index, or the mark of entries
without a replacement. -/
def Narrow (m : OverlayMap) : Prop :=
  ∀ target word, m.word? target = some word → word = absent ∨ word.toNat < 65536

theorem stores_iff {number : Nat} :
    m.Stores target number ↔
      ∃ word, m.word? target = some word ∧ word.toNat = number ∧ word ≠ absent := by
  unfold word?
  constructor
  · rintro ⟨hfirst, hlast, hnumber, hne⟩
    rw [if_pos hfirst]
    exact ⟨_, Array.getElem?_eq_getElem (by omega), hnumber, hne⟩
  · rintro ⟨word, hword, hnumber, hne⟩
    split at hword
    · next hfirst =>
      obtain ⟨hlt, rfl⟩ := Array.getElem?_eq_some_iff.mp hword
      exact ⟨hfirst, by omega, hnumber, hne⟩
    · cases hword

/-- A lookup answers with the lower half of the number that the map holds. -/
theorem lookup?_eq_some_iff :
    m.lookup? target = some replacement ↔
      ∃ number, m.Stores target number ∧ number % 65536 = replacement.toNat := by
  have hword : m.lookup? target = (m.word? target).bind fun word =>
      if word = absent then none else some (UInt16.ofNat word.toNat) := by
    unfold lookup? word?
    by_cases hfirst : target < m.firstEntry
    · have hless := UInt16.lt_iff_toNat_lt.mp hfirst
      rw [if_pos hfirst, if_neg (Nat.not_le_of_lt hless), Option.bind_none]
    · have hle := Nat.le_of_not_lt (mt UInt16.lt_iff_toNat_lt.mpr hfirst)
      rw [if_neg hfirst, if_pos hle]
      cases m.entries[target.toNat - m.firstEntry.toNat]? <;> rfl
  have hhalf : ∀ word : UInt32, UInt16.ofNat word.toNat = replacement ↔
      word.toNat % 65536 = replacement.toNat := by
    intro word
    rw [← UInt16.toNat_inj, UInt16.toNat_ofNat']
  rw [hword, Option.bind_eq_some_iff]
  constructor
  · rintro ⟨word, hfound, hanswer⟩
    split at hanswer
    · cases hanswer
    · next hne =>
      exact ⟨word.toNat, stores_iff.mpr ⟨word, hfound, rfl, hne⟩,
        (hhalf word).mp (Option.some.inj hanswer)⟩
  · rintro ⟨_, hstores, hnumber⟩
    obtain ⟨word, hfound, rfl, hne⟩ := stores_iff.mp hstores
    refine ⟨word, hfound, ?_⟩
    rw [if_neg hne, (hhalf word).mpr hnumber]

/-- Lookups answer with the stored numbers themselves exactly if these are entry indices. -/
theorem forall_lookup?_iff_narrow :
    (∀ target replacement,
      m.lookup? target = some replacement ↔ m.Stores target replacement.toNat) ↔ m.Narrow := by
  constructor
  · intro hall target word hword
    by_cases habsent : word = absent
    · exact .inl habsent
    -- the lookup answers with the lower half, which is then a stored number as well
    have hstores : m.Stores target word.toNat := stores_iff.mpr ⟨word, hword, rfl, habsent⟩
    have hhalf : word.toNat % 65536 = (UInt16.ofNat word.toNat).toNat :=
      UInt16.toNat_ofNat'.symm
    have hagain := (hall target (UInt16.ofNat word.toNat)).mp
      (lookup?_eq_some_iff.mpr ⟨_, hstores, hhalf⟩)
    have hsame : word.toNat = (UInt16.ofNat word.toNat).toNat :=
      hstores.number_eq.symm.trans hagain.number_eq
    rw [hsame]
    exact .inr (UInt16.toNat_lt _)
  · intro hnarrow target replacement
    rw [lookup?_eq_some_iff]
    constructor
    · rintro ⟨_, hstores, hnumber⟩
      obtain ⟨word, hword, rfl, hne⟩ := stores_iff.mp hstores
      have hlt := (hnarrow target word hword).resolve_left hne
      rw [Nat.mod_eq_of_lt hlt] at hnumber
      exact hnumber ▸ hstores
    · exact fun hstores => ⟨_, hstores, Nat.mod_eq_of_lt replacement.toNat_lt⟩

end OverlayMap

/-! ## Maps one behind the other -/

namespace OverlayMap

/-- A map whose ids are not zero and take a byte, and whose entries can be counted. -/
structure Writable (m : OverlayMap) : Prop where
  target_pos : 1 ≤ m.targetType.toNat
  target_le : m.targetType.toNat ≤ 255
  overlay_pos : 1 ≤ m.overlayType.toNat
  overlay_le : m.overlayType.toNat ≤ 255
  few : m.entries.size ≤ 65535

instance : DecidablePred Writable := fun m =>
  decidable_of_iff
    ((1 ≤ m.targetType.toNat ∧ m.targetType.toNat ≤ 255) ∧
      (1 ≤ m.overlayType.toNat ∧ m.overlayType.toNat ≤ 255) ∧ m.entries.size ≤ 65535)
    ⟨fun ⟨⟨htarget, htarget'⟩, ⟨hoverlay, hoverlay'⟩, hfew⟩ =>
        ⟨htarget, htarget', hoverlay, hoverlay', hfew⟩,
      fun h => ⟨⟨h.target_pos, h.target_le⟩, ⟨h.overlay_pos, h.overlay_le⟩, h.few⟩⟩

theorem length_encode (m : OverlayMap) :
    m.encode.length = Idmap.mapHeaderSize + 4 * m.entries.size := by
  simp only [encode, List.length_append, Bytes.length_bytes16,
    Bytes.length_items Bytes.length_bytes32, Array.length_toList, Idmap.mapHeaderSize]

end OverlayMap

namespace Idmap

variable {b : ByteArray} {i : Nat} {m : OverlayMap} {maps found : List OverlayMap}

theorem isId_of_toNat {id : UInt16} (hpos : 1 ≤ id.toNat) (hle : id.toNat ≤ 255) :
    isId id = true := by
  have hne : id ≠ 0 := by
    rintro rfl
    exact absurd hpos (by decide)
  rw [isId, bne_iff_ne.mpr hne, decide_eq_true hle]
  rfl

theorem entriesAt_of_holds {words : List UInt32}
    (h : Bytes.Holds b i (words.flatMap Bytes.bytes32)) :
    entriesAt b i words.length = .ok words := by
  apply mapM_range_eq
  intro k word hk
  exact (h.item Bytes.length_bytes32 hk).word32At

/-- A map is read back from its place. -/
theorem readMap_of_holds (h : Bytes.Holds b i m.encode) (hm : m.Writable) :
    readMap b i = .ok (m, i + m.encode.length) := by
  have hlength := m.length_encode
  have hroom := h.size_le_of_pos (by rw [hlength, mapHeaderSize]; omega)
  rw [hlength, ← Nat.add_assoc] at hroom
  simp only [OverlayMap.encode, Bytes.holds_append_iff, List.length_append,
    Bytes.length_bytes16, Nat.reduceAdd] at h
  obtain ⟨⟨⟨⟨htarget, hoverlay⟩, hcount⟩, hfirst⟩, hentries⟩ := h
  have hcountNat : (UInt16.ofNat m.entries.size).toNat = m.entries.size :=
    UInt16.toNat_ofNat_of_lt' (Nat.lt_succ_of_le hm.few)
  have hminus : Bytes.minus b.size (i + mapHeaderSize) = .ok (b.size - (i + mapHeaderSize)) :=
    if_pos (by omega)
  have hfits : ¬ (b.size - (i + mapHeaderSize)) / 4 < m.entries.size := by omega
  have hwords : entriesAt b (i + mapHeaderSize) m.entries.size = .ok m.entries.toList :=
    entriesAt_of_holds hentries
  simp only [readMap, htarget.word16At, hoverlay.word16At, hcount.word16At, hfirst.word16At,
    checked, Except.mapError, bind, Except.bind, hminus, isId_of_toNat hm.target_pos hm.target_le,
    isId_of_toNat hm.overlay_pos hm.overlay_le, hcountNat, Bool.not_true, Bool.or_self,
    Bool.false_eq_true, if_false, if_neg hfits, hwords]
  rw [hlength, ← Nat.add_assoc]
  rfl

/-- A map that has entries is kept, in the place of an earlier one for its type. -/
def keep (found : List OverlayMap) (m : OverlayMap) : List OverlayMap :=
  if m.entries.isEmpty then found else insertMap m found

/-- The maps that fill a file up to its end are read back. -/
theorem readMaps_of_holds {count : Nat} (hmaps : ∀ m ∈ maps, m.Writable)
    (h : Bytes.Holds b i (maps.flatMap OverlayMap.encode))
    (hsize : b.size = i + (maps.flatMap OverlayMap.encode).length) :
    readMaps b i count found = .ok (count + maps.length, maps.foldl keep found) := by
  induction maps generalizing i count found with
  | nil =>
      rw [readMaps, if_neg (by rw [hsize, mapHeaderSize]; simp)]
      rfl
  | cons m maps ih =>
      obtain ⟨hm, hrest⟩ := List.forall_mem_cons.mp hmaps
      rw [List.flatMap_cons] at h hsize
      rw [List.length_append] at hsize
      obtain ⟨hfirst, hlater⟩ := Bytes.holds_append_iff.mp h
      have hread := readMap_of_holds hfirst hm
      have hlength := m.length_encode
      have hfits : i + mapHeaderSize ≤ b.size := by omega
      rw [readMaps, if_pos hfits]
      split
      · next f hf => cases hf.symm.trans hread
      · next read next hok =>
        cases hok.symm.trans hread
        rw [ih hrest hlater (by omega), List.length_cons, List.foldl_cons, Nat.add_assoc,
          Nat.add_comm 1]
        rfl

/-! ## The map of a type -/

theorem find?_insertMap (m : OverlayMap) (maps : List OverlayMap) (type : Nat) :
    (insertMap m maps).find? (·.overlayType.toNat == type) =
      if m.overlayType.toNat = type then some m
      else maps.find? (·.overlayType.toNat == type) := by
  induction maps with
  | nil =>
      rw [insertMap, List.find?_cons]
      split <;> simp_all
  | cons other rest ih =>
      rw [insertMap]
      split
      · rw [List.find?_cons]
        split <;> simp_all
      split
      · next heq =>
        rw [List.find?_cons, List.find?_cons, heq]
        split <;> simp_all
      · next hne =>
        rw [List.find?_cons, ih, List.find?_cons]
        have htypes : m.overlayType.toNat ≠ other.overlayType.toNat :=
          fun h => hne (UInt16.toNat_inj.mp h)
        split <;> simp_all

theorem find?_keep (found : List OverlayMap) (m : OverlayMap) (type : Nat) :
    (keep found m).find? (·.overlayType.toNat == type) =
      if m.entries.isEmpty = false ∧ m.overlayType.toNat = type then some m
      else found.find? (·.overlayType.toNat == type) := by
  rw [keep]
  cases m.entries.isEmpty with
  | true => simp
  | false => simp [find?_insertMap]

/-- Maps for other types do not matter. -/
theorem find?_foldl_keep_of_forall_ne {type : Nat}
    (h : ∀ m ∈ maps, m.overlayType.toNat ≠ type) :
    (maps.foldl keep found).find? (·.overlayType.toNat == type) =
      found.find? (·.overlayType.toNat == type) := by
  induction maps generalizing found with
  | nil => rfl
  | cons m maps ih =>
      obtain ⟨hm, hrest⟩ := List.forall_mem_cons.mp h
      rw [List.foldl_cons, ih hrest, find?_keep, if_neg fun hcontra => hm hcontra.2]

/-- Of maps for different types, each one that has entries is found. -/
theorem find?_foldl_keep (hdistinct : (maps.map (·.overlayType)).Nodup) (hm : m ∈ maps)
    (hentries : m.entries.isEmpty = false) :
    (maps.foldl keep found).find? (·.overlayType.toNat == m.overlayType.toNat) = some m := by
  obtain ⟨before, after, rfl⟩ := List.append_of_mem hm
  have hafter : ∀ other ∈ after, other.overlayType.toNat ≠ m.overlayType.toNat := by
    intro other hother heq
    rw [List.map_append, List.map_cons] at hdistinct
    have hnotMem := (List.nodup_cons.mp (List.nodup_append.mp hdistinct).2.1).1
    exact hnotMem (UInt16.toNat_inj.mp heq ▸ List.mem_map_of_mem hother)
  rw [List.foldl_append, List.foldl_cons, find?_foldl_keep_of_forall_ne hafter, find?_keep,
    if_pos ⟨hentries, rfl⟩]

/-! ## Files of maps -/

variable {target : UInt16}

/-- A file of maps loads, and has the maps with entries. -/
theorem load_encode (htarget : 1 ≤ target.toNat) (htarget' : target.toNat ≤ 255)
    (hcount : maps.length ≤ 255) (hmaps : ∀ m ∈ maps, m.Writable) :
    ∃ idmap, load (encode target maps).toByteArray = .ok idmap ∧
      idmap.targetPackage.toNat = target.toNat ∧ idmap.maps = maps.foldl keep [] := by
  have hfile := Bytes.holds_toByteArray (encode target maps)
  have hsize : (encode target maps).toByteArray.size =
      headerSize + (maps.flatMap OverlayMap.encode).length := by
    simp only [List.size_toByteArray, encode, List.length_append, Bytes.length_bytes32,
      Bytes.length_bytes16, Bytes.length_zeros, headerSize, Nat.reduceAdd]
  generalize (encode target maps).toByteArray = b at hsize hfile
  simp only [encode, Bytes.holds_append_iff, List.length_append, Bytes.length_bytes32,
    Bytes.length_bytes16, Bytes.length_zeros, Nat.reduceAdd, Nat.zero_add] at hfile
  obtain ⟨⟨⟨⟨⟨⟨⟨hmark, hversion⟩, htargetCrc⟩, hoverlayCrc⟩, _⟩, htargetId⟩, hdeclared⟩,
    hbody⟩ := hfile
  have hcountNat : (UInt16.ofNat maps.length).toNat = maps.length :=
    UInt16.toNat_ofNat_of_lt' (show maps.length < 65536 by omega)
  have hread := @readMaps_of_holds b headerSize maps [] 0 hmaps hbody hsize
  rw [Nat.zero_add] at hread
  have hid := isId_of_toNat htarget htarget'
  simp only [load, hmark.word32?, hversion.word32?, htargetCrc.word32?, hoverlayCrc.word32?,
    htargetId.word16?, hdeclared.word16?, ne_eq, not_true_eq_false, if_false, hid, Bool.not_true,
    Bool.false_eq_true, hcountNat, if_neg (Nat.not_lt_of_le hcount), hread]
  refine ⟨_, rfl, ?_, rfl⟩
  exact UInt8.toNat_ofNat_of_lt' (show target.toNat < 256 by omega)

/-- For every map with entries, lookups give the numbers that the map holds. -/
def ReadsNumbers (idmap : Idmap) (maps : List OverlayMap) : Prop :=
  ∀ m ∈ maps, m.entries ≠ #[] →
    ∃ found, idmap.mapOf? (UInt8.ofNat m.overlayType.toNat) = some found ∧
      ∀ target replacement,
        found.lookup? target = some replacement ↔ m.Stores target replacement.toNat

theorem mapOf?_of_maps_eq {idmap : Idmap} (hidmap : idmap.maps = maps.foldl keep [])
    (hmaps : ∀ m ∈ maps, m.Writable) (hdistinct : (maps.map (·.overlayType)).Nodup)
    (hm : m ∈ maps) (hentries : m.entries ≠ #[]) :
    idmap.mapOf? (UInt8.ofNat m.overlayType.toNat) = some m := by
  have htype : (UInt8.ofNat m.overlayType.toNat).toNat = m.overlayType.toNat :=
    UInt8.toNat_ofNat_of_lt' (Nat.lt_succ_of_le (hmaps m hm).overlay_le)
  rw [mapOf?, hidmap, htype]
  refine find?_foldl_keep hdistinct hm ?_
  rwa [Array.isEmpty_eq_false_iff]

/-- A file of maps for different types loads. A lookup in a map with entries answers with the
lower half of the number that was put in; so the answers are these numbers exactly if all
numbers that a lookup can come to are entry indices. -/
theorem readsNumbers_iff (htarget : 1 ≤ target.toNat) (htarget' : target.toNat ≤ 255)
    (hcount : maps.length ≤ 255) (hmaps : ∀ m ∈ maps, m.Writable)
    (hdistinct : (maps.map (·.overlayType)).Nodup) :
    ∃ idmap, load (encode target maps).toByteArray = .ok idmap ∧
      (idmap.ReadsNumbers maps ↔ ∀ m ∈ maps, m.Narrow) ∧
      ∀ m ∈ maps, m.entries ≠ #[] →
        ∃ found, idmap.mapOf? (UInt8.ofNat m.overlayType.toNat) = some found ∧
          ∀ target replacement, found.lookup? target = some replacement ↔
            ∃ number, m.Stores target number ∧ number % 65536 = replacement.toNat := by
  obtain ⟨idmap, hload, -, hidmap⟩ := load_encode htarget htarget' hcount hmaps
  have hfound := fun m => @mapOf?_of_maps_eq m maps idmap hidmap hmaps hdistinct
  refine ⟨idmap, hload, ⟨fun hreads m hm => ?_, fun hnarrow m hm hentries => ?_⟩,
    fun m hm hentries => ⟨m, hfound m hm hentries, fun _ _ => OverlayMap.lookup?_eq_some_iff⟩⟩
  · by_cases hentries : m.entries = #[]
    · -- a map without entries holds no words
      intro target word hword
      rw [OverlayMap.word?, hentries] at hword
      split at hword <;> cases hword
    · obtain ⟨found, hmap, hlookups⟩ := hreads m hm hentries
      cases hmap.symm.trans (hfound m hm hentries)
      exact OverlayMap.forall_lookup?_iff_narrow.mp hlookups
  · exact ⟨m, hfound m hm hentries, OverlayMap.forall_lookup?_iff_narrow.mpr (hnarrow m hm)⟩

/-- A map with a gap, and a map without entries. -/
def gappedMaps : List OverlayMap :=
  [⟨2, 1, 3, #[0, 0xffffffff, 5]⟩, ⟨3, 2, 0, #[]⟩]

theorem readsNumbers_gapped :
    gappedMaps.length ≤ 255 ∧ (∀ m ∈ gappedMaps, m.Writable) ∧
      (gappedMaps.map (·.overlayType)).Nodup ∧
      ∃ idmap, load (encode 0x7f gappedMaps).toByteArray = .ok idmap ∧
        idmap.ReadsNumbers gappedMaps := by
  have hwritable : ∀ m ∈ gappedMaps, m.Writable := by decide
  have hdistinct : (gappedMaps.map (·.overlayType)).Nodup := by decide
  obtain ⟨idmap, hload, hreads, -⟩ :=
    @readsNumbers_iff gappedMaps 0x7f (by decide) (by decide) (by decide) hwritable hdistinct
  refine ⟨by decide, hwritable, hdistinct, idmap, hload, hreads.mpr ?_⟩
  intro m hm target word hword
  have hsmall : ∀ m ∈ gappedMaps, ∀ word ∈ m.entries.toList,
      word = OverlayMap.absent ∨ word.toNat < 65536 := by
    simp [gappedMaps, OverlayMap.absent]
  unfold OverlayMap.word? at hword
  split at hword
  · exact hsmall m hm word (Array.mem_toList_iff.mpr (Array.mem_of_getElem? hword))
  · cases hword

/-- A map whose word exceeds an entry index. -/
def wideMap : OverlayMap := ⟨1, 1, 0, #[0x10005]⟩

/-- Lookups do not always give the numbers that were put in: the word 0x10005 is answered as
the entry 5. -/
theorem not_forall_readsNumbers :
    ¬ ∀ (target : UInt16) (maps : List OverlayMap), 1 ≤ target.toNat → target.toNat ≤ 255 →
      maps.length ≤ 255 → (∀ m ∈ maps, m.Writable) → (maps.map (·.overlayType)).Nodup →
        ∃ idmap, load (encode target maps).toByteArray = .ok idmap ∧ idmap.ReadsNumbers maps := by
  intro hall
  have hwritable : ∀ m ∈ [wideMap], m.Writable := by decide
  have hdistinct : ([wideMap].map (·.overlayType)).Nodup := by decide
  obtain ⟨read, hread, hnumbers⟩ :=
    hall 0x7f [wideMap] (by decide) (by decide) (by decide) hwritable hdistinct
  obtain ⟨idmap, hload, -, hidmap⟩ :=
    @load_encode [wideMap] 0x7f (by decide) (by decide) (by decide) hwritable
  cases hload.symm.trans hread
  have hmem : wideMap ∈ [wideMap] := List.mem_singleton_self _
  have hentries : wideMap.entries ≠ #[] := by decide
  obtain ⟨found, hmap, hlookups⟩ := hnumbers wideMap hmem hentries
  cases hmap.symm.trans (mapOf?_of_maps_eq hidmap hwritable hdistinct hmem hentries)
  have hanswer : wideMap.lookup? 0 = some 5 := by decide
  have hheld : wideMap.word? 0 = some 0x10005 := by decide
  obtain ⟨word, hword, hnumber, -⟩ := OverlayMap.stores_iff.mp ((hlookups 0 5).mp hanswer)
  cases hheld.symm.trans hword
  exact absurd hnumber (by decide)

end Idmap

end AppResources
