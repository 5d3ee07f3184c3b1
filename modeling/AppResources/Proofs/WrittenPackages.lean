import AppResources.Proofs.PoolRoundTrip
import AppResources.Proofs.WrittenTypes

/-!
# Written packages are read back

A package is written as its two pools of names, its libraries and its types, one behind the
other. The pools are known by their offsets within the package, the types are found in
ascending order, and every type is put into the slot below its id.

## Main definitions

* `PackageSource.chunks`: the chunks inside a package before they are written.
* `PackageSource.Writable`: a package whose numbers and names can be written.
* `PackageSource.loaded`: the package that is read back.

## Main results

* `TypeSpec.slotsOf_loaded`: the slots of types under ascending numbers.
* `PackageSource.Writable.load_parts`: a package is read back from its chunk.
* `PackageSource.Writable.load_parts_of_offset`: a package whose offset exceeds a byte is refused.
-/

namespace AppResources

/-! ## Slots -/

namespace TypeSpec

theorem placeAt_eq {s : TypeSpec} {i : Nat} {slots : List (Option TypeSpec)}
    (h : slots.length ≤ i) :
    s.placeAt i slots = slots ++ List.replicate (i - slots.length) none ++ [some s] := by
  induction i generalizing slots with
  | zero =>
      rw [List.eq_nil_of_length_eq_zero (Nat.eq_zero_of_le_zero h)]
      rfl
  | succ i ih =>
      cases slots with
      | nil =>
          rw [placeAt, ih (Nat.zero_le _)]
          rfl
      | cons slot rest =>
          rw [List.length_cons] at h ⊢
          rw [placeAt, ih (Nat.le_of_succ_le_succ h), Nat.add_sub_add_right]
          rfl

end TypeSpec

namespace TypeSource

variable {types : List (Nat × TypeSource)} {number : Nat} {t : TypeSource}

/-- The types that are read back. -/
def loadedAll (types : List (Nat × TypeSource)) : List TypeSpec :=
  types.map fun t => t.2.loaded (UInt8.ofNat t.1)

theorem loadedAll_concat (types : List (Nat × TypeSource)) (number : Nat) (t : TypeSource) :
    loadedAll (types ++ [(number, t)]) = loadedAll types ++ [t.loaded (UInt8.ofNat number)] := by
  rw [loadedAll, List.map_append, List.map_singleton]
  rfl

/-- The slots of the types that are read back. -/
def slots (types : List (Nat × TypeSource)) : List (Option TypeSpec) :=
  (List.range (Numbered.bound types - 1)).map fun i =>
    (types.lookup (i + 1)).map (loaded (UInt8.ofNat (i + 1)))

theorem length_slots (types : List (Nat × TypeSource)) :
    (slots types).length = Numbered.bound types - 1 := by
  rw [slots, List.length_map, List.length_range]

theorem bound_le_of_ascending (h : Numbered.Ascending (types ++ [(number, t)])) :
    Numbered.bound types ≤ number := by
  obtain ⟨_, _, hlast⟩ := List.pairwise_append.mp h
  rw [Numbered.bound]
  split
  · next greatest hgreatest =>
    exact hlast greatest (List.mem_of_getLast? hgreatest) (number, t) (List.mem_singleton_self _)
  · exact Nat.zero_le _

/-- A type behind all others stands behind their slots, and the slots between stay empty. -/
theorem slots_concat (h : Numbered.Ascending (types ++ [(number, t)])) (hnumber : 1 ≤ number) :
    slots (types ++ [(number, t)]) =
      slots types ++ List.replicate (number - 1 - (slots types).length) none ++
        [some (t.loaded (UInt8.ofNat number))] := by
  have hbound := bound_le_of_ascending h
  have htypes : Numbered.Ascending types := (List.pairwise_append.mp h).1
  obtain ⟨last, rfl⟩ : ∃ last, number = last + 1 := ⟨number - 1, by omega⟩
  -- below the new number the types are found as before
  have hlookup : ∀ i < last, (types ++ [(last + 1, t)]).lookup (i + 1) = types.lookup (i + 1) := by
    intro i hi
    have hne : ¬ i + 1 = last + 1 := by omega
    rw [List.lookup_append, Numbered.lookup_cons_eq_ite, if_neg hne]
    exact Option.or_none
  have hfound : (types ++ [(last + 1, t)]).lookup (last + 1) = some t :=
    (Numbered.lookup_eq_some_iff h).mpr (List.mem_append_right _ (List.mem_singleton_self _))
  have hrange : List.range last = List.range (Numbered.bound types - 1) ++
      (List.range (last - (Numbered.bound types - 1))).map (Numbered.bound types - 1 + ·) := by
    rw [← List.range_add]
    congr 1
    omega
  have hempty : ∀ i, Numbered.bound types ≤ i → types.lookup i = none := fun i hi =>
    Numbered.lookup_eq_none_of_bound_le htypes hi
  rw [length_slots, slots, Numbered.bound_concat, Nat.add_sub_cancel, Nat.add_sub_cancel,
    List.range_succ, List.map_append, List.map_singleton, hfound, Option.map_some]
  congr 1
  have hsame : ((List.range last).map fun i =>
      ((types ++ [(last + 1, t)]).lookup (i + 1)).map (loaded (UInt8.ofNat (i + 1)))) =
        (List.range last).map fun i =>
          (types.lookup (i + 1)).map (loaded (UInt8.ofNat (i + 1))) :=
    List.map_congr_left fun i hi => by rw [hlookup i (List.mem_range.mp hi)]
  rw [hsame, hrange, List.map_append, slots, List.map_map]
  congr 1
  rw [List.map_eq_replicate_iff.mpr, List.length_range]
  intro i hi
  rw [Function.comp_apply, hempty _ (by omega), Option.map_none]

end TypeSource

namespace TypeSpec

theorem place_loaded {t : TypeSource} {number : Nat} {slots : List (Option TypeSpec)}
    (hpositive : 1 ≤ number) (hsmall : number ≤ 255) :
    place false slots (t.loaded (UInt8.ofNat number)) =
      .ok ((t.loaded (UInt8.ofNat number)).placeAt (number - 1) slots) := by
  have hid : (UInt8.ofNat number).toNat = number :=
    UInt8.toNat_ofNat_of_lt' (show number < 256 by omega)
  have hslot : (t.loaded (UInt8.ofNat number)).slot? false = .ok (some (number - 1)) := by
    show (Bytes.minus (UInt8.ofNat number).toNat 1).map some = _
    rw [hid, Bytes.minus, if_pos hpositive]
    rfl
  rw [place, hslot]

/-- Types under ascending numbers are put into the slots below their ids. -/
theorem slotsOf_loaded {types : List (Nat × TypeSource)}
    (hascending : Numbered.Ascending types) (hnumbers : ∀ t ∈ types, 1 ≤ t.1 ∧ t.1 ≤ 255) :
    slotsOf false (TypeSource.loadedAll types) = .ok (TypeSource.slots types) := by
  induction types using List.reverseRecOn with
  | nil => rfl
  | append_singleton types last ih =>
      obtain ⟨number, t⟩ := last
      obtain ⟨hpositive, hsmall⟩ := hnumbers (number, t) (by simp)
      have hearlier := ih (List.pairwise_append.mp hascending).1
        fun u hu => hnumbers u (List.mem_append_left _ hu)
      have hbound := TypeSource.bound_le_of_ascending hascending
      have hlength : (TypeSource.slots types).length ≤ number - 1 := by
        rw [TypeSource.length_slots]
        omega
      rw [TypeSource.slots_concat hascending hpositive, ← placeAt_eq hlength,
        TypeSource.loadedAll_concat, slotsOf, foldlM_append_of_ok hearlier]
      exact foldlM_cons_of_ok (place_loaded hpositive hsmall)

end TypeSpec

/-! ## The content of a package -/

section Content

variable {header : PackageHeader} {start position : Nat} {found : PackageContent}

/-- The chunks of types under ascending numbers add the types in order. -/
theorem TypeSource.foldlM_allChunks {types : List (Nat × TypeSource)}
    (hascending : Numbered.Ascending types)
    (htypes : ∀ t ∈ types, t.2.Writable (UInt8.ofNat t.1))
    (hsmall : ∀ t ∈ types, ∀ c ∈ t.2.chunks (UInt8.ofNat t.1), c.size < 4294967296)
    (hnumbers : ∀ t ∈ types, header.typeIdOffset.toNat + t.1 ≤ 255)
    (hspecs : ∀ t ∈ types, ∀ s ∈ found.specs, s.id.toNat < t.1) (hposition : start ≤ position) :
    (ChunkParts.placeAll position (types.flatMap fun t => t.2.chunks (UInt8.ofNat t.1))).foldlM
        (PackageContent.addChunk none header start) found =
      .ok { found with specs := found.specs ++ loadedAll types } := by
  induction types generalizing found position with
  | nil =>
      rw [loadedAll, List.map_nil, List.append_nil]
      rfl
  | cons first types ih =>
      obtain ⟨hfirst, hrest⟩ := List.pairwise_cons.mp hascending
      obtain ⟨hwritable, hwritables⟩ := List.forall_mem_cons.mp htypes
      obtain ⟨hsmallFirst, hsmallRest⟩ := List.forall_mem_cons.mp hsmall
      obtain ⟨hnumber, hnumbersRest⟩ := List.forall_mem_cons.mp hnumbers
      obtain ⟨hspecsFirst, hspecsRest⟩ := List.forall_mem_cons.mp hspecs
      have hid : (UInt8.ofNat first.1).toNat = first.1 :=
        UInt8.toNat_ofNat_of_lt' (show first.1 < 256 by omega)
      have hbelow : ∀ s ∈ found.specs, s.id < UInt8.ofNat first.1 := by
        intro s hs
        rw [UInt8.lt_iff_toNat_lt, hid]
        exact hspecsFirst s hs
      have hadd := @TypeSource.foldlM_chunks header start position found first.2
        (UInt8.ofNat first.1) hwritable hsmallFirst hbelow (hid.symm ▸ hnumber) hposition
      have hbelowRest : ∀ t ∈ types,
          ∀ s ∈ found.specs ++ [first.2.loaded (UInt8.ofNat first.1)], s.id.toNat < t.1 := by
        intro t ht s hs
        obtain hold | hnew := List.mem_append.mp hs
        · exact hspecsRest t ht s hold
        · rw [List.mem_singleton.mp hnew]
          show (UInt8.ofNat first.1).toNat < t.1
          rw [hid]
          exact hfirst t ht
      have hlater := @ih
        (position + ((first.2.chunks (UInt8.ofNat first.1)).flatMap ChunkParts.bytes).length)
        { found with specs := found.specs ++ [first.2.loaded (UInt8.ofNat first.1)] }
        hrest hwritables hsmallRest hnumbersRest hbelowRest (by omega)
      rw [List.flatMap_cons, ChunkParts.placeAll_append, foldlM_append_of_ok hadd, hlater,
        List.append_assoc]
      rfl

end Content

namespace PackageSource

variable {p : PackageSource} {position : Nat}

/-- The pool of the names of types. -/
def typePool (p : PackageSource) : ChunkParts :=
  StringPool.parts false false p.allTypeNames

/-- The pool of the names of entries. -/
def keyPool (p : PackageSource) : ChunkParts :=
  StringPool.parts true false p.keyNames

/-- The list of libraries, which is left out where there are none. -/
def libraryChunks (p : PackageSource) : List ChunkParts :=
  if p.libraries.isEmpty then [] else [Library.parts p.libraries]

/-- The chunks of all types. -/
def typeChunks (p : PackageSource) : List ChunkParts :=
  p.types.flatMap fun t => t.2.chunks (UInt8.ofNat t.1)

/-- The chunks inside a package before they are written. -/
def chunks (p : PackageSource) : List ChunkParts :=
  [p.typePool, p.keyPool] ++ p.libraryChunks ++ p.typeChunks

/-- The header that is read back. -/
def header (p : PackageSource) : PackageHeader where
  id := p.id
  name := p.name
  typeStrings := UInt32.ofNat headerSize
  lastPublicType := UInt32.ofNat p.allTypeNames.length
  keyStrings := UInt32.ofNat (headerSize + p.typePool.size)
  lastPublicKey := UInt32.ofNat p.keyNames.length
  typeIdOffset := p.typeIdOffset

/-- The chunk of a package before it is written. -/
def parts (p : PackageSource) : ChunkParts where
  kind := .tablePackage
  header := p.header.record
  body := p.chunks.flatMap ChunkParts.bytes

theorem bytes_typePool (p : PackageSource) :
    p.typePool.bytes = StringPool.encode false false p.allTypeNames :=
  StringPool.bytes_parts _ _ _

theorem bytes_keyPool (p : PackageSource) :
    p.keyPool.bytes = StringPool.encode true false p.keyNames :=
  StringPool.bytes_parts _ _ _

theorem bytes_libraryChunks (p : PackageSource) :
    p.libraryChunks.flatMap ChunkParts.bytes =
      if p.libraries.isEmpty then [] else LibrarySource.encodeAll p.libraries := by
  rw [libraryChunks]
  split
  · rfl
  · exact List.append_nil _

theorem bytes_typeChunks (p : PackageSource) :
    p.typeChunks.flatMap ChunkParts.bytes =
      p.types.flatMap fun t => t.2.encode (UInt8.ofNat t.1) := by
  rw [typeChunks, List.flatMap_assoc]
  simp only [TypeSource.flatMap_bytes_chunks]

theorem bytes_parts (hplain : p.extraChunks = []) : p.parts.bytes = p.encode := by
  have hpool : p.typePool.size = (StringPool.encode false false p.allTypeNames).length := by
    rw [← ChunkParts.length_bytes, bytes_typePool]
  show Chunk.encode p.parts.kind p.parts.header p.parts.body = p.encode
  simp only [parts, encode, hplain, chunks, header, PackageHeader.record,
    hpool, List.flatMap_append, List.flatMap_cons, List.flatMap_nil, bytes_typePool,
    bytes_keyPool, bytes_libraryChunks, bytes_typeChunks, List.flatten_nil, List.append_nil]

/-- A package whose numbers and names can be written. -/
structure Writable (p : PackageSource) : Prop where
  plain : p.extraChunks = []
  id_le : p.id.toNat ≤ 255
  name_short : (Text.unitsOf p.name).length < 128
  name_plain : '\x00' ∉ p.name.toList
  keys_short : ∀ s ∈ p.keyNames, (Text.utf8Bytes s).length < 32768
  libraries : ∀ l ∈ p.libraries, l.Writable
  ascending : Numbered.Ascending p.types
  numbers : ∀ t ∈ p.types, 1 ≤ t.1 ∧ p.typeIdOffset.toNat + t.1 ≤ 255
  types : ∀ t ∈ p.types, t.2.Writable (UInt8.ofNat t.1)
  small : p.parts.size < 4294967296

/-- What is found in the chunks of the package. -/
def content (p : PackageSource) : PackageContent where
  typeNames := some (StringPool.written false false p.allTypeNames)
  keyNames := some (StringPool.written true false p.keyNames)
  specs := TypeSource.loadedAll p.types
  libraries := p.libraries.map LibrarySource.loaded

theorem size_parts (p : PackageSource) :
    p.parts.size = headerSize + (p.chunks.flatMap ChunkParts.bytes).length := by
  rw [ChunkParts.size, parts, PackageHeader.length_record]
  rfl

theorem Writable.chunk_small (h : p.Writable) {c : ChunkParts} (hc : c ∈ p.chunks) :
    c.size < 4294967296 := by
  have hle := ChunkParts.size_le_of_mem hc
  have hsmall := h.small
  rw [size_parts] at hsmall
  omega

theorem Writable.chunk_fits (h : p.Writable) : ∀ c ∈ p.chunks, c.Fits := by
  intro c hc
  have hsmall := h.chunk_small hc
  obtain hfront | htype := List.mem_append.mp hc
  · obtain hpool | hlibrary := List.mem_append.mp hfront
    · obtain rfl | hkeys := List.mem_cons.mp hpool
      · exact StringPool.fits_parts hsmall
      · rw [List.mem_singleton.mp hkeys] at hsmall ⊢
        exact StringPool.fits_parts hsmall
    · rw [libraryChunks] at hlibrary
      split at hlibrary
      · cases hlibrary
      · rw [List.mem_singleton.mp hlibrary] at hsmall ⊢
        exact Library.fits_parts hsmall
  · obtain ⟨t, ht, hct⟩ := List.mem_flatMap.mp htype
    refine (h.types t ht).fits ?_ c hct
    intro other hother
    exact h.chunk_small (List.mem_append_right _ (List.mem_flatMap.mpr ⟨t, ht, hother⟩))

theorem Writable.fits (h : p.Writable) : p.parts.Fits where
  known := rfl
  headerAligned := by rw [parts, PackageHeader.length_record]
  bodyAligned := ChunkParts.length_flatMap_bytes_mod h.chunk_fits
  headerSmall := by
    rw [parts, PackageHeader.length_record]
    decide
  small := h.small

/-! ### The chunks of a package one by one -/

theorem typePool_mem (p : PackageSource) : p.typePool ∈ p.chunks := by
  simp [chunks]

theorem keyPool_mem (p : PackageSource) : p.keyPool ∈ p.chunks := by
  simp [chunks]

/-- The first pool stands right behind the header. -/
theorem Writable.addChunk_typePool (h : p.Writable) (position : Nat) :
    PackageContent.addChunk none p.header position {}
        (p.typePool.placed (position + headerSize)) =
      .ok { typeNames := some (StringPool.written false false p.allTypeNames) } := by
  have hload := @StringPool.load_encode false false p.allTypeNames (h.chunk_small p.typePool_mem)
  rw [PackageContent.addChunk_placed (Nat.le_add_right _ _), Nat.add_sub_cancel_left]
  show PackageContent.addPool p.header (UInt32.ofNat headerSize) _ _ = _
  have hoffset : p.header.typeStrings = UInt32.ofNat headerSize := rfl
  rw [PackageContent.addPool, if_pos hoffset.symm, ChunkParts.bytes_placed, bytes_typePool, hload]

/-- The second pool stands behind the first one, and is not taken for it. -/
theorem Writable.addChunk_keyPool (h : p.Writable) (position : Nat) :
    PackageContent.addChunk none p.header position
        { typeNames := some (StringPool.written false false p.allTypeNames) }
        (p.keyPool.placed (position + headerSize + p.typePool.size)) =
      .ok { typeNames := some (StringPool.written false false p.allTypeNames)
            keyNames := some (StringPool.written true false p.keyNames) } := by
  have hload := @StringPool.load_encode true false p.keyNames (h.chunk_small p.keyPool_mem)
  have hsmall := h.small
  have hpool := ChunkParts.size_le_of_mem p.typePool_mem
  have hpositive : 0 < p.typePool.size := by
    simp only [ChunkParts.size, chunkHeaderSize]
    omega
  rw [size_parts, headerSize] at hsmall
  have hne : UInt32.ofNat (headerSize + p.typePool.size) ≠ p.header.typeStrings := by
    intro heq
    have hnat := congrArg UInt32.toNat heq
    have hfirst : p.header.typeStrings.toNat = 288 := rfl
    rw [hfirst, UInt32.toNat_ofNat', headerSize, Nat.mod_eq_of_lt (by omega)] at hnat
    omega
  rw [PackageContent.addChunk_placed (by omega), Nat.add_assoc, Nat.add_sub_cancel_left]
  show PackageContent.addPool p.header (UInt32.ofNat (headerSize + p.typePool.size)) _ _ = _
  have hoffset : p.header.keyStrings = UInt32.ofNat (headerSize + p.typePool.size) := rfl
  rw [PackageContent.addPool, if_neg hne, if_pos hoffset.symm, ChunkParts.bytes_placed,
    bytes_keyPool, hload]

theorem Writable.foldlM_libraryChunks (h : p.Writable) {start position : Nat}
    {found : PackageContent} (hposition : start ≤ position) (hnone : found.libraries = []) :
    (ChunkParts.placeAll position p.libraryChunks).foldlM
        (PackageContent.addChunk none p.header start) found =
      .ok { found with libraries := p.libraries.map LibrarySource.loaded } := by
  have hsmall : ∀ c ∈ p.libraryChunks, c.size < 4294967296 := fun c hc =>
    h.chunk_small (List.mem_append_left _ (List.mem_append_right _ hc))
  rw [libraryChunks] at hsmall ⊢
  split
  · next hempty =>
    rw [List.isEmpty_iff.mp hempty, List.map_nil, ← hnone]
    rfl
  · next hsome =>
    rw [if_neg hsome] at hsmall
    have hread := Library.readAll_parts h.libraries (hsmall _ (List.mem_singleton_self _)) position
    have hadd : PackageContent.addChunk none p.header start found
        ((Library.parts p.libraries).placed position) =
          .ok { found with libraries := p.libraries.map LibrarySource.loaded } := by
      rw [PackageContent.addChunk_placed hposition]
      show PackageContent.addLibraries _ found = _
      rw [PackageContent.addLibraries, hread, hnone]
      rfl
    exact foldlM_cons_of_ok hadd

/-- All chunks of a package together give its content. -/
theorem Writable.foldlM_chunks (h : p.Writable) (position : Nat) :
    (ChunkParts.placeAll (position + headerSize) p.chunks).foldlM
        (PackageContent.addChunk none p.header position) {} = .ok p.content := by
  have hlibraries := fun q => @Writable.foldlM_libraryChunks p h position q
    { typeNames := some (StringPool.written false false p.allTypeNames)
      keyNames := some (StringPool.written true false p.keyNames) }
  have htypes := fun q => @TypeSource.foldlM_allChunks p.header position q
    { typeNames := some (StringPool.written false false p.allTypeNames)
      keyNames := some (StringPool.written true false p.keyNames)
      libraries := p.libraries.map LibrarySource.loaded } p.types h.ascending h.types
    (by
      intro t ht c hc
      exact h.chunk_small (List.mem_append_right _ (List.mem_flatMap.mpr ⟨t, ht, hc⟩)))
    (fun t ht => (h.numbers t ht).2) (by intro t ht s hs; cases hs)
  rw [chunks, List.append_assoc, List.cons_append, List.singleton_append, ChunkParts.placeAll,
    foldlM_cons_of_ok (h.addChunk_typePool position), ChunkParts.placeAll,
    foldlM_cons_of_ok (h.addChunk_keyPool position), ChunkParts.placeAll_append,
    foldlM_append_of_ok (hlibraries _ (by omega) rfl), typeChunks, htypes _ (by omega)]
  rfl

/-! ### The package -/

/-- The package that is read back. -/
def loaded (p : PackageSource) (mode : LoadMode) : Package :=
  .ofContent mode p.header p.content (TypeSource.slots p.types)

theorem Writable.load_parts_eq (h : p.Writable) {mode : LoadMode} (hmode : mode.idmap = none)
    (hposition : position % 4 = 0) :
    Package.load (p.parts.placed position) mode =
      if 255 < p.typeIdOffset then .error .typeOffsetTooLarge else .ok (p.loaded mode) := by
  have hlength : chunkHeaderSize + p.parts.header.length = headerSize := by
    rw [parts, PackageHeader.length_record]
    rfl
  have hleast : ¬ (p.parts.placed position).headerSize < Package.minHeaderSize := by
    rw [ChunkParts.headerSize_placed, hlength]
    decide
  have hframe := ChunkParts.frame_placed p.parts position
  have hread : PackageHeader.read? p.parts.header.toByteArray = some (p.header, 280) :=
    PackageHeader.read?_record h.name_short h.name_plain
  have hid : ¬ 255 < p.header.id := by
    have hle := h.id_le
    rw [UInt32.lt_iff_toNat_lt]
    exact Nat.not_lt_of_le hle
  have hpayload : (p.parts.placed position).payloadPosition = position + headerSize := by
    rw [Chunk.payloadPosition, ChunkParts.position_placed, ChunkParts.headerSize_placed, hlength]
  have hwalk : walkAt p.parts.body.toByteArray (position + headerSize) =
      ⟨ChunkParts.placeAll (position + headerSize) p.chunks, none⟩ :=
    ChunkParts.walkAt_bytes h.chunk_fits (by rw [headerSize]; omega)
  have hslots : TypeSpec.slotsOf false p.content.specs = .ok (TypeSource.slots p.types) :=
    TypeSpec.slotsOf_loaded h.ascending fun t ht =>
      ⟨(h.numbers t ht).1, by have := (h.numbers t ht).2; omega⟩
  simp only [Package.load, if_neg hleast, hframe, hread, if_neg hid, hpayload,
    hwalk, hmode, ChunkParts.position_placed, h.foldlM_chunks position, bind, Except.bind,
    Option.isSome_none, hslots]
  rfl

/-- A package is read back from its chunk. -/
theorem Writable.load_parts (h : p.Writable) (hoffset : p.typeIdOffset.toNat ≤ 255)
    {mode : LoadMode} (hmode : mode.idmap = none) (hposition : position % 4 = 0) :
    Package.load (p.parts.placed position) mode = .ok (p.loaded mode) := by
  rw [h.load_parts_eq hmode hposition]
  exact if_neg (mt UInt32.lt_iff_toNat_lt.mp (Nat.not_lt_of_le hoffset))

/-- A package is refused if its offset exceeds a byte, even if it has no types. -/
theorem Writable.load_parts_of_offset (h : p.Writable) (hoffset : 255 < p.typeIdOffset.toNat)
    {mode : LoadMode} (hmode : mode.idmap = none) (hposition : position % 4 = 0) :
    Package.load (p.parts.placed position) mode = .error .typeOffsetTooLarge := by
  rw [h.load_parts_eq hmode hposition]
  have hlarge : 255 < p.typeIdOffset := UInt32.lt_iff_toNat_lt.mpr hoffset
  exact if_pos hlarge

end PackageSource

end AppResources
