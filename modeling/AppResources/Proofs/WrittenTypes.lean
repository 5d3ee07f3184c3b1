import AppResources.Proofs.NumberedLists
import AppResources.Proofs.WrittenVariants
import AppResources.Table.Package

/-!
# Written types and libraries are read back

A type is written as a type spec with its variants behind it. The chunks of a type add one
type with all its variants to what was found in a package before, and the list of libraries
adds the libraries.

## Main definitions

* `TypeSource.chunks`: the chunks of a type before they are written.
* `TypeSource.loaded`: the type that is read back.

## Main results

* `PackageHeader.read?_of_holds`: the header of a package is read back.
* `Library.readAll_parts`: libraries are read back from their chunk.
* `TypeSource.foldlM_chunks`: the chunks of a type add the type to a package.
-/

namespace AppResources

/-! ## Type specs -/

namespace TypeSpecHeader

variable {id : UInt8} {axes : List Axes}

/-- The chunk of a type spec before it is written. -/
def parts (id : UInt8) (axes : List Axes) : ChunkParts where
  kind := .tableTypeSpec
  header := [id, 0] ++ Bytes.bytes16 0 ++ Bytes.bytes32 (UInt32.ofNat axes.length)
  body := axes.flatMap fun a => Bytes.bytes32 a.bits

theorem bytes_parts (id : UInt8) (axes : List Axes) : (parts id axes).bytes = encode id axes := rfl

theorem length_body_parts (id : UInt8) (axes : List Axes) :
    (parts id axes).body.length = 4 * axes.length :=
  Bytes.length_items fun _ => rfl

theorem fits_parts (hsmall : (parts id axes).size < 4294967296) : (parts id axes).Fits where
  known := rfl
  headerAligned := by
    show (8 : Nat) % 4 = 0
    decide
  bodyAligned := by
    rw [length_body_parts]
    omega
  headerSmall := by
    show (16 : Nat) < 65536
    decide
  small := hsmall

theorem axesAt_of_holds {b : ByteArray} {i : Nat}
    (h : Bytes.Holds b i (axes.flatMap fun a => Bytes.bytes32 a.bits)) :
    axesAt b i axes.length = .ok axes := by
  apply mapM_range_eq
  intro k a hk
  have hword : Bytes.Holds b (i + 4 * k) (Bytes.bytes32 a.bits) := h.item (fun _ => rfl) hk
  rw [hword.word32At]
  rfl

theorem read_parts (hid : id ≠ 0) (hfew : axes.length ≤ Variant.maxEntries) (position : Nat) :
    read ((parts id axes).placed position) = .ok ⟨id, 0, 0, axes.toArray⟩ := by
  have hframe := ChunkParts.frame_placed (parts id axes) position
  have hfields := Bytes.holds_toByteArray (parts id axes).header
  have hsize : (parts id axes).body.toByteArray.size = 4 * axes.length := by
    rw [List.size_toByteArray, length_body_parts]
  have haxes : axesAt (parts id axes).body.toByteArray 0 axes.length = .ok axes :=
    axesAt_of_holds (Bytes.holds_toByteArray _)
  generalize (parts id axes).header.toByteArray = header at hfields hframe
  simp only [parts, Bytes.holds_append_iff, Bytes.holds_cons_iff, List.length_append,
    List.length_cons, List.length_nil, Bytes.length_bytes16, Nat.reduceAdd, and_assoc] at hfields
  obtain ⟨hidByte, hreserved, _, hvariants, hcount⟩ := hfields
  have hcountNat : (UInt32.ofNat axes.length).toNat = axes.length := by
    rw [Variant.maxEntries] at hfew
    exact UInt32.toNat_ofNat_of_lt' (show axes.length < 4294967296 by omega)
  simp only [read, hframe, hidByte, hreserved, hvariants.word16?, hcount.word32?, if_neg hid,
    hcountNat, if_neg (Nat.not_lt_of_le hfew), hsize, Nat.lt_irrefl, if_false, haxes]

end TypeSpecHeader

/-! ## Libraries -/

/-- The library that is read back. -/
def LibrarySource.loaded (l : LibrarySource) : Library :=
  ⟨UInt8.ofNat l.buildId.toNat, l.name⟩

/-- A library whose id and name can be written. -/
structure LibrarySource.Writable (l : LibrarySource) : Prop where
  id_lt : l.buildId < 255
  name_short : (Text.unitsOf l.name).length < 128
  name_plain : '\x00' ∉ l.name.toList

instance : DecidablePred LibrarySource.Writable := fun l =>
  decidable_of_iff
    (l.buildId < 255 ∧ (Text.unitsOf l.name).length < 128 ∧ '\x00' ∉ l.name.toList)
    ⟨fun ⟨hid, hshort, hplain⟩ => ⟨hid, hshort, hplain⟩,
      fun h => ⟨h.id_lt, h.name_short, h.name_plain⟩⟩

namespace Library

variable {libraries : List LibrarySource}

/-- The chunk that lists libraries before it is written. -/
def parts (libraries : List LibrarySource) : ChunkParts where
  kind := .tableLibrary
  header := Bytes.bytes32 (UInt32.ofNat libraries.length)
  body := libraries.flatMap fun l => Bytes.bytes32 l.buildId ++ Bytes.fixedName 128 l.name

theorem bytes_parts (libraries : List LibrarySource) :
    (parts libraries).bytes = LibrarySource.encodeAll libraries := rfl

theorem length_item (l : LibrarySource) :
    (Bytes.bytes32 l.buildId ++ Bytes.fixedName 128 l.name).length = diskSize := by
  rw [List.length_append, Bytes.length_bytes32, Bytes.length_fixedName]
  rfl

theorem length_body_parts (libraries : List LibrarySource) :
    (parts libraries).body.length = diskSize * libraries.length :=
  Bytes.length_items length_item

theorem fits_parts (hsmall : (parts libraries).size < 4294967296) : (parts libraries).Fits where
  known := rfl
  headerAligned := by
    show (4 : Nat) % 4 = 0
    decide
  bodyAligned := by
    rw [length_body_parts]
    simp only [diskSize, nameSize]
    omega
  headerSmall := by
    show (12 : Nat) < 65536
    decide
  small := hsmall

theorem readAt_of_holds {b : ByteArray} {i : Nat} {l : LibrarySource} (hl : l.Writable)
    (h : Bytes.Holds b i (Bytes.bytes32 l.buildId ++ Bytes.fixedName 128 l.name)) :
    readAt b i = .ok l.loaded := by
  obtain ⟨hid, hname⟩ := Bytes.holds_append_iff.mp h
  rw [Bytes.length_bytes32] at hname
  have hroom := h.size_le_of_pos (by rw [length_item]; decide)
  rw [length_item] at hroom
  have hslice := hname.slice (by simp only [diskSize, nameSize] at hroom; omega)
  rw [Bytes.length_fixedName] at hslice
  have hstop : i + diskSize = i + 4 + 2 * 128 := rfl
  have hsmall : ¬ maxId < l.buildId.toNat := by
    have hlt := hl.id_lt
    rw [UInt32.lt_iff_toNat_lt] at hlt
    have hbound : (255 : UInt32).toNat = 255 := rfl
    simp only [maxId]
    omega
  simp only [readAt, hid.word32At, hstop, hslice, if_neg hsmall, List.data_toByteArray,
    Text.fixedUtf16_fixedName hl.name_short hl.name_plain]
  rfl

/-- Libraries are read back from their chunk. -/
theorem readAll_parts (hlibraries : ∀ l ∈ libraries, l.Writable)
    (hsmall : (parts libraries).size < 4294967296) (position : Nat) :
    readAll ((parts libraries).placed position) = .ok (libraries.map LibrarySource.loaded) := by
  have hframe := ChunkParts.frame_placed (parts libraries) position
  have hbody := Bytes.holds_toByteArray (parts libraries).body
  have hcount : Bytes.word32? (parts libraries).header.toByteArray 0 =
      some (UInt32.ofNat libraries.length) := (Bytes.holds_toByteArray _).word32?
  have hlength := length_body_parts libraries
  have hsize : (parts libraries).size = 12 + (parts libraries).body.length := rfl
  have hcountNat : (UInt32.ofNat libraries.length).toNat = libraries.length := by
    simp only [diskSize, nameSize] at hlength
    exact UInt32.toNat_ofNat_of_lt' (show libraries.length < 4294967296 by omega)
  have hroom : (parts libraries).body.toByteArray.size / diskSize = libraries.length := by
    rw [List.size_toByteArray, hlength]
    exact Nat.mul_div_cancel_left _ (by decide)
  have hitems : (List.range (libraries.map LibrarySource.loaded).length).mapM
      (fun i => readAt (parts libraries).body.toByteArray (diskSize * i)) =
        .ok (libraries.map LibrarySource.loaded) := by
    apply mapM_range_eq
    intro k library hk
    rw [List.getElem?_map] at hk
    obtain ⟨l, hl, rfl⟩ := Option.map_eq_some_iff.mp hk
    have hitem := hbody.item length_item hl
    rw [Nat.zero_add] at hitem
    exact readAt_of_holds (hlibraries l (List.mem_of_getElem? hl)) hitem
  rw [List.length_map] at hitems
  simp only [readAll, hframe, hcount, hcountNat, hroom, Nat.lt_irrefl, if_false, hitems]

end Library

/-! ## Headers of packages -/

namespace PackageHeader

variable {h : PackageHeader}

/-- The bytes of the header of a package, with the offset of its type ids. -/
def record (h : PackageHeader) : List UInt8 :=
  Bytes.bytes32 h.id ++ Bytes.fixedName 128 h.name ++ Bytes.bytes32 h.typeStrings ++
    Bytes.bytes32 h.lastPublicType ++ Bytes.bytes32 h.keyStrings ++
    Bytes.bytes32 h.lastPublicKey ++ Bytes.bytes32 h.typeIdOffset

theorem length_record (h : PackageHeader) : h.record.length = 280 := by
  simp only [record, List.length_append, Bytes.length_bytes32, Bytes.length_fixedName]

/-- The header of a package is read back. -/
theorem read?_record (hshort : (Text.unitsOf h.name).length < 128)
    (hplain : '\x00' ∉ h.name.toList) : read? h.record.toByteArray = some (h, 280) := by
  have hfields := Bytes.holds_toByteArray h.record
  generalize h.record.toByteArray = b at hfields
  simp only [record, Bytes.holds_append_iff, List.length_append, Bytes.length_bytes32,
    Bytes.length_fixedName, Nat.reduceMul, Nat.reduceAdd, Nat.zero_add, and_assoc] at hfields
  obtain ⟨hid, hname, htypeStrings, hlastType, hkeyStrings, hlastKey, hoffset⟩ := hfields
  have hextract := hname.extract
  rw [Bytes.length_fixedName] at hextract
  have hstop : 4 + 2 * 128 = 260 := rfl
  rw [hstop] at hextract
  simp only [read?, hid.word32?, htypeStrings.word32?, hlastType.word32?, hkeyStrings.word32?,
    hlastKey.word32?, minSize, hoffset.word32?, hextract, List.data_toByteArray,
    Text.fixedUtf16_fixedName hshort hplain]

end PackageHeader

/-! ## Types -/

namespace TypeSource

variable {t : TypeSource} {id : UInt8}

/-- The axes of all entries in order. -/
def allAxes (t : TypeSource) : List Axes :=
  (Numbered.dense t.entryCount t.axes).map (·.getD .none)

/-- The variant for a configuration. -/
def variant (t : TypeSource) (id : UInt8) (v : Config × List (Nat × Entry)) : Variant :=
  ⟨id, 0, v.1, (Numbered.dense t.entryCount v.2).toArray⟩

/-- The chunks of a type before they are written. -/
def chunks (id : UInt8) (t : TypeSource) : List ChunkParts :=
  TypeSpecHeader.parts id t.allAxes :: t.variants.map fun v => (t.variant id v).parts

theorem flatMap_bytes_chunks (id : UInt8) (t : TypeSource) :
    (t.chunks id).flatMap ChunkParts.bytes = t.encode id := by
  rw [chunks, List.flatMap_cons, List.flatMap_map]
  rfl

/-- The type that is read back. -/
def loaded (id : UInt8) (t : TypeSource) : TypeSpec where
  id := id
  axes := t.allAxes.toArray
  overlay := none
  variants := t.variants.map fun v => (t.variant id v).reread

/-- A type whose numbers and entries can be written. -/
structure Writable (id : UInt8) (t : TypeSource) : Prop where
  numbered : id ≠ 0
  few : t.entryCount ≤ Variant.maxEntries
  storable : ∀ v ∈ t.variants, ∀ item ∈ v.2, item.2.Storable

theorem length_allAxes (t : TypeSource) : t.allAxes.length = t.entryCount := by
  rw [allAxes, List.length_map, Numbered.length_dense]

theorem Writable.variant (h : t.Writable id) {v : Config × List (Nat × Entry)}
    (hv : v ∈ t.variants) (hsmall : (t.variant id v).parts.size < 4294967296) :
    (t.variant id v).Writable where
  numbered := h.numbered
  dense := rfl
  few := by
    show (Numbered.dense t.entryCount v.2).toArray.size ≤ Variant.maxEntries
    rw [List.size_toArray, Numbered.length_dense]
    exact h.few
  storable := by
    intro e he
    obtain ⟨key, hkey⟩ := Numbered.mem_of_some_mem_dense he
    exact h.storable v hv (key, e) hkey
  small := hsmall

theorem Writable.fits (h : t.Writable id) (hsmall : ∀ c ∈ t.chunks id, c.size < 4294967296) :
    ∀ c ∈ t.chunks id, c.Fits := by
  obtain ⟨hspec, hvariants⟩ := List.forall_mem_cons.mp hsmall
  refine List.forall_mem_cons.mpr ⟨TypeSpecHeader.fits_parts hspec, ?_⟩
  intro c hc
  obtain ⟨v, hv, rfl⟩ := List.mem_map.mp hc
  exact (h.variant hv (hvariants _ hc)).fits

end TypeSource

/-! ## Adding types to a package -/

section Folds

variable {σ α ε : Type} {step : σ → α → Except ε σ} {s t : σ} {x : α} {xs : List α}

theorem foldlM_cons_of_ok (h : step s x = .ok t) : (x :: xs).foldlM step s = xs.foldlM step t := by
  rw [List.foldlM_cons, h]
  rfl

theorem foldlM_append_of_ok (h : xs.foldlM step s = .ok t) (ys : List α) :
    (xs ++ ys).foldlM step s = ys.foldlM step t := by
  rw [List.foldlM_append, h]
  rfl

end Folds

namespace TypeSpec

theorem insertById_concat {s : TypeSpec} {specs : List TypeSpec} (h : ∀ t ∈ specs, t.id < s.id) :
    s.insertById specs = specs ++ [s] := by
  induction specs with
  | nil => rfl
  | cons t specs ih =>
      obtain ⟨ht, hrest⟩ := List.forall_mem_cons.mp h
      have hnot : ¬ s.id < t.id := by
        rw [UInt8.lt_iff_toNat_lt] at ht ⊢
        omega
      rw [insertById, if_neg hnot, ih hrest]
      rfl

theorem addVariant?_concat {s : TypeSpec} {specs : List TypeSpec} {v : Variant}
    (h : ∀ t ∈ specs, t.id ≠ s.id) (hv : v.typeId = s.id) :
    addVariant? v (specs ++ [s]) =
      some (specs ++ [{ s with variants := s.variants ++ [v] }]) := by
  induction specs with
  | nil => exact if_pos hv.symm
  | cons t specs ih =>
      obtain ⟨ht, hrest⟩ := List.forall_mem_cons.mp h
      rw [List.cons_append, addVariant?, if_neg (hv ▸ ht), ih hrest]
      rfl

end TypeSpec

section AddChunks

variable {header : PackageHeader} {start position : Nat} {found : PackageContent}
  {specs : List TypeSpec}

/-- A chunk behind the start of its package is added by what its kind says. -/
theorem PackageContent.addChunk_placed {c : ChunkParts} (hposition : start ≤ position) :
    addChunk none header start found (c.placed position) =
      match c.kind with
      | .stringPool =>
        found.addPool header (UInt32.ofNat (position - start)) (c.placed position)
      | .tableTypeSpec => found.addSpec none header.typeIdOffset.toNat (c.placed position)
      | .tableType => found.addVariant (c.placed position)
      | .tableLibrary => found.addLibraries (c.placed position)
      | _ => .ok found := by
  have hminus : Bytes.minus position start = .ok (position - start) := if_pos hposition
  cases hkind : c.kind <;>
    simp only [addChunk, ChunkParts.position_placed, hminus, ChunkParts.kind_placed, hkind]

/-- The variants of the last type are added to it in order. -/
theorem PackageContent.foldlM_variants {s : TypeSpec} {variants : List Variant}
    (hspecs : ∀ t ∈ specs, t.id ≠ s.id) (hids : ∀ v ∈ variants, v.typeId = s.id)
    (hvariants : ∀ v ∈ variants, v.Writable) (hposition : start ≤ position) :
    (ChunkParts.placeAll position (variants.map Variant.parts)).foldlM
        (addChunk none header start) { found with specs := specs ++ [s] } =
      .ok { found with
        specs := specs ++ [{ s with variants := s.variants ++ variants.map Variant.reread }] } := by
  induction variants generalizing s position with
  | nil =>
      rw [List.map_nil, List.map_nil, List.append_nil]
      rfl
  | cons v variants ih =>
      obtain ⟨hid, hrestIds⟩ := List.forall_mem_cons.mp hids
      obtain ⟨hv, hrest⟩ := List.forall_mem_cons.mp hvariants
      have hinsert := @TypeSpec.addVariant?_concat s specs v.reread hspecs hid
      have hadd : addChunk none header start { found with specs := specs ++ [s] }
          (v.parts.placed position) =
            .ok { found with
              specs := specs ++ [{ s with variants := s.variants ++ [v.reread] }] } := by
        rw [addChunk_placed hposition]
        show addVariant (v.parts.placed position) _ = _
        simp only [addVariant, v.read_parts hv position, hinsert]
      have hlater := @ih (position + v.parts.size)
        { s with variants := s.variants ++ [v.reread] } hspecs hrestIds hrest (by omega)
      simp only [List.append_assoc, List.singleton_append] at hlater
      rw [List.map_cons, ChunkParts.placeAll, foldlM_cons_of_ok hadd]
      exact hlater

/-- The chunks of a type add the type with all its variants. -/
theorem TypeSource.foldlM_chunks {t : TypeSource} {id : UInt8} (ht : t.Writable id)
    (hsmall : ∀ c ∈ t.chunks id, c.size < 4294967296) (hspecs : ∀ s ∈ found.specs, s.id < id)
    (hid : header.typeIdOffset.toNat + id.toNat ≤ 255) (hposition : start ≤ position) :
    (ChunkParts.placeAll position (t.chunks id)).foldlM
        (PackageContent.addChunk none header start) found =
      .ok { found with specs := found.specs ++ [t.loaded id] } := by
  have hdistinct : ∀ s ∈ found.specs, s.id ≠ id := by
    rintro s hs rfl
    exact Nat.lt_irrefl _ (UInt8.lt_iff_toNat_lt.mp (hspecs s hs))
  have hfresh : (found.specs.any fun s => s.id == id) = false := by
    rw [List.any_eq_false]
    intro s hs
    simpa using hdistinct s hs
  have hread := TypeSpecHeader.read_parts ht.numbered
    (by rw [t.length_allAxes]; exact ht.few : t.allAxes.length ≤ Variant.maxEntries) position
  have hinsert := @TypeSpec.insertById_concat ⟨id, t.allAxes.toArray, none, []⟩ _ hspecs
  have hspec : PackageContent.addChunk none header start found
      ((TypeSpecHeader.parts id t.allAxes).placed position) =
        .ok { found with specs := found.specs ++ [⟨id, t.allAxes.toArray, none, []⟩] } := by
    rw [PackageContent.addChunk_placed hposition]
    show PackageContent.addSpec none header.typeIdOffset.toNat _ found = _
    simp only [PackageContent.addSpec, hread, if_neg (Nat.not_lt_of_le hid), hfresh,
      Bool.false_eq_true, if_false, Option.bind_none, hinsert]
  have hids : ∀ v ∈ t.variants.map (t.variant id), v.typeId = id := by
    intro v hv
    obtain ⟨_, _, rfl⟩ := List.mem_map.mp hv
    rfl
  have hvariants : ∀ v ∈ t.variants.map (t.variant id), v.Writable := by
    intro v hv
    obtain ⟨source, hsource, rfl⟩ := List.mem_map.mp hv
    refine ht.variant hsource (hsmall _ (List.mem_cons_of_mem _ ?_))
    exact List.mem_map_of_mem hsource
  have hfold := @PackageContent.foldlM_variants header start
    (position + (TypeSpecHeader.parts id t.allAxes).size) found found.specs
    ⟨id, t.allAxes.toArray, none, []⟩ (t.variants.map (t.variant id)) hdistinct hids hvariants
    (by omega)
  rw [List.map_map, List.map_map, List.nil_append] at hfold
  rw [chunks, ChunkParts.placeAll, foldlM_cons_of_ok hspec]
  exact hfold

end AddChunks

end AppResources
