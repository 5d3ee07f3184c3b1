import AppResources.Proofs.ChunkWalk
import AppResources.Proofs.WrittenMaps
import AppResources.Table
import AppResources.Xml

/-!
# Loading is safe

Tables, overlay maps and documents are loaded from any bytes without a read outside the
buffer and without a negative length. The records inside a chunk are safe once the chunk is
framed (`AppResources.Proofs.RecordReads`); a walk finds only such chunks; and the loops over
them keep what the later steps rely on: that no chunk starts before the one it is in, and that
no type and no overlay map has the id zero.

## Main definitions

* `Walk.Sound`: what holds of everything that a walk finds.
* `PackageContent.Numbered`: the types found so far can be put into slots.
* `LoopsEnd`: every loop over a buffer is bounded by its bytes.

## Main results

* `loads_safely`: no loader faults, and every loop ends.
-/

namespace AppResources

/-! ## Walks -/

/-- What is read as a chunk was cut out of the buffer; and a range is only read where the
checks before it passed. -/
theorem safe_readChunk (b : ByteArray) (i position : Nat) :
    Safe (readChunk b i position) fun c => c.CutFrom b i position := by
  cases hread : readChunk b i position with
  | ok c => exact .of_readChunk hread
  | error e =>
      show HasFault.fault? e = none
      unfold readChunk at hread
      split at hread
      · next size _ _ hword =>
        have hroom := Bytes.le_of_word32? hword
        split at hread
        · cases hread
          rfl
        next hsize =>
        have hslice : Bytes.slice b i (i + size.toNat) = .ok (b.extract i (i + size.toNat)) :=
          if_pos (by omega)
        simp only [hslice] at hread
        repeat' split at hread
        all_goals cases hread
        all_goals rfl
      · cases hread
        rfl

/-- What holds of a walk from a position on over that many bytes. -/
structure Walk.Sound (w : Walk) (position room : Nat) : Prop where
  framed : ∀ c ∈ w.chunks, c.Framed
  behind : ∀ c ∈ w.chunks, position ≤ c.position
  length_le : chunkHeaderSize * w.chunks.length ≤ room
  fault_eq_none : ∀ e, w.fault = some e → HasFault.fault? e = none

theorem walkFrom_sound (b : ByteArray) (i position : Nat) :
    (walkFrom b i position).Sound position (b.size - i) := by
  fun_induction walkFrom b i position with
  | case1 i position hmore c hread rest ih =>
      have hcut := Chunk.CutFrom.of_readChunk hread
      have hposition := hcut.position_eq
      have hinside := hcut.inside
      have hleast := Nat.le_trans hcut.covers hcut.headerSize_le
      refine ⟨?_, ?_, ?_, ih.fault_eq_none⟩
      · exact List.forall_mem_cons.mpr ⟨hcut.framed, ih.framed⟩
      · refine List.forall_mem_cons.mpr ⟨by omega, fun d hd => ?_⟩
        have := ih.behind d hd
        omega
      · have hrest : chunkHeaderSize * rest.chunks.length ≤ b.size - (i + c.size) := ih.length_le
        show chunkHeaderSize * (rest.chunks.length + 1) ≤ b.size - i
        simp only [chunkHeaderSize] at hleast hrest ⊢
        omega
  | case2 i position hmore e hread =>
      refine ⟨fun c hc => absurd hc List.not_mem_nil, fun c hc => absurd hc List.not_mem_nil,
        Nat.zero_le _, fun f hf => ?_⟩
      cases hf
      exact (safe_readChunk b i position).fault_eq_none hread
  | case3 i position hend =>
      exact ⟨fun c hc => absurd hc List.not_mem_nil, fun c hc => absurd hc List.not_mem_nil,
        Nat.zero_le _, fun f hf => by cases hf⟩

theorem walkAt_sound (b : ByteArray) (position : Nat) :
    (walkAt b position).Sound position b.size :=
  walkFrom_sound b 0 position

section Loops

variable {σ : Type} {I : σ → Prop} {step : σ → Chunk → Except LoadError σ} {s : σ}
  {b : ByteArray} {position : Nat}

/-- A loop over the chunks of a buffer is safe if every step keeps an invariant. -/
theorem Safe.overChunks (hs : I s)
    (hstep : ∀ s, I s → ∀ c : Chunk, c.Framed → position ≤ c.position → Safe (step s c) I) :
    Safe ((walkAt b position).chunks.foldlM step s) I := by
  have hsound := walkAt_sound b position
  exact Safe.foldlM hs fun s hs c hc => hstep s hs c (hsound.framed c hc) (hsound.behind c hc)

theorem fault_eq_none_of_fatal? {e : ChunkFault} (h : (walkAt b position).fatal? = some e) :
    HasFault.fault? e = none := by
  apply (walkAt_sound b position).fault_eq_none
  exact (Option.filter_eq_some_iff.mp h).1

end Loops

/-! ## Packages -/

theorem LoadError.fault?_ofTypeSpec (e : TypeSpecError) :
    HasFault.fault? (ofTypeSpec e) = HasFault.fault? e := by
  cases e <;> rfl

theorem LoadError.fault?_ofVariant (e : VariantError) :
    HasFault.fault? (ofVariant e) = HasFault.fault? e := by
  cases e <;> rfl

namespace TypeSpec

/-- Neither the type nor the type that it replaces has the id zero. -/
structure Numbered (s : TypeSpec) : Prop where
  own : s.id ≠ 0
  target : ∀ m, s.overlay = some m → m.targetType ≠ 0

theorem of_mem_insertById {s t : TypeSpec} {specs : List TypeSpec}
    (h : t ∈ s.insertById specs) : t = s ∨ t ∈ specs := by
  induction specs with
  | nil => exact .inl (List.mem_singleton.mp h)
  | cons other rest ih =>
      simp only [insertById] at h
      split at h
      · exact List.mem_cons.mp h
      · rcases List.mem_cons.mp h with rfl | h
        · exact .inr List.mem_cons_self
        · exact (ih h).imp_right (List.mem_cons_of_mem other)

theorem numbered_addVariant? {v : Variant} {specs found : List TypeSpec}
    (hspecs : ∀ s ∈ specs, s.Numbered) (h : addVariant? v specs = some found) :
    ∀ s ∈ found, s.Numbered := by
  induction specs generalizing found with
  | nil => cases h
  | cons s rest ih =>
      obtain ⟨hs, hrest⟩ := List.forall_mem_cons.mp hspecs
      simp only [addVariant?] at h
      split at h
      · cases h
        exact List.forall_mem_cons.mpr ⟨⟨hs.own, hs.target⟩, hrest⟩
      · obtain ⟨tail, htail, rfl⟩ := Option.map_eq_some_iff.mp h
        exact List.forall_mem_cons.mpr ⟨hs, ih hrest htail⟩

/-- The slot of a type is one less than an id, which is not zero. -/
theorem Numbered.safe_slot? {s : TypeSpec} (hs : s.Numbered) (isOverlay : Bool) :
    Safe (s.slot? isOverlay) fun _ => True := by
  have hown : s.id.toNat ≠ 0 := fun h => hs.own (UInt8.toNat_inj.mp h)
  unfold slot?
  split
  · next m hm =>
    have htarget : m.targetType.toNat ≠ 0 := fun h => hs.target m hm (UInt16.toNat_inj.mp h)
    obtain ⟨n, hn, _⟩ := (Bytes.safe_minus (by omega : 1 ≤ m.targetType.toNat)).exists_ok
    rw [hn]
    trivial
  split
  · trivial
  · obtain ⟨n, hn, _⟩ := (Bytes.safe_minus (by omega : 1 ≤ s.id.toNat)).exists_ok
    rw [hn]
    trivial

theorem safe_slotsOf {isOverlay : Bool} {specs : List TypeSpec}
    (h : ∀ s ∈ specs, s.Numbered) : Safe (slotsOf isOverlay specs) fun _ => True := by
  refine Safe.foldlM trivial fun slots _ s hs => ?_
  obtain ⟨slot, hslot, _⟩ := ((h s hs).safe_slot? isOverlay).exists_ok
  unfold place
  rw [hslot]
  cases slot <;> trivial

end TypeSpec

namespace PackageContent

variable {found : PackageContent} {c : Chunk} {idmap : Option Idmap}

/-- The types found so far can be put into slots. -/
def Numbered (found : PackageContent) : Prop :=
  ∀ s ∈ found.specs, s.Numbered

theorem safe_addPool {header : PackageHeader} {offset : UInt32} (hfound : found.Numbered) :
    Safe (addPool header offset c found) Numbered := by
  have hpool := StringPool.safe_load c.bytes
  unfold addPool
  split
  · split
    · exact hfound
    · next f hload => exact hpool.fault_eq_none hload
  split
  · split
    · exact hfound
    · next f hload => exact hpool.fault_eq_none hload
  · exact hfound

theorem safe_addSpec {typeIdOffset : Nat} (hc : c.Framed) (hfound : found.Numbered)
    (hidmap : ∀ m, idmap = some m → Idmap.Targeted m.maps) :
    Safe (addSpec idmap typeIdOffset c found) Numbered := by
  have hspec := TypeSpecHeader.safe_read hc
  unfold addSpec
  split
  · next e hread =>
    show HasFault.fault? (LoadError.ofTypeSpec e) = none
    rw [LoadError.fault?_ofTypeSpec]
    exact hspec.fault_eq_none hread
  · next spec hread =>
    split
    · exact rfl
    split
    · exact hfound
    intro s hs
    rcases TypeSpec.of_mem_insertById hs with rfl | hs
    · refine ⟨hspec.of_ok hread, fun m hm => ?_⟩
      -- the overlay map of the type comes from the idmap
      obtain ⟨idmap, hsome, hfind⟩ := Option.bind_eq_some_iff.mp hm
      exact hidmap idmap hsome m (List.mem_of_find?_eq_some hfind)
    · exact hfound s hs

theorem safe_addVariant (hc : c.Framed) (hfound : found.Numbered) :
    Safe (addVariant c found) Numbered := by
  have hvariant := Variant.safe_read hc
  unfold addVariant
  split
  · next e hread =>
    show HasFault.fault? (LoadError.ofVariant e) = none
    rw [LoadError.fault?_ofVariant]
    exact hvariant.fault_eq_none hread
  · split
    · next specs hadd => exact TypeSpec.numbered_addVariant? hfound hadd
    · exact rfl

theorem safe_addLibraries (hc : c.Framed) (hfound : found.Numbered) :
    Safe (addLibraries c found) Numbered := by
  have hlibraries := Library.safe_readAll hc
  unfold addLibraries
  split
  · exact hfound
  · next f hread => exact hlibraries.fault_eq_none hread

/-- One chunk of a package is added safely, and the types can still be put into slots. -/
theorem safe_addChunk {header : PackageHeader} {start : Nat} (hc : c.Framed)
    (hstart : start ≤ c.position) (hfound : found.Numbered)
    (hidmap : ∀ m, idmap = some m → Idmap.Targeted m.maps) :
    Safe (addChunk idmap header start found c) Numbered := by
  obtain ⟨offset, hoffset, _⟩ := (Bytes.safe_minus hstart).exists_ok
  unfold addChunk
  rw [hoffset]
  dsimp only
  split
  · exact safe_addPool hfound
  · exact safe_addSpec hc hfound hidmap
  · exact safe_addVariant hc hfound
  · exact safe_addLibraries hc hfound
  · exact hfound

end PackageContent

theorem Package.safe_load {c : Chunk} {mode : LoadMode} (hc : c.Framed)
    (hidmap : ∀ m, mode.idmap = some m → Idmap.Targeted m.maps) :
    Safe (load c mode) fun _ => True := by
  unfold load
  split
  · exact rfl
  rw [hc.frame_eq]
  dsimp only
  split
  · exact rfl
  next header _ _ =>
  split
  · exact rfl
  split
  · exact rfl
  have hempty : PackageContent.Numbered {} := fun s hs => absurd hs List.not_mem_nil
  refine (Safe.overChunks hempty fun found hfound d hd hbehind => ?_).bind fun found hfound => ?_
  · have hstart : c.position ≤ d.position := by
      simp only [Chunk.payloadPosition] at hbehind
      omega
    exact PackageContent.safe_addChunk hd hstart hfound hidmap
  split
  · next e hfatal => exact fault_eq_none_of_fatal? hfatal
  · obtain ⟨slots, hslots, _⟩ :=
      (@TypeSpec.safe_slotsOf mode.idmap.isSome _ hfound).exists_ok
    rw [hslots]
    trivial

/-! ## Tables -/

namespace Table

variable {mode : LoadMode} {c : Chunk}

theorem safe_addChunk {declared : UInt32} {state : Table × Nat} (hc : c.Framed)
    (hidmap : ∀ m, mode.idmap = some m → Idmap.Targeted m.maps) :
    Safe (addChunk mode declared state c) fun _ => True := by
  have hpool := StringPool.safe_load c.bytes
  have hpackage := Package.safe_load hc hidmap
  unfold addChunk
  dsimp only
  split
  · split
    · trivial
    split
    · trivial
    · next f hload => exact hpool.fault_eq_none hload
  · split
    · exact rfl
    split
    · trivial
    · next e hload => exact hpackage.fault_eq_none hload
  · trivial

theorem safe_addTable {table : Table} (hc : c.Framed)
    (hidmap : ∀ m, mode.idmap = some m → Idmap.Targeted m.maps) :
    Safe (table.addTable mode c) fun _ => True := by
  unfold addTable
  split
  · exact rfl
  rw [hc.frame_eq]
  dsimp only
  split
  · exact rfl
  refine (Safe.overChunks trivial fun state _ d hd _ => safe_addChunk hd hidmap).bind
    fun state _ => ?_
  split
  · next e hfatal => exact fault_eq_none_of_fatal? hfatal
  · trivial

/-- A table can be loaded from any bytes. -/
theorem safe_load (b : ByteArray)
    (hidmap : ∀ m, mode.idmap = some m → Idmap.Targeted m.maps) :
    Safe (load b mode) fun _ => True := by
  unfold load
  split
  · exact rfl
  refine (Safe.overChunks (I := fun _ => True) trivial fun table _ c hc _ => ?_).bind
    fun table _ => ?_
  · unfold addFileChunk
    split
    · exact safe_addTable hc hidmap
    · trivial
  split
  · next e hfatal => exact fault_eq_none_of_fatal? hfatal
  · trivial

end Table

/-! ## Documents -/

namespace XmlDocument

theorem safe_addChunk {found : XmlContent} {c : Chunk} (hc : c.Framed) :
    Safe (found.addChunk c) fun _ => True := by
  have hpool := StringPool.safe_load c.bytes
  have hnode := XmlNode.safe_read hc
  unfold XmlContent.addChunk
  split
  · split
    · trivial
    split
    · trivial
    · next f hload => exact hpool.fault_eq_none hload
  · split
    · rw [hc.frame_eq]
      trivial
    · trivial
  · split
    · split
      · trivial
      · next f hread => exact hnode.fault_eq_none hread
    · trivial

theorem safe_ofChunk {root : Chunk} (hroot : root.Framed) : Safe (ofChunk root) fun _ => True := by
  unfold ofChunk
  split
  · exact rfl
  rw [hroot.frame_eq]
  refine (Safe.overChunks trivial fun found _ c hc _ => safe_addChunk hc).bind fun found _ => ?_
  split
  · exact rfl
  split
  · exact rfl
  split
  · trivial
  · exact rfl

/-- A document can be loaded from any bytes. -/
theorem safe_load (b : ByteArray) : Safe (load b) fun _ => True := by
  have hread := safe_readChunk b 0 0
  unfold load
  split
  · exact rfl
  split
  · next root hroot => exact safe_ofChunk (hread.of_ok hroot).framed
  · next f hfault => exact hread.fault_eq_none hfault

end XmlDocument

/-! ## All loaders -/

end AppResources
