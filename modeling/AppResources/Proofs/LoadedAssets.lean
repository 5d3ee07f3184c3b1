import AppResources.Asset
import AppResources.Proofs.LoadSafety
import AppResources.Proofs.TableRoundTrip

/-!
# What loading establishes

The packages of an asset are not arbitrary: they went through the checks of the loader. Two
things follow that lookups rely on. No package without a run-time id has the id zero, neither
by itself nor as the target of an overlay. And the numbers inside a package fit together: in
every slot stands the type whose id belongs there, its variants carry that id, and neither
types nor entries exceed what an id can hold.

Each step of the loader is followed on its successes only; that its failures are no faults of
reads is the subject of `AppResources.Proofs.LoadSafety`.

## Main definitions

* `Asset.Loaded`: the ways to come by an asset.
* `Package.Arranged`: what holds of loaded packages.
* `PackageContent.TypeStep`: what a chunk of a package does to the types found so far.
* `Package.MadeFrom`: what a package is made from.
* `TableBuild.asset`: the asset of a table that was built.

## Main results

* `Package.load_eq_ok_iff`: which packages load.
* `Asset.Loaded.arranged`: the packages of loaded assets are arranged.
* `TableBuild.WithinLimits.loaded_asset`: the assets of built tables are loaded ones.
-/

namespace AppResources

/-! ## Loops that succeed -/

section Loops

variable {ε α σ : Type} {step : σ → α → Except ε σ} {I : σ → Prop}

theorem exists_of_bind_eq_ok {β : Type} {x : Except ε α} {f : α → Except ε β} {y : β}
    (h : (x >>= f) = .ok y) : ∃ a, x = .ok a ∧ f a = .ok y := by
  cases x with
  | error e => cases h
  | ok a => exact ⟨a, rfl, h⟩

/-- What every successful step of a loop preserves holds where the loop succeeds. -/
theorem of_foldlM_eq_ok {xs : List α} {s found : σ} (hs : I s)
    (hstep : ∀ s, ∀ x ∈ xs, ∀ s', I s → step s x = .ok s' → I s')
    (h : xs.foldlM step s = .ok found) : I found := by
  induction xs generalizing s with
  | nil =>
      cases h
      exact hs
  | cons x xs ih =>
      rw [List.foldlM_cons] at h
      obtain ⟨s', hx, hrest⟩ := exists_of_bind_eq_ok h
      exact ih (hstep s x List.mem_cons_self s' hs hx)
        (fun t y hy => hstep t y (List.mem_cons_of_mem x hy)) hrest

theorem foldlM_concat_eq_ok_iff {xs : List α} {x : α} {s t : σ} :
    (xs ++ [x]).foldlM step s = .ok t ↔ ∃ u, xs.foldlM step s = .ok u ∧ step u x = .ok t := by
  rw [List.foldlM_append]
  cases xs.foldlM step s with
  | error e => exact ⟨nofun, nofun⟩
  | ok u =>
      have hlast : [x].foldlM step u = step u x := bind_pure (step u x)
      refine ⟨fun h => ⟨u, rfl, hlast.symm.trans h⟩, ?_⟩
      rintro ⟨_, hu, h⟩
      cases hu
      exact hlast.trans h

/-- What holds at the start of a loop, and of each step after those before it, holds of all steps
of a loop that succeeds. -/
theorem of_foldlM_prefix {P : List α → σ → Prop} {xs : List α} {s t : σ} (hs : P [] s)
    (hstep : ∀ before x u v, P before u → step u x = .ok v → P (before ++ [x]) v)
    (h : xs.foldlM step s = .ok t) : P xs t := by
  induction xs using List.reverseRecOn generalizing t with
  | nil =>
      cases h
      exact hs
  | append_singleton before x ih =>
      obtain ⟨u, hbefore, hlast⟩ := foldlM_concat_eq_ok_iff.mp h
      exact hstep before x u t (ih hbefore) hlast

/-- Loops whose states belong to each other end in states that belong to each other. -/
theorem foldlM_map {τ : Type} {step' : τ → α → Except ε τ} {φ : σ → τ}
    (h : ∀ s x, step' (φ s) x = (step s x).map φ) (xs : List α) (s : σ) :
    xs.foldlM step' (φ s) = (xs.foldlM step s).map φ := by
  induction xs generalizing s with
  | nil => rfl
  | cons x xs ih =>
      rw [List.foldlM_cons, List.foldlM_cons, h]
      cases step s x with
      | error e => rfl
      | ok t => exact ih t

end Loops

/-! ## Variants -/

namespace Variant

/-- An entry index is a 16-bit word, or counts at most as many entries as a variant may
have. -/
theorem safe_index_slotsAt {table : ByteArray} {flags : UInt8} {count : Nat}
    (hsize : table.size = (if hasShortOffsets flags then 2 else 4) * count)
    (hcount : count ≤ maxEntries) :
    Safe (slotsAt table flags) fun slots => ∀ slot ∈ slots, slot.1 < 65536 := by
  simp only [maxEntries] at hcount
  unfold slotsAt
  split
  · refine (Safe.mapM_range (R := fun slot => slot.1 < 65536) fun i hi => ?_).mono
      fun _ h => h.2
    refine (Bytes.safe_word16At (by omega)).bind fun index _ => ?_
    exact (Bytes.safe_word16At (by omega)).bind fun _ _ => index.toNat_lt
  split
  · next hshort =>
    rw [if_pos hshort] at hsize
    refine (Safe.mapM_range (R := fun slot => slot.1 < 65536) fun i hi => ?_).mono
      fun _ h => h.2
    refine (Bytes.safe_word16At (by omega)).bind fun _ _ => ?_
    show i < 65536
    omega
  · next hlong =>
    rw [if_neg hlong] at hsize
    refine (Safe.mapM_range (R := fun slot => slot.1 < 65536) fun i hi => ?_).mono
      fun _ h => h.2
    refine (Bytes.safe_word32At (by omega)).bind fun _ _ => ?_
    show i < 65536
    omega

theorem entryCount_le {slots : List Slot} (h : ∀ slot ∈ slots, slot.1 < 65536) :
    entryCount slots ≤ 65536 := by
  induction slots using List.reverseRecOn with
  | nil => exact Nat.zero_le _
  | append_singleton slots last ih =>
      rw [List.forall_mem_append, List.forall_mem_singleton] at h
      rw [entryCount_concat]
      have := ih h.1
      omega

variable {c : Chunk} {v : Variant}

theorem of_readBody {typeId flags : UInt8} {count entriesStart : Nat} {config : Config}
    (h : readBody c typeId flags count entriesStart config = .ok v) :
    v.entries.size ≤ 65536 := by
  unfold readBody at h
  extract_lets tableSize at h
  split at h
  · cases h
  split at h
  · cases h
  next hcount =>
  split at h
  · cases h
  split at h
  · cases h
  split at h
  · cases h
  split at h
  · cases h
  split at h
  · cases h
  split at h
  · cases h
  next table hslice =>
  split at h
  · cases h
  next slots hslots =>
  split at h
  · cases h
  next entries hentries =>
  cases h
  have htable : table.size = (if hasShortOffsets flags then 2 else 4) * count := by
    unfold Bytes.slice at hslice
    split at hslice
    · next hinside =>
      cases hslice
      rw [ByteArray.size_extract]
      omega
    · cases hslice
  have hindices := (safe_index_slotsAt htable (Nat.le_of_not_lt hcount)).of_ok hslots
  have hinside : ∀ slot ∈ slots,
      slot.1 < (Array.replicate (entryCount slots) (none : Option Entry)).size := by
    rw [Array.size_replicate]
    exact lt_entryCount
  have hsize := ((safe_readEntries hinside).of_ok hentries).1
  show entries.size ≤ 65536
  rw [hsize, Array.size_replicate]
  exact entryCount_le hindices

/-- A variant has no more entries than an id can number. -/
theorem size_le_of_read (h : read c = .ok v) : v.entries.size ≤ 65536 := by
  unfold read at h
  split at h
  · cases h
  split at h
  · cases h
  split at h
  · next typeId flags count start config _ _ _ _ _ _ =>
    cases hbody : readBody c typeId flags count.toNat start.toNat config with
    | error f =>
        rw [hbody] at h
        cases h
    | ok found =>
        rw [hbody] at h
        cases h
        exact of_readBody hbody
  · cases h

end Variant

theorem TypeSpecHeader.id_ne_zero_of_read {c : Chunk} {spec : TypeSpecHeader}
    (h : read c = .ok spec) : spec.id ≠ 0 := by
  unfold read at h
  split at h
  · cases h
  split at h
  · split at h
    · cases h
    next hzero =>
    split at h
    · cases h
    split at h
    · cases h
    split at h
    · cases h
    · cases h
      exact hzero
  · cases h

/-! ## Types -/

namespace TypeSpec

/-- What holds of a type in a package that adds an offset to its type ids. -/
structure Arranged (offset : Nat) (isOverlay : Bool) (s : TypeSpec) : Prop where
  id_ne_zero : s.id ≠ 0
  id_le : offset + s.id.toNat ≤ 255
  own : isOverlay = false → s.overlay = none
  variants : ∀ v ∈ s.variants, v.typeId = s.id ∧ v.entries.size ≤ 65536

variable {offset : Nat} {isOverlay : Bool} {s : TypeSpec} {specs found : List TypeSpec}

theorem arranged_addVariant? {v : Variant} (hv : v.entries.size ≤ 65536)
    (hspecs : ∀ s ∈ specs, s.Arranged offset isOverlay)
    (h : addVariant? v specs = some found) : ∀ s ∈ found, s.Arranged offset isOverlay := by
  induction specs generalizing found with
  | nil => cases h
  | cons s rest ih =>
      obtain ⟨hs, hrest⟩ := List.forall_mem_cons.mp hspecs
      simp only [addVariant?] at h
      split at h
      · next hid =>
        cases h
        refine List.forall_mem_cons.mpr ⟨⟨hs.id_ne_zero, hs.id_le, hs.own, ?_⟩, hrest⟩
        rw [List.forall_mem_append, List.forall_mem_singleton]
        exact ⟨hs.variants, hid.symm, hv⟩
      · obtain ⟨tail, htail, rfl⟩ := Option.map_eq_some_iff.mp h
        exact List.forall_mem_cons.mpr ⟨hs, ih hrest htail⟩

/-- What stands in a slot after a type was placed. -/
theorem getElem?_placeAt_iff {i j : Nat} {slots : List (Option TypeSpec)} {t : TypeSpec} :
    (s.placeAt i slots)[j]? = some (some t) ↔
      if j = i then t = s else slots[j]? = some (some t) := by
  fun_induction placeAt s i slots generalizing j with
  | case1 => cases j <;> simp [eq_comm]
  | case2 => cases j <;> simp [eq_comm]
  | case3 i ih =>
      cases j with
      | zero => simp
      | succ j => simpa using @ih j
  | case4 i first rest ih =>
      cases j with
      | zero => simp
      | succ j => simpa using @ih j

/-- A type of a package that is no overlay has the slot below its id. -/
theorem Arranged.slot?_eq (h : s.Arranged offset false) :
    s.slot? false = .ok (some (s.id.toNat - 1)) := by
  have hid : s.id.toNat ≠ 0 := fun hzero => h.id_ne_zero (UInt8.toNat_inj.mp hzero)
  unfold slot?
  rw [h.own rfl]
  simp only [Bytes.minus, Bool.false_eq_true, if_false]
  rw [if_pos (by omega)]
  rfl

/-- A type that stands in a slot has the properties of all types, and where nothing is
overlaid its id is that of the slot. -/
def Seated (offset : Nat) (isOverlay : Bool) (slots : List (Option TypeSpec)) : Prop :=
  ∀ i s, slots[i]? = some (some s) →
    s.Arranged offset isOverlay ∧ (isOverlay = false → s.id.toNat = i + 1)

theorem seated_place {slots slots' : List (Option TypeSpec)} (hs : s.Arranged offset isOverlay)
    (hslots : Seated offset isOverlay slots) (h : place isOverlay slots s = .ok slots') :
    Seated offset isOverlay slots' := by
  unfold place at h
  split at h
  · next i hslot =>
    cases h
    intro j t ht
    rw [getElem?_placeAt_iff] at ht
    split at ht
    · next heq =>
      subst heq ht
      refine ⟨hs, ?_⟩
      rintro rfl
      have hid : t.id.toNat ≠ 0 := fun hzero => hs.id_ne_zero (UInt8.toNat_inj.mp hzero)
      rw [hs.slot?_eq] at hslot
      obtain rfl : t.id.toNat - 1 = j := Option.some.inj (Except.ok.inj hslot)
      omega
    · exact hslots j t ht
  · cases h
    exact hslots
  · cases h

theorem seated_slotsOf {slots : List (Option TypeSpec)}
    (hspecs : ∀ s ∈ specs, s.Arranged offset isOverlay)
    (h : slotsOf isOverlay specs = .ok slots) : Seated offset isOverlay slots := by
  refine of_foldlM_eq_ok (fun i s hs => by simp at hs) ?_ h
  exact fun _ s hs _ hslots => seated_place (hspecs s hs) hslots

end TypeSpec

/-! ## Packages -/

theorem Chunk.of_frame_eq {c : Chunk} {header payload : ByteArray}
    (h : c.frame = .ok (header, payload)) : header = c.header ∧ payload = c.payload := by
  unfold frame Bytes.slice at h
  split at h
  · split at h
    · cases h
      exact ⟨rfl, rfl⟩
    · cases h
  · cases h

/-- What holds of every loaded package. -/
structure Package.Arranged (p : Package) : Prop where
  id_ne_zero : p.isDynamic = false → p.id ≠ 0
  slots : TypeSpec.Seated p.typeIdOffset.toNat p.isOverlay p.slots

namespace PackageContent

/-- What holds of the types found so far. -/
def Arranged (offset : Nat) (isOverlay : Bool) (found : PackageContent) : Prop :=
  ∀ s ∈ found.specs, s.Arranged offset isOverlay

variable {header : PackageHeader} {idmap : Option Idmap} {start : Nat} {c : Chunk}
  {found found' : PackageContent}

/-- What a chunk of a package does to the types found so far. -/
inductive TypeStep (idmap : Option Idmap) (offset : Nat) (c : Chunk) (specs : List TypeSpec) :
    List TypeSpec → Prop where
  /-- A type spec declares a type that was not there. -/
  | declared {spec : TypeSpecHeader} (kind : c.kind = .tableTypeSpec)
      (read : TypeSpecHeader.read c = .ok spec) (small : offset + spec.id.toNat ≤ 255)
      (fresh : ∀ s ∈ specs, s.id ≠ spec.id) :
      TypeStep idmap offset c specs
        (TypeSpec.insertById ⟨spec.id, spec.axes, idmap.bind (·.mapOf? spec.id), []⟩ specs)
  /-- A type spec declares a type again. -/
  | repeated {spec : TypeSpecHeader} {s : TypeSpec} (kind : c.kind = .tableTypeSpec)
      (read : TypeSpecHeader.read c = .ok spec) (mem : s ∈ specs) (id : s.id = spec.id) :
      TypeStep idmap offset c specs specs
  /-- A variant is added to its type. -/
  | variant {v : Variant} {specs' : List TypeSpec} (kind : c.kind = .tableType)
      (read : Variant.read c = .ok v) (added : TypeSpec.addVariant? v specs = some specs') :
      TypeStep idmap offset c specs specs'
  /-- Pools, libraries and unknown chunks leave the types alone. -/
  | other (noSpec : c.kind ≠ .tableTypeSpec) (noVariant : c.kind ≠ .tableType) :
      TypeStep idmap offset c specs specs

theorem specs_addPool {offset : UInt32} (h : addPool header offset c found = .ok found') :
    found'.specs = found.specs := by
  unfold addPool at h
  split at h
  · split at h <;> cases h
    rfl
  split at h
  · split at h <;> cases h
    rfl
  · cases h
    rfl

theorem typeStep_addSpec {offset : Nat} (hkind : c.kind = .tableTypeSpec)
    (h : addSpec idmap offset c found = .ok found') :
    TypeStep idmap offset c found.specs found'.specs := by
  unfold addSpec at h
  split at h
  · cases h
  next spec hread =>
  split at h
  · cases h
  next hle =>
  split at h
  · next hany =>
    cases h
    obtain ⟨s, hs, hid⟩ := List.any_eq_true.mp hany
    exact .repeated hkind hread hs (beq_iff_eq.mp hid)
  · next hnone =>
    cases h
    refine .declared hkind hread (Nat.le_of_not_lt hle) fun s hs hid => hnone ?_
    exact List.any_eq_true.mpr ⟨s, hs, beq_iff_eq.mpr hid⟩

/-- Every chunk that is added takes one of these steps. -/
theorem typeStep_addChunk (h : addChunk idmap header start found c = .ok found') :
    TypeStep idmap header.typeIdOffset.toNat c found.specs found'.specs := by
  unfold addChunk at h
  split at h
  · cases h
  split at h
  · next hkind =>
    rw [specs_addPool h]
    exact .other (by rw [hkind]; nofun) (by rw [hkind]; nofun)
  · next hkind => exact typeStep_addSpec hkind h
  · next hkind =>
    unfold addVariant at h
    split at h
    · cases h
    next v hread =>
    split at h
    · next specs hadd =>
      cases h
      exact .variant hkind hread hadd
    · cases h
  · next hkind =>
    unfold addLibraries at h
    split at h <;> cases h
    exact .other (by rw [hkind]; nofun) (by rw [hkind]; nofun)
  · next hnoSpec hnoVariant _ =>
    cases h
    exact .other hnoSpec hnoVariant

/-- One more chunk of a package keeps its types arranged. -/
theorem arranged_addChunk
    (hfound : found.Arranged header.typeIdOffset.toNat idmap.isSome)
    (h : addChunk idmap header start found c = .ok found') :
    found'.Arranged header.typeIdOffset.toNat idmap.isSome := by
  have hstep := typeStep_addChunk h
  unfold Arranged at hfound ⊢
  generalize found'.specs = specs' at hstep ⊢
  cases hstep with
  | declared _ hread hsmall _ =>
      intro s hs
      rcases TypeSpec.of_mem_insertById hs with rfl | hs
      · refine ⟨TypeSpecHeader.id_ne_zero_of_read hread, hsmall, fun hnone => ?_,
          fun v hv => absurd hv List.not_mem_nil⟩
        show idmap.bind _ = none
        rw [Option.isSome_eq_false_iff.mp hnone |> Option.isNone_iff_eq_none.mp]
        rfl
      · exact hfound s hs
  | repeated | other => exact hfound
  | variant _ hread hadd =>
      exact TypeSpec.arranged_addVariant? (Variant.size_le_of_read hread) hfound hadd

end PackageContent

namespace Package

variable {c : Chunk} {mode : LoadMode} {p : Package}

/-- The header, the content and the slots that a package is made from. -/
structure MadeFrom (c : Chunk) (mode : LoadMode) (header : PackageHeader)
    (found : PackageContent) (slots : List (Option TypeSpec)) : Prop where
  headerSize : ¬ c.headerSize < minHeaderSize
  frame : c.frame = .ok (c.header, c.payload)
  read : ∃ behind, PackageHeader.read? c.header = some (header, behind)
  id_le : ¬ 255 < header.id
  offset_le : ¬ 255 < header.typeIdOffset
  content : c.children.chunks.foldlM (PackageContent.addChunk mode.idmap header c.position) {} =
    .ok found
  whole : c.children.fatal? = none
  slots : TypeSpec.slotsOf mode.idmap.isSome found.specs = .ok slots

/-- A package loads if it is made of what the chunks behind its header hold. -/
theorem load_eq_ok_iff :
    load c mode = .ok p ↔
      ∃ header found slots, MadeFrom c mode header found slots ∧
        p = ofContent mode header found slots := by
  constructor
  · intro h
    unfold load at h
    split at h
    · cases h
    next hsize =>
    split at h
    · cases h
    next head payload hframe =>
    obtain ⟨rfl, rfl⟩ := Chunk.of_frame_eq hframe
    split at h
    · cases h
    next header behind hread =>
    split at h
    · cases h
    next hid =>
    split at h
    · cases h
    next hoffset =>
    obtain ⟨found, hfold, h⟩ := exists_of_bind_eq_ok h
    split at h
    · cases h
    next hwhole =>
    split at h
    · cases h
    next slots hslots =>
    cases h
    exact ⟨header, found, slots,
      ⟨hsize, hframe, ⟨behind, hread⟩, hid, hoffset, hfold, hwhole, hslots⟩, rfl⟩
  · rintro ⟨header, found, slots, hmade, rfl⟩
    obtain ⟨behind, hread⟩ := hmade.read
    have hcontent := hmade.content
    have hwhole := hmade.whole
    unfold Chunk.children at hcontent hwhole
    simp only [load, if_neg hmade.headerSize, hmade.frame, hread, if_neg hmade.id_le,
      if_neg hmade.offset_le, hcontent, bind, Except.bind, hwhole, hmade.slots]
    rfl

/-- The type in a slot. -/
theorem spec?_eq_some_iff {slot : Nat} {s : TypeSpec} :
    p.spec? slot = some s ↔ p.slots[slot]? = some (some s) := by
  unfold spec?
  cases p.slots[slot]? with
  | none => simp
  | some found => simp

/-- A loaded package is arranged. It is an overlay if it was loaded with overlay maps. -/
theorem of_load (hidmap : ∀ m, mode.idmap = some m → m.targetPackage ≠ 0)
    (h : load c mode = .ok p) : p.Arranged ∧ p.isOverlay = mode.idmap.isSome := by
  obtain ⟨header, found, slots, hmade, rfl⟩ := load_eq_ok_iff.mp h
  have harranged : found.Arranged header.typeIdOffset.toNat mode.idmap.isSome :=
    of_foldlM_eq_ok (fun s hs => absurd hs List.not_mem_nil)
      (fun _ _ _ _ => PackageContent.arranged_addChunk) hmade.content
  have hnat : (UInt8.ofNat header.typeIdOffset.toNat).toNat = header.typeIdOffset.toNat := by
    have hoffset := hmade.offset_le
    rw [UInt32.lt_iff_toNat_lt] at hoffset
    have : header.typeIdOffset.toNat ≤ 255 := Nat.le_of_not_lt hoffset
    rw [UInt8.toNat_ofNat']
    omega
  refine ⟨⟨fun hstatic => ?_, ?_⟩, rfl⟩
  · -- the id is that of the target, or else not the zero of shared libraries
    show (mode.idmap.map (·.targetPackage)).getD (UInt8.ofNat header.id.toNat) ≠ 0
    cases hmode : mode.idmap with
    | some m => exact hidmap m hmode
    | none =>
        intro hzero
        have hown : UInt8.ofNat header.id.toNat = 0 := hzero
        have hdynamic : (ofContent mode header found slots).isDynamic = true := by
          show (UInt8.ofNat header.id.toNat == 0 || _) = true
          rw [hown]
          rfl
        rw [hdynamic] at hstatic
        cases hstatic
  · show TypeSpec.Seated (UInt8.ofNat header.typeIdOffset.toNat).toNat _ slots
    rw [hnat]
    exact TypeSpec.seated_slotsOf harranged hmade.slots

end Package

/-! ## Tables and assets -/

theorem Idmap.targetPackage_ne_zero {b : ByteArray} {m : Idmap} (h : load b = .ok m) :
    m.targetPackage ≠ 0 := by
  unfold load at h
  split at h
  · next mark version' targetCrc overlayCrc target declared _ _ _ _ _ _ =>
    split at h
    · cases h
    split at h
    · cases h
    split at h
    · cases h
    next hid =>
    split at h
    · cases h
    split at h
    · cases h
    split at h
    · cases h
    · cases h
      simp only [isId, Bool.not_eq_true', Bool.and_eq_false_iff, not_or, Bool.not_eq_false,
        bne_iff_ne, decide_eq_true_eq] at hid
      intro hzero
      have hnat := congrArg UInt8.toNat hzero
      have hne : target.toNat ≠ 0 := fun h => hid.1 (UInt16.toNat_inj.mp h)
      simp only [UInt8.toNat_ofNat', UInt8.toNat_zero] at hnat
      omega
  · cases h

namespace Table

variable {mode : LoadMode} {P : Package → Prop}

theorem forall_packages_addChunk (hpackage : ∀ c p, Package.load c mode = .ok p → P p)
    {declared : UInt32} {state state' : Table × Nat} {c : Chunk}
    (hstate : ∀ p ∈ state.1.packages, P p) (h : addChunk mode declared state c = .ok state') :
    ∀ p ∈ state'.1.packages, P p := by
  unfold addChunk at h
  dsimp only at h
  split at h
  · split at h
    · cases h
      exact hstate
    · split at h <;> cases h
      exact hstate
  · split at h
    · cases h
    · split at h
      · next package hload =>
        cases h
        exact List.forall_mem_append.mpr
          ⟨hstate, List.forall_mem_singleton.mpr (hpackage c _ hload)⟩
      · cases h
  · cases h
    exact hstate

theorem forall_packages_addTable (hpackage : ∀ c p, Package.load c mode = .ok p → P p)
    {table table' : Table} {c : Chunk} (htable : ∀ p ∈ table.packages, P p)
    (h : addTable mode table c = .ok table') : ∀ p ∈ table'.packages, P p := by
  unfold addTable at h
  split at h
  · cases h
  split at h
  · cases h
  split at h
  · cases h
  obtain ⟨⟨found, seen⟩, hfold, h⟩ := exists_of_bind_eq_ok h
  dsimp only at h
  split at h
  · cases h
  · cases h
    exact of_foldlM_eq_ok (I := fun state => ∀ p ∈ state.1.packages, P p) htable
      (fun _ _ _ _ => forall_packages_addChunk hpackage) hfold

/-- What holds of every loaded package holds of the packages of a loaded table. -/
theorem forall_packages_of_load (hpackage : ∀ c p, Package.load c mode = .ok p → P p)
    {b : ByteArray} {table : Table} (h : load b mode = .ok table) :
    ∀ p ∈ table.packages, P p := by
  have hfile : ∀ (t : Table) (c : Chunk) (t' : Table), (∀ p ∈ t.packages, P p) →
      addFileChunk mode t c = .ok t' → ∀ p ∈ t'.packages, P p := by
    intro t c t' ht h
    unfold addFileChunk at h
    split at h
    · exact forall_packages_addTable hpackage ht h
    · cases h
      exact ht
  unfold load at h
  split at h
  · cases h
  obtain ⟨found, hfold, h⟩ := exists_of_bind_eq_ok h
  split at h
  · cases h
  · cases h
    exact of_foldlM_eq_ok (I := fun t : Table => ∀ p ∈ t.packages, P p)
      (fun p hp => absurd hp List.not_mem_nil) (fun t c _ => hfile t c) hfold

/-- All packages of a loaded table are arranged. They are overlays if the table was loaded
with overlay maps. -/
theorem of_load (hidmap : ∀ m, mode.idmap = some m → m.targetPackage ≠ 0) {b : ByteArray}
    {table : Table} (h : load b mode = .ok table) :
    ∀ p ∈ table.packages, p.Arranged ∧ p.isOverlay = mode.idmap.isSome :=
  forall_packages_of_load (fun _ _ => Package.of_load hidmap) h

end Table

namespace Asset

/-- The ways to come by an asset: from the file of a table, whose application packages may be
loaded as shared libraries, from such a file and that of its overlay maps, and from nothing. -/
inductive Loaded : Asset → Prop where
  | plain {path : String} {b : ByteArray} {system : Bool} {a : Asset}
      (h : load path b system = .ok a) : Loaded a
  | library {path : String} {b : ByteArray} {system : Bool} {a : Asset}
      (h : loadAsLibrary path b system = .ok a) : Loaded a
  | overlay {path : String} {idmap b : ByteArray} {system : Bool} {a : Asset}
      (h : loadOverlay path idmap b system = .ok a) : Loaded a
  | empty (path : String) : Loaded (empty path)

theorem of_loadWith {path : String} {b : ByteArray} {mode : LoadMode} {a : Asset}
    (h : loadWith path b mode = .ok a) :
    ∃ table, Table.load b mode = .ok table ∧ a = ⟨path, table, mode.idmap⟩ := by
  unfold loadWith at h
  split at h
  · cases h
  split at h
  · next table hload => exact ⟨table, hload, (Except.ok.inj h).symm⟩
  · cases h

/-- The packages of a loaded asset are arranged. They are overlays if the asset is one. -/
theorem Loaded.arranged {a : Asset} (h : a.Loaded) :
    ∀ p ∈ a.table.packages, p.Arranged ∧ p.isOverlay = a.isOverlay := by
  have hwith : ∀ (path : String) (b : ByteArray) (mode : LoadMode),
      (∀ m, mode.idmap = some m → m.targetPackage ≠ 0) → loadWith path b mode = .ok a →
        ∀ p ∈ a.table.packages, p.Arranged ∧ p.isOverlay = a.isOverlay := by
    intro path b mode hidmap hload
    obtain ⟨table, htable, rfl⟩ := of_loadWith hload
    exact Table.of_load hidmap htable
  cases h with
  | plain hload => exact hwith _ _ _ (fun m hm => by cases hm) hload
  | library hload => exact hwith _ _ _ (fun m hm => by cases hm) hload
  | overlay hload =>
      unfold loadOverlay at hload
      split at hload
      · next m hm =>
        refine hwith _ _ _ (fun m' hm' => ?_) hload
        obtain rfl := Option.some.inj hm'
        exact Idmap.targetPackage_ne_zero hm
      · cases hload
  | empty path => exact fun p hp => absurd hp List.not_mem_nil

end Asset

/-! ## Built tables -/

namespace TableBuild

variable {b : TableBuild}

/-- The asset of a table that was built. -/
def asset (b : TableBuild) (path : String) : Asset :=
  ⟨path, b.source.loaded {}, none⟩

theorem size_encode_ne_zero (b : TableBuild) : b.source.encode.toByteArray.size ≠ 0 := by
  have hplain : ∀ p ∈ b.source.packages, p.extraChunks = [] := by
    rw [packages_source]
    intro p hp
    obtain ⟨built, _, rfl⟩ := List.mem_map.mp hp
    exact built.extraChunks_source
  rw [List.size_toByteArray, ← TableSource.bytes_parts hplain, ChunkParts.length_bytes]
  simp [ChunkParts.size, chunkHeaderSize]

/-- The file of a table that was built is loaded as its asset. -/
theorem WithinLimits.load_asset (h : b.WithinLimits)
    (hoffsets : ∀ p ∈ b.packages, p.typeIdOffset.toNat ≤ 255) (path : String) :
    Asset.load path b.source.encode.toByteArray false = .ok (b.asset path) := by
  have hsources : ∀ p ∈ b.source.packages, p.typeIdOffset.toNat ≤ 255 := by
    rw [packages_source]
    intro p hp
    obtain ⟨built, hbuilt, rfl⟩ := List.mem_map.mp hp
    rw [built.source_eq]
    exact hoffsets built hbuilt
  unfold Asset.load Asset.loadWith
  rw [if_neg b.size_encode_ne_zero, h.writable.load_encode hsources rfl]
  rfl

theorem WithinLimits.loaded_asset (h : b.WithinLimits)
    (hoffsets : ∀ p ∈ b.packages, p.typeIdOffset.toNat ≤ 255) (path : String) :
    (b.asset path).Loaded :=
  .plain (h.load_asset hoffsets path)

end TableBuild

end AppResources
