import AppResources.Proofs.DeclaredTypes
import AppResources.Proofs.WrittenMaps
import Mathlib.Data.List.Nodup

/-!
# Types of an overlay

A type of an overlay for which there is a map is put into the slot of the type that it replaces.
A slot holds one type. Where the maps of two types have the same target, the type with the
greater id takes the slot, and nothing tells that the other one was there. So all types with a
map are kept exactly if their maps have different targets.

## Main definitions

* `Chunk.Redirects`: a declared type has a map to a type of the target.
* `Package.KeepsOverlaid`: every declared type with a map stands in the slot of its target.

## Main results

* `Package.exists_load_of_load`: a package that loads by itself loads with overlay maps.
* `Package.spec?_of_load_plain`, `Package.spec?_of_load_overlay`: which type stands in a slot.
* `Package.keepsOverlaid_iff`: when all types with a map are kept.
-/

namespace AppResources

/-! ## Slots of types with maps -/

namespace TypeSpec

variable {m : Idmap} {s : TypeSpec} {i : Nat}

theorem mappedBy_none_of_declared? {chunks : List Chunk} {id : UInt8}
    (h : declared? chunks id = some s) : s.mappedBy none = s := by
  obtain ⟨header, -, rfl⟩ := Option.map_eq_some_iff.mp h
  rfl

theorem minus_one_eq_iff {n : Nat} : (Bytes.minus n 1).map some = .ok (some i) ↔ n = i + 1 := by
  unfold Bytes.minus
  split
  · show Except.ok (some (n - 1)) = Except.ok (some i) ↔ _
    rw [Except.ok.injEq, Option.some.injEq]
    omega
  · show Except.error _ = Except.ok _ ↔ _
    exact ⟨nofun, fun h => by omega⟩

theorem slot?_mappedBy_none :
    (s.mappedBy none).slot? false = .ok (some i) ↔ s.id.toNat = i + 1 :=
  minus_one_eq_iff

theorem slot?_mappedBy_some :
    (s.mappedBy (some m)).slot? true = .ok (some i) ↔
      ∃ map, m.mapOf? s.id = some map ∧ map.targetType.toNat = i + 1 := by
  have hoverlay : (s.mappedBy (some m)).overlay = m.mapOf? s.id := rfl
  unfold slot?
  rw [hoverlay]
  cases m.mapOf? s.id with
  | some map => simp only [minus_one_eq_iff, Option.some.injEq, exists_eq_left']
  | none => simp

end TypeSpec

/-! ## Loading with overlay maps -/

namespace Package

variable {c : Chunk} {mode : LoadMode} {m : Idmap} {p : Package}

/-- In the slots of a package that is loaded by itself stand the declared types. -/
theorem spec?_of_load_plain (hmode : mode.idmap = none) (h : load c mode = .ok p) {i : Nat}
    {s : TypeSpec} :
    p.spec? i = some s ↔ c.typeSpec? s.id = some s ∧ s.id.toNat = i + 1 := by
  rw [spec?_of_load h, hmode]
  simp only [Option.isSome_none, TypeSpec.slot?_mappedBy_none]
  constructor
  · rintro ⟨t, ht, rfl, hslot, -⟩
    rw [TypeSpec.mappedBy_none_of_declared? ht]
    exact ⟨ht, TypeSpec.slot?_mappedBy_none.mp hslot⟩
  · rintro ⟨hs, hid⟩
    have hself := TypeSpec.mappedBy_none_of_declared? hs
    refine ⟨s, hs, hself.symm, ?_, fun u _ huid => ?_⟩
    · rw [← hself]
      exact TypeSpec.slot?_mappedBy_none.mpr hid
    · exact UInt8.le_iff_toNat_le.mpr (by omega)

/-- In the slots of an overlay stand declared types with a map to the type of the slot, of several
ones that with the greatest id. -/
theorem spec?_of_load_overlay (hmode : mode.idmap = some m) (h : load c mode = .ok p) {i : Nat}
    {s : TypeSpec} :
    p.spec? i = some s ↔
      ∃ t map, c.typeSpec? t.id = some t ∧ m.mapOf? t.id = some map ∧
        s = { t with overlay := some map } ∧ map.targetType.toNat = i + 1 ∧
        ∀ u map', c.typeSpec? u.id = some u → m.mapOf? u.id = some map' →
          map'.targetType.toNat = i + 1 → u.id ≤ t.id := by
  have hmapped : ∀ {t : TypeSpec} {map}, m.mapOf? t.id = some map →
      t.mappedBy (some m) = { t with overlay := some map } := by
    intro t map hmap
    rw [TypeSpec.mappedBy, Option.bind_some, hmap]
  rw [spec?_of_load h, hmode]
  simp only [Option.isSome_some, TypeSpec.slot?_mappedBy_some]
  constructor
  · rintro ⟨t, ht, rfl, hslot, hgreatest⟩
    obtain ⟨map, hmap, htarget⟩ := TypeSpec.slot?_mappedBy_some.mp hslot
    exact ⟨t, map, ht, hmap, hmapped hmap, htarget,
      fun u map' hu hmap' htarget' => hgreatest u hu ⟨map', hmap', htarget'⟩⟩
  · rintro ⟨t, map, ht, hmap, rfl, htarget, hgreatest⟩
    refine ⟨t, ht, (hmapped hmap).symm, ?_, fun u hu ⟨map', hmap', htarget'⟩ =>
      hgreatest u map' hu hmap' htarget'⟩
    rw [← hmapped hmap]
    exact TypeSpec.slot?_mappedBy_some.mpr ⟨map, hmap, htarget⟩

/-- A package that loads by itself loads with overlay maps, and keeps the names of its types. -/
theorem exists_load_of_load (hmode : mode.idmap = none) (h : load c mode = .ok p)
    (hm : Idmap.Targeted m.maps) :
    ∃ q, load c { mode with idmap := some m } = .ok q ∧ q.typeNames = p.typeNames := by
  obtain ⟨header, found, slots, hmade, rfl⟩ := load_eq_ok_iff.mp h
  have hcontent := hmade.content
  rw [hmode] at hcontent
  have harranged : found.Arranged header.typeIdOffset.toNat false :=
    of_foldlM_eq_ok (fun s hs => absurd hs List.not_mem_nil)
      (fun _ _ _ _ => @PackageContent.arranged_addChunk header none _ _ _ _) hcontent
  have hnumbered : ∀ s ∈ found.specs.map (TypeSpec.mappedBy (some m)), s.Numbered := by
    intro s hs
    obtain ⟨t, ht, rfl⟩ := List.mem_map.mp hs
    exact ⟨(harranged t ht).id_ne_zero, fun map hmap => hm map (List.mem_of_find?_eq_some hmap)⟩
  obtain ⟨mapped, hmapped, -⟩ := (@TypeSpec.safe_slotsOf true _ hnumbered).exists_ok
  refine ⟨_, load_eq_ok_iff.mpr ⟨header, found.mappedBy (some m), mapped, ?_, rfl⟩, rfl⟩
  exact {
    headerSize := hmade.headerSize
    frame := hmade.frame
    read := hmade.read
    id_le := hmade.id_le
    offset_le := hmade.offset_le
    content := by
      rw [PackageContent.foldlM_addChunk_mappedBy, hcontent]
      rfl
    whole := hmade.whole
    slots := hmapped }

end Package

/-! ## Types that are kept -/

/-- The chunks inside a package declare a type with an id, and there is a map from it to a type
of the target. -/
def Chunk.Redirects (c : Chunk) (m : Idmap) (id : UInt8) (target : UInt16) : Prop :=
  ∃ s map, c.typeSpec? id = some s ∧ m.mapOf? id = some map ∧ map.targetType = target

/-- Where maps have different targets, no two types have a map to one type. -/
theorem Chunk.Redirects.unique {c : Chunk} {m : Idmap} {id id' : UInt8} {target : UInt16}
    (hdistinct : (m.maps.map (·.targetType)).Nodup) (h : c.Redirects m id target)
    (h' : c.Redirects m id' target) : id = id' := by
  obtain ⟨-, map, -, hmap, rfl⟩ := h
  obtain ⟨-, map', -, hmap', hsame⟩ := h'
  have heq : map' = map := List.inj_on_of_nodup_map hdistinct (List.mem_of_find?_eq_some hmap')
    (List.mem_of_find?_eq_some hmap) hsame
  have hid := List.find?_some hmap
  have hid' := List.find?_some hmap'
  rw [beq_iff_eq] at hid hid'
  rw [heq, hid] at hid'
  exact UInt8.toNat_inj.mp hid'

/-- Every declared type with a map stands in the slot of the type that it replaces, with its
variants and its map. -/
def Package.KeepsOverlaid (p : Package) (c : Chunk) (m : Idmap) : Prop :=
  ∀ id s map, c.typeSpec? id = some s → m.mapOf? id = some map →
    p.spec? (map.targetType.toNat - 1) = some { s with overlay := some map }

namespace Package

variable {c : Chunk} {mode : LoadMode} {m : Idmap} {p : Package} {b : ByteArray}

theorem targetType_pos (hidmap : Idmap.load b = .ok m) {id : UInt8} {map : OverlayMap}
    (hmap : m.mapOf? id = some map) : 1 ≤ map.targetType.toNat := by
  have htargeted := (Idmap.safe_load b).of_ok hidmap
  have hne := htargeted map (List.mem_of_find?_eq_some hmap)
  exact Nat.one_le_iff_ne_zero.mpr fun hzero => hne (UInt16.toNat_inj.mp hzero)

/-- A type with a map is kept if no type with a greater id has a map to the same target. -/
theorem spec?_eq_iff_greatest (hidmap : Idmap.load b = .ok m) (hmode : mode.idmap = some m)
    (h : load c mode = .ok p) {id : UInt8} {s : TypeSpec} {map : OverlayMap}
    (hs : c.typeSpec? id = some s) (hmap : m.mapOf? id = some map) :
    p.spec? (map.targetType.toNat - 1) = some { s with overlay := some map } ↔
      ∀ other, c.Redirects m other map.targetType → other ≤ id := by
  have hid := TypeSpec.id_of_declared? hs
  subst hid
  have htarget : map.targetType.toNat = map.targetType.toNat - 1 + 1 := by
    have := targetType_pos hidmap hmap
    omega
  rw [spec?_of_load_overlay hmode h]
  constructor
  · rintro ⟨t, found, ht, hfound, heq, -, hgreatest⟩ other ⟨u, map', hu, hmap', hsame⟩
    -- the type in the slot is this one, since both have one id
    have hid := congrArg TypeSpec.id heq
    have htid : t.id = s.id := hid.symm
    have huid := TypeSpec.id_of_declared? hu
    subst huid
    rw [← htid]
    exact hgreatest u map' hu hmap' (by rw [hsame]; exact htarget)
  · intro hgreatest
    refine ⟨s, map, hs, hmap, rfl, htarget, fun u map' hu hmap' hsame => ?_⟩
    refine hgreatest u.id ⟨u, map', hu, hmap', UInt16.toNat_inj.mp ?_⟩
    omega

/-- All types of an overlay for which there is a map are kept exactly if no two of them have a map
to one type of the target. -/
theorem keepsOverlaid_iff (hidmap : Idmap.load b = .ok m) (hmode : mode.idmap = some m)
    (h : load c mode = .ok p) :
    p.KeepsOverlaid c m ↔
      ∀ id id' target, c.Redirects m id target → c.Redirects m id' target → id = id' := by
  constructor
  · rintro hkeeps id id' target ⟨s, map, hs, hmap, rfl⟩ ⟨s', map', hs', hmap', hsame⟩
    have hfirst := (spec?_eq_iff_greatest hidmap hmode h hs hmap).mp (hkeeps id s map hs hmap)
    have hsecond :=
      (spec?_eq_iff_greatest hidmap hmode h hs' hmap').mp (hkeeps id' s' map' hs' hmap')
    exact UInt8.le_antisymm (hsecond id ⟨s, map, hs, hmap, hsame.symm⟩)
      (hfirst id' ⟨s', map', hs', hmap', hsame⟩)
  · intro hdistinct id s map hs hmap
    refine (spec?_eq_iff_greatest hidmap hmode h hs hmap).mpr fun other hother => ?_
    exact UInt8.le_of_eq (hdistinct other id _ hother ⟨s, map, hs, hmap, rfl⟩)

end Package

/-! ## An overlay with two types -/

namespace PackageBuild

variable {b : PackageBuild}

/-- The chunk of a package that was built, at the start of a buffer. -/
def chunk (b : PackageBuild) : Chunk := b.source.parts.placed 0

/-- The types that the chunk of a package declares are those that its calls have put in. -/
theorem typeSpec?_chunk (h : b.WithinLimits) (hoffset : b.typeIdOffset.toNat ≤ 255)
    (hcanonical : b.IsCanonical) (hsmall : b.source.parts.size < 4294967296) {number : Nat}
    {s : TypeSpec}
    (hs : b.spec? (number + 1) = some s) (hnumber : number < greatestType b.typeCalls) :
    b.chunk.typeSpec? s.id = some s ∧ s.id.toNat = number + 1 := by
  have hwritable := h.writable hsmall
  have hsource : b.source.typeIdOffset = b.typeIdOffset := by rw [source_eq]
  have hload : Package.load b.chunk {} = .ok (b.source.loaded {}) :=
    hwritable.load_parts (hsource ▸ hoffset) rfl rfl
  have hshows : (b.source.loaded {}).Shows b := shows_loaded hwritable hoffset hcanonical rfl
  refine (Package.spec?_of_load_plain rfl hload).mp (Package.spec?_eq_some_iff.mpr ?_)
  rw [hshows.slots, List.getElem?_map, List.getElem?_range hnumber, ← hs]
  rfl

/-- A package with two types. -/
def twoTypes : PackageBuild :=
  ⟨0x7f, "overlay", [
    .typeNames ["mipmap", "string"],
    .keyNames ["title"],
    .entry 1 0 {} (.plain 0 0 ⟨.colorRgb8, 0xff0000⟩),
    .entry 2 0 {} (.plain 0 0 ⟨.decimal, 7⟩)]⟩

theorem withinLimits_twoTypes : twoTypes.WithinLimits := by decide +kernel

theorem size_twoTypes : twoTypes.source.parts.size < 4294967296 := by decide +kernel

theorem typeSpec?_twoTypes :
    (∃ s, twoTypes.chunk.typeSpec? 1 = some s) ∧ ∃ s, twoTypes.chunk.typeSpec? 2 = some s := by
  have hoffset : twoTypes.typeIdOffset.toNat ≤ 255 := by decide
  have hcanonical : twoTypes.IsCanonical := by decide +kernel
  have hfirst := @typeSpec?_chunk _ withinLimits_twoTypes hoffset hcanonical size_twoTypes 0 _ rfl
    (by decide)
  have hsecond := @typeSpec?_chunk _ withinLimits_twoTypes hoffset hcanonical size_twoTypes 1 _ rfl
    (by decide)
  exact ⟨⟨_, hfirst.1⟩, _, hsecond.1⟩

/-- The package with two types loads with the maps of every file of maps. -/
theorem exists_load_twoTypes {b : ByteArray} {m : Idmap} (hm : Idmap.load b = .ok m) :
    ∃ p, Package.load twoTypes.chunk { idmap := some m } = .ok p ∧
      p.typeNames = (twoTypes.source.loaded {}).typeNames := by
  have hload : Package.load twoTypes.chunk {} = .ok (twoTypes.source.loaded {}) :=
    (withinLimits_twoTypes.writable size_twoTypes).load_parts (by decide +kernel) rfl rfl
  obtain ⟨p, hp, hnames⟩ := Package.exists_load_of_load rfl hload ((Idmap.safe_load b).of_ok hm)
  exact ⟨p, hp, hnames⟩

end PackageBuild

namespace Package

/-- Maps of two types to different types of the target. -/
def apartMaps : List OverlayMap := [⟨3, 1, 0, #[0]⟩, ⟨4, 2, 0, #[0]⟩]

theorem keepsOverlaid_apart :
    ∃ m p, Idmap.load (Idmap.encode 0x7f apartMaps).toByteArray = .ok m ∧
      load PackageBuild.twoTypes.chunk { idmap := some m } = .ok p ∧
      p.KeepsOverlaid PackageBuild.twoTypes.chunk m ∧
      (p.spec? 2).map (·.overlay) = some (some ⟨3, 1, 0, #[0]⟩) ∧
      (p.spec? 3).map (·.overlay) = some (some ⟨4, 2, 0, #[0]⟩) := by
  obtain ⟨m, hm, -, hmaps⟩ := @Idmap.load_encode apartMaps 0x7f (by decide) (by decide)
    (by decide) (by decide)
  obtain ⟨p, hp, -⟩ := PackageBuild.exists_load_twoTypes hm
  have hdistinct : (m.maps.map (·.targetType)).Nodup := by
    rw [hmaps]
    decide
  have hkeeps : p.KeepsOverlaid PackageBuild.twoTypes.chunk m :=
    (keepsOverlaid_iff hm rfl hp).mpr fun _ _ _ h h' => h.unique hdistinct h'
  obtain ⟨⟨s, hs⟩, t, ht⟩ := PackageBuild.typeSpec?_twoTypes
  have hmap : m.mapOf? 1 = some ⟨3, 1, 0, #[0]⟩ := by
    rw [Idmap.mapOf?, hmaps]
    rfl
  have hmap' : m.mapOf? 2 = some ⟨4, 2, 0, #[0]⟩ := by
    rw [Idmap.mapOf?, hmaps]
    rfl
  refine ⟨m, p, hm, hp, hkeeps, ?_, ?_⟩
  · exact congrArg (Option.map (·.overlay)) (hkeeps 1 s _ hs hmap)
  · exact congrArg (Option.map (·.overlay)) (hkeeps 2 t _ ht hmap')

/-- Maps of two types to one type of the target. -/
def sharedMaps : List OverlayMap := [⟨1, 1, 0, #[0]⟩, ⟨1, 2, 0, #[0]⟩]

/-- Not all types of an overlay for which there is a map are kept: of two types with one target
the first one is lost. -/
theorem not_forall_keepsOverlaid :
    ¬ ∀ (b : ByteArray) (m : Idmap) (c : Chunk) (mode : LoadMode) (p : Package),
      Idmap.load b = .ok m → mode.idmap = some m → load c mode = .ok p →
        p.KeepsOverlaid c m := by
  intro hall
  obtain ⟨m, hm, -, hmaps⟩ := @Idmap.load_encode sharedMaps 0x7f (by decide) (by decide)
    (by decide) (by decide)
  obtain ⟨p, hp, -⟩ := PackageBuild.exists_load_twoTypes hm
  obtain ⟨⟨s, hs⟩, t, ht⟩ := PackageBuild.typeSpec?_twoTypes
  have hmap : m.mapOf? 1 = some ⟨1, 1, 0, #[0]⟩ := by
    rw [Idmap.mapOf?, hmaps]
    rfl
  have hmap' : m.mapOf? 2 = some ⟨1, 2, 0, #[0]⟩ := by
    rw [Idmap.mapOf?, hmaps]
    rfl
  have hslot := hall _ m _ _ p hm rfl hp 1 s _ hs hmap
  have hgreatest := (spec?_eq_iff_greatest hm rfl hp hs hmap).mp hslot
  exact absurd (hgreatest 2 ⟨t, _, ht, hmap', rfl⟩) (by decide)

end Package

end AppResources
