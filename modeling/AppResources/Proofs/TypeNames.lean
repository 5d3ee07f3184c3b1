import AppResources.Proofs.OverlaidTypes
import AppResources.Report.Package

/-!
# Names of types

The pool of a package names its types by their ids. A report on a package, and the list of its
configurations without those of `mipmap` types, look the names up by slots instead. In a package
that is loaded by itself the slots are those of the ids. In an overlay they are those of the types
that are replaced, so the names are right just where the pool has the same string in both places.

## Main definitions

* `Package.NamesByOwnPool`: types go by the names that the pool has for their ids.

## Main results

* `Package.mem_specs_iff`: the types of a package and their slots.
* `Package.mem_configurations_iff`, `Package.nodup_configurations`: the configurations of a
  package, each of them once.
* `Package.namesByOwnPool_iff`: when the types of a loaded package go by their own names.
-/

namespace AppResources

/-! ## Lists without repetitions -/

section Distinct

variable {α : Type} [BEq α] [LawfulBEq α] {xs found : List α} {x : α}

theorem mem_addNew_iff {y : α} : y ∈ addNew found x ↔ y ∈ found ∨ y = x := by
  unfold addNew
  split
  · next hx =>
    rw [List.contains_iff_mem] at hx
    exact ⟨.inl, fun h => h.elim id fun heq => heq ▸ hx⟩
  · rw [List.mem_append, List.mem_singleton]

theorem nodup_addNew (h : found.Nodup) : (addNew found x).Nodup := by
  unfold addNew
  split
  · exact h
  · next hx =>
    rw [List.contains_iff_mem] at hx
    exact List.nodup_append.mpr ⟨h, List.nodup_singleton x, fun y hy z hz heq =>
      hx (List.mem_singleton.mp hz ▸ heq ▸ hy)⟩

theorem mem_foldl_addNew_iff : x ∈ xs.foldl addNew found ↔ x ∈ found ∨ x ∈ xs := by
  induction xs generalizing found with
  | nil => simp
  | cons y ys ih => rw [List.foldl_cons, ih, mem_addNew_iff, List.mem_cons, or_assoc]

theorem nodup_foldl_addNew (h : found.Nodup) : (xs.foldl addNew found).Nodup := by
  induction xs generalizing found with
  | nil => exact h
  | cons y ys ih => exact ih (nodup_addNew h)

end Distinct

namespace Package

variable {p : Package}

/-! ## Types and configurations -/

theorem mem_numberSlots_iff {first i : Nat} {s : TypeSpec} {slots : List (Option TypeSpec)} :
    (i, s) ∈ numberSlots first slots ↔ ∃ k, slots[k]? = some (some s) ∧ i = first + k := by
  fun_induction numberSlots first slots with
  | case1 => simp
  | case2 first t rest ih =>
      rw [List.mem_cons, ih]
      constructor
      · rintro (heq | ⟨k, hk, rfl⟩)
        · cases heq
          exact ⟨0, rfl, rfl⟩
        · exact ⟨k + 1, hk, by omega⟩
      · rintro ⟨k, hk, rfl⟩
        cases k with
        | zero =>
            cases hk
            exact .inl rfl
        | succ k => exact .inr ⟨k, hk, by omega⟩
  | case3 first rest ih =>
      rw [ih]
      constructor
      · rintro ⟨k, hk, rfl⟩
        exact ⟨k + 1, hk, by omega⟩
      · rintro ⟨k, hk, rfl⟩
        cases k with
        | zero => cases hk
        | succ k => exact ⟨k, hk, by omega⟩

/-- The types of a package are those that stand in its slots. -/
theorem mem_specs_iff {i : Nat} {s : TypeSpec} : (i, s) ∈ p.specs ↔ p.spec? i = some s := by
  rw [specs, mem_numberSlots_iff, spec?_eq_some_iff]
  simp

theorem mem_configurations_iff {withoutMipmaps : Bool} {config : Config} :
    config ∈ p.configurations withoutMipmaps ↔
      ∃ s ∈ p.specs, ¬ (withoutMipmaps = true ∧ p.typeName? s.1 = some "mipmap") ∧
        ∃ v ∈ s.2.variants, v.config = config := by
  unfold configurations
  refine mem_foldl_addNew_iff.trans ?_
  simp [and_assoc, imp_iff_not_or]

theorem nodup_configurations (p : Package) (withoutMipmaps : Bool) :
    (p.configurations withoutMipmaps).Nodup :=
  nodup_foldl_addNew List.nodup_nil

/-! ## Names by slots and by ids -/

/-- The name that the pool of a package has for the id of a type. -/
def ownTypeName? (p : Package) (s : TypeSpec) : Option String :=
  p.typeName? (s.id.toNat - 1)

/-- In reports the types of a package have the names that its pool has for their ids, and the
configurations without those of `mipmap` types are told by these names. -/
structure NamesByOwnPool (p : Package) : Prop where
  reported : (PackageReport.of p).types.map (fun r => (r.id, r.name)) =
    p.specs.map fun s => (s.2.id, p.ownTypeName? s.2)
  mem_configurations : ∀ config, config ∈ p.configurations true ↔
    ∃ s ∈ p.specs, p.ownTypeName? s.2 ≠ some "mipmap" ∧ ∃ v ∈ s.2.variants, v.config = config
  nodup_configurations : (p.configurations true).Nodup

/-- Types go by their own names exactly if the pool has the same string for their slots. -/
theorem namesByOwnPool_iff_slots :
    p.NamesByOwnPool ↔ ∀ s ∈ p.specs, p.typeName? s.1 = p.ownTypeName? s.2 := by
  have hreported : (PackageReport.of p).types.map (fun r => (r.id, r.name)) =
      p.specs.map fun s => (s.2.id, p.typeName? s.1) := by
    rw [PackageReport.of, List.map_map]
    rfl
  constructor
  · intro hnames s hs
    have hall := hnames.reported
    rw [hreported, List.map_inj_left] at hall
    exact congrArg Prod.snd (hall s hs)
  · intro hsame
    refine ⟨?_, fun config => ?_, p.nodup_configurations true⟩
    · rw [hreported]
      exact List.map_congr_left fun s hs => by rw [hsame s hs]
    · rw [mem_configurations_iff]
      refine exists_congr fun s => and_congr_right fun hs => and_congr_left fun _ => ?_
      rw [hsame s hs]
      exact not_congr (and_iff_right rfl)

variable {c : Chunk} {mode : LoadMode}

/-- The slot of a type in a loaded package is told by its map, or else by its id. -/
theorem slot_of_load (h : load c mode = .ok p) {i : Nat} {s : TypeSpec}
    (hs : (i, s) ∈ p.specs) :
    i = match s.overlay with
      | some map => map.targetType.toNat - 1
      | none => s.id.toNat - 1 := by
  rw [mem_specs_iff] at hs
  cases hmode : mode.idmap with
  | none =>
      obtain ⟨hdeclared, hid⟩ := (spec?_of_load_plain hmode h).mp hs
      have hoverlay : s.overlay = none := by
        rw [← TypeSpec.mappedBy_none_of_declared? hdeclared]
        rfl
      rw [hoverlay]
      show i = s.id.toNat - 1
      omega
  | some m =>
      obtain ⟨t, map, -, -, rfl, htarget, -⟩ := (spec?_of_load_overlay hmode h).mp hs
      show i = map.targetType.toNat - 1
      omega

/-- The types of a loaded package go by their own names exactly if its pool has the same string
for every type with a map and for the type that it replaces. Without overlay maps they always
do. -/
theorem namesByOwnPool_iff (h : load c mode = .ok p) :
    p.NamesByOwnPool ↔
      ∀ s ∈ p.specs, ∀ map, s.2.overlay = some map →
        p.typeName? (map.targetType.toNat - 1) = p.ownTypeName? s.2 := by
  rw [namesByOwnPool_iff_slots]
  refine forall₂_congr fun s hs => ?_
  have hslot := slot_of_load h hs
  cases hoverlay : s.2.overlay with
  | some map =>
      rw [hoverlay] at hslot
      rw [hslot]
      exact ⟨fun hsame _ hmap => Option.some.inj hmap ▸ hsame, fun hall => hall map rfl⟩
  | none =>
      rw [hoverlay] at hslot
      rw [hslot]
      exact ⟨nofun, fun _ => rfl⟩

end Package

/-! ## An overlay of another type -/

namespace PackageBuild

variable {b : PackageBuild}

/-- The names of types in a package that was built. -/
theorem typeName?_loaded (h : b.source.Writable) (mode : LoadMode) (i : Nat) :
    (b.source.loaded mode).typeName? i = b.typeNames[i]? := by
  have hstring := @StringPool.string?_written false false b.source.allTypeNames
    (h.chunk_small b.source.typePool_mem) (fun hutf8 => absurd hutf8 Bool.false_ne_true) i
  rw [b.allTypeNames_source] at hstring
  rw [← hstring, ← b.allTypeNames_source]
  rfl

theorem typeName?_twoTypes {p : Package}
    (hnames : p.typeNames = (twoTypes.source.loaded {}).typeNames) (i : Nat) :
    p.typeName? i = ["mipmap", "string"][i]? := by
  have hname := typeName?_loaded (withinLimits_twoTypes.writable size_twoTypes) {} i
  rw [Package.typeName?] at hname ⊢
  rw [hnames, hname]
  rfl

end PackageBuild

/-- The map is the only one. -/
theorem Idmap.mapOf?_eq_some_iff_of_maps_eq {m : Idmap} {map map' : OverlayMap} {id : UInt8}
    (hmaps : m.maps = [map]) :
    m.mapOf? id = some map' ↔ map' = map ∧ map.overlayType.toNat = id.toNat := by
  rw [mapOf?, hmaps, List.find?_singleton]
  split
  · next hid =>
    rw [beq_iff_eq] at hid
    simp [hid, eq_comm]
  · next hid =>
    rw [beq_iff_eq] at hid
    simp [hid]

namespace Package

/-- With a single map, the type for which there is the map stands in the slot of its target. -/
theorem mem_specs_of_maps_eq {c : Chunk} {mode : LoadMode} {m : Idmap} {p : Package}
    {map : OverlayMap} {s : TypeSpec} (hmode : mode.idmap = some m) (h : load c mode = .ok p)
    (hmaps : m.maps = [map]) (hs : c.typeSpec? s.id = some s)
    (hid : map.overlayType.toNat = s.id.toNat) {i : Nat} (htarget : map.targetType.toNat = i + 1) :
    (i, { s with overlay := some map }) ∈ p.specs := by
  rw [mem_specs_iff, spec?_of_load_overlay hmode h]
  refine ⟨s, map, hs, (Idmap.mapOf?_eq_some_iff_of_maps_eq hmaps).mpr ⟨rfl, hid⟩, rfl, htarget,
    fun u map' _ hmap' _ => ?_⟩
  obtain ⟨-, hother⟩ := (Idmap.mapOf?_eq_some_iff_of_maps_eq hmaps).mp hmap'
  exact UInt8.le_iff_toNat_le.mpr (by omega)

/-- A map of the second type to the second type. -/
def alignedMap : OverlayMap := ⟨2, 2, 0, #[0]⟩

theorem namesByOwnPool_aligned :
    ∃ m p, Idmap.load (Idmap.encode 0x7f [alignedMap]).toByteArray = .ok m ∧
      load PackageBuild.twoTypes.chunk { idmap := some m } = .ok p ∧ p.NamesByOwnPool ∧
      ∃ s, s.id = 2 ∧ (1, s) ∈ p.specs ∧ p.ownTypeName? s = some "string" := by
  obtain ⟨m, hm, -, hmaps⟩ := @Idmap.load_encode [alignedMap] 0x7f (by decide) (by decide)
    (by decide) (by decide)
  obtain ⟨p, hp, hnames⟩ := PackageBuild.exists_load_twoTypes hm
  obtain ⟨-, s, hs⟩ := PackageBuild.typeSpec?_twoTypes
  have hid := TypeSpec.id_of_declared? hs
  have hmem : (1, { s with overlay := some alignedMap }) ∈ p.specs :=
    mem_specs_of_maps_eq rfl hp hmaps (hid.symm ▸ hs) (by rw [hid]; rfl) rfl
  refine ⟨m, p, hm, hp, (namesByOwnPool_iff hp).mpr ?_, { s with overlay := some alignedMap },
    hid, hmem, ?_⟩
  · rintro ⟨i, t⟩ ht map hmap
    obtain ⟨u, map', -, hfound, rfl, -⟩ := (spec?_of_load_overlay rfl hp).mp (mem_specs_iff.mp ht)
    obtain ⟨rfl, howner⟩ := (Idmap.mapOf?_eq_some_iff_of_maps_eq hmaps).mp hfound
    obtain rfl := Option.some.inj hmap
    show p.typeName? (alignedMap.targetType.toNat - 1) = p.typeName? (u.id.toNat - 1)
    rw [← howner]
    rfl
  · show p.typeName? (s.id.toNat - 1) = some "string"
    rw [hid, PackageBuild.typeName?_twoTypes hnames]
    rfl

/-- A map of the second type to the first type. -/
def crossedMap : OverlayMap := ⟨1, 2, 0, #[0]⟩

/-- The types of a package do not always go by their own names: a type `string` that replaces the
first type of the target is reported as the `mipmap` that its own package names first. -/
theorem not_forall_namesByOwnPool :
    ¬ ∀ (c : Chunk) (mode : LoadMode) (p : Package),
      (∀ m, mode.idmap = some m → ∃ file, Idmap.load file = .ok m) →
        load c mode = .ok p → p.NamesByOwnPool := by
  intro hall
  obtain ⟨m, hm, -, hmaps⟩ := @Idmap.load_encode [crossedMap] 0x7f (by decide) (by decide)
    (by decide) (by decide)
  obtain ⟨p, hp, hnames⟩ := PackageBuild.exists_load_twoTypes hm
  have hfile : ∀ m', some m = some m' → ∃ file, Idmap.load file = .ok m' :=
    fun m' heq => ⟨_, Option.some.inj heq ▸ hm⟩
  have hown := namesByOwnPool_iff_slots.mp (hall _ _ p hfile hp)
  obtain ⟨-, s, hs⟩ := PackageBuild.typeSpec?_twoTypes
  have hid := TypeSpec.id_of_declared? hs
  have hmem : (0, { s with overlay := some crossedMap }) ∈ p.specs :=
    mem_specs_of_maps_eq rfl hp hmaps (hid.symm ▸ hs) (by rw [hid]; rfl) rfl
  have hname : p.typeName? 0 = p.typeName? (s.id.toNat - 1) := hown _ hmem
  rw [hid, PackageBuild.typeName?_twoTypes hnames, PackageBuild.typeName?_twoTypes hnames]
    at hname
  exact absurd hname (by decide)

end Package

end AppResources
