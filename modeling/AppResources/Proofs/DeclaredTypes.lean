import AppResources.Proofs.LoadedAssets

/-!
# The types that a package declares

The chunks inside a package declare its types. The first type spec with an id declares the type,
and its variants are all those that carry the id. Loading finds just these types, and puts each
of them into one slot. Where several types have the same slot, the one with the greatest id
stays there.

Overlay maps change nothing about what is found: a package that is loaded with them has the same
types, each with the map for its id.

## Main definitions

* `Chunk.typeSpec?`: the type with an id that the chunks inside a package declare.
* `TypeSpec.mappedBy`: a type with the overlay map for its id.
* `TypeSpec.Collected`: types are those that chunks declare, in ascending order.
* `TypeSpec.Last`: a type has the greatest id of those that belong into a slot.

## Main results

* `PackageContent.addChunk_mappedBy`: overlay maps change nothing about what is found.
* `TypeSpec.Collected.concat`: one more chunk.
* `TypeSpec.getElem?_slotsOf_iff`: the type in a slot is the last one that belongs there.
* `Package.spec?_of_load`: which type stands in a slot of a loaded package.
-/

namespace AppResources

section Lists

variable {α β : Type} {f : α → Option β} {xs : List α} {x : α}

theorem filterMap_concat_none (h : f x = none) : (xs ++ [x]).filterMap f = xs.filterMap f := by
  rw [List.filterMap_append, List.filterMap_cons_none h, List.filterMap_nil, List.append_nil]

theorem filterMap_concat_some {y : β} (h : f x = some y) :
    (xs ++ [x]).filterMap f = xs.filterMap f ++ [y] := by
  rw [List.filterMap_append, List.filterMap_cons_some h, List.filterMap_nil]

end Lists

/-! ## Declared types -/

namespace Chunk

/-- The type spec that a chunk holds. -/
def typeHeader? (c : Chunk) : Option TypeSpecHeader :=
  if c.kind = .tableTypeSpec then (TypeSpecHeader.read c).toOption else none

/-- The variant that a chunk holds. -/
def variant? (c : Chunk) : Option Variant :=
  if c.kind = .tableType then (Variant.read c).toOption else none

theorem typeHeader?_of_read {c : Chunk} {h : TypeSpecHeader} (hkind : c.kind = .tableTypeSpec)
    (hread : TypeSpecHeader.read c = .ok h) : c.typeHeader? = some h := by
  rw [typeHeader?, if_pos hkind, hread]
  rfl

theorem variant?_of_read {c : Chunk} {v : Variant} (hkind : c.kind = .tableType)
    (hread : Variant.read c = .ok v) : c.variant? = some v := by
  rw [variant?, if_pos hkind, hread]
  rfl

theorem typeHeader?_eq_none {c : Chunk} (hkind : c.kind ≠ .tableTypeSpec) :
    c.typeHeader? = none :=
  if_neg hkind

theorem variant?_eq_none {c : Chunk} (hkind : c.kind ≠ .tableType) : c.variant? = none :=
  if_neg hkind

end Chunk

namespace TypeSpec

/-- The type that a type spec declares in front of variants. -/
def ofHeader (h : TypeSpecHeader) (variants : List Variant) : TypeSpec where
  id := h.id
  axes := h.axes
  overlay := none
  variants := variants.filter (·.typeId == h.id)

/-- The type with an id that chunks declare: the first type spec with the id, and all variants
that carry the id. -/
def declared? (chunks : List Chunk) (id : UInt8) : Option TypeSpec :=
  ((chunks.filterMap Chunk.typeHeader?).find? (·.id == id)).map fun h =>
    ofHeader h (chunks.filterMap Chunk.variant?)

/-- A type with one more variant, if the variant carries its id. -/
def withVariant (v : Variant) (s : TypeSpec) : TypeSpec :=
  if s.id = v.typeId then { s with variants := s.variants ++ [v] } else s

theorem id_withVariant (v : Variant) (s : TypeSpec) : (s.withVariant v).id = s.id := by
  unfold withVariant
  split <;> rfl

variable {chunks : List Chunk} {c : Chunk} {id : UInt8} {s t : TypeSpec} {v : Variant}
  {specs specs' : List TypeSpec}

theorem id_of_declared? (h : declared? chunks id = some s) : s.id = id := by
  obtain ⟨header, hfind, rfl⟩ := Option.map_eq_some_iff.mp h
  have hid := List.find?_some hfind
  exact beq_iff_eq.mp hid

/-! ### One more chunk -/

theorem declared?_concat_other (hspec : c.typeHeader? = none) (hvariant : c.variant? = none) :
    declared? (chunks ++ [c]) id = declared? chunks id := by
  rw [declared?, filterMap_concat_none hspec, filterMap_concat_none hvariant, declared?]

theorem declared?_concat_variant (hspec : c.typeHeader? = none) (hvariant : c.variant? = some v) :
    declared? (chunks ++ [c]) id = (declared? chunks id).map (withVariant v) := by
  rw [declared?, filterMap_concat_none hspec, filterMap_concat_some hvariant, declared?,
    Option.map_map]
  refine congrArg (Option.map · _) (funext fun h => ?_)
  rw [Function.comp_apply, withVariant, ofHeader, ofHeader, List.filter_append]
  by_cases hid : v.typeId = h.id
  · rw [if_pos hid.symm, List.filter_cons_of_pos (by simpa using hid)]
    rfl
  · rw [if_neg (Ne.symm hid), List.filter_cons_of_neg (by simpa using hid)]
    simp

theorem declared?_concat_header {h : TypeSpecHeader} (hspec : c.typeHeader? = some h)
    (hvariant : c.variant? = none) :
    declared? (chunks ++ [c]) id =
      (declared? chunks id).or
        (if h.id = id then some (ofHeader h (chunks.filterMap Chunk.variant?)) else none) := by
  rw [declared?, filterMap_concat_some hspec, filterMap_concat_none hvariant, declared?,
    List.find?_append]
  cases (chunks.filterMap Chunk.typeHeader?).find? (·.id == id) with
  | some first => rfl
  | none =>
      rw [Option.none_or, List.find?_singleton, Option.map_none, Option.none_or]
      by_cases hid : h.id = id
      · simp [hid]
      · simp [hid]

/-! ## Collecting types -/

theorem mem_insertById_iff : t ∈ s.insertById specs ↔ t = s ∨ t ∈ specs := by
  induction specs with
  | nil => simp [insertById]
  | cons other rest ih =>
      unfold insertById
      split
      · exact List.mem_cons
      · rw [List.mem_cons, ih, List.mem_cons]
        exact or_left_comm

theorem ascending_insertById (hfresh : ∀ t ∈ specs, t.id ≠ s.id)
    (hasc : specs.Pairwise fun s t => s.id < t.id) :
    (s.insertById specs).Pairwise fun s t => s.id < t.id := by
  induction specs with
  | nil => exact List.pairwise_singleton _ _
  | cons other rest ih =>
      obtain ⟨hother, hrest⟩ := List.pairwise_cons.mp hasc
      obtain ⟨hne, hfreshRest⟩ := List.forall_mem_cons.mp hfresh
      unfold insertById
      split
      · next hlt =>
        refine List.pairwise_cons.mpr ⟨fun t ht => ?_, hasc⟩
        rcases List.mem_cons.mp ht with rfl | ht
        · exact hlt
        · exact UInt8.lt_trans hlt (hother t ht)
      · next hnot =>
        refine List.pairwise_cons.mpr ⟨fun t ht => ?_, ih hfreshRest hrest⟩
        rcases mem_insertById_iff.mp ht with rfl | ht
        · exact UInt8.lt_of_le_of_ne (UInt8.not_lt.mp hnot) hne
        · exact hother t ht

/-- A variant is added to the one type whose id it carries. -/
theorem eq_map_of_addVariant? (hasc : specs.Pairwise fun s t => s.id < t.id)
    (h : addVariant? v specs = some specs') :
    specs' = specs.map (withVariant v) ∧ ∃ s ∈ specs, s.id = v.typeId := by
  induction specs generalizing specs' with
  | nil => cases h
  | cons s rest ih =>
      obtain ⟨hs, hrest⟩ := List.pairwise_cons.mp hasc
      unfold addVariant? at h
      split at h
      · next hid =>
        cases h
        -- the types behind it have other ids
        have hkept : rest.map (withVariant v) = rest := by
          refine (List.map_congr_left fun t ht => ?_).trans (List.map_id rest)
          exact if_neg fun heq => UInt8.lt_irrefl _ (hid.trans heq.symm ▸ hs t ht)
        rw [List.map_cons, hkept, withVariant, if_pos hid]
        exact ⟨rfl, s, List.mem_cons_self, hid⟩
      · next hid =>
        obtain ⟨tail, htail, rfl⟩ := Option.map_eq_some_iff.mp h
        obtain ⟨rfl, t, ht, hcarried⟩ := ih hrest htail
        rw [List.map_cons, withVariant, if_neg hid]
        exact ⟨rfl, t, List.mem_cons_of_mem s ht, hcarried⟩

/-- Types are those that chunks declare, in ascending order of their ids, and every variant was
found behind its type spec. -/
structure Collected (chunks : List Chunk) (specs : List TypeSpec) : Prop where
  ascending : specs.Pairwise fun s t => s.id < t.id
  mem_iff : ∀ s, s ∈ specs ↔ declared? chunks s.id = some s
  behind : ∀ v ∈ chunks.filterMap Chunk.variant?, ∃ s ∈ specs, s.id = v.typeId

theorem collected_nil : Collected [] [] where
  ascending := List.Pairwise.nil
  mem_iff s := by simp [declared?]
  behind v hv := by cases hv

namespace Collected

theorem concat_declared {header : TypeSpecHeader} (h : Collected chunks specs)
    (hheader : c.typeHeader? = some header) (hvariant : c.variant? = none)
    (hfresh : ∀ s ∈ specs, s.id ≠ header.id) :
    Collected (chunks ++ [c])
      (insertById ⟨header.id, header.axes, none, []⟩ specs) := by
  -- no variant of the type came before it
  have hnone : (chunks.filterMap Chunk.variant?).filter (·.typeId == header.id) = [] := by
    rw [List.filter_eq_nil_iff]
    intro v hv hid
    obtain ⟨s, hs, hsid⟩ := h.behind v hv
    exact hfresh s hs (hsid.trans (beq_iff_eq.mp hid))
  have hnew : ofHeader header (chunks.filterMap Chunk.variant?) =
      ⟨header.id, header.axes, none, []⟩ := by
    rw [ofHeader, hnone]
  have hundeclared : declared? chunks header.id = none := by
    by_contra hsome
    obtain ⟨s, hs⟩ := Option.ne_none_iff_exists'.mp hsome
    have hid := id_of_declared? hs
    rw [← hid] at hs
    exact hfresh s ((h.mem_iff s).mpr hs) hid
  refine ⟨ascending_insertById hfresh h.ascending, fun s => ?_, fun v hv => ?_⟩
  · rw [mem_insertById_iff, declared?_concat_header hheader hvariant, hnew, h.mem_iff]
    by_cases hid : header.id = s.id
    · rw [if_pos hid, ← hid, hundeclared, Option.none_or]
      simp [eq_comm]
    · rw [if_neg hid, Option.or_none]
      exact or_iff_right fun heq => hid (by rw [heq])
  · rw [filterMap_concat_none hvariant] at hv
    obtain ⟨s, hs, hid⟩ := h.behind v hv
    exact ⟨s, mem_insertById_iff.mpr (.inr hs), hid⟩

theorem concat_repeated {header : TypeSpecHeader} (h : Collected chunks specs)
    (hheader : c.typeHeader? = some header) (hvariant : c.variant? = none) (hs : s ∈ specs)
    (hid : s.id = header.id) : Collected (chunks ++ [c]) specs := by
  refine ⟨h.ascending, fun t => ?_, fun v hv => ?_⟩
  · rw [declared?_concat_header hheader hvariant, h.mem_iff]
    by_cases hsame : header.id = t.id
    · rw [← hsame, ← hid, (h.mem_iff s).mp hs]
      rfl
    · rw [if_neg hsame, Option.or_none]
  · rw [filterMap_concat_none hvariant] at hv
    exact h.behind v hv

theorem concat_variant (h : Collected chunks specs) (hheader : c.typeHeader? = none)
    (hvariant : c.variant? = some v) (hs : s ∈ specs) (hid : s.id = v.typeId) :
    Collected (chunks ++ [c]) (specs.map (withVariant v)) := by
  refine ⟨?_, fun t => ?_, fun w hw => ?_⟩
  · rw [List.pairwise_map]
    exact h.ascending.imp fun hlt => by rwa [id_withVariant, id_withVariant]
  · rw [declared?_concat_variant hheader hvariant, List.mem_map, Option.map_eq_some_iff]
    constructor
    · rintro ⟨s, hs, rfl⟩
      exact ⟨s, by rw [id_withVariant]; exact (h.mem_iff s).mp hs, rfl⟩
    · rintro ⟨s, hs, rfl⟩
      rw [id_withVariant] at hs
      exact ⟨s, (h.mem_iff s).mpr hs, rfl⟩
  · rw [filterMap_concat_some hvariant, List.mem_append, List.mem_singleton] at hw
    rcases hw with hw | rfl
    · obtain ⟨t, ht, htid⟩ := h.behind w hw
      exact ⟨_, List.mem_map_of_mem ht, by rw [id_withVariant]; exact htid⟩
    · exact ⟨_, List.mem_map_of_mem hs, by rw [id_withVariant]; exact hid⟩

theorem concat_other (h : Collected chunks specs) (hheader : c.typeHeader? = none)
    (hvariant : c.variant? = none) : Collected (chunks ++ [c]) specs := by
  refine ⟨h.ascending, fun t => ?_, fun v hv => ?_⟩
  · rw [declared?_concat_other hheader hvariant, h.mem_iff]
  · rw [filterMap_concat_none hvariant] at hv
    exact h.behind v hv

/-- One more chunk of a package is collected. -/
theorem concat {offset : Nat} (h : Collected chunks specs)
    (hstep : PackageContent.TypeStep none offset c specs specs') :
    Collected (chunks ++ [c]) specs' := by
  cases hstep with
  | declared hkind hread _ hfresh =>
      have hvariant : c.variant? = none := Chunk.variant?_eq_none (by rw [hkind]; nofun)
      exact h.concat_declared (Chunk.typeHeader?_of_read hkind hread) hvariant hfresh
  | repeated hkind hread hs hid =>
      have hvariant : c.variant? = none := Chunk.variant?_eq_none (by rw [hkind]; nofun)
      exact h.concat_repeated (Chunk.typeHeader?_of_read hkind hread) hvariant hs hid
  | variant hkind hread hadded =>
      have hheader : c.typeHeader? = none := Chunk.typeHeader?_eq_none (by rw [hkind]; nofun)
      obtain ⟨rfl, s, hs, hid⟩ := eq_map_of_addVariant? h.ascending hadded
      exact h.concat_variant hheader (Chunk.variant?_of_read hkind hread) hs hid
  | other hnoSpec hnoVariant =>
      exact h.concat_other (Chunk.typeHeader?_eq_none hnoSpec) (Chunk.variant?_eq_none hnoVariant)

end Collected

/-! ## Slots of ascending types -/

variable {isOverlay : Bool} {slots before : List (Option TypeSpec)} {last : TypeSpec} {i : Nat}

/-- A type has the greatest id of those in a list that belong into a slot. -/
structure Last (isOverlay : Bool) (i : Nat) (specs : List TypeSpec) (s : TypeSpec) : Prop where
  mem : s ∈ specs
  slot : s.slot? isOverlay = .ok (some i)
  greatest : ∀ t ∈ specs, t.slot? isOverlay = .ok (some i) → t.id ≤ s.id

/-- A type takes its slot from the type before it, and leaves the other slots alone. -/
theorem getElem?_place_iff (h : place isOverlay before last = .ok slots) :
    slots[i]? = some (some s) ↔
      last.slot? isOverlay = .ok (some i) ∧ s = last ∨
        last.slot? isOverlay ≠ .ok (some i) ∧ before[i]? = some (some s) := by
  unfold place at h
  split at h
  · next j hslot =>
    cases h
    rw [getElem?_placeAt_iff, hslot]
    by_cases hij : i = j
    · simp [hij]
    · simp [hij, Ne.symm hij]
  · next hslot =>
    cases h
    simp [hslot]
  · cases h

theorem last_concat_iff (hlast : ∀ t ∈ specs, t.id < last.id) :
    Last isOverlay i (specs ++ [last]) s ↔
      last.slot? isOverlay = .ok (some i) ∧ s = last ∨
        last.slot? isOverlay ≠ .ok (some i) ∧ Last isOverlay i specs s := by
  have hself : last ∈ specs ++ [last] := List.mem_append_right _ (List.mem_singleton_self _)
  constructor
  · rintro ⟨hs, hslot, hgreatest⟩
    rcases List.mem_append.mp hs with hs | hs
    · refine .inr ⟨fun hlastSlot => ?_, hs, hslot, fun t ht =>
        hgreatest t (List.mem_append_left _ ht)⟩
      exact UInt8.not_le.mpr (hlast s hs) (hgreatest last hself hlastSlot)
    · obtain rfl := List.mem_singleton.mp hs
      exact .inl ⟨hslot, rfl⟩
  · rintro (⟨hslot, rfl⟩ | ⟨hother, hs, hslot, hgreatest⟩)
    · refine ⟨hself, hslot, fun t ht _ => ?_⟩
      rcases List.mem_append.mp ht with ht | ht
      · exact UInt8.le_of_lt (hlast t ht)
      · rw [List.mem_singleton.mp ht]
        exact UInt8.le_refl _
    · refine ⟨List.mem_append_left _ hs, hslot, fun t ht htslot => ?_⟩
      rcases List.mem_append.mp ht with ht | ht
      · exact hgreatest t ht htslot
      · exact absurd (List.mem_singleton.mp ht ▸ htslot) hother

/-- In a slot stands the type with the greatest id of those that belong there. -/
theorem getElem?_slotsOf_iff (hasc : specs.Pairwise fun s t => s.id < t.id)
    (h : slotsOf isOverlay specs = .ok slots) :
    slots[i]? = some (some s) ↔ Last isOverlay i specs s := by
  induction specs using List.reverseRecOn generalizing slots with
  | nil =>
      cases h
      exact ⟨nofun, fun hs => absurd hs.mem List.not_mem_nil⟩
  | append_singleton specs last ih =>
      obtain ⟨hspecs, -, hlast⟩ := List.pairwise_append.mp hasc
      obtain ⟨before, hbefore, hplace⟩ := foldlM_concat_eq_ok_iff.mp h
      rw [getElem?_place_iff hplace, ih hspecs hbefore,
        last_concat_iff fun t ht => hlast t ht last (List.mem_singleton_self _)]

/-! ## Overlay maps -/

/-- A type with the overlay map for its id. -/
def mappedBy (idmap : Option Idmap) (s : TypeSpec) : TypeSpec :=
  { s with overlay := idmap.bind (·.mapOf? s.id) }

theorem insertById_mappedBy (idmap : Option Idmap) (s : TypeSpec) (specs : List TypeSpec) :
    (s.mappedBy idmap).insertById (specs.map (mappedBy idmap)) =
      (s.insertById specs).map (mappedBy idmap) := by
  induction specs with
  | nil => rfl
  | cons other rest ih =>
      rw [List.map_cons, insertById, insertById, ih]
      show (if s.id < other.id then _ else _) = _
      split <;> rfl

theorem addVariant?_mappedBy (idmap : Option Idmap) (v : Variant) (specs : List TypeSpec) :
    addVariant? v (specs.map (mappedBy idmap)) =
      (addVariant? v specs).map (List.map (mappedBy idmap)) := by
  induction specs with
  | nil => rfl
  | cons s rest ih =>
      rw [List.map_cons, addVariant?, addVariant?, ih]
      show (if s.id = v.typeId then _ else _) = _
      split
      · rfl
      · cases addVariant? v rest <;> rfl

end TypeSpec

namespace PackageContent

variable {header : PackageHeader} {start : Nat}

/-- The content of a package whose types have the overlay maps for their ids. -/
def mappedBy (idmap : Option Idmap) (found : PackageContent) : PackageContent :=
  { found with specs := found.specs.map (TypeSpec.mappedBy idmap) }

/-- Overlay maps change nothing about what is found in a chunk. -/
theorem addChunk_mappedBy (idmap : Option Idmap) (found : PackageContent) (c : Chunk) :
    addChunk idmap header start (found.mappedBy idmap) c =
      (addChunk none header start found c).map (mappedBy idmap) := by
  unfold addChunk
  split
  · rfl
  split
  · unfold addPool
    split
    · split <;> rfl
    split
    · split <;> rfl
    · rfl
  · unfold addSpec
    split
    · rfl
    next spec _ =>
    split
    · rfl
    have hany : ((found.mappedBy idmap).specs.any fun s => s.id == spec.id) =
        found.specs.any fun s => s.id == spec.id := by
      rw [mappedBy, List.any_map]
      rfl
    rw [hany]
    split
    · rfl
    · have hinsert := TypeSpec.insertById_mappedBy idmap ⟨spec.id, spec.axes, none, []⟩ found.specs
      exact congrArg (fun specs => Except.ok { found with specs := specs }) hinsert
  · unfold addVariant
    split
    · rfl
    next v _ =>
    rw [mappedBy, TypeSpec.addVariant?_mappedBy]
    cases TypeSpec.addVariant? v found.specs <;> rfl
  · unfold addLibraries
    split <;> rfl
  · rfl

/-- What is found in a package with overlay maps is what is found without them. -/
theorem foldlM_addChunk_mappedBy (idmap : Option Idmap) (chunks : List Chunk) :
    chunks.foldlM (addChunk idmap header start) {} =
      (chunks.foldlM (addChunk none header start) {}).map (mappedBy idmap) :=
  foldlM_map (addChunk_mappedBy idmap) chunks {}

end PackageContent

/-! ## Loaded packages -/

/-- The type with an id that the chunks inside a package declare. -/
def Chunk.typeSpec? (c : Chunk) (id : UInt8) : Option TypeSpec :=
  TypeSpec.declared? c.children.chunks id

namespace Package

variable {c : Chunk} {mode : LoadMode} {p : Package} {header : PackageHeader}
  {found : PackageContent} {slots : List (Option TypeSpec)}

/-- The types that are found in a package are the declared ones with their overlay maps. -/
theorem MadeFrom.specs_eq (h : MadeFrom c mode header found slots) :
    ∃ specs, TypeSpec.Collected c.children.chunks specs ∧
      found.specs = specs.map (TypeSpec.mappedBy mode.idmap) := by
  have hcontent := h.content
  rw [PackageContent.foldlM_addChunk_mappedBy] at hcontent
  cases hplain : c.children.chunks.foldlM (PackageContent.addChunk none header c.position) {} with
  | error e =>
      rw [hplain] at hcontent
      cases hcontent
  | ok plain =>
      rw [hplain] at hcontent
      cases hcontent
      refine ⟨plain.specs, ?_, rfl⟩
      exact of_foldlM_prefix (P := fun before found => TypeSpec.Collected before found.specs)
        TypeSpec.collected_nil
        (fun _ _ _ _ hbefore hadd => hbefore.concat (PackageContent.typeStep_addChunk hadd)) hplain

/-- In a slot stands the declared type with the greatest id of those that belong there. -/
theorem spec?_of_load (h : load c mode = .ok p) {i : Nat} {s : TypeSpec} :
    p.spec? i = some s ↔
      ∃ t, c.typeSpec? t.id = some t ∧ s = t.mappedBy mode.idmap ∧
        s.slot? mode.idmap.isSome = .ok (some i) ∧
        ∀ u, c.typeSpec? u.id = some u →
          (u.mappedBy mode.idmap).slot? mode.idmap.isSome = .ok (some i) → u.id ≤ t.id := by
  obtain ⟨header, found, slots, hmade, rfl⟩ := load_eq_ok_iff.mp h
  obtain ⟨specs, hcollected, hspecs⟩ := hmade.specs_eq
  have hslots := hmade.slots
  rw [hspecs] at hslots
  have hascending : (specs.map (TypeSpec.mappedBy mode.idmap)).Pairwise fun s t => s.id < t.id :=
    List.pairwise_map.mpr hcollected.ascending
  rw [spec?_eq_some_iff]
  show slots[i]? = some (some s) ↔ _
  rw [TypeSpec.getElem?_slotsOf_iff hascending hslots]
  constructor
  · rintro ⟨hs, hslot, hgreatest⟩
    obtain ⟨t, ht, rfl⟩ := List.mem_map.mp hs
    refine ⟨t, (hcollected.mem_iff t).mp ht, rfl, hslot, fun u hu huslot => ?_⟩
    have hmem : u.mappedBy mode.idmap ∈ specs.map (TypeSpec.mappedBy mode.idmap) :=
      List.mem_map_of_mem ((hcollected.mem_iff u).mpr hu)
    have hle := hgreatest _ hmem huslot
    exact hle
  · rintro ⟨t, ht, rfl, hslot, hgreatest⟩
    refine ⟨List.mem_map_of_mem ((hcollected.mem_iff t).mpr ht), hslot, fun w hw hwslot => ?_⟩
    obtain ⟨u, hu, rfl⟩ := List.mem_map.mp hw
    exact hgreatest u ((hcollected.mem_iff u).mp hu) hwslot

end Package

end AppResources
