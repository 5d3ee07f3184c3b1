import AppResources.Proofs.TypeCalls
import AppResources.Proofs.WrittenPackages

/-!
# Calls that build packages

A package is put together by calls that set its names, declare libraries and add to its types.
The last value of a setting counts, libraries are listed in order, and a type is built from
the calls for its id alone. What was built is written and read back, so that a loaded package
says what the calls say.

## Main definitions

* `PackageCall`: a call that adds to a package.
* `PackageBuild`: a package with the calls that build it, and what these say.
* `PackageBuild.WithinLimits`: the calls have values that can be written.
* `Package.Shows`: a loaded package has what calls have put into a package, and nothing else.

## Main results

* `PackageBuild.source_eq`: the package that was built, field by field.
* `lookup_typesOf`: every type is built from its own calls.
* `PackageBuild.shows_loaded`: the package that is read back says what the calls say.
-/

namespace AppResources

/-- A call that adds to a package. -/
inductive PackageCall where
  /-- Sets what is added to the type ids of the package. -/
  | typeIdOffset (offset : UInt32)
  /-- Names the first types. -/
  | typeNames (names : List String)
  /-- Names the entries. -/
  | keyNames (names : List String)
  /-- Adds an entry. -/
  | entry (typeId : UInt8) (index : UInt16) (config : Config) (e : Entry)
  /-- Adds axes to those of an entry. -/
  | axes (typeId : UInt8) (index : UInt16) (added : Axes)
  /-- Declares a library. -/
  | library (buildId : UInt32) (name : String)

namespace PackageCall

/-- The package after a call. -/
def apply (p : PackageSource) : PackageCall → PackageSource
  | .typeIdOffset offset => { p with typeIdOffset := offset }
  | .typeNames names => { p with typeNames := names }
  | .keyNames names => { p with keyNames := names }
  | .entry typeId index config e => p.addEntry typeId index config e
  | .axes typeId index added => p.addAxes typeId index added
  | .library buildId name => p.addLibrary buildId name

/-- The offset that is set. -/
def typeIdOffset? : PackageCall → Option UInt32
  | .typeIdOffset offset => some offset
  | _ => none

/-- The names of types that are set. -/
def typeNames? : PackageCall → Option (List String)
  | .typeNames names => some names
  | _ => none

/-- The names of entries that are set. -/
def keyNames? : PackageCall → Option (List String)
  | .keyNames names => some names
  | _ => none

/-- The library that is declared. -/
def library? : PackageCall → Option LibrarySource
  | .library buildId name => some ⟨buildId, name⟩
  | _ => none

/-- The type that a call adds to, and what it does to the type. -/
def typeCall? : PackageCall → Option (UInt8 × TypeCall)
  | .entry typeId index config e => some (typeId, .entry index config e)
  | .axes typeId index added => some (typeId, .axes index added)
  | _ => none

end PackageCall

/-- A package with the calls that build it. -/
structure PackageBuild where
  /-- The id. -/
  id : UInt32
  /-- The name. -/
  name : String
  /-- The calls in order. -/
  calls : List PackageCall

namespace PackageBuild

/-- The package that the calls build. -/
def source (b : PackageBuild) : PackageSource :=
  b.calls.foldl PackageCall.apply { id := b.id, name := b.name }

/-! ## What the calls say -/

/-- What is added to the type ids. -/
def typeIdOffset (b : PackageBuild) : UInt32 :=
  (b.calls.filterMap PackageCall.typeIdOffset?).getLast?.getD 0

/-- The names of the first types. -/
def givenTypeNames (b : PackageBuild) : List String :=
  (b.calls.filterMap PackageCall.typeNames?).getLast?.getD []

/-- The names of the entries. -/
def keyNames (b : PackageBuild) : List String :=
  (b.calls.filterMap PackageCall.keyNames?).getLast?.getD []

/-- The libraries in order. -/
def libraries (b : PackageBuild) : List LibrarySource :=
  b.calls.filterMap PackageCall.library?

/-- The calls that add to types, with the ids of the types. -/
def typeCalls (b : PackageBuild) : List (UInt8 × TypeCall) :=
  b.calls.filterMap PackageCall.typeCall?

/-- The calls that add to the type with an id. -/
def callsFor (typed : List (UInt8 × TypeCall)) (number : Nat) : List TypeCall :=
  (typed.filter fun x => x.1.toNat = number).map Prod.snd

/-- The greatest id of a type, or zero. -/
def greatestType (typed : List (UInt8 × TypeCall)) : Nat :=
  typed.foldl (fun greatest x => max greatest x.1.toNat) 0

/-- The names of all types: those that were given, and generated ones behind them. -/
def typeNames (b : PackageBuild) : List String :=
  b.givenTypeNames ++
    ((List.range (greatestType b.typeCalls)).drop b.givenTypeNames.length).map
      PackageSource.generatedName

/-- The type with an id, if any call adds to it. -/
def spec? (b : PackageBuild) (number : Nat) : Option TypeSpec :=
  match callsFor b.typeCalls number with
  | [] => none
  | calls => some (TypeCall.spec (UInt8.ofNat number) calls)

/-- The calls have values that can be written. -/
structure WithinLimits (b : PackageBuild) : Prop where
  id_le : b.id.toNat ≤ 255
  name_short : (Text.unitsOf b.name).length ≤ 127
  name_plain : '\x00' ∉ b.name.toList
  keys_short : ∀ s ∈ b.keyNames, (Text.utf8Bytes s).length ≤ 0x7fff
  libraries : ∀ l ∈ b.libraries, l.Writable
  typeIds : ∀ x ∈ b.typeCalls, 1 ≤ x.1.toNat ∧ x.1.toNat + b.typeIdOffset.toNat ≤ 255
  indices : ∀ x ∈ b.typeCalls, x.2.index.toNat ≤ 65534
  storable : ∀ x ∈ b.typeCalls, ∀ e ∈ x.2.added?, e.Storable

instance : DecidablePred WithinLimits := fun b =>
  decidable_of_iff
    (b.id.toNat ≤ 255 ∧ (Text.unitsOf b.name).length ≤ 127 ∧ '\x00' ∉ b.name.toList ∧
      (∀ s ∈ b.keyNames, (Text.utf8Bytes s).length ≤ 0x7fff) ∧
      (∀ l ∈ b.libraries, l.Writable) ∧
      (∀ x ∈ b.typeCalls, 1 ≤ x.1.toNat ∧ x.1.toNat + b.typeIdOffset.toNat ≤ 255) ∧
      (∀ x ∈ b.typeCalls, x.2.index.toNat ≤ 65534) ∧
      ∀ x ∈ b.typeCalls, ∀ e ∈ x.2.added?, e.Storable)
    ⟨fun ⟨hid, hshort, hplain, hkeys, hlibraries, htypes, hindices, hstorable⟩ =>
        ⟨hid, hshort, hplain, hkeys, hlibraries, htypes, hindices, hstorable⟩,
      fun h => ⟨h.id_le, h.name_short, h.name_plain, h.keys_short, h.libraries, h.typeIds,
        h.indices, h.storable⟩⟩

/-- The kinds of all values that the calls put in are those with their tags. -/
def IsCanonical (b : PackageBuild) : Prop :=
  ∀ x ∈ b.typeCalls, ∀ e ∈ x.2.added?, e.IsCanonical

instance : DecidablePred IsCanonical := fun b =>
  inferInstanceAs (Decidable (∀ x ∈ b.typeCalls, ∀ e ∈ x.2.added?, e.IsCanonical))

end PackageBuild

/-- A loaded package has what calls have put into a package, and nothing else. -/
structure Package.Shows (p : Package) (b : PackageBuild) : Prop where
  name : p.name = b.name
  id : p.id.toNat = b.id.toNat
  typeIdOffset : p.typeIdOffset.toNat = b.typeIdOffset.toNat
  typeNames : p.typeNames.map StringPool.strings = some (b.typeNames.map some)
  keyNames : p.keyNames.map StringPool.strings = some (b.keyNames.map some)
  libraries : p.libraries = b.libraries.map LibrarySource.loaded
  slots : p.slots = (List.range (PackageBuild.greatestType b.typeCalls)).map fun i =>
    b.spec? (i + 1)

/-! ## Types -/

/-- The types after a call for one of them. -/
def addTyped (types : List (Nat × TypeSource)) (x : UInt8 × TypeCall) : List (Nat × TypeSource) :=
  Numbered.alter x.1.toNat (fun found => x.2.apply (found.getD {})) types

/-- The types that calls build. -/
def typesOf (typed : List (UInt8 × TypeCall)) : List (Nat × TypeSource) :=
  typed.foldl addTyped []

section Types

open PackageBuild

variable {typed : List (UInt8 × TypeCall)} {x : UInt8 × TypeCall} {number : Nat}

theorem typesOf_concat (typed : List (UInt8 × TypeCall)) (x : UInt8 × TypeCall) :
    typesOf (typed ++ [x]) = addTyped (typesOf typed) x := by
  rw [typesOf, List.foldl_append]
  rfl

theorem ascending_typesOf (typed : List (UInt8 × TypeCall)) :
    Numbered.Ascending (typesOf typed) := by
  induction typed using List.reverseRecOn with
  | nil => exact Numbered.ascending_nil
  | append_singleton typed x ih =>
      rw [typesOf_concat]
      exact Numbered.ascending_alter ih

theorem callsFor_concat (typed : List (UInt8 × TypeCall)) (x : UInt8 × TypeCall) (number : Nat) :
    callsFor (typed ++ [x]) number =
      if x.1.toNat = number then callsFor typed number ++ [x.2] else callsFor typed number := by
  by_cases hx : x.1.toNat = number
  · simp [callsFor, hx]
  · simp [callsFor, hx]

theorem mem_callsFor_iff {c : TypeCall} :
    c ∈ callsFor typed number ↔ ∃ x ∈ typed, x.1.toNat = number ∧ x.2 = c := by
  simp [callsFor]

/-- Every type is built from its own calls. -/
theorem lookup_typesOf (typed : List (UInt8 × TypeCall)) (number : Nat) :
    (typesOf typed).lookup number =
      if callsFor typed number = [] then none
      else some (TypeCall.build (callsFor typed number)) := by
  induction typed using List.reverseRecOn with
  | nil => rfl
  | append_singleton typed x ih =>
      rw [typesOf_concat, addTyped, Numbered.lookup_alter (ascending_typesOf typed),
        callsFor_concat]
      by_cases hx : x.1.toNat = number
      · have hne : callsFor typed number ++ [x.2] ≠ [] := List.concat_ne_nil _ _
        rw [if_pos hx.symm, if_pos hx, if_neg hne, hx, ih, TypeCall.build_concat]
        split
        · next hempty =>
          rw [hempty]
          rfl
        · rfl
      · rw [if_neg (Ne.symm hx), if_neg hx, ih]

theorem bound_typesOf (typed : List (UInt8 × TypeCall)) :
    Numbered.bound (typesOf typed) - 1 = greatestType typed := by
  induction typed using List.reverseRecOn with
  | nil => rfl
  | append_singleton typed x ih =>
      have hgreatest : greatestType (typed ++ [x]) = max (greatestType typed) x.1.toNat := by
        rw [greatestType, List.foldl_append]
        rfl
      rw [typesOf_concat, addTyped, Numbered.bound_alter (ascending_typesOf typed), hgreatest, ← ih]
      omega

end Types

/-! ## The package that was built -/

namespace PackageBuild

variable {b : PackageBuild}

/-- What one more call does to the package. -/
theorem source_concat (id : UInt32) (name : String) (calls : List PackageCall) (c : PackageCall) :
    source ⟨id, name, calls ++ [c]⟩ = c.apply (source ⟨id, name, calls⟩) := by
  rw [source, List.foldl_append]
  rfl

theorem source_eq (b : PackageBuild) :
    b.source =
      { id := b.id
        name := b.name
        typeIdOffset := b.typeIdOffset
        typeNames := b.givenTypeNames
        keyNames := b.keyNames
        types := typesOf b.typeCalls
        libraries := b.libraries } := by
  obtain ⟨id, name, calls⟩ := b
  induction calls using List.reverseRecOn with
  | nil => rfl
  | append_singleton calls c ih =>
      rw [source_concat, ih]
      -- a call sets or extends one field, and is skipped in what the others are told from
      cases c <;>
        simp [typeIdOffset, givenTypeNames, keyNames, libraries, typeCalls, typesOf_concat,
          PackageCall.apply, PackageCall.typeIdOffset?, PackageCall.typeNames?,
          PackageCall.keyNames?, PackageCall.library?, PackageCall.typeCall?,
          PackageSource.addEntry, PackageSource.addAxes, PackageSource.addLibrary,
          PackageSource.alterType, addTyped, TypeCall.apply, List.filterMap_cons]

theorem extraChunks_source (b : PackageBuild) : b.source.extraChunks = [] := by
  rw [source_eq]

theorem allTypeNames_source (b : PackageBuild) : b.source.allTypeNames = b.typeNames := by
  rw [source_eq]
  show ((List.range (max (Numbered.bound (typesOf b.typeCalls) - 1) b.givenTypeNames.length)).map
    fun i => (b.givenTypeNames[i]?).getD (PackageSource.generatedName i)) = _
  rw [bound_typesOf, typeNames]
  generalize greatestType b.typeCalls = greatest
  generalize b.givenTypeNames = given
  apply List.ext_getElem?
  intro k
  by_cases hk : k < given.length
  · rw [List.getElem?_append_left hk, List.getElem?_map, List.getElem?_range (by omega),
      Option.map_some, List.getElem?_eq_getElem hk, Option.getD_some]
  · have hnone : given[k]? = none := List.getElem?_eq_none (Nat.le_of_not_lt hk)
    have hindex : given.length + (k - given.length) = k := by omega
    rw [List.getElem?_append_right (Nat.le_of_not_lt hk), List.getElem?_map, List.getElem?_map,
      List.getElem?_drop, hindex]
    by_cases hgreatest : k < greatest
    · rw [List.getElem?_range hgreatest, List.getElem?_range (by omega)]
      simp only [Option.map_some, hnone, Option.getD_none]
    · have hlast : ∀ n, n ≤ k → (List.range n)[k]? = none := fun n hn =>
        List.getElem?_eq_none (by rw [List.length_range]; exact hn)
      rw [hlast _ (by omega), hlast _ (by omega)]
      rfl

end PackageBuild

/-! ## Types that are read back -/

namespace TypeSource

variable {t : TypeSource} {calls : List TypeCall} {id : UInt8}

/-- A type that reflects calls is read back as the type that they say. -/
theorem Reflects.loaded_eq (h : t.Reflects calls) (id : UInt8)
    (hcanonical : ∀ c ∈ calls, ∀ e ∈ c.added?, e.IsCanonical) :
    t.loaded id = TypeCall.spec id calls := by
  have haxes : t.allAxes =
      (List.range (TypeCall.entryCount calls)).map (TypeCall.axesAt calls) := by
    rw [allAxes, Numbered.dense, List.map_map, h.count]
    exact List.map_congr_left fun i _ => h.axes_lookup i
  have hentry : ∀ config i, (TypeCall.entryAt calls config i).map Entry.reread =
      (TypeCall.entryAt calls config i).map Entry.stored := by
    intro config i
    refine Option.map_congr fun e he => ?_
    obtain ⟨c, hc, hadded⟩ := TypeCall.exists_of_entryAt_eq_some he
    obtain ⟨index, rfl, _⟩ := TypeCall.entryFor?_eq_some_iff.mp hadded
    exact Entry.reread_eq_stored_iff.mpr (hcanonical _ hc e rfl)
  have hvariant : ∀ v ∈ t.variants, (t.variant id v).reread = TypeCall.variant id calls v.1 := by
    intro v hv
    have hentries : (Numbered.dense t.entryCount v.2).map (·.map Entry.reread) =
        (List.range (TypeCall.entryCount calls)).map fun i =>
          (TypeCall.entryAt calls v.1 i).map Entry.stored := by
      rw [Numbered.dense, List.map_map, h.count]
      refine List.map_congr_left fun i _ => ?_
      rw [← hentry]
      exact congrArg _ (h.entries v hv i)
    rw [Variant.reread, variant, TypeCall.variant, ← hentries, List.map_toArray]
  rw [loaded, TypeCall.spec, haxes, List.map_congr_left hvariant, ← h.configs, List.map_map]
  rfl

/-- A type can be written if its calls have values that can be written. -/
theorem Reflects.writable (h : t.Reflects calls) (hid : id ≠ 0)
    (hindices : ∀ c ∈ calls, c.index.toNat ≤ 65534)
    (hstorable : ∀ c ∈ calls, ∀ e ∈ c.added?, e.Storable) : t.Writable id where
  numbered := hid
  few := by
    rw [h.count]
    exact TypeCall.entryCount_le fun c hc => Nat.lt_succ_of_le (hindices c hc)
  storable := by
    intro v hv item hitem
    have hfound := (Numbered.lookup_eq_some_iff (h.ascending v hv)).mpr hitem
    rw [h.entries v hv] at hfound
    obtain ⟨c, hc, hadded⟩ := TypeCall.exists_of_entryAt_eq_some hfound
    obtain ⟨index, rfl, _⟩ := TypeCall.entryFor?_eq_some_iff.mp hadded
    exact hstorable _ hc item.2 rfl

end TypeSource

/-! ## Packages that are read back -/

namespace PackageBuild

variable {b : PackageBuild}

theorem mem_typesOf {typed : List (UInt8 × TypeCall)} {t : Nat × TypeSource}
    (ht : t ∈ typesOf typed) :
    callsFor typed t.1 ≠ [] ∧ t.2.Reflects (callsFor typed t.1) := by
  have hfound := (Numbered.lookup_eq_some_iff (ascending_typesOf typed)).mpr ht
  rw [lookup_typesOf] at hfound
  split at hfound
  · cases hfound
  · next hne =>
    rw [← Option.some.inj hfound]
    exact ⟨hne, TypeSource.reflects_build _⟩

/-- The package that calls within the limits build can be written. -/
theorem WithinLimits.writable (h : b.WithinLimits)
    (hsmall : b.source.parts.size < 4294967296) : b.source.Writable := by
  have hnumbers : ∀ t ∈ typesOf b.typeCalls, 1 ≤ t.1 ∧ b.typeIdOffset.toNat + t.1 ≤ 255 := by
    intro t ht
    obtain ⟨c, hc⟩ := List.exists_mem_of_ne_nil _ (mem_typesOf ht).1
    obtain ⟨x, hx, hid, _⟩ := mem_callsFor_iff.mp hc
    have := h.typeIds x hx
    omega
  have htypes : ∀ t ∈ typesOf b.typeCalls, t.2.Writable (UInt8.ofNat t.1) := by
    intro t ht
    obtain ⟨hpositive, hle⟩ := hnumbers t ht
    refine (mem_typesOf ht).2.writable ?_ ?_ ?_
    · intro hzero
      have hnat := congrArg UInt8.toNat hzero
      rw [UInt8.toNat_ofNat_of_lt' (show t.1 < 256 by omega)] at hnat
      have : (0 : UInt8).toNat = 0 := rfl
      omega
    · intro c hc
      obtain ⟨x, hx, _, rfl⟩ := mem_callsFor_iff.mp hc
      exact h.indices x hx
    · intro c hc
      obtain ⟨x, hx, _, rfl⟩ := mem_callsFor_iff.mp hc
      exact h.storable x hx
  exact {
    plain := b.extraChunks_source
    id_le := by rw [source_eq]; exact h.id_le
    name_short := by rw [source_eq]; exact Nat.lt_succ_of_le h.name_short
    name_plain := by rw [source_eq]; exact h.name_plain
    keys_short := by rw [source_eq]; exact fun s hs => Nat.lt_succ_of_le (h.keys_short s hs)
    libraries := by rw [source_eq]; exact h.libraries
    ascending := by rw [source_eq]; exact ascending_typesOf _
    numbers := by rw [source_eq]; exact hnumbers
    types := by rw [source_eq]; exact htypes
    small := hsmall }

theorem IsCanonical.slots_typesOf (h : b.IsCanonical) :
    TypeSource.slots (typesOf b.typeCalls) =
      (List.range (greatestType b.typeCalls)).map fun i => b.spec? (i + 1) := by
  rw [TypeSource.slots, bound_typesOf]
  apply List.map_congr_left
  intro i _
  rw [lookup_typesOf, spec?]
  have hcanonical : ∀ c ∈ callsFor b.typeCalls (i + 1), ∀ e ∈ c.added?, e.IsCanonical := by
    intro c hc
    obtain ⟨x, hx, _, rfl⟩ := mem_callsFor_iff.mp hc
    exact h x hx
  cases hcalls : callsFor b.typeCalls (i + 1) with
  | nil => rfl
  | cons c rest =>
      rw [if_neg (List.cons_ne_nil _ _), Option.map_some,
        (TypeSource.reflects_build (c :: rest)).loaded_eq _ (hcalls ▸ hcanonical)]

/-- The package that is read back says what the calls say. -/
theorem shows_loaded (h : b.source.Writable) (hoffset : b.typeIdOffset.toNat ≤ 255)
    (hcanonical : b.IsCanonical) {mode : LoadMode} (hmode : mode.idmap = none) :
    (b.source.loaded mode).Shows b where
  name := by
    rw [source_eq]
    rfl
  id := by
    have hid : (b.source.loaded mode).id = UInt8.ofNat b.source.id.toNat := by
      show (mode.idmap.map (·.targetPackage)).getD _ = _
      rw [hmode]
      rfl
    rw [hid, UInt8.toNat_ofNat_of_lt' (Nat.lt_succ_of_le h.id_le), source_eq]
  typeIdOffset := by
    have hread : (b.source.loaded mode).typeIdOffset =
      UInt8.ofNat b.source.typeIdOffset.toNat := rfl
    rw [hread, source_eq]
    exact UInt8.toNat_ofNat_of_lt' (Nat.lt_succ_of_le hoffset)
  typeNames := by
    have hstrings := @StringPool.strings_written false false b.source.allTypeNames
      (h.chunk_small b.source.typePool_mem) fun hutf8 => absurd hutf8 Bool.false_ne_true
    rw [b.allTypeNames_source] at hstrings
    rw [← hstrings, ← b.allTypeNames_source]
    rfl
  keyNames := by
    have hstrings := @StringPool.strings_written true false b.source.keyNames
      (h.chunk_small b.source.keyPool_mem) fun _ => h.keys_short
    have hkeys : b.source.keyNames = b.keyNames := by rw [source_eq]
    rw [← hkeys, ← hstrings]
    rfl
  libraries := by
    rw [source_eq]
    rfl
  slots := by
    show TypeSource.slots b.source.types = _
    rw [source_eq]
    exact hcanonical.slots_typesOf

end PackageBuild

end AppResources
