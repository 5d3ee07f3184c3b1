import AppResources.Encoding.Table
import AppResources.Proofs.PackageCalls
import AppResources.Table
import Mathlib.Data.List.Forall2

/-!
# Tables that were built are loaded

A table is put together by calls, written as one chunk around a pool of strings and its
packages, and loaded from the bytes. The loaded table has the strings and the packages that
the calls say, in the same order. The offset that a package adds to its type ids has to fit
into a byte, also where the package has no types.

## Main definitions

* `TableBuild`: a table with the calls that build it, and what these say.
* `TableBuild.WithinLimits`: the calls have values that can be written.

## Main results

* `TableSource.Writable.load_encode`: a table is loaded from its file.
* `TableBuild.load_source`: a table that was built is loaded with what its calls say.
* `TableBuild.load_of_offset`: a table is refused if an offset of type ids exceeds a byte.
-/

namespace AppResources

/-! ## Written tables -/

namespace TableSource

variable {t : TableSource} {mode : LoadMode}

/-- The number of packages that is declared. -/
def declared (t : TableSource) : UInt32 :=
  t.declaredPackages.getD (UInt32.ofNat t.packages.length)

/-- The pool of strings. -/
def pool (t : TableSource) : ChunkParts :=
  StringPool.parts true false t.strings

/-- The chunks inside a table before they are written. -/
def chunks (t : TableSource) : List ChunkParts :=
  t.pool :: t.packages.map PackageSource.parts

/-- The chunk of a table before it is written. -/
def parts (t : TableSource) : ChunkParts where
  kind := .table
  header := Bytes.bytes32 t.declared
  body := t.chunks.flatMap ChunkParts.bytes

/-- A table whose strings and packages can be written. -/
structure Writable (t : TableSource) : Prop where
  strings_short : ∀ s ∈ t.strings, (Text.utf8Bytes s).length < 32768
  packages : ∀ p ∈ t.packages, p.Writable
  declared : ∀ count, t.declaredPackages = some count → t.packages.length ≤ count.toNat
  small : t.parts.size < 4294967296

theorem bytes_pool (t : TableSource) : t.pool.bytes = StringPool.encode true false t.strings :=
  StringPool.bytes_parts _ _ _

theorem bytes_parts (hplain : ∀ p ∈ t.packages, p.extraChunks = []) :
    t.parts.bytes = t.encode := by
  have hpackages : (t.packages.map PackageSource.parts).flatMap ChunkParts.bytes =
      t.packages.flatMap PackageSource.encode := by
    rw [List.flatMap_map, List.flatMap_def, List.flatMap_def]
    exact congrArg _ (List.map_congr_left fun p hp => PackageSource.bytes_parts (hplain p hp))
  show Chunk.encode .table (Bytes.bytes32 t.declared) (t.chunks.flatMap ChunkParts.bytes) = _
  rw [chunks, List.flatMap_cons, hpackages, bytes_pool]
  rfl

theorem size_parts (t : TableSource) :
    t.parts.size = 12 + (t.chunks.flatMap ChunkParts.bytes).length := rfl

theorem chunk_le (t : TableSource) {c : ChunkParts} (hc : c ∈ t.chunks) :
    c.size ≤ t.parts.size := by
  have hle := ChunkParts.size_le_of_mem hc
  rw [size_parts]
  omega

theorem Writable.chunk_fits (h : t.Writable) : ∀ c ∈ t.chunks, c.Fits := by
  refine List.forall_mem_cons.mpr ⟨?_, ?_⟩
  · exact StringPool.fits_parts (Nat.lt_of_le_of_lt (t.chunk_le List.mem_cons_self) h.small)
  · intro c hc
    obtain ⟨p, hp, rfl⟩ := List.mem_map.mp hc
    exact (h.packages p hp).fits

theorem Writable.fits (h : t.Writable) : t.parts.Fits where
  known := rfl
  headerAligned := by
    show (4 : Nat) % 4 = 0
    decide
  bodyAligned := ChunkParts.length_flatMap_bytes_mod h.chunk_fits
  headerSmall := by
    show (12 : Nat) < 65536
    decide
  small := h.small

/-- As many packages are declared as there are, or more. -/
theorem Writable.length_le_declared (h : t.Writable) :
    t.packages.length ≤ t.declared.toNat := by
  rw [TableSource.declared]
  cases hdeclared : t.declaredPackages with
  | some count => exact h.declared count hdeclared
  | none =>
      have hlength := ChunkParts.length_le_flatMap_bytes t.chunks
      have hcount : t.chunks.length = t.packages.length + 1 := by
        rw [chunks, List.length_cons, List.length_map]
      have hsmall := h.small
      rw [size_parts] at hsmall
      have hnat : (UInt32.ofNat t.packages.length).toNat = t.packages.length :=
        UInt32.toNat_ofNat_of_lt' (show t.packages.length < 4294967296 by omega)
      rw [Option.getD_none, hnat]

section Fold

variable {packages : List PackageSource} {p : PackageSource} {declared : UInt32}
  {position seen : Nat} {table : Table}

/-- A package is added to a table if fewer are there than were declared. -/
theorem addChunk_package (hseen : seen < declared.toNat) :
    Table.addChunk mode declared (table, seen) (p.parts.placed position) =
      match Package.load (p.parts.placed position) mode with
      | .ok package => .ok ({ table with packages := table.packages ++ [package] }, seen + 1)
      | .error e => .error e := by
  have hkind : (p.parts.placed position).kind = .tablePackage := rfl
  have hcount : ¬ declared.toNat < seen + 1 := Nat.not_lt_of_le hseen
  cases hload : Package.load (p.parts.placed position) mode with
  | ok package => simp only [Table.addChunk, hkind, if_neg hcount, hload]
  | error e => simp only [Table.addChunk, hkind, if_neg hcount, hload]

/-- The chunks of packages add the packages in order. -/
theorem foldlM_packages (hpackages : ∀ p ∈ packages, p.Writable)
    (hoffsets : ∀ p ∈ packages, p.typeIdOffset.toNat ≤ 255) (hmode : mode.idmap = none)
    (hposition : position % 4 = 0) (hdeclared : seen + packages.length ≤ declared.toNat) :
    (ChunkParts.placeAll position (packages.map PackageSource.parts)).foldlM
        (Table.addChunk mode declared) (table, seen) =
      .ok ({ table with packages := table.packages ++ packages.map (·.loaded mode) },
        seen + packages.length) := by
  induction packages generalizing position seen table with
  | nil =>
      rw [List.map_nil, List.map_nil, List.append_nil]
      rfl
  | cons p packages ih =>
      obtain ⟨hp, hrest⟩ := List.forall_mem_cons.mp hpackages
      obtain ⟨hoffset, hrestOffsets⟩ := List.forall_mem_cons.mp hoffsets
      rw [List.length_cons] at hdeclared
      have hadd : Table.addChunk mode declared (table, seen) (p.parts.placed position) =
          .ok ({ table with packages := table.packages ++ [p.loaded mode] }, seen + 1) := by
        rw [addChunk_package (by omega), hp.load_parts hoffset hmode hposition]
      rw [List.map_cons, ChunkParts.placeAll, foldlM_cons_of_ok hadd,
        ih hrest hrestOffsets (hp.fits.aligned_behind hposition) (by omega), List.length_cons,
        List.append_assoc, Nat.add_assoc, Nat.add_comm 1]
      rfl

/-- The first package whose offset exceeds a byte ends the load. -/
theorem foldlM_packages_of_offset (hpackages : ∀ p ∈ packages, p.Writable)
    (hp : p ∈ packages) (hoffset : 255 < p.typeIdOffset.toNat) (hmode : mode.idmap = none)
    (hposition : position % 4 = 0) (hdeclared : seen + packages.length ≤ declared.toNat) :
    (ChunkParts.placeAll position (packages.map PackageSource.parts)).foldlM
        (Table.addChunk mode declared) (table, seen) = .error .typeOffsetTooLarge := by
  induction packages generalizing position seen table with
  | nil => cases hp
  | cons first packages ih =>
      obtain ⟨hfirst, hrest⟩ := List.forall_mem_cons.mp hpackages
      rw [List.length_cons] at hdeclared
      have hadd := @addChunk_package mode first declared position seen table (by omega)
      rw [List.map_cons, ChunkParts.placeAll, List.foldlM_cons, hadd]
      by_cases hlarge : 255 < first.typeIdOffset.toNat
      · rw [hfirst.load_parts_of_offset hlarge hmode hposition]
        rfl
      · have hmem : p ∈ packages := by
          obtain rfl | hmem := List.mem_cons.mp hp
          · exact absurd hoffset hlarge
          · exact hmem
        rw [hfirst.load_parts (Nat.le_of_not_lt hlarge) hmode hposition]
        exact ih hrest hmem (hfirst.fits.aligned_behind hposition) (by omega)

end Fold

/-- The table before its packages are added. -/
def start (t : TableSource) (mode : LoadMode) : Table where
  strings := some (StringPool.written true false t.strings)
  isSystem := mode.system

/-- The fold over the packages of a table, from behind its strings on. -/
def foldPackages (t : TableSource) (mode : LoadMode) : Except LoadError (Table × Nat) :=
  (ChunkParts.placeAll (12 + t.pool.size) (t.packages.map PackageSource.parts)).foldlM
    (Table.addChunk mode t.declared) (t.start mode, 0)

theorem Writable.addTable_parts (h : t.Writable) :
    Table.addTable mode { isSystem := mode.system } (t.parts.placed 0) =
      (t.foldPackages mode).map Prod.fst := by
  have hheaderSize : (t.parts.placed 0).headerSize = 12 := rfl
  have hpayload : (t.parts.placed 0).payloadPosition = 12 := rfl
  have hframe := ChunkParts.frame_placed t.parts 0
  have hword : Bytes.word32? t.parts.header.toByteArray 0 = some t.declared :=
    (Bytes.holds_toByteArray _).word32?
  have hwalk : walkAt t.parts.body.toByteArray 12 = ⟨ChunkParts.placeAll 12 t.chunks, none⟩ :=
    ChunkParts.walkAt_bytes h.chunk_fits rfl
  have hload := @StringPool.load_encode true false t.strings
    (Nat.lt_of_le_of_lt (t.chunk_le List.mem_cons_self) h.small)
  have hpool : Table.addChunk mode t.declared ({ isSystem := mode.system }, 0)
      (t.pool.placed 12) = .ok (t.start mode, 0) := by
    have hkind : (t.pool.placed 12).kind = .stringPool := rfl
    simp only [Table.addChunk, hkind, Option.isSome_none, Bool.false_eq_true, if_false,
      ChunkParts.bytes_placed, bytes_pool, hload]
    rfl
  have hfold : (ChunkParts.placeAll 12 t.chunks).foldlM (Table.addChunk mode t.declared)
      ({ isSystem := mode.system }, 0) = t.foldPackages mode := by
    rw [chunks, ChunkParts.placeAll, foldlM_cons_of_ok hpool]
    rfl
  have hleast : ¬ 12 < Table.minHeaderSize := Nat.lt_irrefl _
  simp only [Table.addTable, hheaderSize, if_neg hleast, hframe, hword, hpayload, hwalk, hfold]
  cases t.foldPackages mode with
  | ok found => rfl
  | error e => rfl

/-- The file of a table is loaded by adding its packages to its strings. -/
theorem Writable.load_encode_eq (h : t.Writable) :
    Table.load t.encode.toByteArray mode = (t.foldPackages mode).map Prod.fst := by
  have hbytes := bytes_parts fun p hp => (h.packages p hp).plain
  have hwalk : walkAt t.encode.toByteArray 0 = ⟨[t.parts.placed 0], none⟩ := by
    have hall := @ChunkParts.walkAt_bytes [t.parts] 0 (List.forall_mem_singleton.mpr h.fits) rfl
    rw [List.flatMap_singleton, hbytes] at hall
    exact hall
  have hsize : ¬ t.encode.toByteArray.size < Table.minHeaderSize := by
    rw [List.size_toByteArray, ← hbytes, ChunkParts.length_bytes, size_parts, Table.minHeaderSize]
    omega
  have hadd : Table.addFileChunk mode { isSystem := mode.system } (t.parts.placed 0) =
    (t.foldPackages mode).map Prod.fst := h.addTable_parts
  simp only [Table.load, if_neg hsize, hwalk, List.foldlM_cons, hadd]
  cases t.foldPackages mode with
  | ok found => rfl
  | error e => rfl

/-- The table that is read back. -/
def loaded (t : TableSource) (mode : LoadMode) : Table :=
  { t.start mode with packages := t.packages.map (·.loaded mode) }

/-- A table is loaded from its file. -/
theorem Writable.load_encode (h : t.Writable)
    (hoffsets : ∀ p ∈ t.packages, p.typeIdOffset.toNat ≤ 255) (hmode : mode.idmap = none) :
    Table.load t.encode.toByteArray mode = .ok (t.loaded mode) := by
  rw [h.load_encode_eq, foldPackages, foldlM_packages h.packages hoffsets hmode
    ((h.chunk_fits _ List.mem_cons_self).aligned_behind rfl)
    (by rw [Nat.zero_add]; exact h.length_le_declared)]
  rfl

/-- A table is refused if the offset of one of its packages exceeds a byte. -/
theorem Writable.load_encode_of_offset (h : t.Writable) {p : PackageSource}
    (hp : p ∈ t.packages) (hoffset : 255 < p.typeIdOffset.toNat) (hmode : mode.idmap = none) :
    Table.load t.encode.toByteArray mode = .error .typeOffsetTooLarge := by
  rw [h.load_encode_eq, foldPackages, foldlM_packages_of_offset h.packages hp hoffset hmode
    ((h.chunk_fits _ List.mem_cons_self).aligned_behind rfl)
    (by rw [Nat.zero_add]; exact h.length_le_declared)]
  rfl

end TableSource

/-! ## Tables that calls build -/

/-- A call that adds to a table. -/
inductive TableCall where
  /-- Sets the strings that values refer to. -/
  | strings (values : List String)
  /-- Adds a package. -/
  | package (b : PackageBuild)
  /-- Sets the number of packages to declare. -/
  | packageCount (count : UInt32)

namespace TableCall

/-- The table after a call. -/
def apply (t : TableSource) : TableCall → TableSource
  | .strings values => { t with strings := values }
  | .package b => { t with packages := t.packages ++ [b.source] }
  | .packageCount count => { t with declaredPackages := some count }

/-- The strings that are set. -/
def strings? : TableCall → Option (List String)
  | .strings values => some values
  | _ => none

/-- The package that is added. -/
def package? : TableCall → Option PackageBuild
  | .package b => some b
  | _ => none

/-- The number of packages that is set. -/
def packageCount? : TableCall → Option UInt32
  | .packageCount count => some count
  | _ => none

end TableCall

/-- A table with the calls that build it. -/
structure TableBuild where
  /-- The calls in order. -/
  calls : List TableCall

namespace TableBuild

/-- The table that the calls build. -/
def source (b : TableBuild) : TableSource :=
  b.calls.foldl TableCall.apply {}

/-- The strings that values refer to. -/
def strings (b : TableBuild) : List String :=
  (b.calls.filterMap TableCall.strings?).getLast?.getD []

/-- The packages in order. -/
def packages (b : TableBuild) : List PackageBuild :=
  b.calls.filterMap TableCall.package?

/-- The number of packages to declare, if it is set. -/
def packageCount? (b : TableBuild) : Option UInt32 :=
  (b.calls.filterMap TableCall.packageCount?).getLast?

/-- The calls have values that can be written. -/
structure WithinLimits (b : TableBuild) : Prop where
  strings_short : ∀ s ∈ b.strings, (Text.utf8Bytes s).length ≤ 0x7fff
  packages : ∀ p ∈ b.packages, p.WithinLimits
  declared : ∀ count ∈ b.packageCount?, b.packages.length ≤ count.toNat
  small : b.source.encode.length < 4294967296

-- The count is tested by itself, as a test of all counts could not be evaluated.
instance : DecidablePred WithinLimits := fun b =>
  decidable_of_iff
    ((∀ s ∈ b.strings, (Text.utf8Bytes s).length ≤ 0x7fff) ∧
      (∀ p ∈ b.packages, p.WithinLimits) ∧
      b.packageCount?.all (fun count => decide (b.packages.length ≤ count.toNat)) = true ∧
      b.source.encode.length < 4294967296)
    ⟨fun ⟨hstrings, hpackages, hdeclared, hsmall⟩ =>
        ⟨hstrings, hpackages, by simpa [Option.all_eq_true] using hdeclared, hsmall⟩,
      fun h => ⟨h.strings_short, h.packages, by simpa [Option.all_eq_true] using h.declared,
        h.small⟩⟩

variable {b : TableBuild}

theorem source_eq (b : TableBuild) :
    b.source =
      { strings := b.strings
        packages := b.packages.map PackageBuild.source
        declaredPackages := b.packageCount? } := by
  obtain ⟨calls⟩ := b
  induction calls using List.reverseRecOn with
  | nil => rfl
  | append_singleton calls c ih =>
      have hstep : source ⟨calls ++ [c]⟩ = c.apply (source ⟨calls⟩) := by
        rw [source, List.foldl_append]
        rfl
      rw [hstep, ih]
      -- a call sets or extends one field, and is skipped in what the others are told from
      cases c <;>
        simp [strings, packages, packageCount?, TableCall.apply, TableCall.strings?,
          TableCall.package?, TableCall.packageCount?, List.filterMap_cons]

theorem strings_source (b : TableBuild) : b.source.strings = b.strings := by
  rw [source_eq]

theorem packages_source (b : TableBuild) :
    b.source.packages = b.packages.map PackageBuild.source := by
  rw [source_eq]

theorem WithinLimits.writable (h : b.WithinLimits) : b.source.Writable := by
  have hplain : ∀ p ∈ b.source.packages, p.extraChunks = [] := by
    rw [packages_source]
    intro p hp
    obtain ⟨built, _, rfl⟩ := List.mem_map.mp hp
    exact built.extraChunks_source
  have hsmall : b.source.parts.size < 4294967296 := by
    rw [← ChunkParts.length_bytes, TableSource.bytes_parts hplain]
    exact h.small
  refine ⟨?_, ?_, ?_, hsmall⟩
  · rw [strings_source]
    exact fun s hs => Nat.lt_succ_of_le (h.strings_short s hs)
  · intro p hp
    have hchunk := b.source.chunk_le (List.mem_cons_of_mem _ (List.mem_map_of_mem hp))
    rw [packages_source] at hp
    obtain ⟨built, hbuilt, rfl⟩ := List.mem_map.mp hp
    exact (h.packages built hbuilt).writable (Nat.lt_of_le_of_lt hchunk hsmall)
  · rw [source_eq, List.length_map]
    exact h.declared

/-- A table that was built is loaded, and has the strings and the packages that the calls say
and nothing else. -/
def LoadsBack (b : TableBuild) : Prop :=
  ∀ system asLibrary : Bool, ∃ table,
    Table.load b.source.encode.toByteArray ⟨none, system, asLibrary⟩ = .ok table ∧
      table.strings.map StringPool.strings = some (b.strings.map some) ∧
      List.Forall₂ Package.Shows table.packages b.packages

/-- A table loads back if no offset exceeds a byte and the kinds of all values are those with
their tags. -/
theorem load_source (b : TableBuild) (h : b.WithinLimits)
    (hoffsets : ∀ p ∈ b.packages, p.typeIdOffset.toNat ≤ 255)
    (hcanonical : ∀ p ∈ b.packages, p.IsCanonical) : b.LoadsBack := by
  intro system asLibrary
  have hwritable := h.writable
  have hsources : ∀ p ∈ b.source.packages, p.typeIdOffset.toNat ≤ 255 := by
    rw [packages_source]
    intro p hp
    obtain ⟨built, hbuilt, rfl⟩ := List.mem_map.mp hp
    rw [built.source_eq]
    exact hoffsets built hbuilt
  refine ⟨_, hwritable.load_encode hsources rfl, ?_, ?_⟩
  · have hread := @StringPool.strings_written true false b.source.strings
      (Nat.lt_of_le_of_lt (b.source.chunk_le List.mem_cons_self) hwritable.small)
      fun _ => hwritable.strings_short
    rw [← b.strings_source, ← hread]
    rfl
  · have hshows : ∀ p ∈ b.packages, (p.source.loaded ⟨none, system, asLibrary⟩).Shows p := by
      intro p hp
      refine PackageBuild.shows_loaded (hwritable.packages _ ?_) (hoffsets p hp)
        (hcanonical p hp) rfl
      rw [packages_source]
      exact List.mem_map_of_mem hp
    show List.Forall₂ Package.Shows (b.source.packages.map _) _
    rw [packages_source, List.map_map, List.forall₂_map_left_iff, List.forall₂_same]
    exact hshows

/-- A table with texts, a replaced entry, a bag, a library and a type without a name. -/
def texts : TableBuild where
  calls := [
    .strings ["Hallo", "Hello"],
    .package ⟨0x7f, "app", [
      .typeIdOffset 2,
      .typeNames ["string"],
      .keyNames ["greeting", "style"],
      .entry 1 0 {} (.plain 0 0 ⟨.string, 0⟩),
      .axes 1 0 ⟨4⟩,
      .library 2 "lib",
      .entry 3 2 {} (.bag 1 0 0 [⟨0x01010001, ⟨.decimal, 7⟩⟩]),
      .entry 1 0 {} (.plain 0 2 ⟨.string, 1⟩)]⟩,
    .packageCount 2]

theorem withinLimits_texts : texts.WithinLimits := by decide +kernel

theorem load_source_texts :
    texts.WithinLimits ∧ (∀ p ∈ texts.packages, p.typeIdOffset.toNat ≤ 255) ∧
      (∀ p ∈ texts.packages, p.IsCanonical) ∧ texts.LoadsBack := by
  have hoffsets : ∀ p ∈ texts.packages, p.typeIdOffset.toNat ≤ 255 := by decide
  have hcanonical : ∀ p ∈ texts.packages, p.IsCanonical := by decide +kernel
  exact ⟨withinLimits_texts, hoffsets, hcanonical,
    load_source texts withinLimits_texts hoffsets hcanonical⟩

/-! ## Tables that do not load back -/

/-- A table is refused if a package adds more than a byte to its type ids. -/
theorem load_of_offset (h : b.WithinLimits) {p : PackageBuild} (hp : p ∈ b.packages)
    (hoffset : 255 < p.typeIdOffset.toNat) (system asLibrary : Bool) :
    Table.load b.source.encode.toByteArray ⟨none, system, asLibrary⟩ =
      .error .typeOffsetTooLarge := by
  have hmem : p.source ∈ b.source.packages := by
    rw [packages_source]
    exact List.mem_map_of_mem hp
  refine h.writable.load_encode_of_offset hmem ?_ rfl
  rw [p.source_eq]
  exact hoffset

/-- A table with a package that has no types, and an offset beyond a byte. -/
def shifted : TableBuild where
  calls := [.package ⟨0x7f, "app", [.typeIdOffset 256]⟩]

theorem withinLimits_shifted : shifted.WithinLimits := by decide +kernel

theorem not_loadsBack_shifted : ¬ shifted.LoadsBack := by
  intro hback
  obtain ⟨table, hload, -⟩ := hback false false
  have hrefused := load_of_offset withinLimits_shifted (List.mem_singleton_self _) (by decide)
    false false
  rw [hrefused] at hload
  cases hload

/-- A package with a value that has the tag of a reference, with its meaning left aside. -/
def disguisedPackage : PackageBuild :=
  ⟨0x7f, "app", [.typeNames ["id"], .keyNames ["ok"],
    .entry 1 0 {} (.plain 0 0 ⟨.unknown 0x01, 7⟩)]⟩

/-- A table with this package alone. -/
def disguised : TableBuild where
  calls := [.package disguisedPackage]

theorem withinLimits_disguised : disguised.WithinLimits := by decide +kernel

/-- What was written with the tag of a reference is read as a reference. -/
theorem not_loadsBack_disguised : ¬ disguised.LoadsBack := by
  intro hback
  obtain ⟨table, hload, -, hshows⟩ := hback false false
  have hwritable := withinLimits_disguised.writable
  have hoffsets : ∀ p ∈ disguised.source.packages, p.typeIdOffset.toNat ≤ 255 := by decide
  cases (hwritable.load_encode hoffsets rfl).symm.trans hload
  obtain ⟨hpackage, -⟩ := List.forall₂_cons.mp hshows
  have hslots := hpackage.slots
  exact absurd hslots (by decide +kernel)

/-- The limits alone do not make a table load back, and neither do they with one of the two
conditions: no type id exceeds a byte where there are no types, but the offset is refused, and a
value may have the tag of another kind. -/
theorem not_forall_load_source :
    (¬ ∀ b : TableBuild, b.WithinLimits → (∀ p ∈ b.packages, p.IsCanonical) → b.LoadsBack) ∧
      ¬ ∀ b : TableBuild, b.WithinLimits →
        (∀ p ∈ b.packages, p.typeIdOffset.toNat ≤ 255) → b.LoadsBack :=
  ⟨fun hall => not_loadsBack_shifted (hall shifted withinLimits_shifted (by decide +kernel)),
    fun hall => not_loadsBack_disguised (hall disguised withinLimits_disguised (by decide))⟩

end TableBuild

end AppResources
