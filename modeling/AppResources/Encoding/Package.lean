import AppResources.Config.Axis
import AppResources.Encoding.StringPool
import AppResources.Encoding.Variant

/-!
# Writing packages

A package to be written is put together entry by entry. Entries are grouped by type
and configuration, and the type specs follow from them.

## Main definitions

* `PackageSource`: the content of a package, with `addEntry`, `addAxes`, `addLibrary`.
* `PackageSource.encode`: the chunk of a package.
-/

namespace AppResources

namespace Numbered

/-- Replaces the value under a number in a list of values under ascending numbers. -/
def alter {α : Type} (key : Nat) (f : Option α → α) : List (Nat × α) → List (Nat × α)
  | [] => [(key, f none)]
  | (k, a) :: rest =>
    if key < k then (key, f none) :: (k, a) :: rest
    else if key = k then (k, f (some a)) :: rest
    else (k, a) :: alter key f rest

/-- Stores a value under a number. -/
def insert {α : Type} (key : Nat) (value : α) (items : List (Nat × α)) : List (Nat × α) :=
  alter key (fun _ => value) items

/-- One more than the greatest number. -/
def bound {α : Type} (items : List (Nat × α)) : Nat :=
  match items.getLast? with
  | some item => item.1 + 1
  | none => 0

/-- The values under the numbers below a bound. -/
def dense {α : Type} (bound : Nat) (items : List (Nat × α)) : List (Option α) :=
  (List.range bound).map fun i => items.lookup i

end Numbered

/-- The chunk of a type spec. -/
def TypeSpecHeader.encode (id : UInt8) (axes : List Axes) : List UInt8 :=
  Chunk.encode .tableTypeSpec
    ([id, 0] ++ Bytes.bytes16 0 ++ Bytes.bytes32 (UInt32.ofNat axes.length))
    (axes.flatMap fun a => Bytes.bytes32 a.bits)

/-- A library to be declared. -/
structure LibrarySource where
  /-- The id of the package at build time. -/
  buildId : UInt32
  /-- The name of the package. -/
  name : String

/-- The chunk that lists libraries. -/
def LibrarySource.encodeAll (libraries : List LibrarySource) : List UInt8 :=
  Chunk.encode .tableLibrary (Bytes.bytes32 (UInt32.ofNat libraries.length))
    (libraries.flatMap fun l => Bytes.bytes32 l.buildId ++ Bytes.fixedName 128 l.name)

/-- The content of a type. -/
structure TypeSource where
  /-- The axes of the entries, by entry index. -/
  axes : List (Nat × Axes) := []
  /-- The entries by configuration and index. -/
  variants : List (Config × List (Nat × Entry)) := []

namespace TypeSource

/-- Adds an entry to the variant of a configuration. -/
def addToVariant (config : Config) (index : Nat) (e : Entry) :
    List (Config × List (Nat × Entry)) → List (Config × List (Nat × Entry))
  | [] => [(config, [(index, e)])]
  | (c, entries) :: rest =>
    if c = config then (c, Numbered.insert index e entries) :: rest
    else (c, entries) :: addToVariant config index e rest

/-- Adds axes to those of an entry. -/
def addAxes (t : TypeSource) (index : Nat) (axes : Axes) : TypeSource :=
  { t with axes := Numbered.alter index (fun found => (found.getD .none).union axes) t.axes }

/-- Adds an entry. -/
def addEntry (t : TypeSource) (config : Config) (index : Nat) (e : Entry) : TypeSource :=
  { t.addAxes index .none with variants := addToVariant config index e t.variants }

/-- The number of entries. -/
def entryCount (t : TypeSource) : Nat :=
  Numbered.bound t.axes

/-- The type spec of a type, and its variants behind it. -/
def encode (id : UInt8) (t : TypeSource) : List UInt8 :=
  let axes := (Numbered.dense t.entryCount t.axes).map (·.getD .none)
  TypeSpecHeader.encode id axes ++
    t.variants.flatMap fun v =>
      Variant.encode ⟨id, 0, v.1, (Numbered.dense t.entryCount v.2).toArray⟩

end TypeSource

/-- The content of a package. -/
structure PackageSource where
  /-- The id. -/
  id : UInt32
  /-- The name. -/
  name : String
  /-- What is added to the type ids of the package. -/
  typeIdOffset : UInt32 := 0
  /-- The names of the first types. -/
  typeNames : List String := []
  /-- The names of the entries. -/
  keyNames : List String := []
  /-- The types by id. -/
  types : List (Nat × TypeSource) := []
  /-- The libraries. -/
  libraries : List LibrarySource := []
  /-- Chunks that are written behind all others. -/
  extraChunks : List (List UInt8) := []

namespace PackageSource

/-- Bytes of the header of a written package. -/
def headerSize : Nat := 288

/-- Replaces the content of a type. -/
def alterType (p : PackageSource) (typeId : UInt8) (f : TypeSource → TypeSource) :
    PackageSource :=
  { p with types := Numbered.alter typeId.toNat (fun found => f (found.getD {})) p.types }

/-- Adds an entry. An entry that was added before under the same type, index and
configuration is replaced. -/
def addEntry (p : PackageSource) (typeId : UInt8) (index : UInt16) (config : Config)
    (e : Entry) : PackageSource :=
  p.alterType typeId (·.addEntry config index.toNat e)

/-- Adds axes to those of an entry. -/
def addAxes (p : PackageSource) (typeId : UInt8) (index : UInt16) (axes : Axes) :
    PackageSource :=
  p.alterType typeId (·.addAxes index.toNat axes)

/-- Declares a library. -/
def addLibrary (p : PackageSource) (buildId : UInt32) (name : String) : PackageSource :=
  { p with libraries := p.libraries ++ [⟨buildId, name⟩] }

/-- The name of a type that was not named, by its position. -/
def generatedName (i : Nat) : String :=
  "type" ++ Text.decimal (i + 1)

/-- The names of all types; types without a name get a generated one. -/
def allTypeNames (p : PackageSource) : List String :=
  let greatestId := Numbered.bound p.types - 1
  (List.range (max greatestId p.typeNames.length)).map fun i =>
    (p.typeNames[i]?).getD (generatedName i)

/-- The chunk of a package. -/
def encode (p : PackageSource) : List UInt8 :=
  let typeNames := p.allTypeNames
  let typePool := StringPool.encode false false typeNames
  let keyPool := StringPool.encode true false p.keyNames
  let header :=
    Bytes.bytes32 p.id ++ Bytes.fixedName 128 p.name ++
      Bytes.bytes32 (UInt32.ofNat headerSize) ++
      Bytes.bytes32 (UInt32.ofNat typeNames.length) ++
      Bytes.bytes32 (UInt32.ofNat (headerSize + typePool.length)) ++
      Bytes.bytes32 (UInt32.ofNat p.keyNames.length) ++ Bytes.bytes32 p.typeIdOffset
  let libraries := if p.libraries.isEmpty then [] else LibrarySource.encodeAll p.libraries
  let types := p.types.flatMap fun t => TypeSource.encode (UInt8.ofNat t.1) t.2
  Chunk.encode .tablePackage header
    (typePool ++ keyPool ++ libraries ++ types ++ p.extraChunks.flatten)

end PackageSource

end AppResources
