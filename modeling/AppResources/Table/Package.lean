import AppResources.LoadError
import AppResources.Locale.Tag
import AppResources.StringPool.Lookup
import AppResources.Text.SortedSet

/-!
# Packages

A package chunk holds a pool of type names, a pool of entry names, and for every
type a type spec followed by its variants. Specs are kept in slots, counted from
the first type; the package of an overlay puts a spec into the slot of the type that
it replaces in the target.

## Main definitions

* `Package.load`: the package in a chunk, as a fold over the chunks inside it.
* `Package.findEntry?`: the id of an entry by its names.
-/

namespace AppResources

/-- How a file is loaded. -/
structure LoadMode where
  /-- The maps of an overlay. -/
  idmap : Option Idmap := none
  /-- Whether the file belongs to the system. -/
  system : Bool := false
  /-- Whether application packages are loaded as shared libraries. -/
  asLibrary : Bool := false

/-- The header of a package. -/
structure PackageHeader where
  /-- The id of the package, zero for a shared library. -/
  id : UInt32
  /-- The name of the package. -/
  name : String
  /-- Where the pool of type names starts within the chunk. -/
  typeStrings : UInt32
  /-- The last public type. -/
  lastPublicType : UInt32
  /-- Where the pool of entry names starts within the chunk. -/
  keyStrings : UInt32
  /-- The last public entry name. -/
  lastPublicKey : UInt32
  /-- What is added to the type ids of the package. -/
  typeIdOffset : UInt32
  deriving DecidableEq

namespace PackageHeader

/-- Bytes of the fields, without the offset of the type ids. -/
def minSize : Nat := 276

/-- The header at the start of a buffer, and the position behind it. The offset of the
type ids was added later; where it is missing it is zero. -/
def read? (b : ByteArray) : Option (PackageHeader × Nat) :=
  match Bytes.word32? b 0, Bytes.word32? b 260, Bytes.word32? b 264, Bytes.word32? b 268,
    Bytes.word32? b 272 with
  | some id, some typeStrings, some lastPublicType, some keyStrings, some lastPublicKey =>
    let name := Text.fixedUtf16 (b.extract 4 260).data.toList
    let header : PackageHeader :=
      ⟨id, name, typeStrings, lastPublicType, keyStrings, lastPublicKey, 0⟩
    match Bytes.word32? b minSize with
    | some offset => some ({ header with typeIdOffset := offset }, minSize + 4)
    | none => some (header, minSize)
  | _, _, _, _, _ => none

end PackageHeader

/-- A loaded package. -/
structure Package where
  /-- The name. -/
  name : String
  /-- The id, that of the target if the package is an overlay. -/
  id : UInt8
  /-- What is added to the type ids of the package. -/
  typeIdOffset : UInt8
  /-- Whether the package gets its id at run time. -/
  isDynamic : Bool
  /-- Whether the package belongs to the system. -/
  isSystem : Bool
  /-- Whether the package is an overlay. -/
  isOverlay : Bool
  /-- The names of the types. -/
  typeNames : Option StringPool
  /-- The names of the entries. -/
  keyNames : Option StringPool
  /-- The types by slot. -/
  slots : List (Option TypeSpec)
  /-- The libraries that the package was compiled against. -/
  libraries : List Library

/-- What was found in the chunks of a package so far. -/
structure PackageContent where
  /-- The names of the types. -/
  typeNames : Option StringPool := none
  /-- The names of the entries. -/
  keyNames : Option StringPool := none
  /-- The types, by ascending id. -/
  specs : List TypeSpec := []
  /-- The libraries. -/
  libraries : List Library := []

namespace TypeSpec

/-- Adds a type to a list in ascending order of ids. -/
def insertById (s : TypeSpec) : List TypeSpec → List TypeSpec
  | [] => [s]
  | other :: rest => if s.id < other.id then s :: other :: rest else other :: insertById s rest

/-- Adds a variant to the type with its id, if there is one. -/
def addVariant? (v : Variant) : List TypeSpec → Option (List TypeSpec)
  | [] => none
  | s :: rest =>
    if s.id = v.typeId then some ({ s with variants := s.variants ++ [v] } :: rest)
    else (addVariant? v rest).map (s :: ·)

/-- Puts a type into a slot of a list, which grows as needed. -/
def placeAt (s : TypeSpec) : Nat → List (Option TypeSpec) → List (Option TypeSpec)
  | 0, [] => [some s]
  | 0, _ :: rest => some s :: rest
  | i + 1, [] => none :: placeAt s i []
  | i + 1, slot :: rest => slot :: placeAt s i rest

/-- The slot of a type: its own, or that of the type it replaces. Types of an overlay that
replace nothing have none. -/
def slot? (s : TypeSpec) (isOverlay : Bool) : Except ReadFault (Option Nat) :=
  match s.overlay with
  | some m => (Bytes.minus m.targetType.toNat 1).map some
  | none => if isOverlay then .ok none else (Bytes.minus s.id.toNat 1).map some

/-- Puts a type into its slot, if it has one. -/
def place (isOverlay : Bool) (slots : List (Option TypeSpec)) (s : TypeSpec) :
    Except ReadFault (List (Option TypeSpec)) :=
  match s.slot? isOverlay with
  | .ok (some i) => .ok (s.placeAt i slots)
  | .ok none => .ok slots
  | .error f => .error f

/-- The slots of types. Of two types with one slot the later one counts. -/
def slotsOf (isOverlay : Bool) (specs : List TypeSpec) :
    Except ReadFault (List (Option TypeSpec)) :=
  specs.foldlM (place isOverlay) []

end TypeSpec

namespace PackageContent

/-- Adds a string pool, which is known by its offset within the package. -/
def addPool (header : PackageHeader) (offset : UInt32) (c : Chunk) (found : PackageContent) :
    Except LoadError PackageContent :=
  if offset = header.typeStrings then
    match StringPool.load c.bytes with
    | .ok pool => .ok { found with typeNames := some pool }
    | .error f => .error (.stringPool f)
  else if offset = header.keyStrings then
    match StringPool.load c.bytes with
    | .ok pool => .ok { found with keyNames := some pool }
    | .error f => .error (.stringPool f)
  else .ok found

/-- Adds a type. Only the first type spec with an id counts. -/
def addSpec (idmap : Option Idmap) (typeIdOffset : Nat) (c : Chunk) (found : PackageContent) :
    Except LoadError PackageContent :=
  match TypeSpecHeader.read c with
  | .error e => .error (.ofTypeSpec e)
  | .ok spec =>
    if 255 < typeIdOffset + spec.id.toNat then .error (.typeSpec spec.id .idOutOfRange)
    else if found.specs.any (·.id == spec.id) then .ok found
    else
      let overlay := idmap.bind (·.mapOf? spec.id)
      .ok { found with specs := TypeSpec.insertById ⟨spec.id, spec.axes, overlay, []⟩ found.specs }

/-- Adds a variant to its type, which must come before it. -/
def addVariant (c : Chunk) (found : PackageContent) : Except LoadError PackageContent :=
  match Variant.read c with
  | .error e => .error (.ofVariant e)
  | .ok v =>
    match TypeSpec.addVariant? v found.specs with
    | some specs => .ok { found with specs := specs }
    | none => .error (.variant v.typeId .missingSpec)

/-- Adds libraries. -/
def addLibraries (c : Chunk) (found : PackageContent) : Except LoadError PackageContent :=
  match Library.readAll c with
  | .ok libraries => .ok { found with libraries := found.libraries ++ libraries }
  | .error f => .error (.library f)

/-- Adds what a chunk inside a package holds; chunks of other kinds are skipped. -/
def addChunk (idmap : Option Idmap) (header : PackageHeader) (start : Nat)
    (found : PackageContent) (c : Chunk) : Except LoadError PackageContent :=
  -- pools are known by where they start within the package
  match Bytes.minus c.position start with
  | .error f => .error (.ofFault f)
  | .ok offset =>
    match c.kind with
    | .stringPool => found.addPool header (UInt32.ofNat offset) c
    | .tableTypeSpec => found.addSpec idmap header.typeIdOffset.toNat c
    | .tableType => found.addVariant c
    | .tableLibrary => found.addLibraries c
    | _ => .ok found

end PackageContent

/-- Adds an element to those that were found, unless it is there. -/
def addNew {α : Type} [BEq α] (found : List α) (x : α) : List α :=
  if found.contains x then found else found ++ [x]

namespace Package

/-- Bytes of the least header of a package. -/
def minHeaderSize : Nat := chunkHeaderSize + PackageHeader.minSize

/-- The package with a header, a content and its types in slots. -/
def ofContent (mode : LoadMode) (header : PackageHeader) (found : PackageContent)
    (slots : List (Option TypeSpec)) : Package :=
  let ownId := UInt8.ofNat header.id.toNat
  { name := header.name
    id := (mode.idmap.map (·.targetPackage)).getD ownId
    typeIdOffset := UInt8.ofNat header.typeIdOffset.toNat
    isDynamic := ownId == 0 || (ownId == ResourceId.appPackage && mode.asLibrary)
    isSystem := mode.system
    isOverlay := mode.idmap.isSome
    typeNames := found.typeNames
    keyNames := found.keyNames
    slots := slots
    libraries := found.libraries }

/-- The package in a chunk. -/
def load (c : Chunk) (mode : LoadMode) : Except LoadError Package :=
  if c.headerSize < minHeaderSize then .error (.header .package)
  else
    match c.frame with
    | .error f => .error (.ofFault f)
    | .ok (h, payload) =>
      match PackageHeader.read? h with
      | none => .error (.header .package)
      | some (header, _) =>
        if 255 < header.id then .error .packageIdTooLarge
        else if 255 < header.typeIdOffset then .error .typeOffsetTooLarge
        else do
          let w := walkAt payload c.payloadPosition
          let found ← w.chunks.foldlM (PackageContent.addChunk mode.idmap header c.position) {}
          match w.fatal? with
          | some f => .error (.chunk f)
          | none =>
            match TypeSpec.slotsOf mode.idmap.isSome found.specs with
            | .error f => .error (.ofFault f)
            | .ok slots => return ofContent mode header found slots

/-! ## Lookups -/

/-- The type in a slot. -/
def spec? (p : Package) (slot : Nat) : Option TypeSpec :=
  match p.slots[slot]? with
  | some found => found
  | none => none

/-- Pairs every type that is there with its slot, where the first slot has the given number. -/
def numberSlots : Nat → List (Option TypeSpec) → List (Nat × TypeSpec)
  | _, [] => []
  | i, some s :: rest => (i, s) :: numberSlots (i + 1) rest
  | i, none :: rest => numberSlots (i + 1) rest

/-- The types with their slots. -/
def specs (p : Package) : List (Nat × TypeSpec) :=
  numberSlots 0 p.slots

/-- The name of a type slot. -/
def typeName? (p : Package) (slot : Nat) : Option String :=
  p.typeNames.bind (·.string? slot)

/-- The name of an entry. -/
def entryName? (p : Package) (e : Entry) : Option String :=
  p.keyNames.bind (·.string? e.key.toNat)

/-- The id of an entry by the names of its type and itself, with a package byte of zero. -/
def findEntry? (p : Package) (typeName entryName : String) : Option ResourceId := do
  let slot ← p.typeNames.bind (·.indexOf? typeName)
  let key ← p.keyNames.bind (·.indexOf? entryName)
  let spec ← p.spec? slot
  let index ← spec.variants.findSome? fun v =>
    v.entries.findIdx? fun entry => entry.any (·.key.toNat == key)
  return ResourceId.make 0 (UInt8.ofNat (slot + p.typeIdOffset.toNat + 1)) (UInt16.ofNat index)

/-- The configurations of the variants of a package without repetitions, in order. The
variants of `mipmap` types can be left out. -/
def configurations (p : Package) (withoutMipmaps : Bool) : List Config :=
  let kept := p.specs.filter fun s => !(withoutMipmaps && p.typeName? s.1 == some "mipmap")
  (kept.flatMap fun s => s.2.variants.map (·.config)).foldl addNew []

/-- The tags of the locales that variants of a package are made for, sorted. -/
def locales (p : Package) (canonical : Bool) : List String :=
  let configs := (p.specs.flatMap fun s => s.2.variants.map (·.config)).filter (·.locale.code != 0)
  Text.sortedSet (configs.map fun c => c.locale.tag canonical)

end Package

end AppResources
