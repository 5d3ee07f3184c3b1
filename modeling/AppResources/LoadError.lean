import AppResources.Chunk.Walk
import AppResources.Overlay.Idmap
import AppResources.StringPool
import AppResources.Table.Library
import AppResources.Table.TypeSpec
import AppResources.Xml.Node

/-!
# Why a file cannot be loaded

Tables, overlay maps and documents are loaded as a whole or not at all. A
`LoadError` gives the cause, and `LoadError.message` its wording.
-/

namespace AppResources

/-- A chunk whose header may be too small. -/
inductive HeaderPart where
  | table
  | package
  | typeSpec
  | variant
  deriving DecidableEq, Repr

/-- Why a file cannot be loaded. -/
inductive LoadError where
  /-- The file is too small to hold anything. -/
  | tooSmall
  /-- The chunks of the file are broken. -/
  | chunk (f : ChunkFault)
  /-- A string pool is broken. -/
  | stringPool (f : PoolFault)
  /-- The header of a chunk is too small. -/
  | header (part : HeaderPart)
  /-- There are more packages than declared. -/
  | tooManyPackages (declared : UInt32)
  /-- The id of a package exceeds a byte. -/
  | packageIdTooLarge
  /-- The offset of the type ids of a package exceeds a byte. -/
  | typeOffsetTooLarge
  /-- A type spec is wrong. -/
  | typeSpec (typeId : UInt8) (f : TypeSpecFault)
  /-- A variant is wrong. -/
  | variant (typeId : UInt8) (f : VariantFault)
  /-- A list of libraries is wrong. -/
  | library (f : LibraryFault)
  /-- An overlay map is wrong. -/
  | idmap (f : IdmapFault)
  /-- A document is wrong. -/
  | document (f : XmlFault)
  deriving DecidableEq, Repr

namespace HeaderPart

/-- What the part is called. -/
def name : HeaderPart → String
  | .table => "table"
  | .package => "package"
  | .typeSpec => "type spec"
  | .variant => "type"

end HeaderPart

namespace LoadError

/-- The message about an error. -/
def message : LoadError → String
  | .tooSmall => "file size too small for resources file"
  | .chunk f => f.message
  | .stringPool f => "got error while parsing string pool: " ++ f.message
  | .header part => "got error while parsing " ++ part.name ++ " header"
  | .tooManyPackages declared =>
    "more package chunks than declared in header (" ++ Text.decimal declared.toNat ++ ")"
  | .packageIdTooLarge => "invalid package: package ID is too large"
  | .typeOffsetTooLarge => "invalid package: type ID offset is too large"
  | .typeSpec id f => "invalid type spec " ++ Text.hexByte id ++ ": " ++ f.detail
  | .variant id f => "invalid type " ++ Text.hexByte id ++ ": " ++ f.detail
  | .library f => "invalid library chunk: " ++ f.detail
  | .idmap f => "invalid idmap: " ++ f.detail
  | .document f => "invalid binary xml: " ++ f.detail

/-- The messages about an error and the errors it was made from, outermost first. -/
def chain (e : LoadError) : List String :=
  match e with
  | .stringPool f => [e.message, f.message]
  | _ => [e.message]

/-- A read that left its buffer. -/
def ofFault (f : ReadFault) : LoadError := .chunk (.fault f)

/-- A type spec that cannot be read. -/
def ofTypeSpec : TypeSpecError → LoadError
  | .header => .header .typeSpec
  | .invalid id f => .typeSpec id f

/-- A variant that cannot be read. -/
def ofVariant : VariantError → LoadError
  | .header => .header .variant
  | .invalid id f => .variant id f

end LoadError

end AppResources
