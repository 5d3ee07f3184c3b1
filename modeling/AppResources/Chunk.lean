import AppResources.Bytes
import AppResources.Text.Number

/-!
# Chunks

All binary formats are sequences of chunks. A chunk starts with a 16-bit kind, a
16-bit header size and a 32-bit total size; its header may go on behind these
eight bytes, and the rest is its payload.
-/

namespace AppResources

/-- What a chunk holds. -/
inductive ChunkKind where
  | null
  | stringPool
  | table
  | xml
  | xmlStartNamespace
  | xmlEndNamespace
  | xmlStartElement
  | xmlEndElement
  | xmlCdata
  | xmlLastChunk
  | xmlResourceMap
  | tablePackage
  | tableType
  | tableTypeSpec
  | tableLibrary
  | tableOverlayable
  | tableOverlayablePolicy
  | tableStagedAlias
  | unknown (tag : UInt16)
  deriving DecidableEq, Repr

namespace ChunkKind

/-- The kind with a tag. -/
def ofTag (t : UInt16) : ChunkKind :=
  match t.toNat with
  | 0x0000 => .null
  | 0x0001 => .stringPool
  | 0x0002 => .table
  | 0x0003 => .xml
  | 0x0100 => .xmlStartNamespace
  | 0x0101 => .xmlEndNamespace
  | 0x0102 => .xmlStartElement
  | 0x0103 => .xmlEndElement
  | 0x0104 => .xmlCdata
  | 0x017f => .xmlLastChunk
  | 0x0180 => .xmlResourceMap
  | 0x0200 => .tablePackage
  | 0x0201 => .tableType
  | 0x0202 => .tableTypeSpec
  | 0x0203 => .tableLibrary
  | 0x0204 => .tableOverlayable
  | 0x0205 => .tableOverlayablePolicy
  | 0x0206 => .tableStagedAlias
  | _ => .unknown t

/-- The tag of a kind. -/
def tag : ChunkKind → UInt16
  | .null => 0x0000
  | .stringPool => 0x0001
  | .table => 0x0002
  | .xml => 0x0003
  | .xmlStartNamespace => 0x0100
  | .xmlEndNamespace => 0x0101
  | .xmlStartElement => 0x0102
  | .xmlEndElement => 0x0103
  | .xmlCdata => 0x0104
  | .xmlLastChunk => 0x017f
  | .xmlResourceMap => 0x0180
  | .tablePackage => 0x0200
  | .tableType => 0x0201
  | .tableTypeSpec => 0x0202
  | .tableLibrary => 0x0203
  | .tableOverlayable => 0x0204
  | .tableOverlayablePolicy => 0x0205
  | .tableStagedAlias => 0x0206
  | .unknown t => t

/-- The name of a kind. -/
def name : ChunkKind → String
  | .null => "Null"
  | .stringPool => "StringPool"
  | .table => "Table"
  | .xml => "Xml"
  | .xmlStartNamespace => "XmlStartNamespace"
  | .xmlEndNamespace => "XmlEndNamespace"
  | .xmlStartElement => "XmlStartElement"
  | .xmlEndElement => "XmlEndElement"
  | .xmlCdata => "XmlCdata"
  | .xmlLastChunk => "XmlLastChunk"
  | .xmlResourceMap => "XmlResourceMap"
  | .tablePackage => "TablePackage"
  | .tableType => "TableType"
  | .tableTypeSpec => "TableTypeSpec"
  | .tableLibrary => "TableLibrary"
  | .tableOverlayable => "TableOverlayable"
  | .tableOverlayablePolicy => "TableOverlayablePolicy"
  | .tableStagedAlias => "TableStagedAlias"
  | .unknown t => "Unknown(" ++ Text.decimal t.toNat ++ ")"

end ChunkKind

/-- Bytes of the header that every chunk has. -/
def chunkHeaderSize : Nat := 8

/-- A chunk cut out of a buffer. -/
structure Chunk where
  /-- What the chunk holds. -/
  kind : ChunkKind
  /-- Size of the header, its first eight bytes included. -/
  headerSize : Nat
  /-- The whole chunk, header included. -/
  bytes : ByteArray
  /-- Where the chunk starts, counted from the start of the outermost buffer. -/
  position : Nat

namespace Chunk

/-- Size of the whole chunk. -/
def size (c : Chunk) : Nat := c.bytes.size

/-- Where the chunk starts, as a word. -/
def offset (c : Chunk) : UInt64 := UInt64.ofNat c.position

/-- The header behind its first eight bytes. -/
def header (c : Chunk) : ByteArray := c.bytes.extract chunkHeaderSize c.headerSize

/-- The bytes behind the header. -/
def payload (c : Chunk) : ByteArray := c.bytes.extract c.headerSize c.bytes.size

/-- Where the payload starts, counted like the chunk. -/
def payloadPosition (c : Chunk) : Nat := c.position + c.headerSize

/-- The header behind its first eight bytes, and the payload. -/
def frame (c : Chunk) : Except ReadFault (ByteArray × ByteArray) := do
  let header ← Bytes.slice c.bytes chunkHeaderSize c.headerSize
  let payload ← Bytes.slice c.bytes c.headerSize c.bytes.size
  return (header, payload)

end Chunk

end AppResources
