import AppResources.Chunk
import AppResources.Text.Utf16

/-!
# Writing chunks

The parts that all written chunks share: the header with its sizes, padding to
multiples of four bytes, and names in fields of a fixed width.
-/

namespace AppResources

/-- The bytes of a chunk with the given header behind its first eight bytes. -/
def Chunk.encode (kind : ChunkKind) (header body : List UInt8) : List UInt8 :=
  let headerSize := chunkHeaderSize + header.length
  Bytes.bytes16 kind.tag ++ Bytes.bytes16 (UInt16.ofNat headerSize) ++
    Bytes.bytes32 (UInt32.ofNat (headerSize + body.length)) ++ header ++ body

namespace Bytes

/-- A number of zero bytes. -/
def zeros (n : Nat) : List UInt8 :=
  List.replicate n 0

/-- Bytes with zeros behind them, up to a multiple of four. -/
def padded (bytes : List UInt8) : List UInt8 :=
  bytes ++ zeros ((4 - bytes.length % 4) % 4)

/-- A name in a field of a number of units, cut so that a zero follows it. -/
def fixedName (units : Nat) (name : String) : List UInt8 :=
  let kept := (Text.unitsOf name).take (units - 1)
  kept.flatMap bytes16 ++ zeros (2 * (units - kept.length))

end Bytes

end AppResources
