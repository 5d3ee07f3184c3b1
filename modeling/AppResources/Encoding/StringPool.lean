import AppResources.Encoding.Chunk
import AppResources.StringPool

/-!
# Writing string pools

## Main definitions

* `StringPool.encode`: the chunk of a pool of strings.
-/

namespace AppResources.StringPool

/-- The length of a UTF-8 string in front of it. -/
def lengthBytes8 (length : Nat) : List UInt8 :=
  if 127 < length then
    [UInt8.ofNat (length / 256) ||| 0x80, UInt8.ofNat length]
  else [UInt8.ofNat length]

/-- The length of a UTF-16 string in front of it. -/
def lengthBytes16 (length : Nat) : List UInt8 :=
  if 32767 < length then
    Bytes.bytes16 (UInt16.ofNat (length / 65536) ||| 0x8000) ++
      Bytes.bytes16 (UInt16.ofNat length)
  else Bytes.bytes16 (UInt16.ofNat length)

/-- A string in UTF-8, with its lengths in units and bytes in front and a zero behind. -/
def encodeUtf8 (s : String) : List UInt8 :=
  let bytes := Text.utf8Bytes s
  lengthBytes8 (Text.unitsOf s).length ++ lengthBytes8 bytes.length ++ bytes ++ [0]

/-- A string in UTF-16, with its length in front and a zero behind. -/
def encodeUtf16 (s : String) : List UInt8 :=
  let units := Text.unitsOf s
  lengthBytes16 units.length ++ units.flatMap Bytes.bytes16 ++ [0, 0]

/-- A string in the encoding of a pool. -/
def encodeString (utf8 : Bool) (s : String) : List UInt8 :=
  if utf8 then encodeUtf8 s else encodeUtf16 s

/-- Where each of some pieces starts when they stand one behind the other. -/
def startsFrom (start : Nat) : List (List UInt8) → List Nat
  | [] => []
  | piece :: pieces => start :: startsFrom (start + piece.length) pieces

/-- The flags of a pool. -/
def flagWord (utf8 sorted : Bool) : UInt32 :=
  (if sorted then 1 else 0) + (if utf8 then 256 else 0)

/-- The chunk of a pool. Strings of a pool that is marked as sorted must ascend. -/
def encode (utf8 sorted : Bool) (strings : List String) : List UInt8 :=
  let pieces := strings.map (encodeString utf8)
  let offsets := (startsFrom 0 pieces).flatMap fun i => Bytes.bytes32 (UInt32.ofNat i)
  let stringsStart := if strings.isEmpty then 0 else minHeaderSize + offsets.length
  let header :=
    Bytes.bytes32 (UInt32.ofNat strings.length) ++ Bytes.bytes32 0 ++
      Bytes.bytes32 (flagWord utf8 sorted) ++ Bytes.bytes32 (UInt32.ofNat stringsStart) ++
      Bytes.bytes32 0
  Chunk.encode .stringPool header (offsets ++ Bytes.padded pieces.flatten)

end AppResources.StringPool
