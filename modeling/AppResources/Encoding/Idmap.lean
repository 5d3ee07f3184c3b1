import AppResources.Encoding.Chunk
import AppResources.Overlay.Idmap

/-!
# Writing overlay maps

## Main definitions

* `Idmap.encode`: the file of the maps of an overlay.
-/

namespace AppResources

/-- The bytes of a map. -/
def OverlayMap.encode (m : OverlayMap) : List UInt8 :=
  Bytes.bytes16 m.targetType ++ Bytes.bytes16 m.overlayType ++
    Bytes.bytes16 (UInt16.ofNat m.entries.size) ++ Bytes.bytes16 m.firstEntry ++
    m.entries.toList.flatMap Bytes.bytes32

/-- The file of the maps of an overlay onto a package, without checksums and paths. -/
def Idmap.encode (targetPackage : UInt16) (maps : List OverlayMap) : List UInt8 :=
  Bytes.bytes32 magic ++ Bytes.bytes32 version ++ Bytes.bytes32 0 ++ Bytes.bytes32 0 ++
    Bytes.zeros 512 ++ Bytes.bytes16 targetPackage ++
    Bytes.bytes16 (UInt16.ofNat maps.length) ++ maps.flatMap OverlayMap.encode

end AppResources
