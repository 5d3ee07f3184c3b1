import AppResources.Bytes
import AppResources.Text.Utf8

/-!
# Overlay maps

An overlay package replaces entries of a target package. Its idmap file says
which: for every overlaid type a map from the entries of the target to the entries
of the overlay.

## Main definitions

* `OverlayMap.lookup?`: the entry of the overlay that replaces one of the target.
* `Idmap.load`: the maps in a file.
-/

namespace AppResources

/-- Which entries of a target type an overlay type replaces. -/
structure OverlayMap where
  /-- The id of the type in the target. -/
  targetType : UInt16
  /-- The id of the type in the overlay. -/
  overlayType : UInt16
  /-- The first entry of the target that the map covers. -/
  firstEntry : UInt16
  /-- The entries of the overlay, for consecutive entries of the target. -/
  entries : Array UInt32
  deriving DecidableEq

namespace OverlayMap

/-- The word that marks an entry without a replacement. -/
def absent : UInt32 := 0xffffffff

/-- The entry of the overlay that replaces an entry of the target. -/
def lookup? (m : OverlayMap) (target : UInt16) : Option UInt16 :=
  if target < m.firstEntry then none
  else
    match m.entries[target.toNat - m.firstEntry.toNat]? with
    | some e => if e = absent then none else some (UInt16.ofNat e.toNat)
    | none => none

end OverlayMap

/-- Why a file is no idmap. -/
inductive IdmapFault where
  /-- The file is shorter than the header. -/
  | headerTooSmall
  /-- The file does not start with the mark of idmaps. -/
  | badMagic
  /-- The version of the format is another one. -/
  | badVersion
  /-- The id of the target package is zero or exceeds a byte. -/
  | badTarget
  /-- More maps are declared than there are type ids. -/
  | tooManyMaps
  /-- The type ids of a map are zero or exceed a byte. -/
  | badMap
  /-- The entries of a map exceed the file. -/
  | entriesPastEnd
  /-- The number of maps is another one than declared. -/
  | mapCount
  /-- A read left the buffer. -/
  | fault (f : ReadFault)
  deriving DecidableEq, Repr

namespace IdmapFault

/-- What is wrong. -/
def detail : IdmapFault → String
  | .headerTooSmall => "header is too small"
  | .badMagic => "bad magic value"
  | .badVersion => "version mismatch"
  | .badTarget => "target package ID is invalid"
  | .tooManyMaps => "too many type mappings"
  | .badMap => "invalid type map"
  | .entriesPastEnd => "too small for the number of entries"
  | .mapCount => "type map count mismatch"
  | .fault .outOfBounds => "truncated"
  | .fault .negative => "negative length"

end IdmapFault

/-- A loaded idmap. -/
structure Idmap where
  /-- Checksum of the target. -/
  targetCrc : UInt32
  /-- Checksum of the overlay. -/
  overlayCrc : UInt32
  /-- Path of the target. -/
  targetPath : String
  /-- Path of the overlay. -/
  overlayPath : String
  /-- The id of the target package. -/
  targetPackage : UInt8
  /-- The number of maps declared. -/
  declaredMaps : UInt16
  /-- The maps that are not empty, by ascending type id of the overlay. -/
  maps : List OverlayMap
  deriving DecidableEq

namespace Idmap

/-- The mark at the start of an idmap. -/
def magic : UInt32 := 0x504d4449

/-- The version of the format. -/
def version : UInt32 := 1

/-- Bytes of the header. -/
def headerSize : Nat := 532

/-- Bytes of the header of a map. -/
def mapHeaderSize : Nat := 8

/-- Whether a word is an id: not zero, and no more than a byte. -/
def isId (id : UInt16) : Bool := id != 0 && id.toNat ≤ 255

/-- Adds a map in the order of overlay types; a map for the same type is replaced. -/
def insertMap (m : OverlayMap) : List OverlayMap → List OverlayMap
  | [] => [m]
  | other :: rest =>
    if m.overlayType < other.overlayType then m :: other :: rest
    else if m.overlayType = other.overlayType then m :: rest
    else other :: insertMap m rest

/-- The entries of a map. -/
def entriesAt (b : ByteArray) (start count : Nat) : Except ReadFault (List UInt32) :=
  (List.range count).mapM fun i => Bytes.word32At b (start + 4 * i)

/-- The result of a read, its fault as one of the idmap. -/
def checked {α : Type} (r : Except ReadFault α) : Except IdmapFault α :=
  r.mapError .fault

/-- The map at a position, and the position behind it. -/
def readMap (b : ByteArray) (i : Nat) : Except IdmapFault (OverlayMap × Nat) := do
  let targetType ← checked (Bytes.word16At b i)
  let overlayType ← checked (Bytes.word16At b (i + 2))
  let count ← checked (Bytes.word16At b (i + 4))
  let firstEntry ← checked (Bytes.word16At b (i + 6))
  let start := i + mapHeaderSize
  let room ← checked (Bytes.minus b.size start)
  if !isId targetType || !isId overlayType then .error .badMap
  else if room / 4 < count.toNat then .error .entriesPastEnd
  else
    let entries ← checked (entriesAt b start count.toNat)
    return (⟨targetType, overlayType, firstEntry, entries.toArray⟩, start + 4 * count.toNat)

theorem readMap_advances {b : ByteArray} {i : Nat} {m : OverlayMap} {next : Nat}
    (h : readMap b i = .ok (m, next)) : i < next := by
  simp only [readMap, bind, Except.bind] at h
  repeat' split at h
  all_goals cases h
  simp only [mapHeaderSize]
  omega

/-- Reads maps as long as a header fits. The answer counts all of them, but keeps only
those with entries. -/
def readMaps (b : ByteArray) (i count : Nat) (maps : List OverlayMap) :
    Except IdmapFault (Nat × List OverlayMap) :=
  if i + mapHeaderSize ≤ b.size then
    match _hRead : readMap b i with
    | .error f => .error f
    | .ok (m, next) =>
      readMaps b next (count + 1) (if m.entries.isEmpty then maps else insertMap m maps)
  else .ok (count, maps)
termination_by b.size - i
decreasing_by
  have := readMap_advances _hRead
  simp only [mapHeaderSize] at *
  omega

/-- The text of a path field. -/
def pathAt (b : ByteArray) (start : Nat) : String :=
  Text.fixedUtf8 (b.extract start (start + 256)).data.toList

/-- The maps in a file. -/
def load (b : ByteArray) : Except IdmapFault Idmap :=
  match Bytes.word32? b 0, Bytes.word32? b 4, Bytes.word32? b 8, Bytes.word32? b 12,
    Bytes.word16? b 528, Bytes.word16? b 530 with
  | some mark, some version', some targetCrc, some overlayCrc, some target, some declared =>
    if mark ≠ magic then .error .badMagic
    else if version' ≠ version then .error .badVersion
    else if !isId target then .error .badTarget
    else if 255 < declared.toNat then .error .tooManyMaps
    else
      match readMaps b headerSize 0 [] with
      | .error f => .error f
      | .ok (count, maps) =>
        if count ≠ declared.toNat then .error .mapCount
        else
          .ok {
            targetCrc := targetCrc
            overlayCrc := overlayCrc
            targetPath := pathAt b 16
            overlayPath := pathAt b 272
            targetPackage := UInt8.ofNat target.toNat
            declaredMaps := declared
            maps := maps }
  | _, _, _, _, _, _ => .error .headerTooSmall

/-- The map of an overlay type. -/
def mapOf? (m : Idmap) (overlayType : UInt8) : Option OverlayMap :=
  m.maps.find? fun entry => entry.overlayType.toNat == overlayType.toNat

end Idmap

end AppResources
