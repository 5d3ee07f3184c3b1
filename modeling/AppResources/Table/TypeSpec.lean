import AppResources.Config.Axis
import AppResources.Overlay.Idmap
import AppResources.Table.Variant

/-!
# Type specs

A type spec says for every entry of a type along which axes its variants differ.
Together with the variants of the type, and the map of an overlay where there is
one, it is what lookups work on.
-/

namespace AppResources

/-- The chunk of a type spec. -/
structure TypeSpecHeader where
  /-- The id of the type. -/
  id : UInt8
  /-- A reserved byte. -/
  reserved : UInt8
  /-- The number of variants that follow, as far as it was written. -/
  variantCount : UInt16
  /-- The axes of every entry. -/
  axes : Array Axes
  deriving DecidableEq

/-- Why a chunk holds no type spec. -/
inductive TypeSpecFault where
  /-- The id of the type is zero. -/
  | idZero
  /-- There are more entries than an id can number. -/
  | tooManyEntries
  /-- The axes of the entries exceed the chunk. -/
  | entriesPastEnd
  /-- The id exceeds a byte once the offset of the package is added. -/
  | idOutOfRange
  /-- A read left the buffer. -/
  | fault (f : ReadFault)
  deriving DecidableEq, Repr

namespace TypeSpecFault

/-- What is wrong. -/
def detail : TypeSpecFault → String
  | .idZero => "invalid ID 0"
  | .tooManyEntries => "too many entries"
  | .entriesPastEnd => "too small to hold entries"
  | .idOutOfRange => "ID out of range"
  | .fault .outOfBounds => "read past the end"
  | .fault .negative => "negative length"

end TypeSpecFault

/-- Why a chunk of a type spec cannot be read: its header is too small, or its content is
wrong. -/
inductive TypeSpecError where
  | header
  | invalid (typeId : UInt8) (f : TypeSpecFault)
  deriving DecidableEq, Repr

namespace TypeSpecHeader

/-- The axes of `count` entries from a position on. -/
def axesAt (b : ByteArray) (start count : Nat) : Except ReadFault (List Axes) :=
  (List.range count).mapM fun i => return ⟨← Bytes.word32At b (start + 4 * i)⟩

/-- The type spec in a chunk. -/
def read (c : Chunk) : Except TypeSpecError TypeSpecHeader :=
  match c.frame with
  | .error f => .error (.invalid 0 (.fault f))
  | .ok (h, payload) =>
    match Bytes.byte? h 0, Bytes.byte? h 1, Bytes.word16? h 2, Bytes.word32? h 4 with
    | some id, some reserved, some variantCount, some count =>
      if id = 0 then .error (.invalid id .idZero)
      else if Variant.maxEntries < count.toNat then .error (.invalid id .tooManyEntries)
      else if payload.size < 4 * count.toNat then .error (.invalid id .entriesPastEnd)
      else
        match axesAt payload 0 count.toNat with
        | .error f => .error (.invalid id (.fault f))
        | .ok axes => .ok ⟨id, reserved, variantCount, axes.toArray⟩
    | _, _, _, _ => .error .header

end TypeSpecHeader

/-- A type with all its variants. -/
structure TypeSpec where
  /-- The id of the type in its own package. -/
  id : UInt8
  /-- The axes of every entry. -/
  axes : Array Axes
  /-- Which entries of the target the entries stand for, if the package is an overlay. -/
  overlay : Option OverlayMap
  /-- The variants in file order. -/
  variants : List Variant
  deriving DecidableEq

namespace TypeSpec

/-- The axes of an entry; an entry that was never described varies along none. -/
def axesOf (s : TypeSpec) (index : UInt16) : Axes :=
  (s.axes[index.toNat]?).getD .none

end TypeSpec

end AppResources
