import AppResources.Bytes
import AppResources.Config

/-!
# Configurations as records

On disk a configuration is a record that starts with its own size. Fields were
added at the end over time, so a record may be shorter or longer than the fields
known here: a field counts only if the size covers its whole group, and bytes
behind the known fields are skipped.

## Main definitions

* `Config.read?`: the configuration at a position.
* `Config.record`: the full record of a configuration.
-/

namespace AppResources

/-- A record of a known size at a position of a buffer. -/
structure SizedRecord where
  /-- The buffer. -/
  buffer : ByteArray
  /-- Where the record starts. -/
  start : Nat
  /-- How many bytes of it count. -/
  size : Nat

namespace SizedRecord

/-- The byte at an offset, zero unless the record reaches to the end of its group. -/
def byte (r : SizedRecord) (groupEnd offset : Nat) : UInt8 :=
  if groupEnd ≤ r.size then (Bytes.byte? r.buffer (r.start + offset)).getD 0 else 0

/-- The 16-bit word at an offset, zero unless the record reaches to the end of its group. -/
def word16 (r : SizedRecord) (groupEnd offset : Nat) : UInt16 :=
  if groupEnd ≤ r.size then (Bytes.word16? r.buffer (r.start + offset)).getD 0 else 0

/-- The bytes from an offset on, zero unless the record reaches to the end of their group. -/
def bytes (r : SizedRecord) (groupEnd offset : Nat) (n : Nat) : Vector UInt8 n :=
  Vector.ofFn fun i => r.byte groupEnd (offset + i.val)

/-- The two-byte code at an offset. -/
def subtag (r : SizedRecord) (groupEnd offset : Nat) : Subtag :=
  ⟨r.byte groupEnd offset, r.byte groupEnd (offset + 1)⟩

end SizedRecord

namespace Config

/-- Bytes of a full record. -/
def recordSize : Nat := 64

/-- The fields of a record. -/
def ofRecord (r : SizedRecord) : Config where
  mcc := r.word16 8 4
  mnc := r.word16 8 6
  locale := {
    language := r.subtag 12 8
    region := r.subtag 12 10
    script := r.bytes 40 36 4
    scriptComputed := r.byte 53 52 != 0
    variant := r.bytes 48 40 8
    numbering := r.bytes 61 53 8 }
  orientation := r.byte 16 12
  touchscreen := r.byte 16 13
  density := r.word16 16 14
  keyboard := r.byte 20 16
  navigation := r.byte 20 17
  inputFlags := r.byte 20 18
  screenWidth := r.word16 24 20
  screenHeight := r.word16 24 22
  sdkVersion := r.word16 28 24
  minorVersion := r.word16 28 26
  screenLayout := r.byte 32 28
  uiMode := r.byte 32 29
  smallestWidthDp := r.word16 32 30
  widthDp := r.word16 36 32
  heightDp := r.word16 36 34
  screenLayout2 := r.byte 52 48
  colorMode := r.byte 52 49

/-- How many bytes of a buffer stand from a position on, in 32 bits. -/
def room (b : ByteArray) (start : Nat) : Nat :=
  (UInt32.ofNat (b.size - start)).toNat

/-- The configuration at a position of a buffer, and the position behind its record. A
record that claims more than there is room for ends with it. -/
def read? (b : ByteArray) (start : Nat) : Option (Config × Nat) :=
  match Bytes.word32? b start with
  | none => none
  | some declared =>
    let size := min declared.toNat (room b start)
    some (ofRecord ⟨b, start, size⟩, start + max 4 size)

/-- The full record of a configuration. -/
def record (c : Config) : List UInt8 :=
  Bytes.bytes32 64 ++
    Bytes.bytes16 c.mcc ++ Bytes.bytes16 c.mnc ++
    c.locale.language.bytes ++ c.locale.region.bytes ++
    [c.orientation, c.touchscreen] ++ Bytes.bytes16 c.density ++
    [c.keyboard, c.navigation, c.inputFlags, 0] ++
    Bytes.bytes16 c.screenWidth ++ Bytes.bytes16 c.screenHeight ++
    Bytes.bytes16 c.sdkVersion ++ Bytes.bytes16 c.minorVersion ++
    [c.screenLayout, c.uiMode] ++ Bytes.bytes16 c.smallestWidthDp ++
    Bytes.bytes16 c.widthDp ++ Bytes.bytes16 c.heightDp ++
    c.locale.script.toList ++ c.locale.variant.toList ++
    [c.screenLayout2, c.colorMode, 0, 0] ++
    [if c.locale.scriptComputed then 1 else 0] ++ c.locale.numbering.toList ++
    [0, 0, 0]

end Config

end AppResources
