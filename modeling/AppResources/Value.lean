import AppResources.Bytes

/-!
# Typed values

A value of a resource is a kind and a 32-bit word whose meaning depends on the
kind. On disk it is eight bytes: a size, a zero byte, the tag of the kind and the
word.

## Main definitions

* `ValueKind.ofTag`, `ValueKind.tag`: the kind with a tag, and the tag of a kind.
* `ValueKind.IsCanonical`: a kind that is the one with its tag.

## Main results

* `ValueKind.tag_ofTag`, `ValueKind.ofTag_tag_iff`: a tag is that of its kind, and a kind is the
  one with its tag exactly if it is canonical.
-/

namespace AppResources

/-- The tags that have a meaning. -/
def knownTags : List UInt8 :=
  [0x00, 0x01, 0x02, 0x03, 0x04, 0x05, 0x06, 0x07, 0x08, 0x10, 0x11, 0x12, 0x1c, 0x1d, 0x1e, 0x1f]

/-- What the word of a value means. -/
inductive ValueKind where
  /-- Undefined, or explicitly empty. -/
  | null
  /-- The id of a resource. -/
  | reference
  /-- The id of an attribute of the theme. -/
  | attribute
  /-- An index into the global string pool of the table. -/
  | string
  /-- The bits of a single-precision number. -/
  | float
  /-- A fixed-point number with a unit of length. -/
  | dimension
  /-- A fixed-point share of something. -/
  | fraction
  /-- A resource id under a build-time package id. -/
  | dynamicReference
  /-- An attribute id under a build-time package id. -/
  | dynamicAttribute
  /-- An integer written in decimal digits. -/
  | decimal
  /-- An integer written in hexadecimal digits. -/
  | hexadecimal
  /-- A truth value. -/
  | boolean
  /-- A colour written `#aarrggbb`. -/
  | colorArgb8
  /-- A colour written `#rrggbb`. -/
  | colorRgb8
  /-- A colour written `#argb`. -/
  | colorArgb4
  /-- A colour written `#rgb`. -/
  | colorRgb4
  /-- A tag without a meaning, or one whose meaning is left aside. -/
  | unknown (tag : UInt8)
  deriving DecidableEq, Inhabited

namespace ValueKind

/-- The kind with a tag. -/
def ofTag (t : UInt8) : ValueKind :=
  match t with
  | 0x00 => .null
  | 0x01 => .reference
  | 0x02 => .attribute
  | 0x03 => .string
  | 0x04 => .float
  | 0x05 => .dimension
  | 0x06 => .fraction
  | 0x07 => .dynamicReference
  | 0x08 => .dynamicAttribute
  | 0x10 => .decimal
  | 0x11 => .hexadecimal
  | 0x12 => .boolean
  | 0x1c => .colorArgb8
  | 0x1d => .colorRgb8
  | 0x1e => .colorArgb4
  | 0x1f => .colorRgb4
  | _ => .unknown t

/-- The tag of a kind. -/
def tag : ValueKind → UInt8
  | .null => 0x00
  | .reference => 0x01
  | .attribute => 0x02
  | .string => 0x03
  | .float => 0x04
  | .dimension => 0x05
  | .fraction => 0x06
  | .dynamicReference => 0x07
  | .dynamicAttribute => 0x08
  | .decimal => 0x10
  | .hexadecimal => 0x11
  | .boolean => 0x12
  | .colorArgb8 => 0x1c
  | .colorRgb8 => 0x1d
  | .colorArgb4 => 0x1e
  | .colorRgb4 => 0x1f
  | .unknown t => t

/-- The kind is not a tag whose meaning is left aside. -/
def IsCanonical (kind : ValueKind) : Prop :=
  ∀ t ∈ knownTags, kind ≠ .unknown t

instance : DecidablePred IsCanonical := fun kind =>
  inferInstanceAs (Decidable (∀ t ∈ knownTags, kind ≠ .unknown t))

theorem tag_ofTag (t : UInt8) : (ofTag t).tag = t := by
  have h : ∀ n : Fin 256, (ofTag (UInt8.ofFin n)).tag = UInt8.ofFin n := by decide +kernel
  exact h t.toFin

theorem ofTag_eq_unknown_iff (t : UInt8) : ofTag t = .unknown t ↔ t ∉ knownTags := by
  have h : ∀ n : Fin 256, ofTag (UInt8.ofFin n) = .unknown (UInt8.ofFin n) ↔
      UInt8.ofFin n ∉ knownTags := by decide +kernel
  exact h t.toFin

/-- Only a tag whose meaning is left aside has another kind. -/
theorem ofTag_tag_iff {kind : ValueKind} : ofTag kind.tag = kind ↔ kind.IsCanonical := by
  cases kind with
  | unknown t =>
      rw [tag, ofTag_eq_unknown_iff]
      constructor
      · rintro hnew u hu heq
        exact hnew (ValueKind.unknown.inj heq ▸ hu)
      · exact fun hcanonical hknown => hcanonical t hknown rfl
  | _ => exact iff_of_true rfl fun t _ => nofun

end ValueKind

/-- A typed value. -/
structure Value where
  /-- What the word means. -/
  kind : ValueKind
  /-- The word. -/
  data : UInt32
  deriving DecidableEq, Inhabited

namespace Value

/-- Bytes of a value on disk. -/
def diskSize : Nat := 8

/-- The value of a resource that was never defined. -/
def undefined : Value := ⟨.null, 0⟩

/-- Whether the value has the null kind, be it undefined or empty. -/
def isNull (v : Value) : Bool := v.kind == .null

/-- Whether nothing was ever defined: a null that is not explicitly empty. -/
def isUndefined (v : Value) : Bool := v.kind == .null && v.data != 1

/-- Whether the value is a reference to nothing. -/
def isNullReference (v : Value) : Bool := v.kind == .reference && v.data == 0

/-- Whether the value refers to another resource. -/
def isLiveReference (v : Value) : Bool := v.kind == .reference && v.data != 0

/-- A value at a position of a buffer, with the size written in front of it. -/
def read? (b : ByteArray) (i : Nat) : Option (UInt16 × Value) :=
  match Bytes.word16? b i, Bytes.byte? b (i + 3), Bytes.word32? b (i + 4) with
  | some size, some tag, some data => some (size, ⟨.ofTag tag, data⟩)
  | _, _, _ => none

/-- A value at a position where there must be one, with the size written in front of it. -/
def readAt (b : ByteArray) (i : Nat) : Except ReadFault (UInt16 × Value) :=
  match read? b i with
  | some v => .ok v
  | none => .error .outOfBounds

/-- The bytes of a value. -/
def encode (v : Value) : List UInt8 :=
  Bytes.bytes16 8 ++ [0, v.kind.tag] ++ Bytes.bytes32 v.data

end Value

end AppResources
