/-!
# Little-endian fields of a byte buffer

All binary formats of this library are sequences of little-endian words inside
a `ByteArray`. This module reads such words at a position and writes them as
lists of bytes.

Two kinds of reads are kept apart. A field that a file may lack is read with
`byte?`, `word16?` or `word32?`, and its absence is an ordinary answer (`none`).
A range that earlier checks promise is taken with `slice` or `within`, and a
difference that must not be negative with `minus`; these report a `ReadFault`,
so that "no read ever leaves its buffer" is a statement about results.

## Main results

* `word16_bytes16`, `word32_bytes32`: a written word reads back.
* `bytes16_word16`, `bytes32_word32`: the bytes of a word that was read are the
  bytes it was read from.
-/

namespace AppResources

/-- Why a read that earlier checks should have made safe was refused. -/
inductive ReadFault where
  /-- The range does not lie inside the buffer. -/
  | outOfBounds
  /-- A length would have been negative. -/
  | negative
  deriving DecidableEq, Repr

namespace Bytes

/-! ## Words and their bytes -/

/-- The 16-bit word with these two bytes, the low one first. -/
def word16 (lo hi : UInt8) : UInt16 :=
  UInt16.ofNat (lo.toNat + 256 * hi.toNat)

/-- The 32-bit word with these four bytes, the lowest one first. -/
def word32 (b₀ b₁ b₂ b₃ : UInt8) : UInt32 :=
  UInt32.ofNat (b₀.toNat + 256 * (b₁.toNat + 256 * (b₂.toNat + 256 * b₃.toNat)))

/-- The bytes of a 16-bit word, the low one first. -/
def bytes16 (v : UInt16) : List UInt8 :=
  [UInt8.ofNat v.toNat, UInt8.ofNat (v.toNat / 256)]

/-- The bytes of a 32-bit word, the lowest one first. -/
def bytes32 (v : UInt32) : List UInt8 :=
  [UInt8.ofNat v.toNat, UInt8.ofNat (v.toNat / 256), UInt8.ofNat (v.toNat / 65536),
    UInt8.ofNat (v.toNat / 16777216)]

theorem word16_bytes16 (v : UInt16) :
    word16 (UInt8.ofNat v.toNat) (UInt8.ofNat (v.toNat / 256)) = v := by
  apply UInt16.toNat_inj.mp
  have h := v.toNat_lt
  simp only [word16, UInt8.toNat_ofNat', UInt16.toNat_ofNat']
  omega

theorem word32_bytes32 (v : UInt32) :
    word32 (UInt8.ofNat v.toNat) (UInt8.ofNat (v.toNat / 256))
      (UInt8.ofNat (v.toNat / 65536)) (UInt8.ofNat (v.toNat / 16777216)) = v := by
  apply UInt32.toNat_inj.mp
  have h := v.toNat_lt
  simp only [word32, UInt8.toNat_ofNat', UInt32.toNat_ofNat']
  omega

theorem bytes16_word16 (lo hi : UInt8) : bytes16 (word16 lo hi) = [lo, hi] := by
  have hlo := lo.toNat_lt
  have hhi := hi.toNat_lt
  simp only [bytes16, word16, UInt16.toNat_ofNat', List.cons.injEq, and_true]
  constructor <;> apply UInt8.toNat_inj.mp <;> simp only [UInt8.toNat_ofNat'] <;> omega

theorem bytes32_word32 (b₀ b₁ b₂ b₃ : UInt8) :
    bytes32 (word32 b₀ b₁ b₂ b₃) = [b₀, b₁, b₂, b₃] := by
  have h₀ := b₀.toNat_lt
  have h₁ := b₁.toNat_lt
  have h₂ := b₂.toNat_lt
  have h₃ := b₃.toNat_lt
  simp only [bytes32, word32, UInt32.toNat_ofNat', List.cons.injEq, and_true]
  refine ⟨?_, ?_, ?_, ?_⟩ <;> apply UInt8.toNat_inj.mp <;>
    simp only [UInt8.toNat_ofNat'] <;> omega

@[simp]
theorem length_bytes16 (v : UInt16) : (bytes16 v).length = 2 := rfl

@[simp]
theorem length_bytes32 (v : UInt32) : (bytes32 v).length = 4 := rfl

/-! ## Fields that may be missing -/

/-- The byte at a position, if the buffer reaches that far. -/
def byte? (b : ByteArray) (i : Nat) : Option UInt8 :=
  b[i]?

/-- The 16-bit word that starts at a position. -/
def word16? (b : ByteArray) (i : Nat) : Option UInt16 :=
  match b[i]?, b[i + 1]? with
  | some lo, some hi => some (word16 lo hi)
  | _, _ => none

/-- The 32-bit word that starts at a position. -/
def word32? (b : ByteArray) (i : Nat) : Option UInt32 :=
  match b[i]?, b[i + 1]?, b[i + 2]?, b[i + 3]? with
  | some b₀, some b₁, some b₂, some b₃ => some (word32 b₀ b₁ b₂ b₃)
  | _, _, _, _ => none

/-- All 32-bit words of a list of bytes in order; up to three bytes at the end are left out. -/
def words32 : List UInt8 → List UInt32
  | b₀ :: b₁ :: b₂ :: b₃ :: rest => word32 b₀ b₁ b₂ b₃ :: words32 rest
  | _ => []

/-- All 16-bit words of a list of bytes in order; a single byte at the end is left out. -/
def words16 : List UInt8 → List UInt16
  | lo :: hi :: rest => word16 lo hi :: words16 rest
  | _ => []

/-! ## Ranges that must be there -/

/-- Checks that a range lies inside the buffer. -/
def within (b : ByteArray) (start stop : Nat) : Except ReadFault Unit :=
  if start ≤ stop ∧ stop ≤ b.size then .ok () else .error .outOfBounds

/-- The bytes of a range of the buffer. -/
def slice (b : ByteArray) (start stop : Nat) : Except ReadFault ByteArray :=
  if start ≤ stop ∧ stop ≤ b.size then .ok (b.extract start stop) else .error .outOfBounds

/-- The byte at a position that must be inside the buffer. -/
def byteAt (b : ByteArray) (i : Nat) : Except ReadFault UInt8 :=
  match b[i]? with
  | some v => .ok v
  | none => .error .outOfBounds

/-- The 16-bit word at a position where there must be one. -/
def word16At (b : ByteArray) (i : Nat) : Except ReadFault UInt16 :=
  match word16? b i with
  | some v => .ok v
  | none => .error .outOfBounds

/-- The 32-bit word at a position where there must be one. -/
def word32At (b : ByteArray) (i : Nat) : Except ReadFault UInt32 :=
  match word32? b i with
  | some v => .ok v
  | none => .error .outOfBounds

/-- A difference that must not be negative. -/
def minus (a b : Nat) : Except ReadFault Nat :=
  if b ≤ a then .ok (a - b) else .error .negative

end Bytes

end AppResources
