import AppResources.Chunk
import AppResources.Text.Utf16

/-!
# Declared libraries

A package lists the shared libraries that it was compiled against, each with the
package id that the library had at build time.
-/

namespace AppResources

/-- A library that a package was compiled against. -/
structure Library where
  /-- The id of the package at build time. -/
  buildId : UInt8
  /-- The name of the package. -/
  name : String
  deriving DecidableEq

/-- Why a chunk lists no libraries. -/
inductive LibraryFault where
  /-- The header has no room for the number of libraries. -/
  | tooSmall
  /-- The libraries exceed the chunk. -/
  | entriesPastEnd
  /-- A package id is too large. -/
  | idTooLarge
  /-- A read left the buffer. -/
  | fault (f : ReadFault)
  deriving DecidableEq, Repr

namespace LibraryFault

/-- What is wrong. -/
def detail : LibraryFault → String
  | .tooSmall => "too small"
  | .entriesPastEnd => "too small to hold entries"
  | .idTooLarge => "package ID too large"
  | .fault .outOfBounds => "truncated entry"
  | .fault .negative => "negative length"

end LibraryFault

namespace Library

/-- Bytes of a name. -/
def nameSize : Nat := 256

/-- Bytes of a listed library. -/
def diskSize : Nat := 4 + nameSize

/-- The greatest id that a library may have. -/
def maxId : Nat := 254

/-- The library at a position. -/
def readAt (b : ByteArray) (i : Nat) : Except LibraryFault Library :=
  match Bytes.word32At b i, Bytes.slice b (i + 4) (i + diskSize) with
  | .error f, _ => .error (.fault f)
  | _, .error f => .error (.fault f)
  | .ok id, .ok name =>
    if maxId < id.toNat then .error .idTooLarge
    else .ok ⟨UInt8.ofNat id.toNat, Text.fixedUtf16 name.data.toList⟩

/-- The libraries that a chunk lists. -/
def readAll (c : Chunk) : Except LibraryFault (List Library) :=
  match c.frame with
  | .error f => .error (.fault f)
  | .ok (header, payload) =>
    match Bytes.word32? header 0 with
    | none => .error .tooSmall
    | some count =>
      if payload.size / diskSize < count.toNat then .error .entriesPastEnd
      else (List.range count.toNat).mapM fun i => readAt payload (diskSize * i)

end Library

end AppResources
