import AppResources.Bytes

/-!
# Resource ids

A resource id is a 32-bit word: a package byte, a type byte and a 16-bit entry
index. Type bytes count from one, so a zero type byte marks a word that names no
resource.
-/

namespace AppResources

/-- A resource id, or an attribute key. -/
abbrev ResourceId := UInt32

namespace ResourceId

/-- The id of the package that applications compile into. -/
def appPackage : UInt8 := 0x7f

/-- The id of the package of the framework. -/
def frameworkPackage : UInt8 := 0x01

/-- The package byte. -/
def package (id : ResourceId) : UInt8 := UInt8.ofNat (id.toNat / 16777216)

/-- The type byte. -/
def type (id : ResourceId) : UInt8 := UInt8.ofNat (id.toNat / 65536)

/-- The index of the entry within its type. -/
def entry (id : ResourceId) : UInt16 := UInt16.ofNat id.toNat

/-- The id with these parts. -/
def make (package type : UInt8) (entry : UInt16) : ResourceId :=
  UInt32.ofNat (16777216 * package.toNat + 65536 * type.toNat + entry.toNat)

/-- The id with another package byte. -/
def withPackage (id : ResourceId) (package : UInt8) : ResourceId :=
  make package (ResourceId.type id) (ResourceId.entry id)

/-- Whether the id can name a resource. -/
def isValid (id : ResourceId) : Bool := ResourceId.type id != 0

/-- Whether the word is a plain ordinal, without package and type. -/
def isOrdinal (id : ResourceId) : Bool := id.toNat < 65536

theorem package_make (package type : UInt8) (entry : UInt16) :
    ResourceId.package (make package type entry) = package := by
  have hp := package.toNat_lt
  have ht := type.toNat_lt
  have he := entry.toNat_lt
  apply UInt8.toNat_inj.mp
  simp only [ResourceId.package, make, UInt8.toNat_ofNat', UInt32.toNat_ofNat']
  omega

theorem type_make (package type : UInt8) (entry : UInt16) :
    ResourceId.type (make package type entry) = type := by
  have hp := package.toNat_lt
  have ht := type.toNat_lt
  have he := entry.toNat_lt
  apply UInt8.toNat_inj.mp
  simp only [ResourceId.type, make, UInt8.toNat_ofNat', UInt32.toNat_ofNat']
  omega

theorem entry_make (package type : UInt8) (entry : UInt16) :
    ResourceId.entry (make package type entry) = entry := by
  have hp := package.toNat_lt
  have ht := type.toNat_lt
  have he := entry.toNat_lt
  apply UInt16.toNat_inj.mp
  simp only [ResourceId.entry, make, UInt16.toNat_ofNat', UInt32.toNat_ofNat']
  omega

theorem make_parts (id : ResourceId) :
    make (ResourceId.package id) (ResourceId.type id) (ResourceId.entry id) = id := by
  have h := id.toNat_lt
  apply UInt32.toNat_inj.mp
  simp only [make, ResourceId.package, ResourceId.type, ResourceId.entry, UInt8.toNat_ofNat',
    UInt16.toNat_ofNat', UInt32.toNat_ofNat']
  omega

end ResourceId

end AppResources
