import AppResources.Encoding.Package

/-!
# Writing tables

## Main definitions

* `TableSource.encode`: the file of a table.
-/

namespace AppResources

/-- The content of a table. -/
structure TableSource where
  /-- The strings that values refer to. -/
  strings : List String := []
  /-- The packages. -/
  packages : List PackageSource := []
  /-- The number of packages to declare, if it is not their true number. -/
  declaredPackages : Option UInt32 := none

namespace TableSource

/-- The file of a table. -/
def encode (t : TableSource) : List UInt8 :=
  let declared := t.declaredPackages.getD (UInt32.ofNat t.packages.length)
  Chunk.encode .table (Bytes.bytes32 declared)
    (StringPool.encode true false t.strings ++ t.packages.flatMap PackageSource.encode)

end TableSource

end AppResources
