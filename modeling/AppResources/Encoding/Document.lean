import AppResources.Encoding.StringPool
import AppResources.Xml.Node

/-!
# Writing documents

A document with a single element is written from the name of the element and its
attributes. Attributes that are bound to resource ids come first, by ascending id, so
that the list of resource ids covers their names.

## Main definitions

* `ElementSource.encode`: the file of a document.
-/

namespace AppResources

/-- An attribute to be written. -/
inductive AttributeSource where
  /-- An attribute bound to a resource id. -/
  | bound (id : ResourceId) (name : String) (value : Value)
  /-- The attribute `style`, which has no resource id. -/
  | style (value : Value)

namespace AttributeSource

/-- The resource id. -/
def id? : AttributeSource → Option ResourceId
  | .bound id _ _ => some id
  | .style _ => none

/-- The name. -/
def name : AttributeSource → String
  | .bound _ name _ => name
  | .style _ => "style"

/-- The value. -/
def value : AttributeSource → Value
  | .bound _ _ value => value
  | .style value => value

/-- Whether an attribute may stand in front of another one. -/
def precedes (a b : AttributeSource) : Bool :=
  match a.id?, b.id? with
  | some x, some y => x ≤ y
  | none, some _ => false
  | _, none => true

/-- The bytes of an attribute whose name has the given index. -/
def encode (a : AttributeSource) (index : Nat) : List UInt8 :=
  Bytes.bytes32 noIndex ++ Bytes.bytes32 (UInt32.ofNat index) ++ Bytes.bytes32 noIndex ++
    a.value.encode

/-- The bytes of attributes whose names have consecutive indices. -/
def encodeFrom : Nat → List AttributeSource → List UInt8
  | _, [] => []
  | i, a :: rest => a.encode i ++ encodeFrom (i + 1) rest

end AttributeSource

/-- An element to be written. -/
structure ElementSource where
  /-- The name. -/
  name : String
  /-- The attributes in any order. -/
  attributes : List AttributeSource

namespace ElementSource

/-- The attributes in the order in which they are written. -/
def ordered (e : ElementSource) : List AttributeSource :=
  e.attributes.mergeSort AttributeSource.precedes

/-- One more than the index of the first attribute without a resource id, or zero. -/
def styleIndex (attributes : List AttributeSource) : Nat :=
  match attributes.findIdx? (·.id?.isNone) with
  | some i => i + 1
  | none => 0

/-- The file of a document with this element alone. -/
def encode (e : ElementSource) : List UInt8 :=
  let attributes := e.ordered
  let count := attributes.length
  let origin := Bytes.bytes32 1 ++ Bytes.bytes32 noIndex
  let name := Bytes.bytes32 noIndex ++ Bytes.bytes32 (UInt32.ofNat count)
  let fields :=
    name ++ Bytes.bytes16 20 ++ Bytes.bytes16 20 ++ Bytes.bytes16 (UInt16.ofNat count) ++
      Bytes.bytes16 0 ++ Bytes.bytes16 0 ++
      Bytes.bytes16 (UInt16.ofNat (styleIndex attributes))
  Chunk.encode .xml []
    (StringPool.encode true false (attributes.map (·.name) ++ [e.name]) ++
      Chunk.encode .xmlResourceMap [] ((attributes.filterMap (·.id?)).flatMap Bytes.bytes32) ++
      Chunk.encode .xmlStartElement origin (fields ++ AttributeSource.encodeFrom 0 attributes) ++
      Chunk.encode .xmlEndElement origin name)

end ElementSource

end AppResources
