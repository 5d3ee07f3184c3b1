import AppResources.Xml.Cursor

/-!
# Attributes of a tag

What the attributes of views are resolved from: the attributes of one tag with the
resource ids of their names, and the place of the attribute `style`.
-/

namespace AppResources

/-- The attributes of a tag. -/
structure AttributeSet where
  /-- For every attribute the id that its name is bound to, zero if there is none, and its
  value, unless it refers to an unknown library. -/
  items : List (ResourceId × Option Value) := []
  /-- The index of the attribute `style`. -/
  styleIndex : Option Nat := none

namespace AttributeSet

/-- The id of an attribute, zero behind the last one. -/
def idAt (s : AttributeSet) (i : Nat) : ResourceId :=
  match s.items[i]? with
  | some a => a.1
  | none => 0

/-- The value of an attribute, undefined where there is none. -/
def valueAt (s : AttributeSet) (i : Nat) : Value :=
  match s.items[i]? with
  | some a => a.2.getD .undefined
  | none => .undefined

/-- The value of the first attribute with an id. -/
def value? (s : AttributeSet) (id : ResourceId) : Option Value :=
  (s.items.find? (·.1 == id)).map fun a => a.2.getD .undefined

end AttributeSet

namespace XmlCursor

/-- The attributes of the current element. -/
def attributeSet (c : XmlCursor) : AttributeSet where
  items := (List.range c.attributes.length).map fun i => (c.attributeId i, c.attributeValue? i)
  styleIndex := c.styleIndex?

end XmlCursor

end AppResources
