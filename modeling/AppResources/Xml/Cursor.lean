import AppResources.LibraryTable
import AppResources.Xml

/-!
# Walking over a document

A cursor stands before the first node of a document or on one of its nodes. It
answers questions about the element that it stands on; resource ids and values pass
through a library table if there is one.
-/

namespace AppResources

/-- A place in a document. -/
structure XmlCursor where
  /-- The document. -/
  document : XmlDocument
  /-- The table that ids are renumbered with. -/
  libraries : Option LibraryTable
  /-- The index of the current node, `none` before the first one. -/
  position : Option Nat

namespace XmlCursor

/-- The cursor before the first node. -/
def start (document : XmlDocument) (libraries : Option LibraryTable) : XmlCursor :=
  ⟨document, libraries, none⟩

/-- The index of the node behind the cursor. -/
def nextIndex (c : XmlCursor) : Nat :=
  match c.position with
  | some i => i + 1
  | none => 0

/-- The cursor on the next node; there is none behind the last one. -/
def next? (c : XmlCursor) : Option XmlCursor :=
  if c.nextIndex < c.document.nodes.size then some { c with position := some c.nextIndex }
  else none

/-- The current node. -/
def node? (c : XmlCursor) : Option XmlNode :=
  c.position.bind (c.document.nodes[·]?)

/-- The current element. -/
def element? (c : XmlCursor) : Option XmlElement :=
  c.node?.bind (·.element?)

theorem next?_nextIndex {c d : XmlCursor} (h : c.next? = some d) :
    d.document = c.document ∧ d.nextIndex = c.nextIndex + 1 ∧
      c.nextIndex < c.document.nodes.size := by
  simp only [next?] at h
  split at h
  next hLess =>
    cases h
    exact ⟨rfl, rfl, hLess⟩
  next => simp at h

/-- The cursors on all nodes behind the cursor. -/
def following (c : XmlCursor) : List XmlCursor :=
  match _hNext : c.next? with
  | none => []
  | some d => d :: following d
termination_by c.document.nodes.size - c.nextIndex
decreasing_by
  obtain ⟨hDocument, hIndex, hLess⟩ := next?_nextIndex _hNext
  rw [hDocument, hIndex]
  omega

/-- The cursors on all elements behind the cursor. -/
def followingElements (c : XmlCursor) : List XmlCursor :=
  c.following.filter (·.element?.isSome)

/-- The cursor after a search for the next element; without one it stands on the last
node. -/
def toNextElement (c : XmlCursor) : XmlCursor :=
  match c.following.find? (·.element?.isSome) with
  | some d => d
  | none => (c.following.getLast?).getD c

/-- The cursor after a number of searches for the next element. -/
def skipElements : Nat → XmlCursor → XmlCursor
  | 0, c => c
  | n + 1, c => skipElements n c.toNextElement

/-- The name of the current element. -/
def elementName? (c : XmlCursor) : Option String :=
  c.element?.bind fun e => c.document.strings.string? e.name.toNat

/-- The attributes of the current element. -/
def attributes (c : XmlCursor) : List XmlAttribute :=
  match c.element? with
  | some e => e.attributes
  | none => []

/-- The name of an attribute. -/
def attributeName? (c : XmlCursor) (i : Nat) : Option String :=
  c.attributes[i]?.bind fun a => c.document.strings.string? a.name.toNat

/-- The resource id that the name of an attribute is bound to, zero if there is none. -/
def attributeId (c : XmlCursor) (i : Nat) : ResourceId :=
  match c.attributes[i]?.bind fun a => c.document.resourceIds[a.name.toNat]? with
  | none => 0
  | some id =>
    match c.libraries with
    | some table => (table.runtimeId? id).getD 0
    | none => id

/-- The value of an attribute, unless it refers to an unknown library. -/
def attributeValue? (c : XmlCursor) (i : Nat) : Option Value :=
  c.attributes[i]?.bind fun a =>
    match c.libraries with
    | some table => table.runtimeValue? a.value
    | none => some a.value

/-- The value of an attribute as it was written. -/
def attributeText? (c : XmlCursor) (i : Nat) : Option String :=
  c.attributes[i]?.bind fun a =>
    if a.rawValue = noIndex then none else c.document.strings.string? a.rawValue.toNat

/-- The index that a field counts from one, with zero for "none". -/
def countedFromOne (i : UInt16) : Option Nat :=
  if i = 0 then none else some (i.toNat - 1)

/-- The index of the attribute `id`. -/
def idIndex? (c : XmlCursor) : Option Nat :=
  c.element?.bind fun e => countedFromOne e.idIndex

/-- The index of the attribute `class`. -/
def classIndex? (c : XmlCursor) : Option Nat :=
  c.element?.bind fun e => countedFromOne e.classIndex

/-- The index of the attribute `style`. -/
def styleIndex? (c : XmlCursor) : Option Nat :=
  c.element?.bind fun e => countedFromOne e.styleIndex

end XmlCursor

end AppResources
