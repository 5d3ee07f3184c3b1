import AppResources.Manager
import AppResources.Resources.Reference
import AppResources.Theme.Slots

/-!
# Themes

A theme collects values of attributes from the styles applied to it. The first
defined value of an attribute stays unless a style is forced upon it. A value may be
another attribute, which is then looked up in turn.

## Main definitions

* `Theme.apply`: the theme after a style was applied to it.
* `Theme.lookup`: the value of an attribute.
-/

namespace AppResources

/-- Values of attributes. -/
structure Theme where
  /-- The manager that the theme belongs to. -/
  owner : Nat
  /-- The axes along which any applied style varies. -/
  axes : Axes := .none
  /-- The slots of the attributes. -/
  slots : ThemeSlots := ByteTable.empty
  deriving DecidableEq

/-- Why a theme cannot be changed. -/
inductive ThemeError where
  /-- The themes belong to different managers. -/
  | differentManager
  /-- There is no such style. -/
  | style (id : ResourceId) (e : LookupError)
  /-- A key of the style is no resource id. -/
  | invalidKey (style key : ResourceId)
  deriving DecidableEq, Repr

namespace ThemeError

/-- The message about an error. -/
def message : ThemeError → String
  | .differentManager => "themes don't share an asset manager"
  | .style id _ => "can't apply style " ++ Text.hexId id
  | .invalidKey id key =>
    "style " ++ Text.hexId id ++ " has invalid attribute " ++ Text.hexId key

end ThemeError

namespace Theme

/-- The slot of an attribute. -/
def slot (t : Theme) (id : ResourceId) : ThemeSlot := t.slots.slot id

/-- What a slot holds after it was offered a value of a style, which it takes if it is
undefined, or by force. -/
def offer (axes : Axes) (force : Bool) (e : BagEntry) (old : ThemeSlot) : ThemeSlot :=
  if force || old.value.isUndefined then ⟨some e.cookie, old.axes.union axes, e.value⟩ else old

/-- Offers a value of a style to the slot of its attribute. -/
def store (axes : Axes) (force : Bool) (e : BagEntry) (slots : ThemeSlots) : ThemeSlots :=
  slots.modify e.key (offer axes force e)

/-- Whether a key names an attribute: neither its package nor its type is zero. -/
def isAttribute (key : ResourceId) : Bool :=
  ResourceId.package key != 0 && ResourceId.isValid key

/-- Stores the entries of a style one by one, up to the first key that is no attribute. -/
def storeAll (axes : Axes) (force : Bool) :
    List BagEntry → ThemeSlots → ThemeSlots × Option ResourceId
  | [], slots => (slots, none)
  | e :: rest, slots =>
    if isAttribute e.key then storeAll axes force rest (store axes force e slots)
    else (slots, some e.key)

/-- The theme with the entries of a style, which are taken from the last key to the first.
What comes before a key that is no attribute is kept. -/
def applyBag (t : Theme) (style : ResourceId) (b : Bag) (force : Bool) :
    Theme × Except ThemeError Unit :=
  let (slots, bad) := storeAll b.axes force b.entries.reverse t.slots
  let changed := { t with axes := t.axes.union b.axes, slots := slots }
  match bad with
  | some key => (changed, .error (.invalidKey style key))
  | none => (changed, .ok ())

/-- The theme after a style was applied to it. -/
def apply (t : Theme) (r : Resources) (style : ResourceId) (force : Bool) (cache : BagCache) :
    (Theme × Except ThemeError Unit) × BagCache :=
  match r.bag style cache with
  | (.ok b, cache) => (t.applyBag style b force, cache)
  | (.error e, cache) => ((t, .error (.style style e)), cache)

/-- Looks an attribute up, through a number of attributes that stand for each other. -/
def lookupFrom (t : Theme) : Nat → Axes → ResourceId → Except LookupError ThemeSlot
  | steps, axes, id =>
    let slot := t.slot id
    let axes := axes.union slot.axes
    if slot.value.kind = .attribute then
      match steps with
      | 0 => .error (.tooManySteps id)
      | steps + 1 => lookupFrom t steps axes slot.value.data
    else if slot.value.isUndefined then .error (.notFound id)
    else .ok { slot with axes := axes }

/-- The value of an attribute, with the axes of all attributes on the way. -/
def lookup (t : Theme) (id : ResourceId) : Except LookupError ThemeSlot :=
  t.lookupFrom maxSteps .none id

/-- The value at the end of a chain that may start at an attribute. -/
def followAttribute (t : Theme) (r : Resources) (s : Resolved) : Except Unresolved Resolved :=
  if s.value.kind = .attribute then
    match t.lookup s.value.data with
    | .error e => .error ⟨s, e⟩
    | .ok found =>
      r.follow { s with
        cookie := found.cookie
        value := found.value
        axes := s.axes.union found.axes }
  else r.follow s

/-- The value at the end of the chain that starts at an attribute. -/
def resolveAttribute (t : Theme) (r : Resources) (id : ResourceId) :
    Except LookupError Resolved :=
  match t.lookup id with
  | .error e => .error e
  | .ok found => r.resolve { cookie := found.cookie, value := found.value, axes := found.axes }

/-- The theme with the values of another one of the same manager. -/
def setTo (t other : Theme) : Except ThemeError Theme :=
  if t.owner = other.owner then .ok { t with axes := other.axes, slots := other.slots }
  else .error .differentManager

/-- The theme without any style. -/
def clear (t : Theme) : Theme :=
  { t with axes := .none, slots := ByteTable.empty }

end Theme

end AppResources
