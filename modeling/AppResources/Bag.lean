import AppResources.Config.Axis
import AppResources.ResourceId
import AppResources.Value

/-!
# Bags

A bag holds values under keys. The bag of a style holds the values of attributes; it
is merged with the bag it inherits from by walking over both in the order of keys.

## Main definitions

* `Bag.find?`: the value under a key, by bisection.
* `Bag.merge`: the entries of a bag over those of its parent.
-/

namespace AppResources

/-- A value of a bag. -/
structure BagEntry where
  /-- The key: an attribute, or an ordinal. -/
  key : ResourceId
  /-- The value. -/
  value : Value
  /-- The bag that defines the value. -/
  style : ResourceId
  /-- The asset that the bag is part of. -/
  cookie : Nat
  deriving DecidableEq

/-- A bag together with all it inherits. -/
structure Bag where
  /-- The axes along which any bag of the chain varies. -/
  axes : Axes := .none
  /-- The entries by key. -/
  entries : List BagEntry := []
  deriving DecidableEq

namespace Bag

/-- Where a bisection for a key ends that starts at `base` with `size` entries: the last
one that does not exceed the key, if the keys ascend. -/
def bisect (entries : Array BagEntry) (key : ResourceId) (base size : Nat) : Nat :=
  if size ≤ 1 then base
  else
    let half := size / 2
    let exceeds := entries[base + half]?.all fun e => decide (key < e.key)
    bisect entries key (if exceeds then base else base + half) (size - half)
termination_by size
decreasing_by omega

/-- The entry with a key. -/
def find? (b : Bag) (key : ResourceId) : Option BagEntry :=
  let entries := b.entries.toArray
  (entries[bisect entries key 0 entries.size]?).filter (·.key == key)

/-- Leaves out the first entry of a list if it has the given key. -/
def withoutKey (key : ResourceId) : List BagEntry → List BagEntry
  | [] => []
  | e :: rest => if e.key = key then rest else e :: rest

/-- The entries of a bag over those of its parent, both by ascending key. Of two entries
with one key that of the bag counts. -/
def merge : List BagEntry → List BagEntry → List BagEntry
  | [], parent => parent
  | c :: child, parent =>
    let (before, rest) := parent.span (·.key < c.key)
    before ++ c :: merge child (withoutKey c.key rest)

/-- A bag as it is written, over the bag it inherits from. -/
def extend (entries : List BagEntry) (axes : Axes) (parent : Bag) : Bag where
  axes := axes.union parent.axes
  entries := merge entries parent.entries

end Bag

end AppResources
