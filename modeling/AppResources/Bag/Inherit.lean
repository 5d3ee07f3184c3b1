import AppResources.Bag
import AppResources.Resources.Select

/-!
# Inheritance of bags

A bag may name a parent. Its chain of parents is followed up to a bag without a
parent, to one that is known already, or to a parent that is on the chain itself. The
bags of such a cycle keep only their own entries; all other bags of the chain are
merged from the top down, and every one of them is remembered.

## Main definitions

* `Resources.ownBag`: a bag as it is written, with run-time ids.
* `Resources.bag`: a bag with all it inherits.
-/

namespace AppResources

/-- A bag as it is written, with run-time ids. -/
structure OwnBag where
  /-- The id of the bag. -/
  id : ResourceId
  /-- The parent, or zero. -/
  parent : ResourceId
  /-- The axes along which the bag varies. -/
  axes : Axes
  /-- The entries. -/
  entries : List BagEntry
  deriving DecidableEq

/-- The bags that are known, the latest first. -/
abbrev BagCache := List (ResourceId × Bag)

/-- The chain of parents of a bag, as far as it had to be followed. -/
structure Ancestry where
  /-- The bags of a cycle, and the topmost bag of a chain without one: they inherit nothing
  from the chain. The topmost comes first. -/
  alone : List OwnBag
  /-- The bags that inherit, the topmost first. -/
  heirs : List OwnBag
  /-- What the topmost heir inherits if nobody stands alone. -/
  known : Option Bag

namespace OwnBag

/-- A bag without what it inherits. -/
def bag (b : OwnBag) : Bag := ⟨b.axes, b.entries⟩

/-- A bag with what it inherits. -/
def inherit (b : OwnBag) (parent : Bag) : Bag := Bag.extend b.entries b.axes parent

end OwnBag

namespace Ancestry

/-- Remembers the bags that stand alone, and gives the last of them. -/
def settle : List OwnBag → Option Bag → BagCache → Option Bag × BagCache
  | [], last, cache => (last, cache)
  | b :: rest, _, cache => settle rest (some b.bag) ((b.id, b.bag) :: cache)

/-- Merges and remembers the bags that inherit, and gives the last of them. -/
def descend : List OwnBag → Option Bag → BagCache → Option Bag × BagCache
  | [], last, cache => (last, cache)
  | b :: rest, parent, cache =>
    let merged := match parent with
      | some p => b.inherit p
      | none => b.bag
    descend rest (some merged) ((b.id, merged) :: cache)

/-- Remembers all bags of a chain, and gives the lowest one. -/
def flatten (a : Ancestry) (cache : BagCache) : Option Bag × BagCache :=
  let (top, cache) := settle a.alone a.known cache
  descend a.heirs top cache

end Ancestry

namespace Resources

/-- The key of an item at run time. Ordinals stay what they are. -/
def runtimeKey (t : LibraryTable) (key : ResourceId) : Except LookupError ResourceId :=
  if ResourceId.isOrdinal key then .ok key
  else
    match t.runtimeId? key with
    | some id => .ok id
    | none => .error (.unknownLibrary key)

/-- An item of a bag at run time. -/
def runtimeItem (t : LibraryTable) (style : ResourceId) (cookie : Nat) (item : BagItem) :
    Except LookupError BagEntry :=
  match runtimeKey t item.name with
  | .error e => .error e
  | .ok key =>
    match t.runtimeValue? item.value with
    | some v => .ok ⟨key, v, style, cookie⟩
    | none => .error (.unknownLibrary item.value.data)

/-- The parent of a bag at run time; an id that cannot be renumbered stays what it is. -/
def runtimeParent (t : LibraryTable) (parent : ResourceId) : ResourceId :=
  if parent = 0 then 0 else (t.runtimeId? parent).getD parent

/-- A bag as it is written, with run-time ids. -/
def ownBag (r : Resources) (id : ResourceId) : Except LookupError OwnBag :=
  match r.find id 0 with
  | .error e => .error e
  | .ok s =>
    match s.entry with
    | .plain .. => .error (.notFound id)
    | .bag _ _ parent items =>
      match items.mapM (runtimeItem s.libraries id s.cookie) with
      | .error e => .error e
      | .ok entries => .ok ⟨id, runtimeParent s.libraries parent, s.axes, entries⟩

/-- Follows the chain of parents from a bag on. The bags below it are given with the
nearest first, and so are the bags of the answer. No chain is longer than there are ids. -/
def ascend (r : Resources) (cache : BagCache) :
    Nat → List OwnBag → ResourceId → Except LookupError Ancestry
  | 0, _, id => .error (.tooManySteps id)
  | fuel + 1, below, id =>
    match r.ownBag id with
    | .error e => .error e
    | .ok own =>
      let chain := own :: below
      if own.parent = 0 then .ok ⟨[own], below, none⟩
      else
        match chain.span (·.id != own.parent) with
        | (before, last :: heirs) => .ok ⟨before ++ [last], heirs, none⟩
        | (_, []) =>
          match cache.lookup own.parent with
          | some known => .ok ⟨[], chain, some known⟩
          | none => ascend r cache fuel chain own.parent

/-- The number of ids. -/
def idCount : Nat := 4294967296

/-- A bag with all it inherits, and the known bags after that. Known bags are not looked up
again, and bags that are found become known. -/
def bag (r : Resources) (id : ResourceId) (cache : BagCache) :
    Except LookupError Bag × BagCache :=
  match cache.lookup id with
  | some known => (.ok known, cache)
  | none =>
    match r.ascend cache idCount [] id with
    | .error e => (.error e, cache)
    | .ok chain =>
      match chain.flatten cache with
      | (some found, cache) => (.ok found, cache)
      | (none, cache) => (.error (.notFound id), cache)

end Resources

end AppResources
