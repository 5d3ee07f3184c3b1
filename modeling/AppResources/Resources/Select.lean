import AppResources.Config.Ranking
import AppResources.Resources

/-!
# Selecting entries

The entry of a resource is picked among the variants of all packages of its group
that fit the requested configuration and define the entry. The best configuration
wins; an overlay also wins over an equal one.

## Main definitions

* `Resources.find`: the selected entry of a resource.
-/

namespace AppResources

/-- An entry that may be selected. -/
structure Candidate where
  /-- The package it is defined in. -/
  member : GroupMember
  /-- The variant it is defined in. -/
  variant : Variant
  /-- The entry. -/
  entry : Entry

/-- A selected entry. -/
structure Selection where
  /-- The asset that the entry is part of. -/
  cookie : Nat
  /-- The entry. -/
  entry : Entry
  /-- The configuration of the variant. -/
  config : Config
  /-- The axes along which any package of the group varies the entry. -/
  axes : Axes
  /-- The package that the entry is part of. -/
  package : Package
  /-- The slot whose name is the name of the type. -/
  typeSlot : Nat
  /-- The ids of the libraries that the entry refers to. -/
  libraries : LibraryTable

namespace Selection

/-- The name of the type. -/
def typeName? (s : Selection) : Option String :=
  s.package.typeName? s.typeSlot

/-- The name of the entry. -/
def entryName? (s : Selection) : Option String :=
  s.package.entryName? s.entry

end Selection

namespace Candidate

/-- Whether a variant takes the place of the current candidate. -/
def isReplacedBy (request : Config) (isOverlay : Bool) (current v : Variant) : Bool :=
  v.config.isBetterFor current.config (some request) ||
    (isOverlay && v.config.order current.config == .eq)

/-- The better one of the current candidate and the entry of a variant. -/
def improve (request : Config) (m : GroupMember) (index : UInt16)
    (best : Option Candidate) (v : Variant) : Option Candidate :=
  let wanted := match best with
    | none => true
    | some current => isReplacedBy request m.package.isOverlay current.variant v
  if wanted then
    match v.entry? index with
    | some entry => some ⟨m, v, entry⟩
    | none => best
  else best

end Candidate

namespace GroupMember

/-- The type of a package that a type byte names, with its slot and the index of the
entry there. Overlays name the entries of their target. -/
def locate? (m : GroupMember) (type : UInt8) (entry : UInt16) :
    Option (Nat × TypeSpec × UInt16) :=
  let offset := m.package.typeIdOffset.toNat + 1
  if type.toNat < offset then none
  else
    let slot := type.toNat - offset
    match m.package.spec? slot with
    | none => none
    | some s =>
      match s.overlay with
      | none => some (slot, s, entry)
      | some map => (map.lookup? entry).map fun own => (slot, s, own)

/-- The variants in a slot that fit the request. Those for the current configuration are
known already. -/
def fittingFor (m : GroupMember) (slot : Nat) (s : TypeSpec) (isCurrent : Bool)
    (request : Config) : List Variant :=
  if isCurrent then (m.fitting[slot]?).getD []
  else s.variants.filter (·.config.fits request)

end GroupMember

/-- The candidate so far and the axes met on the way. -/
structure Search where
  /-- The best candidate. -/
  best : Option Candidate := none
  /-- The axes of all packages that define the entry. -/
  axes : Axes := .none

namespace Search

/-- Searches one more package. -/
def visit (type : UInt8) (entry : UInt16) (isCurrent : Bool) (request : Config)
    (search : Search) (m : GroupMember) : Search :=
  match m.locate? type entry with
  | none => search
  | some (slot, s, index) =>
    { best := (m.fittingFor slot s isCurrent request).foldl
        (Candidate.improve request m index) search.best
      axes := search.axes.union (s.axesOf index) }

end Search

namespace Resources

/-- The configuration that entries are requested for: the current one, in another density
if one is given. -/
def requestFor (r : Resources) (density : UInt16) : Config :=
  if density = 0 then r.config else { r.config with density := density }

/-- The selected entry of a resource. A density other than zero takes the place of that of
the configuration. -/
def find (r : Resources) (id : ResourceId) (density : UInt16) : Except LookupError Selection :=
  if ResourceId.isValid id then
    match r.group? (ResourceId.package id) with
    | none => .error (.invalidId id)
    | some g =>
      let isCurrent := density == 0 || density == r.config.density
      let search := g.members.foldl
        (Search.visit (ResourceId.type id) (ResourceId.entry id) isCurrent
          (r.requestFor density)) {}
      match search.best with
      | none => .error (.notFound id)
      | some c =>
        .ok {
          cookie := c.member.cookie
          entry := c.entry
          config := c.variant.config
          axes := search.axes
          package := c.member.package
          typeSlot := c.variant.typeId.toNat - 1
          libraries := g.libraries }
  else .error (.invalidId id)

/-- The axes along which a resource varies. -/
def axesOf (r : Resources) (id : ResourceId) : Except LookupError Axes :=
  (r.find id 0).map (·.axes)

end Resources

end AppResources
