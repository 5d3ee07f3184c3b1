import AppResources.Resources.Select

/-!
# Names of resources

A resource is written `package:type/entry`; package and type may be missing.

## Main definitions

* `ResourceName.parse?`: the parts of a name.
* `Resources.nameOf`, `Resources.idOf?`: from ids to names and back.
-/

namespace AppResources

/-- A name in parts; a part that is missing is empty. -/
structure ResourceName where
  /-- The package. -/
  package : String
  /-- The type. -/
  type : String
  /-- The entry. -/
  entry : String
  deriving DecidableEq

namespace ResourceName

/-- The full name. -/
def text (n : ResourceName) : String :=
  n.package ++ ":" ++ n.type ++ "/" ++ n.entry

/-- A name that is being split. -/
structure Split where
  /-- The package, once a colon was met. -/
  package : Option (List Char) := none
  /-- The type, once a slash was met. -/
  type : Option (List Char) := none
  /-- The characters since the last separator, the latest first. -/
  current : List Char := []

namespace Split

/-- Whether a part is still open: not met, or empty. -/
def isOpen : Option (List Char) → Bool
  | some (_ :: _) => false
  | _ => true

/-- Takes in one more character. A separator ends the part before it while that part is
open, and is a character like any other from then on. -/
def step (s : Split) (c : Char) : Split :=
  if c = '/' ∧ isOpen s.type then { s with type := some s.current.reverse, current := [] }
  else if c = ':' ∧ isOpen s.package then
    { s with package := some s.current.reverse, current := [] }
  else { s with current := c :: s.current }

end Split

/-- The characters of a name without the sigil in front. -/
def withoutSigil : List Char → List Char
  | '@' :: rest => rest
  | cs => cs

/-- The parts of a name. A separator with nothing in front of it makes it no name. -/
def parse? (name : String) : Option ResourceName :=
  let s := (withoutSigil name.toList).foldl Split.step {}
  if s.package = some [] ∨ s.type = some [] then none
  else
    some {
      package := String.ofList (s.package.getD [])
      type := String.ofList (s.type.getD [])
      entry := String.ofList s.current.reverse }

end ResourceName

namespace Resources

/-- The name of a resource. -/
def nameOf (r : Resources) (id : ResourceId) : Except LookupError ResourceName :=
  match r.find id 0 with
  | .error e => .error e
  | .ok s =>
    match s.typeName?, s.entryName? with
    | some type, some entry => .ok ⟨s.package.name, type, entry⟩
    | _, _ => .error (.notFound id)

/-- The name of a resource as text, if there is one. -/
def nameText? (r : Resources) (id : ResourceId) : Option String :=
  match r.nameOf id with
  | .ok n => some n.text
  | .error _ => none

/-- The type that attributes which are not found are looked up in. -/
def privateAttributes : String := "^attr-private"

/-- The id of an entry of a package by names, with a package byte of zero. -/
def entryOf? (p : Package) (type entry : String) : Option ResourceId :=
  (p.findEntry? type entry).or
    (if type = "attr" then p.findEntry? privateAttributes entry else none)

/-- The id of an entry in the first members of a group that carry the name of the package. -/
def entryInGroup? (g : PackageGroup) (package type entry : String) : Option ResourceId :=
  ((g.members.takeWhile (·.package.name == package)).findSome? fun m =>
    entryOf? m.package type entry).map (ResourceId.withPackage · g.id)

/-- The given text, or another one if it is empty. -/
def orElse (text fallback : String) : String :=
  if text.isEmpty then fallback else text

/-- The id of a resource by name; parts that are missing are taken from the fallbacks. -/
def idOf? (r : Resources) (name fallbackType fallbackPackage : String) : Option ResourceId :=
  match ResourceName.parse? name with
  | none => none
  | some n =>
    if n.entry.isEmpty then none
    else
      r.groups.findSome? fun g =>
        entryInGroup? g (orElse n.package fallbackPackage) (orElse n.type fallbackType) n.entry

end Resources

end AppResources
