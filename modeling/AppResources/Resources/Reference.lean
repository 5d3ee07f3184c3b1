import AppResources.Resources.Select

/-!
# Values and references

The value of a resource, and the value at the end of a chain of references.

## Main definitions

* `Resources.get`: the value of a resource.
* `Resources.follow`: the value at the end of a chain of references.
-/

namespace AppResources

/-- A value, with where it comes from and what it depends on. -/
structure Resolved where
  /-- The asset that the value was read from, if any. -/
  cookie : Option Nat := none
  /-- The value. -/
  value : Value := .undefined
  /-- The configuration of the variant that the value was read from. -/
  config : Config := .default
  /-- The axes along which the value varies. -/
  axes : Axes := .none
  /-- The last reference that was followed, or zero. -/
  origin : ResourceId := 0
  deriving DecidableEq

/-- Where a chain of references could not be followed on. -/
structure Unresolved where
  /-- The last value reached. -/
  reached : Resolved
  /-- Why it could not be followed. -/
  error : LookupError
  deriving DecidableEq

/-- The greatest number of references or attributes that are followed. -/
def maxSteps : Nat := 20

namespace Resources

/-- The value of a resource. The value of a bag is a reference to itself, where bags are
allowed. -/
def get (r : Resources) (id : ResourceId) (allowBag : Bool) (density : UInt16) :
    Except LookupError Resolved :=
  match r.find id density with
  | .error e => .error e
  | .ok s =>
    let resolved (v : Value) : Resolved := ⟨some s.cookie, v, s.config, s.axes, 0⟩
    match s.entry with
    | .plain _ _ v => .ok (resolved ((s.libraries.runtimeValue? v).getD v))
    | .bag .. => if allowBag then .ok (resolved ⟨.reference, id⟩) else .error (.notFound id)

/-- Follows references for a number of steps. -/
def followFor (r : Resources) : Nat → Resolved → Except Unresolved Resolved
  | 0, s =>
    if s.value.isLiveReference then .error ⟨s, .tooManySteps s.value.data⟩ else .ok s
  | steps + 1, s =>
    if s.value.isLiveReference then
      let id := s.value.data
      match r.get id true 0 with
      | .error e => .error ⟨{ s with origin := id }, e⟩
      | .ok next =>
        let reached := { next with axes := s.axes.union next.axes, origin := id }
        if reached.value.data = id then .ok reached else r.followFor steps reached
    else .ok s

/-- The value at the end of a chain of references. A reference to itself ends the chain,
as a bag does. -/
def follow (r : Resources) (s : Resolved) : Except Unresolved Resolved :=
  r.followFor maxSteps { s with origin := 0 }

/-- The value at the end of a chain of references, without the last value on failure. -/
def resolve (r : Resources) (s : Resolved) : Except LookupError Resolved :=
  (r.follow s).mapError (·.error)

end Resources

end AppResources
