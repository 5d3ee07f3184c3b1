import AppResources.Bag.Inherit
import AppResources.Config.Difference

/-!
# Managers

A manager holds the resources of a device and the bags that were resolved so far.
Other assets make it forget all bags, another configuration only those that vary
along a changed axis.
-/

namespace AppResources

/-- Resources, and the bags known so far. -/
structure Manager where
  /-- What tells managers apart. -/
  id : Nat
  /-- The resources. -/
  resources : Resources := {}
  /-- The known bags. -/
  bags : BagCache := []

namespace Manager

/-- Gives a manager other assets. -/
def setAssets (m : Manager) (assets : List Asset) : Manager :=
  { m with resources := m.resources.setAssets assets, bags := [] }

/-- Gives a manager another configuration. -/
def setConfig (m : Manager) (config : Config) : Manager :=
  let changed := m.resources.config.difference config
  { m with
    resources := m.resources.setConfig config
    bags := m.bags.filter fun entry => !entry.2.axes.intersects changed }

/-- A bag with all it inherits. -/
def bag (m : Manager) (id : ResourceId) : Except LookupError Bag × Manager :=
  let (found, bags) := m.resources.bag id m.bags
  (found, { m with bags := bags })

end Manager

end AppResources
