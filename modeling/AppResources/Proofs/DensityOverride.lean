import AppResources.Proofs.ReportedAxes

/-!
# A density for one lookup

A lookup may ask for another density than that of the configuration. Then the variants that
were found for the configuration are not used: all variants are tried again, for the request
with that density. The other way to ask is to give the manager the configuration with that
density, which makes it find its variants again. Both ways lead to the same answers.

## Main results

* `Setting.next_upToDate`: a change of the configuration that keeps its script leaves a
  manager up to date, whether or not it finds its variants again.
* `Manager.find_override`: a lookup with a density is a lookup under the configuration with
  that density.
-/

namespace AppResources

namespace Config

/-- The configuration in another density. -/
def withDensity (density : UInt16) (c : Config) : Config := { c with density := density }

end Config

namespace Setting

variable {assets : List Asset} {config config' : Config} {resource : ResourceId}
  {density : UInt16}

/-- Variants that were found for the configuration before serve the next one as well, if they
are not found again for it. -/
theorem next_upToDate
    (hscript : config.locale.askedScript? = config'.locale.askedScript?) :
    ((upToDate assets config).next (.config config')).resources =
      (upToDate assets config').resources := by
  have hplain : ((upToDate assets config).next (.config config')).fitted.plain =
      ((upToDate assets config).next (.config config')).config.plain := next_plain rfl _
  have hinStep : ((upToDate assets config).next (.config config')).InStep := by
    unfold InStep
    cases hempty : ((upToDate assets config).config.difference config').isEmpty with
    | true =>
        rw [next_of_isEmpty hempty]
        exact hscript
    | false => rw [next_of_not_isEmpty hempty]
  exact hinStep.resources_eq hplain

/-- What is requested in a density is requested under the configuration with that density. -/
theorem requestFor_withDensity (hdensity : density ≠ 0) :
    (upToDate assets config).resources.requestFor density =
      (upToDate assets (config.withDensity density)).resources.requestFor 0 := by
  unfold Resources.requestFor
  rw [if_neg hdensity, if_pos rfl]
  rfl

/-- A lookup in a density finds what is found under the configuration with that density. -/
theorem find_withDensity (hdensity : density ≠ 0) :
    (upToDate assets config).resources.find resource density =
      (upToDate assets (config.withDensity density)).resources.find resource 0 := by
  cases hvalid : ResourceId.isValid resource with
  | false => rw [Resources.find_of_not_valid hvalid, Resources.find_of_not_valid hvalid]
  | true => rw [find_upToDate hvalid, find_upToDate hvalid, requestFor_withDensity hdensity]

end Setting

namespace Manager

open Setting

/-- A lookup with a density answers like a lookup after the configuration was given that
density, and like one of a manager that never had another configuration. -/
theorem find_override (id id' : Nat) (assets : List Asset) (config : Config)
    (resource : ResourceId) {density : UInt16} (hdensity : density ≠ 0) :
    (fresh id assets config).resources.find resource density =
        ((fresh id assets config).setConfig (config.withDensity density)).resources.find
          resource 0 ∧
      (fresh id assets config).resources.find resource density =
        (fresh id' assets (config.withDensity density)).resources.find resource 0 := by
  have hfresh : (fresh id assets config).resources = (upToDate assets config).resources :=
    fresh_resources id assets config
  have hchanged : ((fresh id assets config).setConfig (config.withDensity density)).resources =
      (upToDate assets (config.withDensity density)).resources :=
    (apply_resources hfresh (.config (config.withDensity density))).trans (next_upToDate rfl)
  have hfresh' : (fresh id' assets (config.withDensity density)).resources =
      (upToDate assets (config.withDensity density)).resources :=
    fresh_resources id' assets (config.withDensity density)
  rw [hfresh, hchanged, hfresh']
  exact ⟨find_withDensity hdensity, find_withDensity hdensity⟩

/-- On a device of high density the variant for a higher one is found if it is asked for. -/
theorem find_override_higher :
    ((fresh 0 [assetFor [Config.default.withDensity 240, Config.default.withDensity 480]]
        (Config.default.withDensity 240)).resources.find onlyId 0).map (·.config.density) =
      .ok 240 ∧
    ((fresh 0 [assetFor [Config.default.withDensity 240, Config.default.withDensity 480]]
        (Config.default.withDensity 240)).resources.find onlyId 480).map (·.config.density) =
      .ok 480 ∧
    (480 : UInt16) ≠ 0 ∧
    (fresh 0 [assetFor [Config.default.withDensity 240, Config.default.withDensity 480]]
        (Config.default.withDensity 240)).resources.find onlyId 480 =
      ((fresh 0 [assetFor [Config.default.withDensity 240, Config.default.withDensity 480]]
        (Config.default.withDensity 240)).setConfig
          ((Config.default.withDensity 240).withDensity 480)).resources.find onlyId 0 := by
  refine ⟨by decide, by decide, by decide, ?_⟩
  exact (find_override 0 0 _ _ onlyId (by decide)).1

end Manager

end AppResources
