import AppResources.Manager
import AppResources.Proofs.Fitting

/-!
# Reconfiguration

A manager finds the variants that fit its configuration once, and again when the assets
change or when a new configuration differs from the one before along some axis. So at any
time its variants were found for some earlier configuration, the *fitted* one, which does
not differ from the current one. What a sequence of changes ends with is followed by
`Setting.after`, and `run_resources` says that the manager holds just that.

A computed script is no difference, but fitting reads it. Where the fitted configuration
asks for another script than the current one, the variants are out of date.

## Main results

* `run_resources`: the resources after a sequence of changes.
* `find_eq_fresh_iff_inStep`: a manager answers like a fresh one as long as the fitted
  configuration asks for the script of the current one, and only then.
-/

namespace AppResources

/-- A call that changes the resources of a manager. -/
inductive Change where
  | assets (assets : List Asset)
  | config (config : Config)

/-- What a sequence of changes ends with. -/
structure Setting where
  /-- The assets. -/
  assets : List Asset := []
  /-- The configuration. -/
  config : Config := .default
  /-- The configuration for which the fitting variants were found. -/
  fitted : Config := .default

namespace Setting

/-- The setting after one more change. -/
def next (s : Setting) : Change → Setting
  | .assets assets => { s with assets := assets, fitted := s.config }
  | .config config =>
    { s with
      config := config
      fitted := if (s.config.difference config).isEmpty then s.fitted else config }

/-- The setting after a sequence of changes. -/
def after (changes : List Change) : Setting := changes.foldl next {}

/-- Whether the variants were found for the script that the device asks for. -/
def InStep (s : Setting) : Prop :=
  s.fitted.locale.askedScript? = s.config.locale.askedScript?

instance (s : Setting) : Decidable s.InStep := by
  unfold InStep
  infer_instance

/-- The resources with the variants as they were found. -/
def resources (s : Setting) : Resources where
  assets := s.assets
  groups := (PackageGroup.ofAssets s.assets).map (.refit s.fitted)
  config := s.config

end Setting

namespace Manager

/-- Carries out a change. -/
def apply (m : Manager) : Change → Manager
  | .assets assets => m.setAssets assets
  | .config config => m.setConfig config

/-- The manager after a sequence of changes. -/
def run (id : Nat) (changes : List Change) : Manager := changes.foldl apply { id := id }

/-- A manager that has seen nothing but a configuration and then the assets. -/
def fresh (id : Nat) (assets : List Asset) (config : Config) : Manager :=
  (({ id := id } : Manager).setConfig config).setAssets assets

end Manager

/-! ## One change -/

theorem PackageGroup.refit_refit (c c' : Config) (g : PackageGroup) :
    (g.refit c').refit c = g.refit c := by
  simp [PackageGroup.refit, GroupMember.refit]

namespace Setting

variable {s : Setting} {m : Manager} {config : Config}

theorem next_of_isEmpty (h : (s.config.difference config).isEmpty = true) :
    s.next (.config config) = { s with config := config } := by
  simp [next, h]

theorem next_of_not_isEmpty (h : (s.config.difference config).isEmpty = false) :
    s.next (.config config) = { s with config := config, fitted := config } := by
  simp [next, h]

/-- The fitted configuration does not differ from the current one. -/
theorem next_plain (h : s.fitted.plain = s.config.plain) (change : Change) :
    (s.next change).fitted.plain = (s.next change).config.plain := by
  cases change with
  | assets assets => rfl
  | config config =>
      cases hempty : (s.config.difference config).isEmpty with
      | true =>
          rw [next_of_isEmpty hempty]
          exact h.trans (Config.difference_isEmpty_iff.mp hempty)
      | false => rw [next_of_not_isEmpty hempty]

/-- A manager keeps up with the setting. -/
theorem apply_resources (h : m.resources = s.resources) (change : Change) :
    (m.apply change).resources = (s.next change).resources := by
  cases change with
  | assets assets =>
      change m.resources.setAssets assets = _
      rw [h]
      rfl
  | config config =>
      change m.resources.setConfig config = _
      rw [h]
      have hconfig : s.resources.config = s.config := rfl
      cases hempty : (s.config.difference config).isEmpty with
      | true =>
          rw [next_of_isEmpty hempty, Resources.setConfig, hconfig, if_pos hempty]
          rfl
      | false =>
          rw [next_of_not_isEmpty hempty, Resources.setConfig, hconfig,
            if_neg (by simp [hempty])]
          -- the variants that were found before do not matter
          have hrefit : ∀ groups : List PackageGroup,
              (groups.map (PackageGroup.refit s.fitted)).map (PackageGroup.refit config) =
                groups.map (PackageGroup.refit config) := by
            intro groups
            rw [List.map_map]
            exact List.map_congr_left fun g _ => PackageGroup.refit_refit ..
          simp only [Resources.refit, resources, hrefit]

/-! ## All changes -/

theorem foldl_next_plain (h : s.fitted.plain = s.config.plain) (changes : List Change) :
    (changes.foldl next s).fitted.plain = (changes.foldl next s).config.plain := by
  induction changes generalizing s with
  | nil => exact h
  | cons change changes ih => exact ih (next_plain h change)

theorem foldl_apply_resources (h : m.resources = s.resources) (changes : List Change) :
    (changes.foldl Manager.apply m).resources = (changes.foldl next s).resources := by
  induction changes generalizing m s with
  | nil => exact h
  | cons change changes ih => exact ih (apply_resources h change)

theorem after_plain (changes : List Change) :
    (after changes).fitted.plain = (after changes).config.plain :=
  foldl_next_plain rfl changes

/-- After any changes a manager holds what the setting says. -/
theorem run_resources (id : Nat) (changes : List Change) :
    (Manager.run id changes).resources = (after changes).resources :=
  foldl_apply_resources rfl changes

theorem fresh_resources (id : Nat) (assets : List Asset) (config : Config) :
    (Manager.fresh id assets config).resources =
      ({ assets := assets, config := config, fitted := config } : Setting).resources := by
  have hconfig : (({ id := id } : Manager).setConfig config).resources.config = config := by
    change (Resources.setConfig {} config).config = config
    unfold Resources.setConfig
    split <;> rfl
  change Resources.setAssets _ assets = _
  unfold Resources.setAssets Resources.refit
  rw [hconfig]
  rfl

/-! ## Answers that are up to date -/

/-- For one script the variants are those that would be found now. -/
theorem InStep.resources_eq (hplain : s.fitted.plain = s.config.plain) (h : s.InStep) :
    s.resources = { s with fitted := s.config }.resources := by
  have hfits : ∀ p : Package,
      GroupMember.fittingOf p s.fitted = GroupMember.fittingOf p s.config := by
    intro p
    unfold GroupMember.fittingOf
    simp only [Config.fits_congr hplain h]
  have hmember : GroupMember.refit s.fitted = GroupMember.refit s.config := by
    funext m
    rw [GroupMember.refit, hfits]
    rfl
  have hgroup : PackageGroup.refit s.fitted = PackageGroup.refit s.config := by
    funext g
    rw [PackageGroup.refit, hmember]
    rfl
  unfold resources
  rw [hgroup]

/-! ## Answers that are out of date -/

/-- A package whose only resource has a value for each of some configurations. -/
def packageFor (configs : List Config) : Package where
  name := "app"
  id := ResourceId.appPackage
  typeIdOffset := 0
  isDynamic := false
  isSystem := false
  isOverlay := false
  typeNames := none
  keyNames := none
  libraries := []
  slots := [some {
    id := 1
    axes := #[.locale]
    overlay := none
    variants := configs.map fun config => ⟨1, 0, config, #[some (.plain 0 0 ⟨.decimal, 0⟩)]⟩ }]

/-- An asset with nothing but such a package. -/
def assetFor (configs : List Config) : Asset :=
  ⟨"app", { packages := [packageFor configs] }, none⟩

/-- The resource of such a package. -/
def onlyId : ResourceId := 0x7f010000

/-- A resource with one variant is found if the variant was. -/
theorem find_assetFor (variant config fitted : Config) :
    (({ assets := [assetFor [variant]], config := config, fitted := fitted } :
      Setting).resources.find onlyId 0).toOption.isSome = variant.fits fitted := by
  generalize hr : ({ assets := [assetFor [variant]], config := config, fitted := fitted } :
    Setting).resources = r
  have hgroup : r.group? (ResourceId.package onlyId) =
      some (PackageGroup.refit fitted
        { members := [⟨0, packageFor [variant], []⟩]
          libraries := { ownId := ResourceId.appPackage } }) := by
    rw [← hr]
    rfl
  -- the search visits the one package, and there the variants that were found
  have hbest : ∀ fitting : List Variant,
      (Search.visit (ResourceId.type onlyId) (ResourceId.entry onlyId) true
        (r.requestFor 0) {} ⟨0, packageFor [variant], [fitting]⟩).best =
        fitting.foldl (Candidate.improve (r.requestFor 0)
          ⟨0, packageFor [variant], [fitting]⟩ 0) none := fun _ => rfl
  have hfitting : GroupMember.fittingOf (packageFor [variant]) fitted =
      [if variant.fits fitted then
        [⟨1, 0, variant, #[some (.plain 0 0 ⟨.decimal, 0⟩)]⟩] else []] := by
    cases hfits : variant.fits fitted <;> simp [GroupMember.fittingOf, packageFor, hfits]
  rw [Resources.find, if_pos (by decide), hgroup]
  simp only [PackageGroup.refit, GroupMember.refit, List.map_cons, List.map_nil, List.foldl_cons,
    List.foldl_nil, beq_self_eq_true, Bool.true_or, hfitting, hbest]
  cases variant.fits fitted <;> rfl

/-- Changes of the configuration do not ask which assets there are. -/
theorem foldl_next_assets (assets : List Asset) (configs : List Config) :
    (configs.map .config).foldl next { s with assets := assets } =
      { (configs.map .config).foldl next s with assets := assets } := by
  induction configs generalizing s with
  | nil => rfl
  | cons config configs ih =>
      have hnext : ({ s with assets := assets } : Setting).next (.config config) =
          { s.next (.config config) with assets := assets } := rfl
      rw [List.map_cons, List.foldl_cons, List.foldl_cons, hnext]
      exact ih

/-- A sequence of changes in which the assets were given once and for all somewhere. -/
theorem after_assets (before : List Change) (assets : List Asset) (configs : List Config) :
    after (before ++ .assets assets :: configs.map .config) =
      { after (before ++ .assets [] :: configs.map .config) with assets := assets } := by
  unfold after
  rw [List.foldl_append, List.foldl_append, List.foldl_cons, List.foldl_cons]
  exact foldl_next_assets (s := (before.foldl next {}).next (.assets [])) assets configs

end Setting

namespace Manager

open Setting

/-- After any changes that leave the fitted configuration in step a manager finds what a
fresh one finds; and after changes that do not, there are assets and a resource for which
it does not. -/
theorem find_eq_fresh_iff_inStep (id : Nat) :
    (∀ changes : List Change, (after changes).InStep → ∀ resource density,
      (run id changes).resources.find resource density =
        (fresh id (after changes).assets (after changes).config).resources.find
          resource density) ∧
    ∀ (before : List Change) (configs : List Config),
      ¬ (after (before ++ .assets [] :: configs.map .config)).InStep →
        ∃ assets resource,
          (run id (before ++ .assets assets :: configs.map .config)).resources.find resource 0 ≠
            (fresh id assets
              (after (before ++ .assets assets :: configs.map .config)).config).resources.find
                resource 0 := by
  constructor
  · intro changes h resource density
    rw [run_resources, fresh_resources, h.resources_eq (after_plain changes)]
  · intro before configs h
    have hplain := after_plain (before ++ .assets [] :: configs.map .config)
    obtain ⟨variant, hvariant⟩ := Config.exists_fits_ne hplain h
    refine ⟨[assetFor [variant]], onlyId, fun heq => hvariant ?_⟩
    rw [run_resources, fresh_resources, after_assets] at heq
    have hfound := congrArg (·.toOption.isSome) heq
    simp only [find_assetFor] at hfound
    exact hfound

/-- Chinese as it is spoken in a region. -/
def inChinese (region : Subtag) (script : Script) (computed : Bool) : Config where
  locale := {
    language := ⟨0x7a, 0x68⟩
    region := region
    script := script
    scriptComputed := computed }

/-- Taiwan. -/
def taiwan : Subtag := ⟨0x54, 0x57⟩

/-- Hong Kong. -/
def hongKong : Subtag := ⟨0x48, 0x4b⟩

/-- A default variant and one for Hong Kong, for a device in Taiwan that names no script at
first and later has its script computed. -/
def toTraditional : List Change :=
  [.config (inChinese taiwan Script.none false),
    .assets [assetFor [.default, inChinese hongKong Script.none false]],
    .config (inChinese taiwan (Script.ofCode "Hant") true)]

/-- The other way round the variants are found last of all. -/
def traditionalFirst : List Change :=
  [.config (inChinese taiwan Script.none false),
    .config (inChinese taiwan (Script.ofCode "Hant") true),
    .assets [assetFor [.default, inChinese hongKong Script.none false]]]

theorem find_eq_fresh_taiwan :
    (run 0 traditionalFirst).resources.find onlyId 0 =
      (fresh 0 (after traditionalFirst).assets
        (after traditionalFirst).config).resources.find onlyId 0 :=
  (find_eq_fresh_iff_inStep 0).1 traditionalFirst (by decide) onlyId 0

/-- A manager does not always find what a fresh one finds. -/
theorem find_ne_fresh :
    ¬ ∀ (id : Nat) (changes : List Change) (resource : ResourceId) (density : UInt16),
      (run id changes).resources.find resource density =
        (fresh id (after changes).assets (after changes).config).resources.find
          resource density := by
  intro h
  have hfound := congrArg (fun found => found.toOption.map (·.config))
    (h 0 toTraditional onlyId 0)
  revert hfound
  decide

end Manager

end AppResources
