import AppResources.Proofs.Indifference
import AppResources.Proofs.Origin
import AppResources.Proofs.Reconfiguration
import Mathlib.Data.List.Basic

/-!
# Reported axes are enough

A selection carries the axes along which the packages of its group vary the resource. Where
the assets are honest about their axes, these say when the selection has to be made again:
another device that does not differ along any of them gets the same entry, from the same
asset, with the same axes.

Every variant that defines the resource is then one for which it does not matter which of
the two devices asks, whether it was selected or not. So the candidates are the same, and
every challenge between them ends the same way.

## Main definitions

* `Asset.Honest`: every type spec names the axes along which its variants vary.

## Main results

* `lookup_congr`: the answer of a group for two devices between which nothing reported lies.
* `find_of_disjoint`: the same for managers.
-/

namespace AppResources

/-! ## Honest assets -/

/-- The axes of every entry contain those along which a variant that defines it differs from
the default. -/
def TypeSpec.Honest (s : TypeSpec) : Prop :=
  ∀ v ∈ s.variants, ∀ i < v.entries.size, v.entries[i]?.join.isSome = true →
    (v.config.difference .default).subset ((s.axes[i]?).getD .none) = true

instance (s : TypeSpec) : Decidable s.Honest := by
  unfold TypeSpec.Honest
  infer_instance

def Package.Honest (p : Package) : Prop := ∀ slot ∈ p.slots, ∀ s ∈ slot, s.Honest

instance (p : Package) : Decidable p.Honest := by
  unfold Package.Honest
  infer_instance

def Asset.Honest (a : Asset) : Prop := ∀ p ∈ a.table.packages, p.Honest

instance (a : Asset) : Decidable a.Honest := by
  unfold Asset.Honest
  infer_instance

def PackageGroup.Honest (g : PackageGroup) : Prop := ∀ m ∈ g.members, m.package.Honest

variable {a b config : Config} {id : ResourceId} {m : GroupMember} {g : PackageGroup}
  {s : TypeSpec} {v : Variant} {index : UInt16} {entry : Entry} {assets : List Asset}

theorem TypeSpec.Honest.subset (h : s.Honest) (hv : v ∈ s.variants)
    (hentry : v.entry? index = some entry) :
    (v.config.difference .default).subset (s.axesOf index) = true := by
  have hstored := Variant.entry?_eq_some_iff.mp hentry
  have hsize : index.toNat < v.entries.size := (Array.getElem?_eq_some_iff.mp hstored).1
  exact h v hv index.toNat hsize (by rw [hstored]; rfl)

theorem Package.Honest.spec {p : Package} {slot : Nat} (h : p.Honest)
    (hspec : p.spec? slot = some s) : s.Honest :=
  h (some s) (mem_slots hspec) s rfl

namespace PackageGroup

theorem honest_of_mem (hhonest : ∀ asset ∈ assets, asset.Honest) (hg : g ∈ ofAssets assets) :
    g.Honest := by
  intro m hm
  obtain ⟨asset, hasset, hp⟩ := mem_ofAssets hg hm
  exact hhonest asset hasset m.package hp

/-! ## One group, two devices -/

/-- The axes of a group contain those of its members. -/
theorem axesOf_subset (hm : m ∈ g.members) : (m.axesOf id).subset (g.axesOf id) = true := by
  have hfold : g.axesOf id = (g.members.map (·.axesOf id)).foldl Axes.union .none := by
    rw [List.foldl_map]
    rfl
  rw [hfold]
  exact Axes.subset_foldl_union (List.mem_map_of_mem hm)

end PackageGroup

/-- Two devices for which it does not matter which of them asks for an entry of a group. -/
def PackageGroup.Indifferent (id : ResourceId) (a b : Config) (g : PackageGroup) : Prop :=
  ∀ m ∈ g.members, ∀ slot s index,
    m.locate? (ResourceId.type id) (ResourceId.entry id) = some (slot, s, index) →
      ∀ v ∈ s.variants, (v.entry? index).isSome = true → Config.Indifferent a b v.config

namespace PackageGroup

/-- Devices that do not differ along the axes of the group. -/
theorem Honest.indifferent (hhonest : g.Honest)
    (hdisjoint : (a.difference b).intersects (g.axesOf id) = false)
    (hlocale : a.locale.plain = b.locale.plain → a.locale = b.locale) :
    g.Indifferent id a b := by
  intro m hm slot s index hlocate v hv hentry
  obtain ⟨entry, hentry⟩ := Option.isSome_iff_exists.mp hentry
  have hspec : s.Honest := (hhonest m hm).spec (GroupMember.spec?_of_locate? hlocate)
  have haxes : m.axesOf id = s.axesOf index := by
    rw [GroupMember.axesOf, hlocate]
  have hmember : (a.difference b).intersects (s.axesOf index) = false := by
    rw [← haxes]
    exact Axes.intersects_of_subset (axesOf_subset hm) hdisjoint
  exact Config.indifferent_of_disjoint
    (Axes.intersects_of_subset (hspec.subset hv hentry) hmember) hlocale

end PackageGroup

namespace Candidate

/-- The winner depends on the request only through the comparisons of the candidates. -/
theorem winner_congr {cs : List Candidate}
    (h : ∀ c ∈ cs, ∀ d ∈ cs, Config.isBetter c.variant.config d.variant.config a =
      Config.isBetter c.variant.config d.variant.config b) :
    winner a cs = winner b cs := by
  have hfold : ∀ rest : List Candidate, rest ⊆ cs → ∀ best : Option Candidate,
      (∀ c ∈ best, c ∈ cs) → rest.foldl (challenge a) best = rest.foldl (challenge b) best := by
    intro rest
    induction rest with
    | nil => exact fun _ _ _ => rfl
    | cons c rest ih =>
        intro hrest best hbest
        obtain ⟨hc, hrest⟩ := List.cons_subset.mp hrest
        have hstep : challenge a best c = challenge b best c := by
          cases best with
          | none => rfl
          | some current =>
              unfold challenge isReplacedBy Config.isBetterFor
              simp only [h c hc current (hbest current rfl)]
        rw [List.foldl_cons, List.foldl_cons, hstep]
        refine ih hrest _ ?_
        intro d hd
        rcases mem_challenge hd with rfl | hd
        · exact hc
        · exact hbest d hd
  exact hfold cs (List.Subset.refl cs) none fun c hc => by cases hc

end Candidate

namespace PackageGroup

theorem Indifferent.candidates_eq (h : g.Indifferent id a b) :
    g.candidates a id = g.candidates b id := by
  have hmember : ∀ m ∈ g.members, m.candidates a id = m.candidates b id := by
    intro m hm
    unfold GroupMember.candidates
    cases hlocate : m.locate? (ResourceId.type id) (ResourceId.entry id) with
    | none => rfl
    | some found =>
        obtain ⟨slot, s, index⟩ := found
        simp only [List.filterMap_filter]
        refine List.filterMap_congr fun v hv => ?_
        cases hentry : v.entry? index with
        | none => rw [Option.map_none, ite_self, ite_self]
        | some entry =>
            have hv := h m hm slot s index hlocate v hv (by rw [hentry]; rfl)
            rw [hv.fits_eq]
  unfold candidates
  exact List.flatMap_congr hmember

theorem Indifferent.of_mem_candidates {c : Candidate} (h : g.Indifferent id a b)
    (hc : c ∈ g.candidates config id) : Config.Indifferent a b c.variant.config := by
  obtain ⟨m, hm, hc⟩ := List.mem_flatMap.mp hc
  obtain ⟨slot, s, index, hlocate, _, hv, _, hentry⟩ := GroupMember.mem_candidates_iff.mp hc
  exact h m hm slot s index hlocate c.variant hv (by rw [hentry]; rfl)

/-- A group answers two such devices alike. -/
theorem lookup_congr (h : g.Indifferent id a b) : g.lookup a id = g.lookup b id := by
  have hwinner : Candidate.winner a (g.candidates b id) =
      Candidate.winner b (g.candidates b id) :=
    Candidate.winner_congr fun c hc d hd =>
      (h.of_mem_candidates hc).isBetter_eq (h.of_mem_candidates hd)
  unfold lookup
  rw [h.candidates_eq, hwinner]

end PackageGroup

/-! ## Resources of two devices -/

namespace Setting

variable {s : Setting} {resource : ResourceId} {density : UInt16} {found : Selection}

/-- The setting in which the variants were found for the current configuration. -/
def upToDate (assets : List Asset) (config : Config) : Setting where
  assets := assets
  config := config
  fitted := config

/-- What is found is what the group answers that the assets form. -/
theorem find_upToDate (hvalid : ResourceId.isValid resource = true) :
    (upToDate assets config).resources.find resource density =
      match (PackageGroup.ofAssets assets).find? (·.id == ResourceId.package resource) with
      | none => .error (.invalidId resource)
      | some g => g.lookup ((upToDate assets config).resources.requestFor density) resource := by
  have hgroup : (upToDate assets config).resources.group? (ResourceId.package resource) =
      ((PackageGroup.ofAssets assets).find? (·.id == ResourceId.package resource)).map
        (PackageGroup.refit config) := by
    unfold Resources.group?
    exact List.find?_map
  have hfitted : (upToDate assets config).resources.Fitted := fun _ hg _ hm =>
    PackageGroup.fitting_of_mem_refit hg hm
  cases hfind : (PackageGroup.ofAssets assets).find? (·.id == ResourceId.package resource) with
  | none =>
      rw [hfind] at hgroup
      exact Resources.find_of_no_group hgroup
  | some g =>
      rw [hfind] at hgroup
      rw [Resources.find_eq_lookup hfitted hvalid hgroup, PackageGroup.lookup_refit]

/-- What is found is found in a group that the assets form. -/
theorem lookup_of_find
    (hfound : (upToDate assets config).resources.find resource density = .ok found) :
    ResourceId.isValid resource = true ∧
      ∃ g, (PackageGroup.ofAssets assets).find? (·.id == ResourceId.package resource) = some g ∧
        g.lookup ((upToDate assets config).resources.requestFor density) resource = .ok found := by
  obtain ⟨hvalid, _⟩ := Resources.group?_of_find hfound
  rw [find_upToDate hvalid] at hfound
  cases hgroup : (PackageGroup.ofAssets assets).find? (·.id == ResourceId.package resource) with
  | none =>
      rw [hgroup] at hfound
      cases hfound
  | some g =>
      rw [hgroup] at hfound
      exact ⟨hvalid, g, rfl, hfound⟩

/-- What is found for one device is found for another one between which and the first
nothing reported lies. -/
theorem find_congr (hhonest : ∀ asset ∈ assets, asset.Honest)
    (hlocale : a.locale.plain = b.locale.plain → a.locale = b.locale)
    (hfound : (upToDate assets a).resources.find resource density = .ok found)
    (hdisjoint : (a.difference b).intersects found.axes = false) :
    (upToDate assets b).resources.find resource density = .ok found := by
  obtain ⟨hvalid, g, hgroup, hlookup⟩ := lookup_of_find hfound
  have hg : g.Honest := PackageGroup.honest_of_mem hhonest (List.mem_of_find?_eq_some hgroup)
  rw [(PackageGroup.of_lookup hlookup).1] at hdisjoint
  have hindifferent : g.Indifferent resource a b := hg.indifferent hdisjoint hlocale
  -- a density that is given takes the place of both densities
  have hrequest : g.Indifferent resource ((upToDate assets a).resources.requestFor density)
      ((upToDate assets b).resources.requestFor density) := by
    unfold Resources.requestFor
    split
    · exact hindifferent
    · intro m hm slot s index hlocate v hv hentry
      exact (hindifferent m hm slot s index hlocate v hv hentry).withDensity
  rw [find_upToDate hvalid, hgroup]
  exact (PackageGroup.lookup_congr hrequest).symm.trans hlookup

end Setting

namespace Manager

open Setting

/-- A manager for another device finds what a manager for the first one does, if the devices
have the same script and do not differ along the axes that are reported. -/
theorem find_of_disjoint (id id' : Nat) {assets : List Asset}
    (hhonest : ∀ asset ∈ assets, asset.Honest) {a b : Config}
    (hscript : a.locale.script = b.locale.script)
    (hcomputed : a.locale.scriptComputed = b.locale.scriptComputed)
    {resource : ResourceId} {density : UInt16} {found : Selection}
    (hfound : (fresh id assets a).resources.find resource density = .ok found)
    (hdisjoint : (a.difference b).intersects found.axes = false) :
    (fresh id' assets b).resources.find resource density = .ok found := by
  have hlocale : a.locale.plain = b.locale.plain → a.locale = b.locale := by
    intro hplain
    simp only [Locale.plain, Locale.mk.injEq] at hplain
    obtain ⟨hlanguage, hregion, _, _, hvariant, hnumbering⟩ := hplain
    cases ha : a.locale
    cases hb : b.locale
    simp_all
  rw [fresh_resources] at hfound ⊢
  exact find_congr hhonest hlocale hfound hdisjoint

/-- A device in Hong Kong that is held one way or the other. -/
def heldIn (orientation : UInt8) : Config :=
  { inChinese hongKong Script.none false with orientation := orientation }

theorem find_turned :
    ∃ found, (fresh 0 [assetFor [.default, inChinese hongKong Script.none false]]
        (heldIn 1)).resources.find onlyId 0 = .ok found ∧
      (fresh 1 [assetFor [.default, inChinese hongKong Script.none false]]
        (heldIn 2)).resources.find onlyId 0 = .ok found := by
  generalize hassets : [assetFor [.default, inChinese hongKong Script.none false]] = assets
  have haxes : ((fresh 0 assets (heldIn 1)).resources.find onlyId 0).map (·.axes) =
      .ok .locale := by
    subst hassets
    decide
  have hhonest : ∀ asset ∈ assets, asset.Honest := by
    subst hassets
    decide
  have hscript : (heldIn 1).locale.script = (heldIn 2).locale.script := rfl
  have hcomputed : (heldIn 1).locale.scriptComputed = (heldIn 2).locale.scriptComputed := rfl
  cases hfound : (fresh 0 assets (heldIn 1)).resources.find onlyId 0 with
  | error e =>
      rw [hfound] at haxes
      cases haxes
  | ok found =>
      rw [hfound] at haxes
      have hdisjoint : ((heldIn 1).difference (heldIn 2)).intersects found.axes = false := by
        rw [show found.axes = .locale from Except.ok.inj haxes]
        decide
      exact ⟨found, rfl, find_of_disjoint 0 1 hhonest hscript hcomputed hfound hdisjoint⟩

end Manager

end AppResources
