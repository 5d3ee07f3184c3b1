import AppResources.Proofs.ConfigDifference
import AppResources.Proofs.ConfigRanking
import AppResources.Proofs.Reconfiguration
import AppResources.Proofs.Selection
import Mathlib.Data.List.Induction

/-!
# The selected variant is the best one

A lookup keeps one candidate and lets every further one challenge it. That the last
candidate is the best of all needs more than that it is better than the one before it: a
candidate that was given up must not come out better than a later one. For a request in
another language than English the ranking of the candidates is a strict weak order, and
then it cannot.

A candidate of an overlay also takes the place of one that is equal in the total order of
configurations. Such candidates are alike for the ranking, so the winner stays the best;
and behind the winner there is no such candidate any more.

## Main results

* `ranks_ranking`: but for English the ranking is a strict weak order.
* `winner_spec`: the winner is unbeaten, and no overlay behind it has its configuration.
* `find_best`: what a lookup selects.
-/

namespace AppResources

namespace Preference

variable {α : Type} {S : α → Prop} {p : α → α → Preference} {a b c : α}

/-- What is not better than something is not better than what beats it. -/
theorem Ranks.not_better_of_better (hp : Ranks S p) (ha : S a) (hb : S b) (hc : S c)
    (hab : p a b ≠ some true) (hcb : p c b = some true) : p a c ≠ some true := by
  intro hac
  exact hab (hp.trans ha hc hb hac hcb)

end Preference

namespace Config

open Preference

variable {device a b : Config} {spare : UInt16}

/-- But for English, variants that compete for a device are ranked without circles. -/
theorem ranks_ranking (hspare : spare = 0 ∨ spare = mediumDensity)
    (hlanguage : device.locale.language ≠ .english) :
    Ranks (Competes device spare) (firstPreference rankingAxes device) where
  toCoherent := coherent_ranking hspare
  acyclic a b c ha hb hc hcircle := by
    have hlocales := ((circular_ranking_iff hspare ha hb hc).mp hcircle).2.2
    rcases (Locale.circular_prefer_iff ha.1.locale hb.1.locale hc.1.locale).mp hlocales
      with hsplit | hsplit | hsplit
    · exact hlanguage hsplit.english
    · exact hlanguage hsplit.english
    · exact hlanguage hsplit.english

/-! ## Equal configurations -/

/-- The configuration without a script, which the ranking does not read in variants. -/
def unscripted (c : Config) : Config :=
  { c with locale := { c.locale with script := Script.none, scriptComputed := false } }

theorem screenTypeWord_inj : a.screenTypeWord = b.screenTypeWord ↔
    a.orientation = b.orientation ∧ a.touchscreen = b.touchscreen ∧ a.density = b.density := by
  have ha := a.orientation.toNat_lt
  have hb := b.orientation.toNat_lt
  have ha' := a.touchscreen.toNat_lt
  have hb' := b.touchscreen.toNat_lt
  rw [← UInt8.toNat_inj, ← UInt8.toNat_inj, ← UInt16.toNat_inj]
  unfold screenTypeWord
  omega

theorem inputWord_inj : a.inputWord = b.inputWord ↔
    a.keyboard = b.keyboard ∧ a.navigation = b.navigation ∧ a.inputFlags = b.inputFlags := by
  have ha := a.keyboard.toNat_lt
  have hb := b.keyboard.toNat_lt
  have ha' := a.navigation.toNat_lt
  have hb' := b.navigation.toNat_lt
  rw [← UInt8.toNat_inj, ← UInt8.toNat_inj, ← UInt8.toNat_inj]
  unfold inputWord
  omega

/-- Configurations that are equal in the total order are equal but for a script. -/
theorem unscripted_of_order (h : a.order b = .eq) : a.unscripted = b.unscripted := by
  unfold order at h
  simp only [Ordering.then_eq_eq, Nat.compare_eq_eq, Locale.order_eq_iff, networkWord,
    screenSizeWord, versionWord, screenSizeDpWord, pair_inj, screenTypeWord_inj, inputWord_inj,
    UInt8.toNat_inj, UInt16.toNat_inj] at h
  obtain ⟨⟨hmcc, hmnc⟩, hlocale, ⟨horientation, htouchscreen, hdensity⟩,
    ⟨hkeyboard, hnavigation, hinput⟩, ⟨hwidth, hheight⟩, ⟨hsdk, hminor⟩, hlayout, hlayout2, hcolor,
    huiMode, hsmallest, hwidthDp, hheightDp⟩ := h
  have hlanguage : a.locale.language = b.locale.language := congrArg (·.language) hlocale
  have hregion : a.locale.region = b.locale.region := congrArg (·.region) hlocale
  have hvariant : a.locale.variant = b.locale.variant := congrArg (·.variant) hlocale
  have hnumbering : a.locale.numbering = b.locale.numbering := congrArg (·.numbering) hlocale
  simp only [unscripted, hmcc, hmnc, hlanguage, hregion, hvariant, hnumbering, horientation,
    htouchscreen, hdensity, hkeyboard, hnavigation, hinput, hwidth, hheight, hsdk, hminor, hlayout,
    hlayout2, hcolor, huiMode, hsmallest, hwidthDp, hheightDp]

/-- No axis reads the script of a variant. -/
theorem firstPreference_unscripted :
    firstPreference rankingAxes device a b.unscripted =
      firstPreference rankingAxes device a b := by
  apply firstPreference_congr
  unfold rankingAxes
  simp only [List.forall_mem_cons]
  refine ⟨rfl, rfl, rfl, rfl, rfl, rfl, rfl, rfl, rfl, rfl, rfl, rfl, rfl, rfl, rfl, rfl, rfl, rfl,
    rfl, rfl, rfl, rfl, rfl, ?_⟩
  exact fun _ h => absurd h List.not_mem_nil

/-- The ranking has nothing to say about configurations that are equal in the total order. -/
theorem firstPreference_of_order (hspare : spare = 0 ∨ spare = mediumDensity)
    (ha : Competes device spare a) (h : a.order b = .eq) :
    firstPreference rankingAxes device a b = none := by
  rw [← firstPreference_unscripted, ← unscripted_of_order h, firstPreference_unscripted]
  exact (coherent_ranking hspare).irrefl ha

end Config

/-! ## The winner -/

namespace Candidate

open Preference Config

variable {request : Config} {cs : List Candidate} {c w : Candidate} {spare : UInt16}

/-- A candidate that nobody beats, and behind which no overlay has an equal
configuration. -/
structure Wins (request : Config) (cs : List Candidate) (w : Candidate) : Prop where
  /-- No candidate is better. -/
  unbeaten : ∀ c ∈ cs, isBetter c.variant.config w.variant.config request = false
  /-- Candidates of overlays that come later have another configuration. -/
  last : ∃ before after, cs = before ++ w :: after ∧ ∀ c ∈ after,
    c.member.package.isOverlay = true → c.variant.config.order w.variant.config ≠ .eq

theorem isBetter_eq_false_iff {a b : Config} : isBetter a b request = false ↔
    firstPreference rankingAxes request a b ≠ some true := by
  rw [ne_eq, ← isBetter_iff, Bool.not_eq_true]

/-- A candidate that takes the place of the winner wins. -/
theorem Wins.replace (hspare : spare = 0 ∨ spare = mediumDensity)
    (hlanguage : request.locale.language ≠ .english)
    (hcs : ∀ x ∈ cs, Competes request spare x.variant.config)
    (hc : Competes request spare c.variant.config) (hw : Wins request cs w) (hmem : w ∈ cs)
    (hreplaced : isBetter c.variant.config w.variant.config request = true ∨
      c.variant.config.order w.variant.config = .eq) : Wins request (cs ++ [c]) c where
  unbeaten x hx := by
    have hranks := ranks_ranking hspare hlanguage
    rw [isBetter_eq_false_iff]
    rcases List.mem_append.mp hx with hx | hx
    · have hunbeaten := isBetter_eq_false_iff.mp (hw.unbeaten x hx)
      rcases hreplaced with hbetter | hequal
      · exact hranks.not_better_of_better (hcs x hx) (hcs w hmem) hc hunbeaten
          (isBetter_iff.mp hbetter)
      · rw [hranks.tie_right (hcs x hx) hc (hcs w hmem)
          (firstPreference_of_order hspare hc hequal)]
        exact hunbeaten
    · obtain rfl := List.mem_singleton.mp hx
      rw [hranks.irrefl hc]
      simp
  last := ⟨cs, [], rfl, fun _ h => absurd h List.not_mem_nil⟩

/-- The winner wins against one more candidate that does not take its place. -/
theorem Wins.keep (hw : Wins request cs w)
    (hbetter : isBetter c.variant.config w.variant.config request = false)
    (hequal : c.member.package.isOverlay = true →
      c.variant.config.order w.variant.config ≠ .eq) : Wins request (cs ++ [c]) w where
  unbeaten x hx := by
    rcases List.mem_append.mp hx with hx | hx
    · exact hw.unbeaten x hx
    · obtain rfl := List.mem_singleton.mp hx
      exact hbetter
  last := by
    obtain ⟨before, after, rfl, hlater⟩ := hw.last
    refine ⟨before, after ++ [c], by simp, fun x hx => ?_⟩
    rcases List.mem_append.mp hx with hx | hx
    · exact hlater x hx
    · obtain rfl := List.mem_singleton.mp hx
      exact hequal

/-- The winner is challenged by one more candidate. -/
theorem Wins.next (hspare : spare = 0 ∨ spare = mediumDensity)
    (hlanguage : request.locale.language ≠ .english)
    (hcs : ∀ x ∈ cs, Competes request spare x.variant.config)
    (hc : Competes request spare c.variant.config) (hw : Wins request cs w) :
    ∃ w', challenge request (some w) c = some w' ∧ Wins request (cs ++ [c]) w' := by
  have hmem : w ∈ cs := by
    obtain ⟨before, after, rfl, _⟩ := hw.last
    simp
  cases hreplaced : isReplacedBy request c.member.package.isOverlay w.variant c.variant with
  | true =>
      refine ⟨c, if_pos hreplaced, hw.replace hspare hlanguage hcs hc hmem ?_⟩
      simp only [isReplacedBy, isBetterFor, Bool.or_eq_true, Bool.and_eq_true,
        beq_iff_eq] at hreplaced
      exact hreplaced.imp_right And.right
  | false =>
      refine ⟨w, if_neg (by rw [hreplaced]; simp), ?_⟩
      simp only [isReplacedBy, isBetterFor, Bool.or_eq_false_iff, Bool.and_eq_false_iff,
        beq_eq_false_iff_ne] at hreplaced
      refine hw.keep hreplaced.1 fun hoverlay => ?_
      exact hreplaced.2.resolve_left (by rw [hoverlay]; simp)

theorem winner_concat : winner request (cs ++ [c]) = challenge request (winner request cs) c := by
  rw [winner, List.foldl_append]
  rfl

/-- The only candidate wins. -/
theorem wins_singleton (hspare : spare = 0 ∨ spare = mediumDensity)
    (hc : Competes request spare c.variant.config) : Wins request [c] c where
  unbeaten x hx := by
    obtain rfl := List.mem_singleton.mp hx
    rw [isBetter_eq_false_iff, (coherent_ranking hspare).irrefl hc]
    simp
  last := ⟨[], [], rfl, fun _ h => absurd h List.not_mem_nil⟩

theorem winner_spec (hspare : spare = 0 ∨ spare = mediumDensity)
    (hlanguage : request.locale.language ≠ .english)
    (hcs : ∀ x ∈ cs, Competes request spare x.variant.config) (hne : cs ≠ []) :
    ∃ w, winner request cs = some w ∧ Wins request cs w := by
  induction cs using List.reverseRecOn with
  | nil => exact absurd rfl hne
  | append_singleton cs c ih =>
      have hinit : ∀ x ∈ cs, Competes request spare x.variant.config := fun x hx =>
        hcs x (by simp [hx])
      have hc := hcs c (by simp)
      rw [winner_concat]
      by_cases hempty : cs = []
      · subst hempty
        exact ⟨c, rfl, wins_singleton hspare hc⟩
      · obtain ⟨w, hwinner, hw⟩ := ih hinit hempty
        rw [hwinner]
        exact hw.next hspare hlanguage hinit hc

theorem winner_eq_none_iff : winner request cs = none ↔ cs = [] := by
  constructor
  · intro h
    induction cs using List.reverseRecOn with
    | nil => rfl
    | append_singleton cs c ih =>
        rw [winner_concat] at h
        cases hwinner : winner request cs with
        | none =>
            rw [hwinner] at h
            cases h
        | some w =>
            rw [hwinner] at h
            unfold challenge at h
            dsimp only at h
            split at h <;> cases h
  · rintro rfl
    rfl

end Candidate

namespace PackageGroup

variable {α β : Type}

/-- A place in the values of a list of things is a place in the values of one of them, and
the values of all later things come behind it. -/
theorem flatMap_eq_append_cons {f : α → List β} {xs : List α} {before after : List β} {y : β}
    (h : xs.flatMap f = before ++ y :: after) :
    ∃ first x later, xs = first ++ x :: later ∧ y ∈ f x ∧
      ∀ x' ∈ later, ∀ y' ∈ f x', y' ∈ after := by
  induction xs generalizing before with
  | nil => simp at h
  | cons x xs ih =>
      rw [List.flatMap_cons, List.append_eq_append_iff] at h
      rcases h with ⟨rest, -, hrest⟩ | ⟨rest, hx, hrest⟩
      · obtain ⟨first, x', later, hsplit, hy, hlater⟩ := ih hrest
        exact ⟨x :: first, x', later, by rw [hsplit, List.cons_append], hy, hlater⟩
      · cases rest with
        | nil =>
            have hrest : xs.flatMap f = [] ++ y :: after := hrest.symm
            obtain ⟨first, x', later, hsplit, hy, hlater⟩ := ih hrest
            exact ⟨x :: first, x', later, by rw [hsplit, List.cons_append], hy, hlater⟩
        | cons y' rest =>
            obtain ⟨rfl, rfl⟩ := List.cons.inj hrest
            refine ⟨[], x, xs, rfl, by simp [hx], ?_⟩
            intro x' hx' z hz
            exact List.mem_append_right _ (List.mem_flatMap.mpr ⟨x', hx', hz⟩)

end PackageGroup

namespace Resources

open Config Candidate

variable {r : Resources} {id : ResourceId} {density : UInt16} {g : PackageGroup}

/-- Candidates fit the request. -/
theorem fits_of_mem_candidates {request : Config} {c : Candidate}
    (h : c ∈ g.candidates request id) : c.variant.config.fits request = true := by
  obtain ⟨m, _, hc⟩ := List.mem_flatMap.mp h
  obtain ⟨_, _, _, _, _, _, hfits, _⟩ := GroupMember.mem_candidates_iff.mp hc
  exact hfits

/-- A lookup finds nothing exactly if there is no candidate. Otherwise it finds one that no
candidate beats, and whose configuration no overlay behind its package has as well. -/
theorem find_best (hfitted : r.Fitted) (htype : ResourceId.type id ≠ 0)
    (hgroup : r.group? (ResourceId.package id) = some g)
    (hlanguage : (r.requestFor density).locale.language ≠ .english)
    (hcodes : ∀ c ∈ g.candidates (r.requestFor density) id, c.variant.config.locale.WellFormed)
    (hdensity : UnmixedDensity
      ((g.candidates (r.requestFor density) id).map (·.variant.config))) :
    (r.find id density = .error (.notFound id) ↔
      g.candidates (r.requestFor density) id = []) ∧
    (g.candidates (r.requestFor density) id ≠ [] →
      ∃ first m later, g.members = first ++ m :: later ∧
        ∃ w ∈ m.candidates (r.requestFor density) id,
          r.find id density = .ok (w.selection g (g.axesOf id)) ∧
          (∀ c ∈ g.candidates (r.requestFor density) id,
            isBetterFor c.variant.config w.variant.config (some (r.requestFor density)) = false) ∧
          ∀ m' ∈ later, m'.package.isOverlay = true →
            ∀ c ∈ m'.candidates (r.requestFor density) id,
              c.variant.config.order w.variant.config ≠ .eq) := by
  have hvalid : ResourceId.isValid id = true := by
    rw [ResourceId.isValid, bne_iff_ne]
    exact htype
  rw [find_eq_lookup hfitted hvalid hgroup]
  obtain ⟨spare, hspare, hspared⟩ := hdensity.spare
  have hcompetes : ∀ c ∈ g.candidates (r.requestFor density) id,
      Competes (r.requestFor density) spare c.variant.config := fun c hc =>
    ⟨⟨hcodes c hc, fits_of_mem_candidates hc⟩, hspared _ (List.mem_map_of_mem hc)⟩
  unfold PackageGroup.lookup
  constructor
  · cases hwinner : winner (r.requestFor density) (g.candidates (r.requestFor density) id) with
    | none => simp [winner_eq_none_iff.mp hwinner]
    | some w =>
        have hne : g.candidates (r.requestFor density) id ≠ [] := fun hnil => by
          rw [winner_eq_none_iff.mpr hnil] at hwinner
          cases hwinner
        simp [hne]
  · intro hne
    obtain ⟨w, hwinner, hwins⟩ := winner_spec hspare hlanguage hcompetes hne
    obtain ⟨before, after, hsplit, hlater⟩ := hwins.last
    obtain ⟨first, m, later, hmembers, hmem, hbehind⟩ :=
      PackageGroup.flatMap_eq_append_cons hsplit
    refine ⟨first, m, later, hmembers, w, hmem, by rw [hwinner], hwins.unbeaten, ?_⟩
    intro m' hm' hoverlay c hc
    have hmember : c.member = m' := by
      obtain ⟨_, _, _, _, hmember, _⟩ := GroupMember.mem_candidates_iff.mp hc
      exact hmember
    exact hlater c (hbehind m' hm' c hc) (by rw [hmember, hoverlay])

/-- An overlay that replaces the only resource of a package, for each of some
configurations. -/
def overlayFor (configs : List Config) : Asset :=
  let p := Setting.packageFor configs
  let replacing (s : TypeSpec) : TypeSpec := { s with overlay := some ⟨1, 1, 0, #[0]⟩ }
  ⟨"overlay", { packages := [{ p with isOverlay := true, slots := p.slots.map (·.map replacing) }] },
    none⟩

/-- A device in France, with a default value and a French one, and an overlay over both. -/
def overlaid : Resources :=
  ({ config := { locale := { language := ⟨0x66, 0x72⟩ } } } : Resources).setAssets
    [Setting.assetFor [.default, { locale := { language := ⟨0x66, 0x72⟩ } }],
      overlayFor [.default, { locale := { language := ⟨0x66, 0x72⟩ } }]]

theorem find_best_overlaid :
    ((overlaid.find Setting.onlyId 0).toOption.map fun s => s.cookie) = some 1 ∧
      ∃ g, overlaid.group? ResourceId.appPackage = some g ∧
        ∃ m ∈ g.members, ∃ w ∈ m.candidates overlaid.config Setting.onlyId,
          overlaid.find Setting.onlyId 0 = .ok (w.selection g (g.axesOf Setting.onlyId)) ∧
          ∀ c ∈ g.candidates overlaid.config Setting.onlyId,
            isBetterFor c.variant.config w.variant.config (some overlaid.config) = false := by
  obtain ⟨g, hg⟩ := Option.isSome_iff_exists.mp
    (show (overlaid.group? ResourceId.appPackage).isSome = true by decide)
  have hgroup : g = (overlaid.group? ResourceId.appPackage).get (by decide) := by
    simp [hg]
  have hbest := @find_best overlaid Setting.onlyId 0 g (fitted_setAssets _ _)
    (by decide) hg (by decide) (by subst hgroup; decide) (by subst hgroup; decide)
  obtain ⟨first, m, later, hmembers, w, hw, hfound, hunbeaten, _⟩ := hbest.2
    (by subst hgroup; decide)
  exact ⟨by decide, g, hg, m, by simp [hmembers], w, hw, hfound, hunbeaten⟩

end Resources

end AppResources
