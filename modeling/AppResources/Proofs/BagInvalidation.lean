import AppResources.Proofs.BagSession
import AppResources.Proofs.QualifierScript
import AppResources.Proofs.ReportedAxes

/-!
# Known bags after a change of configuration

A change of configuration drops the known bags that vary along a changed axis. The axes of a
bag contain those of all bags that it inherits from, so if a bag is kept then everything that
was read to make it is still the same, and so is the bag.

A bag on a cycle of parents has its own axes only, although it is what it is because of all
bags of the cycle. When another one of them varies, the cycle may be gone, and the bag that
is kept is not what it should be any more. So a change must spare a cycle as a whole or not
at all (`Resources.SparesCycles`).

## Main definitions

* `Resources.Settled`: a bag that a change does not touch.
* `Resources.SparesCycles`: no cycle of parents is spared in part.
* `Setting.freshAnswers`: what new managers answer at every point of a session.

## Main results

* `flat_congr`: a flat bag depends on nothing but the bags above it.
* `CacheOk.reconfigure`: the bags that are kept are right.
* `answers_eq_fresh`: a session answers like new managers.
-/

namespace AppResources

namespace Resources

variable {r r' : Resources} {changed : Axes} {x y z : ResourceId} {own : OwnBag} {bag : Bag}
  {cache : BagCache}

/-! ## What a flat bag depends on -/

/-- The bags from one on upwards are the same in two lists of resources. -/
def SameAbove (r r' : Resources) (x : ResourceId) : Prop :=
  ∀ y, Relation.ReflTransGen r.Parent x y → r'.ownBag y = r.ownBag y

theorem SameAbove.parent? (h : SameAbove r r' x) (hy : Relation.ReflTransGen r.Parent x y) :
    r'.parent? y = r.parent? y := by
  unfold Resources.parent?
  rw [h y hy]

theorem SameAbove.transGen_iff (h : SameAbove r r' x) :
    Relation.TransGen r'.Parent x z ↔ Relation.TransGen r.Parent x z := by
  constructor
  · intro hup
    induction hup with
    | single hstep =>
        rw [Parent, h.parent? .refl] at hstep
        exact .single hstep
    | tail _ hstep ih =>
        rw [Parent, h.parent? ih.to_reflTransGen] at hstep
        exact ih.tail hstep
  · intro hup
    induction hup with
    | single hstep =>
        refine .single ?_
        rw [Parent, h.parent? .refl]
        exact hstep
    | tail hprefix hstep ih =>
        refine ih.tail ?_
        rw [Parent, h.parent? hprefix.to_reflTransGen]
        exact hstep

theorem SameAbove.parent (h : SameAbove r r' x) (hstep : r.Parent x y) : SameAbove r r' y :=
  fun z hz => h z (.head hstep hz)

/-- A flat bag depends on nothing but the bags above it. -/
theorem flat_congr (h : SameAbove r r' x) : r'.flat x = r.flat x := by
  induction x using r.wellFounded_inheritedBy.induction with
  | _ x ih =>
      have hsame := h x .refl
      cases hown : r.ownBag x with
      | error e => rw [flat_of_error hown, flat_of_error (hsame.trans hown)]
      | ok own =>
          have hcycle : r'.OnCycle x ↔ r.OnCycle x := h.transGen_iff
          by_cases halone : own.parent = 0 ∨ r.OnCycle x
          · rw [flat_of_alone hown halone,
              flat_of_alone (hsame.trans hown) (halone.imp_right hcycle.mpr)]
          · rw [not_or] at halone
            obtain ⟨hparent, hnot⟩ := halone
            have hstep : r.Parent x own.parent := parent?_of_ok hown hparent
            rw [flat_of_parent hown hparent hnot,
              flat_of_parent (hsame.trans hown) hparent (hcycle.not.mpr hnot),
              ih own.parent ⟨hstep, hnot⟩ (h.parent hstep)]

/-! ## Bags that a change does not touch -/

/-- A bag that is there and does not vary along changed axes. -/
def Settled (r : Resources) (changed : Axes) (x : ResourceId) : Prop :=
  ∃ own, r.ownBag x = .ok own ∧ changed.intersects own.axes = false

/-- With a bag on a cycle its parent is left alone. -/
def SparesCycles (r : Resources) (changed : Axes) : Prop :=
  ∀ x y, r.OnCycle x → r.Parent x y → r.Settled changed x → r.Settled changed y

theorem OnCycle.parent (h : r.OnCycle x) (hstep : r.Parent x y) : r.OnCycle y := by
  rcases h.back (.single hstep) with rfl | hback
  · exact h
  · exact hback.tail hstep

/-- A cycle is spared with any of its bags. -/
theorem SparesCycles.settled (hspares : r.SparesCycles changed) (hcycle : r.OnCycle x)
    (hsettled : r.Settled changed x) (hup : Relation.ReflTransGen r.Parent x y) :
    r.Settled changed y := by
  have hall : r.OnCycle y ∧ r.Settled changed y := by
    induction hup with
    | refl => exact ⟨hcycle, hsettled⟩
    | tail _ hstep ih => exact ⟨ih.1.parent hstep, hspares _ _ ih.1 hstep ih.2⟩
  exact hall.2

/-- Above a bag that varies along no changed axis nothing does. -/
theorem settled_of_flat (hspares : r.SparesCycles changed) (hflat : r.flat x = .ok bag)
    (haxes : changed.intersects bag.axes = false) (hup : Relation.ReflTransGen r.Parent x y) :
    r.Settled changed y := by
  induction hflat using flat_induction with
  | alone x own hown halone =>
      have hself : r.Settled changed x := ⟨own, hown, haxes⟩
      rcases halone with hroot | hcycle
      · rcases hup.cases_head with rfl | ⟨z, hstep, _⟩
        · exact hself
        · rw [Parent, parent?_of_root hown hroot] at hstep
          cases hstep
      · exact hspares.settled hcycle hself hup
  | inherit x own parent _ hown hinherited _ ih =>
      obtain ⟨hownAxes, hparentAxes⟩ := Axes.intersects_union_eq_false_iff.mp haxes
      rcases hup.cases_head with rfl | ⟨z, hstep, hup⟩
      · exact ⟨own, hown, hownAxes⟩
      · obtain rfl := Option.some.inj (hstep.symm.trans hinherited.1)
        exact ih hparentAxes hup

/-- A flat bag varies along no changed axis if no bag above it does. -/
theorem axes_of_settled (hflat : r.flat x = .ok bag)
    (hsettled : ∀ y, Relation.ReflTransGen r.Parent x y → r.Settled changed y) :
    changed.intersects bag.axes = false := by
  induction hflat using flat_induction with
  | alone x own hown _ =>
      obtain ⟨_, hsame, haxes⟩ := hsettled x .refl
      obtain rfl := Except.ok.inj (hown.symm.trans hsame)
      exact haxes
  | inherit x own parent _ hown hinherited _ ih =>
      obtain ⟨_, hsame, haxes⟩ := hsettled x .refl
      obtain rfl := Except.ok.inj (hown.symm.trans hsame)
      have hparentAxes := ih fun y hy => hsettled y (.head hinherited.1 hy)
      exact Axes.intersects_union_eq_false_iff.mpr ⟨haxes, hparentAxes⟩

/-! ## The cache after a change -/

/-- Bags that a change does not touch are the same afterwards. -/
def Keeps (r r' : Resources) (changed : Axes) : Prop :=
  ∀ x own, r.ownBag x = .ok own → changed.intersects own.axes = false → r'.ownBag x = .ok own

theorem Keeps.sameAbove (hkeeps : Keeps r r' changed)
    (hsettled : ∀ y, Relation.ReflTransGen r.Parent x y → r.Settled changed y) :
    SameAbove r r' x := by
  intro y hy
  obtain ⟨own, hown, haxes⟩ := hsettled y hy
  rw [hkeeps y own hown haxes, hown]

/-- The bags that do not vary along the changed axes. -/
def kept (changed : Axes) (cache : BagCache) : BagCache :=
  cache.filter fun entry => !entry.2.axes.intersects changed

theorem mem_kept_iff : (x, bag) ∈ kept changed cache ↔
    (x, bag) ∈ cache ∧ changed.intersects bag.axes = false := by
  rw [kept, List.mem_filter, Bool.not_eq_true', Axes.intersects_comm]

/-- The bags that are kept after a change are right. -/
theorem CacheOk.reconfigure (hok : CacheOk r cache) (hspares : r.SparesCycles changed)
    (hkeeps : Keeps r r' changed) : CacheOk r' (kept changed cache) := by
  have hsettled : ∀ x bag, (x, bag) ∈ kept changed cache →
      ∀ y, Relation.ReflTransGen r.Parent x y → r.Settled changed y := by
    intro x bag hmem y hy
    obtain ⟨hknown, haxes⟩ := mem_kept_iff.mp hmem
    exact settled_of_flat hspares (hok.sound x bag hknown) haxes hy
  refine ⟨fun x bag hmem => ?_, fun x y hx hy => ?_⟩
  · obtain ⟨hknown, _⟩ := mem_kept_iff.mp hmem
    rw [flat_congr (hkeeps.sameAbove (hsettled x bag hmem)), hok.sound x bag hknown]
  · obtain ⟨⟨x, bag⟩, hmem, rfl⟩ := List.mem_map.mp hx
    obtain ⟨hknown, _⟩ := mem_kept_iff.mp hmem
    have hstep : r.Parent x y := by
      rw [Parent, ← (hkeeps.sameAbove (hsettled x bag hmem)).parent? .refl]
      exact hy
    -- the parent was known, and it is kept because nothing above it is touched
    have hparent : y ∈ knownIds cache :=
      hok.closed x y (List.mem_map.mpr ⟨_, hknown, rfl⟩) hstep
    obtain ⟨⟨y, above⟩, habove, rfl⟩ := List.mem_map.mp hparent
    have haxes := axes_of_settled (hok.sound y above habove) fun z hz =>
      hsettled x bag hmem z (.head hstep hz)
    exact List.mem_map.mpr ⟨(y, above), mem_kept_iff.mpr ⟨habove, haxes⟩, rfl⟩

end Resources

/-! ## Sessions -/

namespace Setting

variable {s : Setting} {x : ResourceId} {own : OwnBag} {a b : Config} {assets : List Asset}

/-- What new managers with the assets and the configuration of the moment answer to the
lookups of a session. -/
def freshAnswers (id : Nat) (s : Setting) : List Call → List (Except LookupError Bag)
  | [] => []
  | .change change :: calls => (s.next change).freshAnswers id calls
  | .bag x :: calls =>
    ((Manager.fresh id s.assets s.config).bag x).1 :: s.freshAnswers id calls

/-- No change of configuration in a session spares a cycle of parents in part. -/
def SparesCycles (s : Setting) : List Call → Prop
  | [] => True
  | .change (.assets assets) :: calls => (s.next (.assets assets)).SparesCycles calls
  | .change (.config config) :: calls =>
    s.resources.SparesCycles (s.config.difference config) ∧
      (s.next (.config config)).SparesCycles calls
  | .bag _ :: calls => s.SparesCycles calls

theorem locale_eq_of_plain (ha : a.locale.scriptComputed = false)
    (hb : b.locale.scriptComputed = false) (h : a.locale.plain = b.locale.plain) :
    a.locale = b.locale := by
  have hself : ∀ l : Locale, l.scriptComputed = false → l.plain = l := by
    intro l hl
    rw [Locale.plain, Locale.ownScript, hl]
    cases l
    simp_all
  rw [hself _ ha, hself _ hb] at h
  exact h

/-- An own bag carries the axes that were reported for its entry. -/
theorem find_of_ownBag {r : Resources} (h : r.ownBag x = .ok own) :
    ∃ found, r.find x 0 = .ok found ∧ own.axes = found.axes := by
  obtain ⟨found, _, _, _, _, _, hfind, _, _, rfl⟩ := Resources.exists_of_ownBag h
  exact ⟨found, hfind, rfl⟩

/-- Own bags that do not vary along the difference of two configurations are the same for
both. -/
theorem keeps_upToDate (hhonest : ∀ asset ∈ assets, asset.Honest)
    (hlocale : a.locale.plain = b.locale.plain → a.locale = b.locale) :
    Resources.Keeps (upToDate assets a).resources (upToDate assets b).resources
      (a.difference b) := by
  intro x own hown haxes
  obtain ⟨found, hfound, hsame⟩ := find_of_ownBag hown
  have hother := find_congr hhonest hlocale hfound (hsame ▸ haxes)
  unfold Resources.ownBag at hown ⊢
  rw [hfound] at hown
  rw [hother]
  exact hown

end Setting

namespace Manager

open Setting

variable {m : Manager} {s : Setting} {calls : List Call} {config : Config}

/-- A manager whose assets are honest, whose configurations have no computed script and whose
known bags are right. -/
structure UpToDate (s : Setting) (m : Manager) : Prop where
  resources : m.resources = s.resources
  honest : ∀ asset ∈ s.assets, asset.Honest
  plain : s.fitted.plain = s.config.plain
  config : s.config.locale.scriptComputed = false
  fitted : s.fitted.locale.scriptComputed = false
  bags : Resources.CacheOk m.resources m.bags

/-- Its variants are those for the current configuration. -/
theorem UpToDate.resources_eq (h : UpToDate s m) :
    m.resources = (upToDate s.assets s.config).resources := by
  have hlocale : s.fitted.locale = s.config.locale :=
    locale_eq_of_plain h.fitted h.config (congrArg Config.locale h.plain)
  have hinStep : s.InStep := congrArg Locale.askedScript? hlocale
  rw [h.resources, hinStep.resources_eq h.plain]
  rfl

theorem UpToDate.assets (h : UpToDate s m) {assets : List Asset}
    (hhonest : ∀ asset ∈ assets, asset.Honest) :
    UpToDate (s.next (.assets assets)) (m.apply (.assets assets)) where
  resources := apply_resources h.resources _
  honest := hhonest
  plain := rfl
  config := h.config
  fitted := h.config
  bags := Resources.cacheOk_nil _

theorem UpToDate.configure (h : UpToDate s m) (hscript : config.locale.scriptComputed = false)
    (hspares : s.resources.SparesCycles (s.config.difference config)) :
    UpToDate (s.next (.config config)) (m.apply (.config config)) := by
  have hfitted : (s.next (.config config)).fitted.locale.scriptComputed = false := by
    unfold next
    dsimp only
    split
    · exact h.fitted
    · exact hscript
  have hresources := apply_resources h.resources (.config config)
  have hplain := next_plain h.plain (.config config)
  have hinStep : (s.next (.config config)).InStep :=
    congrArg Locale.askedScript?
      (locale_eq_of_plain hfitted hscript (congrArg Config.locale hplain))
  have hkeeps : Resources.Keeps m.resources (m.apply (.config config)).resources
      (s.config.difference config) := by
    rw [h.resources_eq, hresources, hinStep.resources_eq hplain]
    exact keeps_upToDate h.honest (locale_eq_of_plain h.config hscript)
  refine ⟨hresources, h.honest, hplain, hscript, hfitted, ?_⟩
  rw [← h.resources] at hspares
  have hconfig : m.resources.config = s.config := by
    rw [h.resources]
    rfl
  have hbags : (m.apply (.config config)).bags =
      Resources.kept (s.config.difference config) m.bags := by
    rw [← hconfig]
    rfl
  rw [hbags]
  exact h.bags.reconfigure hspares hkeeps

/-- A lookup answers like a new manager. -/
theorem UpToDate.bag (h : UpToDate s m) (id : Nat) (x : ResourceId) :
    (m.bag x).1 = ((fresh id s.assets s.config).bag x).1 ∧ UpToDate s (m.bag x).2 := by
  obtain ⟨hflat, hbags⟩ := Resources.bag_spec h.bags x
  have hfresh : ((fresh id s.assets s.config).bag x).1 =
      (fresh id s.assets s.config).resources.flat x :=
    (Resources.bag_spec (Resources.cacheOk_nil _) x).1
  have hresources : m.resources = (fresh id s.assets s.config).resources := by
    rw [h.resources_eq, fresh_resources]
    rfl
  have hanswer : (m.bag x).1 = m.resources.flat x := hflat
  rw [hanswer, hfresh, hresources]
  exact ⟨rfl, h.resources, h.honest, h.plain, h.config, h.fitted, hbags⟩

theorem UpToDate.answers (h : UpToDate s m) (id : Nat)
    (hhonest : ∀ assets, Call.change (.assets assets) ∈ calls → ∀ asset ∈ assets, asset.Honest)
    (hscript : ∀ config, Call.change (.config config) ∈ calls →
      config.locale.scriptComputed = false)
    (hspares : s.SparesCycles calls) : m.answers calls = s.freshAnswers id calls := by
  induction calls generalizing m s with
  | nil => rfl
  | cons call calls ih =>
      have hhonest' : ∀ assets, Call.change (.assets assets) ∈ calls →
          ∀ asset ∈ assets, asset.Honest :=
        fun assets hmem => hhonest assets (List.mem_cons_of_mem _ hmem)
      have hscript' : ∀ config, Call.change (.config config) ∈ calls →
          config.locale.scriptComputed = false :=
        fun config hmem => hscript config (List.mem_cons_of_mem _ hmem)
      cases call with
      | change change =>
          cases change with
          | assets assets =>
              exact ih (h.assets (hhonest assets List.mem_cons_self)) hhonest' hscript' hspares
          | config config =>
              obtain ⟨hspared, hspares⟩ := hspares
              exact ih (h.configure (hscript config List.mem_cons_self) hspared) hhonest' hscript'
                hspares
      | bag x =>
          obtain ⟨hanswer, hnext⟩ := h.bag id x
          rw [Manager.answers, freshAnswers, hanswer, ih hnext hhonest' hscript' hspares]

theorem upToDate_new (id : Nat) : UpToDate {} { id := id } where
  resources := rfl
  honest _ h := absurd h List.not_mem_nil
  plain := rfl
  config := rfl
  fitted := rfl
  bags := Resources.cacheOk_nil _

/-- With honest assets and configurations that are written as qualifiers every lookup of a
session answers like a new manager, as long as no change of configuration spares a cycle of
parents in part. -/
theorem answers_eq_fresh (id id' : Nat) {calls : List Call}
    (hhonest : ∀ assets, Call.change (.assets assets) ∈ calls → ∀ asset ∈ assets, asset.Honest)
    (hconfigs : ∀ config, Call.change (.config config) ∈ calls →
      ∃ text, Config.ofQualifiers text = .ok config)
    (hspares : ({} : Setting).SparesCycles calls) :
    ({ id := id } : Manager).answers calls = ({} : Setting).freshAnswers id' calls := by
  have hscript : ∀ config, Call.change (.config config) ∈ calls →
      config.locale.scriptComputed = false := by
    intro config hmem
    obtain ⟨text, htext⟩ := hconfigs config hmem
    exact Config.scriptComputed_ofQualifiers htext
  exact (upToDate_new id).answers id' hhonest hscript hspares

/-! ## Two styles in a circle -/

/-- Two styles that inherit from each other, but for the second one on a device that is held
sideways; and the axes of the first one. -/
def circle (axes : Axes) : Asset :=
  .ofVariants ResourceId.appPackage #[axes, .orientation]
    [(.default, [some (.style 0x7f010001 [0x01010000]), some (.style 0x7f010000 [0x01010001])]),
      ({ orientation := 2 }, [none, some (.style 0 [0x01010001])])]

/-- The first one of the two is looked up before and after the device is turned. -/
def turned (axes : Axes) : List Call :=
  [.change (.assets [circle axes]), .bag 0x7f010000, .change (.config { orientation := 2 }),
    .bag 0x7f010000]

theorem configs_turned {axes : Axes} (h : Call.change (.config config) ∈ turned axes) :
    ∃ text, Config.ofQualifiers text = .ok config := by
  have hsame : config = { orientation := 2 } := by simpa [turned] using h
  exact ⟨"land", by rw [hsame]; decide⟩

theorem assets_turned {axes : Axes} {assets : List Asset}
    (h : Call.change (.assets assets) ∈ turned axes) : assets = [circle axes] := by
  simpa [turned] using h

/-- If both styles vary along the axis, so do their bags. -/
theorem orientation_of_circle {x : ResourceId} {own : OwnBag}
    (h : (upToDate [circle .orientation] config).resources.ownBag x = .ok own) :
    Axes.orientation.subset own.axes = true := by
  obtain ⟨found, hfound, hsame⟩ := find_of_ownBag h
  obtain ⟨_, g, hgroup, hlookup⟩ := lookup_of_find hfound
  obtain ⟨haxes, c, hc, _⟩ := PackageGroup.of_lookup hlookup
  obtain ⟨m, hm, hc⟩ := List.mem_flatMap.mp hc
  obtain ⟨slot, spec, index, hlocate, _, hv, _, hentry⟩ := GroupMember.mem_candidates_iff.mp hc
  -- the only type of the only package has two entries, and the axes of both are the same
  obtain ⟨asset, hasset, hpackage⟩ :=
    PackageGroup.mem_ofAssets (List.mem_of_find?_eq_some hgroup) hm
  obtain rfl := List.mem_singleton.mp hasset
  have hslot := Package.mem_slots (GroupMember.spec?_of_locate? hlocate)
  rw [List.mem_singleton.mp hpackage] at hslot
  obtain rfl := Option.some.inj (List.mem_singleton.mp hslot)
  have hsize : c.variant.entries.size = 2 := by
    rcases List.mem_cons.mp hv with heq | hv
    · rw [heq]
      rfl
    · rw [List.mem_singleton.mp hv]
      rfl
  have hbound : index.toNat < 2 :=
    hsize ▸ (Array.getElem?_eq_some_iff.mp (Variant.entry?_eq_some_iff.mp hentry)).1
  have hmember : m.axesOf x = .orientation := by
    rw [GroupMember.axesOf, hlocate]
    unfold TypeSpec.axesOf
    dsimp only
    rcases (by omega : index.toNat = 0 ∨ index.toNat = 1) with hindex | hindex
    · rw [hindex]
      rfl
    · rw [hindex]
      rfl
  rw [hsame, haxes, ← hmember]
  exact PackageGroup.axesOf_subset hm

theorem answers_eq_fresh_turned :
    ({ id := 0 } : Manager).answers (turned .orientation) =
      ({} : Setting).freshAnswers 1 (turned .orientation) := by
  refine answers_eq_fresh 0 1 ?_ (fun _ => configs_turned) ?_
  · intro assets hmem
    rw [assets_turned hmem]
    decide
  · refine ⟨?_, trivial⟩
    rintro x y _ _ ⟨own, hown, haxes⟩
    have hvaries := Axes.intersects_of_subset (orientation_of_circle hown) haxes
    exact absurd hvaries (by decide)

/-- A session does not always answer like new managers. -/
theorem answers_ne_fresh :
    ¬ ∀ (id id' : Nat) (calls : List Call),
      (∀ assets, Call.change (.assets assets) ∈ calls → ∀ asset ∈ assets, asset.Honest) →
      (∀ config, Call.change (.config config) ∈ calls →
        ∃ text, Config.ofQualifiers text = .ok config) →
      ({ id := id } : Manager).answers calls = ({} : Setting).freshAnswers id' calls := by
  intro h
  have hhonest : ∀ assets, Call.change (.assets assets) ∈ turned .none →
      ∀ asset ∈ assets, asset.Honest := by
    intro assets hmem
    rw [assets_turned hmem]
    decide
  have hanswers := h 0 1 (turned .none) hhonest fun _ => configs_turned
  have hlengths := congrArg (List.map fun found => found.toOption.map fun bag : Bag =>
    bag.entries.length) hanswers
  revert hlengths
  decide

end Manager

end AppResources
