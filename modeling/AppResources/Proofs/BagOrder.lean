import AppResources.Proofs.BagMerge
import AppResources.Proofs.BagSession
import AppResources.Proofs.Origin

/-!
# The order of the entries of a bag

A bag is written with ascending keys, but these are keys of build time. At run time every
key gets the package byte that its library has on the device, and the entries stay where
they are. Between keys of one package nothing changes then; keys of different packages may
change places, for instance those of a shared library, which are written with the package
byte zero, and those of the framework.

So the entries of a bag ascend exactly if the renumbering kept the order between keys of
different packages in the bag and in all bags that it inherits from.

## Main definitions

* `LibraryTable.keepsOrder`: whether two keys are in order at run time.
* `Entry.KeepsOrder`: whether the keys of different packages in a bag are.

## Main results

* `ownBag_ascends_iff`: when the entries of one bag ascend.
* `flat_ascends_iff`: when those of a bag with all it inherits do.
* `bags_ascend`: what this means for the answers of a manager.
-/

namespace AppResources

/-! ## Keys at run time -/

namespace ResourceId

theorem toNat_withPackage (id : ResourceId) (p : UInt8) :
    (withPackage id p).toNat = 16777216 * p.toNat + id.toNat % 16777216 := by
  have hp := p.toNat_lt
  simp only [withPackage, make, ResourceId.type, ResourceId.entry, UInt32.toNat_ofNat',
    UInt8.toNat_ofNat', UInt16.toNat_ofNat']
  omega

theorem package_eq_iff {k l : ResourceId} :
    ResourceId.package k = ResourceId.package l ↔ k.toNat / 16777216 = l.toNat / 16777216 := by
  have hk := k.toNat_lt
  have hl := l.toNat_lt
  rw [← UInt8.toNat_inj]
  simp only [ResourceId.package, UInt8.toNat_ofNat']
  omega

end ResourceId

namespace LibraryTable

open Resources

variable {t : LibraryTable} {k l k' l' : ResourceId}

/-- Whether two keys are in order, as far as there are any. -/
def inOrder (x y : Except LookupError ResourceId) : Bool :=
  match x, y with
  | .ok k, .ok l => k < l
  | _, _ => true

/-- Whether two keys are in order at run time, as far as they have a meaning there. -/
def keepsOrder (t : LibraryTable) (k l : ResourceId) : Bool :=
  inOrder (runtimeKey t k) (runtimeKey t l)

theorem keepsOrder_iff (hk : runtimeKey t k = .ok k') (hl : runtimeKey t l = .ok l') :
    t.keepsOrder k l = true ↔ k' < l' := by
  unfold keepsOrder
  rw [hk, hl]
  exact decide_eq_true_iff

/-- What a key is at run time. -/
theorem runtimeKey_cases (h : runtimeKey t k = .ok k') :
    (k.toNat < 65536 ∧ k' = k) ∨
      (65536 ≤ k.toNat ∧ ∃ p, t.runtimePackage? (ResourceId.package k) = some p ∧
        k'.toNat = 16777216 * p.toNat + k.toNat % 16777216) := by
  unfold runtimeKey at h
  by_cases hordinal : ResourceId.isOrdinal k = true
  · rw [if_pos hordinal] at h
    exact Or.inl ⟨of_decide_eq_true hordinal, (Except.ok.inj h).symm⟩
  · rw [if_neg hordinal] at h
    have hlarge : 65536 ≤ k.toNat := by
      unfold ResourceId.isOrdinal at hordinal
      simpa using hordinal
    refine Or.inr ⟨hlarge, ?_⟩
    unfold runtimeId? at h
    cases hpackage : t.runtimePackage? (ResourceId.package k) with
    | none =>
        rw [hpackage] at h
        cases h
    | some p =>
        rw [hpackage] at h
        obtain rfl := Except.ok.inj h
        exact ⟨p, rfl, ResourceId.toNat_withPackage k p⟩

/-- Keys of one package stay in order. -/
theorem keepsOrder_of_package_eq (hlt : k < l)
    (hpackage : ResourceId.package k = ResourceId.package l) : t.keepsOrder k l = true := by
  have hlt' := UInt32.lt_iff_toNat_lt.mp hlt
  have hsame := ResourceId.package_eq_iff.mp hpackage
  cases hk : runtimeKey t k with
  | error e => simp [keepsOrder, inOrder, hk]
  | ok k' =>
      cases hl : runtimeKey t l with
      | error e => simp [keepsOrder, inOrder, hl]
      | ok l' =>
          rw [keepsOrder_iff hk hl, UInt32.lt_iff_toNat_lt]
          rcases runtimeKey_cases hk with ⟨hsmall, rfl⟩ | ⟨hlarge, p, hp, hk'⟩
          · rcases runtimeKey_cases hl with ⟨_, rfl⟩ | ⟨_, q, _, hl'⟩
            · exact hlt'
            · omega
          · rcases runtimeKey_cases hl with ⟨hsmall, rfl⟩ | ⟨_, q, hq, hl'⟩
            · omega
            · rw [hpackage, hq, Option.some.injEq] at hp
              subst hp
              omega

end LibraryTable

/-! ## Bags as they are written -/

namespace Entry

/-- The keys of a bag at build time. -/
def names : Entry → List ResourceId
  | .plain .. => []
  | .bag _ _ _ items => items.map (·.name)

/-- The keys ascend at build time. -/
def NamesAscend (e : Entry) : Prop := e.names.Pairwise (· < ·)

instance (e : Entry) : Decidable e.NamesAscend := by
  unfold NamesAscend
  infer_instance

/-- Keys of different packages are in order at run time as well. -/
def KeepsOrder (t : LibraryTable) (e : Entry) : Prop :=
  e.names.Pairwise fun k l =>
    ResourceId.package k ≠ ResourceId.package l → t.keepsOrder k l = true

instance (t : LibraryTable) (e : Entry) : Decidable (e.KeepsOrder t) := by
  unfold KeepsOrder
  infer_instance

variable {t : LibraryTable} {e : Entry}

/-- All keys are in order at run time if those of different packages are. -/
theorem pairwise_keepsOrder_iff (h : e.NamesAscend) :
    e.names.Pairwise (fun k l => t.keepsOrder k l = true) ↔ e.KeepsOrder t := by
  unfold NamesAscend at h
  unfold KeepsOrder
  constructor
  · intro hkeeps
    refine hkeeps.imp ?_
    intro k l hkl _
    exact hkl
  · intro hkeeps
    refine (h.and hkeeps).imp fun {k l} hkl => ?_
    by_cases hpackage : ResourceId.package k = ResourceId.package l
    · exact LibraryTable.keepsOrder_of_package_eq hkl.1 hpackage
    · exact hkl.2 hpackage

end Entry

namespace Resources

open Bag

variable {r : Resources} {id : ResourceId} {own : OwnBag} {s : Selection}

/-- The keys of the entries of a bag are those of its items at run time. -/
theorem keys_of_items {t : LibraryTable} {style : ResourceId} {cookie : Nat}
    {items : List BagItem} {entries : List BagEntry}
    (h : items.mapM (runtimeItem t style cookie) = .ok entries) :
    items.map (fun item => runtimeKey t item.name) = entries.map fun e => .ok e.key := by
  have hitems := forall₂_of_mapM h
  clear h
  induction hitems with
  | nil => rfl
  | cons hitem _ ih => rw [List.map_cons, List.map_cons, (of_runtimeItem hitem).1, ih]

/-- Whether the bag that an id names keeps the order of its keys. -/
def KeepsOrder (r : Resources) (id : ResourceId) : Prop :=
  ∀ s, r.find id 0 = .ok s → s.entry.KeepsOrder s.libraries

/-- The bag that an id names is written with ascending keys. -/
def NamesAscend (r : Resources) (id : ResourceId) : Prop :=
  ∀ s, r.find id 0 = .ok s → s.entry.NamesAscend

/-- The entries of one bag ascend exactly if its keys are in order at run time. -/
theorem ownBag_ascends_iff (hnames : r.NamesAscend id) (h : r.ownBag id = .ok own) :
    Ascends own.entries ↔ r.KeepsOrder id := by
  obtain ⟨s, key, flags, parent, items, entries, hfind, hentry, hitems, rfl⟩ :=
    exists_of_ownBag h
  have hkeeps : r.KeepsOrder id ↔ s.entry.KeepsOrder s.libraries := by
    unfold KeepsOrder
    rw [hfind]
    simp
  have hkeys := keys_of_items hitems
  have hruntime : Ascends entries ↔
      (entries.map fun e => (.ok e.key : Except LookupError ResourceId)).Pairwise
        (fun x y => LibraryTable.inOrder x y = true) := by
    rw [Ascends, List.pairwise_map, List.pairwise_map]
    simp only [LibraryTable.inOrder, decide_eq_true_eq]
  have hnamed : (items.map (·.name)).Pairwise
        (fun k l => s.libraries.keepsOrder k l = true) ↔
      (items.map fun item => runtimeKey s.libraries item.name).Pairwise
        (fun x y => LibraryTable.inOrder x y = true) := by
    rw [List.pairwise_map, List.pairwise_map]
    rfl
  rw [hkeeps, ← Entry.pairwise_keepsOrder_iff (hnames s hfind), hentry]
  change Ascends entries ↔ (items.map (·.name)).Pairwise _
  rw [hnamed, hkeys, hruntime]

/-! ## Bags with all they inherit -/

/-- With all it inherits a bag has ascending keys exactly if it and all that it inherits
from keep the order of their keys. -/
theorem flat_ascends_iff (hnames : ∀ x, r.NamesAscend x) {bag : Bag} (h : r.flat id = .ok bag) :
    Ascends bag.entries ↔ ∀ x, Relation.ReflTransGen r.InheritedBy x id → r.KeepsOrder x := by
  induction h using flat_induction with
  | alone id own hown halone =>
      have hself := ownBag_ascends_iff (hnames id) hown
      -- nothing is inherited
      have honly : ∀ x, Relation.ReflTransGen r.InheritedBy x id → x = id := by
        intro x hx
        rcases (Relation.ReflTransGen.cases_tail_iff _ _ _).mp hx with heq | ⟨y, _, hy, hcycle⟩
        · exact heq.symm
        · rcases halone with hroot | hon
          · rw [Parent, parent?_of_root hown hroot] at hy
            cases hy
          · exact absurd hon hcycle
      exact hself.trans ⟨fun hkeeps x hx => honly x hx ▸ hkeeps, fun hall => hall id .refl⟩
  | inherit id own parent _ hown hinherited _ ih =>
      have hself := ownBag_ascends_iff (hnames id) hown
      change Ascends (merge own.entries parent.entries) ↔ _
      rw [ascends_merge_iff, hself, ih]
      constructor
      · rintro ⟨hkeeps, habove⟩ x hx
        rcases (Relation.ReflTransGen.cases_tail_iff _ _ _).mp hx with heq | ⟨y, hxy, hy, _⟩
        · exact heq ▸ hkeeps
        · obtain rfl := Option.some.inj (hy.symm.trans hinherited.1)
          exact habove x hxy
      · exact fun hall => ⟨hall id .refl, fun x hx => hall x (hx.tail hinherited)⟩

end Resources

/-! ## Sessions -/

/-- All bags are written with ascending keys. -/
def Asset.NamesAscend (a : Asset) : Prop :=
  ∀ p ∈ a.table.packages, ∀ e ∈ p.stored, e.NamesAscend

instance (a : Asset) : Decidable a.NamesAscend := by
  unfold Asset.NamesAscend
  infer_instance

/-- All bags keep the order of their keys. -/
def PackageGroup.KeepsOrder (g : PackageGroup) : Prop :=
  ∀ m ∈ g.members, ∀ e ∈ m.package.stored, e.KeepsOrder g.libraries

instance (g : PackageGroup) : Decidable g.KeepsOrder := by
  unfold PackageGroup.KeepsOrder
  infer_instance

namespace Setting

variable {s : Setting} {x : ResourceId} {found : Selection}

theorem stored_of_find (h : s.resources.find x 0 = .ok found) :
    ∃ g ∈ PackageGroup.ofAssets s.assets, found.libraries = g.libraries ∧
      ∃ m ∈ g.members, found.entry ∈ m.package.stored := by
  have hfitting : ∀ g ∈ s.resources.groups, ∀ m ∈ g.members,
      m.fitting = GroupMember.fittingOf m.package s.fitted := fun _ hg _ hm =>
    PackageGroup.fitting_of_mem_refit hg hm
  obtain ⟨g, hg, hlibraries, m, hm, hstored⟩ := Resources.stored_of_find hfitting h
  obtain ⟨g', hg', rfl⟩ := List.mem_map.mp hg
  obtain ⟨m', hm', rfl⟩ := List.mem_map.mp hm
  exact ⟨g', hg', hlibraries, m', hm', hstored⟩

theorem namesAscend (h : ∀ a ∈ s.assets, a.NamesAscend) (x : ResourceId) :
    s.resources.NamesAscend x := by
  intro found hfound
  obtain ⟨g, hg, _, m, hm, hstored⟩ := stored_of_find hfound
  obtain ⟨a, ha, hp⟩ := PackageGroup.mem_ofAssets hg hm
  exact h a ha m.package hp found.entry hstored

theorem keepsOrder (h : ∀ g ∈ PackageGroup.ofAssets s.assets, g.KeepsOrder) (x : ResourceId) :
    s.resources.KeepsOrder x := by
  intro found hfound
  obtain ⟨g, hg, hlibraries, m, hm, hstored⟩ := stored_of_find hfound
  rw [hlibraries]
  exact h g hg m hm found.entry hstored

end Setting

namespace Manager

open Bag

variable {m : Manager} {s : Setting} {calls : List Call}

/-- A manager whose assets keep all keys in order, and whose known bags are in order. -/
structure Ordered (s : Setting) (m : Manager) : Prop where
  resources : m.resources = s.resources
  names : ∀ a ∈ s.assets, a.NamesAscend
  keeps : ∀ g ∈ PackageGroup.ofAssets s.assets, g.KeepsOrder
  bags : ∀ e ∈ m.bags, Ascends e.2.entries

theorem Ordered.change (h : Ordered s m) {change : Change}
    (hassets : ∀ assets, change = .assets assets →
      (∀ a ∈ assets, a.NamesAscend) ∧ ∀ g ∈ PackageGroup.ofAssets assets, g.KeepsOrder) :
    Ordered (s.next change) (m.apply change) := by
  have hresources := Setting.apply_resources h.resources change
  cases change with
  | assets assets =>
      obtain ⟨hnames, hkeeps⟩ := hassets assets rfl
      exact ⟨hresources, hnames, hkeeps, fun _ he => absurd he List.not_mem_nil⟩
  | config config =>
      exact ⟨hresources, h.names, h.keeps, fun e he => h.bags e (List.mem_filter.mp he).1⟩

/-- A lookup answers in order and leaves the known bags in order. -/
theorem Ordered.bag (h : Ordered s m) (id : ResourceId) :
    (∀ b, (m.bag id).1 = .ok b → Ascends b.entries) ∧ Ordered s (m.bag id).2 := by
  have hown : ∀ b, m.resources.IsOwn b → Ascends b.bag.entries := by
    intro b hb
    have hnames : m.resources.NamesAscend b.id := h.resources ▸ Setting.namesAscend h.names b.id
    have hkeeps : m.resources.KeepsOrder b.id := h.resources ▸ Setting.keepsOrder h.keeps b.id
    exact (Resources.ownBag_ascends_iff hnames hb).mpr hkeeps
  have hinherit : ∀ b, m.resources.IsOwn b → ∀ parent : Bag, Ascends parent.entries →
      Ascends (b.inherit parent).entries := by
    intro b hb parent hparent
    exact ascends_merge_iff.mpr ⟨hown b hb, hparent⟩
  obtain ⟨hanswer, hbags⟩ := @Resources.bag_preserves _ _ id _ hown hinherit h.bags
  exact ⟨hanswer, h.resources, h.names, h.keeps, hbags⟩

theorem Ordered.answers (h : Ordered s m)
    (hassets : ∀ assets, Call.change (.assets assets) ∈ calls →
      (∀ a ∈ assets, a.NamesAscend) ∧ ∀ g ∈ PackageGroup.ofAssets assets, g.KeepsOrder) :
    ∀ b, .ok b ∈ m.answers calls → Ascends b.entries := by
  induction calls generalizing m s with
  | nil => exact fun _ hb => absurd hb List.not_mem_nil
  | cons call calls ih =>
      have hrest : ∀ assets, Call.change (.assets assets) ∈ calls →
          (∀ a ∈ assets, a.NamesAscend) ∧ ∀ g ∈ PackageGroup.ofAssets assets, g.KeepsOrder :=
        fun assets hmem => hassets assets (List.mem_cons_of_mem _ hmem)
      cases call with
      | change change =>
          refine ih (h.change fun assets heq => ?_) hrest
          exact hassets assets (heq ▸ List.mem_cons_self)
      | bag id =>
          obtain ⟨hanswer, hnext⟩ := h.bag id
          intro b hb
          rcases List.mem_cons.mp hb with hb | hb
          · exact hanswer b hb.symm
          · exact ih hnext hrest b hb

theorem ordered_new (id : Nat) : Ordered {} { id := id } where
  resources := rfl
  names _ ha := absurd ha List.not_mem_nil
  keeps _ hg := absurd hg List.not_mem_nil
  bags _ he := absurd he List.not_mem_nil

/-- Where renumbering keeps the order of the keys in all bags, the entries of every bag that
a session answers with ascend, and each is found under its key. And in general the entries of
a bag ascend exactly if it and all that it inherits from keep the order of their keys. -/
theorem bags_ascend (id : Nat) :
    (∀ calls : List Call,
      (∀ assets, Call.change (.assets assets) ∈ calls →
        (∀ a ∈ assets, a.NamesAscend) ∧ ∀ g ∈ PackageGroup.ofAssets assets, g.KeepsOrder) →
      ∀ bag, .ok bag ∈ ({ id := id } : Manager).answers calls →
        Ascends bag.entries ∧ ∀ e ∈ bag.entries, bag.find? e.key = some e) ∧
    ∀ (assets : List Asset) (config : Config) (resource : ResourceId) (bag : Bag),
      (∀ a ∈ assets, a.NamesAscend) → ((fresh id assets config).bag resource).1 = .ok bag →
        (Ascends bag.entries ↔
          ∀ x, Relation.ReflTransGen (fresh id assets config).resources.InheritedBy x resource →
            (fresh id assets config).resources.KeepsOrder x) := by
  constructor
  · intro calls hassets bag hbag
    have hascends := (ordered_new id).answers hassets bag hbag
    exact ⟨hascends, fun e he => (find?_eq_some_iff hascends).mpr ⟨he, rfl⟩⟩
  · intro assets config resource bag hnames hbag
    have hflat : (fresh id assets config).resources.flat resource = .ok bag := by
      rw [← hbag]
      exact (Resources.bag_spec (Resources.cacheOk_nil _) resource).1.symm
    refine Resources.flat_ascends_iff ?_ hflat
    intro x
    rw [Setting.fresh_resources]
    exact Setting.namesAscend hnames x

/-- An application with two styles, the second one under the first. -/
def appStyles : Asset :=
  .ofVariants ResourceId.appPackage #[.none, .none]
    [(.default, [some (.style 0 [0x01010000, 0x7f020000]), some (.style 0x7f010000 [0x01010001])])]

/-- A shared library with a style that names an attribute of its own and one of the
framework. -/
def libraryStyles : Asset :=
  .ofVariants 0 #[.none] [(.default, [some (.style 0 [0x00020000, 0x01010000])])]

/-- The style of the library is answered, and not in order. -/
theorem exists_bag_libraryStyles : ∃ bag,
    ((fresh 0 [libraryStyles] .default).bag 0x02010000).1 = .ok bag ∧ ¬ Ascends bag.entries := by
  have hanswer : ((fresh 0 [libraryStyles] .default).bag 0x02010000).1.map
      (fun bag => decide (Ascends bag.entries)) = .ok false := by decide
  cases hbag : ((fresh 0 [libraryStyles] .default).bag 0x02010000).1 with
  | error e =>
      rw [hbag] at hanswer
      cases hanswer
  | ok bag =>
      rw [hbag] at hanswer
      exact ⟨bag, rfl, of_decide_eq_false (Except.ok.inj hanswer)⟩

theorem bags_ascend_styles :
    (∃ bag, .ok bag ∈ ({ id := 0 } : Manager).answers
        [.change (.assets [appStyles]), .bag 0x7f010001] ∧ bag.entries.length = 3 ∧
      Ascends bag.entries ∧ ∀ e ∈ bag.entries, bag.find? e.key = some e) ∧
    ∃ x, Relation.ReflTransGen
        (fresh 0 [libraryStyles] .default).resources.InheritedBy x 0x02010000 ∧
      ¬ (fresh 0 [libraryStyles] .default).resources.KeepsOrder x := by
  constructor
  · have hlength : (({ id := 0 } : Manager).answers
        [.change (.assets [appStyles]), .bag 0x7f010001]).map
          (fun found => found.map fun bag => bag.entries.length) = [.ok 3] := by decide
    obtain ⟨found, hfound, hthree⟩ := List.map_eq_singleton_iff.mp hlength
    cases found with
    | error e => cases hthree
    | ok bag =>
        have hmem : .ok bag ∈ ({ id := 0 } : Manager).answers
            [.change (.assets [appStyles]), .bag 0x7f010001] := by simp [hfound]
        refine ⟨bag, hmem, Except.ok.inj hthree, (bags_ascend 0).1 _ ?_ bag hmem⟩
        intro assets hassets
        have hsame : assets = [appStyles] := by simpa using hassets
        subst hsame
        decide
  · obtain ⟨bag, hbag, hnot⟩ := exists_bag_libraryStyles
    have hexact := (bags_ascend 0).2 [libraryStyles] .default 0x02010000 bag (by decide) hbag
    by_contra hnone
    refine hnot (hexact.mpr fun x hx => ?_)
    by_contra hbreaks
    exact hnone ⟨x, hx, hbreaks⟩

/-- Bags that are written with ascending keys are not always answered with ascending keys. -/
theorem not_bags_ascend :
    ¬ ∀ (id : Nat) (assets : List Asset) (config : Config) (resource : ResourceId) (bag : Bag),
      (∀ a ∈ assets, a.NamesAscend) → ((fresh id assets config).bag resource).1 = .ok bag →
        Ascends bag.entries ∧ ∀ e ∈ bag.entries, bag.find? e.key = some e := by
  intro h
  obtain ⟨bag, hbag, hnot⟩ := exists_bag_libraryStyles
  exact hnot (h 0 [libraryStyles] .default 0x02010000 bag (by decide) hbag).1

end Manager

end AppResources
