import AppResources.Manager
import AppResources.Proofs.FlatBag
import Mathlib.Data.List.TakeWhile

/-!
# The cache of bags does not show

A lookup of a bag climbs from the bag to its parents, until it meets a bag without a
parent, a bag of the climb itself or a known bag, and then comes down again and remembers
all bags of the climb. Its answer is the flat bag, whatever was looked up before.

The cache is kept sound: every known bag is flat. That alone is not enough, because a bag
on a cycle must not be merged over a known bag of the same cycle. So the parents of known
bags are known as well (`CacheOk.closed`). A bag that is not known then lies on no cycle as
soon as its parent is known.

## Main definitions

* `Resources.CacheOk`: the invariant of the cache.
* `Resources.Leads`: the bags of a climb.

## Main results

* `flatten_ok`: a climb that ends well is remembered and answered.
* `ascend_spec`: every climb ends, well or with the error of the first bag that fails.
* `lookupBags_eq_flat`: all answers of a manager are the flat bags.
-/

namespace AppResources

namespace Resources

variable {r : Resources} {cache : BagCache} {id above start : ResourceId}
  {own b : OwnBag} {bs heirs : List OwnBag} {e : LookupError}

/-- The ids of the known bags. -/
def knownIds (cache : BagCache) : List ResourceId := cache.map (·.1)

/-- What is known of bags is right, and with a bag its parent is known. -/
structure CacheOk (r : Resources) (cache : BagCache) : Prop where
  /-- Known bags are flat. -/
  sound : ∀ id bag, (id, bag) ∈ cache → r.flat id = .ok bag
  /-- The parents of known bags are known. -/
  closed : ∀ id above, id ∈ knownIds cache → r.parent? id = some above → above ∈ knownIds cache

/-- The bags of a climb from `start`, the topmost first; the parent of the topmost is
`above`. -/
def Leads (r : Resources) : ResourceId → List OwnBag → ResourceId → Prop
  | above, [], start => above = start
  | above, b :: rest, start =>
    r.ownBag b.id = .ok b ∧ b.parent = above ∧ above ≠ 0 ∧ Leads r b.id rest start

theorem cacheOk_nil (r : Resources) : CacheOk r [] where
  sound _ _ h := by cases h
  closed _ _ h _ := by cases h

theorem mem_of_lookup {bag : Bag} (h : cache.lookup id = some bag) : (id, bag) ∈ cache := by
  obtain ⟨before, after, rfl, _⟩ := List.lookup_eq_some_iff.mp h
  simp

theorem not_known_of_lookup (h : cache.lookup id = none) : id ∉ knownIds cache := by
  intro hmem
  obtain ⟨entry, hentry, rfl⟩ := List.mem_map.mp hmem
  simpa using List.lookup_eq_none_iff.mp h entry hentry

/-! ## Climbs -/

theorem Leads.ownBag (h : Leads r above bs start) (hb : b ∈ bs) : r.ownBag b.id = .ok b := by
  induction bs generalizing above with
  | nil => cases hb
  | cons b' bs ih =>
      rcases List.mem_cons.mp hb with rfl | hb
      · exact h.1
      · exact ih h.2.2.2 hb

/-- The parent of every bag of a climb is the bag above it. -/
theorem Leads.parent? (h : Leads r above bs start) (hb : b ∈ bs) :
    ∃ p, r.parent? b.id = some p ∧ (p = above ∨ p ∈ bs.map (·.id)) := by
  induction bs generalizing above with
  | nil => cases hb
  | cons b' bs ih =>
      rcases List.mem_cons.mp hb with rfl | hb
      · exact ⟨b.parent, parent?_of_ok h.1 (h.2.1 ▸ h.2.2.1), Or.inl h.2.1⟩
      · obtain ⟨p, hp, hmem⟩ := ih h.2.2.2 hb
        refine ⟨p, hp, Or.inr ?_⟩
        rcases hmem with rfl | hmem
        · exact List.mem_cons_self
        · exact List.mem_cons_of_mem _ hmem

/-- The bags of a climb reach its top. -/
theorem Leads.transGen (h : Leads r above bs start) (hb : b ∈ bs) :
    Relation.TransGen r.Parent b.id above := by
  induction bs generalizing above with
  | nil => cases hb
  | cons b' bs ih =>
      have hup : r.Parent b'.id above := by
        have := parent?_of_ok h.1 (h.2.1 ▸ h.2.2.1)
        rwa [h.2.1] at this
      rcases List.mem_cons.mp hb with rfl | hb
      · exact .single hup
      · exact .tail (ih h.2.2.2 hb) hup

/-- The start of a climb reaches its top. -/
theorem Leads.reaches (h : Leads r above bs start) :
    above = start ∨ Relation.TransGen r.Parent start above := by
  induction bs generalizing above with
  | nil => exact Or.inl h
  | cons b bs ih =>
      have hup := h.transGen (List.mem_cons_self (a := b) (l := bs))
      rcases ih h.2.2.2 with heq | hreach
      · exact Or.inr (heq ▸ hup)
      · exact Or.inr (hreach.trans hup)

/-- The bags of a climb below and above one of them. -/
theorem leads_append_iff {before after : List OwnBag} :
    Leads r above (before ++ b :: after) start ↔
      Leads r above (before ++ [b]) b.id ∧ Leads r b.id after start := by
  induction before generalizing above with
  | nil =>
      simp only [List.nil_append, Leads]
      grind
  | cons b' before ih =>
      simp only [List.cons_append, Leads, ih]
      grind

/-- The bags of a climb that ends where it started are on a cycle. -/
theorem Leads.onCycle (h : Leads r start bs start) (hb : b ∈ bs) : r.OnCycle b.id := by
  obtain ⟨before, after, rfl⟩ := List.append_of_mem hb
  have hup := h.transGen hb
  have hbelow := (leads_append_iff.mp h).2
  rcases hbelow.reaches with heq | hreach
  · rw [← heq] at hup
    exact hup
  · exact hup.trans hreach

/-- An error at the top of a climb off the cycles is the answer at its start. -/
theorem Leads.flat_error (h : Leads r above bs start) (hcycle : ∀ b ∈ bs, ¬ r.OnCycle b.id)
    (herror : r.flat above = .error e) : r.flat start = .error e := by
  induction bs generalizing above with
  | nil =>
      rw [← show above = start from h]
      exact herror
  | cons b bs ih =>
      rw [List.forall_mem_cons] at hcycle
      refine ih h.2.2.2 hcycle.2 ?_
      rw [flat_of_parent h.1 (h.2.1 ▸ h.2.2.1) hcycle.1, h.2.1, herror]
      rfl

/-! ## Remembering bags -/

/-- An answer for a bag, with a cache to go on with. -/
def Answers (r : Resources) (id : ResourceId) (result : Option Bag × BagCache) : Prop :=
  CacheOk r result.2 ∧ ∃ found, result.1 = some found ∧ r.flat id = .ok found

/-- A flat bag may be remembered once its parent is. -/
theorem CacheOk.cons (hok : CacheOk r cache) {bag : Bag} (hflat : r.flat id = .ok bag)
    (hparent : ∀ p, r.parent? id = some p → p ∈ knownIds cache) :
    CacheOk r ((id, bag) :: cache) where
  sound x found h := by
    rcases List.mem_cons.mp h with heq | h
    · cases heq
      exact hflat
    · exact hok.sound x found h
  closed x p hx hp := by
    rcases List.mem_cons.mp hx with rfl | hx
    · exact List.mem_cons_of_mem _ (hparent p hp)
    · exact List.mem_cons_of_mem _ (hok.closed x p hx hp)

/-- What is remembered of the bags that stand alone. -/
theorem settle_eq (alone : List OwnBag) (known : Option Bag) (cache : BagCache) :
    Ancestry.settle alone known cache =
      ((alone.getLast?.map OwnBag.bag).or known,
        (alone.map fun b => (b.id, b.bag)).reverse ++ cache) := by
  induction alone generalizing known cache with
  | nil => rfl
  | cons b rest ih =>
      rw [Ancestry.settle, ih, List.map_cons, List.reverse_cons, List.append_assoc,
        List.getLast?_cons]
      cases rest.getLast? <;> rfl

theorem mem_knownIds_settle {alone : List OwnBag} :
    id ∈ knownIds ((alone.map fun b => (b.id, b.bag)).reverse ++ cache) ↔
      id ∈ alone.map (·.id) ∨ id ∈ knownIds cache := by
  simp [knownIds]

/-- Bags that stand alone may be remembered together, if they contain their parents. -/
theorem CacheOk.settle (hok : CacheOk r cache) (alone : List OwnBag)
    (hflat : ∀ b ∈ alone, r.flat b.id = .ok b.bag)
    (hparent : ∀ b ∈ alone, ∀ p, r.parent? b.id = some p → p ∈ alone.map (·.id)) :
    CacheOk r ((alone.map fun b => (b.id, b.bag)).reverse ++ cache) where
  sound x found h := by
    rcases List.mem_append.mp h with h | h
    · obtain ⟨b, hb, heq⟩ := List.mem_map.mp (List.mem_reverse.mp h)
      cases heq
      exact hflat b hb
    · exact hok.sound x found h
  closed x p hx hp := by
    rw [mem_knownIds_settle] at hx ⊢
    rcases hx with hx | hx
    · obtain ⟨b, hb, rfl⟩ := List.mem_map.mp hx
      exact Or.inl (hparent b hb p hp)
    · exact Or.inr (hok.closed x p hx hp)

/-- Coming down from a known bag, every bag is merged over its flat parent. -/
theorem descend_ok (hok : CacheOk r cache) {top : Bag} (hleads : Leads r above heirs start)
    (hnodup : (heirs.map (·.id)).Nodup) (hfresh : ∀ b ∈ heirs, b.id ∉ knownIds cache)
    (htop : (above, top) ∈ cache) : Answers r start (Ancestry.descend heirs (some top) cache) := by
  induction heirs generalizing above top cache with
  | nil =>
      rw [← show above = start from hleads]
      exact ⟨hok, top, rfl, hok.sound _ _ htop⟩
  | cons b heirs ih =>
      obtain ⟨hown, hparent, hzero, hrest⟩ := hleads
      rw [List.map_cons, List.nodup_cons] at hnodup
      rw [List.forall_mem_cons] at hfresh
      have hne : b.parent ≠ 0 := hparent ▸ hzero
      have hknown : b.parent ∈ knownIds cache :=
        List.mem_map.mpr ⟨_, htop, hparent.symm⟩
      -- the cycle would contain the known parent, and so the bag would be known
      have hcycle : ¬ r.OnCycle b.id := fun h =>
        hfresh.1 (h.mem_of_closed hok.closed (.single (parent?_of_ok hown hne)) hknown)
      have hflat : r.flat b.id = .ok (b.inherit top) := by
        rw [flat_of_parent hown hne hcycle, hparent, hok.sound _ _ htop]
        rfl
      have hok' : CacheOk r ((b.id, b.inherit top) :: cache) := hok.cons hflat fun p hp => by
        rw [parent?_of_ok hown hne, Option.some.injEq] at hp
        exact hp ▸ hknown
      refine ih hok' hrest hnodup.2 ?_ List.mem_cons_self
      intro c hc hmem
      rcases List.mem_cons.mp hmem with heq | hmem
      · exact hnodup.1 (List.mem_map.mpr ⟨c, hc, heq⟩)
      · exact hfresh.2 c hc hmem

/-! ## Climbing -/

/-- There are not more ids than `idCount`. -/
theorem length_le_idCount {ids : List ResourceId} (h : ids.Nodup) : ids.length ≤ idCount := by
  have hnodup : (ids.map UInt32.toNat).Nodup :=
    h.map fun _ _ heq => UInt32.toNat_inj.mp heq
  have hsubset : ids.map UInt32.toNat ⊆ List.range idCount := by
    intro n hn
    obtain ⟨id, _, rfl⟩ := List.mem_map.mp hn
    exact List.mem_range.mpr id.toNat_lt
  have hlength := hnodup.length_le_of_subset hsubset
  rwa [List.length_map, List.length_range] at hlength

/-- A climb that is under way: the bags so far lead to the next id, and neither that id nor
one of the bags was met twice or is known. -/
structure Climbing (r : Resources) (cache : BagCache) (start : ResourceId) (below : List OwnBag)
    (id : ResourceId) : Prop where
  /-- The bags are a climb to the next id. -/
  leads : Leads r id below start
  /-- No id comes twice. -/
  nodup : (id :: below.map (·.id)).Nodup
  /-- No id is known. -/
  fresh : ∀ x ∈ id :: below.map (·.id), x ∉ knownIds cache

variable {below : List OwnBag}

theorem Climbing.fresh_below (h : Climbing r cache start below id) :
    ∀ b ∈ below, b.id ∉ knownIds cache := fun b hb =>
  h.fresh b.id (List.mem_cons_of_mem _ (List.mem_map_of_mem hb))

/-- One step up, to a parent that is neither known nor on the way. -/
theorem Climbing.next (h : Climbing r cache start below id) (hown : r.ownBag id = .ok own)
    (hparent : own.parent ≠ 0) (hnew : ∀ b ∈ own :: below, b.id ≠ own.parent)
    (hunknown : own.parent ∉ knownIds cache) :
    Climbing r cache start (own :: below) own.parent := by
  obtain rfl := id_of_ownBag hown
  refine ⟨⟨hown, rfl, hparent, h.leads⟩, ?_, ?_⟩
  · rw [List.nodup_cons]
    refine ⟨fun hmem => ?_, h.nodup⟩
    obtain ⟨b, hb, heq⟩ := List.mem_map.mp hmem
    exact hnew b hb heq
  · intro x hx
    rcases List.mem_cons.mp hx with rfl | hx
    · exact hunknown
    · exact h.fresh x hx

/-- The end at a bag without a parent. -/
theorem Climbing.answers_root (h : Climbing r cache start below id) (hok : CacheOk r cache)
    (hown : r.ownBag id = .ok own) (hroot : own.parent = 0) :
    Answers r start (Ancestry.flatten ⟨[own], below, none⟩ cache) := by
  obtain rfl := id_of_ownBag hown
  have hok' : CacheOk r ((own.id, own.bag) :: cache) :=
    hok.cons (flat_of_alone hown (Or.inl hroot)) fun p hp => by
      rw [parent?_of_root hown hroot] at hp
      cases hp
  have hnodup := List.nodup_cons.mp h.nodup
  refine descend_ok hok' h.leads hnodup.2 ?_ List.mem_cons_self
  intro b hb hmem
  rcases List.mem_cons.mp hmem with heq | hmem
  · exact hnodup.1 (List.mem_map.mpr ⟨b, hb, heq⟩)
  · exact h.fresh_below b hb hmem

/-- The end at a known bag. -/
theorem Climbing.answers_known (h : Climbing r cache start below id) (hok : CacheOk r cache)
    (hown : r.ownBag id = .ok own) (hparent : own.parent ≠ 0) {known : Bag}
    (hknown : (own.parent, known) ∈ cache) :
    Answers r start (Ancestry.flatten ⟨[], own :: below, some known⟩ cache) := by
  obtain rfl := id_of_ownBag hown
  refine descend_ok hok ⟨hown, rfl, hparent, h.leads⟩ h.nodup ?_ hknown
  intro b hb
  rcases List.mem_cons.mp hb with rfl | hb
  · exact h.fresh _ List.mem_cons_self
  · exact h.fresh_below b hb

/-- The end at a bag of the climb itself. -/
theorem Climbing.answers_cycle (h : Climbing r cache start below id) (hok : CacheOk r cache)
    (hown : r.ownBag id = .ok own) (hparent : own.parent ≠ 0) {before : List OwnBag}
    {last : OwnBag} (hchain : own :: below = before ++ last :: heirs)
    (hlast : last.id = own.parent) :
    Answers r start (Ancestry.flatten ⟨before ++ [last], heirs, none⟩ cache) := by
  obtain rfl := id_of_ownBag hown
  have hleads : Leads r own.parent (own :: below) start := ⟨hown, rfl, hparent, h.leads⟩
  have hnodup : ((own :: below).map (·.id)).Nodup := h.nodup
  have hfresh : ∀ b ∈ own :: below, b.id ∉ knownIds cache := by
    intro b hb
    rcases List.mem_cons.mp hb with rfl | hb
    · exact h.fresh _ List.mem_cons_self
    · exact h.fresh_below b hb
  rw [hchain] at hleads hnodup hfresh
  rw [leads_append_iff, ← hlast] at hleads
  obtain ⟨hcycle, hheirs⟩ := hleads
  have hok' := hok.settle (before ++ [last])
    (fun b hb => flat_of_alone (hcycle.ownBag hb) (Or.inr (hcycle.onCycle hb)))
    fun b hb p hp => by
      obtain ⟨p', hp', hmem⟩ := hcycle.parent? hb
      obtain rfl := Option.some.inj (hp.symm.trans hp')
      rcases hmem with rfl | hmem
      · simp
      · exact hmem
  unfold Ancestry.flatten
  rw [settle_eq]
  simp only [List.getLast?_append, List.getLast?_singleton, Option.some_or, Option.map_some]
  rw [List.map_append, List.nodup_append] at hnodup
  obtain ⟨_, hnodup, hdisjoint⟩ := hnodup
  rw [List.map_cons, List.nodup_cons] at hnodup
  refine descend_ok hok' hheirs hnodup.2 ?_ ?_
  · intro b hb hmem
    have hbmem : b.id ∈ heirs.map (·.id) := List.mem_map_of_mem hb
    rcases mem_knownIds_settle.mp hmem with hmem | hmem
    · rw [List.map_append, List.mem_append, List.map_singleton, List.mem_singleton] at hmem
      rcases hmem with hmem | heq
      · exact hdisjoint _ hmem _ (List.mem_cons_of_mem _ hbmem) rfl
      · exact hnodup.1 (heq ▸ hbmem)
    · exact hfresh b (by simp [hb]) hmem
  · simp

/-- What the search for a parent on the way finds. -/
theorem span_ne_spec {chain before rest : List OwnBag}
    (h : chain.span (·.id != above) = (before, rest)) :
    chain = before ++ rest ∧ (rest = [] → ∀ b ∈ chain, b.id ≠ above) ∧
      ∀ last heirs, rest = last :: heirs → last.id = above := by
  rw [List.span_eq_takeWhile_dropWhile, Prod.mk.injEq] at h
  obtain ⟨rfl, rfl⟩ := h
  refine ⟨List.takeWhile_append_dropWhile.symm, fun hrest b hb => ?_, fun last heirs hrest => ?_⟩
  · simpa using List.dropWhile_eq_nil_iff.mp hrest b hb
  · have hhead := List.head?_dropWhile_not (·.id != above) chain
    rw [hrest] at hhead
    simpa using hhead

/-- A climb ends with the error of its last bag, or well. -/
theorem ascend_spec (hok : CacheOk r cache) (fuel : Nat) (h : Climbing r cache start below id)
    (hfuel : fuel + below.length = idCount) :
    match r.ascend cache fuel below id with
    | .error e => r.flat start = .error e
    | .ok chain => Answers r start (chain.flatten cache) := by
  induction fuel generalizing below id with
  | zero =>
      have hlength := length_le_idCount h.nodup
      rw [List.length_cons, List.length_map] at hlength
      omega
  | succ fuel ih =>
      rw [ascend]
      cases hown : r.ownBag id with
      | error e =>
          -- the bags below are off the cycles, as a cycle would bring an id twice
          have hcycle : ∀ b ∈ below, ¬ r.OnCycle b.id := by
            intro b hb hon
            have hsame : b.id = id := hon.mem_of_closed (P := (· = id))
              (fun x p hx hp => by rw [hx, parent?_of_error hown] at hp; cases hp)
              (h.leads.transGen hb) rfl
            exact (List.nodup_cons.mp h.nodup).1 (List.mem_map.mpr ⟨b, hb, hsame⟩)
          exact h.leads.flat_error hcycle (flat_of_error hown)
      | ok own =>
          simp only
          by_cases hroot : own.parent = 0
          · rw [if_pos hroot]
            exact h.answers_root hok hown hroot
          · rw [if_neg hroot]
            cases hspan : (own :: below).span (·.id != own.parent) with
            | mk before rest =>
                obtain ⟨hchain, hnew, hlast⟩ := span_ne_spec hspan
                cases rest with
                | cons last heirs => exact h.answers_cycle hok hown hroot hchain (hlast _ _ rfl)
                | nil =>
                    simp only
                    cases hknown : cache.lookup own.parent with
                    | some known =>
                        exact h.answers_known hok hown hroot (mem_of_lookup hknown)
                    | none =>
                        refine ih (h.next hown hroot (hnew rfl) (not_known_of_lookup hknown)) ?_
                        rw [List.length_cons]
                        omega

/-- A lookup answers with the flat bag and keeps the cache in order. -/
theorem bag_spec (hok : CacheOk r cache) (id : ResourceId) :
    (r.bag id cache).1 = r.flat id ∧ CacheOk r (r.bag id cache).2 := by
  unfold bag
  cases hknown : cache.lookup id with
  | some known => exact ⟨(hok.sound _ _ (mem_of_lookup hknown)).symm, hok⟩
  | none =>
      have hstart : Climbing r cache id [] id := by
        refine ⟨rfl, by simp, ?_⟩
        intro x hx
        obtain rfl := List.mem_singleton.mp hx
        exact not_known_of_lookup hknown
      have hspec := ascend_spec hok idCount hstart rfl
      cases hascend : r.ascend cache idCount [] id with
      | error e =>
          rw [hascend] at hspec
          exact ⟨hspec.symm, hok⟩
      | ok chain =>
          rw [hascend] at hspec
          obtain ⟨hok', found, hfound, hflat⟩ := hspec
          cases hflatten : chain.flatten cache with
          | mk answer cache' =>
              rw [hflatten] at hok' hfound
              obtain rfl : answer = some found := hfound
              simp only [hflatten]
              exact ⟨hflat.symm, hok'⟩

end Resources

namespace Manager

/-- The answers to a sequence of lookups of bags. -/
def lookupBags (m : Manager) : List ResourceId → List (Except LookupError Bag)
  | [] => []
  | id :: ids => (m.bag id).1 :: (m.bag id).2.lookupBags ids

theorem lookupBags_of_cacheOk {m : Manager} (hok : Resources.CacheOk m.resources m.bags)
    (ids : List ResourceId) : m.lookupBags ids = ids.map m.resources.flat := by
  induction ids generalizing m with
  | nil => rfl
  | cons id ids ih =>
      obtain ⟨hflat, hok'⟩ := Resources.bag_spec hok id
      have hbag : (m.bag id).1 = m.resources.flat id := hflat
      rw [lookupBags, hbag, List.map_cons, ih (m := (m.bag id).2) hok']
      rfl

/-- Whatever is looked up in whatever order, every answer is the flat bag. -/
theorem lookupBags_eq_flat (id : Nat) (r : Resources) (ids : List ResourceId) :
    ({ id := id, resources := r, bags := [] } : Manager).lookupBags ids = ids.map r.flat :=
  lookupBags_of_cacheOk (Resources.cacheOk_nil r) ids

end Manager

end AppResources
