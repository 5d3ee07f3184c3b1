import AppResources.Proofs.BagMerge
import AppResources.Proofs.BagSession

/-!
# Bags that cannot be resolved

A lookup of a bag either resolves the whole chain of parents or fails and remembers nothing. A
key or a value that the libraries of its package do not know makes the bag that holds it fail,
and with it every bag below it whose parents have to be climbed up to there: no entry is left
out. So a bag that is answered holds no id of build time in a value, nor does a known one, which
was answered or climbed before.

Known bags end a climb. After a change of the configuration some of the bags of a chain may be
known and others forgotten, so nothing is assumed of the bags that are known.

## Main definitions

* `LibraryTable.unknownIn?`: the id in an item of a bag that cannot be renumbered.
* `Resources.ClimbsTo`: the bags that a lookup of a bag comes to.

## Main results

* `bag_eq_error_iff`: a lookup fails exactly with the error of a bag that it comes to.
* `bag_again`: a bag that was looked up is answered in the same way again.
* `bag_all_or_nothing`: what a lookup of a bag answers and remembers in any session.
-/

namespace AppResources

/-! ## Items that cannot be renumbered -/

namespace LibraryTable

/-- The id in an item of a bag that cannot be renumbered: its key if it is no ordinal, or else
what its value refers to. -/
def unknownIn? (t : LibraryTable) (item : BagItem) : Option ResourceId :=
  if ResourceId.isOrdinal item.name = false ∧ t.runtimeId? item.name = none then some item.name
  else if t.runtimeValue? item.value = none then some item.value.data
  else none

end LibraryTable

namespace Value

/-- Whether a value is no reference or attribute under an id of build time. -/
def IsSettled (v : Value) : Prop := v.kind ≠ .dynamicReference ∧ v.kind ≠ .dynamicAttribute

instance (v : Value) : Decidable v.IsSettled := by
  unfold IsSettled
  infer_instance

end Value

theorem LibraryTable.isSettled_of_runtimeValue? {t : LibraryTable} {v w : Value}
    (h : t.runtimeValue? v = some w) : w.IsSettled := by
  have hkind : ∀ kind, t.runtimeKind? v.kind = some kind →
      kind = .reference ∨ kind = .attribute := by
    intro kind hkind
    unfold runtimeKind? at hkind
    split at hkind
    · exact .inl (Option.some.inj hkind).symm
    · exact .inr (Option.some.inj hkind).symm
    · split at hkind <;> cases hkind
      exact .inl rfl
    · split at hkind <;> cases hkind
      exact .inr rfl
    · cases hkind
  have hsettled : ∀ kind data, t.runtimeKind? v.kind = some kind →
      Value.IsSettled ⟨kind, data⟩ := by
    intro kind data h
    rcases hkind kind h with rfl | rfl <;> exact ⟨by simp, by simp⟩
  unfold runtimeValue? at h
  split at h
  · next hnone =>
    cases h
    -- a kind of build time is always renumbered
    constructor <;> intro hdynamic <;> rw [hdynamic] at hnone <;> cases hnone
  · next kind hsome =>
    split at h
    · cases h
      exact hsettled kind 0 hsome
    · obtain ⟨id, -, rfl⟩ := Option.map_eq_some_iff.mp h
      exact hsettled kind id hsome

/-- The values of a bag. -/
def Bag.IsSettled (b : Bag) : Prop := ∀ e ∈ b.entries, e.value.IsSettled

namespace Resources

variable {r : Resources} {cache : BagCache} {id above start : ResourceId} {own : OwnBag}
  {e : LookupError} {t : LibraryTable} {style : ResourceId} {cookie : Nat}

/-- An item is refused if an id in it cannot be renumbered, and only then. -/
theorem runtimeItem_spec (t : LibraryTable) (style : ResourceId) (cookie : Nat) (item : BagItem) :
    match t.unknownIn? item with
    | some bad => runtimeItem t style cookie item = .error (.unknownLibrary bad)
    | none => ∃ found, runtimeItem t style cookie item = .ok found := by
  unfold LibraryTable.unknownIn? runtimeItem runtimeKey
  cases hordinal : ResourceId.isOrdinal item.name <;>
    cases hkey : t.runtimeId? item.name <;>
      cases hvalue : t.runtimeValue? item.value <;> simp

/-- The first item that cannot be renumbered makes its bag fail. -/
theorem mapM_runtimeItem {items : List BagItem} {bad : ResourceId}
    (h : items.findSome? t.unknownIn? = some bad) :
    items.mapM (runtimeItem t style cookie) = .error (.unknownLibrary bad) := by
  induction items with
  | nil => cases h
  | cons item items ih =>
      have hitem := runtimeItem_spec t style cookie item
      rw [List.findSome?_cons] at h
      rw [List.mapM_cons]
      cases hunknown : t.unknownIn? item with
      | some found =>
          rw [hunknown] at h hitem
          obtain rfl := Option.some.inj h
          rw [hitem]
          rfl
      | none =>
          rw [hunknown] at h hitem
          obtain ⟨found, hfound⟩ := hitem
          rw [hfound, ih h]
          rfl

theorem ownBag_of_unknown {s : Selection} {key : UInt32} {flags : UInt16} {parent : ResourceId}
    {items : List BagItem} {bad : ResourceId} (hfind : r.find id 0 = .ok s)
    (hentry : s.entry = .bag key flags parent items)
    (hunknown : items.findSome? s.libraries.unknownIn? = some bad) :
    r.ownBag id = .error (.unknownLibrary bad) := by
  unfold ownBag
  rw [hfind]
  dsimp only
  rw [hentry]
  dsimp only
  rw [mapM_runtimeItem hunknown]

/-! ## Climbs that fail -/

/-- The bags that a lookup comes to: the bag itself, and the parent of each bag it comes to, as
far as these are not known. -/
inductive ClimbsTo (r : Resources) (cache : BagCache) : ResourceId → ResourceId → Prop
  | here {id : ResourceId} (hunknown : id ∉ knownIds cache) : ClimbsTo r cache id id
  | up {id parent above : ResourceId} (hunknown : id ∉ knownIds cache)
      (hparent : r.parent? id = some parent) (hup : ClimbsTo r cache parent above) :
      ClimbsTo r cache id above

theorem ClimbsTo.not_known (h : r.ClimbsTo cache id above) : id ∉ knownIds cache := by
  cases h with
  | here hunknown | up hunknown _ _ => exact hunknown

theorem ClimbsTo.mem_of_closed {P : ResourceId → Prop}
    (hP : ∀ x p, P x → r.parent? x = some p → P p) (h : r.ClimbsTo cache id above)
    (hid : P id) : P above := by
  induction h with
  | here _ => exact hid
  | up _ hparent _ ih => exact ih (hP _ _ hid hparent)

/-- Where a climb ends: at a bag without a parent, at one whose parent is on the way, or at one
whose parent is known. -/
def Stops (cache : BagCache) (own : OwnBag) (below : List OwnBag) : Prop :=
  own.parent = 0 ∨ own.parent ∈ (own :: below).map (·.id) ∨ own.parent ∈ knownIds cache

/-- What a climb does at a bag that was read: it ends well or goes on. -/
theorem ascend_of_ok (fuel : Nat) (below : List OwnBag) (hown : r.ownBag id = .ok own) :
    (Stops cache own below ∧ ∃ chain, r.ascend cache (fuel + 1) below id = .ok chain) ∨
      own.parent ≠ 0 ∧ (∀ b ∈ own :: below, b.id ≠ own.parent) ∧ own.parent ∉ knownIds cache ∧
        r.ascend cache (fuel + 1) below id = r.ascend cache fuel (own :: below) own.parent := by
  rw [ascend, hown]
  dsimp only
  by_cases hroot : own.parent = 0
  · rw [if_pos hroot]
    exact .inl ⟨.inl hroot, _, rfl⟩
  · rw [if_neg hroot]
    cases hspan : (own :: below).span (·.id != own.parent) with
    | mk before rest =>
        obtain ⟨hchain, hnew, hlast⟩ := span_ne_spec hspan
        cases rest with
        | cons last heirs =>
            refine .inl ⟨.inr (.inl ?_), _, rfl⟩
            rw [hchain, ← hlast _ _ rfl]
            simp
        | nil =>
            dsimp only
            cases hknown : cache.lookup own.parent with
            | some known =>
                exact .inl ⟨.inr (.inr (List.mem_map_of_mem (mem_of_lookup hknown))), _, rfl⟩
            | none => exact .inr ⟨hroot, hnew rfl, not_known_of_lookup hknown, rfl⟩

/-- A climb that ends comes to no further bag that cannot be read: a bag that is met twice
leads back to bags that were read. -/
theorem Climbing.readable {below : List OwnBag} (hclimb : Climbing r cache start below id)
    (hown : r.ownBag id = .ok own) (hstops : Stops cache own below)
    (hup : r.ClimbsTo cache id above) : r.ownBag above ≠ .error e := by
  obtain rfl := id_of_ownBag hown
  cases hup with
  | here _ =>
      rw [hown]
      simp
  | @up _ parent _ _ hparent hup =>
      by_cases hroot : own.parent = 0
      · cases (parent?_of_root hown hroot).symm.trans hparent
      obtain rfl := Option.some.inj ((parent?_of_ok hown hroot).symm.trans hparent)
      rcases hstops with hzero | hback | hknown
      · exact absurd hzero hroot
      · have hleads : Leads r own.parent (own :: below) start := ⟨hown, rfl, hroot, hclimb.leads⟩
        have hclosed : ∀ x p, x ∈ (own :: below).map (·.id) → r.parent? x = some p →
            p ∈ (own :: below).map (·.id) := by
          intro x p hx hp
          obtain ⟨b, hb, rfl⟩ := List.mem_map.mp hx
          obtain ⟨p', hp', hmem⟩ := hleads.parent? hb
          obtain rfl := Option.some.inj (hp.symm.trans hp')
          rcases hmem with rfl | hmem
          · exact hback
          · exact hmem
        obtain ⟨b, hb, rfl⟩ := List.mem_map.mp (hup.mem_of_closed hclosed hback)
        rw [hleads.ownBag hb]
        simp
      · exact absurd hknown hup.not_known

/-- A climb fails exactly with the error of a bag that it comes to and that cannot be read. -/
theorem ascend_eq_error_iff {below : List OwnBag} {fuel : Nat}
    (hclimb : Climbing r cache start below id) (hfuel : fuel + below.length = idCount) :
    r.ascend cache fuel below id = .error e ↔
      ∃ above, r.ClimbsTo cache id above ∧ r.ownBag above = .error e := by
  induction fuel generalizing below id with
  | zero =>
      have hlength := length_le_idCount hclimb.nodup
      rw [List.length_cons, List.length_map] at hlength
      omega
  | succ fuel ih =>
      have hunknown : id ∉ knownIds cache := hclimb.fresh id List.mem_cons_self
      cases hown : r.ownBag id with
      | error e' =>
          have hascend : r.ascend cache (fuel + 1) below id = .error e' := by rw [ascend, hown]
          rw [hascend]
          constructor
          · intro h
            exact ⟨id, .here hunknown, hown.trans (congrArg _ (Except.error.inj h))⟩
          · rintro ⟨above, hup, herror⟩
            cases hup with
            | here _ => exact congrArg _ (Except.error.inj (hown.symm.trans herror))
            | up _ hparent _ => cases (parent?_of_error hown).symm.trans hparent
      | ok own =>
          rcases ascend_of_ok fuel below hown with
            ⟨hstops, chain, hascend⟩ | ⟨hroot, hnew, hfresh, hascend⟩
          · rw [hascend]
            refine iff_of_false (fun h => by cases h) ?_
            rintro ⟨above, hup, herror⟩
            exact hclimb.readable hown hstops hup herror
          · have hnext := ih (hclimb.next hown hroot hnew hfresh)
              (by rw [List.length_cons]; omega)
            rw [hascend, hnext]
            have hparent := parent?_of_ok hown hroot
            constructor
            · rintro ⟨above, hup, herror⟩
              exact ⟨above, .up hunknown hparent hup, herror⟩
            · rintro ⟨above, hup, herror⟩
              cases hup with
              | here _ => cases hown.symm.trans herror
              | up _ hparent' hup =>
                  obtain rfl := Option.some.inj (hparent.symm.trans hparent')
                  exact ⟨above, hup, herror⟩

/-- The lowest of the bags that inherit is answered, and remembered last. -/
theorem exists_descend {heirs : List OwnBag} {b : OwnBag} (h : heirs.getLast? = some b)
    (top : Option Bag) (cache : BagCache) :
    ∃ found known, Ancestry.descend heirs top cache = (some found, (b.id, found) :: known) := by
  induction heirs generalizing top cache with
  | nil => cases h
  | cons c heirs ih =>
      rw [List.getLast?_cons] at h
      cases hlast : heirs.getLast? with
      | none =>
          obtain rfl := List.getLast?_eq_none_iff.mp hlast
          cases h
          exact ⟨_, _, rfl⟩
      | some d =>
          rw [hlast] at h
          cases h
          exact ih hlast _ _

/-- The lowest bag of a chain is answered, and remembered last. -/
theorem exists_flatten {chain : Ancestry} {b : OwnBag}
    (h : (chain.alone ++ chain.heirs).getLast? = some b) (cache : BagCache) :
    ∃ found known, chain.flatten cache = (some found, (b.id, found) :: known) := by
  unfold Ancestry.flatten
  rw [settle_eq]
  cases hheirs : chain.heirs.getLast? with
  | some c =>
      rw [List.getLast?_append, hheirs] at h
      cases h
      exact exists_descend hheirs _ _
  | none =>
      obtain hnil := List.getLast?_eq_none_iff.mp hheirs
      rw [hnil, List.append_nil] at h
      obtain ⟨before, halone⟩ := List.getLast?_eq_some_iff.mp h
      rw [hnil, halone]
      simp [Ancestry.descend]

/-- A climb ends with the chain of the bag that it started from. -/
theorem getLast?_of_ascend {below : List OwnBag} {fuel : Nat} {chain : Ancestry}
    (h : r.ascend cache fuel below id = .ok chain)
    (hstart : ∀ b : OwnBag, b.id = id → ((b :: below).getLast?.map (·.id)) = some start) :
    ((chain.alone ++ chain.heirs).getLast?.map (·.id)) = some start := by
  induction fuel generalizing below id with
  | zero => cases h
  | succ fuel ih =>
      obtain ⟨own, hown, hchain⟩ := ascend_cases h
      have hlast := hstart own (id_of_ownBag hown)
      rcases hchain with rfl | ⟨before, last, heirs, hsplit, rfl⟩ | ⟨known, -, rfl⟩ | hup
      · exact hlast
      · rw [hsplit] at hlast
        simpa using hlast
      · exact hlast
      · exact ih hup fun b _ => by rwa [List.getLast?_cons_cons]

/-- A lookup of a bag that is not known fails as its climb does and remembers nothing, or it
answers and remembers the answer last. -/
theorem bag_of_not_known (hunknown : cache.lookup id = none) :
    match r.ascend cache idCount [] id with
    | .error e => r.bag id cache = (.error e, cache)
    | .ok _ => ∃ found known, r.bag id cache = (.ok found, (id, found) :: known) := by
  cases hascend : r.ascend cache idCount [] id with
  | error e =>
      dsimp only
      rw [bag, hunknown, hascend]
  | ok chain =>
      have hlast : ((chain.alone ++ chain.heirs).getLast?.map (·.id)) = some id :=
        getLast?_of_ascend hascend fun b hb => congrArg some hb
      obtain ⟨b, hb, rfl⟩ := Option.map_eq_some_iff.mp hlast
      obtain ⟨found, known, hflatten⟩ := exists_flatten hb cache
      refine ⟨found, known, ?_⟩
      rw [bag, hunknown, hascend]
      dsimp only
      rw [hflatten]

/-- A lookup fails exactly with the error of a bag that it comes to and that cannot be read. -/
theorem bag_eq_error_iff : (r.bag id cache).1 = .error e ↔
    ∃ above, r.ClimbsTo cache id above ∧ r.ownBag above = .error e := by
  cases hknown : cache.lookup id with
  | some known =>
      rw [bag, hknown]
      refine iff_of_false (fun h => by cases h) ?_
      rintro ⟨above, hup, -⟩
      exact hup.not_known (List.mem_map_of_mem (mem_of_lookup hknown))
  | none =>
      have hstart : Climbing r cache id [] id := by
        refine ⟨rfl, by simp, ?_⟩
        intro x hx
        obtain rfl := List.mem_singleton.mp hx
        exact not_known_of_lookup hknown
      have hclimb : r.ascend cache idCount [] id = .error e ↔ _ := ascend_eq_error_iff hstart rfl
      have hbag := bag_of_not_known (r := r) hknown
      rw [← hclimb]
      cases hascend : r.ascend cache idCount [] id with
      | error e' =>
          rw [hascend] at hbag
          rw [hbag]
          simp
      | ok chain =>
          rw [hascend] at hbag
          obtain ⟨found, known, hfound⟩ := hbag
          rw [hfound]
          simp

/-- A lookup that fails remembers nothing. -/
theorem cache_of_bag_error (h : (r.bag id cache).1 = .error e) : (r.bag id cache).2 = cache := by
  cases hknown : cache.lookup id with
  | some known => rw [bag, hknown]
  | none =>
      have hbag := bag_of_not_known (r := r) hknown
      split at hbag
      · rw [hbag]
      · obtain ⟨found, known, hfound⟩ := hbag
        cases (congrArg Prod.fst hfound).symm.trans h

/-! ## Bags that are looked up again -/

/-- A bag that was answered is known. -/
theorem lookup_of_bag {found : Bag} (h : (r.bag id cache).1 = .ok found) :
    (r.bag id cache).2.lookup id = some found := by
  cases hknown : cache.lookup id with
  | some known =>
      rw [bag, hknown] at h ⊢
      rw [← Except.ok.inj h]
      exact hknown
  | none =>
      have hbag := bag_of_not_known (r := r) hknown
      split at hbag
      · rw [hbag] at h
        cases h
      · obtain ⟨answer, known, hbag⟩ := hbag
        rw [hbag] at h ⊢
        rw [← Except.ok.inj h]
        exact List.lookup_cons_self

/-- A bag that was looked up is answered in the same way again, and nothing more is
remembered. -/
theorem bag_again (r : Resources) (id : ResourceId) (cache : BagCache) :
    r.bag id (r.bag id cache).2 = r.bag id cache := by
  cases hanswer : (r.bag id cache).1 with
  | error e => rw [cache_of_bag_error hanswer]
  | ok found =>
      rw [bag, lookup_of_bag hanswer]
      exact Prod.ext hanswer.symm rfl

/-! ## Values that are settled -/

/-- An entry of a bag that is read has a settled value. -/
theorem isSettled_of_mapM {items : List BagItem} {entries : List BagEntry}
    (h : items.mapM (runtimeItem t style cookie) = .ok entries) :
    ∀ e ∈ entries, e.value.IsSettled := by
  have hitems := forall₂_of_mapM h
  clear h
  induction hitems with
  | nil => exact fun _ he => absurd he List.not_mem_nil
  | cons hitem _ ih =>
      have hvalue := (of_runtimeItem hitem).2
      exact List.forall_mem_cons.mpr ⟨LibraryTable.isSettled_of_runtimeValue? hvalue, ih⟩

theorem IsOwn.isSettled (h : r.IsOwn own) : own.bag.IsSettled := by
  obtain ⟨s, key, flags, parent, items, entries, -, -, hitems, heq⟩ := exists_of_ownBag h
  rw [heq]
  exact isSettled_of_mapM hitems

theorem IsOwn.isSettled_inherit (h : r.IsOwn own) (parent : Bag) (hparent : parent.IsSettled) :
    (own.inherit parent).IsSettled := by
  intro e he
  rcases Bag.mem_of_mem_merge he with he | he
  · exact h.isSettled e he
  · exact hparent e he

end Resources

/-! ## Sessions -/

namespace Manager

/-- Carries out a call. -/
def perform (m : Manager) : Call → Manager
  | .change change => m.apply change
  | .bag id => (m.bag id).2

/-- The manager after a session. -/
def session (id : Nat) (calls : List Call) : Manager := calls.foldl perform { id := id }

/-- The values of all known bags are settled. -/
def KnowsSettled (m : Manager) : Prop := ∀ e ∈ m.bags, e.2.IsSettled

variable {m : Manager}

/-- A lookup answers with settled values and remembers no others. -/
theorem KnowsSettled.bag (h : m.KnowsSettled) (id : ResourceId) :
    (∀ b, (m.bag id).1 = .ok b → b.IsSettled) ∧ (m.bag id).2.KnowsSettled :=
  Resources.bag_preserves (fun _ hb => hb.isSettled) (fun _ hb => hb.isSettled_inherit) h

theorem KnowsSettled.perform (h : m.KnowsSettled) (call : Call) :
    (m.perform call).KnowsSettled := by
  cases call with
  | bag id => exact (h.bag id).2
  | change change =>
      cases change with
      | assets assets => exact fun _ he => absurd he List.not_mem_nil
      | config config => exact fun e he => h e (List.mem_filter.mp he).1

theorem knowsSettled_session (id : Nat) (calls : List Call) : (session id calls).KnowsSettled := by
  have hrun : ∀ m : Manager, m.KnowsSettled → (calls.foldl Manager.perform m).KnowsSettled := by
    induction calls with
    | nil => exact fun _ h => h
    | cons call calls ih => exact fun m h => ih _ (h.perform call)
  exact hrun _ fun _ he => absurd he List.not_mem_nil

/-- A lookup of a bag resolves the whole chain or nothing. -/
structure AllOrNothing (m : Manager) (resource : ResourceId) : Prop where
  /-- A lookup that fails changes nothing. -/
  failed : ∀ e, (m.bag resource).1 = .error e → (m.bag resource).2 = m
  /-- An answer has no ids of build time in its values. -/
  settled : ∀ b, (m.bag resource).1 = .ok b → b.IsSettled
  /-- An item that cannot be renumbered makes the lookup fail. -/
  unknown : ∀ above s key flags parent items bad,
    m.resources.ClimbsTo m.bags resource above → m.resources.find above 0 = .ok s →
      s.entry = .bag key flags parent items →
        items.findSome? s.libraries.unknownIn? = some bad →
          (m.bag resource).1 = .error (.unknownLibrary bad)

/-- In every session a lookup of a bag is all or nothing. -/
theorem bag_all_or_nothing (id : Nat) (calls : List Call) (resource : ResourceId) :
    (session id calls).AllOrNothing resource where
  failed e h := by
    have hcache : ((session id calls).bag resource).2.bags = (session id calls).bags :=
      Resources.cache_of_bag_error h
    show { session id calls with bags := ((session id calls).bag resource).2.bags } = _
    rw [hcache]
  settled := ((knowsSettled_session id calls).bag resource).1
  unknown _ _ _ _ _ _ _ hup hfind hentry hunknown :=
    Resources.bag_eq_error_iff.mpr ⟨_, hup, Resources.ownBag_of_unknown hfind hentry hunknown⟩

/-- A style under one that names an attribute of a library that nobody knows. -/
def strangeStyles : Asset :=
  .ofVariants ResourceId.appPackage #[.none, .none, .none]
    [(.default, [some (.style 0 [0x01010000, 0x20020000]), some (.style 0x7f010000 [0x01010001]),
      some (.style 0 [0x01010002])])]

/-- The lookup of the lower style fails with the key of the upper one, behind a lookup of another
style, which stays known. -/
theorem bag_all_or_nothing_strange :
    let m := session 0 [.change (.assets [strangeStyles]), .bag 0x7f010002]
    (m.bag 0x7f010001).1 = .error (.unknownLibrary 0x20020000) ∧
      ((m.bag 0x7f010001).2.bags.map (·.1)) = [0x7f010002] := by
  intro m
  have hall : m.AllOrNothing 0x7f010001 := bag_all_or_nothing 0 _ 0x7f010001
  have hclimbs : m.resources.ClimbsTo m.bags 0x7f010001 0x7f010000 :=
    .up (by decide) (by decide) (.here (by decide))
  obtain ⟨s, key, flags, parent, items, hfind, hentry, hunknown⟩ :
      ∃ s key flags parent items, m.resources.find 0x7f010000 0 = .ok s ∧
        s.entry = .bag key flags parent items ∧
          items.findSome? s.libraries.unknownIn? = some 0x20020000 :=
    ⟨_, _, _, _, _, rfl, rfl, by decide⟩
  have hfails : (m.bag 0x7f010001).1 = .error (.unknownLibrary 0x20020000) :=
    hall.unknown _ s key flags parent items _ hclimbs hfind hentry hunknown
  refine ⟨hfails, ?_⟩
  rw [hall.failed _ hfails]
  decide

end Manager

end AppResources
