import AppResources.Proofs.BagOrder
import AppResources.Proofs.RenamedIds

/-!
# Bags of an application that became a library

The entries of bags are merged by walking over both lists in the order of their keys. The
renaming of an application that became a library keeps this order, so the renamed bags are
merged to the renamed bag, whether or not their keys ascend. The same holds for all that is
done with a chain of parents: a parent is found on the way or among the known bags under its
new id as it was under the old one, and the bags that are remembered are the renamed ones.

## Main definitions

* `BagEntry.toLibrary`, `Bag.toLibrary`, `BagCache.toLibrary`: bags with renamed ids.
* `Bag.KeysWithin`, `OwnBag.IsWithin`: what refers to the application and the framework.

## Main results

* `merge_toLibrary`: bags are merged alike.
* `mapM_runtimeItem_toLibrary`: the items of a bag are read alike.
* `flatten_toLibrary`: chains of parents are merged and remembered alike.
-/

namespace AppResources

/-! ## Merging -/

/-- An entry of a bag with renamed ids. -/
def BagEntry.toLibrary (e : BagEntry) : BagEntry where
  key := ResourceId.toLibrary e.key
  value := e.value.toLibrary
  style := ResourceId.toLibrary e.style
  cookie := e.cookie

/-- A bag with renamed ids. -/
def Bag.toLibrary (b : Bag) : Bag := { b with entries := b.entries.map .toLibrary }

/-- A bag as it is written with renamed ids. -/
def OwnBag.toLibrary (b : OwnBag) : OwnBag where
  id := ResourceId.toLibrary b.id
  parent := ResourceId.toLibrary b.parent
  axes := b.axes
  entries := b.entries.map .toLibrary

namespace Bag

variable {entries child parent : List BagEntry} {key : ResourceId}

/-- The keys of entries are those of the application and the framework, or ordinals. -/
def KeysWithin (entries : List BagEntry) : Prop := ∀ e ∈ entries, ResourceId.IsWithin e.key

theorem takeWhile_toLibrary (h : KeysWithin entries) (hkey : ResourceId.IsWithin key) :
    (entries.map BagEntry.toLibrary).takeWhile (·.key < ResourceId.toLibrary key) =
        (entries.takeWhile (·.key < key)).map BagEntry.toLibrary ∧
      (entries.map BagEntry.toLibrary).dropWhile (·.key < ResourceId.toLibrary key) =
        (entries.dropWhile (·.key < key)).map BagEntry.toLibrary := by
  induction entries with
  | nil => exact ⟨rfl, rfl⟩
  | cons e entries ih =>
      obtain ⟨he, hentries⟩ := List.forall_mem_cons.mp h
      obtain ⟨htake, hdrop⟩ := ih hentries
      have hlt : decide (e.toLibrary.key < ResourceId.toLibrary key) = decide (e.key < key) :=
        decide_eq_decide.mpr (ResourceId.toLibrary_lt_iff he hkey)
      rw [List.map_cons, List.takeWhile_cons, List.takeWhile_cons, List.dropWhile_cons,
        List.dropWhile_cons, hlt]
      cases decide (e.key < key) with
      | true => exact ⟨congrArg _ htake, hdrop⟩
      | false => exact ⟨rfl, rfl⟩

theorem withoutKey_toLibrary (h : KeysWithin entries) (hkey : ResourceId.IsWithin key) :
    withoutKey (ResourceId.toLibrary key) (entries.map BagEntry.toLibrary) =
      (withoutKey key entries).map BagEntry.toLibrary := by
  cases entries with
  | nil => rfl
  | cons e entries =>
      have heq : e.toLibrary.key = ResourceId.toLibrary key ↔ e.key = key :=
        ResourceId.toLibrary_inj (h e List.mem_cons_self) hkey
      rw [List.map_cons, withoutKey, withoutKey]
      simp only [heq]
      split <;> rfl

/-- Renamed bags are merged alike. -/
theorem merge_toLibrary (hchild : KeysWithin child) (hparent : KeysWithin parent) :
    merge (child.map BagEntry.toLibrary) (parent.map BagEntry.toLibrary) =
      (merge child parent).map BagEntry.toLibrary := by
  induction child generalizing parent with
  | nil => rfl
  | cons c child ih =>
      obtain ⟨hc, hrest⟩ := List.forall_mem_cons.mp hchild
      obtain ⟨htake, hdrop⟩ := takeWhile_toLibrary hparent hc
      have hbehind : KeysWithin (parent.dropWhile (·.key < c.key)) :=
        fun e he => hparent e ((List.dropWhile_sublist _).subset he)
      have hmerged := ih hrest fun e he => hbehind e ((withoutKey_sublist c.key _).subset he)
      have hkey : c.toLibrary.key = ResourceId.toLibrary c.key := rfl
      rw [List.map_cons, merge_cons, merge_cons, hkey, htake, hdrop,
        withoutKey_toLibrary hbehind hc, hmerged, List.map_append, List.map_cons]

theorem keysWithin_merge (hchild : KeysWithin child) (hparent : KeysWithin parent) :
    KeysWithin (merge child parent) := by
  intro e he
  rcases mem_of_mem_merge he with he | he
  · exact hchild e he
  · exact hparent e he

end Bag

theorem OwnBag.inherit_toLibrary {b : OwnBag} {parent : Bag} (hown : Bag.KeysWithin b.entries)
    (hparent : Bag.KeysWithin parent.entries) :
    b.toLibrary.inherit parent.toLibrary = (b.inherit parent).toLibrary := by
  unfold OwnBag.inherit Bag.extend
  exact congrArg (Bag.mk _) (Bag.merge_toLibrary hown hparent)

/-! ## Bags as they are written -/

namespace Resources

open ResourceId (toLibrary IsNear)

/-- Both tables renumber an item to the same place. -/
theorem runtimeItem_toLibrary {item : BagItem} (hname : ResourceId.IsWithin item.name)
    (hvalue : item.value.RefersWithin) (style : ResourceId) (cookie : Nat) :
    ∃ e, runtimeItem .ofApp style cookie item = .ok e ∧ ResourceId.IsWithin e.key ∧
      runtimeItem .ofLibrary (toLibrary style) cookie item = .ok e.toLibrary := by
  obtain ⟨v, happ, hlibrary⟩ := LibraryTable.runtimeValue?_toLibrary hvalue
  unfold runtimeItem runtimeKey
  rw [happ, hlibrary]
  cases hordinal : ResourceId.isOrdinal item.name with
  | true =>
      refine ⟨⟨item.name, v, style, cookie⟩, rfl, hname, ?_⟩
      rw [BagEntry.toLibrary, ResourceId.toLibrary_of_isOrdinal hordinal]
      rfl
  | false =>
      obtain ⟨key, hkey, hnear, hrenamed⟩ := LibraryTable.runtimeId?_toLibrary hname
      rw [hkey, hrenamed]
      exact ⟨⟨key, v, style, cookie⟩, rfl, .inr hnear, rfl⟩

theorem mapM_runtimeItem_toLibrary {items : List BagItem}
    (h : ∀ item ∈ items, ResourceId.IsWithin item.name ∧ item.value.RefersWithin)
    (style : ResourceId) (cookie : Nat) :
    ∃ entries, items.mapM (runtimeItem .ofApp style cookie) = .ok entries ∧
      Bag.KeysWithin entries ∧ items.mapM (runtimeItem .ofLibrary (toLibrary style) cookie) =
        .ok (entries.map BagEntry.toLibrary) := by
  induction items with
  | nil => exact ⟨[], rfl, fun _ he => absurd he List.not_mem_nil, rfl⟩
  | cons item items ih =>
      obtain ⟨hitem, hitems⟩ := List.forall_mem_cons.mp h
      obtain ⟨e, happ, hkey, hlibrary⟩ := runtimeItem_toLibrary hitem.1 hitem.2 style cookie
      obtain ⟨entries, happs, hkeys, hlibraries⟩ := ih hitems
      refine ⟨e :: entries, ?_, List.forall_mem_cons.mpr ⟨hkey, hkeys⟩, ?_⟩
      · rw [List.mapM_cons, happ, happs]
        rfl
      · rw [List.mapM_cons, hlibrary, hlibraries]
        rfl

/-- Both tables renumber a parent to the same place. -/
theorem runtimeParent_toLibrary {parent : ResourceId} (h : ResourceId.IsWithin parent) :
    (runtimeParent .ofApp parent = 0 ∨ IsNear (runtimeParent .ofApp parent)) ∧
      runtimeParent .ofLibrary parent = toLibrary (runtimeParent .ofApp parent) := by
  unfold runtimeParent
  split
  · exact ⟨.inl rfl, rfl⟩
  · obtain ⟨found, happ, hnear, hlibrary⟩ := LibraryTable.runtimeId?_toLibrary h
    rw [happ, hlibrary]
    exact ⟨.inr hnear, rfl⟩

end Resources

/-! ## Known bags and chains of parents -/

/-- The ids in a bag as it is written are those of the application and the framework. -/
structure OwnBag.IsWithin (b : OwnBag) : Prop where
  id : ResourceId.IsNear b.id
  parent : b.parent = 0 ∨ ResourceId.IsNear b.parent
  keys : Bag.KeysWithin b.entries

/-- Known bags with renamed ids. -/
def BagCache.toLibrary (cache : BagCache) : BagCache :=
  cache.map fun e => (ResourceId.toLibrary e.1, e.2.toLibrary)

/-- The ids in known bags are those of the application and the framework. -/
def BagCache.IsWithin (cache : BagCache) : Prop :=
  ∀ e ∈ cache, ResourceId.IsNear e.1 ∧ Bag.KeysWithin e.2.entries

theorem BagCache.lookup_toLibrary {cache : BagCache} (h : cache.IsWithin) {id : ResourceId}
    (hid : ResourceId.IsNear id) :
    cache.toLibrary.lookup (ResourceId.toLibrary id) = (cache.lookup id).map .toLibrary := by
  induction cache with
  | nil => rfl
  | cons e cache ih =>
      obtain ⟨he, hcache⟩ := List.forall_mem_cons.mp h
      have hsame : (ResourceId.toLibrary id == ResourceId.toLibrary e.1) = (id == e.1) :=
        decide_eq_decide.mpr (ResourceId.toLibrary_inj (.inr hid) (.inr he.1))
      have hrest := ih hcache
      unfold BagCache.toLibrary at hrest ⊢
      obtain ⟨key, bag⟩ := e
      rw [List.map_cons, List.lookup_cons, List.lookup_cons, hsame, hrest]
      cases id == key <;> rfl

namespace Ancestry

/-- A chain of parents with renamed ids. -/
def toLibrary (a : Ancestry) : Ancestry where
  alone := a.alone.map .toLibrary
  heirs := a.heirs.map .toLibrary
  known := a.known.map .toLibrary

/-- The ids in a chain are those of the application and the framework. -/
structure IsWithin (a : Ancestry) : Prop where
  alone : ∀ b ∈ a.alone, b.IsWithin
  heirs : ∀ b ∈ a.heirs, b.IsWithin
  known : ∀ b ∈ a.known, Bag.KeysWithin b.entries

variable {cache : BagCache}

theorem settle_toLibrary (alone : List OwnBag) (known : Option Bag) (cache : BagCache) :
    settle (alone.map .toLibrary) (known.map .toLibrary) cache.toLibrary =
      ((settle alone known cache).1.map .toLibrary, (settle alone known cache).2.toLibrary) := by
  induction alone generalizing known cache with
  | nil => rfl
  | cons b alone ih => exact ih (some b.bag) ((b.id, b.bag) :: cache)

theorem isWithin_settle {alone : List OwnBag} {known : Option Bag}
    (halone : ∀ b ∈ alone, b.IsWithin) (hknown : ∀ b ∈ known, Bag.KeysWithin b.entries)
    (hcache : cache.IsWithin) :
    (∀ b ∈ (settle alone known cache).1, Bag.KeysWithin b.entries) ∧
      (settle alone known cache).2.IsWithin := by
  induction alone generalizing known cache with
  | nil => exact ⟨hknown, hcache⟩
  | cons b alone ih =>
      obtain ⟨hb, hrest⟩ := List.forall_mem_cons.mp halone
      refine ih hrest (fun found hfound => ?_) (List.forall_mem_cons.mpr ⟨⟨hb.id, hb.keys⟩, hcache⟩)
      obtain rfl := Option.mem_some_iff.mp hfound
      exact hb.keys

/-- Coming down, renamed bags are merged and remembered alike. -/
theorem descend_toLibrary {heirs : List OwnBag} {top : Option Bag}
    (hheirs : ∀ b ∈ heirs, b.IsWithin) (htop : ∀ b ∈ top, Bag.KeysWithin b.entries)
    (hcache : cache.IsWithin) :
    descend (heirs.map .toLibrary) (top.map .toLibrary) cache.toLibrary =
        ((descend heirs top cache).1.map .toLibrary, (descend heirs top cache).2.toLibrary) ∧
      (descend heirs top cache).2.IsWithin := by
  induction heirs generalizing top cache with
  | nil => exact ⟨rfl, hcache⟩
  | cons b heirs ih =>
      obtain ⟨hb, hrest⟩ := List.forall_mem_cons.mp hheirs
      have hnext : ∀ merged : Bag, Bag.KeysWithin merged.entries →
          descend (heirs.map .toLibrary) (some merged.toLibrary)
              (BagCache.toLibrary ((b.id, merged) :: cache)) =
            ((descend heirs (some merged) ((b.id, merged) :: cache)).1.map .toLibrary,
              (descend heirs (some merged) ((b.id, merged) :: cache)).2.toLibrary) ∧
            (descend heirs (some merged) ((b.id, merged) :: cache)).2.IsWithin := by
        intro merged hmerged
        have hknown : BagCache.IsWithin ((b.id, merged) :: cache) :=
          List.forall_mem_cons.mpr ⟨⟨hb.id, hmerged⟩, hcache⟩
        refine @ih _ (some merged) hrest (fun found hfound => ?_) hknown
        obtain rfl := Option.mem_some_iff.mp hfound
        exact hmerged
      cases top with
      | none => exact hnext b.bag hb.keys
      | some parent =>
          have hparent := htop parent rfl
          rw [List.map_cons, Option.map_some, descend, OwnBag.inherit_toLibrary hb.keys hparent]
          exact hnext (b.inherit parent) (Bag.keysWithin_merge hb.keys hparent)

/-- Renamed chains are merged and remembered alike. -/
theorem flatten_toLibrary {chain : Ancestry} (h : chain.IsWithin) (hcache : cache.IsWithin) :
    chain.toLibrary.flatten cache.toLibrary =
        ((chain.flatten cache).1.map .toLibrary, (chain.flatten cache).2.toLibrary) ∧
      (chain.flatten cache).2.IsWithin := by
  obtain ⟨htop, hsettled⟩ := isWithin_settle h.alone h.known hcache
  have hflatten := descend_toLibrary h.heirs htop hsettled
  have hsettle := settle_toLibrary chain.alone chain.known cache
  unfold flatten toLibrary
  dsimp only
  rw [hsettle]
  exact hflatten

end Ancestry

/-- A chain of parents comes back to itself at the same place. -/
theorem OwnBag.span_toLibrary {chain : List OwnBag} (h : ∀ b ∈ chain, b.IsWithin)
    {parent : ResourceId} (hparent : ResourceId.IsNear parent) :
    (chain.map OwnBag.toLibrary).span (·.id != ResourceId.toLibrary parent) =
      ((chain.span (·.id != parent)).1.map .toLibrary,
        (chain.span (·.id != parent)).2.map .toLibrary) := by
  rw [List.span_eq_takeWhile_dropWhile, List.span_eq_takeWhile_dropWhile]
  induction chain with
  | nil => rfl
  | cons b chain ih =>
      obtain ⟨hb, hchain⟩ := List.forall_mem_cons.mp h
      have hsame : (b.toLibrary.id != ResourceId.toLibrary parent) = (b.id != parent) :=
        congrArg not (decide_eq_decide.mpr (ResourceId.toLibrary_inj (.inr hb.id) (.inr hparent)))
      obtain ⟨htake, hdrop⟩ := Prod.mk.inj (ih hchain)
      rw [List.map_cons, List.takeWhile_cons, List.takeWhile_cons, List.dropWhile_cons,
        List.dropWhile_cons, hsame, htake, hdrop]
      cases b.id != parent <;> rfl

end AppResources
