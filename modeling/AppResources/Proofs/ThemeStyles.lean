import AppResources.Proofs.BagMerge
import AppResources.Proofs.BagSession
import AppResources.Theme

/-!
# What a style leaves in a theme

A theme takes the values of a style from the greatest key to the least. It stops at the first
key that names no attribute, and what it took before stays. So of a style with ascending keys
the values above its greatest key without a package or a type count, each for its own slot,
and no other slot of the theme changes.

## Main definitions

* `Bag.HaltsAt`: whether a key is the one that stops a style.

## Main results

* `mem_reached_iff`, `halt_eq_some_iff`: which values of a style are taken.
* `slot_foldl_store`, `slot_foldl_store_of_forall_ne`: what taking some values changes.
* `slot_apply`: the theme after a style was applied to it.
-/

namespace AppResources

/-- Whether a key is the greatest one of a bag that has no package or no type. -/
def Bag.HaltsAt (b : Bag) (bad : ResourceId) : Prop :=
  bad ∈ b.entries.map (·.key) ∧ (ResourceId.package bad = 0 ∨ ResourceId.type bad = 0) ∧
    ∀ e ∈ b.entries, ResourceId.package e.key = 0 ∨ ResourceId.type e.key = 0 → e.key ≤ bad

instance (b : Bag) (bad : ResourceId) : Decidable (b.HaltsAt bad) := by
  unfold Bag.HaltsAt
  infer_instance

namespace Theme

variable {axes : Axes} {force : Bool} {slots : ThemeSlots} {es : List BagEntry} {e : BagEntry}
  {b : Bag} {k bad : ResourceId}

theorem isAttribute_eq_false_iff :
    isAttribute k = false ↔ ResourceId.package k = 0 ∨ ResourceId.type k = 0 := by
  by_cases hpackage : ResourceId.package k = 0 <;> by_cases htype : ResourceId.type k = 0 <;>
    simp [isAttribute, ResourceId.isValid, hpackage, htype]

/-! ## Values in order -/

/-- Whether a value of a style has a key that names an attribute. -/
def isReachable (e : BagEntry) : Bool := isAttribute e.key

/-- The values of a style that are taken, and the key behind them. -/
theorem storeAll_eq (slots : ThemeSlots) :
    storeAll axes force es slots =
      ((es.takeWhile isReachable).foldl (fun slots e => store axes force e slots) slots,
        (es.dropWhile isReachable).head?.map (·.key)) := by
  induction es generalizing slots with
  | nil => rfl
  | cons e es ih =>
      by_cases he : isAttribute e.key = true
      · simp [storeAll, isReachable, he, ih]
      · simp [storeAll, isReachable, he]

/-- One value changes the slot of its key only. -/
theorem slot_store (slots : ThemeSlots) :
    (store axes force e slots).slot k =
      if k = e.key then offer axes force e (slots.slot e.key) else slots.slot k :=
  ThemeSlots.slot_modify ..

/-- Values under other keys leave a slot alone. -/
theorem slot_foldl_store_of_forall_ne (h : ∀ e ∈ es, e.key ≠ k) (slots : ThemeSlots) :
    (es.foldl (fun slots e => store axes force e slots) slots).slot k = slots.slot k := by
  induction es generalizing slots with
  | nil => rfl
  | cons e es ih =>
      rw [List.forall_mem_cons] at h
      have hkey : ¬ k = e.key := fun hk => h.1 hk.symm
      rw [List.foldl_cons, ih h.2, slot_store, if_neg hkey]

/-- Of values under different keys each is offered to the slot of its key. -/
theorem slot_foldl_store (hkeys : es.Pairwise (fun x y => x.key ≠ y.key)) (he : e ∈ es)
    (slots : ThemeSlots) :
    (es.foldl (fun slots e => store axes force e slots) slots).slot e.key =
      offer axes force e (slots.slot e.key) := by
  induction es generalizing slots with
  | nil => exact absurd he List.not_mem_nil
  | cons x es ih =>
      rw [List.pairwise_cons] at hkeys
      rw [List.foldl_cons]
      rcases List.mem_cons.mp he with rfl | he
      · have hlater : ∀ y ∈ es, y.key ≠ e.key := fun y hy => (hkeys.1 y hy).symm
        rw [slot_foldl_store_of_forall_ne hlater, slot_store, if_pos rfl]
      · have hkey : ¬ e.key = x.key := fun hk => hkeys.1 e he hk.symm
        rw [ih hkeys.2 he, slot_store, if_neg hkey]

/-! ## Where a style stops -/

/-- A style stops at one key at most. -/
theorem eq_of_haltsAt {other : ResourceId} (h : b.HaltsAt bad) (hother : b.HaltsAt other) :
    bad = other := by
  obtain ⟨hmem, hbad, hgreatest⟩ := h
  obtain ⟨hmem', hbad', hgreatest'⟩ := hother
  obtain ⟨e, he, rfl⟩ := List.mem_map.mp hmem
  obtain ⟨e', he', rfl⟩ := List.mem_map.mp hmem'
  exact UInt32.le_antisymm (hgreatest' e he hbad) (hgreatest e' he' hbad')

/-- From the last key to the first the keys of a style descend. -/
theorem descends_reverse (h : Bag.Ascends b.entries) :
    b.entries.reverse.Pairwise fun x y => y.key < x.key := by
  unfold Bag.Ascends at h
  rw [List.pairwise_map] at h
  exact List.pairwise_reverse.mpr h

/-- What lies before and behind the key at which a style stops. -/
theorem haltsAt_of_dropWhile (h : Bag.Ascends b.entries) {x : BagEntry} {rest : List BagEntry}
    (hrest : b.entries.reverse.dropWhile isReachable = x :: rest) :
    b.HaltsAt x.key ∧ (∀ e ∈ b.entries.reverse.takeWhile isReachable, x.key < e.key) ∧
      ∀ e ∈ x :: rest, e.key ≤ x.key := by
  have hdescends := descends_reverse h
  have hsplit : b.entries.reverse = b.entries.reverse.takeWhile isReachable ++ x :: rest := by
    rw [← hrest, List.takeWhile_append_dropWhile]
  rw [hsplit, List.pairwise_append, List.pairwise_cons] at hdescends
  obtain ⟨-, ⟨hbelow, -⟩, habove⟩ := hdescends
  have hle : ∀ e ∈ x :: rest, e.key ≤ x.key := by
    intro e he
    rcases List.mem_cons.mp he with rfl | he
    · exact UInt32.le_refl _
    · exact UInt32.le_of_lt (hbelow e he)
  have hbad : isAttribute x.key = false := by
    have hhead := List.head?_dropWhile_not isReachable b.entries.reverse
    rw [hrest] at hhead
    exact hhead
  have hx : x ∈ b.entries := by
    rw [← List.mem_reverse, hsplit]
    simp
  refine ⟨⟨List.mem_map_of_mem hx, isAttribute_eq_false_iff.mp hbad, ?_⟩, ?_, hle⟩
  · intro e he hnone
    rw [← List.mem_reverse, hsplit] at he
    rcases List.mem_append.mp he with he | he
    · have hreachable : isReachable e = true := List.mem_takeWhile_imp he
      rw [isReachable, isAttribute_eq_false_iff.mpr hnone] at hreachable
      cases hreachable
    · exact hle e he
  · intro e he
    exact habove e he x List.mem_cons_self

/-- The key behind the values that are taken is the one that stops the style. -/
theorem halt_eq_some_iff (h : Bag.Ascends b.entries) :
    (b.entries.reverse.dropWhile isReachable).head?.map (·.key) = some bad ↔ b.HaltsAt bad := by
  cases hrest : b.entries.reverse.dropWhile isReachable with
  | nil =>
      have hall : ∀ e ∈ b.entries, isAttribute e.key = true := by
        simpa [isReachable] using hrest
      constructor
      · simp
      · rintro ⟨hmem, hbad, -⟩
        obtain ⟨e, he, rfl⟩ := List.mem_map.mp hmem
        rw [← isAttribute_eq_false_iff, hall e he] at hbad
        cases hbad
  | cons x rest =>
      have hx := (haltsAt_of_dropWhile h hrest).1
      constructor
      · intro hhead
        obtain rfl : x.key = bad := by simpa using hhead
        exact hx
      · intro hbad
        simp [eq_of_haltsAt hbad hx]

/-- The values that are taken are those above the key that stops the style. -/
theorem mem_reached_iff (h : Bag.Ascends b.entries) :
    e ∈ b.entries.reverse.takeWhile isReachable ↔
      e ∈ b.entries ∧ ∀ bad, b.HaltsAt bad → bad < e.key := by
  have hsplit := List.takeWhile_append_dropWhile (p := isReachable) (l := b.entries.reverse)
  cases hrest : b.entries.reverse.dropWhile isReachable with
  | nil =>
      rw [hrest, List.append_nil] at hsplit
      rw [hsplit, List.mem_reverse]
      refine ⟨fun he => ⟨he, fun bad hbad => ?_⟩, And.left⟩
      rw [← halt_eq_some_iff h, hrest] at hbad
      cases hbad
  | cons x rest =>
      obtain ⟨hx, habove, hbelow⟩ := haltsAt_of_dropWhile h hrest
      constructor
      · intro he
        refine ⟨?_, fun bad hbad => ?_⟩
        · rw [← List.mem_reverse, ← hsplit]
          exact List.mem_append_left _ he
        · rw [eq_of_haltsAt hbad hx]
          exact habove e he
      · rintro ⟨he, hall⟩
        rw [← List.mem_reverse, ← hsplit, hrest] at he
        rcases List.mem_append.mp he with he | he
        · exact he
        · exact absurd (hall x.key hx) (UInt32.not_lt.mpr (hbelow e he))

/-! ## Applying a style -/

/-- Whether a style gives its value for a key to the theme: the style does not stop before,
and the slot is undefined or the style is forced. -/
def Takes (t : Theme) (b : Bag) (force : Bool) (e : BagEntry) : Prop :=
  e ∈ b.entries ∧ (∀ bad, b.HaltsAt bad → bad < e.key) ∧
    (force = true ∨ (t.slot e.key).value.isUndefined = true)

variable {t : Theme} {style : ResourceId}

theorem offer_eq (old : ThemeSlot) :
    offer axes force e old =
      if force = true ∨ old.value.isUndefined = true then
        ⟨some e.cookie, old.axes.union axes, e.value⟩
      else old := by
  simp [offer]

/-- The theme with a style. -/
theorem applyBag_fst : (t.applyBag style b force).1 =
    { t with
      axes := t.axes.union b.axes
      slots := (b.entries.reverse.takeWhile isReachable).foldl
        (fun slots e => store b.axes force e slots) t.slots } := by
  unfold applyBag
  rw [storeAll_eq]
  cases (b.entries.reverse.dropWhile isReachable).head? <;> rfl

/-- The outcome of applying a style. -/
theorem applyBag_snd : (t.applyBag style b force).2 =
    match (b.entries.reverse.dropWhile isReachable).head?.map (·.key) with
    | some bad => .error (.invalidKey style bad)
    | none => .ok () := by
  unfold applyBag
  rw [storeAll_eq]
  cases (b.entries.reverse.dropWhile isReachable).head? <;> rfl

/-- Applying a style fails with the key that stops it. -/
theorem applyBag_eq_error_iff (h : Bag.Ascends b.entries) :
    (t.applyBag style b force).2 = .error (.invalidKey style bad) ↔ b.HaltsAt bad := by
  rw [applyBag_snd, ← halt_eq_some_iff h]
  cases (b.entries.reverse.dropWhile isReachable).head? <;> simp

/-- Applying a style succeeds if no key stops it. -/
theorem applyBag_eq_ok_iff (h : Bag.Ascends b.entries) :
    (t.applyBag style b force).2 = .ok () ↔ ∀ bad, ¬ b.HaltsAt bad := by
  rw [applyBag_snd]
  simp only [← halt_eq_some_iff h]
  cases (b.entries.reverse.dropWhile isReachable).head? <;> simp

/-- A value that is taken is offered to the slot of its key, and to no other. -/
theorem slot_applyBag_eq_offer (h : Bag.Ascends b.entries)
    (he : e ∈ b.entries.reverse.takeWhile isReachable) :
    (t.applyBag style b force).1.slot e.key = offer b.axes force e (t.slot e.key) := by
  have hkeys : (b.entries.reverse.takeWhile isReachable).Pairwise fun x y => x.key ≠ y.key := by
    refine (List.Pairwise.sublist (List.takeWhile_sublist _) (descends_reverse h)).imp ?_
    intro x y hlt heq
    exact UInt32.lt_irrefl _ (heq ▸ hlt)
  rw [applyBag_fst]
  exact slot_foldl_store hkeys he t.slots

/-- The slot of a value that the style gives. -/
theorem slot_applyBag (h : Bag.Ascends b.entries) (htakes : t.Takes b force e) :
    (t.applyBag style b force).1.slot e.key =
      ⟨some e.cookie, (t.slot e.key).axes.union b.axes, e.value⟩ := by
  obtain ⟨he, habove, hwanted⟩ := htakes
  rw [slot_applyBag_eq_offer h ((mem_reached_iff h).mpr ⟨he, habove⟩), offer_eq, if_pos hwanted]

/-- All other slots stay as they were. -/
theorem slot_applyBag_of_forall_ne (h : Bag.Ascends b.entries)
    (hk : ∀ e, t.Takes b force e → e.key ≠ k) :
    (t.applyBag style b force).1.slot k = t.slot k := by
  by_cases hmem : ∃ e ∈ b.entries.reverse.takeWhile isReachable, e.key = k
  · -- the value was offered, but the slot did not take it
    obtain ⟨e, he, rfl⟩ := hmem
    have hwanted : ¬ (force = true ∨ (t.slot e.key).value.isUndefined = true) := by
      intro hwanted
      obtain ⟨hentry, habove⟩ := (mem_reached_iff h).mp he
      exact hk e ⟨hentry, habove, hwanted⟩ rfl
    rw [slot_applyBag_eq_offer h he, offer_eq, if_neg hwanted]
  · have hne : ∀ e ∈ b.entries.reverse.takeWhile isReachable, e.key ≠ k := by
      intro e he heq
      exact hmem ⟨e, he, heq⟩
    rw [applyBag_fst]
    exact slot_foldl_store_of_forall_ne hne t.slots

/-- A theme takes from a style with ascending keys the values above the key that stops it,
each into its own slot and only where the slot is undefined or the style is forced. Nothing
else changes, and nothing at all if there is no such style. -/
theorem slot_apply (t : Theme) (r : Resources) (style : ResourceId) (force : Bool)
    (cache : BagCache) :
    (∀ e, (r.bag style cache).1 = .error e →
      (t.apply r style force cache).1 = (t, .error (.style style e))) ∧
    ∀ b, (r.bag style cache).1 = .ok b → Bag.Ascends b.entries →
      (∀ bad, (t.apply r style force cache).1.2 = .error (.invalidKey style bad) ↔
        b.HaltsAt bad) ∧
      ((t.apply r style force cache).1.2 = .ok () ↔ ∀ bad, ¬ b.HaltsAt bad) ∧
      (∀ e, t.Takes b force e → (t.apply r style force cache).1.1.slot e.key =
        ⟨some e.cookie, (t.slot e.key).axes.union b.axes, e.value⟩) ∧
      ∀ k, (∀ e, t.Takes b force e → e.key ≠ k) →
        (t.apply r style force cache).1.1.slot k = t.slot k := by
  unfold apply
  cases hbag : r.bag style cache with
  | mk found known =>
      cases found with
      | error e =>
          constructor
          · intro e' he
            obtain rfl := Except.error.inj he
            rfl
          · intro b hb
            cases hb
      | ok b =>
          constructor
          · intro e he
            cases he
          · intro b' hb h
            obtain rfl := Except.ok.inj hb
            exact ⟨fun _ => applyBag_eq_error_iff h, applyBag_eq_ok_iff h,
              fun _ => slot_applyBag h, fun _ => slot_applyBag_of_forall_ne h⟩

/-- Resources with one style, whose keys are an ordinal, an id without a type and two
attributes of the framework. -/
def haltingStyle : Resources :=
  (Manager.fresh 0 [.ofVariants ResourceId.appPackage #[.none]
    [(.default, [some (.style 0 [0x00000005, 0x01000007, 0x01010000, 0x01010001])])]]
    .default).resources

/-- The bag of that style. -/
def haltingBag : Bag where
  entries := [0x00000005, 0x01000007, 0x01010000, 0x01010001].map fun key =>
    ⟨key, ⟨.decimal, 0⟩, 0x7f010000, 0⟩

/-- A theme in which the second attribute has a value. -/
def withValue : Theme where
  owner := 0
  slots := store .none false ⟨0x01010001, ⟨.decimal, 9⟩, 0x7f010009, 3⟩ ByteTable.empty

/-- The style gives its value for the first attribute, and stops at the id without a type.
A style that does not exist gives nothing. -/
theorem slot_apply_halting :
    ((haltingStyle.bag 0x7f010000 []).1 = .ok haltingBag ∧ Bag.Ascends haltingBag.entries ∧
      (withValue.apply haltingStyle 0x7f010000 false []).1.2 =
        .error (.invalidKey 0x7f010000 0x01000007) ∧
      (withValue.apply haltingStyle 0x7f010000 false []).1.1.slot 0x01010000 =
        ⟨some 0, .none, ⟨.decimal, 0⟩⟩ ∧
      (withValue.apply haltingStyle 0x7f010000 false []).1.1.slot 0x01010001 =
        ⟨some 3, .none, ⟨.decimal, 9⟩⟩) ∧
    (haltingStyle.bag 0x7f010001 []).1 = .error (.notFound 0x7f010001) ∧
      (withValue.apply haltingStyle 0x7f010001 true []).1 =
        (withValue, .error (.style 0x7f010001 (.notFound 0x7f010001))) := by
  have hbag : (haltingStyle.bag 0x7f010000 []).1 = .ok haltingBag := by rfl
  have hascends : Bag.Ascends haltingBag.entries := by decide
  have hhalts : haltingBag.HaltsAt 0x01000007 := by decide
  have hnone : (haltingStyle.bag 0x7f010001 []).1 = .error (.notFound 0x7f010001) := by rfl
  obtain ⟨herror, -, htakes, hkeeps⟩ :=
    (slot_apply withValue haltingStyle 0x7f010000 false []).2 haltingBag hbag hascends
  refine ⟨⟨hbag, hascends, (herror _).mpr hhalts, ?_, ?_⟩, hnone,
    (slot_apply withValue haltingStyle 0x7f010001 true []).1 _ hnone⟩
  · refine htakes ⟨0x01010000, ⟨.decimal, 0⟩, 0x7f010000, 0⟩ ⟨by decide, ?_, by decide⟩
    intro bad hbad
    rw [eq_of_haltsAt hbad hhalts]
    decide
  · refine (hkeeps 0x01010001 ?_).trans (by decide)
    rintro e ⟨-, -, hwanted⟩ heq
    rw [heq] at hwanted
    revert hwanted
    decide

end Theme

end AppResources
