import AppResources.Proofs.Indifference
import AppResources.Proofs.TagAlone
import AppResources.Proofs.ThemeStyles

/-!
# The axes of a theme

A theme says along which axes any of its values may vary, and every slot says it of its own
value. The slots learn of the axes of a style one by one, where they take a value, and the theme
learns of them once, also from a style that is not taken to its end. So the theme names the axes
of all its slots (`NamesAll`). Each call on a theme keeps it that way, and the value of an
attribute, which may be found through a chain of attributes, varies along no other axes.

## Main definitions

* `ThemeSession`: a manager and its themes, between two calls.

## Main results

* `NamesAll.apply`, `NamesAll.setTo`, `namesAll_clear`: what each call on a theme keeps.
* `NamesAll.perform`, `NamesAll.run`: what a step of a session keeps, and a whole session.
* `lookup_axes_subset`: what is found in any theme of a session.
-/

namespace AppResources

namespace Theme

variable {t other : Theme} {axes seen all : Axes} {force : Bool} {slots : ThemeSlots}
  {e : BagEntry} {es : List BagEntry} {b : Bag} {r : Resources} {style : ResourceId}
  {cache : BagCache} {found : ThemeSlot}

/-- Whether a set of axes names the axes of all slots. -/
def NamesSlots (all : Axes) (slots : ThemeSlots) : Prop :=
  ∀ id, (slots.slot id).axes.subset all = true

/-- Whether a theme names the axes of all its slots. -/
def NamesAll (t : Theme) : Prop := NamesSlots t.axes t.slots

/-! ## Applying a style -/

/-- A slot that takes a value adds the axes of the style to its own. -/
theorem axes_offer_subset (old : ThemeSlot) (hold : old.axes.subset all = true)
    (haxes : axes.subset all = true) : (offer axes force e old).axes.subset all = true := by
  rw [offer_eq]
  split
  · exact Axes.union_subset hold haxes
  · exact hold

theorem NamesSlots.store (h : NamesSlots all slots) (haxes : axes.subset all = true) :
    NamesSlots all (store axes force e slots) := by
  intro id
  rw [slot_store]
  split
  · exact axes_offer_subset _ (h e.key) haxes
  · exact h id

theorem NamesSlots.foldl_store (h : NamesSlots all slots) (haxes : axes.subset all = true) :
    NamesSlots all (es.foldl (fun slots e => Theme.store axes force e slots) slots) := by
  induction es generalizing slots with
  | nil => exact h
  | cons e es ih => exact ih (h.store haxes)

theorem NamesSlots.mono (h : NamesSlots seen slots) (hall : seen.subset all = true) :
    NamesSlots all slots :=
  fun id => Axes.subset_trans (h id) hall

/-- However far a style is taken, the theme names its axes. -/
theorem NamesAll.applyBag (h : t.NamesAll) : (t.applyBag style b force).1.NamesAll := by
  rw [applyBag_fst]
  refine NamesSlots.foldl_store (h.mono ?_) ?_
  · exact Axes.subset_union_left (Axes.subset_self _)
  · exact Axes.subset_union_right (Axes.subset_self _)

theorem NamesAll.apply (h : t.NamesAll) : (t.apply r style force cache).1.1.NamesAll := by
  unfold Theme.apply
  split
  · exact h.applyBag
  · exact h

/-! ## Other calls on a theme -/

theorem namesAll_of_empty (hempty : t.slots = ByteTable.empty) : t.NamesAll := by
  intro id
  rw [hempty, ThemeSlots.slot_empty]
  exact Axes.none_subset _

theorem namesAll_clear (t : Theme) : t.clear.NamesAll := namesAll_of_empty rfl

/-- A copy takes over the axes with the slots. -/
theorem NamesAll.setTo (hother : other.NamesAll) {changed : Theme}
    (h : t.setTo other = .ok changed) : changed.NamesAll := by
  unfold Theme.setTo at h
  split at h
  · cases h
    exact hother
  · cases h

/-! ## Looking an attribute up -/

/-- The way to a value meets the axes of slots only. -/
theorem NamesAll.lookupFrom (h : t.NamesAll) {steps : Nat} {id : ResourceId}
    (hseen : seen.subset t.axes = true) (hfound : t.lookupFrom steps seen id = .ok found) :
    found.axes.subset t.axes = true := by
  -- what was seen on the way stays among the axes of the theme
  induction steps generalizing seen id with
  | zero =>
      have hhere := Axes.union_subset hseen (h id)
      unfold Theme.lookupFrom at hfound
      dsimp only at hfound
      split at hfound
      · cases hfound
      · split at hfound <;> cases hfound
        exact hhere
  | succ steps ih =>
      have hhere := Axes.union_subset hseen (h id)
      unfold Theme.lookupFrom at hfound
      dsimp only at hfound
      split at hfound
      · exact ih hhere hfound
      · split at hfound <;> cases hfound
        exact hhere

theorem NamesAll.lookup (h : t.NamesAll) {id : ResourceId} (hfound : t.lookup id = .ok found) :
    found.axes.subset t.axes = true :=
  h.lookupFrom (Axes.none_subset _) hfound

end Theme

/-! ## Sessions -/

/-- A call on a manager that has themes, or on one of these. The themes are numbered as they were
made; a call on a theme that is not there does nothing. -/
inductive ThemeCall where
  /-- Makes a theme without styles. -/
  | new
  /-- Applies a style to a theme. -/
  | apply (theme : Nat) (style : ResourceId) (force : Bool)
  /-- Makes a theme a copy of another one. -/
  | setTo (theme other : Nat)
  /-- Takes all styles from a theme. -/
  | clear (theme : Nat)
  /-- Looks a bag up, which the manager then knows. -/
  | bag (id : ResourceId)

/-- A manager and its themes. As long as there are themes it keeps its assets and its
configuration. -/
structure ThemeSession where
  /-- The manager. -/
  manager : Manager
  /-- Its themes. -/
  themes : List Theme := []

namespace ThemeSession

/-- Carries out a call. -/
def perform (s : ThemeSession) : ThemeCall → ThemeSession
  | .new => { s with themes := s.themes ++ [s.manager.newTheme] }
  | .apply i style force =>
    match s.themes[i]? with
    | none => s
    | some t =>
      let ((changed, _), bags) := t.apply s.manager.resources style force s.manager.bags
      { manager := { s.manager with bags := bags }, themes := s.themes.set i changed }
  | .setTo i j =>
    match s.themes[i]?, s.themes[j]? with
    | some t, some other =>
      match t.setTo other with
      | .ok changed => { s with themes := s.themes.set i changed }
      | .error _ => s
    | _, _ => s
  | .clear i => { s with themes := s.themes.modify i Theme.clear }
  | .bag id => { s with manager := (s.manager.bag id).2 }

/-- Carries out calls one after the other. -/
def run (s : ThemeSession) (calls : List ThemeCall) : ThemeSession := calls.foldl perform s

/-- Whether all themes name the axes of their slots. -/
def NamesAll (s : ThemeSession) : Prop := ∀ t ∈ s.themes, t.NamesAll

variable {s : ThemeSession}

theorem NamesAll.set (h : s.NamesAll) {t : Theme} (ht : t.NamesAll) (i : Nat) :
    ∀ t' ∈ s.themes.set i t, t'.NamesAll := by
  intro t' ht'
  rcases List.mem_or_eq_of_mem_set ht' with hmem | rfl
  · exact h t' hmem
  · exact ht

/-- One call. -/
theorem NamesAll.perform (h : s.NamesAll) (call : ThemeCall) : (s.perform call).NamesAll := by
  cases call with
  | new =>
      intro t ht
      rcases List.mem_append.mp ht with hmem | hnew
      · exact h t hmem
      · rw [List.mem_singleton.mp hnew]
        exact Theme.namesAll_of_empty rfl
  | apply i style force =>
      unfold ThemeSession.perform
      dsimp only
      split
      · exact h
      · next t ht => exact h.set (h t (List.mem_of_getElem? ht)).apply i
  | setTo i j =>
      unfold ThemeSession.perform
      dsimp only
      split
      · next t other _ hother =>
        split
        · next changed hchanged =>
          exact h.set ((h other (List.mem_of_getElem? hother)).setTo hchanged) i
        · exact h
      · exact h
  | clear i =>
      intro t ht
      obtain ⟨j, hj⟩ := List.mem_iff_getElem?.mp ht
      unfold ThemeSession.perform at hj
      dsimp only at hj
      rw [List.getElem?_modify] at hj
      obtain ⟨old, hold, rfl⟩ := Option.map_eq_some_iff.mp hj
      split
      · exact Theme.namesAll_clear old
      · exact h old (List.mem_of_getElem? hold)
  | bag id => exact h

/-- All calls of a session. -/
theorem NamesAll.run (h : s.NamesAll) (calls : List ThemeCall) : (s.run calls).NamesAll := by
  induction calls generalizing s with
  | nil => exact h
  | cons call calls ih => exact ih (h.perform call)

/-- Whatever was called on the themes of a manager, the value of an attribute varies along axes
that its theme names. -/
theorem lookup_axes_subset (m : Manager) (calls : List ThemeCall) {t : Theme}
    (ht : t ∈ (run { manager := m } calls).themes) {id : ResourceId} {found : ThemeSlot}
    (hfound : t.lookup id = .ok found) : found.axes.subset t.axes = true := by
  have hstart : NamesAll { manager := m } := fun _ hmem => absurd hmem List.not_mem_nil
  exact (hstart.run calls t ht).lookup hfound

/-- A manager with three styles, each of which varies along an axis of its own. The last one has a
key without a type in front of an attribute. -/
def varyingStyles : Manager :=
  .fresh 0 [.ofVariants ResourceId.appPackage #[.orientation, .density, .locale]
    [(.default, [
      some (.bag 0 0 0 [⟨0x01010000, ⟨.attribute, 0x01010001⟩⟩]),
      some (.bag 0 0 0 [⟨0x01010001, ⟨.decimal, 1⟩⟩]),
      some (.bag 0 0 0 [⟨0x01000007, ⟨.decimal, 2⟩⟩, ⟨0x01010002, ⟨.attribute, 0x01010000⟩⟩])])]]
    .default

/-- The styles are applied to one theme, the last one as far as it goes, and a style that is not
there. Another theme becomes a copy of it before it is cleared. -/
def copiedTheme : List ThemeCall :=
  [.new, .new, .apply 0 0x7f010000 false, .apply 0 0x7f010001 true, .apply 0 0x7f010002 false,
    .apply 0 0x7f010003 true, .setTo 1 0, .clear 0]

/-- In the copy a value is found through two attributes, with the axes of all three styles. -/
theorem lookup_axes_subset_copied :
    ∃ t found, t ∈ (run { manager := varyingStyles } copiedTheme).themes ∧
      t.lookup 0x01010002 = .ok found ∧
      found = ⟨some 0, (Axes.locale.union .orientation).union .density, ⟨.decimal, 1⟩⟩ ∧
      found.axes.subset t.axes = true := by
  have hlast : (run { manager := varyingStyles } copiedTheme).themes.getLast?.map
      (·.lookup 0x01010002) =
        some (.ok ⟨some 0, (Axes.locale.union .orientation).union .density, ⟨.decimal, 1⟩⟩) := by
    decide +kernel
  obtain ⟨t, ht, hfound⟩ := Option.map_eq_some_iff.mp hlast
  have hmem := List.mem_of_getLast? ht
  exact ⟨t, _, hmem, hfound, rfl, lookup_axes_subset varyingStyles copiedTheme hmem hfound⟩

end ThemeSession

end AppResources
