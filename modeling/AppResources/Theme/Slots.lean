import AppResources.Config.Axis
import AppResources.ResourceId
import AppResources.Value

/-!
# Slots of a theme

A theme keeps the values of attributes in tables that grow as it is written to: one of
packages, in each package one of types, and in each type an array of slots by entry. What
was never written is missing at one of the three levels, or is a slot that was only made to
reach a greater entry. Both read as undefined.

## Main definitions

* `ThemeSlots.slot`: the slot of an attribute.
* `ThemeSlots.modify`: changes one slot, and makes what is missing on the way to it.

## Main results

* `ThemeSlots.slot_modify`: a change of one slot is seen there and nowhere else.
-/

namespace AppResources

/-- A table with at most one value for every byte. -/
abbrev ByteTable (α : Type) := Vector (Option α) 256

namespace ByteTable

variable {α : Type}

/-- The table without any value. -/
def empty : ByteTable α := Vector.replicate 256 none

/-- The value for a byte. -/
def find? (t : ByteTable α) (b : UInt8) : Option α := t[b.toNat]?.join

/-- Changes the value for a byte; a missing value is made first. -/
def update (t : ByteTable α) (b : UInt8) (fresh : α) (f : α → α) : ByteTable α :=
  t.set b.toNat (some (f ((t.find? b).getD fresh))) b.toNat_lt

@[simp] theorem find?_empty (b : UInt8) : (empty : ByteTable α).find? b = none := by
  simp [find?, empty, b.toNat_lt]

/-- A change of one value leaves the others alone. -/
theorem find?_update (t : ByteTable α) (b c : UInt8) (fresh : α) (f : α → α) :
    (t.update b fresh f).find? c =
      if c = b then some (f ((t.find? b).getD fresh)) else t.find? c := by
  by_cases hc : c = b
  · subst hc
    simp [find?, update, c.toNat_lt]
  · have hne : ¬ b.toNat = c.toNat := by
      intro h
      exact hc (UInt8.toNat_inj.mp h.symm)
    simp [find?, update, hc, hne]

end ByteTable

/-- What a theme holds for an attribute. -/
structure ThemeSlot where
  /-- The asset that the value comes from. -/
  cookie : Option Nat := none
  /-- The axes along which the value varies. -/
  axes : Axes := .none
  /-- The value. -/
  value : Value := .undefined
  deriving DecidableEq

namespace ThemeSlot

/-- The slots of a type, with undefined ones up to an entry. -/
def grow (slots : Array ThemeSlot) (entry : Nat) : Array ThemeSlot :=
  slots ++ Array.replicate (entry + 1 - slots.size) ({} : ThemeSlot)

/-- Changes the slot of an entry, which is made first if there is none. -/
def modifyAt (slots : Array ThemeSlot) (entry : Nat) (f : ThemeSlot → ThemeSlot) :
    Array ThemeSlot :=
  (grow slots entry).modify entry f

/-- New slots are undefined. -/
theorem getD_grow (slots : Array ThemeSlot) (entry i : Nat) :
    ((grow slots entry)[i]?).getD {} = (slots[i]?).getD {} := by
  by_cases hi : i < slots.size
  · simp [grow, Array.getElem?_append, hi]
  · simp only [grow, Array.getElem?_append, hi, if_false, Array.getElem?_replicate,
      Array.getElem?_eq_none (Nat.le_of_not_lt hi), Option.getD_none]
    split <;> rfl

theorem getD_modifyAt (slots : Array ThemeSlot) (entry i : Nat) (f : ThemeSlot → ThemeSlot) :
    ((modifyAt slots entry f)[i]?).getD {} =
      if i = entry then f ((slots[entry]?).getD {}) else (slots[i]?).getD {} := by
  by_cases hi : i = entry
  · subst hi
    have hsize : i < (grow slots i).size := by
      simp only [grow, Array.size_append, Array.size_replicate]
      omega
    have hgrown := getD_grow slots i i
    rw [Array.getElem?_eq_getElem hsize, Option.getD_some] at hgrown
    simp [modifyAt, Array.getElem_modify, hsize, hgrown]
  · have hne : ¬ entry = i := fun h => hi h.symm
    simp [modifyAt, Array.getElem?_modify, hi, hne, getD_grow]

end ThemeSlot

/-- The slots of a package by type and entry. -/
abbrev ThemePackage := ByteTable (Array ThemeSlot)

/-- The slots of a theme by package, type and entry. -/
abbrev ThemeSlots := ByteTable ThemePackage

namespace ThemeSlots

/-- The slot of an attribute, if there is one. -/
def find? (t : ThemeSlots) (id : ResourceId) : Option ThemeSlot := do
  let types ← ByteTable.find? t (ResourceId.package id)
  let slots ← types.find? (ResourceId.type id)
  slots[(ResourceId.entry id).toNat]?

/-- The slot of an attribute; where there is none, it is undefined. -/
def slot (t : ThemeSlots) (id : ResourceId) : ThemeSlot := (t.find? id).getD {}

/-- Changes the slot of an attribute. -/
def modify (t : ThemeSlots) (id : ResourceId) (f : ThemeSlot → ThemeSlot) : ThemeSlots :=
  t.update (ResourceId.package id) ByteTable.empty fun types =>
    types.update (ResourceId.type id) #[] fun slots =>
      ThemeSlot.modifyAt slots (ResourceId.entry id).toNat f

/-- What is missing reads like tables and slots that were made. -/
theorem slot_eq (t : ThemeSlots) (id : ResourceId) :
    t.slot id =
      (((((ByteTable.find? t (ResourceId.package id)).getD ByteTable.empty).find?
        (ResourceId.type id)).getD #[])[(ResourceId.entry id).toNat]?).getD {} := by
  unfold slot find?
  cases ByteTable.find? t (ResourceId.package id) with
  | none => simp
  | some types =>
      simp only [Option.bind_eq_bind, Option.bind_some, Option.getD_some]
      cases ByteTable.find? types (ResourceId.type id) <;> simp

@[simp] theorem slot_empty (id : ResourceId) : slot ByteTable.empty id = {} := by
  simp [slot, find?]

/-- A change of one slot is seen there and nowhere else. -/
theorem slot_modify (t : ThemeSlots) (id other : ResourceId) (f : ThemeSlot → ThemeSlot) :
    (t.modify id f).slot other = if other = id then f (t.slot id) else t.slot other := by
  by_cases hid : other = id
  · subst hid
    simp [slot_eq, modify, ByteTable.find?_update, ThemeSlot.getD_modifyAt]
  · rw [if_neg hid, slot_eq, slot_eq, modify, ByteTable.find?_update]
    by_cases hpackage : ResourceId.package other = ResourceId.package id
    · by_cases htype : ResourceId.type other = ResourceId.type id
      · have hentry : ¬ (ResourceId.entry other).toNat = (ResourceId.entry id).toNat := by
          intro h
          have hsame : ResourceId.entry other = ResourceId.entry id := UInt16.toNat_inj.mp h
          rw [← ResourceId.make_parts other, hpackage, htype, hsame, ResourceId.make_parts] at hid
          exact hid rfl
        simp [hpackage, htype, hentry, ByteTable.find?_update, ThemeSlot.getD_modifyAt]
      · simp [hpackage, htype, ByteTable.find?_update]
    · simp [hpackage]

end ThemeSlots

end AppResources
