import AppResources.Proofs.RegionOrder
import Mathlib.Logic.Function.Iterate

/-!
# The regions that cover a request

The tree of regions is climbed for a bounded number of steps, one more than there are
covering regions for the script. That is enough: from every region these steps lead to the
root, so a path holds the region and everything that covers it, nearest first. In the order
of regions for a request the path comes first, and all of it comes in this order.

## Main definitions

* `RegionTree.ancestor`: the region that stands some steps above another one.

## Main results

* `ancestor_branches`: the steps of a path reach the root.
* `idxOf_path_lt`: nearer regions come first on a path, and regions off it last.
* `compareFor_request`: nothing comes before the requested region.
* `compareFor_total`: the comparison of regions is a strict total order which begins with
  the request and the regions that cover it.
-/

namespace AppResources

namespace RegionTree

open Preference

/-- The region that stands some steps above another one; above the root there is only the
root. -/
def ancestor (script language : List Char) (steps : Nat) (region : List Char) : List Char :=
  (parent script language)^[steps] region

section Tree

variable {script language region x y : List Char} {steps k : Nat}

theorem ancestor_succ : ancestor script language (steps + 1) region =
    ancestor script language steps (parent script language region) := rfl

/-- Only covering regions and the root stand above a region. -/
theorem parent_cases (script language region : List Char) :
    parent script language region = [] ∨
      ∃ b ∈ branches script, b.language.toList = language ∧
        b.parent.toList = parent script language region := by
  unfold parent
  split
  · next b hfind =>
      have hfound := List.find?_some hfind
      rw [Bool.and_eq_true, beq_iff_eq] at hfound
      exact Or.inr ⟨b, List.mem_of_find?_eq_some hfind, hfound.1, rfl⟩
  · exact Or.inl rfl

/-- Only three scripts have covering regions. -/
theorem script_cases (script : List Char) :
    script = "Arab".toList ∨ script = "Hant".toList ∨ script = "Latn".toList ∨
      branches script = [] := by
  by_cases harab : script = "Arab".toList
  · exact Or.inl harab
  by_cases hhant : script = "Hant".toList
  · exact Or.inr (Or.inl hhant)
  by_cases hlatn : script = "Latn".toList
  · exact Or.inr (Or.inr (Or.inl hlatn))
  · rw [branches, if_neg harab, if_neg hhant, if_neg hlatn]
    simp

theorem parent_root (script language : List Char) : parent script language [] = [] := by
  have hchildren : ∀ b ∈ branches script, b.children.any (·.toList == []) = false := by
    rcases script_cases script with rfl | rfl | rfl | hnone
    · decide
    · decide
    · decide
    · simp only [hnone, List.not_mem_nil, false_implies, implies_true]
  have hfind : (branches script).find? (fun b =>
      b.language.toList == language && b.children.any (·.toList == [])) = none :=
    List.find?_eq_none.mpr fun b hb => by rw [hchildren b hb, Bool.and_false]; decide
  rw [parent, hfind]

theorem ancestor_root (script language : List Char) (steps : Nat) :
    ancestor script language steps [] = [] :=
  Function.iterate_fixed (parent_root script language) steps

/-- A covering region is at most as many steps below the root as there are covering
regions. -/
theorem ancestor_of_mem_branches (script : List Char) :
    ∀ b ∈ branches script,
      ancestor script b.language.toList (branches script).length b.parent.toList = [] := by
  rcases script_cases script with rfl | rfl | rfl | hnone
  · decide
  · decide
  · decide
  · simp only [hnone, List.not_mem_nil, false_implies, implies_true]

/-- The steps of a path reach the root. -/
theorem ancestor_branches (script language region : List Char) :
    ancestor script language ((branches script).length + 1) region = [] := by
  rw [ancestor_succ]
  rcases parent_cases script language region with h | ⟨b, hb, rfl, h⟩
  · rw [h, ancestor_root]
  · rw [← h, ancestor_of_mem_branches script b hb]

/-- On a way that reaches the root a region some steps above its start comes before every
region that is not met in these steps. -/
theorem idxOf_pathWithin_lt (hend : ancestor script language steps region = [])
    (hx : x = ancestor script language k region)
    (hy : ∀ j ≤ k, y ≠ ancestor script language j region) :
    (pathWithin script language steps region).idxOf x <
      (pathWithin script language steps region).idxOf y := by
  have hyregion : (region == y) = false := beq_false_of_ne (hy 0 (Nat.zero_le k)).symm
  induction steps generalizing region k with
  | zero =>
      obtain rfl : region = [] := hend
      rw [ancestor_root] at hx
      rw [pathWithin, List.idxOf_cons, List.idxOf_cons, hyregion, hx]
      simp
  | succ steps ih =>
      rw [ancestor_succ] at hend
      rw [pathWithin]
      split
      · next hroot =>
        subst hroot
        rw [ancestor_root] at hx
        rw [List.idxOf_cons, List.idxOf_cons, hyregion, hx]
        simp
      · rw [List.idxOf_cons, List.idxOf_cons, hyregion]
        cases k with
        | zero =>
            obtain rfl : x = region := hx
            simp
        | succ k =>
            have hstep := ih hend hx (fun j hj => hy (j + 1) (by omega))
              (beq_false_of_ne (hy 1 (by omega)).symm)
            cases region == x <;> simp [hstep]

/-- Nearer regions come first on a path, and regions off it last. -/
theorem idxOf_path_lt (hx : x = ancestor script language k region)
    (hy : ∀ j ≤ k, y ≠ ancestor script language j region) :
    (path script language region).idxOf x < (path script language region).idxOf y :=
  idxOf_pathWithin_lt (ancestor_branches script language region) hx hy

end Tree

/-- Every other region comes behind the requested one. -/
theorem compareFor_request {language : Subtag} {script : Script} {region request : Subtag}
    (hregion : region.WellFormed) (hrequest : request.WellFormed) (h : region ≠ request) :
    compareFor region request language script request = .lt := by
  have htext : ∀ j ≤ 0, region.regionText ≠
      ancestor (scriptName script) language.languageText j request.regionText := by
    intro j hj heq
    obtain rfl : j = 0 := Nat.le_zero.mp hj
    exact h (Subtag.unpack_inj hregion hrequest heq)
  have hfirst : prefer language script request request region = some true :=
    prefer_of_place_lt hrequest hregion (idxOf_path_lt (k := 0) rfl htext)
  have hlast := ranks_prefer.asymm hrequest hregion hfirst
  exact ofOrdering_inj hlast

/-- The comparison of regions is a strict total order. It begins with the request and the
regions that cover it, the nearest one first. -/
theorem compareFor_total (language : Subtag) (script : Script) (request : Subtag)
    {a b c : Subtag} (ha : a.WellFormed) (hb : b.WellFormed) (hc : c.WellFormed) :
    (compareFor a b language script request = .eq ↔ a = b) ∧
      compareFor b a language script request =
        (compareFor a b language script request).swap ∧
      (compareFor a b language script request = .gt →
        compareFor b c language script request = .gt →
        compareFor a c language script request = .gt) ∧
      ∀ k, a.regionText =
          ancestor (scriptName script) language.languageText k request.regionText →
        (∀ j ≤ k, b.regionText ≠
          ancestor (scriptName script) language.languageText j request.regionText) →
        compareFor a b language script request = .gt := by
  refine ⟨?_, ?_, ?_, ?_⟩
  · rw [← ofOrdering_eq_none]
    exact prefer_eq_none_iff ha hb
  · apply ofOrdering_inj
    rw [ofOrdering_swap]
    exact ranks_prefer.swap a b ha hb
  · simp only [← ofOrdering_eq_true]
    exact ranks_prefer.trans ha hb hc
  · intro k hnear hother
    rw [← ofOrdering_eq_true]
    exact prefer_of_place_lt ha hb (idxOf_path_lt hnear hother)

/-- Austria. -/
def austria : Subtag := ⟨0x41, 0x54⟩

/-- Europe, `150`, which covers Austria for English. -/
def europe : Subtag := .ofRegion [0x31, 0x35, 0x30]

/-- Great Britain. -/
def britain : Subtag := ⟨0x47, 0x42⟩

/-- For a request in the English of Austria, Europe comes before Great Britain, which does not
cover it. -/
theorem compareFor_total_austria :
    austria.WellFormed ∧ europe.WellFormed ∧ britain.WellFormed ∧
      europe.regionText = ancestor (scriptName (Script.ofCode "Latn"))
        Subtag.english.languageText 1 austria.regionText ∧
      compareFor europe britain .english (Script.ofCode "Latn") austria = .gt :=
  ⟨by decide, by decide, by decide, by decide,
    (compareFor_total .english (Script.ofCode "Latn") austria (a := europe) (b := britain)
      (c := austria) (by decide) (by decide) (by decide)).2.2.2 1 (by decide) (by decide)⟩

end RegionTree

end AppResources
