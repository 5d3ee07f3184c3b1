import AppResources.Proofs.PackedSubtag
import AppResources.Proofs.Preference

/-!
# The order of regions for a request

For a request, regions are ordered by four numbers, each of which decides where the
ones before it are equal: the place on the way from the request up to the root, the
distance in the tree, whether the region stands for its language, and the packed code.
The last one tells all regions apart, so the order is total.

## Main results

* `prefer_eq`: a comparison of regions is the comparison of the four numbers.
* `ranks_prefer`, `prefer_eq_none_iff`: it is an order, in which only equal regions are
  alike.
* `american_first`: for American English the United States and the root come first.
-/

namespace AppResources

namespace RegionTree

open Preference

/-- Climbing towards two targets ends at the one that is met first. -/
theorem climb_pair {x y : List Char} (hxy : x ≠ y) (path : List (List Char)) :
    climb [x, y] path =
      if path.idxOf x < path.idxOf y then some (path.idxOf x, 0)
      else if path.idxOf y < path.idxOf x then some (path.idxOf y, 1)
      else none := by
  induction path with
  | nil => rfl
  | cons region above ih =>
      rw [climb, List.idxOf_cons, List.idxOf_cons]
      cases hx : region == x with
      | true =>
          obtain rfl : region = x := by simpa using hx
          have hy : (region == y) = false := by simpa using hxy
          simp [List.findIdx?_cons, hy]
      | false =>
          cases hy : region == y with
          | true =>
              obtain rfl : region = y := by simpa using hy
              have hx' : (x == region) = false := by simpa using hxy
              simp [List.findIdx?_cons, hx']
          | false =>
              have hx' : x ≠ region := fun h => by simp [h] at hx
              have hy' : y ≠ region := fun h => by simp [h] at hy
              have hnone : [x, y].findIdx? (· == region) = none := by simp [hx', hy']
              simp only [hnone, ih, cond_false]
              grind

section Order

variable (language : Subtag) (script : Script) (request : Subtag)

/-- The name of a packed script. -/
def scriptName : List Char :=
  (Text.strictUtf8? (script.toList.takeWhile (· ≠ 0))).getD []

/-- The way from the request up to the root. -/
def requestPath : List (List Char) :=
  path (scriptName script) language.languageText request.regionText

/-- The place of a region on the way from the request up to the root; regions that are not
on it come behind. -/
def place (region : Subtag) : Nat :=
  (requestPath language script request).idxOf region.regionText

/-- The steps in the tree between a region and the request. -/
def steps (region : Subtag) : Nat :=
  distance (scriptName script) language.languageText (requestPath language script request)
    region.regionText

/-- One for a region that stands for its language, and zero for all others. -/
def standing (region : Subtag) : Nat :=
  if isRepresentative (scriptName script) language.languageText region.regionText then 1 else 0

/-- Which of two regions serves the request better. -/
def prefer (a b : Subtag) : Preference :=
  ofOrdering (compareFor a b language script request)

variable {language script request} {a b : Subtag}

/-- The comparison of different regions. -/
theorem compareFor_of_ne (hab : a ≠ b) :
    compareFor a b language script request =
      match climb [a.regionText, b.regionText] (requestPath language script request) with
      | some (_, 0) => .gt
      | some (_, _ + 1) => .lt
      | none =>
        ((compare (steps language script request b) (steps language script request a)).then
          (compare (standing language script a) (standing language script b))).then
            (compare b.bigEndian a.bigEndian) := by
  rw [compareFor, if_neg hab]
  rfl

/-- A comparison of regions is the comparison of four numbers in turn. -/
theorem prefer_eq (ha : a.WellFormed) (hb : b.WellFormed) :
    prefer language script request a b =
      (ofOrdering (compare (place language script request b)
        (place language script request a))).or
      ((ofOrdering (compare (steps language script request b)
        (steps language script request a))).or
      ((ofOrdering (compare (standing language script a) (standing language script b))).or
        (ofOrdering (compare b.bigEndian a.bigEndian)))) := by
  by_cases hab : a = b
  · subst hab
    simp [prefer, compareFor, ofOrdering]
  · have htext : a.regionText ≠ b.regionText := fun h => hab (Subtag.unpack_inj ha hb h)
    rw [prefer, compareFor_of_ne hab, climb_pair htext]
    unfold place
    rcases Nat.lt_trichotomy ((requestPath language script request).idxOf a.regionText)
      ((requestPath language script request).idxOf b.regionText) with h | h | h
    · rw [if_pos h, Nat.compare_eq_gt.mpr h]
      rfl
    · rw [if_neg (by omega), if_neg (by omega), Nat.compare_eq_eq.mpr h.symm, Ordering.then_assoc]
      rw [ofOrdering_then, ofOrdering_then]
      rfl
    · rw [if_neg (by omega), if_pos h, Nat.compare_eq_lt.mpr h]
      rfl

/-- The regions are ordered. -/
theorem ranks_prefer : Ranks Subtag.WellFormed (prefer language script request) :=
  ((ranks_compare_reverse (place language script request)).or
    ((ranks_compare_reverse (steps language script request)).or
      ((ranks_compare (standing language script)).or
        (ranks_compare_reverse Subtag.bigEndian)))).congr fun _ _ => prefer_eq

/-- Different regions are never alike. -/
theorem prefer_eq_none_iff (ha : a.WellFormed) (hb : b.WellFormed) :
    prefer language script request a b = none ↔ a = b := by
  constructor
  · intro h
    rw [prefer_eq ha hb] at h
    simp only [Option.or_eq_none_iff, ofOrdering_eq_none, Nat.compare_eq_eq] at h
    exact Subtag.bigEndian_inj h.2.2.2.symm
  · rintro rfl
    exact ranks_prefer.irrefl ha

/-- A region that is met first on the way from the request is better. -/
theorem prefer_of_place_lt (ha : a.WellFormed) (hb : b.WellFormed)
    (h : place language script request a < place language script request b) :
    prefer language script request a b = some true := by
  rw [prefer_eq ha hb, Nat.compare_eq_gt.mpr h]
  rfl

end Order

/-! ## American English -/

/-- In no script do the United States lie below another region where English is spoken. -/
theorem parent_unitedStates (script : List Char) :
    parent script Subtag.english.languageText Subtag.unitedStates.regionText = [] := by
  unfold parent branches
  by_cases harab : script = "Arab".toList
  · rw [if_pos harab]
    decide
  · by_cases hhant : script = "Hant".toList
    · rw [if_neg harab, if_pos hhant]
      decide
    · by_cases hlatn : script = "Latn".toList
      · rw [if_neg harab, if_neg hhant, if_pos hlatn]
        decide
      · rw [if_neg harab, if_neg hhant, if_neg hlatn]
        rfl

theorem requestPath_american (script : Script) :
    requestPath .english script .unitedStates = [Subtag.unitedStates.regionText, []] := by
  unfold requestPath path
  rw [pathWithin, if_neg (by decide), parent_unitedStates]
  cases (branches (scriptName script)).length <;> rfl

/-- For American English the United States and the root come before all other regions. -/
theorem american_first {script : Script} {a b : Subtag} (ha : a.WellFormed)
    (hb : b.WellFormed) (hnear : a = .none ∨ a = .unitedStates)
    (hfar : ¬ (b = .none ∨ b = .unitedStates)) :
    prefer .english script .unitedStates a b = some true := by
  apply prefer_of_place_lt ha hb
  have hus : b.regionText ≠ Subtag.unitedStates.regionText := fun h =>
    hfar (Or.inr (Subtag.unpack_inj hb (Or.inr rfl) h))
  have hroot : b.regionText ≠ [] := fun h =>
    hfar (Or.inl (Subtag.unpack_inj hb (Or.inl rfl) h))
  have hplace : place .english script .unitedStates b = 2 := by
    unfold place
    rw [requestPath_american, List.idxOf_cons, beq_false_of_ne hus.symm, List.idxOf_cons,
      beq_false_of_ne hroot.symm]
    rfl
  rw [hplace]
  unfold place
  rw [requestPath_american]
  rcases hnear with rfl | rfl <;> decide

end RegionTree

end AppResources
