import AppResources.Encoding.Chunk
import AppResources.Text.Utf16
import Mathlib.Data.List.Induction
import Mathlib.Data.List.TakeWhile

/-!
# Bytes in their place

What was written is read back from where it stands. `Bytes.Holds b i xs` says that a buffer
has the bytes `xs` from the position `i` on. What is written in parts is held in parts, so a
reader needs to know only the position of its own field.

## Main definitions

* `Bytes.Holds`: a buffer has given bytes from a position on.

## Main results

* `Bytes.holds_append_iff`: parts stand one behind the other.
* `Bytes.Holds.word16?`, `Bytes.Holds.word32?`, `Bytes.Holds.slice`: what is held is read.
* `Text.fixedUtf16_fixedName`: a name is read back from a field of fixed width.
-/

namespace AppResources

namespace Bytes

/-- A buffer has given bytes from a position on. -/
def Holds (b : ByteArray) (i : Nat) (xs : List UInt8) : Prop :=
  xs <+: b.data.toList.drop i

variable {b : ByteArray} {i : Nat} {xs ys : List UInt8}

theorem holds_toByteArray (xs : List UInt8) : Holds xs.toByteArray 0 xs := by
  simp only [Holds, List.data_toByteArray, List.drop_zero]
  exact List.prefix_rfl

theorem holds_append_iff :
    Holds b i (xs ++ ys) ↔ Holds b i xs ∧ Holds b (i + xs.length) ys := by
  simp only [Holds, ← List.drop_drop]
  generalize b.data.toList.drop i = rest
  constructor
  · rintro ⟨tail, rfl⟩
    rw [List.append_assoc]
    refine ⟨List.prefix_append xs (ys ++ tail), ?_⟩
    rw [List.drop_left]
    exact List.prefix_append ys tail
  · rintro ⟨⟨tail, rfl⟩, hys⟩
    rw [List.drop_left] at hys
    exact (List.prefix_append_right_inj xs).mpr hys

/-- What is written behind other bytes stands behind them. -/
theorem holds_behind (before xs : List UInt8) :
    Holds (before ++ xs).toByteArray before.length xs := by
  have hwhole := (holds_append_iff.mp (holds_toByteArray (before ++ xs))).2
  rwa [Nat.zero_add] at hwhole

theorem getElem?_eq_toList (b : ByteArray) (i : Nat) : b[i]? = b.data.toList[i]? := by
  by_cases hi : i < b.size
  · rw [getElem?_pos b i hi, ByteArray.getElem_eq_getElem_data, Array.getElem?_toList]
    exact (Array.getElem?_eq_getElem hi).symm
  · rw [getElem?_neg b i hi, Array.getElem?_toList]
    exact (Array.getElem?_eq_none (Nat.le_of_not_lt hi)).symm

theorem holds_cons_iff {x : UInt8} :
    Holds b i (x :: xs) ↔ byte? b i = some x ∧ Holds b (i + 1) xs := by
  rw [← List.singleton_append, holds_append_iff]
  refine and_congr_left fun _ => ?_
  simp only [Holds, byte?, getElem?_eq_toList]
  rw [List.singleton_prefix_iff_head?_eq_some, List.head?_drop]

theorem Holds.take (h : Holds b i xs) (n : Nat) : Holds b i (xs.take n) :=
  (List.take_prefix n xs).trans h

theorem Holds.size_le (h : Holds b i xs) (hi : i ≤ b.size) : i + xs.length ≤ b.size := by
  have hlength := h.length_le
  simp only [List.length_drop, Array.length_toList, ByteArray.size_data] at hlength
  omega

theorem Holds.byte?_eq (h : Holds b i xs) {k : Nat} (hk : k < xs.length) :
    byte? b (i + k) = xs[k]? := by
  obtain ⟨tail, htail⟩ := h
  rw [Bytes.byte?, getElem?_eq_toList, ← List.getElem?_drop, ← htail,
    List.getElem?_append_left hk]

theorem Holds.word16? {v : UInt16} (h : Holds b i (bytes16 v)) : word16? b i = some v := by
  simp only [bytes16, holds_cons_iff, byte?] at h
  obtain ⟨hlo, hhi, _⟩ := h
  rw [Bytes.word16?, hlo, hhi]
  exact congrArg some (word16_bytes16 v)

theorem Holds.word32? {v : UInt32} (h : Holds b i (bytes32 v)) : word32? b i = some v := by
  simp only [bytes32, holds_cons_iff, byte?, Nat.add_assoc, Nat.reduceAdd] at h
  obtain ⟨h₀, h₁, h₂, h₃, _⟩ := h
  rw [Bytes.word32?, h₀, h₁, h₂, h₃]
  exact congrArg some (word32_bytes32 v)

theorem Holds.word16At {v : UInt16} (h : Holds b i (bytes16 v)) : word16At b i = .ok v := by
  rw [Bytes.word16At, h.word16?]

theorem Holds.word32At {v : UInt32} (h : Holds b i (bytes32 v)) : word32At b i = .ok v := by
  rw [Bytes.word32At, h.word32?]

theorem Holds.extract (h : Holds b i xs) : b.extract i (i + xs.length) = xs.toByteArray := by
  apply ByteArray.ext
  apply Array.toList_inj.mp
  rw [ByteArray.data_extract, Array.toList_extract, List.data_toByteArray,
    List.extract_eq_take_drop, Nat.add_sub_cancel_left]
  exact (List.prefix_iff_eq_take.mp h).symm

theorem Holds.slice (h : Holds b i xs) (hi : i ≤ b.size) :
    slice b i (i + xs.length) = .ok xs.toByteArray := by
  rw [Bytes.slice, if_pos ⟨by omega, h.size_le hi⟩, h.extract]

/-! ## Items of one size -/

theorem length_items {α : Type} {items : List α} {write : α → List UInt8} {size : Nat}
    (hsize : ∀ a, (write a).length = size) :
    (items.flatMap write).length = size * items.length := by
  simp only [List.length_flatMap, hsize, List.map_const', List.sum_replicate_nat]
  exact Nat.mul_comm _ _

/-- Of items that take equally many bytes, each one stands at a multiple of that size. -/
theorem Holds.item {α : Type} {items : List α} {write : α → List UInt8} {size : Nat}
    (h : Holds b i (items.flatMap write)) (hsize : ∀ a, (write a).length = size)
    {k : Nat} {a : α} (hk : items[k]? = some a) : Holds b (i + size * k) (write a) := by
  induction items generalizing i k with
  | nil => cases hk
  | cons first rest ih =>
      rw [List.flatMap_cons, holds_append_iff, hsize] at h
      cases k with
      | zero =>
          rw [List.getElem?_cons_zero] at hk
          cases hk
          exact h.1
      | succ k =>
          rw [List.getElem?_cons_succ] at hk
          rw [Nat.mul_succ, Nat.add_comm (size * k), ← Nat.add_assoc]
          exact ih h.2 hk

end Bytes

/-- A loop over indices that reads each item of a list reads the list. -/
theorem mapM_range_eq {ε α : Type} {read : Nat → Except ε α} {items : List α}
    (h : ∀ k a, items[k]? = some a → read k = .ok a) :
    (List.range items.length).mapM read = .ok items := by
  induction items using List.reverseRecOn with
  | nil => rfl
  | append_singleton items last ih =>
      have hitems : ∀ k a, items[k]? = some a → read k = .ok a := by
        intro k a hk
        apply h k a
        rw [List.getElem?_append_left (List.getElem?_eq_some_iff.mp hk).1]
        exact hk
      have hlast : read items.length = .ok last := by
        apply h
        rw [List.getElem?_append_right (Nat.le_refl _), Nat.sub_self]
        rfl
      rw [List.length_append, List.length_singleton, List.range_succ, List.mapM_append, ih hitems]
      simp only [List.mapM_cons, hlast]
      rfl

/-! ## Names in fields of fixed width -/

namespace Bytes

theorem words16_append (units : List UInt16) (rest : List UInt8) :
    words16 (units.flatMap bytes16 ++ rest) = units ++ words16 rest := by
  induction units with
  | nil => rfl
  | cons unit units ih =>
      rw [List.flatMap_cons, List.append_assoc]
      show word16 _ _ :: words16 (units.flatMap bytes16 ++ rest) = _
      rw [word16_bytes16, ih]
      rfl

theorem words16_zeros (n : Nat) : words16 (zeros (2 * n)) = List.replicate n 0 := by
  induction n with
  | zero => rfl
  | succ n ih =>
      show word16 0 0 :: words16 (zeros (2 * n)) = _
      rw [ih]
      rfl

theorem length_flatMap_bytes16 (units : List UInt16) :
    (units.flatMap bytes16).length = 2 * units.length :=
  length_items length_bytes16

theorem length_zeros (n : Nat) : (zeros n).length = n :=
  List.length_replicate

theorem length_padded_mod (xs : List UInt8) : (padded xs).length % 4 = 0 := by
  simp only [padded, List.length_append, length_zeros]
  omega

theorem length_fixedName (units : Nat) (name : String) :
    (fixedName units name).length = 2 * units := by
  have hkept : ((Text.unitsOf name).take (units - 1)).length ≤ units := by
    rw [List.length_take]
    omega
  simp only [fixedName, List.length_append, length_flatMap_bytes16, length_zeros]
  omega

end Bytes

namespace Text

theorem zero_notMem_charUnits {c : Char} (hc : c ≠ '\x00') : 0 ∉ charUnits c := by
  have hcode : c.toNat ≠ 0 := fun h => hc (Char.toNat_inj.mp h)
  rcases charUnits_cases c with ⟨u, hunits, _, hnat⟩ | ⟨u, v, hunits, hhigh, ⟨_, hlow, _⟩, _⟩
  · rw [hunits, List.mem_singleton]
    rintro rfl
    exact hcode hnat.symm
  · rw [hunits, List.mem_cons, List.mem_singleton]
    rintro (rfl | rfl)
    · exact hhigh (.inl (by decide))
    · exact absurd hlow (by decide)

/-- A name that leaves room for a zero, and holds none, is read back from its field. -/
theorem fixedUtf16_fixedName {units : Nat} {name : String}
    (hlength : (unitsOf name).length < units) (hzero : '\x00' ∉ name.toList) :
    fixedUtf16 (Bytes.fixedName units name) = name := by
  have hnone : ∀ unit ∈ unitsOf name, unit ≠ 0 := by
    intro unit hunit hcontra
    obtain ⟨c, hc, hmem⟩ := List.mem_flatMap.mp hunit
    subst hcontra
    exact zero_notMem_charUnits (fun h => hzero (h ▸ hc)) hmem
  have htake : (unitsOf name).take (units - 1) = unitsOf name :=
    List.take_of_length_le (by omega)
  rw [fixedUtf16, Bytes.fixedName, htake, Bytes.words16_append, Bytes.words16_zeros,
    List.takeWhile_append_of_pos (by simpa using hnone)]
  cases hrest : units - (unitsOf name).length with
  | zero => omega
  | succ n =>
      rw [List.replicate_succ, List.takeWhile_cons_of_neg (by decide), List.append_nil]
      exact decodeUtf16_unitsOf name

end Text

end AppResources
