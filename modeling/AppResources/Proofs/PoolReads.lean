import AppResources.Encoding.StringPool
import AppResources.Proofs.BytesInPlace
import AppResources.Proofs.RecordReads
import AppResources.StringPool.Lookup

/-!
# Strings are read inside their pool

What loading checks once is enough for every later read: the string data of a pool lies within
its bytes, a string is only read after its length has been compared with that data, and so
neither the string at an index nor the index of a string takes a range that is not there. What
is found stands in the string data, with a zero behind it.

## Main definitions

* `StringPool.StandsAt`: where an encoded string stands in the string data.

## Main results

* `StringPool.Within.safe_rawAt`, `StringPool.Within.safe_searchIndex`: both kinds of look-ups
  are safe.
* `StringPool.reads_within`: both for every pool that loads, and where the strings stand.
-/

namespace AppResources

/-! ## Bytes that were read -/

namespace Bytes

variable {b : ByteArray} {i j : Nat}

theorem holds_of_word16? {v : UInt16} (h : word16? b i = some v) : Holds b i (bytes16 v) := by
  unfold word16? at h
  split at h
  · next lo hi hlo hhi =>
    cases h
    rw [bytes16_word16, holds_cons_iff, holds_cons_iff]
    exact ⟨hlo, hhi, List.nil_prefix⟩
  · cases h

theorem holds_extract : Holds b i (b.extract i j).data.toList := by
  rw [Holds, ByteArray.data_extract, Array.toList_extract, List.extract_eq_take_drop]
  exact List.take_prefix _ _

theorem safe_byteAt (h : i < b.size) : Safe (byteAt b i) fun v => Holds b i [v] := by
  obtain ⟨v, hv⟩ := exists_byte? h
  have hholds : Holds b i [v] := holds_cons_iff.mpr ⟨hv, List.nil_prefix⟩
  rw [byte?] at hv
  rw [byteAt, hv]
  exact hholds

/-- Words that fill their bytes have those bytes. -/
theorem flatMap_words16 {xs : List UInt8} (h : xs.length % 2 = 0) :
    (words16 xs).flatMap bytes16 = xs := by
  fun_induction words16 xs with
  | case1 lo hi rest ih =>
      rw [List.length_cons, List.length_cons] at h
      rw [List.flatMap_cons, bytes16_word16, ih (by omega)]
      rfl
  | case2 xs hshort =>
      match xs with
      | [] => rfl
      | [_] => cases h
      | lo :: hi :: rest => exact absurd rfl (hshort lo hi rest)

end Bytes

namespace StringPool

variable {p : StringPool} {chunk : ByteArray}

/-! ## Where a string stands -/

/-- An encoded string stands in the string data from a unit on, and a unit that is zero stands
behind it, also in the string data. -/
def StandsAt (p : StringPool) : RawString → Nat → Prop
  | .utf8 bytes, start =>
    p.utf8 = true ∧ start + bytes.size < p.dataSize ∧
      Bytes.Holds p.data (p.stringsStart + start) (bytes.data.toList ++ [0])
  | .utf16 units, start =>
    p.utf8 = false ∧ start + units.length < p.dataSize ∧
      Bytes.Holds p.data (p.stringsStart + 2 * start) (units.flatMap Bytes.bytes16 ++ [0, 0])

/-- What is found, if anything, stands in the string data. -/
def Stands (p : StringPool) (found : Option RawString) : Prop :=
  ∀ raw ∈ found, ∃ start, p.StandsAt raw start

theorem stands_none : p.Stands none := fun _ h => by cases h

theorem stands_some {raw : RawString} (start : Nat) (h : p.StandsAt raw start) :
    p.Stands (some raw) := by
  intro found hfound
  cases hfound
  exact ⟨start, h⟩

theorem safe_rawUtf8At (hutf8 : p.utf8 = true) (hdata : p.stringsStart + p.dataSize ≤ p.data.size)
    (i : Nat) : Safe (p.rawUtf8At i) p.Stands := by
  unfold rawUtf8At
  refine (Bytes.safe_within ⟨by omega, hdata⟩).bind fun _ _ => ?_
  split
  · exact stands_none
  next length start _ =>
  split
  · exact stands_none
  next hroom =>
  refine (Bytes.safe_byteAt (by omega)).bind fun mark hmark => ?_
  split
  · exact stands_none
  next hzero =>
  refine (Bytes.safe_slice (by omega)).bind fun bytes hbytes => ?_
  obtain ⟨rfl, hsize⟩ := hbytes
  rw [Nat.add_sub_cancel_left] at hsize
  refine stands_some start ⟨hutf8, by omega, Bytes.holds_append_iff.mpr ⟨?_, ?_⟩⟩
  · exact Bytes.holds_extract
  · rw [Array.length_toList, ByteArray.size_data, hsize]
    rwa [not_not.mp hzero] at hmark

theorem safe_rawUtf16At (hutf8 : p.utf8 = false)
    (hdata : p.stringsStart + 2 * p.dataSize ≤ p.data.size) (i : Nat) :
    Safe (p.rawUtf16At i) p.Stands := by
  unfold rawUtf16At
  split
  · exact stands_none
  next length start _ =>
  split
  · exact stands_none
  next hroom =>
  split
  · next hmark =>
    refine (Bytes.safe_slice (by omega)).bind fun bytes hbytes => ?_
    obtain ⟨rfl, hsize⟩ := hbytes
    rw [Nat.add_sub_cancel_left] at hsize
    have hlength : (p.data.extract (p.stringsStart + 2 * start)
        (p.stringsStart + 2 * start + 2 * length)).data.toList.length = 2 * length := by
      rw [Array.length_toList, ByteArray.size_data, hsize]
    have hunits := Bytes.flatMap_words16 (by rw [hlength]; omega)
    have hcount := congrArg List.length hunits
    rw [Bytes.length_flatMap_bytes16, hlength] at hcount
    refine stands_some start ⟨hutf8, by omega, ?_⟩
    rw [hunits, Bytes.holds_append_iff, hlength]
    refine ⟨Bytes.holds_extract, ?_⟩
    have hbehind : p.stringsStart + 2 * start + 2 * length =
        p.stringsStart + 2 * (start + length) := by omega
    rw [hbehind]
    exact Bytes.holds_of_word16? hmark
  · exact stands_none

/-! ## Look-ups -/

/-- The string at an index is read inside the pool. -/
theorem Within.safe_rawAt (h : p.Within chunk) (index : Nat) : Safe (p.rawAt index) p.Stands := by
  unfold rawAt
  split
  · exact stands_none
  next hindex =>
  have hstrings := h.strings (by omega)
  split
  · exact stands_none
  extract_lets i
  split
  · exact stands_none
  split
  · next hutf8 =>
    rw [hutf8, unitSize, if_pos rfl, Nat.one_mul] at hstrings
    exact safe_rawUtf8At hutf8 hstrings _
  · next hutf8 =>
    rw [Bool.not_eq_true] at hutf8
    rw [hutf8, unitSize, if_neg Bool.false_ne_true] at hstrings
    exact safe_rawUtf16At hutf8 hstrings _

theorem Within.exists_rawAt (h : p.Within chunk) (index : Nat) :
    ∃ found, p.rawAt index = .ok found ∧ p.Stands found :=
  (h.safe_rawAt index).exists_ok

theorem Within.safe_lastBelow (h : p.Within chunk) (test : RawString → Bool) (bound : Nat) :
    Safe (p.lastBelow test bound) fun _ => True := by
  induction bound with
  | zero => trivial
  | succ index ih =>
      obtain ⟨found, hfound, _⟩ := h.exists_rawAt index
      rw [lastBelow, hfound]
      cases found with
      | none => exact ih
      | some raw =>
          dsimp only
          split
          · trivial
          · exact ih

theorem Within.safe_bisect (h : p.Within chunk) (needle : List UInt16) (low span : Nat) :
    Safe (p.bisect needle low span) fun _ => True := by
  have horder : ∀ index, Safe (p.orderAt needle index) fun _ => True := by
    intro index
    refine (h.safe_rawAt index).bind fun found _ => ?_
    cases found <;> trivial
  fun_induction bisect p needle low span with
  | case1 => trivial
  | case2 low span _ half middle f hf => exact (horder middle).fault_eq_none hf
  | case3 => trivial
  | case4 _ _ _ _ _ _ ih => exact ih
  | case5 _ _ _ _ _ _ ih => exact ih

/-- The index of a string is searched inside the pool. -/
theorem Within.safe_searchIndex (h : p.Within chunk) (s : String) :
    Safe (p.searchIndex s) fun _ => True := by
  unfold searchIndex
  split
  · exact h.safe_bisect _ _ _
  · exact h.safe_lastBelow _ _

/-! ## Pools that load -/

theorem Within.string?_eq (h : p.Within chunk) (index : Nat) :
    ∃ found, p.rawAt index = .ok found ∧ p.string? index = found.map RawString.text := by
  obtain ⟨found, hfound, _⟩ := h.exists_rawAt index
  refine ⟨found, hfound, ?_⟩
  rw [string?, raw?, hfound]

theorem Within.searchIndex_eq (h : p.Within chunk) (s : String) :
    p.searchIndex s = .ok (p.indexOf? s) := by
  obtain ⟨found, hfound, _⟩ := (h.safe_searchIndex s).exists_ok
  rw [indexOf?, hfound]

/-- A pool that loads answers every look-up without a read outside its chunk, and a string that
it answers with lies in the string data and has a zero behind it there. -/
theorem reads_within (hload : load chunk = .ok p) :
    p.Within chunk ∧
      (∀ index, ∃ found, p.rawAt index = .ok found ∧
        p.string? index = found.map RawString.text) ∧
      (∀ s, p.searchIndex s = .ok (p.indexOf? s)) ∧
      ∀ index s, p.string? index = some s →
        ∃ raw start, p.rawAt index = .ok (some raw) ∧ raw.text = s ∧ p.StandsAt raw start := by
  have hwithin := (safe_load chunk).of_ok hload
  refine ⟨hwithin, hwithin.string?_eq, hwithin.searchIndex_eq, fun index s hs => ?_⟩
  obtain ⟨found, hfound, hstands⟩ := hwithin.exists_rawAt index
  rw [string?, raw?, hfound] at hs
  obtain ⟨raw, rfl, htext⟩ := Option.map_eq_some_iff.mp hs
  obtain ⟨start, hstart⟩ := hstands raw rfl
  exact ⟨raw, start, hfound, htext, hstart⟩

/-- A pool of two strings, the first of which has lost the zero behind it. -/
def unterminatedFile : ByteArray :=
  ((encode true false ["abc", "defg"]).set 41 0x21).toByteArray

theorem reads_within_unterminated :
    ∃ p, load unterminatedFile = .ok p ∧ p.string? 0 = none ∧
      p.searchIndex "abc" = .ok (p.indexOf? "abc") ∧
      ∃ raw start, p.rawAt 1 = .ok (some raw) ∧ raw.text = "defg" ∧ p.StandsAt raw start := by
  have hstrings : (load unterminatedFile).toOption.map (fun p => (p.string? 0, p.string? 1)) =
      some (none, some "defg") := by decide +kernel
  cases hload : load unterminatedFile with
  | error f =>
      rw [hload] at hstrings
      cases hstrings
  | ok p =>
      rw [hload] at hstrings
      obtain ⟨hfirst, hsecond⟩ := Prod.mk.inj (Option.some.inj hstrings)
      obtain ⟨_, _, hsearch, hstands⟩ := reads_within hload
      exact ⟨p, rfl, hfirst, hsearch "abc", hstands 1 "defg" hsecond⟩

end StringPool

end AppResources
