import AppResources.Proofs.PoolRoundTrip

/-!
# The index of a string

A pool that does not claim to be sorted is searched from its last string back, by comparing
encoded strings. As long as every string of the pool can be read and is the encoding of its
text, and no text comes twice, this is the inverse of looking up a string: a text has the index
at which it stands.

## Main definitions

* `StringPool.Spelled`: such a pool.

## Main results

* `indexOf?_eq_some_iff`: a text has the index at which it stands.
* `spelled_written`: pools that are written are such pools.
-/

namespace AppResources

theorem RawString.text_eq_of_spells {raw : RawString} {s : String} (h : raw.spells s = true) :
    raw.text = s := by
  cases raw with
  | utf8 bytes =>
      have hbytes : bytes = s.toUTF8 := by
        apply ByteArray.ext
        apply Array.toList_inj.mp
        simpa [spells] using h
      rw [text, hbytes]
      exact Text.decodeUtf8_toUTF8 s
  | utf16 units =>
      have hunits : units = Text.unitsOf s := by simpa [spells] using h
      rw [text, hunits]
      exact Text.decodeUtf16_unitsOf s

namespace StringPool

/-- An unsorted pool whose strings are distinct, not empty, and encoded in a valid way. -/
structure Spelled (p : StringPool) : Prop where
  unsorted : p.sorted = false
  readable : ∀ i < p.count, ∃ raw s, p.rawAt i = .ok (some raw) ∧ raw.spells s = true ∧ s ≠ ""
  distinct : ∀ i < p.count, ∀ j < p.count, p.string? i = p.string? j → i = j

variable {p : StringPool} {s : String} {i n : Nat} {test : RawString → Bool}

theorem lt_count_of_string? (h : p.string? i = some s) : i < p.count := by
  by_contra hlt
  rw [string?, raw?, rawAt, if_pos (Nat.le_of_not_lt hlt)] at h
  cases h

theorem Spelled.exists_raw (h : p.Spelled) (hi : i < p.count) :
    ∃ raw s, p.rawAt i = .ok (some raw) ∧ raw.spells s = true ∧ p.string? i = some s ∧
      s ≠ "" := by
  obtain ⟨raw, s, hraw, hspells, hne⟩ := h.readable i hi
  refine ⟨raw, s, hraw, hspells, ?_, hne⟩
  rw [string?, raw?, hraw, ← RawString.text_eq_of_spells hspells]
  rfl

theorem Spelled.ne_empty (h : p.Spelled) (hs : p.string? i = some s) : s ≠ "" := by
  obtain ⟨_, s', -, -, hs', hne⟩ := h.exists_raw (lt_count_of_string? hs)
  rw [hs] at hs'
  rw [Option.some.inj hs']
  exact hne

/-- The greatest index that passes a test, where it is the only one. -/
theorem lastBelow_eq_some (hread : ∀ j < n, ∃ raw, p.rawAt j = .ok (some raw) ∧ test raw = (j == i))
    (hi : i < n) : p.lastBelow test n = .ok (some i) := by
  induction n with
  | zero => exact absurd hi (Nat.not_lt_zero i)
  | succ n ih =>
      obtain ⟨raw, hraw, htest⟩ := hread n (Nat.lt_succ_self n)
      rw [lastBelow, hraw]
      dsimp only
      rw [htest]
      by_cases heq : n = i
      · simp [heq]
      · rw [if_neg (by simpa using heq)]
        exact ih (fun j hj => hread j (Nat.lt_succ_of_lt hj)) (by omega)

/-- Where a search ends, its test passes. -/
theorem of_lastBelow_eq_some (h : p.lastBelow test n = .ok (some i)) :
    i < n ∧ ∃ raw, p.rawAt i = .ok (some raw) ∧ test raw = true := by
  induction n with
  | zero => cases h
  | succ n ih =>
      have hlater : p.lastBelow test n = .ok (some i) →
          i < n + 1 ∧ ∃ raw, p.rawAt i = .ok (some raw) ∧ test raw = true := fun hn =>
        ⟨Nat.lt_succ_of_lt (ih hn).1, (ih hn).2⟩
      rw [lastBelow] at h
      split at h
      · cases h
      · next raw hraw =>
        split at h
        · next htest =>
          cases h
          exact ⟨Nat.lt_succ_self _, raw, hraw, htest⟩
        · exact hlater h
      · exact hlater h

/-- A text has the index at which it stands. -/
theorem Spelled.indexOf?_eq_some_iff (h : p.Spelled) :
    p.indexOf? s = some i ↔ p.string? i = some s := by
  have hsearch : p.searchIndex s = p.lastBelow (·.spells s) p.count := by
    rw [searchIndex, h.unsorted]
    rfl
  rw [indexOf?, hsearch]
  constructor
  · intro hfound
    split at hfound
    · next found hlast =>
      rw [hfound] at hlast
      obtain ⟨-, raw, hraw, hspells⟩ := of_lastBelow_eq_some hlast
      rw [string?, raw?, hraw, ← RawString.text_eq_of_spells hspells]
      rfl
    · cases hfound
  · intro hs
    have hi := lt_count_of_string? hs
    have hread : ∀ j < p.count, ∃ raw, p.rawAt j = .ok (some raw) ∧ raw.spells s = (j == i) := by
      intro j hj
      obtain ⟨raw, t, hraw, hspells, ht, -⟩ := h.exists_raw hj
      refine ⟨raw, hraw, ?_⟩
      by_cases heq : j = i
      · rw [heq, hs] at ht
        rw [Option.some.inj ht, hspells, heq, beq_self_eq_true]
      · -- another string spells another text
        have hne : raw.spells s ≠ true := by
          intro hsame
          have htext := (RawString.text_eq_of_spells hspells).symm.trans
            (RawString.text_eq_of_spells hsame)
          rw [htext, ← hs] at ht
          exact heq (h.distinct j hj i hi ht)
        rw [Bool.eq_false_iff.mpr hne, beq_eq_false_iff_ne.mpr heq]
    rw [lastBelow_eq_some hread hi]

/-! ## Written pools -/

theorem spells_rawOf (utf8 : Bool) (s : String) : (rawOf utf8 s).spells s = true := by
  cases utf8 with
  | true => simp [rawOf, RawString.spells, Text.utf8Bytes]
  | false => simp [rawOf, RawString.spells]

/-- A pool that is written with distinct texts, none empty, is searched as it should be. -/
theorem spelled_written {utf8 : Bool} {strings : List String}
    (hsmall : (parts utf8 false strings).size < 4294967296)
    (hlengths : utf8 = true → ∀ s ∈ strings, (Text.utf8Bytes s).length < 32768)
    (hnodup : strings.Nodup) (hne : "" ∉ strings) : (written utf8 false strings).Spelled := by
  have hcount : (written utf8 false strings).count = strings.length := rfl
  refine ⟨rfl, fun i hi => ?_, fun i hi j hj heq => ?_⟩
  · have hs := List.getElem?_eq_getElem (hcount ▸ hi)
    refine ⟨_, _, rawAt_written hsmall hlengths hs, spells_rawOf utf8 _, fun hempty => hne ?_⟩
    rw [← hempty]
    exact List.mem_of_getElem? hs
  · rw [string?_written hsmall hlengths, string?_written hsmall hlengths] at heq
    exact (List.getElem?_inj (hcount ▸ hi) hnodup).mp heq

end StringPool

end AppResources
