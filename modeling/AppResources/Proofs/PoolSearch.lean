import AppResources.Proofs.PoolIndex
import AppResources.Proofs.PoolReads

/-!
# The search for the index of a string

A pool is searched for the encoding of a text: from its last string back, or by bisection if the
pool says that it is sorted. What is found is always the text that was looked for, since only
one text decodes from the encoding of a text. The search misses no text as long as every string
of the pool is a valid encoding, and a bisection misses none if the strings ascend in the order
of their units.

## Main definitions

* `Text.isPaired`, `RawString.IsValid`: encodings that stand for a text without a replacement.
* `StringPool.Decodes`, `StringPool.Ascends`: pools of valid strings, pools in order.

## Main results

* `StringPool.bisect_finds`, `StringPool.not_of_lastBelow`: what the two searches do not miss.
* `StringPool.indexOf?_exact`: a text has an index exactly if it occurs.
-/

namespace AppResources

/-! ## Valid encodings -/

namespace Text

/-- Whether every surrogate among units has its partner. -/
def isPaired : List UInt16 → Bool
  | [] => true
  | [u] => u < 0xd800 ∨ 0xe000 ≤ u
  | u :: v :: rest =>
    if u < 0xd800 ∨ 0xe000 ≤ u then isPaired (v :: rest)
    else if u < 0xdc00 ∧ 0xdc00 ≤ v ∧ v < 0xe000 then isPaired rest
    else false

theorem toNat_ofNat_valid {code : Nat} (h : code.isValidChar) : (Char.ofNat code).toNat = code := by
  rw [Char.ofNat, dif_pos h]
  rfl

theorem charUnits_ofNat_single {u : UInt16} (hu : u < 0xd800 ∨ 0xe000 ≤ u) :
    charUnits (Char.ofNat u.toNat) = [u] := by
  have hlt := u.toNat_lt
  rw [UInt16.lt_iff_toNat_lt, UInt16.le_iff_toNat_le] at hu
  change u.toNat < 0xd800 ∨ 0xe000 ≤ u.toNat at hu
  have hvalid : u.toNat.isValidChar := by
    simp only [Nat.isValidChar]
    omega
  rw [charUnits, toNat_ofNat_valid hvalid, if_pos (by omega), UInt16.ofNat_toNat]

theorem charUnits_ofNat_pair {u v : UInt16} (hhigh : ¬ (u < 0xd800 ∨ 0xe000 ≤ u))
    (hpair : u < 0xdc00 ∧ 0xdc00 ≤ v ∧ v < 0xe000) :
    charUnits (Char.ofNat (0x10000 + 0x400 * (u.toNat - 0xd800) + (v.toNat - 0xdc00))) =
      [u, v] := by
  simp only [UInt16.lt_iff_toNat_lt, UInt16.le_iff_toNat_le] at hhigh hpair
  change ¬ (u.toNat < 0xd800 ∨ 0xe000 ≤ u.toNat) at hhigh
  change u.toNat < 0xdc00 ∧ 0xdc00 ≤ v.toNat ∧ v.toNat < 0xe000 at hpair
  generalize hcode : 0x10000 + 0x400 * (u.toNat - 0xd800) + (v.toNat - 0xdc00) = code
  have hvalid : code.isValidChar := by
    simp only [Nat.isValidChar]
    omega
  have hu : 0xd800 + (code - 0x10000) / 0x400 = u.toNat := by omega
  have hv : 0xdc00 + (code - 0x10000) % 0x400 = v.toNat := by omega
  rw [charUnits, toNat_ofNat_valid hvalid, if_neg (by omega), hu, hv, UInt16.ofNat_toNat,
    UInt16.ofNat_toNat]

/-- Units whose surrogates are paired are the units of their text. -/
theorem unitsOf_decodeUtf16 {units : List UInt16} (h : isPaired units = true) :
    unitsOf (decodeUtf16 units) = units := by
  rw [unitsOf, decodeUtf16, String.toList_ofList]
  fun_induction decodeUnits units with
  | case1 => rfl
  | case2 u hu => rw [List.flatMap_singleton, charUnits_ofNat_single hu]
  | case3 u hu => exact absurd (of_decide_eq_true h) hu
  | case4 u v rest hu ih =>
      rw [isPaired, if_pos hu] at h
      rw [List.flatMap_cons, charUnits_ofNat_single hu, ih h]
      rfl
  | case5 u v rest hu hpair ih =>
      rw [isPaired, if_neg hu, if_pos hpair] at h
      rw [List.flatMap_cons, charUnits_ofNat_pair hu hpair, ih h]
      rfl
  | case6 u v rest hu hpair ih =>
      rw [isPaired, if_neg hu, if_neg hpair] at h
      cases h

theorem isPaired_charUnits_append (c : Char) (rest : List UInt16) :
    isPaired (charUnits c ++ rest) = isPaired rest := by
  rcases charUnits_cases c with ⟨u, hunits, hout, _⟩ | ⟨u, v, hunits, hin, hpair, _⟩
  · rw [hunits]
    cases rest with
    | nil => exact decide_eq_true hout
    | cons v rest => rw [List.singleton_append, isPaired, if_pos hout]
  · rw [hunits, List.cons_append, List.singleton_append, isPaired, if_neg hin, if_pos hpair]

theorem isPaired_unitsOf (s : String) : isPaired (unitsOf s) = true := by
  rw [unitsOf]
  induction s.toList with
  | nil => rfl
  | cons c cs ih => rw [List.flatMap_cons, isPaired_charUnits_append, ih]

end Text

namespace RawString

/-- An encoding that stands for a text without a replacement. -/
def IsValid : RawString → Prop
  | .utf8 bytes => bytes.IsValidUTF8
  | .utf16 units => Text.isPaired units = true

variable {raw : RawString} {s : String}

/-- Only the text of a string has its units. -/
theorem text_eq_of_units (h : raw.units = Text.unitsOf s) : raw.text = s := by
  cases raw with
  | utf8 bytes =>
      have htext := congrArg Text.decodeUtf16 h
      rwa [units, Text.decodeUtf16_unitsOf, Text.decodeUtf16_unitsOf] at htext
  | utf16 units =>
      rw [text, show units = Text.unitsOf s from h]
      exact Text.decodeUtf16_unitsOf s

theorem IsValid.units_eq (h : raw.IsValid) : raw.units = Text.unitsOf raw.text := by
  cases raw with
  | utf8 bytes => rfl
  | utf16 units => exact (Text.unitsOf_decodeUtf16 h).symm

theorem IsValid.spells_text (h : raw.IsValid) : raw.spells raw.text = true := by
  cases raw with
  | utf8 bytes =>
      have hbytes : bytes.IsValidUTF8 := h
      have htext : Text.decodeUtf8 bytes = String.fromUTF8 bytes hbytes := by
        rw [Text.decodeUtf8, String.fromUTF8?, dif_pos hbytes]
      rw [text, htext, spells]
      exact decide_eq_true rfl
  | utf16 units => exact decide_eq_true (Text.unitsOf_decodeUtf16 h).symm

end RawString

namespace StringPool

variable {p : StringPool} {s : String} {needle : List UInt16} {low span i n : Nat}
  {test : RawString → Bool}

/-! ## The order of units -/

theorem compareUnits_eq_iff {xs ys : List UInt16} : compareUnits xs ys = .eq ↔ xs = ys := by
  fun_induction compareUnits xs ys with
  | case1 => simp
  | case2 => simp
  | case3 => simp
  | case4 x xs y ys ih =>
      rw [Ordering.then_eq_eq, Nat.compare_eq_eq, ih, UInt16.toNat_inj, List.cons.injEq]

theorem compareUnits_swap (xs ys : List UInt16) :
    (compareUnits xs ys).swap = compareUnits ys xs := by
  fun_induction compareUnits xs ys with
  | case1 => rfl
  | case2 => rfl
  | case3 => rfl
  | case4 x xs y ys ih => rw [Ordering.swap_then, Nat.compare_swap, ih, compareUnits]

/-- Units compare as greater exactly if they come behind in the order of lists. -/
theorem compareUnits_eq_gt_iff {xs ys : List UInt16} : compareUnits xs ys = .gt ↔ ys < xs := by
  fun_induction compareUnits xs ys with
  | case1 => simp
  | case2 => simp
  | case3 => simp
  | case4 x xs y ys ih =>
      rw [List.cons_lt_cons_iff, ← ih, Ordering.then_eq_gt, Nat.compare_eq_gt, Nat.compare_eq_eq,
        UInt16.toNat_inj, UInt16.lt_iff_toNat_lt, eq_comm (a := x)]

/-! ## Bisection -/

theorem exists_of_orderAt {index : Nat} (h : p.orderAt needle index = .ok .eq) :
    ∃ raw, p.rawAt index = .ok (some raw) ∧ raw.units = needle := by
  unfold orderAt at h
  cases hraw : p.rawAt index with
  | error f => rw [hraw] at h; cases h
  | ok found =>
      rw [hraw] at h
      cases found with
      | none => cases h
      | some raw => exact ⟨raw, rfl, compareUnits_eq_iff.mp (Except.ok.inj h)⟩

/-- Where a bisection ends, there are the units that it looks for. -/
theorem of_bisect_eq_some (h : p.bisect needle low span = .ok (some i)) :
    ∃ raw, p.rawAt i = .ok (some raw) ∧ raw.units = needle := by
  fun_induction bisect p needle low span with
  | case1 => cases h
  | case2 => cases h
  | case3 low span _ half middle horder =>
      rw [← Option.some.inj (Except.ok.inj h)]
      exact exists_of_orderAt horder
  | case4 _ _ _ _ _ _ ih => exact ih h
  | case5 _ _ _ _ _ _ ih => exact ih h

/-- A bisection misses nothing in strings that ascend. -/
theorem bisect_finds (units : Nat → List UInt16)
    (horder : ∀ j, low ≤ j → j < low + span →
      p.orderAt needle j = .ok (compareUnits (units j) needle))
    (hascend : ∀ j k, j < k → k < low + span → units j ≤ units k)
    (hlow : low ≤ i) (hhigh : i < low + span) (hi : units i = needle) :
    ∃ found, p.bisect needle low span = .ok (some found) := by
  fun_induction bisect p needle low span with
  | case1 => omega
  | case2 low span hspan half middle f hf =>
      rw [horder middle (by omega) (by omega)] at hf
      cases hf
  | case3 low span hspan half middle => exact ⟨middle, rfl⟩
  | case4 low span hspan half middle hless ih =>
      rw [horder middle (by omega) (by omega)] at hless
      have hlt : units middle < needle := by
        rw [← compareUnits_eq_gt_iff, ← compareUnits_swap, Except.ok.inj hless]
        rfl
      -- what is looked for stands behind the middle
      have hbehind : middle < i := by
        rcases Nat.lt_trichotomy i middle with hbefore | rfl | hbehind
        · have hle := hascend i middle hbefore (by omega)
          rw [hi] at hle
          exact absurd hlt (List.not_lt.mpr hle)
        · rw [hi] at hlt
          exact absurd hlt (List.lt_irrefl needle)
        · exact hbehind
      exact ih (fun j hj hj' => horder j (by omega) (by omega))
        (fun j k hjk hk => hascend j k hjk (by omega)) (by omega) (by omega)
  | case5 low span hspan half middle hgreater ih =>
      rw [horder middle (by omega) (by omega)] at hgreater
      have hlt : needle < units middle := compareUnits_eq_gt_iff.mp (Except.ok.inj hgreater)
      -- what is looked for stands before the middle
      have hbefore : i < middle := by
        rcases Nat.lt_trichotomy i middle with hbefore | rfl | hbehind
        · exact hbefore
        · rw [hi] at hlt
          exact absurd hlt (List.lt_irrefl needle)
        · have hle := hascend middle i hbehind hhigh
          rw [hi] at hle
          exact absurd hlt (List.not_lt.mpr hle)
      exact ih (fun j hj hj' => horder j hj (by omega))
        (fun j k hjk hk => hascend j k hjk (by omega)) hlow hbefore

/-! ## Search from the last string back -/

/-- Behind the index that is found, and everywhere if there is none, the test fails. -/
theorem not_of_lastBelow {found : Option Nat} (h : p.lastBelow test n = .ok found)
    (hbehind : ∀ j ∈ found, j < i) (hi : i < n) {raw : RawString}
    (hraw : p.rawAt i = .ok (some raw)) : test raw = false := by
  induction n with
  | zero => exact absurd hi (Nat.not_lt_zero i)
  | succ n ih =>
      rw [lastBelow] at h
      rcases Nat.lt_or_eq_of_le (Nat.le_of_lt_succ hi) with hlt | rfl
      · split at h
        · cases h
        · split at h
          · cases h
            exact absurd (hbehind n rfl) (by omega)
          · exact ih h hlt
        · exact ih h hlt
      · rw [hraw] at h
        dsimp only at h
        split at h
        · cases h
          exact absurd (hbehind i rfl) (Nat.lt_irrefl i)
        · next hfails => exact Bool.eq_false_iff.mpr hfails

/-! ## The index of a string -/

/-- Every string of a pool can be read and is a valid encoding. -/
def Decodes (p : StringPool) : Prop :=
  ∀ i < p.count, ∃ raw, p.rawAt i = .ok (some raw) ∧ raw.IsValid

/-- The strings of a pool ascend in the order of their units; equal ones may follow each
other. -/
def Ascends (p : StringPool) : Prop :=
  ∀ i j s t, i < j → p.string? i = some s → p.string? j = some t →
    Text.unitsOf s ≤ Text.unitsOf t

theorem string?_of_rawAt {raw : RawString} (h : p.rawAt i = .ok (some raw)) :
    p.string? i = some raw.text := by
  rw [string?, raw?, h]
  rfl

theorem Decodes.exists_raw (h : p.Decodes) (hs : p.string? i = some s) :
    ∃ raw, p.rawAt i = .ok (some raw) ∧ raw.IsValid ∧ raw.text = s := by
  obtain ⟨raw, hraw, hvalid⟩ := h i (lt_count_of_string? hs)
  rw [string?_of_rawAt hraw] at hs
  exact ⟨raw, hraw, hvalid, Option.some.inj hs⟩

/-- The text at the index that is found is the one that was looked for. -/
theorem string?_of_indexOf? (h : p.indexOf? s = some i) : p.string? i = some s := by
  have hsearch : p.searchIndex s = .ok (some i) := by
    unfold indexOf? at h
    split at h
    · next found hfound => rw [hfound, h]
    · cases h
  unfold searchIndex at hsearch
  split at hsearch
  · obtain ⟨raw, hraw, hunits⟩ := of_bisect_eq_some hsearch
    rw [string?_of_rawAt hraw, RawString.text_eq_of_units hunits]
  · obtain ⟨-, raw, hraw, hspells⟩ := of_lastBelow_eq_some hsearch
    rw [string?_of_rawAt hraw, RawString.text_eq_of_spells hspells]

/-- A bisection finds every text of a pool in order. -/
theorem Decodes.bisect_of_string? (h : p.Decodes) (hascends : p.Ascends)
    (hs : p.string? i = some s) :
    ∃ found, p.bisect (Text.unitsOf s) 0 p.count = .ok (some found) := by
  have htext : ∀ j < p.count, ∃ raw t, p.rawAt j = .ok (some raw) ∧
      raw.units = Text.unitsOf t ∧ p.string? j = some t := by
    intro j hj
    obtain ⟨raw, hraw, hvalid⟩ := h j hj
    exact ⟨raw, raw.text, hraw, hvalid.units_eq, string?_of_rawAt hraw⟩
  refine bisect_finds (fun j => Text.unitsOf ((p.string? j).getD ""))
    (fun j _ hj => ?_) (fun j k hjk hk => ?_) (Nat.zero_le i) ?_ ?_
  · rw [Nat.zero_add] at hj
    obtain ⟨raw, t, hraw, hunits, ht⟩ := htext j hj
    simp only [orderAt, hraw, ht, Option.getD_some, ← hunits]
    rfl
  · rw [Nat.zero_add] at hk
    obtain ⟨_, t, _, _, ht⟩ := htext j (by omega)
    obtain ⟨_, u, _, _, hu⟩ := htext k hk
    simp only [ht, hu, Option.getD_some]
    exact hascends j k t u hjk ht hu
  · rw [Nat.zero_add]
    exact lt_count_of_string? hs
  · rw [hs, Option.getD_some]

/-- A search from the last string back finds every text, and at its last index. -/
theorem Decodes.le_indexOf? {chunk : ByteArray} (h : p.Decodes) (hwithin : p.Within chunk)
    (hunsorted : p.sorted = false) (hs : p.string? i = some s) :
    ∃ found, p.indexOf? s = some found ∧ i ≤ found := by
  obtain ⟨raw, hraw, hvalid, htext⟩ := h.exists_raw hs
  have hsearch := hwithin.searchIndex_eq s
  rw [searchIndex, hunsorted, if_neg Bool.false_ne_true] at hsearch
  by_contra hnone
  have hbehind : ∀ j ∈ p.indexOf? s, j < i := by
    intro j hj
    exact Nat.lt_of_not_le fun hle => hnone ⟨j, hj, hle⟩
  have hfails := not_of_lastBelow hsearch hbehind (lt_count_of_string? hs) hraw
  rw [← htext, hvalid.spells_text] at hfails
  cases hfails

/-- A text has an index exactly if it occurs in the pool, and what is found is an index of the
text: the last one unless the pool says that it is sorted. -/
theorem indexOf?_exact {chunk : ByteArray} (hload : load chunk = .ok p) (s : String) :
    (∀ i, p.indexOf? s = some i → p.string? i = some s) ∧
      (p.Decodes → (p.sorted = true → p.Ascends) →
        ((∃ i, p.indexOf? s = some i) ↔ ∃ i, p.string? i = some s) ∧
        (p.sorted = false → ∀ i, p.indexOf? s = some i →
          ∀ j, p.string? j = some s → j ≤ i)) := by
  have hwithin := (safe_load chunk).of_ok hload
  refine ⟨fun i => string?_of_indexOf?, fun hdecodes hascends => ⟨⟨?_, ?_⟩, ?_⟩⟩
  · rintro ⟨i, hi⟩
    exact ⟨i, string?_of_indexOf? hi⟩
  · rintro ⟨i, hs⟩
    cases hsorted : p.sorted with
    | false =>
        obtain ⟨found, hfound, _⟩ := hdecodes.le_indexOf? hwithin hsorted hs
        exact ⟨found, hfound⟩
    | true =>
        obtain ⟨found, hfound⟩ := hdecodes.bisect_of_string? (hascends hsorted) hs
        refine ⟨found, ?_⟩
        rw [indexOf?, searchIndex, hsorted, if_pos rfl, hfound]
  · intro hunsorted i hi j hj
    obtain ⟨found, hfound, hle⟩ := hdecodes.le_indexOf? hwithin hunsorted hj
    rw [hi] at hfound
    rw [Option.some.inj hfound]
    exact hle

/-! ## Written pools -/

theorem isValid_rawOf (utf8 : Bool) (s : String) : (rawOf utf8 s).IsValid := by
  cases utf8 with
  | true =>
      show (Text.utf8Bytes s).toByteArray.IsValidUTF8
      rw [Text.toByteArray_utf8Bytes]
      exact s.isValidUTF8
  | false => exact Text.isPaired_unitsOf s

section Written

variable {utf8 sorted : Bool} {strings : List String}
  (hsmall : (parts utf8 sorted strings).size < 4294967296)
  (hlengths : utf8 = true → ∀ s ∈ strings, (Text.utf8Bytes s).length < 32768)

include hsmall hlengths

/-- The strings of a written pool decode. -/
theorem decodes_written : (written utf8 sorted strings).Decodes := by
  intro i hi
  have hs := List.getElem?_eq_getElem (show i < strings.length from hi)
  exact ⟨_, rawAt_written hsmall hlengths hs, isValid_rawOf utf8 _⟩

/-- A written pool is in order if the strings were. -/
theorem ascends_written
    (h : strings.Pairwise fun s t => Text.unitsOf s ≤ Text.unitsOf t) :
    (written utf8 sorted strings).Ascends := by
  intro i j s t hij hs ht
  rw [string?_written hsmall hlengths, List.getElem?_eq_some_iff] at hs ht
  obtain ⟨hi, rfl⟩ := hs
  obtain ⟨hj, rfl⟩ := ht
  exact List.pairwise_iff_getElem.mp h i j hi hj hij

end Written

/-- Texts in the order of their units, which is not the order of their characters. -/
def unitOrdered : List String :=
  ["a", "😀", "\uffff"]

theorem indexOf?_exact_unitOrdered :
    load (encode true true unitOrdered).toByteArray = .ok (written true true unitOrdered) ∧
      (written true true unitOrdered).Decodes ∧ (written true true unitOrdered).Ascends ∧
      (∃ i, (written true true unitOrdered).indexOf? "😀" = some i) ∧
      load (encode false false ["b", "a", "b"]).toByteArray =
        .ok (written false false ["b", "a", "b"]) ∧
      ∃ i, (written false false ["b", "a", "b"]).indexOf? "b" = some i ∧ 2 ≤ i := by
  have hsmall : (parts true true unitOrdered).size < 4294967296 := by decide +kernel
  have hlengths : true = true → ∀ s ∈ unitOrdered, (Text.utf8Bytes s).length < 32768 := by
    decide +kernel
  have hload := load_encode hsmall
  have hdecodes := decodes_written hsmall hlengths
  have hascends := ascends_written hsmall hlengths (by decide +kernel)
  have hoccurs := string?_written hsmall hlengths 1
  have hsmall' : (parts false false ["b", "a", "b"]).size < 4294967296 := by decide +kernel
  have hload' := load_encode hsmall'
  have hdecodes' := decodes_written hsmall' nofun
  have hlast := string?_written hsmall' nofun 2
  obtain ⟨hfound, hgreatest⟩ := (indexOf?_exact hload' "b").2 hdecodes' nofun
  obtain ⟨i, hi⟩ := hfound.mpr ⟨2, hlast⟩
  refine ⟨hload, hdecodes, hascends, ?_, hload', i, hi, hgreatest rfl i hi 2 hlast⟩
  exact ((indexOf?_exact hload "😀").2 hdecodes fun _ => hascends).1.mpr ⟨1, hoccurs⟩

end StringPool

end AppResources
