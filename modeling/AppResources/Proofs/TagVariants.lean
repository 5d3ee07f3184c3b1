import AppResources.Proofs.SubtagKinds
import AppResources.Proofs.SubtagWord

/-!
# Variants of a tag

The variant of a locale is one field, and every variant of a tag is written to its front. A
shorter one leaves the end of the one before it, so that what the field holds need not be a
subtag of the tag. The last variant is what it holds if and only if none before is longer.

## Main definitions

* `Locale.variantsOf`: those that are variants.
* `Locale.overlaid`: variants written over each other.
* `Locale.TakesVariantWhole`: what the field holds is nothing or one subtag.

## Main results

* `variant_ofTag`: the variant that a tag leaves.
* `takesVariantWhole_iff`: when it is nothing or one subtag.
* `not_forall_takesVariantWhole`: it is not always.
-/

namespace AppResources

namespace Locale

/-! ## Which subtags are variants -/

/-- The variants among subtags: those in front of the first subtag of no kind. -/
def variantsOf (parts : List (List UInt8)) : List (List UInt8) :=
  (parts.takeWhile (PartKind.of · ≠ .other)).filter (PartKind.of · = .variant)

variable {l : Locale} {s : TagState} {part : List UInt8} {parts : List (List UInt8)}

/-- Behind a subtag of no kind there are no more variants. -/
theorem variant_readPart_of_ne_base (l : Locale) (part : List UInt8) (hs : s ≠ .base) :
    (readPart (s, l) part).1 ≠ .base ∧ (readPart (s, l) part).2.variant = l.variant := by
  cases s with
  | base => exact absurd rfl hs
  | ended => exact ⟨hs, rfl⟩
  | extension s =>
      refine ⟨readExtension_fst_ne_base, ?_⟩
      show (l.readExtension s part).2.variant = l.variant
      obtain hsame | ⟨-, -, -, hnumbering⟩ := l.readExtension_cases s part
      · rw [hsame]
      · rw [hnumbering]

theorem variant_foldl_of_ne_base (hs : s ≠ .base) :
    (parts.foldl readPart (s, l)).2.variant = l.variant := by
  induction parts generalizing s l with
  | nil => rfl
  | cons part parts ih =>
      obtain ⟨hs', hvariant⟩ := variant_readPart_of_ne_base l part hs
      rw [List.foldl_cons, ← hvariant]
      exact ih hs'

/-- Subtags write their variants over the one that is there. -/
theorem variant_foldl_readPart (l : Locale) (parts : List (List UInt8)) :
    (parts.foldl readPart (.base, l)).2.variant =
      (variantsOf parts).foldl LongSubtag.overwrite l.variant := by
  induction parts generalizing l with
  | nil => rfl
  | cons part parts ih =>
      rw [List.foldl_cons]
      show (parts.foldl readPart (l.readBase part)).2.variant = _
      cases hkind : PartKind.of part with
      | code =>
          rw [readBase_code hkind, ih]
          have hvariants : variantsOf (part :: parts) = variantsOf parts := by
            simp [variantsOf, hkind]
          rw [hvariants]
          split <;> rfl
      | script =>
          rw [readBase_script hkind, ih]
          simp [variantsOf, hkind]
      | variant =>
          rw [readBase_variant hkind, ih]
          simp [variantsOf, hkind]
      | other =>
          obtain ⟨s, hs, hread⟩ := readBase_other (l := l) hkind
          rw [hread, variant_foldl_of_ne_base hs]
          simp [variantsOf, hkind]

/-! ## Variants written over each other -/

/-- A variant in lower case, written over the front of another one. -/
def overlay (old variant : List UInt8) : List UInt8 :=
  variant.map Text.lowerByte ++ old.drop variant.length

/-- Variants in lower case, each one written over the front of those before it. -/
def overlaid (variants : List (List UInt8)) : List UInt8 := variants.foldl overlay []

variable {old : List UInt8} {variants : List (List UInt8)} {n : Nat}

theorem foldl_overwrite_padded (variants : List (List UInt8)) (old : List UInt8) :
    variants.foldl LongSubtag.overwrite (padded 8 old) =
      padded 8 (variants.foldl overlay old) := by
  induction variants generalizing old with
  | nil => rfl
  | cons v variants ih =>
      rw [List.foldl_cons, overwrite_padded, List.foldl_cons]
      exact ih (overlay old v)

/-- The variant that a tag leaves. -/
theorem variant_ofTag (tag : String) :
    (ofTag tag).variant = padded 8 (overlaid (variantsOf (subtags tag))) := by
  have hscript : (ofTag tag).variant =
      ((subtags tag).foldl readPart (.base, {})).2.variant := by
    show (ite _ _ _ : Locale).variant = _
    split <;> rfl
  rw [hscript, variant_foldl_readPart]
  exact foldl_overwrite_padded _ []

theorem length_overlay (old v : List UInt8) :
    (overlay old v).length = max old.length v.length := by
  rw [overlay, List.length_append, List.length_map, List.length_drop]
  omega

theorem length_foldl_overlay_le_iff :
    (variants.foldl overlay old).length ≤ n ↔ old.length ≤ n ∧ ∀ v ∈ variants, v.length ≤ n := by
  induction variants generalizing old with
  | nil => simp
  | cons v variants ih =>
      rw [List.foldl_cons, ih, length_overlay, List.forall_mem_cons, Nat.max_le, and_assoc]

/-- What is written over each other is as long as the longest variant. -/
theorem length_overlaid_le_iff :
    (overlaid variants).length ≤ n ↔ ∀ v ∈ variants, v.length ≤ n := by
  rw [overlaid, length_foldl_overlay_le_iff]
  simp

/-- The last variant is what remains if none is longer. -/
theorem overlaid_eq_last_iff {last : List UInt8} (hlast : variants.getLast? = some last) :
    overlaid variants = last.map Text.lowerByte ↔ ∀ v ∈ variants, v.length ≤ last.length := by
  obtain ⟨before, rfl⟩ := List.getLast?_eq_some_iff.mp hlast
  have hsplit : overlaid (before ++ [last]) =
      last.map Text.lowerByte ++ (overlaid before).drop last.length := by
    rw [overlaid, List.foldl_append]
    rfl
  rw [hsplit, List.append_right_eq_self, List.drop_eq_nil_iff, length_overlaid_le_iff,
    List.forall_mem_append, List.forall_mem_singleton]
  exact (and_iff_left (Nat.le_refl _)).symm

/-- There are no zeros in variants of letters and digits. -/
theorem ne_zero_of_mem_overlaid
    (hvariants : ∀ v ∈ variants, Text.IsWord v) :
    ∀ b ∈ overlaid variants, b ≠ 0 := by
  refine List.foldlRecOn (motive := fun bytes => ∀ b ∈ bytes, b ≠ 0) variants overlay
    (by simp) ?_
  intro old hold v hv b hb
  rcases List.mem_append.mp hb with hfront | hbehind
  · exact (Text.plain_of_isWord (hvariants v hv) b hfront).1
  · exact hold b (List.mem_of_mem_drop hbehind)

/-! ## Taken whole -/

/-- The variant that a tag leaves is none, or a subtag in lower case with zeros behind it. -/
def TakesVariantWhole (tag : String) : Prop :=
  (ofTag tag).variant.toList = List.replicate 8 0 ∨
    ∃ part ∈ subtags tag,
      (ofTag tag).variant.toList =
        part.map Text.lowerByte ++ List.replicate (8 - part.length) 0

instance (tag : String) : Decidable (TakesVariantWhole tag) := by
  unfold TakesVariantWhole
  infer_instance

theorem toList_padded_eq_iff {bytes field : List UInt8} (hfield : ∀ b ∈ field, b ≠ 0)
    (hlength : field.length ≤ n) (hbytes : ∀ b ∈ bytes, b ≠ 0) :
    (padded n field).toList = bytes ++ List.replicate (n - bytes.length) 0 ↔ bytes = field := by
  constructor
  · intro h
    have hfront : ∀ b ∈ bytes, decide (b ≠ 0) = true := fun b hb => decide_eq_true (hbytes b hb)
    rw [← takeWhile_padded hfield hlength, h, List.takeWhile_append_of_pos hfront]
    simp
  · rintro rfl
    exact toList_padded hlength

theorem variantsOf_sublist (parts : List (List UInt8)) : (variantsOf parts).Sublist parts :=
  List.filter_sublist.trans (List.takeWhile_sublist _)

theorem of_mem_variantsOf {v : List UInt8} (h : v ∈ variantsOf parts) :
    PartKind.of v = .variant :=
  of_decide_eq_true (List.mem_filter.mp h).2

/-- Of a tag of letters and digits the variant is taken whole if and only if it has none, or its
variants written over each other are one of its subtags again. In particular the last variant is
what remains if and only if no variant is longer. -/
theorem takesVariantWhole_iff (tag : String) (h : LettersAndDigits tag) :
    let variants := variantsOf (subtags tag)
    (TakesVariantWhole tag ↔
      variants = [] ∨ ∃ part ∈ subtags tag, part.map Text.lowerByte = overlaid variants) ∧
    ∀ last, variants.getLast? = some last →
      ((ofTag tag).variant.toList =
          last.map Text.lowerByte ++ List.replicate (8 - last.length) 0 ↔
        ∀ v ∈ variants, v.length ≤ last.length) := by
  intro variants
  have hvariants : ∀ v ∈ variants, v ∈ subtags tag := fun v hv =>
    (variantsOf_sublist _).subset hv
  have hzero : ∀ b ∈ overlaid variants, b ≠ 0 :=
    ne_zero_of_mem_overlaid fun v hv => h v (hvariants v hv)
  have hlength : (overlaid variants).length ≤ 8 :=
    length_overlaid_le_iff.mpr fun v hv =>
      (PartKind.of_eq_variant_iff.mp (of_mem_variantsOf hv)).2.1
  have hpart : ∀ part ∈ subtags tag,
      ((ofTag tag).variant.toList =
          part.map Text.lowerByte ++ List.replicate (8 - part.length) 0 ↔
        part.map Text.lowerByte = overlaid variants) := by
    intro part hmem
    have hsame : (part.map Text.lowerByte).length = part.length := List.length_map _
    rw [variant_ofTag, ← hsame]
    exact toList_padded_eq_iff hzero hlength fun b hb => (Text.plain_of_isWord (h part hmem) b hb).1
  have hnone : (ofTag tag).variant.toList = List.replicate 8 0 ↔ variants = [] := by
    have hnil : ∀ b ∈ ([] : List UInt8), b ≠ 0 := by simp
    rw [variant_ofTag]
    refine (toList_padded_eq_iff hzero hlength hnil).trans ?_
    rw [eq_comm, ← List.length_eq_zero_iff, ← Nat.le_zero, length_overlaid_le_iff,
      List.eq_nil_iff_forall_not_mem]
    refine forall₂_congr fun v hv => iff_of_false (fun hnil => ?_) not_false
    have hlow := (PartKind.of_eq_variant_iff.mp (of_mem_variantsOf hv)).1
    omega
  constructor
  · exact or_congr hnone (exists_congr fun part => and_congr_right (hpart part))
  · intro last hlast
    rw [hpart last (hvariants last (List.mem_of_getLast? hlast)), eq_comm]
    exact overlaid_eq_last_iff hlast

/-- The standard orthography of Resia is written over the dialect. -/
theorem variant_slovenian :
    LettersAndDigits "sl-rozaj-1994" ∧
      (ofTag "sl-rozaj-1994").variant.toList ≠
        (Text.utf8Bytes "1994").map Text.lowerByte ++ List.replicate 4 0 := by
  have hword : LettersAndDigits "sl-rozaj-1994" := by decide +kernel
  have hlast : (variantsOf (subtags "sl-rozaj-1994")).getLast? = some (Text.utf8Bytes "1994") := by
    decide +kernel
  refine ⟨hword, fun hwhole => ?_⟩
  have hshorter := ((takesVariantWhole_iff "sl-rozaj-1994" hword).2 _ hlast).mp hwhole
  exact absurd (hshorter (Text.utf8Bytes "rozaj") (by decide +kernel)) (by decide +kernel)

/-- The front of a longer variant is lost. -/
theorem not_forall_takesVariantWhole :
    ¬ ∀ tag, LettersAndDigits tag → TakesVariantWhole tag := by
  intro h
  have hwhole := h "sl-rozaj-1994" (by decide +kernel)
  revert hwhole
  decide +kernel

end Locale

end AppResources
