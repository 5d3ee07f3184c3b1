import AppResources.Locale.Subtag

/-!
# Packed codes determine their text, and are determined by it

Two zero bytes mean "no code"; any other code has a first byte that is not zero.
Among such codes no two have the same text: codes of two letters show their bytes, and
the fifteen bits of a code of three characters are all visible in its characters.

## Main results

* `unpack_inj`: well-formed codes with one text are equal.
* `bigEndian_inj`: codes with one number are equal.
* `unpack_pack_two` and `unpack_pack_three`: a packed code has the text it was packed from.
* `pack_unpack_three`: a code of three characters is packed from its text.
-/

namespace AppResources

namespace Text

theorem toNat_ofNat_byte (b : UInt8) : (Char.ofNat b.toNat).toNat = b.toNat := by
  have hb : b.toNat.isValidChar := Or.inl (by have := b.toNat_lt; omega)
  rw [Char.ofNat, dif_pos hb]
  rfl

theorem latinChars_inj {xs ys : List UInt8} (h : latinChars xs = latinChars ys) : xs = ys := by
  refine (List.map_inj_right ?_).mp h
  intro a b hab
  have hnat := congrArg Char.toNat hab
  rw [toNat_ofNat_byte, toNat_ofNat_byte] at hnat
  exact UInt8.toNat_inj.mp hnat

theorem length_latinChars (xs : List UInt8) : (latinChars xs).length = xs.length :=
  List.length_map _

end Text

namespace Subtag

/-- Two zero bytes, or a code with a first byte that is not zero. -/
def WellFormed (s : Subtag) : Prop := s = none ∨ s.isSet = true

instance (s : Subtag) : Decidable s.WellFormed := by
  unfold WellFormed
  infer_instance

theorem WellFormed.eq_none {s : Subtag} (hs : s.WellFormed) (h : s.isSet = false) :
    s = none := by
  rcases hs with hs | hs
  · exact hs
  · rw [h] at hs
    cases hs

@[simp] theorem isSet_none : none.isSet = false := rfl

/-- The mark of three characters is a code. -/
theorem isSet_of_long {s : Subtag} (h : 0x80 ≤ s.first) : s.isSet = true := by
  refine bne_iff_ne.mpr fun hzero => ?_
  rw [hzero] at h
  exact absurd h (by decide)

/-- A code is known by the values of its bytes. -/
theorem ext_toNat {s t : Subtag} (hfirst : s.first.toNat = t.first.toNat)
    (hsecond : s.second.toNat = t.second.toNat) : s = t := by
  cases s
  cases t
  rw [Subtag.mk.injEq]
  exact ⟨UInt8.toNat_inj.mp hfirst, UInt8.toNat_inj.mp hsecond⟩

/-! ## The fields of a code of three characters -/

private theorem toNat_and_low (x : UInt8) : (x &&& 0x1f).toNat = x.toNat % 32 := by
  rw [UInt8.toNat_and]
  exact Nat.and_two_pow_sub_one_eq_mod _ 5

private theorem toNat_and_high (x : UInt8) : ((x &&& 0xe0) >>> 5).toNat = x.toNat / 32 := by
  have hx := x.toNat_lt
  rw [UInt8.toNat_shiftRight, UInt8.toNat_and]
  change (x.toNat &&& 224) >>> 5 = _
  rw [Nat.shiftRight_and_distrib]
  change (x.toNat >>> 5) &&& (2 ^ 3 - 1) = _
  rw [Nat.and_two_pow_sub_one_eq_mod, Nat.shiftRight_eq_div_pow]
  omega

private theorem toNat_and_carry (x : UInt8) :
    ((x &&& 0x03) <<< 3).toNat = 8 * (x.toNat % 4) := by
  rw [UInt8.toNat_shiftLeft, UInt8.toNat_and]
  change ((x.toNat &&& (2 ^ 2 - 1)) <<< 3) % 256 = _
  rw [Nat.and_two_pow_sub_one_eq_mod, Nat.shiftLeft_eq]
  omega

private theorem toNat_and_top (x : UInt8) :
    ((x &&& 0x7c) >>> 2).toNat = x.toNat / 4 % 32 := by
  rw [UInt8.toNat_shiftRight, UInt8.toNat_and]
  change (x.toNat &&& 124) >>> 2 = _
  rw [Nat.shiftRight_and_distrib]
  change (x.toNat >>> 2) &&& (2 ^ 5 - 1) = _
  rw [Nat.and_two_pow_sub_one_eq_mod, Nat.shiftRight_eq_div_pow]

/-! ## Texts -/

/-- How many characters a code has tells the three kinds of codes apart. -/
theorem length_unpack (base : UInt8) (s : Subtag) :
    (s.unpack base).length = if 0x80 ≤ s.first then 3 else if s.isSet then 2 else 0 := by
  unfold unpack
  split
  · simp [Text.length_latinChars]
  · split <;> simp [Text.length_latinChars, bytes]

/-- Codes of three characters are read back from these: the five bits of every character
cover the fifteen bits below the mark. -/
private theorem unpack_inj_long {base : UInt8} {s t : Subtag} (hs : 0x80 ≤ s.first)
    (ht : 0x80 ≤ t.first) (h : s.unpack base = t.unpack base) : s = t := by
  rw [unpack, unpack, if_pos hs, if_pos ht] at h
  have hchars := Text.latinChars_inj h
  simp only [List.cons.injEq, UInt8.add_left_inj, and_true] at hchars
  obtain ⟨hone, htwo, hthree⟩ := hchars
  have hone' := congrArg UInt8.toNat hone
  have htwo' := congrArg UInt8.toNat htwo
  have hthree' := congrArg UInt8.toNat hthree
  rw [UInt8.toNat_add, UInt8.toNat_add] at htwo'
  simp only [toNat_and_low, toNat_and_high, toNat_and_carry, toNat_and_top] at hone' htwo' hthree'
  rw [UInt8.le_iff_toNat_le] at hs ht
  change 128 ≤ s.first.toNat at hs
  change 128 ≤ t.first.toNat at ht
  have hs1 := s.first.toNat_lt
  have ht1 := t.first.toNat_lt
  have hs2 := s.second.toNat_lt
  have ht2 := t.second.toNat_lt
  exact ext_toNat (by omega) (by omega)

/-- Well-formed codes with one text are equal. -/
theorem unpack_inj {base : UInt8} {s t : Subtag} (hs : s.WellFormed) (ht : t.WellFormed)
    (h : s.unpack base = t.unpack base) : s = t := by
  have hlength := congrArg List.length h
  rw [length_unpack, length_unpack] at hlength
  by_cases hs3 : 0x80 ≤ s.first
  · by_cases ht3 : 0x80 ≤ t.first
    · exact unpack_inj_long hs3 ht3 h
    · rw [if_pos hs3, if_neg ht3] at hlength
      split at hlength <;> cases hlength
  · by_cases ht3 : 0x80 ≤ t.first
    · rw [if_neg hs3, if_pos ht3] at hlength
      split at hlength <;> cases hlength
    · rw [if_neg hs3, if_neg ht3] at hlength
      cases hss : s.isSet <;> cases hts : t.isSet <;> simp only [hss, hts] at hlength
      · rw [hs.eq_none hss, ht.eq_none hts]
      · simp at hlength
      · simp at hlength
      · rw [unpack, unpack, if_neg hs3, if_neg ht3, if_pos hss, if_pos hts] at h
        have hbytes := Text.latinChars_inj h
        cases s
        cases t
        simpa [bytes] using hbytes

/-- Codes with one number are equal. -/
theorem bigEndian_inj {s t : Subtag} (h : s.bigEndian = t.bigEndian) : s = t := by
  unfold bigEndian at h
  have hs := s.second.toNat_lt
  have ht := t.second.toNat_lt
  exact ext_toNat (by omega) (by omega)

/-! ## Packing -/

/-- A character that five bits count from the base has these bits. -/
theorem toNat_offset {base a : UInt8} (hlow : base ≤ a) (hhigh : a.toNat < base.toNat + 32) :
    ((a - base) &&& 0x7f).toNat = a.toNat - base.toNat := by
  have hle : base.toNat ≤ a.toNat := UInt8.le_iff_toNat_le.mp hlow
  rw [UInt8.toNat_and, UInt8.toNat_sub_of_le a base hlow]
  show (a.toNat - base.toNat) &&& (2 ^ 7 - 1) = _
  rw [Nat.and_two_pow_sub_one_eq_mod]
  omega

private theorem toNat_pack_first (x y : UInt8) (hx : x.toNat < 32) (hy : y.toNat < 32) :
    ((x <<< 2) ||| (y >>> 3) ||| 0x80).toNat = 128 + 4 * x.toNat + y.toNat / 8 := by
  rw [UInt8.toNat_or, UInt8.toNat_or, UInt8.toNat_shiftLeft, UInt8.toNat_shiftRight]
  show ((x.toNat <<< 2) % 2 ^ 8 ||| y.toNat >>> 3) ||| 1 <<< 7 = _
  have hshift : (x.toNat <<< 2) % 2 ^ 8 = x.toNat <<< 2 := by
    rw [Nat.shiftLeft_eq]
    omega
  have hcarry : y.toNat >>> 3 < 2 ^ 2 := by
    rw [Nat.shiftRight_eq_div_pow]
    omega
  have hsum : x.toNat <<< 2 + y.toNat >>> 3 < 2 ^ 7 := by
    rw [Nat.shiftLeft_eq]
    omega
  rw [hshift, ← Nat.shiftLeft_add_eq_or_of_lt hcarry, Nat.or_comm,
    ← Nat.shiftLeft_add_eq_or_of_lt hsum, Nat.shiftLeft_eq, Nat.shiftLeft_eq,
    Nat.shiftRight_eq_div_pow]
  omega

private theorem toNat_pack_second (x y : UInt8) (hx : x.toNat < 32) :
    ((y <<< 5) ||| x).toNat = 32 * (y.toNat % 8) + x.toNat := by
  rw [UInt8.toNat_or, UInt8.toNat_shiftLeft]
  show (y.toNat <<< 5) % 2 ^ 8 ||| x.toNat = _
  have hshift : (y.toNat <<< 5) % 2 ^ 8 = (y.toNat % 8) <<< 5 := by
    rw [Nat.shiftLeft_eq, Nat.shiftLeft_eq]
    omega
  rw [hshift, ← Nat.shiftLeft_add_eq_or_of_lt hx, Nat.shiftLeft_eq]
  omega

section Pack

variable (base a b c : UInt8)

/-- A code of two letters stands as it is. -/
theorem unpack_pack_two (hset : a ≠ 0) (hascii : a < 0x80) :
    (pack base [a, b]).isSet = true ∧ (pack base [a, b]).unpack base = Text.latinChars [a, b] := by
  have hisSet : (pack base [a, b]).isSet = true := bne_iff_ne.mpr hset
  refine ⟨hisSet, ?_⟩
  have hshort : ¬ 0x80 ≤ (pack base [a, b]).first := UInt8.not_le.mpr hascii
  rw [unpack, if_neg hshort, if_pos hisSet]
  rfl

/-- A code of three characters is read back from its bits. -/
theorem unpack_pack_three (ha : base ≤ a ∧ a.toNat < base.toNat + 32)
    (hb : base ≤ b ∧ b.toNat < base.toNat + 32) (hc : base ≤ c ∧ c.toNat < base.toNat + 32) :
    (pack base [a, b, c]).isSet = true ∧
      (pack base [a, b, c]).unpack base = Text.latinChars [a, b, c] := by
  obtain ⟨ha, ha'⟩ := ha
  obtain ⟨hb, hb'⟩ := hb
  obtain ⟨hc, hc'⟩ := hc
  have hone := toNat_offset ha ha'
  have htwo := toNat_offset hb hb'
  have hthree := toNat_offset hc hc'
  have hfirst := toNat_pack_first ((c - base) &&& 0x7f) ((b - base) &&& 0x7f) (by omega) (by omega)
  have hsecond := toNat_pack_second ((a - base) &&& 0x7f) ((b - base) &&& 0x7f) (by omega)
  rw [hone, htwo] at hsecond
  rw [htwo, hthree] at hfirst
  have hle : base.toNat ≤ a.toNat := UInt8.le_iff_toNat_le.mp ha
  have hle' : base.toNat ≤ b.toNat := UInt8.le_iff_toNat_le.mp hb
  have hle'' : base.toNat ≤ c.toNat := UInt8.le_iff_toNat_le.mp hc
  have hacode := a.toNat_lt
  have hbcode := b.toNat_lt
  have hccode := c.toNat_lt
  generalize hs : pack base [a, b, c] = s
  have hs1 : s.first.toNat = 128 + 4 * (c.toNat - base.toNat) + (b.toNat - base.toNat) / 8 :=
    hs ▸ hfirst
  have hs2 : s.second.toNat = 32 * ((b.toNat - base.toNat) % 8) + (a.toNat - base.toNat) :=
    hs ▸ hsecond
  have hlong : 0x80 ≤ s.first := UInt8.le_iff_toNat_le.mpr (by show 128 ≤ _; omega)
  constructor
  · exact isSet_of_long hlong
  · rw [unpack, if_pos hlong]
    have hone : (s.second &&& 0x1f) + base = a := by
      rw [← UInt8.toNat_inj, UInt8.toNat_add, toNat_and_low, hs2]
      omega
    have htwo : ((s.second &&& 0xe0) >>> 5) + ((s.first &&& 0x03) <<< 3) + base = b := by
      have hhigh : (32 * ((b.toNat - base.toNat) % 8) + (a.toNat - base.toNat)) / 32 =
          (b.toNat - base.toNat) % 8 := by omega
      have hcarry : (128 + 4 * (c.toNat - base.toNat) + (b.toNat - base.toNat) / 8) % 4 =
          (b.toNat - base.toNat) / 8 := by omega
      rw [← UInt8.toNat_inj, UInt8.toNat_add, UInt8.toNat_add, toNat_and_high, toNat_and_carry,
        hs1, hs2, hhigh, hcarry]
      omega
    have hthree : ((s.first &&& 0x7c) >>> 2) + base = c := by
      have htop : (128 + 4 * (c.toNat - base.toNat) + (b.toNat - base.toNat) / 8) / 4 =
          32 + (c.toNat - base.toNat) := by omega
      rw [← UInt8.toNat_inj, UInt8.toNat_add, toNat_and_top, hs1, htop]
      omega
    show Text.latinChars [(s.second &&& 0x1f) + base,
      ((s.second &&& 0xe0) >>> 5) + ((s.first &&& 0x03) <<< 3) + base,
      ((s.first &&& 0x7c) >>> 2) + base] = _
    rw [hone, htwo, hthree]

theorem le_first_pack_three : 0x80 ≤ (pack base [a, b, c]).first := by
  rw [UInt8.le_iff_toNat_le]
  show 128 ≤ (_ ||| 0x80 : UInt8).toNat
  rw [UInt8.toNat_or]
  exact Nat.right_le_or

end Pack

/-- A code of three characters is packed from its text. -/
theorem pack_unpack_three {base : UInt8} {s : Subtag} (hbase : base.toNat + 32 ≤ 256)
    (hs : 0x80 ≤ s.first) :
    ∃ a b c, (base ≤ a ∧ a.toNat < base.toNat + 32) ∧ (base ≤ b ∧ b.toNat < base.toNat + 32) ∧
      (base ≤ c ∧ c.toNat < base.toNat + 32) ∧ s.unpack base = Text.latinChars [a, b, c] ∧
        pack base [a, b, c] = s := by
  have hoffset : ∀ x : UInt8, x.toNat < 32 →
      base ≤ x + base ∧ (x + base).toNat < base.toNat + 32 := by
    intro x hx
    have hsum : (x + base).toNat = x.toNat + base.toNat := by
      rw [UInt8.toNat_add]
      exact Nat.mod_eq_of_lt (by omega)
    rw [UInt8.le_iff_toNat_le, hsum]
    omega
  have hone := hoffset (s.second &&& 0x1f) (by rw [toNat_and_low]; omega)
  have htwo := hoffset (((s.second &&& 0xe0) >>> 5) + ((s.first &&& 0x03) <<< 3)) (by
    have hsecond := s.second.toNat_lt
    rw [UInt8.toNat_add, toNat_and_high, toNat_and_carry]
    omega)
  have hthree := hoffset ((s.first &&& 0x7c) >>> 2) (by rw [toNat_and_top]; omega)
  have htext : s.unpack base = Text.latinChars [(s.second &&& 0x1f) + base,
      ((s.second &&& 0xe0) >>> 5) + ((s.first &&& 0x03) <<< 3) + base,
      ((s.first &&& 0x7c) >>> 2) + base] := by
    rw [unpack, if_pos hs]
  have hpacked := unpack_pack_three base _ _ _ hone htwo hthree
  exact ⟨_, _, _, hone, htwo, hthree, htext,
    unpack_inj (Or.inr hpacked.1) (Or.inr (isSet_of_long hs)) (hpacked.2.trans htext.symm)⟩

end Subtag

end AppResources
