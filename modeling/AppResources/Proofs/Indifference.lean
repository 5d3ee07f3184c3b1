import AppResources.Proofs.Fitting
import AppResources.Proofs.Preference

/-!
# Variants that two devices cannot tell apart

A variant that leaves a field unset is read the same way for every value that a device may
have there. So two devices treat a variant alike if they agree on all fields that it sets.
The difference of two configurations names an axis for every field that fitting or the
ranking reads (`Covers`), and therefore the devices agree on what a variant sets as soon as
their difference shares no axis with the difference of the variant from the default.

The locale is read as a whole, with a computed script, which is no difference. There the
devices have to be equal where they do not differ.

## Main definitions

* `Config.Covers`: an axis that reports every change of something.
* `Config.Indifferent`: a variant for which it does not matter which of two devices asks.

## Main results

* `indifferent_of_disjoint`: a variant along whose axes two devices do not differ.
* `Indifferent.fits_eq`, `Indifferent.isBetter_eq`: it fits both or none, and both rank it
  alike.
-/

namespace AppResources

namespace Axes

variable {a b c x : Axes} {as : List Axes}

theorem subset_iff : a.subset b = true ↔ a.inter b = a := by
  unfold subset
  exact beq_iff_eq

theorem intersects_eq_false_iff : a.intersects b = false ↔ a.inter b = .none := by
  unfold intersects
  rw [Bool.not_eq_false', isEmpty_iff]

theorem inter_comm (a b : Axes) : a.inter b = b.inter a := by
  simp only [inter, UInt32.and_comm]

theorem inter_assoc (a b c : Axes) : (a.inter b).inter c = a.inter (b.inter c) := by
  simp only [inter, UInt32.and_assoc]

theorem inter_none (a : Axes) : a.inter .none = .none := by
  simp only [inter, none, UInt32.and_zero]

theorem inter_union (a b c : Axes) : a.inter (b.union c) = (a.inter b).union (a.inter c) := by
  have hbits : a.bits &&& (b.bits ||| c.bits) = (a.bits &&& b.bits) ||| (a.bits &&& c.bits) :=
    UInt32.toBitVec_inj.mp BitVec.and_or_distrib_left
  rw [inter, union, hbits]
  rfl

theorem intersects_comm (a b : Axes) : a.intersects b = b.intersects a := by
  rw [intersects, inter_comm]
  rfl

/-- A set that shares no axis with a union shares none with its parts. -/
theorem intersects_union_eq_false_iff :
    a.intersects (b.union c) = false ↔ a.intersects b = false ∧ a.intersects c = false := by
  simp only [intersects_eq_false_iff, inter_union, union_eq_none_iff]

theorem intersects_of_subset (h : b.subset c = true) (hc : a.intersects c = false) :
    a.intersects b = false := by
  rw [intersects_eq_false_iff] at hc ⊢
  rw [← subset_iff.mp h, inter_comm b c, ← inter_assoc, hc, inter_comm, inter_none]

/-- What belongs to two sets that share nothing is nothing. -/
theorem eq_none_of_disjoint (ha : x.subset a = true) (hb : x.subset b = true)
    (h : a.intersects b = false) : x = .none := by
  have hxa := intersects_of_subset ha ((intersects_comm b a).trans h)
  rw [intersects_eq_false_iff, inter_comm, subset_iff.mp hb] at hxa
  exact hxa

theorem subset_union_left (h : x.subset a = true) : x.subset (a.union b) = true := by
  have hx := subset_iff.mp h
  rw [subset_iff, inter_union, hx]
  have habsorb : x.bits ||| (x.bits &&& b.bits) = x.bits :=
    UInt32.toBitVec_inj.mp (BitVec.eq_of_getLsbD_eq fun i hi => by simp; grind)
  exact congrArg Axes.mk habsorb

theorem subset_union_right (h : x.subset b = true) : x.subset (a.union b) = true := by
  have hswap : a.union b = b.union a := congrArg Axes.mk (UInt32.or_comm a.bits b.bits)
  rw [hswap]
  exact subset_union_left h

theorem subset_self (a : Axes) : a.subset a = true := by
  rw [subset_iff, inter, UInt32.and_self]

theorem none_subset (a : Axes) : none.subset a = true := by
  rw [subset_iff, inter_comm, inter_none]

theorem subset_trans (hab : a.subset b = true) (hbc : b.subset c = true) : a.subset c = true := by
  rw [subset_iff] at hab hbc ⊢
  rw [← hab, inter_assoc, hbc]

/-- What contains two sets contains their union. -/
theorem union_subset (ha : a.subset c = true) (hb : b.subset c = true) :
    (a.union b).subset c = true := by
  rw [subset_iff] at ha hb ⊢
  rw [inter_comm, inter_union, inter_comm c a, inter_comm c b, ha, hb]

/-- A union contains its members. -/
theorem subset_foldl_union (h : x ∈ as) : x.subset (as.foldl union b) = true := by
  have hstart : ∀ (as : List Axes) {b : Axes}, x.subset b = true →
      x.subset (as.foldl union b) = true := by
    intro as
    induction as with
    | nil => exact fun h => h
    | cons y as ih => exact fun h => ih (subset_union_left h)
  induction as generalizing b with
  | nil => cases h
  | cons y as ih =>
      rcases List.mem_cons.mp h with rfl | h
      · exact hstart as (subset_union_right (subset_iff.mpr (by simp [inter])))
      · exact ih h

end Axes

namespace ConfigField

/-- The axis along which a field is reported. -/
@[simp] def axis : ConfigField → Axes
  | .layoutDirection => .layoutDirection
  | .sizeClass | .aspect => .screenLayout
  | .roundness => .screenRound
  | .gamut | .dynamicRange => .colorMode
  | .orientation => .orientation
  | .deviceKind | .night => .uiMode
  | .touchscreen => .touchscreen
  | .keysHidden | .navigationHidden => .keyboardHidden
  | .keyboard => .keyboard
  | .navigation => .navigation

end ConfigField

namespace Config

/-- The axis is reported wherever two configurations differ by what is read of them. -/
def Covers {α : Type} (x : Axes) (read : Config → α) : Prop :=
  ∀ a b : Config, read a ≠ read b → x.subset (a.difference b) = true

variable {v w a b : Config}

/-- An axis is reported under its condition. -/
theorem subset_foldl_when {x : Axes} {c : Bool} {xs : List Axes}
    (hmem : Axes.when c x ∈ xs) (h : c = true) :
    x.subset (xs.foldl Axes.union .none) = true := by
  have hx : Axes.when c x = x := if_pos h
  exact Axes.subset_foldl_union (hx ▸ hmem)

/-! ## What is covered -/

theorem covers_mcc : Covers .mcc (·.mcc) := fun a b h =>
  subset_foldl_when (c := a.mcc != b.mcc) (by simp) (by simpa using h)

theorem covers_mnc : Covers .mnc (·.mnc) := fun a b h =>
  subset_foldl_when (c := a.mnc != b.mnc) (by simp) (by simpa using h)

theorem covers_density : Covers .density (·.density) := fun a b h =>
  subset_foldl_when (c := a.density != b.density) (by simp) (by simpa using h)

theorem covers_smallestWidthDp : Covers .smallestScreenSize (·.smallestWidthDp) := fun a b h =>
  subset_foldl_when (c := a.smallestWidthDp != b.smallestWidthDp) (by simp) (by simpa using h)

theorem covers_screenSize : Covers .screenSize fun c => (c.screenWidth, c.screenHeight) := by
  intro a b h
  refine subset_foldl_when (c := a.screenSizeWord != b.screenSizeWord) (by simp) ?_
  rw [bne_iff_ne, ne_eq, screenSizeWord, screenSizeWord, pair_inj]
  simpa using h

theorem covers_screenSizeDp : Covers .screenSize fun c => (c.widthDp, c.heightDp) := by
  intro a b h
  refine subset_foldl_when (c := a.screenSizeDpWord != b.screenSizeDpWord) (by simp) ?_
  rw [bne_iff_ne, ne_eq, screenSizeDpWord, screenSizeDpWord, pair_inj]
  simpa using h

theorem covers_version : Covers .version fun c => (c.sdkVersion, c.minorVersion) := by
  intro a b h
  refine subset_foldl_when (c := a.versionWord != b.versionWord) (by simp) ?_
  rw [bne_iff_ne, ne_eq, versionWord, versionWord, pair_inj]
  simpa using h

/-- Every field that is kept in some bits of a byte is covered by its axis. -/
theorem covers_field (f : ConfigField) : Covers f.axis f.get := by
  intro a b h
  have hdiffers : fieldDiffers f a b = true := bne_iff_ne.mpr h
  -- a byte without other fields is compared as a whole
  have hbyte : f.byte a ≠ f.byte b := fun heq => h (by rw [ConfigField.get, heq]; rfl)
  have hor : ∀ {p q : Bool}, p = true ∨ q = true → (p || q) = true := by simp
  cases f with
  | layoutDirection =>
      exact subset_foldl_when (c := fieldDiffers .layoutDirection a b) (by simp) hdiffers
  | sizeClass =>
      exact subset_foldl_when (c := fieldDiffers .sizeClass a b || fieldDiffers .aspect a b)
        (by simp) (hor (.inl hdiffers))
  | aspect =>
      exact subset_foldl_when (c := fieldDiffers .sizeClass a b || fieldDiffers .aspect a b)
        (by simp) (hor (.inr hdiffers))
  | roundness => exact subset_foldl_when (c := fieldDiffers .roundness a b) (by simp) hdiffers
  | gamut =>
      exact subset_foldl_when (c := fieldDiffers .gamut a b || fieldDiffers .dynamicRange a b)
        (by simp) (hor (.inl hdiffers))
  | dynamicRange =>
      exact subset_foldl_when (c := fieldDiffers .gamut a b || fieldDiffers .dynamicRange a b)
        (by simp) (hor (.inr hdiffers))
  | keysHidden =>
      exact subset_foldl_when
        (c := fieldDiffers .keysHidden a b || fieldDiffers .navigationHidden a b)
        (by simp) (hor (.inl hdiffers))
  | navigationHidden =>
      exact subset_foldl_when
        (c := fieldDiffers .keysHidden a b || fieldDiffers .navigationHidden a b)
        (by simp) (hor (.inr hdiffers))
  | orientation =>
      exact subset_foldl_when (c := a.orientation != b.orientation) (by simp)
        (bne_iff_ne.mpr hbyte)
  | touchscreen =>
      exact subset_foldl_when (c := a.touchscreen != b.touchscreen) (by simp)
        (bne_iff_ne.mpr hbyte)
  | keyboard =>
      exact subset_foldl_when (c := a.keyboard != b.keyboard) (by simp) (bne_iff_ne.mpr hbyte)
  | navigation =>
      exact subset_foldl_when (c := a.navigation != b.navigation) (by simp)
        (bne_iff_ne.mpr hbyte)
  | deviceKind =>
      exact subset_foldl_when (c := a.uiMode != b.uiMode) (by simp) (bne_iff_ne.mpr hbyte)
  | night =>
      exact subset_foldl_when (c := a.uiMode != b.uiMode) (by simp) (bne_iff_ne.mpr hbyte)

/-- Of a locale all is covered but a computed script. -/
theorem covers_locale : Covers .locale (·.locale.plain) := fun a b h =>
  subset_foldl_when (c := a.locale.order b.locale != .eq) (by simp)
    (bne_iff_ne.mpr fun heq => h (Locale.order_eq_iff.mp heq))

/-- What is covered is the default in a variant, or two devices agree on it, if along no
axis both the variant and the devices differ. -/
theorem Covers.unset_or_eq {α : Type} {x : Axes} {read : Config → α} (hread : Covers x read)
    (hx : x ≠ .none) (h : (a.difference b).intersects (v.difference .default) = false) :
    read v = read .default ∨ read a = read b := by
  by_cases hv : read v = read .default
  · exact Or.inl hv
  · by_cases hab : read a = read b
    · exact Or.inr hab
    · exact absurd (Axes.eq_none_of_disjoint (hread a b hab) (hread v .default hv) h) hx

theorem axis_ne_none (f : ConfigField) : f.axis ≠ .none := by
  cases f <;> decide

/-! ## Indifferent variants -/

/-- A variant for which it does not matter which of two devices asks: each field is unset in
the variant, or the devices agree on it. -/
structure Indifferent (a b v : Config) : Prop where
  mcc : v.mcc = 0 ∨ a.mcc = b.mcc
  mnc : v.mnc = 0 ∨ a.mnc = b.mnc
  locale : v.locale.code = 0 ∨ a.locale = b.locale
  field : ∀ f : ConfigField, f.get v = 0 ∨ f.get a = f.get b
  density : v.density = 0 ∨ a.density = b.density
  smallestWidthDp : v.smallestWidthDp = 0 ∨ a.smallestWidthDp = b.smallestWidthDp
  size : (v.screenWidth = 0 ∧ v.screenHeight = 0) ∨
    (a.screenWidth = b.screenWidth ∧ a.screenHeight = b.screenHeight)
  sizeDp : (v.widthDp = 0 ∧ v.heightDp = 0) ∨ (a.widthDp = b.widthDp ∧ a.heightDp = b.heightDp)
  version : (v.sdkVersion = 0 ∧ v.minorVersion = 0) ∨
    (a.sdkVersion = b.sdkVersion ∧ a.minorVersion = b.minorVersion)

theorem indifferent_of_disjoint (h : (a.difference b).intersects (v.difference .default) = false)
    (hlocale : a.locale.plain = b.locale.plain → a.locale = b.locale) : Indifferent a b v where
  mcc := covers_mcc.unset_or_eq (by decide) h
  mnc := covers_mnc.unset_or_eq (by decide) h
  locale := by
    rcases covers_locale.unset_or_eq (by decide) h with hv | hab
    · refine Or.inl ?_
      have hlanguage := congrArg Locale.language hv
      have hregion := congrArg Locale.region hv
      change v.locale.language = .none at hlanguage
      change v.locale.region = .none at hregion
      rw [Locale.code, hlanguage, hregion]
      rfl
    · exact Or.inr (hlocale hab)
  field f := by
    have hf := (covers_field f).unset_or_eq (axis_ne_none f) h
    have hdefault : f.get .default = 0 := by cases f <;> rfl
    rwa [hdefault] at hf
  density := covers_density.unset_or_eq (by decide) h
  smallestWidthDp := covers_smallestWidthDp.unset_or_eq (by decide) h
  size := (covers_screenSize.unset_or_eq (by decide) h).imp Prod.mk.inj Prod.mk.inj
  sizeDp := (covers_screenSizeDp.unset_or_eq (by decide) h).imp Prod.mk.inj Prod.mk.inj
  version := (covers_version.unset_or_eq (by decide) h).imp Prod.mk.inj Prod.mk.inj

variable {d : UInt16}

/-- The same density for both devices takes nothing away. -/
theorem Indifferent.withDensity (h : Indifferent a b v) :
    Indifferent { a with density := d } { b with density := d } v where
  mcc := h.mcc
  mnc := h.mnc
  locale := h.locale
  field f := by
    have hget : ∀ c : Config, f.get { c with density := d } = f.get c := fun c => by
      cases f <;> rfl
    rw [hget, hget]
    exact h.field f
  density := Or.inr rfl
  smallestWidthDp := h.smallestWidthDp
  size := h.size
  sizeDp := h.sizeDp
  version := h.version

/-! ### Fitting -/

section Fits

variable {x y z : UInt16} {f : ConfigField}

theorem allowsSame_congr (h : x = 0 ∨ y = z) : allowsSame x y = allowsSame x z := by
  rcases h with rfl | rfl <;> rfl

theorem allowsUpTo_congr (h : x = 0 ∨ y = z) : allowsUpTo x y = allowsUpTo x z := by
  rcases h with rfl | rfl <;> rfl

theorem allowsField_congr (h : f.get v = 0 ∨ f.get a = f.get b) :
    allowsField f v a = allowsField f v b := by
  unfold allowsField
  rcases h with h | h
  · rw [h]
    rfl
  · rw [h]

theorem allowsKeysHidden_congr
    (h : ConfigField.keysHidden.get v = 0 ∨
      ConfigField.keysHidden.get a = ConfigField.keysHidden.get b) :
    allowsKeysHidden v a = allowsKeysHidden v b := by
  unfold allowsKeysHidden
  rw [allowsField_congr h]
  rcases h with h | h
  · simp [h, keysExposed]
  · rw [h]

end Fits

theorem Indifferent.fits_eq (h : Indifferent a b v) : v.fits a = v.fits b := by
  have hlocale : (v.locale.code == 0 || v.locale.fits a.locale) =
      (v.locale.code == 0 || v.locale.fits b.locale) := by
    rcases h.locale with hv | hab
    · rw [hv]
      rfl
    · rw [hab]
  have hsizeClass : (ConfigField.sizeClass.get v == 0 ||
        ConfigField.sizeClass.get v ≤ ConfigField.sizeClass.get a) =
      (ConfigField.sizeClass.get v == 0 ||
        ConfigField.sizeClass.get v ≤ ConfigField.sizeClass.get b) := by
    rcases h.field .sizeClass with hv | hab
    · rw [hv]
      rfl
    · rw [hab]
  have hfield : ∀ f, allowsField f v a = allowsField f v b := fun f =>
    allowsField_congr (h.field f)
  have hsize := And.intro (allowsUpTo_congr (h.size.imp And.left And.left))
    (allowsUpTo_congr (h.size.imp And.right And.right))
  have hsizeDp := And.intro (allowsUpTo_congr (h.sizeDp.imp And.left And.left))
    (allowsUpTo_congr (h.sizeDp.imp And.right And.right))
  have hversion := And.intro (allowsUpTo_congr (h.version.imp And.left And.left))
    (allowsSame_congr (h.version.imp And.right And.right))
  unfold fits
  rw [allowsSame_congr h.mcc, allowsSame_congr h.mnc, hlocale, hsizeClass,
    allowsUpTo_congr h.smallestWidthDp, allowsKeysHidden_congr (h.field .keysHidden), hsize.1,
    hsize.2, hsizeDp.1, hsizeDp.2, hversion.1, hversion.2]
  simp only [hfield]

/-! ### Ranking -/

section Ranking

variable {f : ConfigField}

theorem set_congr {α : Type} [BEq α] [LawfulBEq α] {unset x y z z' : α}
    (h : (x = unset ∧ y = unset) ∨ z = z') :
    Preference.set unset z x y = Preference.set unset z' x y := by
  unfold Preference.set
  rcases h with ⟨rfl, rfl⟩ | rfl
  · simp
  · rfl

theorem preferField_congr (h : (f.get v = 0 ∧ f.get w = 0) ∨ f.get a = f.get b) :
    preferField f a v w = preferField f b v w :=
  set_congr h

theorem preferLocale_congr
    (h : (v.locale.code = 0 ∧ w.locale.code = 0) ∨ a.locale = b.locale) :
    preferLocale a v w = preferLocale b v w := by
  unfold preferLocale
  rcases h with ⟨hv, hw⟩ | h
  · have hnone : ∀ l l' request : Locale, l.code = 0 → l'.code = 0 →
        l.isBetter l' request = false := by
      intro l l' request hl hl'
      simp [Locale.isBetter, hl, hl']
    simp only [hnone _ _ _ hv hw, hnone _ _ _ hw hv]
  · rw [h]

theorem preferLayoutDirection_congr
    (h : (ConfigField.layoutDirection.get v = 0 ∧ ConfigField.layoutDirection.get w = 0) ∨
      ConfigField.layoutDirection.get a = ConfigField.layoutDirection.get b) :
    preferLayoutDirection a v w = preferLayoutDirection b v w := by
  unfold preferLayoutDirection
  rcases h with ⟨hv, hw⟩ | h
  · simp [hv, hw, Preference.greater]
  · simp only [h]

theorem preferSizeClass_congr
    (h : (ConfigField.sizeClass.get v = 0 ∧ ConfigField.sizeClass.get w = 0) ∨
      ConfigField.sizeClass.get a = ConfigField.sizeClass.get b) :
    preferSizeClass a v w = preferSizeClass b v w := by
  unfold preferSizeClass effectiveSizeClass
  rcases h with ⟨hv, hw⟩ | h
  · simp [hv, hw]
  · simp only [h]

theorem preferKeysHidden_congr
    (h : (ConfigField.keysHidden.get v = 0 ∧ ConfigField.keysHidden.get w = 0) ∨
      ConfigField.keysHidden.get a = ConfigField.keysHidden.get b) :
    preferKeysHidden a v w = preferKeysHidden b v w := by
  unfold preferKeysHidden
  rcases h with ⟨hv, hw⟩ | h
  · simp [hv, hw]
  · simp only [h]

theorem preferNavigationHidden_congr
    (h : (ConfigField.navigationHidden.get v = 0 ∧ ConfigField.navigationHidden.get w = 0) ∨
      ConfigField.navigationHidden.get a = ConfigField.navigationHidden.get b) :
    preferNavigationHidden a v w = preferNavigationHidden b v w := by
  unfold preferNavigationHidden
  rcases h with ⟨hv, hw⟩ | h
  · simp [hv, hw]
  · simp only [h]

theorem preferDensity_congr (h : (v.density = 0 ∧ w.density = 0) ∨ a.density = b.density) :
    preferDensity a v w = preferDensity b v w := by
  unfold preferDensity
  rcases h with ⟨hv, hw⟩ | h
  · rw [hv, hw, if_pos rfl, if_pos rfl]
  · rw [h]

theorem preferVersion_congr
    (h : (v.sdkVersion = 0 ∧ w.sdkVersion = 0) ∨ a.sdkVersion = b.sdkVersion) :
    preferVersion a v w = preferVersion b v w := by
  unfold preferVersion
  rcases h with ⟨hv, hw⟩ | h
  · simp [hv, hw, Preference.greater]
  · rw [h]

theorem smaller_self (n : Int) : Preference.smaller n n = none := if_pos rfl

theorem preferSize_congr
    (h : ((v.screenWidth = 0 ∧ v.screenHeight = 0) ∧ w.screenWidth = 0 ∧ w.screenHeight = 0) ∨
      (a.screenWidth = b.screenWidth ∧ a.screenHeight = b.screenHeight)) :
    preferSize a v w = preferSize b v w := by
  unfold preferSize
  rcases h with ⟨⟨hv, hv'⟩, hw, hw'⟩ | ⟨h, h'⟩
  · rw [hv, hv', hw, hw', smaller_self, smaller_self]
  · rw [h, h']

theorem preferSizeDp_congr
    (h : ((v.widthDp = 0 ∧ v.heightDp = 0) ∧ w.widthDp = 0 ∧ w.heightDp = 0) ∨
      (a.widthDp = b.widthDp ∧ a.heightDp = b.heightDp)) :
    preferSizeDp a v w = preferSizeDp b v w := by
  unfold preferSizeDp
  rcases h with ⟨⟨hv, hv'⟩, hw, hw'⟩ | ⟨h, h'⟩
  · rw [hv, hv', hw, hw', smaller_self, smaller_self]
  · rw [h, h']

end Ranking

theorem Indifferent.isBetter_eq (hv : Indifferent a b v) (hw : Indifferent a b w) :
    isBetter v w a = isBetter v w b := by
  have hfield : ∀ f : ConfigField, (f.get v = 0 ∧ f.get w = 0) ∨ f.get a = f.get b := fun f =>
    and_or_right.mpr ⟨hv.field f, hw.field f⟩
  have hversion := and_or_right.mpr ⟨hv.version, hw.version⟩
  have hcongr : firstPreference rankingAxes a v w = firstPreference rankingAxes b v w := by
    apply firstPreference_congr
    unfold rankingAxes
    simp only [List.forall_mem_cons]
    refine ⟨set_congr (and_or_right.mpr ⟨hv.mcc, hw.mcc⟩),
      set_congr (and_or_right.mpr ⟨hv.mnc, hw.mnc⟩),
      preferLocale_congr (and_or_right.mpr ⟨hv.locale, hw.locale⟩),
      preferLayoutDirection_congr (hfield _), trivial,
      preferSizeDp_congr (and_or_right.mpr ⟨hv.sizeDp, hw.sizeDp⟩),
      preferSizeClass_congr (hfield _), preferField_congr (hfield _), preferField_congr (hfield _),
      preferField_congr (hfield _), preferField_congr (hfield _), preferField_congr (hfield _),
      preferField_congr (hfield _), preferField_congr (hfield _),
      preferDensity_congr (and_or_right.mpr ⟨hv.density, hw.density⟩),
      preferField_congr (hfield _), preferKeysHidden_congr (hfield _),
      preferNavigationHidden_congr (hfield _), preferField_congr (hfield _),
      preferField_congr (hfield _), preferSize_congr (and_or_right.mpr ⟨hv.size, hw.size⟩),
      preferVersion_congr (hversion.imp (And.imp And.left And.left) And.left),
      set_congr (hversion.imp (And.imp And.right And.right) And.right), ?_⟩
    exact fun _ h => absurd h List.not_mem_nil
  unfold isBetter
  rw [hcongr]

end Config

end AppResources
