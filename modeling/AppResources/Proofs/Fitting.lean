import AppResources.Config.Matching
import AppResources.Proofs.ConfigDifference

/-!
# What fitting sees

A variant that fits a device leaves a field unset or sets it to the device's value, but for
the fields that are compared by size and for hidden keys.

Of a device fitting sees its plain form, and one thing more. A device that has a script,
whether it is computed or not, takes variants by their script, and a device that has none
takes them by their region. Two devices that differ in this alone are told apart by a
variant for another region in the script that one of them asks for.

## Main results

* `allowsField_of_fits`, `allowsSame_of_fits`, `le_of_fits`: the fields of a variant that
  fits.
* `fits_congr`: devices with one plain form and one script that is asked for are fitted by
  the same variants.
* `exists_fits_ne`: devices with one plain form that ask for different scripts are not.
-/

namespace AppResources

namespace Locale

/-- The script that a device asks for, if it has one. -/
def askedScript? (l : Locale) : Option Script :=
  if l.script.isSet then some l.script else none

variable {l device device' : Locale}

@[simp] theorem isSome_askedScript? (l : Locale) : l.askedScript?.isSome = l.script.isSet := by
  unfold askedScript?
  cases l.script.isSet <;> rfl

/-- A script that is asked for is one. -/
theorem isSet_of_askedScript? {asked : Script} (h : device.askedScript? = some asked) :
    asked.isSet = true := by
  unfold askedScript? at h
  split at h
  · next hset =>
      cases h
      exact hset
  · cases h

/-- Fitting by language, and then by script or region. -/
theorem fits_eq :
    l.fits device =
      ((!l.language.isSet || Subtag.sameLanguage l.language device.language) &&
        match device.askedScript? with
        | none => !l.region.isSet || l.region == device.region
        | some asked =>
          match l.effectiveScript? with
          | none => !l.region.isSet || l.region == device.region
          | some script => script == asked) := by
  unfold fits askedScript?
  cases hset : device.script.isSet with
  | false => rfl
  | true => cases l.effectiveScript? <;> rfl

theorem fits_congr (hlanguage : device.language = device'.language)
    (hregion : device.region = device'.region)
    (hscript : device.askedScript? = device'.askedScript?) : l.fits device = l.fits device' := by
  rw [fits_eq, fits_eq, hlanguage, hregion, hscript]

end Locale

namespace Config

variable {device device' c : Config}

/-! ## The fields of a variant that fits -/

theorem allowsField_of_fits {f : ConfigField} (h : c.fits device = true)
    (hsize : f ≠ .sizeClass) (hkeys : f ≠ .keysHidden) : allowsField f c device = true := by
  simp only [Config.fits, Bool.and_eq_true] at h
  cases f <;> first | contradiction | simp only [h]

theorem allowsSame_of_fits (h : c.fits device = true) :
    allowsSame c.mcc device.mcc = true ∧ allowsSame c.mnc device.mnc = true ∧
      allowsSame c.minorVersion device.minorVersion = true := by
  simp only [Config.fits, Bool.and_eq_true] at h
  simp only [h, and_self]

theorem locale_of_fits (h : c.fits device = true) :
    c.locale.code = 0 ∨ c.locale.fits device.locale = true := by
  simp only [Config.fits, Bool.and_eq_true, Bool.or_eq_true, beq_iff_eq] at h
  simp only [h]

theorem toNat_le_of_allowsUpTo {wanted actual : UInt16} (h : allowsUpTo wanted actual = true) :
    wanted.toNat ≤ actual.toNat := by
  rw [allowsUpTo, Bool.or_eq_true, beq_iff_eq, decide_eq_true_iff] at h
  rcases h with rfl | h
  · exact Nat.zero_le _
  · exact UInt16.le_iff_toNat_le.mp h

/-- Sizes and the version of a variant that fits do not exceed the device's. -/
theorem le_of_fits (h : c.fits device = true) :
    c.smallestWidthDp.toNat ≤ device.smallestWidthDp.toNat ∧
      c.widthDp.toNat ≤ device.widthDp.toNat ∧ c.heightDp.toNat ≤ device.heightDp.toNat ∧
      c.screenWidth.toNat ≤ device.screenWidth.toNat ∧
      c.screenHeight.toNat ≤ device.screenHeight.toNat ∧
      c.sdkVersion.toNat ≤ device.sdkVersion.toNat := by
  simp only [Config.fits, Bool.and_eq_true] at h
  refine ⟨?_, ?_, ?_, ?_, ?_, ?_⟩ <;> exact toNat_le_of_allowsUpTo (by simp only [h])

theorem sizeClass_le_of_fits (h : c.fits device = true) :
    (ConfigField.sizeClass.get c).toNat ≤ (ConfigField.sizeClass.get device).toNat := by
  simp only [Config.fits, Bool.and_eq_true, Bool.or_eq_true, beq_iff_eq, decide_eq_true_iff] at h
  have hsize : ConfigField.sizeClass.get c = 0 ∨
      ConfigField.sizeClass.get c ≤ ConfigField.sizeClass.get device := by simp only [h]
  rcases hsize with hzero | hle
  · rw [hzero]
    exact Nat.zero_le _
  · exact UInt8.le_iff_toNat_le.mp hle

/-- A variant that sets a locale only. -/
theorem fits_of_locale (l : Locale) (device : Config) :
    ({ locale := l } : Config).fits device = (l.code == 0 || l.fits device.locale) := by
  simp [fits, allowsSame, allowsEqual, allowsField, allowsUpTo, allowsKeysHidden,
    ConfigField.get, ConfigField.byte]

/-- Fitting by the locale and by all other fields. -/
theorem fits_eq_and_clearLocale (c device : Config) :
    c.fits device =
      ((c.locale.code == 0 || c.locale.fits device.locale) && c.clearLocale.fits device) := by
  have hcode : (c.clearLocale.locale.code == 0) = true := rfl
  have hget : ∀ f : ConfigField, f.get c.clearLocale = f.get c := fun f => by cases f <;> rfl
  simp only [fits, allowsField, allowsKeysHidden, hget, hcode, Bool.true_or, Bool.and_true]
  cases c.locale.code == 0 || c.locale.fits device.locale with
  | true => simp only [Bool.and_true, Bool.true_and, clearLocale]
  | false => simp only [Bool.and_false, Bool.false_and]

/-! ## What is seen of a device -/

theorem fits_congr (h : device.plain = device'.plain)
    (hscript : device.locale.askedScript? = device'.locale.askedScript?) :
    c.fits device = c.fits device' := by
  have hget : ∀ f : ConfigField, f.get device = f.get device' := fun f => by
    rw [← get_plain f device, h, get_plain]
  have hlocale : c.locale.fits device.locale = c.locale.fits device'.locale :=
    Locale.fits_congr (congrArg (·.locale.language) h) (congrArg (·.locale.region) h) hscript
  rw [plain, plain, Config.mk.injEq] at h
  simp only [fits, allowsField, allowsKeysHidden, hget, hlocale, h]

/-- A region that is another one than the given. -/
def otherRegion (region : Subtag) : Subtag :=
  if region = .unitedStates then ⟨0x47, 0x42⟩ else .unitedStates

/-- A variant for the language of a device, but another region, in some script. -/
def inScript (device : Config) (script : Script) : Config where
  locale := {
    language := device.locale.language
    region := otherRegion device.locale.region
    script := script
    scriptComputed := true }

theorem otherRegion_isSet (region : Subtag) : (otherRegion region).isSet = true := by
  unfold otherRegion
  split <;> rfl

theorem otherRegion_ne (region : Subtag) : otherRegion region ≠ region := by
  unfold otherRegion
  split
  · next h =>
      rw [h]
      decide
  · next h => exact Ne.symm h

/-- Only the script can make such a variant fit. -/
theorem inScript_fits {script : Script} (hset : script.isSet = true) :
    (inScript device script).fits device = (device.locale.askedScript? == some script) := by
  have hregion := otherRegion_isSet device.locale.region
  have hne := otherRegion_ne device.locale.region
  have hcode : (inScript device script).locale.code ≠ 0 := by
    intro hzero
    have hfirst : (otherRegion device.locale.region).first = 0 := by
      apply UInt8.toNat_inj.mp
      change (otherRegion device.locale.region).first.toNat = 0
      simp only [Locale.code, inScript] at hzero
      omega
    rw [Subtag.isSet, hfirst] at hregion
    cases hregion
  have hscript : (inScript device script).locale.effectiveScript? = some script := by
    rw [Locale.effectiveScript?, show (inScript device script).locale.script = script from rfl,
      hset]
    rfl
  have hlanguage : Subtag.sameLanguage device.locale.language device.locale.language = true := by
    simp [Subtag.sameLanguage]
  change ({ locale := (inScript device script).locale } : Config).fits device = _
  rw [fits_of_locale, Locale.fits_eq, hscript, beq_false_of_ne hcode]
  unfold inScript
  cases device.locale.askedScript? with
  | none => simp [hregion, hne]
  | some asked => simp [hlanguage, Bool.beq_comm]

/-- Two devices that differ only in the script they ask for are told apart by a variant. -/
theorem exists_fits_ne (h : device.plain = device'.plain)
    (hscript : device.locale.askedScript? ≠ device'.locale.askedScript?) :
    ∃ c : Config, c.fits device ≠ c.fits device' := by
  have hsame : ∀ script, inScript device script = inScript device' script := fun script => by
    unfold inScript
    rw [show device.locale.language = device'.locale.language from
        congrArg (·.locale.language) h,
      show device.locale.region = device'.locale.region from congrArg (·.locale.region) h]
  cases hasked : device.locale.askedScript? with
  | some script =>
      have hset : script.isSet = true := Locale.isSet_of_askedScript? hasked
      refine ⟨inScript device script, fun hfits => ?_⟩
      rw [inScript_fits hset, hsame, inScript_fits hset, hasked] at hfits
      rw [hasked] at hscript
      simp only [beq_self_eq_true] at hfits
      exact hscript (beq_iff_eq.mp hfits.symm).symm
  | none =>
      cases hasked' : device'.locale.askedScript? with
      | none => exact absurd (hasked.trans hasked'.symm) hscript
      | some script =>
          have hset : script.isSet = true := Locale.isSet_of_askedScript? hasked'
          refine ⟨inScript device script, fun hfits => ?_⟩
          rw [inScript_fits hset, hsame, inScript_fits hset, hasked, hasked'] at hfits
          simp at hfits

end Config

end AppResources
