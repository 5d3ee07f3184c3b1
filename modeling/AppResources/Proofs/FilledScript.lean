import AppResources.Proofs.Fitting
import Mathlib.Tactic.ByContra

/-!
# Scripts that are filled in

The locale of a variant that names no script comes in two forms. The script may be left open,
so that the usual script of the language is looked up when a device asks for one, or that
script is filled in before, and marked as computed.

Where the usual script is known, both forms fit the same devices. Where it is not, a script
that is left open falls back to the region, while a script that was filled in with nothing is
compared as it is, and fits no device that asks for a script.

## Main definitions

* `Config.leaveScript`, `Config.fillScript`: the two forms.
* `Config.FitsInUnknownScript`: what tells them apart.

## Main results

* `fits_fillScript`: the filled form fits where the open one does, unless the usual script is
  asked for and not known.
* `fits_leaveScript_eq_iff`: the devices, and the variants, for which the forms agree.
-/

namespace AppResources

namespace Locale

variable {l device : Locale}

/-- The usual script of the language in the region. -/
def usualScript (l : Locale) : Script := Script.compute l.language l.region

/-- The locale with its script left open. -/
def leaveScript (l : Locale) : Locale := { l with script := Script.none, scriptComputed := false }

/-- The locale with the usual script filled in. -/
def fillScript (l : Locale) : Locale := { l.computeScript with scriptComputed := true }

@[simp] theorem code_leaveScript (l : Locale) : l.leaveScript.code = l.code := rfl

@[simp] theorem code_fillScript (l : Locale) : l.fillScript.code = l.code := rfl

theorem effectiveScript?_leaveScript (l : Locale) :
    l.leaveScript.effectiveScript? = if l.usualScript.isSet then some l.usualScript else none := rfl

theorem effectiveScript?_fillScript (l : Locale) :
    l.fillScript.effectiveScript? = some l.usualScript := by
  unfold effectiveScript?
  rw [show l.fillScript.scriptComputed = true from rfl, Bool.or_true]
  rfl

/-- With the script filled in a locale fits where it does with the script left open, unless a
script is asked for and the usual one is not known. -/
theorem fits_fillScript (l device : Locale) :
    l.fillScript.fits device =
      (l.leaveScript.fits device && (device.askedScript?.isNone || l.usualScript.isSet)) := by
  rw [fits_eq, fits_eq, effectiveScript?_leaveScript, effectiveScript?_fillScript,
    show l.fillScript.language = l.leaveScript.language from rfl,
    show l.fillScript.region = l.leaveScript.region from rfl]
  cases hasked : device.askedScript? with
  | none => simp
  | some asked =>
      cases hknown : l.usualScript.isSet with
      | true => simp
      | false =>
          have hne : l.usualScript ≠ asked := by
            rintro rfl
            cases hknown.symm.trans (isSet_of_askedScript? hasked)
          simp [hne]

/-- A locale whose usual script is not known fits by language and region if its script is left
open. -/
theorem fits_leaveScript_of_unknown (hunknown : l.usualScript.isSet = false) :
    l.leaveScript.fits device =
      ((!l.language.isSet || Subtag.sameLanguage l.language device.language) &&
        (!l.region.isSet || l.region == device.region)) := by
  rw [fits_eq, effectiveScript?_leaveScript, hunknown]
  cases device.askedScript? <;> rfl

end Locale

namespace Config

variable {c device : Config}

/-- The configuration with the script of its locale left open. -/
def leaveScript (c : Config) : Config := { c with locale := c.locale.leaveScript }

/-- The configuration with the usual script of its language filled in. -/
def fillScript (c : Config) : Config := { c with locale := c.locale.fillScript }

@[simp] theorem locale_leaveScript (c : Config) :
    c.leaveScript.locale = c.locale.leaveScript := rfl

@[simp] theorem locale_fillScript (c : Config) : c.fillScript.locale = c.locale.fillScript := rfl

@[simp] theorem clearLocale_leaveScript (c : Config) :
    c.leaveScript.clearLocale = c.clearLocale := rfl

@[simp] theorem clearLocale_fillScript (c : Config) :
    c.fillScript.clearLocale = c.clearLocale := rfl

/-- With the script filled in a variant fits where it does with the script left open, unless a
script is asked for and the usual one is not known. -/
theorem fits_fillScript (c device : Config) :
    c.fillScript.fits device =
      (c.leaveScript.fits device &&
        (c.locale.code == 0 || device.locale.askedScript?.isNone ||
          c.locale.usualScript.isSet)) := by
  rw [fits_eq_and_clearLocale c.fillScript, fits_eq_and_clearLocale c.leaveScript,
    locale_fillScript, locale_leaveScript, clearLocale_fillScript, clearLocale_leaveScript,
    Locale.code_fillScript, Locale.code_leaveScript, Locale.fits_fillScript]
  cases c.locale.code == 0 <;> cases c.clearLocale.fits device <;> simp

/-- A variant is right for a device by language, region and all other fields, and the device
asks for a script although the usual script of the language is not known. -/
structure FitsInUnknownScript (c device : Config) : Prop where
  located : c.locale.code ≠ 0
  unknown : c.locale.usualScript.isSet = false
  asked : device.locale.script.isSet = true
  language : c.locale.language.isSet = true →
    Subtag.sameLanguage c.locale.language device.locale.language = true
  region : c.locale.region.isSet = true → c.locale.region = device.locale.region
  others : c.clearLocale.fits device = true

theorem fitsInUnknownScript_iff :
    c.FitsInUnknownScript device ↔
      c.leaveScript.fits device = true ∧ c.locale.code ≠ 0 ∧
        device.locale.askedScript?.isSome = true ∧ c.locale.usualScript.isSet = false := by
  rw [Locale.isSome_askedScript?]
  have hopen (hlocated : c.locale.code ≠ 0) (hunknown : c.locale.usualScript.isSet = false) :
      c.leaveScript.fits device = true ↔
        ((c.locale.language.isSet = true →
            Subtag.sameLanguage c.locale.language device.locale.language = true) ∧
          (c.locale.region.isSet = true → c.locale.region = device.locale.region)) ∧
        c.clearLocale.fits device = true := by
    rw [fits_eq_and_clearLocale, locale_leaveScript, clearLocale_leaveScript,
      Locale.code_leaveScript, Locale.fits_leaveScript_of_unknown hunknown,
      beq_false_of_ne hlocated]
    simp [← Bool.not_eq_true, or_iff_not_imp_left]
  constructor
  · intro h
    exact ⟨(hopen h.located h.unknown).mpr ⟨⟨h.language, h.region⟩, h.others⟩, h.located,
      h.asked, h.unknown⟩
  · rintro ⟨hfits, hlocated, hasked, hunknown⟩
    obtain ⟨⟨hlanguage, hregion⟩, hothers⟩ := (hopen hlocated hunknown).mp hfits
    exact ⟨hlocated, hunknown, hasked, hlanguage, hregion, hothers⟩

/-- The two forms of a variant are told apart by the devices that it is right for in an unknown
script. -/
theorem fits_eq_iff_not_fitsInUnknownScript :
    c.leaveScript.fits device = c.fillScript.fits device ↔ ¬ c.FitsInUnknownScript device := by
  rw [fitsInUnknownScript_iff, fits_fillScript]
  cases c.leaveScript.fits device with
  | false => simp
  | true =>
      cases c.locale.usualScript.isSet <;> cases device.locale.askedScript? <;> simp

/-- A device for which a variant is made, and that asks for a script. -/
def askingLatin (c : Config) : Config :=
  { c with locale := { c.locale with script := Script.ofCode "Latn" } }

theorem fitsInUnknownScript_askingLatin (hlocated : c.locale.code ≠ 0)
    (hunknown : c.locale.usualScript.isSet = false) :
    c.FitsInUnknownScript c.askingLatin where
  located := hlocated
  unknown := hunknown
  asked := rfl
  language _ := by simp [askingLatin, Subtag.sameLanguage]
  region _ := rfl
  others := by
    have hget : ∀ f : ConfigField, f.get c.clearLocale = f.get c.askingLatin := fun f => by
      cases f <;> rfl
    have hcode : (c.clearLocale.locale.code == 0) = true := rfl
    simp [fits, allowsSame, allowsUpTo, allowsEqual, allowsField, allowsKeysHidden, hget, hcode]
    simp [clearLocale, askingLatin]

/-- The two forms of a variant fit a device alike unless the variant is right for it in an
unknown script. So they fit all devices alike exactly if the variant sets no locale or the
usual script of its language is known. -/
theorem fits_leaveScript_eq_iff (c : Config) :
    (∀ device, c.leaveScript.fits device = c.fillScript.fits device ↔
      ¬ c.FitsInUnknownScript device) ∧
    ((∀ device, c.leaveScript.fits device = c.fillScript.fits device) ↔
      c.locale.code = 0 ∨ c.locale.usualScript.isSet = true) := by
  refine ⟨fun device => fits_eq_iff_not_fitsInUnknownScript, ?_, ?_⟩
  · intro hsame
    by_contra hnot
    rw [not_or, Bool.not_eq_true] at hnot
    exact fits_eq_iff_not_fitsInUnknownScript.mp (hsame c.askingLatin)
      (fitsInUnknownScript_askingLatin hnot.1 hnot.2)
  · intro hknown device
    refine fits_eq_iff_not_fitsInUnknownScript.mpr fun h => ?_
    rcases hknown with hcode | hset
    · exact h.located hcode
    · cases h.unknown.symm.trans hset

/-- A variant in Quechua, whose usual script is not known. -/
def quechua : Config where
  locale := { language := .ofLanguage (Text.asciiBytes "qu".toList) }

/-- The two forms do not fit all devices alike. -/
theorem not_forall_fits_leaveScript_eq :
    ¬ ∀ c device : Config, c.leaveScript.fits device = c.fillScript.fits device := by
  intro h
  have hopen : quechua.leaveScript.fits quechua.askingLatin = true := by decide +kernel
  have hfilled : quechua.fillScript.fits quechua.askingLatin = false := by decide +kernel
  cases hopen.symm.trans ((h quechua quechua.askingLatin).trans hfilled)

end Config

end AppResources
