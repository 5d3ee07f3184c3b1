import AppResources.Config.Matching
import AppResources.Config.Specificity
import AppResources.Locale.RegionTree

/-!
# Which of two fitting variants is better

Two variants that fit a device are compared along a fixed sequence of axes. Each
axis prefers one of them or leaves the choice to the next one; the first axis with
a preference decides.

## Main definitions

* `Config.rankingAxes`: the axes in order.
* `Config.isBetter`: whether the first of two variants is preferred.
-/

namespace AppResources

/-- What an axis has to say about two variants: the first is better, the second is better,
or nothing. -/
abbrev Preference := Option Bool

namespace Preference

/-- The preference for the greater of two numbers. -/
def greater (a b : Nat) : Preference :=
  if a = b then none else some (b < a)

/-- The preference for the smaller of two integers. -/
def smaller (a b : Int) : Preference :=
  if a = b then none else some (a < b)

/-- The preference for a variant that sets a field the device sets. -/
def set {α : Type} [BEq α] (unset device a b : α) : Preference :=
  if a == b || device == unset then none else some (a != unset)

end Preference

namespace Locale

/-- Whether a locale serves a request better than another one. Where the languages differ,
one of the two has none; resources without language are where American English lives. -/
def isBetter (a b request : Locale) : Bool :=
  if request.code = 0 then false
  else if a.code = 0 ∧ b.code = 0 then false
  else if !Subtag.sameLanguage a.language b.language then
    if request.language = .english ∧ request.region = .unitedStates then
      if a.language.isSet then !a.region.isSet || a.region == .unitedStates
      else !(!b.region.isSet || b.region == .unitedStates)
    else if request.language = .english ∧ RegionTree.followsAmericanEnglish request.region then
      if a.language.isSet then RegionTree.followsAmericanEnglish a.region
      else !RegionTree.followsAmericanEnglish b.region
    else a.language.isSet
  else
    match RegionTree.compareFor a.region b.region request.language request.script
        request.region with
    | .gt => true
    | .lt => false
    | .eq =>
      if (a.variant == request.variant) != (b.variant == request.variant) then
        a.variant == request.variant
      else if (a.numbering == request.numbering) != (b.numbering == request.numbering) then
        a.numbering == request.numbering
      else a.language == request.language && b.language != request.language

end Locale

namespace Config

/-- The density that counts: an unset one is the medium one. -/
def effectiveDensity (d : UInt16) : Nat :=
  if d = 0 then mediumDensity.toNat else d.toNat

/-- The density a device asks for: one that asks for any gets the medium one. -/
def requestedDensity (d : UInt16) : Nat :=
  if d = anyDensity then mediumDensity.toNat else effectiveDensity d

/-- Whether the first of two different densities is better for a request. "Any" is best;
scaling down from a larger one is better than scaling up, unless the smaller one is much
closer. -/
def densityIsBetter (a b request : UInt16) : Bool :=
  let mine := effectiveDensity a
  let other := effectiveDensity b
  let wanted := requestedDensity request
  let high := max mine other
  let low := min mine other
  let mineIsHigh : Bool := other ≤ mine
  if mine = anyDensity.toNat then true
  else if other = anyDensity.toNat then false
  else if high ≤ wanted then mineIsHigh
  else if wanted ≤ low then !mineIsHigh
  else if (2 * (low : Int) - wanted) * high > (wanted : Int) * wanted then !mineIsHigh
  else mineIsHigh

/-- How much smaller than the device's a screen size is, over the sides that the device
sets. -/
def sizeGap (width height deviceWidth deviceHeight : UInt16) : Int :=
  (if deviceWidth = 0 then 0 else (deviceWidth.toNat : Int) - width.toNat) +
    (if deviceHeight = 0 then 0 else (deviceHeight.toNat : Int) - height.toNat)

/-- The preference of a part of a byte for a variant that sets it. -/
def preferField (f : ConfigField) (device a b : Config) : Preference :=
  Preference.set 0 (f.get device) (f.get a) (f.get b)

/-- The locale that serves the device better. -/
def preferLocale (device a b : Config) : Preference :=
  if a.locale.isBetter b.locale device.locale then some true
  else if b.locale.isBetter a.locale device.locale then some false
  else none

/-- The greater layout direction, if the device has one. -/
def preferLayoutDirection (device a b : Config) : Preference :=
  let f := ConfigField.layoutDirection
  if f.get device = 0 then none else Preference.greater (f.get a).toNat (f.get b).toNat

/-- The size class of normal screens. -/
def normalSize : Nat := 2

/-- The size class that counts: an unset one is normal, unless the device is smaller. -/
def effectiveSizeClass (device c : Config) : Nat :=
  let own := (ConfigField.sizeClass.get c).toNat
  if normalSize ≤ (ConfigField.sizeClass.get device).toNat ∧ own = 0 then normalSize else own

/-- The larger size class; of two equal ones the one that is set. -/
def preferSizeClass (device a b : Config) : Preference :=
  let f := ConfigField.sizeClass
  if f.get a = f.get b ∨ f.get device = 0 then none
  else if effectiveSizeClass device a = effectiveSizeClass device b then some (f.get a != 0)
  else some (effectiveSizeClass device b < effectiveSizeClass device a)

/-- A variant that sets hidden keys; of two that do, the exact one. -/
def preferKeysHidden (device a b : Config) : Preference :=
  let f := ConfigField.keysHidden
  if f.get a = f.get b ∨ f.get device = 0 then none
  else if f.get a = 0 then some false
  else if f.get b = 0 then some true
  else if f.get device = f.get a then some true
  else if f.get device = f.get b then some false
  else none

/-- A variant that sets hidden navigation. -/
def preferNavigationHidden (device a b : Config) : Preference :=
  let f := ConfigField.navigationHidden
  if f.get a = f.get b ∨ f.get device = 0 then none
  else if f.get a = 0 then some false
  else if f.get b = 0 then some true
  else none

/-- The better density where the densities differ. -/
def preferDensity (device a b : Config) : Preference :=
  if a.density = b.density then none
  else some (densityIsBetter a.density b.density device.density)

/-- The later platform version, if the device has one. -/
def preferVersion (device a b : Config) : Preference :=
  if device.sdkVersion = 0 then none
  else Preference.greater a.sdkVersion.toNat b.sdkVersion.toNat

/-- The size in density-independent pixels that is closer to the device's. -/
def preferSizeDp (device a b : Config) : Preference :=
  Preference.smaller (sizeGap a.widthDp a.heightDp device.widthDp device.heightDp)
    (sizeGap b.widthDp b.heightDp device.widthDp device.heightDp)

/-- The size in pixels that is closer to the device's. -/
def preferSize (device a b : Config) : Preference :=
  Preference.smaller (sizeGap a.screenWidth a.screenHeight device.screenWidth device.screenHeight)
    (sizeGap b.screenWidth b.screenHeight device.screenWidth device.screenHeight)

/-- The axes of the ranking in order. -/
def rankingAxes : List (Config → Config → Config → Preference) :=
  [ fun device a b => Preference.set 0 device.mcc a.mcc b.mcc
  , fun device a b => Preference.set 0 device.mnc a.mnc b.mnc
  , preferLocale
  , preferLayoutDirection
  , fun _ a b => Preference.greater a.smallestWidthDp.toNat b.smallestWidthDp.toNat
  , preferSizeDp
  , preferSizeClass
  , preferField .aspect
  , preferField .roundness
  , preferField .gamut
  , preferField .dynamicRange
  , preferField .orientation
  , preferField .deviceKind
  , preferField .night
  , preferDensity
  , preferField .touchscreen
  , preferKeysHidden
  , preferNavigationHidden
  , preferField .keyboard
  , preferField .navigation
  , preferSize
  , preferVersion
  , fun device a b => Preference.set 0 device.minorVersion a.minorVersion b.minorVersion ]

/-- The first preference in a sequence of axes. -/
def firstPreference (axes : List (Config → Config → Config → Preference))
    (device a b : Config) : Preference :=
  axes.findSome? fun axis => axis device a b

/-- Whether the first variant is better for a device. -/
def isBetter (a b device : Config) : Bool :=
  (firstPreference rankingAxes device a b).getD false

/-- Whether the first variant is better for a device, or without one the more specific. -/
def isBetterFor (a b : Config) : Option Config → Bool
  | some device => isBetter a b device
  | none => isMoreSpecific a b

end Config

end AppResources
