import AppResources.Config

/-!
# Which devices a variant fits

A variant fits a device if every field it sets allows the device's value: most
fields have to be equal, sizes and versions must not exceed those of the device,
and the density always fits because resources can be scaled.
-/

namespace AppResources

namespace Config

/-- A field that is unset or has the device's value. -/
def allowsEqual {α : Type} [BEq α] (unset wanted actual : α) : Bool :=
  wanted == unset || wanted == actual

/-- A field of 16 bits that is unset or has the device's value. -/
def allowsSame (wanted actual : UInt16) : Bool := allowsEqual 0 wanted actual

/-- A field that is unset or at most the device's value. -/
def allowsUpTo (wanted actual : UInt16) : Bool := wanted == 0 || wanted ≤ actual

/-- A part of a byte that is unset or has the device's value. -/
def allowsField (f : ConfigField) (c device : Config) : Bool :=
  allowsEqual 0 (f.get c) (f.get device)

/-- The value of hidden keys for "not hidden". -/
def keysExposed : UInt8 := 1

/-- The value of hidden keys for "shown on the screen". -/
def keysOnScreen : UInt8 := 3

/-- Hidden keys allow their own value; exposed keys also fit a device that shows keys on
its screen. -/
def allowsKeysHidden (c device : Config) : Bool :=
  allowsField .keysHidden c device ||
    (ConfigField.keysHidden.get c == keysExposed &&
      ConfigField.keysHidden.get device == keysOnScreen)

end Config

namespace Locale

/-- The script that decides whether a locale fits a device that has one: its own or the
computed script, or the usual script of its language; none where that is not known. -/
def effectiveScript? (l : Locale) : Option Script :=
  if l.script.isSet || l.scriptComputed then some l.script
  else
    let script := Script.compute l.language l.region
    if script.isSet then some script else none

/-- Whether a locale fits that of a device. The languages have to be equivalent. Then the
script decides; where it cannot, the region has to be equal. -/
def fits (l device : Locale) : Bool :=
  (!l.language.isSet || Subtag.sameLanguage l.language device.language) &&
    (match if device.script.isSet then l.effectiveScript? else none with
      | some script => script == device.script
      | none => !l.region.isSet || l.region == device.region)

end Locale

namespace Config

/-- Whether a variant made for `c` fits a device. -/
def fits (c device : Config) : Bool :=
  allowsSame c.mcc device.mcc &&
    allowsSame c.mnc device.mnc &&
    (c.locale.code == 0 || c.locale.fits device.locale) &&
    allowsField .layoutDirection c device &&
    (ConfigField.sizeClass.get c == 0 ||
      ConfigField.sizeClass.get c ≤ ConfigField.sizeClass.get device) &&
    allowsField .aspect c device &&
    allowsField .deviceKind c device &&
    allowsField .night c device &&
    allowsUpTo c.smallestWidthDp device.smallestWidthDp &&
    allowsField .roundness c device &&
    allowsField .dynamicRange c device &&
    allowsField .gamut c device &&
    allowsUpTo c.widthDp device.widthDp &&
    allowsUpTo c.heightDp device.heightDp &&
    allowsField .orientation c device &&
    allowsField .touchscreen c device &&
    allowsKeysHidden c device &&
    allowsField .navigationHidden c device &&
    allowsField .keyboard c device &&
    allowsField .navigation c device &&
    allowsUpTo c.screenWidth device.screenWidth &&
    allowsUpTo c.screenHeight device.screenHeight &&
    allowsUpTo c.sdkVersion device.sdkVersion &&
    allowsSame c.minorVersion device.minorVersion

end Config

end AppResources
