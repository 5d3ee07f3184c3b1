import AppResources.Config

/-!
# Which of two configurations asks for more

Without a device, a configuration that sets an axis is more specific than one that
leaves it open. The axes are compared in a fixed order; where both set an axis, to
whatever values, the next one decides.
-/

namespace AppResources

namespace Config

/-- Which of two values of an axis is set, if only one is. -/
def onlyOneSet {α : Type} [BEq α] (unset a b : α) : Option Bool :=
  if a == b then none
  else if a == unset then some false
  else if b == unset then some true
  else none

/-- The same for a number of 16 bits. -/
def onlyOneSet16 (get : Config → UInt16) (a b : Config) : Option Bool :=
  onlyOneSet 0 (get a) (get b)

/-- The same for a part of a byte. -/
def onlyOneSetField (f : ConfigField) (a b : Config) : Option Bool :=
  onlyOneSet 0 (f.get a) (f.get b)

end Config

namespace Locale

/-- How much a locale asks for besides language and region: a variant weighs most, then a
script of its own, then a numbering system. -/
def detail (l : Locale) : Int :=
  (if l.hasVariant then 4 else 0) + (if l.hasOwnScript then 2 else 0) +
    (if l.hasNumbering then 1 else 0)

/-- How much more a locale asks for than another: negative if it asks for less. -/
def specificityOver (a b : Locale) : Int :=
  let byCode :=
    if a.code = 0 ∧ b.code = 0 then none
    else
      (Config.onlyOneSet 0 a.language.first b.language.first).orElse fun _ =>
        Config.onlyOneSet 0 a.region.first b.region.first
  match byCode with
  | some true => 1
  | some false => -1
  | none => a.detail - b.detail

end Locale

namespace Config

/-- The locale that asks for more. -/
def moreSpecificLocale (a b : Config) : Option Bool :=
  let d := a.locale.specificityOver b.locale
  if d < 0 then some false else if 0 < d then some true else none

/-- The axes of specificity in order. -/
def specificityAxes : List (Config → Config → Option Bool) :=
  [ onlyOneSet16 mcc
  , onlyOneSet16 mnc
  , moreSpecificLocale
  , onlyOneSetField .layoutDirection
  , onlyOneSet16 smallestWidthDp
  , onlyOneSet16 widthDp
  , onlyOneSet16 heightDp
  , onlyOneSetField .sizeClass
  , onlyOneSetField .aspect
  , onlyOneSetField .roundness
  , onlyOneSetField .dynamicRange
  , onlyOneSetField .gamut
  , onlyOneSetField .orientation
  , onlyOneSetField .deviceKind
  , onlyOneSetField .night
  , onlyOneSetField .touchscreen
  , onlyOneSetField .keysHidden
  , onlyOneSetField .navigationHidden
  , onlyOneSetField .keyboard
  , onlyOneSetField .navigation
  , onlyOneSet16 screenWidth
  , onlyOneSet16 screenHeight
  , onlyOneSet16 sdkVersion
  , onlyOneSet16 minorVersion ]

/-- Whether the first configuration is the more specific one. -/
def isMoreSpecific (a b : Config) : Bool :=
  (specificityAxes.findSome? fun axis => axis a b).getD false

end Config

end AppResources
