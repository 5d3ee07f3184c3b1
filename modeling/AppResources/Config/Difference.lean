import AppResources.Config.Axis

/-!
# How two configurations differ

The set of axes along which two configurations differ, and a total preorder in
which configurations that differ along no axis are equal. A computed script is no
difference.
-/

namespace AppResources

/-- The lexicographic order of lists of bytes. -/
def compareBytes : List UInt8 → List UInt8 → Ordering
  | [], [] => .eq
  | [], _ :: _ => .lt
  | _ :: _, [] => .gt
  | x :: xs, y :: ys => (compare x.toNat y.toNat).then (compareBytes xs ys)

namespace Locale

/-- The order of locales: by code, script of their own, variant and numbering system. -/
def order (a b : Locale) : Ordering :=
  (compare a.code b.code).then <|
    (compareBytes a.ownScript.toList b.ownScript.toList).then <|
      (compareBytes a.variant.toList b.variant.toList).then <|
        compareBytes a.numbering.toList b.numbering.toList

end Locale

namespace Config

/-- Whether the bits of a field differ. -/
def fieldDiffers (f : ConfigField) (a b : Config) : Bool := f.get a != f.get b

/-- The axes along which two configurations differ. -/
def difference (a b : Config) : Axes :=
  [ Axes.when (a.mcc != b.mcc) .mcc
  , Axes.when (a.mnc != b.mnc) .mnc
  , Axes.when (a.orientation != b.orientation) .orientation
  , Axes.when (a.density != b.density) .density
  , Axes.when (a.touchscreen != b.touchscreen) .touchscreen
  , Axes.when (fieldDiffers .keysHidden a b || fieldDiffers .navigationHidden a b) .keyboardHidden
  , Axes.when (a.keyboard != b.keyboard) .keyboard
  , Axes.when (a.navigation != b.navigation) .navigation
  , Axes.when (a.screenSizeWord != b.screenSizeWord) .screenSize
  , Axes.when (a.versionWord != b.versionWord) .version
  , Axes.when (fieldDiffers .layoutDirection a b) .layoutDirection
  , Axes.when (fieldDiffers .sizeClass a b || fieldDiffers .aspect a b) .screenLayout
  , Axes.when (fieldDiffers .roundness a b) .screenRound
  , Axes.when (fieldDiffers .gamut a b || fieldDiffers .dynamicRange a b) .colorMode
  , Axes.when (a.uiMode != b.uiMode) .uiMode
  , Axes.when (a.smallestWidthDp != b.smallestWidthDp) .smallestScreenSize
  , Axes.when (a.screenSizeDpWord != b.screenSizeDpWord) .screenSize
  , Axes.when (a.locale.order b.locale != .eq) .locale ].foldl Axes.union .none

/-- The order of configurations, field by field. -/
def order (a b : Config) : Ordering :=
  (compare a.networkWord b.networkWord).then <|
    (a.locale.order b.locale).then <|
      (compare a.screenTypeWord b.screenTypeWord).then <|
        (compare a.inputWord b.inputWord).then <|
          (compare a.screenSizeWord b.screenSizeWord).then <|
            (compare a.versionWord b.versionWord).then <|
              (compare a.screenLayout.toNat b.screenLayout.toNat).then <|
                (compare a.screenLayout2.toNat b.screenLayout2.toNat).then <|
                  (compare a.colorMode.toNat b.colorMode.toNat).then <|
                    (compare a.uiMode.toNat b.uiMode.toNat).then <|
                      (compare a.smallestWidthDp.toNat b.smallestWidthDp.toNat).then
                        (compare a.screenSizeDpWord b.screenSizeDpWord)

end Config

end AppResources
