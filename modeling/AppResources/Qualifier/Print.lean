import AppResources.Qualifier.Parse

/-!
# Printing qualifiers

A configuration is printed as the qualifiers of the fields it sets, in a fixed
order. A locale that a language and a region cannot express is printed as a tag
behind `b+`.
-/

namespace AppResources

namespace Locale

/-- The qualifiers of a locale. -/
def qualifiers (l : Locale) : List (List Char) :=
  if !l.language.isSet then []
  else if l.hasOwnScript || l.hasVariant || l.hasNumbering then
    let parts := [l.language.languageText] ++
      (if l.hasOwnScript then [l.scriptText] else []) ++
      (if l.region.isSet then [l.region.regionText] else []) ++
      (if l.hasVariant then [l.variantText] else []) ++
      (if l.hasNumbering then ["u".toList, "nu".toList, l.numberingText] else [])
    ["b+".toList ++ ['+'].intercalate parts]
  else
    l.language.languageText :: (if l.region.isSet then ['r' :: l.region.regionText] else [])

end Locale

namespace Config

/-- The qualifier of a number, if it is not zero. -/
def numberQualifier (q : NumberQualifier) (value : UInt16) : List (List Char) :=
  if value = 0 then []
  else
    [q.mark.toList ++ Text.decimalChars value.toNat ++ if q.inDp then "dp".toList else []]

/-- The qualifier of the network code. -/
def networkQualifier (mnc : UInt16) : List (List Char) :=
  if mnc = zeroNetwork then ["mnc00".toList] else numberQualifier .mnc mnc

/-- The qualifier of a density. -/
def densityQualifier (density : UInt16) : List (List Char) :=
  if density = 0 then []
  else
    match densityNames.find? fun d => d.2 == density with
    | some d => [d.1.toList]
    | none => [Text.decimalChars density.toNat ++ "dpi".toList]

/-- The qualifier of a field, if its value is set and has a word. -/
def fieldQualifier (f : ConfigField) (c : Config) : List (List Char) :=
  if f.get c = 0 then [] else (QualifierWord.ofField? f c).toList

/-- The qualifier of the size of the screen in pixels. -/
def sizeQualifier (c : Config) : List (List Char) :=
  if c.screenSizeWord = 0 then []
  else [Text.decimalChars c.screenWidth.toNat ++ 'x' :: Text.decimalChars c.screenHeight.toNat]

/-- The qualifier of the platform version. -/
def versionQualifier (c : Config) : List (List Char) :=
  if c.versionWord = 0 then []
  else
    ['v' :: Text.decimalChars c.sdkVersion.toNat ++
      if c.minorVersion = 0 then [] else '.' :: Text.decimalChars c.minorVersion.toNat]

/-- The qualifiers of a configuration in order. -/
def qualifiers (c : Config) : List (List Char) :=
  [ numberQualifier .mcc c.mcc
  , networkQualifier c.mnc
  , c.locale.qualifiers
  , fieldQualifier .layoutDirection c
  , numberQualifier .smallestWidth c.smallestWidthDp
  , numberQualifier .width c.widthDp
  , numberQualifier .height c.heightDp
  , fieldQualifier .sizeClass c
  , fieldQualifier .aspect c
  , fieldQualifier .roundness c
  , fieldQualifier .gamut c
  , fieldQualifier .dynamicRange c
  , fieldQualifier .orientation c
  , fieldQualifier .deviceKind c
  , fieldQualifier .night c
  , densityQualifier c.density
  , fieldQualifier .touchscreen c
  , fieldQualifier .keysHidden c
  , fieldQualifier .keyboard c
  , fieldQualifier .navigationHidden c
  , fieldQualifier .navigation c
  , sizeQualifier c
  , versionQualifier c ].flatten

/-- The text of a configuration. -/
def text (c : Config) : String :=
  match c.qualifiers with
  | [] => "default"
  | qs => String.ofList (['-'].intercalate qs)

end Config

end AppResources
