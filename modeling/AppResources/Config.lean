import AppResources.Locale

/-!
# Configurations

A configuration describes a device, or the devices a variant of a resource is
made for. In a variant a zero field means "any device". Several fields share a
byte; each such part is named by a `ConfigField`.
-/

namespace AppResources

/-- A configuration. -/
structure Config where
  /-- Mobile country code. -/
  mcc : UInt16 := 0
  /-- Mobile network code. -/
  mnc : UInt16 := 0
  /-- The locale. -/
  locale : Locale := {}
  /-- How the screen is held. -/
  orientation : UInt8 := 0
  /-- The kind of touchscreen. -/
  touchscreen : UInt8 := 0
  /-- Density in dots per inch. -/
  density : UInt16 := 0
  /-- The kind of keyboard. -/
  keyboard : UInt8 := 0
  /-- The way to navigate. -/
  navigation : UInt8 := 0
  /-- Whether keys and navigation are hidden. -/
  inputFlags : UInt8 := 0
  /-- The larger side of the screen in pixels. -/
  screenWidth : UInt16 := 0
  /-- The smaller side of the screen in pixels. -/
  screenHeight : UInt16 := 0
  /-- Platform version. -/
  sdkVersion : UInt16 := 0
  /-- Minor platform version. -/
  minorVersion : UInt16 := 0
  /-- Size class, aspect and layout direction. -/
  screenLayout : UInt8 := 0
  /-- Kind of device and night mode. -/
  uiMode : UInt8 := 0
  /-- The smaller side of the screen in density-independent pixels, however it is held. -/
  smallestWidthDp : UInt16 := 0
  /-- Width of the screen in density-independent pixels. -/
  widthDp : UInt16 := 0
  /-- Height of the screen in density-independent pixels. -/
  heightDp : UInt16 := 0
  /-- Roundness of the screen. -/
  screenLayout2 : UInt8 := 0
  /-- Colour gamut and dynamic range. -/
  colorMode : UInt8 := 0
  deriving DecidableEq, Inhabited

/-- The density that means "any". -/
def anyDensity : UInt16 := 0xfffe

/-- The density that means "never scale". -/
def noDensity : UInt16 := 0xffff

/-- The density in which density-independent pixels are pixels. -/
def mediumDensity : UInt16 := 160

/-- The network code that stands for the code zero. -/
def zeroNetwork : UInt16 := 0xffff

/-- A choice of a configuration that is kept in some bits of a byte. -/
inductive ConfigField where
  | layoutDirection
  | sizeClass
  | aspect
  | roundness
  | gamut
  | dynamicRange
  | orientation
  | deviceKind
  | night
  | touchscreen
  | keysHidden
  | keyboard
  | navigationHidden
  | navigation
  deriving DecidableEq, Repr

namespace ConfigField

/-- The bits of the byte that a field takes. -/
def mask : ConfigField → UInt8
  | .layoutDirection => 0xc0
  | .sizeClass => 0x0f
  | .aspect => 0x30
  | .roundness => 0x03
  | .gamut => 0x03
  | .dynamicRange => 0x0c
  | .deviceKind => 0x0f
  | .night => 0x30
  | .keysHidden => 0x03
  | .navigationHidden => 0x0c
  | .orientation | .touchscreen | .keyboard | .navigation => 0xff

/-- The byte that a field is part of. -/
def byte (f : ConfigField) (c : Config) : UInt8 :=
  match f with
  | .layoutDirection | .sizeClass | .aspect => c.screenLayout
  | .roundness => c.screenLayout2
  | .gamut | .dynamicRange => c.colorMode
  | .orientation => c.orientation
  | .deviceKind | .night => c.uiMode
  | .touchscreen => c.touchscreen
  | .keysHidden | .navigationHidden => c.inputFlags
  | .keyboard => c.keyboard
  | .navigation => c.navigation

/-- Replaces the byte that a field is part of. -/
def setByte (f : ConfigField) (b : UInt8) (c : Config) : Config :=
  match f with
  | .layoutDirection | .sizeClass | .aspect => { c with screenLayout := b }
  | .roundness => { c with screenLayout2 := b }
  | .gamut | .dynamicRange => { c with colorMode := b }
  | .orientation => { c with orientation := b }
  | .deviceKind | .night => { c with uiMode := b }
  | .touchscreen => { c with touchscreen := b }
  | .keysHidden | .navigationHidden => { c with inputFlags := b }
  | .keyboard => { c with keyboard := b }
  | .navigation => { c with navigation := b }

/-- The bits of a field, at their place in the byte. -/
def get (f : ConfigField) (c : Config) : UInt8 := f.byte c &&& f.mask

/-- Replaces the bits of a field. -/
def set (f : ConfigField) (value : UInt8) (c : Config) : Config :=
  f.setByte ((f.byte c &&& ~~~f.mask) ||| value) c

end ConfigField

namespace Config

/-- Two 16-bit fields as one number, the first one lowest. -/
def pair (a b : UInt16) : Nat := a.toNat + 65536 * b.toNat

/-- Country and network code as one number. -/
def networkWord (c : Config) : Nat := pair c.mcc c.mnc

/-- Orientation, touchscreen and density as one number. -/
def screenTypeWord (c : Config) : Nat :=
  c.orientation.toNat + 256 * c.touchscreen.toNat + 65536 * c.density.toNat

/-- Keyboard, navigation and input flags as one number. -/
def inputWord (c : Config) : Nat :=
  c.keyboard.toNat + 256 * c.navigation.toNat + 65536 * c.inputFlags.toNat

/-- Both sides of the screen in pixels as one number. -/
def screenSizeWord (c : Config) : Nat := pair c.screenWidth c.screenHeight

/-- Both parts of the platform version as one number. -/
def versionWord (c : Config) : Nat := pair c.sdkVersion c.minorVersion

/-- Both sides of the screen in density-independent pixels as one number. -/
def screenSizeDpWord (c : Config) : Nat := pair c.widthDp c.heightDp

/-- The configuration that asks for nothing. -/
def default : Config := {}

/-- Whether the configuration asks for nothing. -/
def isDefault (c : Config) : Bool := c == default

/-- The configuration without a locale. -/
def clearLocale (c : Config) : Config := { c with locale := {} }

end Config

end AppResources
