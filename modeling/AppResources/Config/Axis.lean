import AppResources.Config

/-!
# Sets of configuration axes

Every entry of a table says along which axes its variants differ, as a set of
bits. Bits without a name are kept.
-/

namespace AppResources

/-- A set of configuration axes, and of marks that stand beside them. -/
structure Axes where
  /-- The bits. -/
  bits : UInt32
  deriving DecidableEq, Inhabited

namespace Axes

/-- The empty set. -/
def none : Axes := ⟨0⟩

/-- All bits. -/
def everything : Axes := ⟨0xffffffff⟩

def mcc : Axes := ⟨0x0001⟩
def mnc : Axes := ⟨0x0002⟩
def locale : Axes := ⟨0x0004⟩
def touchscreen : Axes := ⟨0x0008⟩
def keyboard : Axes := ⟨0x0010⟩
def keyboardHidden : Axes := ⟨0x0020⟩
def navigation : Axes := ⟨0x0040⟩
def orientation : Axes := ⟨0x0080⟩
def density : Axes := ⟨0x0100⟩
def screenSize : Axes := ⟨0x0200⟩
def version : Axes := ⟨0x0400⟩
def screenLayout : Axes := ⟨0x0800⟩
def uiMode : Axes := ⟨0x1000⟩
def smallestScreenSize : Axes := ⟨0x2000⟩
def layoutDirection : Axes := ⟨0x4000⟩
def screenRound : Axes := ⟨0x8000⟩
def colorMode : Axes := ⟨0x10000⟩

/-- The union of two sets. -/
def union (a b : Axes) : Axes := ⟨a.bits ||| b.bits⟩

/-- The axes of both sets. -/
def inter (a b : Axes) : Axes := ⟨a.bits &&& b.bits⟩

/-- Whether there is no axis. -/
def isEmpty (a : Axes) : Bool := a.bits == 0

/-- Whether two sets share an axis. -/
def intersects (a b : Axes) : Bool := !(a.inter b).isEmpty

/-- Whether all axes of the first set are in the second. -/
def subset (a b : Axes) : Bool := a.inter b == a

/-- The set if the condition holds, and otherwise no axis. -/
def when (condition : Bool) (a : Axes) : Axes := if condition then a else none

/-- The names of the bits, in the order in which sets are listed. -/
def names : List (String × Axes) :=
  [("CONFIG_MCC", mcc), ("CONFIG_MNC", mnc), ("CONFIG_LOCALE", locale),
    ("CONFIG_TOUCHSCREEN", touchscreen), ("CONFIG_KEYBOARD", keyboard),
    ("CONFIG_KEYBOARD_HIDDEN", keyboardHidden), ("CONFIG_NAVIGATION", navigation),
    ("CONFIG_ORIENTATION", orientation), ("CONFIG_DENSITY", density),
    ("CONFIG_SCREEN_SIZE", screenSize), ("CONFIG_VERSION", version),
    ("CONFIG_SCREEN_LAYOUT", screenLayout), ("CONFIG_UI_MODE", uiMode),
    ("CONFIG_SMALLEST_SCREEN_SIZE", smallestScreenSize), ("CONFIG_LAYOUTDIR", layoutDirection),
    ("CONFIG_SCREEN_ROUND", screenRound), ("CONFIG_COLOR_MODE", colorMode),
    ("SPEC_PUBLIC", ⟨0x40000000⟩), ("SPEC_STAGED_API", ⟨0x20000000⟩)]

/-- The names of the bits that are set. -/
def namesOf (a : Axes) : List String :=
  (names.filter fun entry => a.intersects entry.2).map (·.1)

end Axes

end AppResources
