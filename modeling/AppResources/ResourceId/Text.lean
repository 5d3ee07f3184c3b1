import AppResources.ResourceId
import AppResources.Text.Blank
import AppResources.Text.Number

/-!
# Resource ids as text

An id is written in hexadecimal digits behind `0x`, in eight hexadecimal digits, or
in decimal digits.
-/

namespace AppResources.ResourceId

/-- The greatest word. -/
def maxWord : Nat := 4294967295

/-- The word that a text without blanks at its ends stands for. -/
def wordOfText? (cs : List Char) : Option Nat :=
  match cs with
  | '0' :: 'x' :: digits => Text.readBounded? 16 maxWord digits
  | '0' :: 'X' :: digits => Text.readBounded? 16 maxWord digits
  | _ =>
    if (String.ofList cs).utf8ByteSize = 8 then Text.readBounded? 16 maxWord cs
    else Text.readBounded? 10 maxWord cs

/-- The id that a text stands for, whether or not it can name a resource. -/
def ofText? (text : String) : Option ResourceId :=
  (wordOfText? (Text.trim text.toList)).map UInt32.ofNat

end AppResources.ResourceId
