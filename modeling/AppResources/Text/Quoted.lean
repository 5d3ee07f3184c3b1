import AppResources.Text.Unprintable

/-!
# Quoted text in messages

Messages show a text they complain about between double quotes. A quote and a
backslash are escaped by a backslash, four control characters have a letter, and
the other unprintable characters are shown as `\u{..}` with the code point in
hexadecimal digits.
-/

namespace AppResources.Text

/-- How one character stands inside a quoted text. -/
def quotedChar (c : Char) : List Char :=
  if c = '"' then ['\\', '"']
  else if c = '\\' then ['\\', '\\']
  else if c = '\n' then ['\\', 'n']
  else if c = '\t' then ['\\', 't']
  else if c = '\r' then ['\\', 'r']
  else if c.toNat = 0 then ['\\', '0']
  else if isUnprintable c then ['\\', 'u', '\x7b'] ++ Nat.toDigits 16 c.toNat ++ ['\x7d']
  else [c]

/-- A text between double quotes. -/
def quoted (s : String) : String :=
  String.ofList (['"'] ++ s.toList.flatMap quotedChar ++ ['"'])

end AppResources.Text
