/-!
# Numbers as text

Decimal numbers, and hexadecimal numbers padded to a least width with lower-case
digits, as they stand in names, messages and printed values.

## Main results

* `readDecimal?_decimal`: a printed decimal number reads back.
-/

namespace AppResources.Text

/-- The decimal digits of a number. -/
def decimalChars (n : Nat) : List Char :=
  Nat.toDigits 10 n

/-- A number in decimal digits. -/
def decimal (n : Nat) : String :=
  String.ofList (decimalChars n)

/-- An integer in decimal digits, with a minus sign when it is negative. -/
def signedDecimal : Int → String
  | .ofNat n => decimal n
  | .negSucc n => "-" ++ decimal (n + 1)

/-- A number in lower-case hexadecimal digits, with zeros in front up to the width. -/
def hex (width n : Nat) : String :=
  let digits := Nat.toDigits 16 n
  String.ofList (List.replicate (width - digits.length) '0' ++ digits)

/-- An identifier: `0x` and eight hexadecimal digits. -/
def hexId (id : UInt32) : String :=
  "0x" ++ hex 8 id.toNat

/-- A byte: `0x` and two hexadecimal digits. -/
def hexByte (v : UInt8) : String :=
  "0x" ++ hex 2 v.toNat

/-- The value of a character as a digit in a base up to sixteen; letters count in either case. -/
def digitValue? (base : Nat) (c : Char) : Option Nat :=
  let value :=
    if '0' ≤ c ∧ c ≤ '9' then some (c.toNat - '0'.toNat)
    else if 'a' ≤ c ∧ c ≤ 'f' then some (c.toNat - 'a'.toNat + 10)
    else if 'A' ≤ c ∧ c ≤ 'F' then some (c.toNat - 'A'.toNat + 10)
    else none
  value.filter (· < base)

/-- Reads on from the number that the characters so far stand for. -/
def readDigitsFrom? (base : Nat) : Nat → List Char → Option Nat
  | acc, [] => some acc
  | acc, c :: rest =>
    match digitValue? base c with
    | some d => readDigitsFrom? base (base * acc + d) rest
    | none => none

/-- The number that a non-empty list of digits stands for. -/
def readDigits? (base : Nat) : List Char → Option Nat
  | [] => none
  | cs => readDigitsFrom? base 0 cs

/-- The number that a non-empty list of decimal digits stands for. -/
def readDecimal? (cs : List Char) : Option Nat :=
  readDigits? 10 cs

/-- A number with an optional plus sign in front, refused above the limit. -/
def readBounded? (base limit : Nat) (cs : List Char) : Option Nat :=
  let digits := match cs with
    | '+' :: rest => rest
    | cs => cs
  (readDigits? base digits).filter (· ≤ limit)

private theorem digitValue?_ten_of_isDigit {c : Char} (h : c.isDigit = true) :
    digitValue? 10 c = some (c.toNat - '0'.toNat) := by
  simp only [Char.isDigit, Bool.and_eq_true, decide_eq_true_eq] at h
  have hLow : '0' ≤ c := h.1
  have hHigh : c ≤ '9' := h.2
  have hNat : c.toNat ≤ 57 := UInt32.le_iff_toNat_le.mp h.2
  have hZero : '0'.toNat = 48 := rfl
  simp only [digitValue?, hLow, hHigh, and_self, if_true, Option.filter]
  rw [if_pos]
  simp only [decide_eq_true_eq]
  omega

private theorem readDigitsFrom?_eq_ofDigitChars (cs : List Char) :
    ∀ acc, (∀ c ∈ cs, c.isDigit = true) →
      readDigitsFrom? 10 acc cs = some (Nat.ofDigitChars 10 cs acc) := by
  induction cs with
  | nil => intro acc _; simp [readDigitsFrom?, Nat.ofDigitChars]
  | cons c rest ih =>
      intro acc h
      simp only [readDigitsFrom?, digitValue?_ten_of_isDigit (h c (by simp))]
      rw [ih _ fun d hd => h d (by simp [hd])]
      simp [Nat.ofDigitChars]

/-- A printed decimal number reads back. -/
theorem readDecimal?_decimal (n : Nat) : readDecimal? (decimalChars n) = some n := by
  have hDigits : ∀ c ∈ Nat.toDigits 10 n, c.isDigit = true := fun c hc =>
    Nat.isDigit_of_mem_toDigits (by decide) (by decide) hc
  have hRead := readDigitsFrom?_eq_ofDigitChars (Nat.toDigits 10 n) 0 hDigits
  rw [Nat.ofDigitChars_toDigits (by decide) (by decide)] at hRead
  have hNe : Nat.toDigits 10 n ≠ [] := Nat.toDigits_ne_nil
  cases hs : Nat.toDigits 10 n with
  | nil => exact absurd hs hNe
  | cons c rest =>
      rw [hs] at hRead
      simpa [readDecimal?, readDigits?, decimalChars, hs] using hRead

end AppResources.Text
