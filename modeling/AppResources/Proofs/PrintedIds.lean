import AppResources.Command.Outcome
import AppResources.Proofs.TagRoundTrip

/-!
# Printed ids are read back

An id is printed in eight hexadecimal digits, with `0x` in front of them or without, and in
decimal digits. The form of a text is told by its beginning and its length: eight characters
without `0x` are hexadecimal digits. So the one printed form that is not read back is a decimal
number of eight digits; as hexadecimal digits they stand for a greater number.

## Main definitions

* `Text.HexDigits`: text of hexadecimal digits, in either case.
* `CommandError.ReadsBack`: all printed forms of an id stand for it.

## Main results

* `Text.readDigitsFrom?_hex`: a printed hexadecimal number reads back.
* `Text.exists_readDigitsFrom?_decimal`: what the digits of a decimal number stand for as
  hexadecimal digits.
* `ResourceId.wordOfText?_of_hexDigits`: how a text of digits is read.
* `CommandError.idOf_printed`: the printed forms of an id that stand for it.
-/

namespace AppResources

namespace Text

variable {c : Char} {cs : List Char} {base acc n : Nat}

/-! ## Digits -/

theorem toNat_of_digitValue? (h : (digitValue? base c).isSome = true) : c.toNat < 128 := by
  have hle : ∀ {high : Char}, c ≤ high → c.toNat ≤ high.toNat := UInt32.le_iff_toNat_le.mp
  have hdigit : '9'.toNat < 128 := by decide
  have hsmall : 'f'.toNat < 128 := by decide
  have hcapital : 'F'.toNat < 128 := by decide
  unfold digitValue? at h
  dsimp only at h
  split at h
  · next hc => exact Nat.lt_of_le_of_lt (hle hc.2) hdigit
  · split at h
    · next hc => exact Nat.lt_of_le_of_lt (hle hc.2) hsmall
    · split at h
      · next hc => exact Nat.lt_of_le_of_lt (hle hc.2) hcapital
      · cases h

/-- What holds of all hexadecimal digits, in either case. -/
theorem of_hexDigit {p : Char → Prop}
    (h : ∀ k < 128, (digitValue? 16 (Char.ofNat k)).isSome = true → p (Char.ofNat k))
    (hc : (digitValue? 16 c).isSome = true) : p c := by
  have hp := h c.toNat (toNat_of_digitValue? hc)
  rw [Char.ofNat_toNat] at hp
  exact hp hc

theorem digitValue?_digitChar (hn : n < 16) : digitValue? 16 (Nat.digitChar n) = some n := by
  revert n
  decide +kernel

theorem digitValue?_toLower (c : Char) : digitValue? 16 c.toLower = digitValue? 16 c := by
  rcases Qualifier.upper_or_fixed c with ⟨k, hk, rfl⟩ | ⟨-, hsame⟩
  · revert k
    decide +kernel
  · rw [hsame]

/-! ## Numbers -/

theorem readDigitsFrom?_append (base acc : Nat) (cs ds : List Char) :
    readDigitsFrom? base acc (cs ++ ds) =
      (readDigitsFrom? base acc cs).bind fun n => readDigitsFrom? base n ds := by
  induction cs generalizing acc with
  | nil => rfl
  | cons c cs ih =>
      rw [List.cons_append, readDigitsFrom?, readDigitsFrom?]
      cases digitValue? base c with
      | none => rfl
      | some d => exact ih (base * acc + d)

theorem readDigitsFrom?_toLower (acc : Nat) (cs : List Char) :
    readDigitsFrom? 16 acc (cs.map Char.toLower) = readDigitsFrom? 16 acc cs := by
  induction cs generalizing acc with
  | nil => rfl
  | cons c cs ih =>
      rw [List.map_cons, readDigitsFrom?, readDigitsFrom?, digitValue?_toLower]
      cases digitValue? 16 c with
      | none => rfl
      | some d => exact ih (16 * acc + d)

/-- The last digit is read last. -/
theorem readDigitsFrom?_concat {d m : Nat} (hcs : readDigitsFrom? 16 acc cs = some m)
    (hd : d < 16) : readDigitsFrom? 16 acc (cs ++ [Nat.digitChar d]) = some (16 * m + d) := by
  rw [readDigitsFrom?_append, hcs, Option.bind_some, readDigitsFrom?, digitValue?_digitChar hd]
  rfl

theorem readDigitsFrom?_digitChar (hn : n < 16) :
    readDigitsFrom? 16 0 [Nat.digitChar n] = some n := by
  rw [readDigitsFrom?, digitValue?_digitChar hn]
  exact congrArg some (Nat.zero_add n)

theorem readDigitsFrom?_toDigits (n : Nat) :
    readDigitsFrom? 16 0 (Nat.toDigits 16 n) = some n := by
  induction n using Nat.strongRecOn with
  | ind n ih =>
      rw [Nat.toDigits_eq_if (by decide)]
      split
      · next hn => exact readDigitsFrom?_digitChar hn
      · next hn =>
          rw [readDigitsFrom?_concat (ih (n / 16) (by omega)) (Nat.mod_lt n (by decide)),
            Nat.div_add_mod]

/-- A printed hexadecimal number reads back. -/
theorem readDigitsFrom?_hex (width n : Nat) :
    readDigitsFrom? 16 0 (hex width n).toList = some n := by
  have hzeros : ∀ k, readDigitsFrom? 16 0 (List.replicate k '0') = some 0 := by
    intro k
    induction k with
    | zero => rfl
    | succ k ih => exact ih
  rw [hex, String.toList_ofList, readDigitsFrom?_append, hzeros, Option.bind_some,
    readDigitsFrom?_toDigits]

theorem length_hex_word (w : UInt32) : (hex 8 w.toNat).toList.length = 8 := by
  have hle : (Nat.toDigits 16 w.toNat).length ≤ 8 :=
    (Nat.length_toDigits_le_iff (by decide) (by decide)).mpr w.toNat_lt
  rw [hex, String.toList_ofList, List.length_append, List.length_replicate]
  omega

/-- The digits of a decimal number stand for a number as hexadecimal digits too, a greater one
if they are several. -/
theorem exists_readDigitsFrom?_decimal (n : Nat) :
    ∃ m, readDigitsFrom? 16 0 (decimalChars n) = some m ∧ n ≤ m ∧ (10 ≤ n → n < m) := by
  unfold decimalChars
  induction n using Nat.strongRecOn with
  | ind n ih =>
      rw [Nat.toDigits_eq_if (by decide)]
      split
      · next hn =>
          exact ⟨n, readDigitsFrom?_digitChar (by omega), Nat.le_refl n, by omega⟩
      · next hn =>
          obtain ⟨m, hm, hle, -⟩ := ih (n / 10) (by omega)
          exact ⟨16 * m + n % 10, readDigitsFrom?_concat hm (by omega), by omega, by omega⟩

/-! ## Text of digits -/

/-- Text of hexadecimal digits, in either case. -/
def HexDigits (cs : List Char) : Prop :=
  ∀ c ∈ cs, (digitValue? 16 c).isSome = true

theorem hexDigits_of_readDigitsFrom? (h : (readDigitsFrom? 16 acc cs).isSome = true) :
    HexDigits cs := by
  induction cs generalizing acc with
  | nil => exact fun c hc => absurd hc List.not_mem_nil
  | cons c cs ih =>
      rw [readDigitsFrom?] at h
      cases hvalue : digitValue? 16 c with
      | none =>
          rw [hvalue] at h
          cases h
      | some d =>
          rw [hvalue] at h
          exact List.forall_mem_cons.mpr ⟨by rw [hvalue]; rfl, ih h⟩

theorem HexDigits.notMem (h : HexDigits cs) (hc : digitValue? 16 c = none) : c ∉ cs := by
  intro hmem
  have hsome := h c hmem
  rw [hc] at hsome
  cases hsome

theorem isBlank_of_hexDigit : (digitValue? 16 c).isSome = true → isBlank c = false :=
  of_hexDigit (p := fun c => isBlank c = false) (by decide +kernel)

theorem dropWhile_of_forall {p : Char → Bool} (h : ∀ c ∈ cs, p c = false) :
    cs.dropWhile p = cs := by
  cases cs with
  | nil => rfl
  | cons c cs => exact List.dropWhile_cons_of_neg (by simp [h c List.mem_cons_self])

theorem trim_of_forall (h : ∀ c ∈ cs, isBlank c = false) : trim cs = cs := by
  have hreverse : ∀ c ∈ cs.reverse, isBlank c = false := fun c hc => h c (List.mem_reverse.mp hc)
  rw [trim, dropWhile_of_forall h, dropWhile_of_forall hreverse, List.reverse_reverse]

theorem utf8ByteSize_of_isAscii (h : IsAscii cs) :
    (String.ofList cs).utf8ByteSize = cs.length := by
  have hbytes := congrArg List.length (utf8Bytes_ofList h)
  rwa [length_asciiBytes] at hbytes

theorem HexDigits.isAscii (h : HexDigits cs) : IsAscii cs := fun c hc =>
  toNat_of_digitValue? (h c hc)

/-- Digits are read without looking for a sign. -/
theorem HexDigits.readBounded? (h : HexDigits cs) (base limit : Nat) :
    readBounded? base limit cs = (readDigits? base cs).filter (· ≤ limit) := by
  have hplus : '+' ∉ cs := h.notMem (by decide)
  cases cs with
  | nil => rfl
  | cons c cs =>
      have hc : c ≠ '+' := fun heq => hplus (heq ▸ List.mem_cons_self)
      unfold Text.readBounded?
      split
      · next heq => exact absurd (List.cons.inj heq).1 hc
      · rfl

theorem readDigits?_of_ne (h : cs ≠ []) : readDigits? base cs = readDigitsFrom? base 0 cs := by
  cases cs with
  | nil => exact absurd rfl h
  | cons c cs => rfl

theorem le_of_readBounded? {limit : Nat} (h : readBounded? base limit cs = some n) : n ≤ limit := by
  unfold readBounded? at h
  simpa using (Option.filter_eq_some_iff.mp h).2

end Text

namespace ResourceId

variable {cs : List Char}

theorem le_of_wordOfText? {n : Nat} (h : wordOfText? cs = some n) : n ≤ maxWord := by
  unfold wordOfText? at h
  split at h
  · exact Text.le_of_readBounded? h
  · exact Text.le_of_readBounded? h
  · split at h <;> exact Text.le_of_readBounded? h

/-- Digits are hexadecimal if they are eight, and decimal otherwise. -/
theorem wordOfText?_of_hexDigits (h : Text.HexDigits cs) :
    wordOfText? cs =
      ((Text.readDigits? (if cs.length = 8 then 16 else 10) cs).filter (· ≤ maxWord)) := by
  have hsmall : 'x' ∉ cs := h.notMem (by decide)
  have hcapital : 'X' ∉ cs := h.notMem (by decide)
  unfold wordOfText?
  split
  · exact absurd (List.mem_cons_of_mem '0' List.mem_cons_self) hsmall
  · exact absurd (List.mem_cons_of_mem '0' List.mem_cons_self) hcapital
  · rw [Text.utf8ByteSize_of_isAscii h.isAscii, h.readBounded?, h.readBounded?]
    split <;> rfl

/-- Behind `0x` all digits are hexadecimal. -/
theorem wordOfText?_marked (h : Text.HexDigits cs) :
    wordOfText? ('0' :: 'x' :: cs) = (Text.readDigits? 16 cs).filter (· ≤ maxWord) := by
  rw [← h.readBounded?]
  rfl

end ResourceId

namespace CommandError

variable {text : String} {id : ResourceId} {digits : List Char}

/-- A text stands for an id if it is read as its number and the id can name a resource. -/
theorem idOf_eq_ok_iff : idOf text = .ok id ↔
    ResourceId.wordOfText? (Text.trim text.toList) = some id.toNat ∧
      ResourceId.isValid id = true := by
  unfold idOf ResourceId.ofText?
  cases hword : ResourceId.wordOfText? (Text.trim text.toList) with
  | none => simp
  | some n =>
      have hfits : n < 2 ^ 32 := Nat.lt_succ_of_le (ResourceId.le_of_wordOfText? hword)
      have hnat : (UInt32.ofNat n).toNat = n := UInt32.toNat_ofNat_of_lt' hfits
      simp only [Option.map_some, Option.some.injEq]
      constructor
      · intro h
        split at h
        · next hvalid =>
            cases h
            exact ⟨hnat.symm, hvalid⟩
        · cases h
      · rintro ⟨rfl, hvalid⟩
        rw [UInt32.ofNat_toNat, if_pos hvalid]

theorem toNat_le_maxWord (id : ResourceId) : id.toNat ≤ ResourceId.maxWord :=
  Nat.le_of_lt_succ id.toNat_lt

/-- Hexadecimal digits of an id stand for it behind `0x`. -/
theorem idOf_marked (hvalid : ResourceId.isValid id = true)
    (hread : Text.readDigitsFrom? 16 0 digits = some id.toNat) (hne : digits ≠ []) :
    idOf ("0x" ++ String.ofList digits) = .ok id := by
  have hdigits : Text.HexDigits digits := Text.hexDigits_of_readDigitsFrom? (by rw [hread]; rfl)
  have hblank : ∀ c ∈ '0' :: 'x' :: digits, Text.isBlank c = false := by
    refine List.forall_mem_cons.mpr ⟨rfl, List.forall_mem_cons.mpr ⟨rfl, fun c hc => ?_⟩⟩
    exact Text.isBlank_of_hexDigit (hdigits c hc)
  have htext : ("0x" ++ String.ofList digits).toList = '0' :: 'x' :: digits := by simp
  rw [idOf_eq_ok_iff, htext, Text.trim_of_forall hblank, ResourceId.wordOfText?_marked hdigits,
    Text.readDigits?_of_ne hne, hread]
  exact ⟨by simp [toNat_le_maxWord], hvalid⟩

/-- Digits without `0x` stand for an id if they are its eight hexadecimal digits or, in any other
number, its decimal digits. -/
theorem idOf_digits_iff (hdigits : Text.HexDigits digits) (hne : digits ≠ []) :
    idOf (String.ofList digits) = .ok id ↔
      Text.readDigitsFrom? (if digits.length = 8 then 16 else 10) 0 digits = some id.toNat ∧
        ResourceId.isValid id = true := by
  have hblank : ∀ c ∈ digits, Text.isBlank c = false := fun c hc =>
    Text.isBlank_of_hexDigit (hdigits c hc)
  rw [idOf_eq_ok_iff, String.toList_ofList, Text.trim_of_forall hblank,
    ResourceId.wordOfText?_of_hexDigits hdigits, Text.readDigits?_of_ne hne,
    Option.filter_eq_some_iff]
  simp [toNat_le_maxWord]

theorem length_decimalChars_eq_eight_iff (n : Nat) :
    (Text.decimalChars n).length = 8 ↔ 10000000 ≤ n ∧ n < 100000000 := by
  have height : (Text.decimalChars n).length ≤ 8 ↔ n < 10 ^ 8 :=
    Nat.length_toDigits_le_iff (by decide) (by decide)
  have hseven : (Text.decimalChars n).length ≤ 7 ↔ n < 10 ^ 7 :=
    Nat.length_toDigits_le_iff (by decide) (by decide)
  omega

/-- Decimal digits of an id stand for it unless they are eight. -/
theorem idOf_decimal_iff (hvalid : ResourceId.isValid id = true) :
    idOf (Text.decimal id.toNat) = .ok id ↔ ¬ (10000000 ≤ id.toNat ∧ id.toNat < 100000000) := by
  obtain ⟨m, hm, -, hlt⟩ := Text.exists_readDigitsFrom?_decimal id.toNat
  have hdigits : Text.HexDigits (Text.decimalChars id.toNat) :=
    Text.hexDigits_of_readDigitsFrom? (by rw [hm]; rfl)
  have hne := Text.decimalChars_ne_nil id.toNat
  have hdecimal : Text.readDigitsFrom? 10 0 (Text.decimalChars id.toNat) = some id.toNat := by
    rw [← Text.readDigits?_of_ne hne]
    exact Text.readDecimal?_decimal id.toNat
  rw [Text.decimal, idOf_digits_iff hdigits hne, ← length_decimalChars_eq_eight_iff]
  by_cases hlength : (Text.decimalChars id.toNat).length = 8
  · -- as hexadecimal digits they stand for more
    have hmany := ((length_decimalChars_eq_eight_iff id.toNat).mp hlength).1
    rw [if_pos hlength, hm]
    have hne : m ≠ id.toNat := by
      have := hlt (by omega)
      omega
    simp [hlength, hne]
  · rw [if_neg hlength]
    simp [hlength, hdecimal, hvalid]

/-- Which printed forms of an id that can name a resource stand for it: its eight hexadecimal
digits in either case, with `0x` in front of them and without, and its decimal digits unless they
are eight. -/
theorem idOf_printed (hvalid : ResourceId.isValid id = true)
    (hdigits : digits.map Char.toLower = (Text.hex 8 id.toNat).toList) :
    idOf ("0x" ++ String.ofList digits) = .ok id ∧ idOf (String.ofList digits) = .ok id ∧
      (idOf (Text.decimal id.toNat) = .ok id ↔
        ¬ (10000000 ≤ id.toNat ∧ id.toNat < 100000000)) := by
  have hread : Text.readDigitsFrom? 16 0 digits = some id.toNat := by
    rw [← Text.readDigitsFrom?_toLower, hdigits, Text.readDigitsFrom?_hex]
  have hlength : digits.length = 8 := by
    have height := Text.length_hex_word id
    rwa [← hdigits, List.length_map] at height
  have hne : digits ≠ [] := List.ne_nil_of_length_eq_add_one hlength
  refine ⟨idOf_marked hvalid hread hne, ?_, idOf_decimal_iff hvalid⟩
  rw [idOf_digits_iff (Text.hexDigits_of_readDigitsFrom? (by rw [hread]; rfl)) hne, if_pos hlength]
  exact ⟨hread, hvalid⟩

/-- Digits in mixed case, and a decimal number of ten digits. -/
theorem idOf_printed_mixedCase :
    (ResourceId.isValid 0x7f01000a = true ∧
      "7F01000a".toList.map Char.toLower = (Text.hex 8 (0x7f01000a : ResourceId).toNat).toList) ∧
    idOf ("0x" ++ String.ofList "7F01000a".toList) = .ok 0x7f01000a ∧
    idOf (String.ofList "7F01000a".toList) = .ok 0x7f01000a ∧
    (idOf (Text.decimal (0x7f01000a : ResourceId).toNat) = .ok 0x7f01000a ↔
      ¬ (10000000 ≤ (0x7f01000a : ResourceId).toNat ∧
        (0x7f01000a : ResourceId).toNat < 100000000)) := by
  have hvalid : ResourceId.isValid 0x7f01000a = true := by decide
  have hdigits : "7F01000a".toList.map Char.toLower =
      (Text.hex 8 (0x7f01000a : ResourceId).toNat).toList := by decide +kernel
  exact ⟨⟨hvalid, hdigits⟩, idOf_printed hvalid hdigits⟩

/-- All three printed forms of an id stand for it. -/
def ReadsBack (id : ResourceId) : Prop :=
  idOf (Text.hexId id) = .ok id ∧ idOf (Text.hex 8 id.toNat) = .ok id ∧
    idOf (Text.decimal id.toNat) = .ok id

/-- The decimal number of the first attribute of the framework has eight digits. -/
theorem not_forall_printed_readsBack : ¬ ∀ id, ResourceId.isValid id = true → ReadsBack id := by
  intro h
  have hvalid : ResourceId.isValid 0x01010000 = true := by decide
  obtain ⟨-, -, hdecimal⟩ := h 0x01010000 hvalid
  exact (idOf_decimal_iff hvalid).mp hdecimal ⟨by decide, by decide⟩

end CommandError

end AppResources
