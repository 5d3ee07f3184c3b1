import AppResources.Proofs.WrittenRecords
import Mathlib.Data.List.Basic

/-!
# Records of any size

A record says how long it is, and a group of fields counts only if the record reaches to its
end. So a record of some size is read as a longer one with the groups behind its end reset, and
what is read of it depends on its own bytes only. Both are said of records in any buffer; for
the front of a full record they give the configuration that it was written from, up to the end.
There is one limit: the bytes up to the end of the buffer are counted in 32 bits, so that behind a
buffer of 4 GiB and more a record can be cut short.

## Main definitions

* `FieldGroup`: the fields that count together, where they end, and how they are reset.
* `FieldGroup.Owns`: a field that belongs to a group.
* `Config.upTo`: a configuration without the groups behind some position.
* `Config.recordOfSize`: the front of a full record, as a record of its own.

## Main results

* `ofRecord_resize`: a shorter record is a longer one up to its end.
* `ofRecord_congr`: no byte behind the end of a record counts.
* `read?_recordOfSize`, `read?_recordOfSize_iff`: the front of a record is read up to the size
  that counts, which is its own unless the buffer is too large.
* `read?_of_any_size`: a record of every size, and one that claims too much.
-/

namespace AppResources

/-! ## Groups of fields -/

/-- A group of fields of a record that count together. -/
inductive FieldGroup where
  | network
  | languageAndRegion
  | screenType
  | input
  | screenSize
  | version
  | screenLayout
  | screenSizeDp
  | script
  | variant
  | screenLayout2
  | scriptComputed
  | numbering
  deriving DecidableEq, Repr

namespace FieldGroup

/-- All groups in the order of the record. -/
def all : List FieldGroup :=
  [.network, .languageAndRegion, .screenType, .input, .screenSize, .version, .screenLayout,
    .screenSizeDp, .script, .variant, .screenLayout2, .scriptComputed, .numbering]

/-- The position behind the last byte of a group. -/
def stop : FieldGroup → Nat
  | .network => 8
  | .languageAndRegion => 12
  | .screenType => 16
  | .input => 20
  | .screenSize => 24
  | .version => 28
  | .screenLayout => 32
  | .screenSizeDp => 36
  | .script => 40
  | .variant => 48
  | .screenLayout2 => 52
  | .scriptComputed => 53
  | .numbering => 61

/-- Resets the fields of a group to zero. -/
def reset (g : FieldGroup) (c : Config) : Config :=
  match g with
  | .network => { c with mcc := 0, mnc := 0 }
  | .languageAndRegion => { c with locale.language := .none, locale.region := .none }
  | .screenType => { c with orientation := 0, touchscreen := 0, density := 0 }
  | .input => { c with keyboard := 0, navigation := 0, inputFlags := 0 }
  | .screenSize => { c with screenWidth := 0, screenHeight := 0 }
  | .version => { c with sdkVersion := 0, minorVersion := 0 }
  | .screenLayout => { c with screenLayout := 0, uiMode := 0, smallestWidthDp := 0 }
  | .screenSizeDp => { c with widthDp := 0, heightDp := 0 }
  | .script => { c with locale.script := Script.none }
  | .variant => { c with locale.variant := Vector.replicate 8 0 }
  | .screenLayout2 => { c with screenLayout2 := 0, colorMode := 0 }
  | .scriptComputed => { c with locale.scriptComputed := false }
  | .numbering => { c with locale.numbering := Vector.replicate 8 0 }

/-- A field that is reset with a group and with no other one. -/
structure Owns {α : Type} (g : FieldGroup) (get : Config → α) : Prop where
  other : ∀ g' ≠ g, ∀ c, get (g'.reset c) = get c := by
    intro g' hg c
    cases g' <;> first | rfl | exact absurd rfl hg
  own : ∀ c c', get (g.reset c) = get (g.reset c') := by
    intros
    rfl

end FieldGroup

attribute [ext] Config Locale

/-! ## Reading less of a record -/

namespace SizedRecord

variable {r r' : SizedRecord} {n groupEnd offset : Nat}

theorem byte_resize (h : n ≤ r.size) (groupEnd offset : Nat) :
    byte { r with size := n } groupEnd offset =
      if groupEnd ≤ n then r.byte groupEnd offset else 0 := by
  unfold byte
  by_cases hend : groupEnd ≤ n
  · rw [if_pos hend, if_pos hend, if_pos (Nat.le_trans hend h)]
  · rw [if_neg hend, if_neg hend]

theorem word16_resize (h : n ≤ r.size) (groupEnd offset : Nat) :
    word16 { r with size := n } groupEnd offset =
      if groupEnd ≤ n then r.word16 groupEnd offset else 0 := by
  unfold word16
  by_cases hend : groupEnd ≤ n
  · rw [if_pos hend, if_pos hend, if_pos (Nat.le_trans hend h)]
  · rw [if_neg hend, if_neg hend]

theorem subtag_resize (h : n ≤ r.size) (groupEnd offset : Nat) :
    subtag { r with size := n } groupEnd offset =
      if groupEnd ≤ n then r.subtag groupEnd offset else .none := by
  rw [subtag, byte_resize h, byte_resize h]
  split <;> rfl

theorem bytes_resize (h : n ≤ r.size) (groupEnd offset k : Nat) :
    bytes { r with size := n } groupEnd offset k =
      if groupEnd ≤ n then r.bytes groupEnd offset k else Vector.replicate k 0 := by
  unfold bytes
  simp only [byte_resize h]
  split
  · rfl
  · exact Vector.ext fun i hi => by simp

/-! ## Bytes of a record -/

/-- Two records have the same bytes behind their sizes. -/
structure SameBytes (r r' : SizedRecord) : Prop where
  size : r.size = r'.size
  byte? : ∀ k, 4 ≤ k → k < r.size →
    Bytes.byte? r.buffer (r.start + k) = Bytes.byte? r'.buffer (r'.start + k)

theorem SameBytes.resize (h : SameBytes r r') (hn : n ≤ r.size) :
    SameBytes { r with size := n } { r' with size := n } where
  size := rfl
  byte? k hlow hk := h.byte? k hlow (Nat.lt_of_lt_of_le hk hn)

theorem SameBytes.byte_eq (h : SameBytes r r') (hlow : 4 ≤ offset) (hend : offset < groupEnd) :
    r.byte groupEnd offset = r'.byte groupEnd offset := by
  unfold byte
  rw [h.size]
  by_cases hsize : groupEnd ≤ r'.size
  · rw [h.byte? offset hlow (by rw [h.size]; omega)]
  · rw [if_neg hsize, if_neg hsize]

theorem SameBytes.word16_eq (h : SameBytes r r') (hlow : 4 ≤ offset)
    (hend : offset + 1 < groupEnd) : r.word16 groupEnd offset = r'.word16 groupEnd offset := by
  unfold word16
  rw [h.size]
  by_cases hsize : groupEnd ≤ r'.size
  · have hfirst := h.byte? offset hlow (by rw [h.size]; omega)
    have hsecond := h.byte? (offset + 1) (by omega) (by rw [h.size]; omega)
    simp only [Bytes.byte?, ← Nat.add_assoc] at hfirst hsecond
    rw [Bytes.word16?, Bytes.word16?, hfirst, hsecond]
  · rw [if_neg hsize, if_neg hsize]

theorem SameBytes.subtag_eq (h : SameBytes r r') (hlow : 4 ≤ offset)
    (hend : offset + 1 < groupEnd) : r.subtag groupEnd offset = r'.subtag groupEnd offset := by
  rw [subtag, subtag, h.byte_eq hlow (by omega), h.byte_eq (by omega) hend]

theorem SameBytes.bytes_eq {k : Nat} (h : SameBytes r r') (hlow : 4 ≤ offset)
    (hend : offset + k ≤ groupEnd) : r.bytes groupEnd offset k = r'.bytes groupEnd offset k := by
  unfold bytes
  refine congrArg Vector.ofFn (funext fun i => ?_)
  have hi := i.isLt
  exact h.byte_eq (by omega) (by omega)

end SizedRecord

namespace Config

variable {n : Nat} {c : Config}

/-! ## Configurations up to a position -/

/-- The configuration without the groups of fields that end behind the first `n` bytes of its
record. -/
def upTo (n : Nat) (c : Config) : Config :=
  FieldGroup.all.foldl (fun c g => if n < g.stop then g.reset c else c) c

/-- A field stays if its group ends at the position or in front of it. -/
theorem get_upTo {α : Type} {get : Config → α} {g : FieldGroup} (hget : g.Owns get) :
    get (c.upTo n) = if g.stop ≤ n then get c else get (g.reset c) := by
  have hstep : ∀ (groups : List FieldGroup) (d : Config),
      get (groups.foldl (fun c g => if n < g.stop then g.reset c else c) d) =
        if g ∈ groups ∧ n < g.stop then get (g.reset c) else get d := by
    intro groups
    induction groups with
    | nil => simp
    | cons g' groups ih =>
        intro d
        rw [List.foldl_cons, ih]
        by_cases hg : g' = g
        · subst hg
          by_cases hn : n < g'.stop
          · simp [hn, hget.own d c]
          · simp [hn]
        · have hkeep : get (if n < g'.stop then g'.reset d else d) = get d := by
            split
            · exact hget.other g' hg d
            · rfl
          simp [hkeep, Ne.symm hg]
  have hmem : g ∈ FieldGroup.all := by cases g <;> decide
  rw [upTo, hstep]
  by_cases hn : n < g.stop
  · rw [if_pos ⟨hmem, hn⟩, if_neg (by omega)]
  · rw [if_neg fun h => hn h.2, if_pos (by omega)]

/-- In front of the first group all positions are alike. -/
theorem upTo_of_le {k : Nat} (h : k ≤ 4) (c : Config) : c.upTo k = c.upTo 4 := by
  have hfirst : ∀ g ∈ FieldGroup.all, 8 ≤ g.stop := by decide
  refine List.foldl_ext _ _ c fun d g hg => ?_
  have hstop := hfirst g hg
  rw [if_pos (show k < g.stop by omega), if_pos (show 4 < g.stop by omega)]

/-- A full record ends behind all groups. -/
theorem upTo_full (c : Config) : c.upTo recordSize = c := by
  have hlast : ∀ g : FieldGroup, ¬ recordSize < g.stop := by
    intro g
    cases g <;> decide
  exact List.foldl_fixed' (fun g => if_neg (hlast g)) FieldGroup.all

/-- A field is read of a shorter record if its group ends there. -/
theorem get_ofRecord_resize {α : Type} {r : SizedRecord} (get : Config → α) (g : FieldGroup)
    (hread : get (ofRecord { r with size := n }) =
      if g.stop ≤ n then get (ofRecord r) else get (g.reset (ofRecord r)))
    (hget : g.Owns get := by exact {}) :
    get (ofRecord { r with size := n }) = get ((ofRecord r).upTo n) :=
  hread.trans (get_upTo hget).symm

/-- A shorter record is read as a longer one up to its end. -/
theorem ofRecord_resize {r : SizedRecord} (h : n ≤ r.size) :
    ofRecord { r with size := n } = (ofRecord r).upTo n := by
  have hbyte {groupEnd offset : Nat} := SizedRecord.byte_resize h groupEnd offset
  have hword {groupEnd offset : Nat} := SizedRecord.word16_resize h groupEnd offset
  have hsubtag {groupEnd offset : Nat} := SizedRecord.subtag_resize h groupEnd offset
  have hbytes {groupEnd offset k : Nat} := SizedRecord.bytes_resize h groupEnd offset k
  apply Config.ext
  case mcc => exact get_ofRecord_resize (·.mcc) .network hword
  case mnc => exact get_ofRecord_resize (·.mnc) .network hword
  case locale =>
    apply Locale.ext
    case language => exact get_ofRecord_resize (·.locale.language) .languageAndRegion hsubtag
    case region => exact get_ofRecord_resize (·.locale.region) .languageAndRegion hsubtag
    case script => exact get_ofRecord_resize (·.locale.script) .script hbytes
    case scriptComputed =>
      have hmark : (SizedRecord.byte { r with size := n } 53 52 != 0) =
          if 53 ≤ n then r.byte 53 52 != 0 else false := by
        rw [hbyte]
        exact apply_ite (· != 0) _ _ _
      exact get_ofRecord_resize (·.locale.scriptComputed) .scriptComputed hmark
    case variant => exact get_ofRecord_resize (·.locale.variant) .variant hbytes
    case numbering => exact get_ofRecord_resize (·.locale.numbering) .numbering hbytes
  case orientation => exact get_ofRecord_resize (·.orientation) .screenType hbyte
  case touchscreen => exact get_ofRecord_resize (·.touchscreen) .screenType hbyte
  case density => exact get_ofRecord_resize (·.density) .screenType hword
  case keyboard => exact get_ofRecord_resize (·.keyboard) .input hbyte
  case navigation => exact get_ofRecord_resize (·.navigation) .input hbyte
  case inputFlags => exact get_ofRecord_resize (·.inputFlags) .input hbyte
  case screenWidth => exact get_ofRecord_resize (·.screenWidth) .screenSize hword
  case screenHeight => exact get_ofRecord_resize (·.screenHeight) .screenSize hword
  case sdkVersion => exact get_ofRecord_resize (·.sdkVersion) .version hword
  case minorVersion => exact get_ofRecord_resize (·.minorVersion) .version hword
  case screenLayout => exact get_ofRecord_resize (·.screenLayout) .screenLayout hbyte
  case uiMode => exact get_ofRecord_resize (·.uiMode) .screenLayout hbyte
  case smallestWidthDp => exact get_ofRecord_resize (·.smallestWidthDp) .screenLayout hword
  case widthDp => exact get_ofRecord_resize (·.widthDp) .screenSizeDp hword
  case heightDp => exact get_ofRecord_resize (·.heightDp) .screenSizeDp hword
  case screenLayout2 => exact get_ofRecord_resize (·.screenLayout2) .screenLayout2 hbyte
  case colorMode => exact get_ofRecord_resize (·.colorMode) .screenLayout2 hbyte

/-- What is read of a record depends on its own bytes only. -/
theorem ofRecord_congr {r r' : SizedRecord} (h : r.SameBytes r') : ofRecord r = ofRecord r' := by
  simp (disch := decide) only [ofRecord, h.byte_eq, h.word16_eq, h.subtag_eq, h.bytes_eq]

/-! ## The front of a record -/

/-- The first bytes of the record of a configuration, with their number as the size. -/
def recordOfSize (n : Nat) (c : Config) : List UInt8 :=
  Bytes.bytes32 (UInt32.ofNat n) ++ (c.record.take n).drop 4

theorem length_recordOfSize (hmin : 4 ≤ n) (hmax : n ≤ recordSize) :
    (c.recordOfSize n).length = n := by
  simp only [recordSize] at hmax
  rw [recordOfSize, List.length_append, Bytes.length_bytes32, List.length_drop, List.length_take,
    length_record]
  omega

theorem getElem?_recordOfSize {k : Nat} (hlow : 4 ≤ k) (hk : k < n) :
    (c.recordOfSize n)[k]? = c.record[k]? := by
  rw [recordOfSize, List.getElem?_append_right (by simpa using hlow), Bytes.length_bytes32,
    List.getElem?_drop, Nat.add_sub_cancel' hlow, List.getElem?_take_of_lt hk]

theorem recordOfSize_full (c : Config) : c.recordOfSize recordSize = c.record := by
  have htake : c.record.take recordSize = c.record :=
    List.take_of_length_le (Nat.le_of_eq c.length_record)
  have hsize : c.record.take 4 = Bytes.bytes32 (UInt32.ofNat recordSize) := by
    unfold record
    simp only [List.append_assoc]
    exact List.take_left' (Bytes.length_bytes32 64)
  rw [recordOfSize, htake, ← hsize, List.take_append_drop]

variable {b : ByteArray} {i : Nat}

/-- The front of a record has the bytes of the full one behind its size. -/
theorem sameBytes_of_holds (h : Bytes.Holds b i (c.recordOfSize n)) (hmin : 4 ≤ n)
    (hmax : n ≤ recordSize) :
    SizedRecord.SameBytes ⟨b, i, n⟩ ⟨c.record.toByteArray, 0, n⟩ where
  size := rfl
  byte? k hlow hk := by
    have hfront := h.byte?_eq (k := k) (by rw [length_recordOfSize hmin hmax]; exact hk)
    have hfull := (Bytes.holds_toByteArray c.record).byte?_eq (k := k) (by
      rw [length_record]
      exact Nat.lt_of_lt_of_le hk hmax)
    dsimp only
    rw [hfront, hfull, getElem?_recordOfSize hlow hk]

/-- The front of a record is read up to the size that counts. -/
theorem read?_recordOfSize (h : Bytes.Holds b i (c.recordOfSize n)) (hmin : 4 ≤ n)
    (hmax : n ≤ recordSize) :
    read? b i = some (c.upTo (min n (room b i)), i + max 4 (min n (room b i))) := by
  have hfull : ofRecord ⟨c.record.toByteArray, 0, recordSize⟩ = c :=
    ofRecord_of_holds (Bytes.holds_toByteArray _)
  have hrecord : ∀ k ≤ n, ofRecord ⟨b, i, k⟩ = c.upTo k := by
    intro k hk
    have hresize := ofRecord_resize (r := ⟨c.record.toByteArray, 0, recordSize⟩)
      (Nat.le_trans hk hmax)
    rw [hfull] at hresize
    rw [ofRecord_congr ((sameBytes_of_holds h hmin hmax).resize hk), hresize]
  have hdeclared : (UInt32.ofNat n).toNat = n := by
    simp only [recordSize] at hmax
    rw [UInt32.toNat_ofNat']
    omega
  have hsize : Bytes.word32? b i = some (UInt32.ofNat n) :=
    (Bytes.holds_append_iff.mp h).1.word32?
  rw [read?_of_word32? hsize, hdeclared, hrecord _ (Nat.min_le_left _ _)]

/-- The front of a record is read to its end exactly if the size that counts reaches so far, or
if it has no fields. -/
theorem read?_recordOfSize_iff (h : Bytes.Holds b i (c.recordOfSize n)) (hmin : 4 ≤ n)
    (hmax : n ≤ recordSize) : read? b i = some (c.upTo n, i + n) ↔ n = 4 ∨ n ≤ room b i := by
  rw [read?_recordOfSize h hmin hmax]
  constructor
  · intro heq
    have hstop := congrArg Prod.snd (Option.some.inj heq)
    dsimp only at hstop
    omega
  · rintro (rfl | hroom)
    · have hstop : max 4 (min 4 (room b i)) = 4 := by omega
      rw [hstop, upTo_of_le (Nat.min_le_left _ _)]
    · rw [Nat.min_eq_left hroom, Nat.max_eq_right hmin]

/-! ## Records that claim too much -/

section Claimed

variable (before rest : List UInt8)

theorem room_behind (bytes : List UInt8) :
    room (before ++ bytes).toByteArray before.length = bytes.length % 4294967296 := by
  rw [room, UInt32.toNat_ofNat', List.size_toByteArray, List.length_append,
    Nat.add_sub_cancel_left]

/-- A record that claims at least the bytes that are there is read to their end. -/
theorem read?_of_claimed {declared : UInt32} (h : 4 + rest.length ≤ declared.toNat) :
    let b := (before ++ (Bytes.bytes32 declared ++ rest)).toByteArray
    read? b before.length =
      some (ofRecord ⟨b, before.length, 4 + rest.length⟩, before.length + (4 + rest.length)) := by
  intro b
  have hplace := Bytes.holds_behind before (Bytes.bytes32 declared ++ rest)
  -- no more bytes are there than a word can claim, so all of them count
  have hroom : room b before.length = 4 + rest.length := by
    have hbound := declared.toNat_lt
    rw [room_behind, List.length_append, Bytes.length_bytes32]
    omega
  rw [read?_of_word32? (Bytes.holds_append_iff.mp hplace).1.word32?, hroom, Nat.min_eq_right h,
    Nat.max_eq_right (Nat.le_add_right 4 _)]

/-- The size does not count among the bytes of a record. -/
theorem sameBytes_of_sizes (size size' : UInt32) (n : Nat) (h : n ≤ 4 + rest.length) :
    SizedRecord.SameBytes
      ⟨(before ++ (Bytes.bytes32 size ++ rest)).toByteArray, before.length, n⟩
      ⟨(before ++ (Bytes.bytes32 size' ++ rest)).toByteArray, before.length, n⟩ := by
  refine ⟨rfl, fun k hlow hk => ?_⟩
  have hbyte : ∀ size : UInt32,
      Bytes.byte? (before ++ (Bytes.bytes32 size ++ rest)).toByteArray (before.length + k) =
        rest[k - 4]? := by
    intro size
    have hinside : k < (Bytes.bytes32 size ++ rest).length := by
      rw [List.length_append, Bytes.length_bytes32]
      exact Nat.lt_of_lt_of_le hk h
    rw [(Bytes.holds_behind before _).byte?_eq hinside,
      List.getElem?_append_right (by rwa [Bytes.length_bytes32]), Bytes.length_bytes32]
  exact (hbyte size).trans (hbyte size').symm

end Claimed

/-! ## Records of any size -/

/-- With the bytes behind it a record is read to its end. -/
theorem read?_behind_iff (before after : List UInt8) (hmin : 4 ≤ n) (hmax : n ≤ recordSize) :
    read? (before ++ (c.recordOfSize n ++ after)).toByteArray before.length =
        some (c.upTo n, before.length + n) ↔
      n = 4 ∨ n ≤ (n + after.length) % 4294967296 := by
  have hplace := (Bytes.holds_append_iff.mp
    (Bytes.holds_behind before (c.recordOfSize n ++ after))).1
  rw [read?_recordOfSize_iff hplace hmin hmax, room_behind, List.length_append,
    length_recordOfSize hmin hmax]

/-- Whatever stands before it, a record of any size is read up to its end, gives the configuration
up to there, which for a full record is all of it, and leaves the bytes behind it: exactly if the
number of bytes from its start on, in 32 bits, is not smaller than its size, or if it has no
fields. One that claims more bytes than there are is read as one that claims these. -/
theorem read?_of_any_size (before : List UInt8) :
    (∀ (c : Config) (n : Nat) (after : List UInt8), 4 ≤ n → n ≤ recordSize →
      let bytes := before ++ (c.recordOfSize n ++ after)
      (read? bytes.toByteArray before.length = some (c.upTo n, before.length + n) ↔
          n = 4 ∨ n ≤ (n + after.length) % 4294967296) ∧
        bytes.drop (before.length + n) = after) ∧
    (∀ c : Config, c.recordOfSize recordSize = c.record ∧ c.upTo recordSize = c) ∧
    ∀ (declared : UInt32) (rest : List UInt8), 4 + rest.length < declared.toNat →
      read? (before ++ (Bytes.bytes32 declared ++ rest)).toByteArray before.length =
        read? (before ++ (Bytes.bytes32 (UInt32.ofNat (4 + rest.length)) ++ rest)).toByteArray
          before.length := by
  refine ⟨fun c n after hmin hmax => ?_, fun c => ⟨c.recordOfSize_full, c.upTo_full⟩,
    fun declared rest h => ?_⟩
  · intro bytes
    refine ⟨read?_behind_iff before after hmin hmax, ?_⟩
    show (before ++ (c.recordOfSize n ++ after)).drop (before.length + n) = after
    rw [← List.append_assoc]
    exact List.drop_left' (by rw [List.length_append, length_recordOfSize hmin hmax])
  · have hlength : (UInt32.ofNat (4 + rest.length)).toNat = 4 + rest.length := by
      have hbound := declared.toNat_lt
      rw [UInt32.toNat_ofNat']
      omega
    rw [read?_of_claimed before rest (Nat.le_of_lt h),
      read?_of_claimed before rest (Nat.le_of_eq hlength.symm),
      ofRecord_congr (sameBytes_of_sizes before rest declared _ _ (Nat.le_refl _))]

/-- A record that ends within the second group of the screen layout does not have it. -/
theorem read?_of_fifty_bytes :
    let c : Config :=
      { mcc := 310, locale := { variant := Vector.replicate 8 0x61, scriptComputed := true },
        screenLayout2 := 1, colorMode := 4 }
    read? ([9] ++ (c.recordOfSize 50 ++ [8])).toByteArray 1 =
      some ({ mcc := 310, locale := { variant := Vector.replicate 8 0x61 } }, 51) := by
  intro c
  obtain ⟨hread, -⟩ := (read?_of_any_size [9]).1 c 50 [8] (by decide) (by decide)
  exact hread.mpr (.inr (by decide))

/-- In a buffer of 4 GiB a full record is read as one without fields. -/
theorem not_forall_read?_of_any_size :
    ¬ ∀ (c : Config) (n : Nat) (after : List UInt8), 4 ≤ n → n ≤ recordSize →
      read? (c.recordOfSize n ++ after).toByteArray 0 = some (c.upTo n, n) := by
  intro hall
  have hread := hall { mcc := 310 } recordSize (List.replicate 4294967232 0) (by decide)
    (Nat.le_refl _)
  have hroom : recordSize + (List.replicate 4294967232 (0 : UInt8)).length = 4294967296 := by
    rw [List.length_replicate]
    rfl
  rw [← Nat.zero_add recordSize] at hread
  have hcounted := (read?_behind_iff [] _ (by decide) (Nat.le_refl _)).mp hread
  rw [hroom] at hcounted
  exact absurd hcounted (by decide)

end Config

end AppResources
