import AppResources.Encoding.StringPool
import AppResources.Proofs.WrittenChunks
import AppResources.StringPool.Lookup

/-!
# String pools are read back

A written pool loads, and has the strings that were put in at their indices. Each string
stands behind those in front of it, with its lengths before it and a zero behind it; the zeros
that pad the pool leave the last unit zero, as loading demands.

## Main definitions

* `StringPool.parts`: the chunk of a pool before it is written.
* `StringPool.written`: the pool that is loaded from it.

## Main results

* `StringPool.load_encode`: a written pool loads.
* `StringPool.string?_written`, `StringPool.strings_written`: its strings are those put in.
-/

namespace AppResources

/-! ## Units and bytes of a text -/

/-- A text takes no more units of UTF-16 than bytes of UTF-8. -/
theorem Text.length_unitsOf_le (s : String) :
    (unitsOf s).length ≤ (utf8Bytes s).length := by
  have hbytes : utf8Bytes s = s.toList.flatMap String.utf8EncodeChar := by
    rw [utf8Bytes, String.toUTF8_eq_toByteArray, ← String.utf8Encode_toList, List.utf8Encode,
      List.data_toByteArray]
  have hchar : ∀ c : Char, (charUnits c).length ≤ (String.utf8EncodeChar c).length := by
    intro c
    rw [String.length_utf8EncodeChar]
    unfold charUnits
    split
    · exact c.utf8Size_pos
    · next hlong =>
      have hfour : c.utf8Size = 4 := by
        rw [Char.utf8Size_eq_four_iff, UInt32.lt_iff_toNat_lt]
        exact Nat.lt_of_not_le fun h => hlong (Nat.lt_succ_of_le h)
      rw [hfour]
      exact Nat.le_of_ble_eq_true rfl
  rw [hbytes, unitsOf]
  induction s.toList with
  | nil => exact Nat.le_refl _
  | cons c cs ih =>
      rw [List.flatMap_cons, List.flatMap_cons, List.length_append, List.length_append]
      exact Nat.add_le_add (hchar c) ih

theorem Text.toByteArray_utf8Bytes (s : String) : (utf8Bytes s).toByteArray = s.toUTF8 := by
  apply ByteArray.ext
  rw [List.data_toByteArray, utf8Bytes]

namespace StringPool

variable {utf8 sorted : Bool} {strings : List String}

/-! ## Pieces one behind the other -/

/-- The strings of a pool with their lengths and terminators. -/
def pieces (utf8 : Bool) (strings : List String) : List (List UInt8) :=
  strings.map (encodeString utf8)

/-- Where the strings of a pool start. -/
def startOf (strings : List String) : Nat :=
  if strings.isEmpty then 0 else minHeaderSize + 4 * strings.length

theorem length_startsFrom (start : Nat) (pieces : List (List UInt8)) :
    (startsFrom start pieces).length = pieces.length := by
  induction pieces generalizing start with
  | nil => rfl
  | cons piece pieces ih => exact congrArg (· + 1) (ih _)

/-- A piece starts behind those in front of it. -/
theorem getElem?_startsFrom {start k : Nat} {pieces : List (List UInt8)}
    (hk : k < pieces.length) :
    (startsFrom start pieces)[k]? = some (start + (pieces.take k).flatten.length) := by
  induction pieces generalizing start k with
  | nil => cases hk
  | cons piece pieces ih =>
      cases k with
      | zero => rfl
      | succ k =>
          rw [startsFrom, List.getElem?_cons_succ, ih (Nat.lt_of_succ_lt_succ hk)]
          rw [List.take_succ_cons, List.flatten_cons, List.length_append, Nat.add_assoc]

theorem flatten_eq_take_append {k : Nat} {pieces : List (List UInt8)} {piece : List UInt8}
    (hk : pieces[k]? = some piece) :
    pieces.flatten = (pieces.take k).flatten ++ (piece ++ (pieces.drop (k + 1)).flatten) := by
  obtain ⟨hlt, rfl⟩ := List.getElem?_eq_some_iff.mp hk
  rw [← List.flatten_cons, ← List.drop_eq_getElem_cons hlt, ← List.flatten_append,
    List.take_append_drop]

theorem length_offsets (pieces : List (List UInt8)) :
    ((startsFrom 0 pieces).flatMap fun i => Bytes.bytes32 (UInt32.ofNat i)).length =
      4 * pieces.length := by
  rw [Bytes.length_items fun _ => Bytes.length_bytes32 _, length_startsFrom]

/-! ## Lengths in front of strings -/

theorem toNat_ofNat_or_high {k : Nat} (hk : k < 128) :
    (UInt8.ofNat k ||| 0x80).toNat = k + 128 := by
  have hall : ∀ n : Fin 128, (UInt8.ofNat n.val ||| 0x80).toNat = n.val + 128 := by decide
  exact hall ⟨k, hk⟩

theorem toNat_ofNat_or_top {k : Nat} (hk : k < 32768) :
    (UInt16.ofNat k ||| 0x8000).toNat = k + 32768 := by
  have hor := Nat.two_pow_add_eq_or_of_lt (i := 15) hk 1
  have htop : (0x8000 : UInt16).toNat = 2 ^ 15 * 1 := rfl
  rw [UInt16.toNat_or, UInt16.toNat_ofNat', Nat.mod_eq_of_lt (by omega), htop, Nat.or_comm]
  omega

theorem length_lengthBytes8_pos (n : Nat) : 0 < (lengthBytes8 n).length := by
  unfold lengthBytes8
  split
  · exact Nat.zero_lt_two
  · exact Nat.one_pos

theorem length_lengthBytes16 (n : Nat) :
    (lengthBytes16 n).length = 2 ∨ (lengthBytes16 n).length = 4 := by
  unfold lengthBytes16
  split
  · exact .inr rfl
  · exact .inl rfl

variable {p : StringPool} {i n : Nat}

theorem lengthAt8?_of_holds
    (h : Bytes.Holds p.data (p.stringsStart + i) (lengthBytes8 n)) (hn : n < 32768)
    (hroom : i + (lengthBytes8 n).length ≤ p.dataSize) :
    p.lengthAt8? i = some (n, i + (lengthBytes8 n).length) := by
  unfold lengthBytes8 at h hroom ⊢
  by_cases hlong : 127 < n
  · simp only [if_pos hlong, Bytes.holds_cons_iff, List.length_cons, List.length_nil] at h hroom ⊢
    obtain ⟨hfirst, hsecond, _⟩ := h
    have hhigh := toNat_ofNat_or_high (k := n / 256) (by omega)
    have hlow : (UInt8.ofNat n).toNat = n % 256 := UInt8.toNat_ofNat'
    simp only [lengthAt8?, stringByte?, if_pos (show i < p.dataSize by omega), hfirst,
      if_pos (show i + 1 < p.dataSize by omega), ← Nat.add_assoc, hsecond, bind, Option.bind,
      hhigh, hlow, if_neg (show ¬ n / 256 + 128 < 128 by omega)]
    have hvalue : (n / 256 + 128) % 128 * 256 + n % 256 = n := by omega
    rw [hvalue]
    rfl
  · simp only [if_neg hlong, Bytes.holds_cons_iff, List.length_cons, List.length_nil] at h hroom ⊢
    have hvalue : (UInt8.ofNat n).toNat = n := by
      rw [UInt8.toNat_ofNat']
      omega
    simp only [lengthAt8?, stringByte?, if_pos (show i < p.dataSize by omega), h.1, bind,
      Option.bind, hvalue, if_pos (show n < 128 by omega)]
    rfl

theorem lengthAt16?_of_holds
    (h : Bytes.Holds p.data (p.stringsStart + 2 * i) (lengthBytes16 n)) (hn : n < 2147483648) :
    p.lengthAt16? i = some (n, i + (lengthBytes16 n).length / 2) := by
  unfold lengthBytes16 at h ⊢
  by_cases hlong : 32767 < n
  · simp only [if_pos hlong, Bytes.holds_append_iff, Bytes.length_bytes16] at h ⊢
    obtain ⟨hfirst, hsecond⟩ := h
    have htop := toNat_ofNat_or_top (k := n / 65536) (by omega)
    have hlow : (UInt16.ofNat n).toNat = n % 65536 := UInt16.toNat_ofNat'
    have hnext : p.stringsStart + 2 * (i + 1) = p.stringsStart + 2 * i + 2 := by omega
    have hvalue : (n / 65536 + 32768) % 32768 * 65536 + n % 65536 = n := by omega
    simp only [lengthAt16?, hfirst.word16?, hnext, hsecond.word16?, bind, Option.bind, htop, hlow,
      if_neg (show ¬ n / 65536 + 32768 < 32768 by omega), hvalue, List.length_append,
      Bytes.length_bytes16]
    rfl
  · simp only [if_neg hlong, Bytes.length_bytes16] at h ⊢
    have hvalue : (UInt16.ofNat n).toNat = n := by
      rw [UInt16.toNat_ofNat']
      omega
    simp only [lengthAt16?, h.word16?, bind, Option.bind, hvalue,
      if_pos (show n < 32768 by omega)]
    rfl

/-! ## Written strings -/

theorem unitSize_pos (utf8 : Bool) : 0 < unitSize utf8 := by
  cases utf8 <;> decide

theorem length_encodeString_mod (utf8 : Bool) (s : String) :
    (encodeString utf8 s).length % unitSize utf8 = 0 := by
  cases utf8 with
  | true => exact Nat.mod_one _
  | false =>
      have hlength := length_lengthBytes16 (Text.unitsOf s).length
      show (encodeUtf16 s).length % 2 = 0
      simp only [encodeUtf16, List.length_append, Bytes.length_flatMap_bytes16, List.length_cons,
        List.length_nil]
      omega

theorem le_length_encodeString (utf8 : Bool) (s : String) :
    2 * unitSize utf8 ≤ (encodeString utf8 s).length := by
  cases utf8 with
  | true =>
      have hunits := length_lengthBytes8_pos (Text.unitsOf s).length
      show 2 ≤ (encodeUtf8 s).length
      simp only [encodeUtf8, List.length_append, List.length_cons, List.length_nil]
      omega
  | false =>
      have hlength := length_lengthBytes16 (Text.unitsOf s).length
      show 4 ≤ (encodeUtf16 s).length
      simp only [encodeUtf16, List.length_append, List.length_cons, List.length_nil]
      omega

theorem exists_encodeString_eq (utf8 : Bool) (s : String) :
    ∃ front, encodeString utf8 s = front ++ Bytes.zeros (unitSize utf8) := by
  cases utf8 with
  | true => exact ⟨_, rfl⟩
  | false => exact ⟨_, rfl⟩

/-- The strings of a pool end with a zero, also behind the padding. -/
theorem exists_padded_eq (utf8 : Bool) (hstrings : strings ≠ []) :
    ∃ front, Bytes.padded (pieces utf8 strings).flatten =
      front ++ Bytes.zeros (unitSize utf8) := by
  obtain ⟨others, last, rfl⟩ : ∃ others last, strings = others ++ [last] :=
    ⟨_, _, (List.dropLast_concat_getLast hstrings).symm⟩
  obtain ⟨front, hfront⟩ := exists_encodeString_eq utf8 last
  have hflatten : (pieces utf8 (others ++ [last])).flatten =
      (pieces utf8 others).flatten ++ front ++ Bytes.zeros (unitSize utf8) := by
    simp only [pieces, List.map_append, List.map_cons, List.map_nil, List.flatten_append,
      List.flatten_cons, List.flatten_nil, List.append_nil, hfront, List.append_assoc]
  rw [Bytes.padded]
  generalize (4 - (pieces utf8 (others ++ [last])).flatten.length % 4) % 4 = padding
  refine ⟨(pieces utf8 others).flatten ++ front ++ Bytes.zeros padding, ?_⟩
  rw [hflatten, List.append_assoc, List.append_assoc _ (Bytes.zeros padding)]
  simp only [Bytes.zeros, List.replicate_append_replicate, Nat.add_comm]

/-! ## A written pool -/

/-- The chunk of a pool before it is written. -/
def parts (utf8 sorted : Bool) (strings : List String) : ChunkParts where
  kind := .stringPool
  header :=
    Bytes.bytes32 (UInt32.ofNat strings.length) ++ Bytes.bytes32 0 ++
      Bytes.bytes32 (flagWord utf8 sorted) ++ Bytes.bytes32 (UInt32.ofNat (startOf strings)) ++
      Bytes.bytes32 0
  body :=
    ((startsFrom 0 (pieces utf8 strings)).flatMap fun i => Bytes.bytes32 (UInt32.ofNat i)) ++
      Bytes.padded (pieces utf8 strings).flatten

theorem bytes_parts (utf8 sorted : Bool) (strings : List String) :
    (parts utf8 sorted strings).bytes = encode utf8 sorted strings := by
  have hlength := length_offsets (pieces utf8 strings)
  rw [pieces, List.length_map] at hlength
  simp only [ChunkParts.bytes, parts, encode, startOf, pieces, hlength]

/-- The pool that is loaded from a written one. -/
def written (utf8 sorted : Bool) (strings : List String) : StringPool where
  count := strings.length
  styleCount := 0
  utf8 := utf8
  sorted := sorted
  headerSize := minHeaderSize
  stringsStart := startOf strings
  data := (encode utf8 sorted strings).toByteArray
  dataSize := (Bytes.padded (pieces utf8 strings).flatten).length / unitSize utf8

theorem length_header_parts (utf8 sorted : Bool) (strings : List String) :
    (parts utf8 sorted strings).header.length = 20 := rfl

theorem size_parts (utf8 sorted : Bool) (strings : List String) :
    (parts utf8 sorted strings).size =
      minHeaderSize + 4 * strings.length +
        (Bytes.padded (pieces utf8 strings).flatten).length := by
  have hlength := length_offsets (pieces utf8 strings)
  have hpieces : (pieces utf8 strings).length = strings.length := List.length_map _
  simp only [ChunkParts.size, parts, List.length_append, hlength, hpieces, Bytes.length_bytes32,
    chunkHeaderSize, minHeaderSize]
  omega

theorem fits_parts (hsize : (parts utf8 sorted strings).size < 4294967296) :
    (parts utf8 sorted strings).Fits where
  known := rfl
  headerAligned := by rw [length_header_parts]
  bodyAligned := by
    have hlength := length_offsets (pieces utf8 strings)
    have hpadded := Bytes.length_padded_mod (pieces utf8 strings).flatten
    simp only [parts, List.length_append, hlength]
    omega
  headerSmall := by rw [length_header_parts]; decide
  small := hsize

/-- Where the fields of a written pool stand. -/
structure LaidOut (data : ByteArray) (utf8 sorted : Bool) (strings : List String) : Prop where
  size : data.size =
    minHeaderSize + 4 * strings.length + (Bytes.padded (pieces utf8 strings).flatten).length
  headerSize : Bytes.Holds data 2 (Bytes.bytes16 28)
  total : Bytes.Holds data 4 (Bytes.bytes32 (UInt32.ofNat data.size))
  count : Bytes.Holds data 8 (Bytes.bytes32 (UInt32.ofNat strings.length))
  styleCount : Bytes.Holds data 12 (Bytes.bytes32 0)
  flags : Bytes.Holds data 16 (Bytes.bytes32 (flagWord utf8 sorted))
  stringsStart : Bytes.Holds data 20 (Bytes.bytes32 (UInt32.ofNat (startOf strings)))
  stylesStart : Bytes.Holds data 24 (Bytes.bytes32 0)
  offsets : Bytes.Holds data minHeaderSize
    ((startsFrom 0 (pieces utf8 strings)).flatMap fun i => Bytes.bytes32 (UInt32.ofNat i))
  strings : Bytes.Holds data (minHeaderSize + 4 * strings.length)
    (Bytes.padded (pieces utf8 strings).flatten)

theorem laidOut_encode (utf8 sorted : Bool) (strings : List String) :
    LaidOut (encode utf8 sorted strings).toByteArray utf8 sorted strings := by
  have hlength := length_offsets (pieces utf8 strings)
  have hpieces : (pieces utf8 strings).length = strings.length := List.length_map _
  have hall := ChunkParts.holds_bytes_iff.mp
    (Bytes.holds_toByteArray (parts utf8 sorted strings).bytes)
  have hsize : (encode utf8 sorted strings).toByteArray.size =
      (parts utf8 sorted strings).size := by
    rw [← bytes_parts, List.size_toByteArray, ChunkParts.length_bytes]
  rw [bytes_parts, ← hsize, length_header_parts] at hall
  obtain ⟨_, hheaderSize, htotal, hfields, hbody⟩ := hall
  simp only [parts, Bytes.holds_append_iff, List.length_append, Bytes.length_bytes32,
    Nat.zero_add, chunkHeaderSize, Nat.reduceAdd, and_assoc, hlength, hpieces]
    at hfields hbody hheaderSize htotal
  obtain ⟨hcount, hstyleCount, hflags, hstringsStart, hstylesStart⟩ := hfields
  exact ⟨hsize.trans (size_parts utf8 sorted strings), hheaderSize, htotal, hcount, hstyleCount,
    hflags, hstringsStart, hstylesStart, hbody.1, hbody.2⟩

theorem length_padded_pieces (utf8 : Bool) (hstrings : strings ≠ []) :
    4 ≤ (Bytes.padded (pieces utf8 strings).flatten).length := by
  have hmod := Bytes.length_padded_mod (pieces utf8 strings).flatten
  obtain ⟨front, hfront⟩ := exists_padded_eq utf8 hstrings
  have hlength := congrArg List.length hfront
  rw [List.length_append, Bytes.length_zeros] at hlength
  have hunit := unitSize_pos utf8
  omega

theorem unitSize_dvd (utf8 : Bool) (xs : List UInt8) :
    unitSize utf8 ∣ (Bytes.padded xs).length := by
  have hmod := Bytes.length_padded_mod xs
  cases utf8 with
  | true => exact Nat.one_dvd _
  | false =>
      show 2 ∣ _
      omega

theorem startOf_eq (hstrings : strings ≠ []) :
    startOf strings = minHeaderSize + 4 * strings.length :=
  if_neg (by simpa using hstrings)

theorem any_zeros (n : Nat) : (Bytes.zeros n).toByteArray.data.any (· ≠ 0) = false := by
  rw [List.data_toByteArray, List.any_toArray, List.any_eq_false]
  intro x hx
  simp only [(List.mem_replicate.mp hx).2, ne_eq, not_true_eq_false, decide_false,
    Bool.false_eq_true, not_false_eq_true]

theorem refuseIf_false {condition : Bool} {f : PoolFault} (h : condition = false) :
    refuseIf condition f = .ok () := by
  rw [h]
  rfl

/-- The checks on the string data of a written pool pass. -/
theorem stringDataSize_written (hstrings : strings ≠ []) :
    stringDataSize (encode utf8 sorted strings).toByteArray utf8 strings.length 0 minHeaderSize
      (startOf strings) 0 = .ok (written utf8 sorted strings).dataSize := by
  have hlaid := laidOut_encode utf8 sorted strings
  have hdataSize : (written utf8 sorted strings).dataSize =
    (Bytes.padded (pieces utf8 strings).flatten).length / unitSize utf8 := rfl
  rw [hdataSize, startOf_eq hstrings]
  generalize (encode utf8 sorted strings).toByteArray = data at hlaid
  have hsize := hlaid.size
  have hstringData := hlaid.strings
  have hleast := length_padded_pieces utf8 hstrings
  obtain ⟨units, hunits⟩ := unitSize_dvd utf8 (pieces utf8 strings).flatten
  obtain ⟨front, hfront⟩ := exists_padded_eq utf8 hstrings
  have hlength := congrArg List.length hfront
  rw [List.length_append, Bytes.length_zeros] at hlength
  have hunit := unitSize_pos utf8
  -- the terminator of the last string, or its padding, is the last unit
  rw [hfront, Bytes.holds_append_iff] at hstringData
  have hmark := hstringData.2.slice (by omega)
  rw [Bytes.length_zeros] at hmark
  have hquotient : (Bytes.padded (pieces utf8 strings).flatten).length / unitSize utf8 = units := by
    rw [hunits, Nat.mul_div_cancel_left units hunit]
  have hfrontLength : front.length = (units - 1) * unitSize utf8 := by
    rw [Nat.sub_mul, Nat.mul_comm units]
    omega
  have hpositive : units ≠ 0 := by
    rintro rfl
    omega
  have hzeros := any_zeros (unitSize utf8)
  rw [hfrontLength] at hmark
  generalize hstart : minHeaderSize + 4 * strings.length = start at hsize hmark
  have hroom : data.size - start =
      (Bytes.padded (pieces utf8 strings).flatten).length := by omega
  simp only [stringDataSize, refuseIf_false (decide_eq_false (by omega :
      ¬ data.size < 4 * strings.length + minHeaderSize)), Bytes.minus,
    if_pos (by omega : 2 ≤ data.size), if_pos (by omega : start ≤ data.size), hroom, hquotient,
    refuseIf_false (decide_eq_false (by omega : ¬ data.size - 2 ≤ start)),
    refuseIf_false (decide_eq_false hpositive), hmark, refuseIf_false hzeros, checked,
    Except.mapError, bind, Except.bind, if_true]
  rfl

/-- A written pool loads. -/
theorem load_encode (hsmall : (parts utf8 sorted strings).size < 4294967296) :
    load (encode utf8 sorted strings).toByteArray = .ok (written utf8 sorted strings) := by
  have hlaid := laidOut_encode utf8 sorted strings
  have hdata := @stringDataSize_written utf8 sorted strings
  have hwritten : (written utf8 sorted strings).data =
    (encode utf8 sorted strings).toByteArray := rfl
  rw [size_parts] at hsmall
  have hsize := hlaid.size
  have htotal : (UInt32.ofNat (encode utf8 sorted strings).toByteArray.size).toNat =
      (encode utf8 sorted strings).toByteArray.size :=
    UInt32.toNat_ofNat_of_lt'
      (show (encode utf8 sorted strings).toByteArray.size < 4294967296 by omega)
  have hcount : (UInt32.ofNat strings.length).toNat = strings.length :=
    UInt32.toNat_ofNat_of_lt' (show strings.length < 4294967296 by omega)
  have hstart : (UInt32.ofNat (startOf strings)).toNat = startOf strings := by
    rw [UInt32.toNat_ofNat']
    refine Nat.mod_eq_of_lt ?_
    unfold startOf
    split <;> omega
  have hutf8 : ((flagWord utf8 sorted).toNat / 256 % 2 == 1) = utf8 := by
    cases utf8 <;> cases sorted <;> rfl
  have hsorted : ((flagWord utf8 sorted).toNat % 2 == 1) = sorted := by
    cases utf8 <;> cases sorted <;> rfl
  have hslice : Bytes.slice (encode utf8 sorted strings).toByteArray 0
      (encode utf8 sorted strings).toByteArray.size =
        .ok (encode utf8 sorted strings).toByteArray := by
    rw [Bytes.slice, if_pos ⟨Nat.zero_le _, Nat.le_refl _⟩, ByteArray.extract_zero_size]
  have hheader : (28 : UInt16).toNat = minHeaderSize := rfl
  have hinside : (decide ((encode utf8 sorted strings).toByteArray.size < minHeaderSize) ||
      decide ((encode utf8 sorted strings).toByteArray.size <
        (encode utf8 sorted strings).toByteArray.size)) = false := by
    rw [decide_eq_false (by omega), decide_eq_false (by omega)]
    rfl
  simp only [load, hlaid.headerSize.word16?, hlaid.total.word32?, hlaid.count.word32?,
    hlaid.styleCount.word32?, hlaid.flags.word32?, hlaid.stringsStart.word32?,
    hlaid.stylesStart.word32?, htotal, hcount, hstart, hutf8, hsorted, hheader, hslice,
    refuseIf_false (decide_eq_false (Nat.lt_irrefl minHeaderSize)), refuseIf_false hinside,
    checked, Except.mapError, bind, Except.bind]
  by_cases hstrings : strings = []
  · subst hstrings
    cases utf8 <;> rfl
  · have hnonzero : UInt32.ofNat strings.length ≠ 0 := by
      intro hzero
      rw [hzero] at hcount
      exact hstrings (List.length_eq_zero_iff.mp hcount.symm)
    have hzero : UInt32.toNat 0 = 0 := rfl
    rw [if_neg hnonzero, hzero, hdata hstrings]
    rfl

/-! ## The strings of a written pool -/

theorem length_pieces_mod (utf8 : Bool) (strings : List String) :
    (pieces utf8 strings).flatten.length % unitSize utf8 = 0 := by
  induction strings with
  | nil => exact Nat.zero_mod _
  | cons s strings ih =>
      show (encodeString utf8 s ++ (pieces utf8 strings).flatten).length % unitSize utf8 = 0
      rw [List.length_append, Nat.add_mod, length_encodeString_mod, ih]
      exact Nat.zero_mod _

/-- The string at an index stands behind those in front of it. -/
theorem holds_piece {k : Nat} {s : String} (hk : strings[k]? = some s) :
    ∃ start, start % unitSize utf8 = 0 ∧
      start + (encodeString utf8 s).length ≤
        (Bytes.padded (pieces utf8 strings).flatten).length ∧
      Bytes.Holds (encode utf8 sorted strings).toByteArray (minHeaderSize + 4 * k)
        (Bytes.bytes32 (UInt32.ofNat start)) ∧
      Bytes.Holds (encode utf8 sorted strings).toByteArray (startOf strings + start)
        (encodeString utf8 s) := by
  have hlaid := laidOut_encode utf8 sorted strings
  have hlt : k < strings.length := (List.getElem?_eq_some_iff.mp hk).1
  have hpieces : (pieces utf8 strings).length = strings.length := List.length_map _
  have hpiece : (pieces utf8 strings)[k]? = some (encodeString utf8 s) := by
    rw [pieces, List.getElem?_map, hk]
    rfl
  have hsplit := flatten_eq_take_append hpiece
  have hstart := @getElem?_startsFrom 0 k _ (hpieces.symm ▸ hlt)
  rw [Nat.zero_add] at hstart
  refine ⟨((pieces utf8 strings).take k).flatten.length, ?_, ?_, ?_, ?_⟩
  · rw [pieces, ← List.map_take]
    exact length_pieces_mod utf8 (strings.take k)
  · rw [Bytes.padded, hsplit]
    simp only [List.length_append]
    omega
  · exact hlaid.offsets.item (fun _ => rfl) hstart
  · have hstrings := hlaid.strings
    rw [startOf_eq (by rintro rfl; cases hk)]
    rw [Bytes.padded, hsplit, List.append_assoc, Bytes.holds_append_iff, List.append_assoc,
      Bytes.holds_append_iff] at hstrings
    exact hstrings.2.1

/-- A UTF-8 string is found behind its two lengths. -/
theorem rawUtf8At_of_holds {s : String} (hs : (Text.utf8Bytes s).length < 32768)
    (hdata : p.stringsStart + p.dataSize ≤ p.data.size)
    (hroom : i + (encodeUtf8 s).length ≤ p.dataSize)
    (h : Bytes.Holds p.data (p.stringsStart + i) (encodeUtf8 s)) :
    p.rawUtf8At i = .ok (some (.utf8 (Text.utf8Bytes s).toByteArray)) := by
  have hunits := Text.length_unitsOf_le s
  simp only [encodeUtf8, List.append_assoc, Bytes.holds_append_iff] at h
  obtain ⟨hfirst, hsecond, hbytes, hmark⟩ := h
  simp only [encodeUtf8, List.length_append, List.length_cons, List.length_nil] at hroom
  rw [Nat.add_assoc p.stringsStart] at hsecond
  have hlength := lengthAt8?_of_holds hfirst (by omega) (by omega)
  have hlength' := lengthAt8?_of_holds hsecond hs (by omega)
  generalize (lengthBytes8 (Text.unitsOf s).length).length = u at *
  generalize (lengthBytes8 (Text.utf8Bytes s).length).length = v at *
  have hfirstByte : p.stringsStart + i + u + v = p.stringsStart + (i + u + v) := by omega
  rw [hfirstByte] at hbytes hmark
  have hslice := hbytes.slice (by omega)
  obtain ⟨hterminator, _⟩ := Bytes.holds_cons_iff.mp hmark
  rw [Bytes.byte?] at hterminator
  simp only [rawUtf8At, Bytes.within, if_pos (show p.stringsStart ≤ p.stringsStart + p.dataSize ∧
    p.stringsStart + p.dataSize ≤ p.data.size from ⟨by omega, hdata⟩), hlength, hlength', bind,
    Except.bind, Option.bind, if_neg (show ¬ p.dataSize ≤ i + u + v +
      (Text.utf8Bytes s).length by omega), Bytes.byteAt, hterminator, hslice]
  rfl

/-- A UTF-16 string is found behind its length. -/
theorem rawUtf16At_of_holds {s : String} (hs : (Text.unitsOf s).length < 2147483648)
    (hdata : p.stringsStart + 2 * p.dataSize ≤ p.data.size)
    (hroom : 2 * i + (encodeUtf16 s).length ≤ 2 * p.dataSize)
    (h : Bytes.Holds p.data (p.stringsStart + 2 * i) (encodeUtf16 s)) :
    p.rawUtf16At i = .ok (some (.utf16 (Text.unitsOf s))) := by
  simp only [encodeUtf16, List.append_assoc, Bytes.holds_append_iff,
    Bytes.length_flatMap_bytes16] at h
  obtain ⟨hlength, hunits, hmark⟩ := h
  simp only [encodeUtf16, List.length_append, List.length_cons, List.length_nil,
    Bytes.length_flatMap_bytes16] at hroom
  have hstart := lengthAt16?_of_holds hlength hs
  have heven := length_lengthBytes16 (Text.unitsOf s).length
  generalize hu : (lengthBytes16 (Text.unitsOf s).length).length / 2 = u at hstart
  have hlengthNat : (lengthBytes16 (Text.unitsOf s).length).length = 2 * u := by omega
  rw [hlengthNat] at hunits hmark hroom
  have hfirst : p.stringsStart + 2 * i + 2 * u = p.stringsStart + 2 * (i + u) := by omega
  rw [hfirst] at hunits hmark
  have hlast : p.stringsStart + 2 * (i + u) + 2 * (Text.unitsOf s).length =
      p.stringsStart + 2 * (i + u + (Text.unitsOf s).length) := by omega
  have hterminator : Bytes.word16? p.data
      (p.stringsStart + 2 * (i + u + (Text.unitsOf s).length)) = some 0 := by
    rw [hlast] at hmark
    exact Bytes.Holds.word16? (v := 0) hmark
  have hslice := hunits.slice (by omega)
  rw [Bytes.length_flatMap_bytes16] at hslice
  have hwords : Bytes.words16 ((Text.unitsOf s).flatMap Bytes.bytes16) = Text.unitsOf s := by
    have happend := Bytes.words16_append (Text.unitsOf s) []
    have hnil : Bytes.words16 [] = [] := rfl
    rwa [List.append_nil, hnil, List.append_nil] at happend
  simp only [rawUtf16At, hstart, if_neg (show ¬ p.dataSize ≤ i + u + (Text.unitsOf s).length by
    omega), hterminator, hslice, bind, Except.bind, List.data_toByteArray, hwords]
  rfl

/-- A string as a pool holds it. -/
def rawOf (utf8 : Bool) (s : String) : RawString :=
  if utf8 then .utf8 (Text.utf8Bytes s).toByteArray else .utf16 (Text.unitsOf s)

theorem text_rawOf (utf8 : Bool) (s : String) : (rawOf utf8 s).text = s := by
  cases utf8 with
  | true =>
      show Text.decodeUtf8 (Text.utf8Bytes s).toByteArray = s
      rw [Text.toByteArray_utf8Bytes]
      exact Text.decodeUtf8_toUTF8 s
  | false => exact Text.decodeUtf16_unitsOf s

variable (hsmall : (parts utf8 sorted strings).size < 4294967296)
  (hlengths : utf8 = true → ∀ s ∈ strings, (Text.utf8Bytes s).length < 32768)

include hsmall hlengths in
theorem rawAt_written {k : Nat} {s : String} (hk : strings[k]? = some s) :
    (written utf8 sorted strings).rawAt k = .ok (some (rawOf utf8 s)) := by
  have hlt : k < strings.length := (List.getElem?_eq_some_iff.mp hk).1
  have hmem : s ∈ strings := List.mem_of_getElem? hk
  have hsize := (laidOut_encode utf8 sorted strings).size
  obtain ⟨start, haligned, hroom, hoffset, hpiece⟩ := @holds_piece utf8 sorted strings k s hk
  have hleast := le_length_encodeString utf8 s
  have hstartOf : startOf strings = minHeaderSize + 4 * strings.length :=
    startOf_eq (List.ne_nil_of_mem hmem)
  rw [size_parts] at hsmall
  have hstartNat : (UInt32.ofNat start).toNat = start :=
    UInt32.toNat_ofNat_of_lt' (show start < 4294967296 by omega)
  have hcount : (written utf8 sorted strings).count = strings.length := rfl
  have hutf8 : (written utf8 sorted strings).utf8 = utf8 := rfl
  have hword : Bytes.word32? (written utf8 sorted strings).data
      ((written utf8 sorted strings).headerSize + 4 * k) = some (UInt32.ofNat start) :=
    hoffset.word32?
  have hunits : unitSize utf8 * (written utf8 sorted strings).dataSize =
      (Bytes.padded (pieces utf8 strings).flatten).length :=
    Nat.mul_div_cancel' (unitSize_dvd utf8 _)
  have hstart : unitSize utf8 * (start / unitSize utf8) = start :=
    Nat.mul_div_cancel' (Nat.dvd_of_mod_eq_zero haligned)
  -- a string takes two units at least, so that it does not start with the last one
  have hlast : ¬ (written utf8 sorted strings).dataSize - 1 ≤ start / unitSize utf8 := by
    cases utf8 with
    | true =>
        simp only [unitSize, if_true] at hleast hunits hstart ⊢
        omega
    | false =>
        simp only [unitSize, Bool.false_eq_true, if_false] at hleast hunits hstart ⊢
        omega
  have hdata : (written utf8 sorted strings).stringsStart +
      unitSize utf8 * (written utf8 sorted strings).dataSize ≤
        (written utf8 sorted strings).data.size := by
    show startOf strings + _ ≤ (encode utf8 sorted strings).toByteArray.size
    omega
  rw [← hunits, ← hstart] at hroom
  simp only [rawAt, hcount, if_neg (Nat.not_le_of_lt hlt), hword, hstartNat, hutf8, if_neg hlast]
  cases utf8 with
  | true =>
      have hone : unitSize true = 1 := rfl
      simp only [hone, Nat.one_mul, Nat.div_one] at hdata hroom ⊢
      exact rawUtf8At_of_holds (hlengths rfl s hmem) hdata hroom hpiece
  | false =>
      have htwo : unitSize false = 2 := rfl
      rw [← hstart] at hpiece
      simp only [htwo] at hdata hroom hpiece ⊢
      refine rawUtf16At_of_holds ?_ hdata hroom hpiece
      have hlength : 2 * (Text.unitsOf s).length ≤ (encodeString false s).length := by
        show _ ≤ (encodeUtf16 s).length
        simp only [encodeUtf16, List.length_append, Bytes.length_flatMap_bytes16]
        omega
      rw [htwo] at hunits
      omega

include hsmall hlengths in
/-- The string at an index of a written pool is the one that was put in there. -/
theorem string?_written (k : Nat) : (written utf8 sorted strings).string? k = strings[k]? := by
  have hcount : (written utf8 sorted strings).count = strings.length := rfl
  cases hk : strings[k]? with
  | none =>
      have hrange := List.getElem?_eq_none_iff.mp hk
      simp only [string?, raw?, rawAt, hcount, if_pos hrange]
      rfl
  | some s =>
      simp only [string?, raw?, rawAt_written hsmall hlengths hk, Option.map_some, text_rawOf]

include hsmall hlengths in
theorem strings_written : (written utf8 sorted strings).strings = strings.map some := by
  have hcount : (written utf8 sorted strings).count = strings.length := rfl
  apply List.ext_getElem?
  intro k
  rw [StringPool.strings, hcount, List.getElem?_map, List.getElem?_map]
  by_cases hk : k < strings.length
  · rw [List.getElem?_range hk, List.getElem?_eq_getElem hk]
    show some ((written utf8 sorted strings).string? k) = _
    rw [string?_written hsmall hlengths k, List.getElem?_eq_getElem hk]
    rfl
  · have hrange : (List.range strings.length)[k]? = none :=
      List.getElem?_eq_none_iff.mpr (by rw [List.length_range]; omega)
    rw [hrange, List.getElem?_eq_none_iff.mpr (by omega)]
    rfl

/-- A written pool loads with as many strings as were put in. Each string stands at its index,
and behind the last one nothing is read. -/
theorem load_strings (utf8 sorted : Bool) (strings : List String)
    (hsmall : (encode utf8 sorted strings).length < 4294967296)
    (hlengths : utf8 = true → ∀ s ∈ strings, (Text.utf8Bytes s).length ≤ 0x7fff) :
    ∃ p, load (encode utf8 sorted strings).toByteArray = .ok p ∧ p.count = strings.length ∧
      (∀ i s, strings[i]? = some s → p.string? i = some s) ∧
      ∀ i, strings.length ≤ i → p.rawAt i = .ok none ∧ p.string? i = none := by
  rw [← bytes_parts, ChunkParts.length_bytes] at hsmall
  have hstrings := string?_written hsmall fun hutf8 s hs => Nat.lt_succ_of_le (hlengths hutf8 s hs)
  have hcount : (written utf8 sorted strings).count = strings.length := rfl
  refine ⟨_, load_encode hsmall, hcount, fun i s hs => (hstrings i).trans hs, fun i hi => ⟨?_, ?_⟩⟩
  · rw [rawAt, if_pos (hcount ▸ hi)]
  · rw [hstrings i, List.getElem?_eq_none_iff.mpr hi]

/-- Strings that are empty, hold a zero, or need two units for a character. -/
def unusualStrings : List String :=
  ["", "a\x00b", "😀", ""]

theorem load_strings_unusual :
    (encode true true unusualStrings).length < 4294967296 ∧
      (∀ s ∈ unusualStrings, (Text.utf8Bytes s).length ≤ 0x7fff) ∧
      (∃ p, load (encode true true unusualStrings).toByteArray = .ok p ∧ p.count = 4 ∧
        p.string? 1 = some "a\x00b" ∧ p.string? 3 = some "" ∧ p.string? 4 = none) ∧
      ∃ p, load (encode false false unusualStrings).toByteArray = .ok p ∧ p.count = 4 ∧
        p.string? 2 = some "😀" ∧ p.string? 3 = some "" := by
  have hsmall : (encode true true unusualStrings).length < 4294967296 := by decide +kernel
  have hlengths : ∀ s ∈ unusualStrings, (Text.utf8Bytes s).length ≤ 0x7fff := by decide +kernel
  obtain ⟨p, hp, hpCount, hpStrings, hpNone⟩ :=
    load_strings true true unusualStrings hsmall fun _ => hlengths
  obtain ⟨q, hq, hqCount, hqStrings, _⟩ :=
    load_strings false false unusualStrings (by decide +kernel) nofun
  exact ⟨hsmall, hlengths,
    ⟨p, hp, hpCount, hpStrings 1 _ rfl, hpStrings 3 _ rfl, (hpNone 4 (Nat.le_refl 4)).2⟩,
    q, hq, hqCount, hqStrings 2 _ rfl, hqStrings 3 _ rfl⟩

end StringPool

end AppResources
