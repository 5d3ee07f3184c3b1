import AppResources.Encoding.Variant
import AppResources.Proofs.WrittenChunks

/-!
# Written records are read back

Values, entries and configurations are read from where they were written. Of the kind of a value
only the tag is written, so a kind comes back if it is the one with its tag. Otherwise an entry
comes back as it was put in, but for the flag that marks a bag, which is set on the way.

## Main definitions

* `Entry.Storable`, `Entry.stored`: what can be written, and what it is to be read back as.
* `Value.reread`, `Entry.reread`: what is read back.
* `Entry.IsCanonical`: the kinds of all values are those with their tags.

## Main results

* `Config.ofRecord_of_holds`, `Config.read?_of_holds`: a full record of a configuration is read
  back.
* `Entry.read_of_holds`: an entry is read at its offset.
* `Entry.reread_eq_stored_iff`: when it is read back as it was put in.
-/

namespace AppResources

variable {b : ByteArray} {i : Nat}

theorem Bytes.Holds.size_le_of_pos {xs : List UInt8} (h : Holds b i xs) (hxs : 0 < xs.length) :
    i + xs.length ≤ b.size := by
  refine h.size_le ?_
  have hlength := h.length_le
  simp only [List.length_drop, Array.length_toList, ByteArray.size_data] at hlength
  omega

/-! ## Configurations -/

theorem Subtag.length_bytes (s : Subtag) : s.bytes.length = 2 := rfl

namespace SizedRecord

variable {start size groupEnd offset : Nat}

theorem byte_eq {v : UInt8} (h : Bytes.byte? b (start + offset) = some v)
    (hsize : groupEnd ≤ size) : byte ⟨b, start, size⟩ groupEnd offset = v := by
  simp only [byte, if_pos hsize, h]
  rfl

theorem word16_eq {v : UInt16} (h : Bytes.Holds b (start + offset) (Bytes.bytes16 v))
    (hsize : groupEnd ≤ size) : word16 ⟨b, start, size⟩ groupEnd offset = v := by
  simp only [word16, if_pos hsize, h.word16?]
  rfl

theorem subtag_eq {s : Subtag} (h : Bytes.Holds b (start + offset) s.bytes)
    (hsize : groupEnd ≤ size) : subtag ⟨b, start, size⟩ groupEnd offset = s := by
  obtain ⟨hfirst, hrest⟩ := Bytes.holds_cons_iff.mp h
  obtain ⟨hsecond, _⟩ := Bytes.holds_cons_iff.mp hrest
  rw [Nat.add_assoc] at hsecond
  rw [subtag, byte_eq hfirst hsize, byte_eq hsecond hsize]

theorem bytes_eq {n : Nat} {v : Vector UInt8 n}
    (h : Bytes.Holds b (start + offset) v.toList) (hsize : groupEnd ≤ size) :
    bytes ⟨b, start, size⟩ groupEnd offset n = v := by
  apply Vector.ext
  intro k hk
  have hitem : Bytes.Holds b (start + offset + 1 * k) [v[k]] := by
    have hlist : v.toList = v.toList.flatMap fun a => [a] := (List.flatMap_singleton' _).symm
    rw [hlist] at h
    refine h.item (fun _ => rfl) ?_
    rw [Vector.getElem?_toList, Vector.getElem?_eq_getElem hk]
  rw [Nat.one_mul, Nat.add_assoc] at hitem
  simp only [bytes, Vector.getElem_ofFn]
  exact byte_eq (Bytes.holds_cons_iff.mp hitem).1 hsize

end SizedRecord

namespace Config

theorem length_record (c : Config) : c.record.length = 64 := by
  unfold record
  simp only [List.length_append, Bytes.length_bytes32, Bytes.length_bytes16]
  simp only [Subtag.bytes, List.length_cons, List.length_nil]
  simp only [Vector.length_toList]

/-- A full record holds its configuration. -/
theorem ofRecord_of_holds {c : Config} (h : Bytes.Holds b i c.record) :
    ofRecord ⟨b, i, recordSize⟩ = c := by
  unfold record at h
  simp only [Bytes.holds_append_iff, Bytes.holds_cons_iff, List.length_append,
    Bytes.length_bytes32, Bytes.length_bytes16, Subtag.length_bytes, List.length_cons,
    List.length_nil, Vector.length_toList, Nat.add_assoc, Nat.reduceAdd, and_assoc] at h
  obtain ⟨_, hmcc, hmnc, hlanguage, hregion, horientation, htouchscreen, _, hdensity,
    hkeyboard, hnavigation, hinputFlags, _, _, hscreenWidth, hscreenHeight, hsdkVersion,
    hminorVersion, hscreenLayout, huiMode, _, hsmallestWidth, hwidth, hheight, hscript, hvariant,
    hscreenLayout2, hcolorMode, _, _, _, hcomputed, _, hnumbering, _⟩ := h
  have hflag : ((if c.locale.scriptComputed then 1 else 0 : UInt8) != 0) =
      c.locale.scriptComputed := by
    cases c.locale.scriptComputed <;> rfl
  simp only [ofRecord, recordSize,
    SizedRecord.word16_eq hmcc (by decide : 8 ≤ 64),
    SizedRecord.word16_eq hmnc (by decide : 8 ≤ 64),
    SizedRecord.subtag_eq hlanguage (by decide : 12 ≤ 64),
    SizedRecord.subtag_eq hregion (by decide : 12 ≤ 64),
    SizedRecord.byte_eq horientation (by decide : 16 ≤ 64),
    SizedRecord.byte_eq htouchscreen (by decide : 16 ≤ 64),
    SizedRecord.word16_eq hdensity (by decide : 16 ≤ 64),
    SizedRecord.byte_eq hkeyboard (by decide : 20 ≤ 64),
    SizedRecord.byte_eq hnavigation (by decide : 20 ≤ 64),
    SizedRecord.byte_eq hinputFlags (by decide : 20 ≤ 64),
    SizedRecord.word16_eq hscreenWidth (by decide : 24 ≤ 64),
    SizedRecord.word16_eq hscreenHeight (by decide : 24 ≤ 64),
    SizedRecord.word16_eq hsdkVersion (by decide : 28 ≤ 64),
    SizedRecord.word16_eq hminorVersion (by decide : 28 ≤ 64),
    SizedRecord.byte_eq hscreenLayout (by decide : 32 ≤ 64),
    SizedRecord.byte_eq huiMode (by decide : 32 ≤ 64),
    SizedRecord.word16_eq hsmallestWidth (by decide : 32 ≤ 64),
    SizedRecord.word16_eq hwidth (by decide : 36 ≤ 64),
    SizedRecord.word16_eq hheight (by decide : 36 ≤ 64),
    SizedRecord.bytes_eq hscript (by decide : 40 ≤ 64),
    SizedRecord.bytes_eq hvariant (by decide : 48 ≤ 64),
    SizedRecord.byte_eq hscreenLayout2 (by decide : 52 ≤ 64),
    SizedRecord.byte_eq hcolorMode (by decide : 52 ≤ 64),
    SizedRecord.byte_eq hcomputed (by decide : 53 ≤ 64),
    SizedRecord.bytes_eq hnumbering (by decide : 61 ≤ 64), hflag]

/-- A record is read up to the size it claims, or as far as there is room for it. -/
theorem read?_of_word32? {size : UInt32} (h : Bytes.word32? b i = some size) :
    read? b i =
      some (ofRecord ⟨b, i, min size.toNat (room b i)⟩, i + max 4 (min size.toNat (room b i))) := by
  rw [read?, h]

theorem room_eq (h : b.size - i < 4294967296) : room b i = b.size - i :=
  UInt32.toNat_ofNat_of_lt' h

/-- A full record is read back. -/
theorem read?_of_holds {c : Config} (h : Bytes.Holds b i c.record) (hsmall : b.size < 4294967296) :
    read? b i = some (c, i + 64) := by
  have hend := h.size_le_of_pos (by rw [length_record]; decide)
  rw [length_record] at hend
  have hsize : Bytes.Holds b i (Bytes.bytes32 64) := by
    have hfront := h
    unfold record at hfront
    simp only [Bytes.holds_append_iff, and_assoc] at hfront
    exact hfront.1
  have hmin : min (64 : UInt32).toNat (room b i) = recordSize := by
    rw [room_eq (by omega)]
    show min 64 (b.size - i) = 64
    omega
  rw [read?_of_word32? hsize.word32?, hmin, ofRecord_of_holds h]
  rfl

end Config

/-! ## Entries -/

namespace Value

theorem length_encode (v : Value) : v.encode.length = 8 := rfl

/-- The value that is read back: its kind is the one with the tag that was written. -/
def reread (v : Value) : Value := { v with kind := .ofTag v.kind.tag }

theorem reread_eq_self_iff {v : Value} : v.reread = v ↔ v.kind.IsCanonical := by
  rw [← ValueKind.ofTag_tag_iff]
  exact ⟨congrArg kind, congrArg (mk · v.data)⟩

theorem readAt_of_holds {v : Value} (h : Bytes.Holds b i v.encode) :
    readAt b i = .ok (8, v.reread) := by
  simp only [encode, Bytes.holds_append_iff, Bytes.holds_cons_iff, List.length_append,
    Bytes.length_bytes16, List.length_cons, List.length_nil, Nat.add_assoc, Nat.reduceAdd] at h
  obtain ⟨⟨hsize, _, htag, _⟩, hdata⟩ := h
  simp only [readAt, read?, hsize.word16?, htag, hdata.word32?]
  rfl

end Value

namespace Entry

variable {flags : UInt16}

theorem hasFlag_or_self : hasFlag (flags ||| bagFlag) bagFlag = true := by
  have hand : (flags ||| 0x0001) &&& 0x0001 = (0x0001 : UInt16) := by
    apply UInt16.toBitVec_inj.mp
    ext k hk
    simp
    grind
  simp only [hasFlag, bagFlag, hand, BEq.rfl]

theorem hasFlag_or_compact :
    hasFlag (flags ||| bagFlag) compactFlag = hasFlag flags compactFlag := by
  have hand : (flags ||| 0x0001) &&& 0x0008 = flags &&& 0x0008 := by
    apply UInt16.toBitVec_inj.mp
    ext k hk
    simp
    grind
  simp only [hasFlag, bagFlag, compactFlag, hand]

/-- An entry whose flags do not say that it is of another form. -/
def Storable : Entry → Prop
  | .plain _ flags _ => hasFlag flags bagFlag = false ∧ hasFlag flags compactFlag = false
  | .bag _ flags _ _ => hasFlag flags compactFlag = false

instance : DecidablePred Storable
  | .plain _ flags _ =>
    inferInstanceAs (Decidable (hasFlag flags bagFlag = false ∧ hasFlag flags compactFlag = false))
  | .bag _ flags _ _ => inferInstanceAs (Decidable (hasFlag flags compactFlag = false))

/-- The entry that was put in, where bags carry the flag that marks them. -/
def stored : Entry → Entry
  | .plain key flags value => .plain key flags value
  | .bag key flags parent items => .bag key (flags ||| bagFlag) parent items

/-! ### Kinds of values -/

/-- The values of an entry. -/
def values : Entry → List Value
  | .plain _ _ value => [value]
  | .bag _ _ _ items => items.map (·.value)

/-- The kinds of all values of an entry are those with their tags. -/
def IsCanonical (e : Entry) : Prop :=
  ∀ v ∈ e.values, v.kind.IsCanonical

instance : DecidablePred IsCanonical := fun e =>
  inferInstanceAs (Decidable (∀ v ∈ e.values, v.kind.IsCanonical))

/-- An item of a bag with the value that is read back. -/
def rereadItem (item : BagItem) : BagItem := { item with value := item.value.reread }

/-- The entry that is read back. -/
def reread : Entry → Entry
  | .plain key flags value => .plain key flags value.reread
  | .bag key flags parent items => .bag key (flags ||| bagFlag) parent (items.map rereadItem)

theorem rereadItem_eq_self_iff {item : BagItem} :
    rereadItem item = item ↔ item.value.kind.IsCanonical := by
  rw [← Value.reread_eq_self_iff]
  exact ⟨congrArg BagItem.value, congrArg (BagItem.mk item.name)⟩

/-- An entry is read back as it was put in exactly if its kinds are those with their tags. -/
theorem reread_eq_stored_iff {e : Entry} : e.reread = e.stored ↔ e.IsCanonical := by
  cases e with
  | plain key flags value =>
      rw [reread, stored, plain.injEq, Value.reread_eq_self_iff]
      simp [IsCanonical, values]
  | bag key flags parent items =>
      have hitems : items.map rereadItem = items ↔ ∀ item ∈ items, rereadItem item = item := by
        have hid := @List.map_inj_left _ _ items rereadItem id
        rwa [List.map_id] at hid
      rw [reread, stored, bag.injEq]
      simp only [hitems, rereadItem_eq_self_iff, IsCanonical, values, List.forall_mem_map, true_and]

/-! ### Written entries -/

theorem length_encodeItems (items : List BagItem) :
    (items.flatMap fun item => Bytes.bytes32 item.name ++ item.value.encode).length =
      itemSize * items.length :=
  Bytes.length_items fun _ => rfl

theorem length_encode (e : Entry) : 16 ≤ e.encode.length ∧ e.encode.length % 4 = 0 := by
  cases e with
  | plain key flags value =>
      have hlength : (plain key flags value).encode.length = 16 := rfl
      rw [hlength]
      exact ⟨Nat.le_refl _, rfl⟩
  | bag key flags parent items =>
      simp only [encode, List.length_append, Bytes.length_bytes16, Bytes.length_bytes32,
        length_encodeItems, itemSize]
      omega

theorem itemAt_of_holds {item : BagItem}
    (h : Bytes.Holds b i (Bytes.bytes32 item.name ++ item.value.encode)) :
    itemAt b i = .ok (rereadItem item) := by
  obtain ⟨hname, hvalue⟩ := Bytes.holds_append_iff.mp h
  rw [Bytes.length_bytes32] at hvalue
  rw [itemAt, hname.word32At]
  show (do let value ← Value.readAt b (i + 4); pure (⟨item.name, value.2⟩ : BagItem)) = _
  rw [Value.readAt_of_holds hvalue]
  rfl

theorem itemsAt_of_holds {items : List BagItem}
    (h : Bytes.Holds b i (items.flatMap fun item => Bytes.bytes32 item.name ++ item.value.encode)) :
    itemsAt b i items.length = .ok (items.map rereadItem) := by
  rw [← List.length_map rereadItem]
  apply mapM_range_eq
  intro k read hk
  rw [List.getElem?_map, Option.map_eq_some_iff] at hk
  obtain ⟨item, hitem, rfl⟩ := hk
  exact itemAt_of_holds (h.item (fun _ => rfl) hitem)

theorem checked_ok {α : Type} (a : α) : checked (.ok a) = .ok a := rfl

theorem within_size {i : Nat} (hi : i ≤ b.size) : Bytes.within b i b.size = .ok () :=
  if_pos ⟨hi, Nat.le_refl _⟩

theorem minus_size {i : Nat} (hi : i ≤ b.size) : Bytes.minus b.size i = .ok (b.size - i) :=
  if_pos hi

/-- An entry that is not compact is read behind its header. -/
theorem read_of_header {size flags : UInt16} {key : UInt32}
    (hentrySize : Bytes.Holds b i (Bytes.bytes16 size))
    (hflags : Bytes.Holds b (i + 2) (Bytes.bytes16 flags))
    (hkey : Bytes.Holds b (i + 4) (Bytes.bytes32 key)) (hi : i % 4 = 0)
    (hleast : headerSize ≤ size.toNat) (hroom : i + size.toNat ≤ b.size)
    (hcompact : hasFlag flags compactFlag = false) :
    read b i =
      if hasFlag flags bagFlag then readBag b i (i + size.toNat) flags key
      else readPlain b (i + size.toNat) flags key := by
  rw [headerSize] at hleast
  simp only [read, headerSize, if_neg (show ¬ i % 4 ≠ 0 by omega),
    if_neg (show ¬ (b.size - 8 < i ∨ b.size < 8) by omega),
    within_size (show i ≤ b.size by omega), hentrySize.word16At, hflags.word16At, hkey.word32At,
    minus_size (show i ≤ b.size by omega), checked_ok, bind, Except.bind, hcompact,
    Bool.false_eq_true, if_false, if_neg (show ¬ size.toNat < 8 by omega),
    if_neg (show ¬ b.size - i < size.toNat by omega)]

theorem readPlain_of_holds {flags : UInt16} {key : UInt32} {value : Value}
    (h : Bytes.Holds b i value.encode) :
    readPlain b i flags key = .ok (.plain key flags value.reread) := by
  have hroom := h.size_le_of_pos (by rw [Value.length_encode]; decide)
  rw [Value.length_encode] at hroom
  have height : (8 : UInt16).toNat = 8 := rfl
  simp only [readPlain, Value.diskSize, if_neg (show ¬ b.size - 8 < i by omega),
    within_size (show i ≤ b.size by omega), minus_size (show i ≤ b.size by omega),
    Value.readAt_of_holds h, checked_ok, bind, Except.bind, height,
    if_neg (show ¬ 8 < 8 by omega), if_neg (show ¬ b.size - i < 8 by omega)]
  rfl

theorem readBag_of_holds {flags : UInt16} {key : UInt32} {parent : ResourceId}
    {items : List BagItem} (hparent : Bytes.Holds b (i + 8) (Bytes.bytes32 parent))
    (hcount : Bytes.Holds b (i + 12) (Bytes.bytes32 (UInt32.ofNat items.length)))
    (hitems : Bytes.Holds b (i + 16)
      (items.flatMap fun item => Bytes.bytes32 item.name ++ item.value.encode))
    (hi : i % 4 = 0) (hroom : i + (16 + itemSize * items.length) ≤ b.size)
    (hsize : b.size < 4294967296) :
    readBag b i (i + 16) flags key = .ok (.bag key flags parent (items.map rereadItem)) := by
  rw [itemSize] at hroom
  have hcountNat : (UInt32.ofNat items.length).toNat = items.length :=
    UInt32.toNat_ofNat_of_lt' (show items.length < 4294967296 by omega)
  have hfits : ¬ (b.size - (i + 16)) / 12 < items.length := by omega
  simp only [readBag, bagHeaderSize, if_neg (show ¬ i + 16 < i + 16 by omega), hparent.word32At,
    hcount.word32At, if_neg (show ¬ (i + 16) % 4 ≠ 0 by omega), checked_ok, bind, Except.bind,
    within_size (show i + 16 ≤ b.size by omega), minus_size (show i + 16 ≤ b.size by omega),
    itemSize, hcountNat, if_neg hfits, itemsAt_of_holds hitems]
  rfl

/-- An entry is read at its offset. -/
theorem read_of_holds {e : Entry} (h : Bytes.Holds b i e.encode) (hi : i % 4 = 0)
    (hsize : b.size < 4294967296) (he : e.Storable) : read b i = .ok e.reread := by
  have hlength := length_encode e
  have hroom := h.size_le_of_pos (by omega)
  cases e with
  | plain key flags value =>
      obtain ⟨hbag, hcompact⟩ := he
      simp only [encode, Bytes.holds_append_iff, List.length_append, Bytes.length_bytes16,
        Bytes.length_bytes32, Nat.reduceAdd] at h
      obtain ⟨⟨⟨hentrySize, hflags⟩, hkey⟩, hvalue⟩ := h
      have height : (8 : UInt16).toNat = 8 := rfl
      rw [read_of_header hentrySize hflags hkey hi (Nat.le_refl _) (by omega) hcompact, hbag]
      exact readPlain_of_holds hvalue
  | bag key flags parent items =>
      have hitemsLength : (bag key flags parent items).encode.length =
          16 + itemSize * items.length := by
        simp only [encode, List.length_append, Bytes.length_bytes16, Bytes.length_bytes32,
          length_encodeItems]
      rw [hitemsLength] at hroom
      simp only [encode, Bytes.holds_append_iff, List.length_append, Bytes.length_bytes16,
        Bytes.length_bytes32, Nat.reduceAdd] at h
      obtain ⟨⟨⟨⟨⟨hentrySize, hflags⟩, hkey⟩, hparent⟩, hcount⟩, hitems⟩ := h
      have hsixteen : (16 : UInt16).toNat = 16 := rfl
      have hcompact : hasFlag (flags ||| bagFlag) compactFlag = false :=
        hasFlag_or_compact.trans he
      rw [read_of_header hentrySize hflags hkey hi (by decide) (by omega) hcompact,
        hasFlag_or_self]
      exact readBag_of_holds hparent hcount hitems hi hroom hsize

end Entry

end AppResources
