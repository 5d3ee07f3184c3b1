import AppResources.Proofs.PoolRoundTrip
import AppResources.Proofs.WrittenElements
import AppResources.Proofs.WrittenTypes
import AppResources.Xml.Cursor

/-!
# Documents are read back

A document with one element is written as a string pool, the resource ids of the first strings,
and the start and the end of the element. What is loaded has these in their places, and a cursor
finds the element and reports its attributes in the order in which they were written, each with
its value, if the kind of the value is the one with its tag.

## Main definitions

* `ElementSource.chunks`: the chunks inside a document before they are written.
* `ElementSource.document`: the document that is read back.
* `XmlCursor.Shows`: what a cursor reports about the element that it stands on.

## Main results

* `ElementSource.load_encode`: a written document loads.
* `ElementSource.load_encode_shows`: its only element has the name and the attributes that were
  put in, with the values that are read back.
-/

namespace AppResources

theorem Bytes.words32_flatMap (words : List UInt32) : words32 (words.flatMap bytes32) = words := by
  induction words with
  | nil => rfl
  | cons word words ih =>
      show word32 _ _ _ _ :: words32 (words.flatMap bytes32) = _
      rw [word32_bytes32, ih]

namespace ElementSource

variable {e : ElementSource}

/-! ## Written documents -/

/-- The strings of a document: the names of the attributes and the name of the element. -/
def strings (e : ElementSource) : List String :=
  e.ordered.map (·.name) ++ [e.name]

/-- The resource ids of the names that have one. -/
def ids (e : ElementSource) : List ResourceId :=
  e.ordered.filterMap (·.id?)

/-- The chunk of the resource ids before it is written. -/
def idParts (e : ElementSource) : ChunkParts where
  kind := .xmlResourceMap
  header := []
  body := e.ids.flatMap Bytes.bytes32

/-- The chunks of a document before they are written. -/
def chunks (e : ElementSource) : List ChunkParts :=
  [StringPool.parts true false e.strings, e.idParts, e.startParts, e.endParts]

/-- The chunk of a document before it is written. -/
def parts (e : ElementSource) : ChunkParts where
  kind := .xml
  header := []
  body := e.chunks.flatMap ChunkParts.bytes

theorem bytes_parts (e : ElementSource) : e.parts.bytes = e.encode := by
  have hpool := StringPool.bytes_parts true false e.strings
  simp only [ChunkParts.bytes, parts, chunks, List.flatMap_cons, List.flatMap_nil,
    List.append_nil, encode, idParts, ids, startParts, endParts, nameBytes, originBytes,
    List.append_assoc] at hpool ⊢
  rw [hpool, strings]

theorem length_ordered (e : ElementSource) : e.ordered.length = e.attributes.length :=
  e.arranged_ordered.perm.length_eq

/-- An element whose attributes can be counted and whose names can be written. -/
structure Writable (e : ElementSource) : Prop where
  few : e.attributes.length < 65536
  name : (Text.utf8Bytes e.name).length ≤ 0x7fff
  names : ∀ a ∈ e.attributes, (Text.utf8Bytes a.name).length ≤ 0x7fff

theorem Writable.strings (h : e.Writable) :
    ∀ s ∈ e.strings, (Text.utf8Bytes s).length ≤ 0x7fff := by
  intro s hs
  rw [ElementSource.strings, List.mem_append, List.mem_map, List.mem_singleton] at hs
  rcases hs with ⟨a, ha, rfl⟩ | rfl
  · exact h.names a (e.arranged_ordered.perm.mem_iff.mp ha)
  · exact h.name

/-! ### Sizes -/

theorem length_lengthBytes8_le (n : Nat) : (StringPool.lengthBytes8 n).length ≤ 2 := by
  unfold StringPool.lengthBytes8
  split
  · exact Nat.le_refl 2
  · exact Nat.le_succ 1

theorem length_encodeString_le {s : String} (hs : (Text.utf8Bytes s).length ≤ 0x7fff) :
    (StringPool.encodeString true s).length ≤ 0x8004 := by
  have hunits := length_lengthBytes8_le (Text.unitsOf s).length
  have hbytes := length_lengthBytes8_le (Text.utf8Bytes s).length
  show (StringPool.encodeUtf8 s).length ≤ 0x8004
  simp only [StringPool.encodeUtf8, List.length_append, List.length_singleton]
  omega

theorem length_pieces_le {strings : List String}
    (h : ∀ s ∈ strings, (Text.utf8Bytes s).length ≤ 0x7fff) :
    (StringPool.pieces true strings).flatten.length ≤ 0x8004 * strings.length := by
  induction strings with
  | nil => exact Nat.le_refl 0
  | cons s strings ih =>
      obtain ⟨hs, hrest⟩ := List.forall_mem_cons.mp h
      have hfirst := length_encodeString_le hs
      have hlater := ih hrest
      show (StringPool.encodeString true s ++
        (StringPool.pieces true strings).flatten).length ≤ _
      rw [List.length_append, List.length_cons]
      omega

theorem Writable.size_pool_le (h : e.Writable) :
    (StringPool.parts true false e.strings).size ≤ 0x80080020 := by
  have hpieces := length_pieces_le h.strings
  have hcount : e.strings.length = e.attributes.length + 1 := by
    rw [ElementSource.strings, List.length_append, List.length_map, length_ordered,
      List.length_singleton]
  have hfew := h.few
  rw [StringPool.size_parts, Bytes.padded, List.length_append, Bytes.length_zeros,
    StringPool.minHeaderSize]
  omega

theorem length_body_idParts (e : ElementSource) : e.idParts.body.length = 4 * e.ids.length :=
  Bytes.length_items Bytes.length_bytes32

theorem size_idParts_le (e : ElementSource) : e.idParts.size ≤ 8 + 4 * e.attributes.length := by
  have hheader : e.idParts.header.length = 0 := rfl
  have hids : e.ids.length ≤ e.ordered.length := List.length_filterMap_le _ _
  rw [length_ordered] at hids
  rw [ChunkParts.size, chunkHeaderSize, hheader, length_body_idParts]
  omega

theorem size_startParts (e : ElementSource) :
    e.startParts.size = 36 + 20 * e.attributes.length := by
  have hheader : e.startParts.header.length = 8 := rfl
  rw [ChunkParts.size, chunkHeaderSize, hheader, length_body_startParts, length_ordered,
    XmlElement.fieldsSize]
  omega

theorem size_endParts (e : ElementSource) : e.endParts.size = 24 := rfl

theorem Writable.size_le (h : e.Writable) : e.parts.size ≤ 0x90000000 := by
  have hpool := h.size_pool_le
  have hids := e.size_idParts_le
  have hfew := h.few
  have hheader : e.parts.header.length = 0 := rfl
  rw [ChunkParts.size, chunkHeaderSize, hheader]
  simp only [parts, chunks, List.flatMap_cons, List.flatMap_nil, List.length_append,
    List.length_nil, ChunkParts.length_bytes, size_startParts, size_endParts]
  omega

theorem Writable.chunk_fits (h : e.Writable) : ∀ c ∈ e.chunks, c.Fits := by
  have hsize := h.size_le
  have hsmall : ∀ c ∈ e.chunks, c.size < 4294967296 := by
    intro c hc
    have hle : c.size ≤ e.parts.body.length := ChunkParts.size_le_of_mem hc
    rw [ChunkParts.size] at hsize
    omega
  have hidBody := e.length_body_idParts
  have hstartBody := e.length_body_startParts
  have hidHeader : e.idParts.header.length = 0 := rfl
  have hstartHeader : e.startParts.header.length = 8 := rfl
  have hendHeader : e.endParts.header.length = 8 := rfl
  have hendBody : e.endParts.body.length = 8 := rfl
  rw [XmlElement.fieldsSize] at hstartBody
  simp only [chunks, List.forall_mem_cons] at hsmall ⊢
  obtain ⟨hpool, hid, hstart, hend, _⟩ := hsmall
  exact ⟨StringPool.fits_parts hpool,
    ⟨rfl, by omega, by omega, Nat.le_of_ble_eq_true rfl, hid⟩,
    ⟨rfl, by omega, by omega, Nat.le_of_ble_eq_true rfl, hstart⟩,
    ⟨rfl, by omega, by omega, Nat.le_of_ble_eq_true rfl, hend⟩,
    List.forall_mem_nil _⟩

theorem Writable.fits (h : e.Writable) : e.parts.Fits where
  known := rfl
  headerAligned := rfl
  bodyAligned := ChunkParts.length_flatMap_bytes_mod h.chunk_fits
  headerSmall := Nat.le_of_ble_eq_true rfl
  small := Nat.lt_of_le_of_lt h.size_le (by decide)

/-! ## Loading -/

/-- The document that is read back. -/
def document (e : ElementSource) : XmlDocument where
  strings := StringPool.written true false e.strings
  resourceIds := e.ids.toArray
  nodes := #[.startElement e.element,
    .endElement origin noIndex (UInt32.ofNat e.ordered.length)]

theorem Writable.addChunk_pool (h : e.Writable) (position : Nat) :
    XmlContent.addChunk {} ((StringPool.parts true false e.strings).placed position) =
      .ok { strings := some e.document.strings } := by
  have hload := @StringPool.load_encode true false e.strings
    (Nat.lt_of_le_of_lt h.size_pool_le (by decide))
  have hkind : ((StringPool.parts true false e.strings).placed position).kind = .stringPool := rfl
  simp only [XmlContent.addChunk, hkind, Option.isSome_none, Bool.false_eq_true, if_false,
    ChunkParts.bytes_placed, StringPool.bytes_parts, hload]
  rfl

theorem addChunk_ids {found : XmlContent} (hfirst : found.nodes = #[]) (position : Nat) :
    found.addChunk (e.idParts.placed position) =
      .ok { found with resourceIds := e.document.resourceIds } := by
  have hkind : (e.idParts.placed position).kind = .xmlResourceMap := rfl
  have hempty : found.nodes.isEmpty = true := by
    rw [hfirst]
    rfl
  have hwords : Bytes.words32 e.idParts.body.toByteArray.data.toList = e.ids := by
    rw [List.data_toByteArray]
    exact Bytes.words32_flatMap e.ids
  simp only [XmlContent.addChunk, hkind, hempty, if_true, ChunkParts.frame_placed, hwords]
  rfl

theorem addChunk_start (hcount : e.ordered.length < 65536) (found : XmlContent) (position : Nat) :
    found.addChunk (e.startParts.placed position) =
      .ok { found with nodes := found.nodes.push (.startElement e.element) } := by
  have hkind : (e.startParts.placed position).kind = .xmlStartElement := rfl
  have hnode : XmlNode.isNodeKind .xmlStartElement = true := rfl
  simp only [XmlContent.addChunk, hkind, hnode, if_true, read_startNode hcount]

theorem addChunk_end (e : ElementSource) (found : XmlContent) (position : Nat) :
    found.addChunk (e.endParts.placed position) =
      .ok { found with
        nodes := found.nodes.push
          (.endElement origin noIndex (UInt32.ofNat e.ordered.length)) } := by
  have hkind : (e.endParts.placed position).kind = .xmlEndElement := rfl
  have hnode : XmlNode.isNodeKind .xmlEndElement = true := rfl
  simp only [XmlContent.addChunk, hkind, hnode, if_true, read_endNode]

/-- The chunks inside a document are found one by one. -/
theorem Writable.foldlM_addChunk (h : e.Writable) (position : Nat) :
    (ChunkParts.placeAll position e.chunks).foldlM XmlContent.addChunk {} =
      .ok ⟨some e.document.strings, e.document.resourceIds, e.document.nodes⟩ := by
  have hcount : e.ordered.length < 65536 := e.length_ordered ▸ h.few
  rw [chunks, ChunkParts.placeAll, foldlM_cons_of_ok (h.addChunk_pool _), ChunkParts.placeAll,
    foldlM_cons_of_ok (addChunk_ids rfl _), ChunkParts.placeAll,
    foldlM_cons_of_ok (addChunk_start hcount _ _), ChunkParts.placeAll,
    foldlM_cons_of_ok (e.addChunk_end _ _)]
  rfl

/-- A written document loads. -/
theorem Writable.load_encode (h : e.Writable) :
    XmlDocument.load e.encode.toByteArray = .ok e.document := by
  have hread : readChunk e.parts.bytes.toByteArray 0 0 = .ok (e.parts.placed 0) :=
    ChunkParts.readChunk_bytes (Bytes.holds_toByteArray _) (Nat.zero_le _) rfl h.fits
  have hsize : e.parts.bytes.toByteArray.size ≠ 0 := by
    rw [List.size_toByteArray, ChunkParts.length_bytes, ChunkParts.size, chunkHeaderSize]
    omega
  have hkind : (e.parts.placed 0).kind = .xml := rfl
  have hpayload : (e.parts.placed 0).payloadPosition = 8 := rfl
  have hwalk : walkAt e.parts.body.toByteArray 8 = ⟨ChunkParts.placeAll 8 e.chunks, none⟩ :=
    ChunkParts.walkAt_bytes h.chunk_fits rfl
  have helement : e.document.nodes.any (·.element?.isSome) = true := by
    simp [document, XmlNode.element?]
  rw [← bytes_parts]
  simp only [XmlDocument.load, if_neg hsize, hread, XmlDocument.ofChunk, hkind, ne_eq,
    not_true_eq_false, if_false, ChunkParts.frame_placed, hpayload, hwalk,
    h.foldlM_addChunk, bind, Except.bind, helement, if_true, Walk.fatal?, Option.filter_none,
    Option.isSome_none, Bool.false_eq_true]
  rfl

end ElementSource

/-! ## Cursors -/

namespace XmlCursor

variable {c d : XmlCursor}

theorem following_of_some (h : c.next? = some d) : c.following = d :: d.following := by
  rw [following]
  split
  · next hnone => cases hnone.symm.trans h
  · next d' hsome =>
    cases hsome.symm.trans h
    rfl

theorem following_of_none (h : c.next? = none) : c.following = [] := by
  rw [following]
  split
  · rfl
  · next d hsome => cases hsome.symm.trans h

/-- A cursor stands on an element with this name, and reports these attributes. -/
structure Shows (c : XmlCursor) (name : String) (attributes : List AttributeSource) : Prop where
  name : c.elementName? = some name
  count : c.attributes.length = attributes.length
  names : ∀ i a, attributes[i]? = some a → c.attributeName? i = some a.name
  ids : ∀ i a, attributes[i]? = some a → c.attributeId i = a.id?.getD 0
  values : ∀ i a, attributes[i]? = some a → c.attributeValue? i = some a.value
  style : c.styleIndex? = attributes.findIdx? (·.id?.isNone)

/-- Attributes are reported with the values that were put in exactly if these are read back. -/
theorem Shows.of_reread_iff {name : String} {attributes : List AttributeSource}
    (h : c.Shows name (attributes.map AttributeSource.reread)) :
    c.Shows name attributes ↔ ∀ a ∈ attributes, a.value.kind.IsCanonical := by
  simp only [← AttributeSource.reread_eq_self_iff]
  constructor
  · intro hshows a ha
    obtain ⟨i, hi⟩ := List.mem_iff_getElem?.mp ha
    have hread := h.values i a.reread (by rw [List.getElem?_map, hi]; rfl)
    rw [hshows.values i a hi, Option.some.injEq, AttributeSource.value_reread] at hread
    exact AttributeSource.reread_eq_self_iff.mpr (Value.reread_eq_self_iff.mp hread.symm)
  · intro hall
    rwa [List.map_congr_left hall, List.map_id'] at h

end XmlCursor

namespace ElementSource

variable {e : ElementSource}

/-- The cursor on the only element. -/
def cursor (e : ElementSource) : XmlCursor := ⟨e.document, none, some 0⟩

theorem followingElements_start (e : ElementSource) :
    (XmlCursor.start e.document none).followingElements = [e.cursor] := by
  have hfirst : (XmlCursor.start e.document none).next? = some e.cursor := rfl
  have hsecond : e.cursor.next? = some ⟨e.document, none, some 1⟩ := rfl
  have hlast : (⟨e.document, none, some 1⟩ : XmlCursor).next? = none := rfl
  rw [XmlCursor.followingElements, XmlCursor.following_of_some hfirst,
    XmlCursor.following_of_some hsecond, XmlCursor.following_of_none hlast]
  rfl

theorem toNextElement_start (e : ElementSource) :
    (XmlCursor.start e.document none).toNextElement = e.cursor := by
  have hfirst : (XmlCursor.start e.document none).next? = some e.cursor := rfl
  rw [XmlCursor.toNextElement, XmlCursor.following_of_some hfirst]
  rfl

/-- The attribute `style` is found at the place that was counted from one. -/
theorem countedFromOne_styleIndex {attributes : List AttributeSource}
    (hcount : attributes.length < 65536) :
    XmlCursor.countedFromOne (UInt16.ofNat (styleIndex attributes)) =
      attributes.findIdx? (·.id?.isNone) := by
  unfold styleIndex
  cases hfind : attributes.findIdx? (·.id?.isNone) with
  | none => rfl
  | some i =>
      have hlt : i < attributes.length := by
        obtain ⟨hlt, _⟩ := List.findIdx?_eq_some_iff_getElem.mp hfind
        exact hlt
      have hnat : (UInt16.ofNat (i + 1)).toNat = i + 1 :=
        UInt16.toNat_ofNat_of_lt' (show i + 1 < 65536 by omega)
      have hne : UInt16.ofNat (i + 1) ≠ 0 := by
        intro hzero
        rw [hzero] at hnat
        cases hnat
      show XmlCursor.countedFromOne (UInt16.ofNat (i + 1)) = some i
      rw [XmlCursor.countedFromOne, if_neg hne, hnat]
      rfl

theorem Writable.string?_written (h : e.Writable) (k : Nat) :
    e.document.strings.string? k = e.strings[k]? :=
  StringPool.string?_written (Nat.lt_of_le_of_lt h.size_pool_le (by decide))
    (fun _ s hs => Nat.lt_succ_of_le (h.strings s hs)) k

/-- The attribute that was written at an index is found there. -/
theorem getElem?_attributes_cursor (e : ElementSource) (i : Nat) :
    e.cursor.attributes[i]? = e.ordered[i]?.map (·.written i) := by
  have hattributes : e.cursor.attributes = e.ordered.zipIdx.map fun p => p.1.written p.2 := rfl
  rw [hattributes, List.getElem?_map, List.getElem?_zipIdx, Option.map_map, Nat.zero_add]
  rfl

/-- The cursor reports the attributes in the order in which they were written. -/
theorem Writable.shows_cursor (h : e.Writable) :
    e.cursor.Shows e.name (e.ordered.map AttributeSource.reread) := by
  have hcount : e.ordered.length < 65536 := e.length_ordered ▸ h.few
  have hnameNat : ∀ i (a : AttributeSource), e.ordered[i]? = some a →
      (a.written i).name.toNat = i := by
    intro i a hi
    have hlt := (List.getElem?_eq_some_iff.mp hi).1
    exact UInt32.toNat_ofNat_of_lt' (show i < 4294967296 by omega)
  have hsource : ∀ (i : Nat) (read : AttributeSource),
      (e.ordered.map AttributeSource.reread)[i]? = some read →
      ∃ a, e.ordered[i]? = some a ∧ a.reread = read := by
    intro i read hi
    rwa [List.getElem?_map, Option.map_eq_some_iff] at hi
  refine ⟨?_, ?_, fun i read hread => ?_, fun i read hread => ?_, fun i read hread => ?_, ?_⟩
  · have hname : (UInt32.ofNat e.ordered.length).toNat = e.ordered.length :=
      UInt32.toNat_ofNat_of_lt' (show e.ordered.length < 4294967296 by omega)
    show e.document.strings.string? (UInt32.ofNat e.ordered.length).toNat = some e.name
    rw [hname, h.string?_written, ElementSource.strings,
      ← List.length_map (·.name), List.getElem?_concat_length]
  · show (e.ordered.zipIdx.map _).length = _
    rw [List.length_map, List.length_zipIdx, List.length_map]
  · obtain ⟨a, hi, rfl⟩ := hsource i read hread
    rw [XmlCursor.attributeName?, getElem?_attributes_cursor, hi, AttributeSource.name_reread]
    show e.document.strings.string? (a.written i).name.toNat = some a.name
    rw [hnameNat i a hi, h.string?_written, ElementSource.strings, List.getElem?_append_left,
      List.getElem?_map, hi]
    · rfl
    · rw [List.length_map]
      exact (List.getElem?_eq_some_iff.mp hi).1
  · obtain ⟨a, hi, rfl⟩ := hsource i read hread
    have hids : e.document.resourceIds[(a.written i).name.toNat]? = a.id? := by
      show e.ids.toArray[(a.written i).name.toNat]? = _
      rw [hnameNat i a hi, List.getElem?_toArray, ids,
        AttributeSource.getElem?_ids e.arranged_ordered.ascending, hi]
      rfl
    have hlibraries : e.cursor.libraries = none := rfl
    have hdocument : e.cursor.document = e.document := rfl
    simp only [XmlCursor.attributeId, getElem?_attributes_cursor, hi, Option.map_some,
      Option.bind_some, hdocument, hids, hlibraries, AttributeSource.id_reread]
    cases a.id? <;> rfl
  · obtain ⟨a, hi, rfl⟩ := hsource i read hread
    rw [XmlCursor.attributeValue?, getElem?_attributes_cursor, hi]
    rfl
  · have hstyle : ((·.id?.isNone) ∘ AttributeSource.reread) = (·.id?.isNone) :=
      funext fun a => congrArg Option.isNone a.id_reread
    rw [List.findIdx?_map, hstyle]
    exact countedFromOne_styleIndex hcount

/-- A document with one element is loaded from its bytes. A cursor finds just this element, with
its name, and with its attributes in the order of their ids. Their values are those that are read
back, which are the ones that were put in exactly if their kinds are those with their tags. -/
theorem load_encode_shows (e : ElementSource) (hfew : e.attributes.length < 65536)
    (hname : (Text.utf8Bytes e.name).length ≤ 0x7fff)
    (hnames : ∀ a ∈ e.attributes, (Text.utf8Bytes a.name).length ≤ 0x7fff) :
    ∃ document c attributes, XmlDocument.load e.encode.toByteArray = .ok document ∧
      (XmlCursor.start document none).followingElements = [c] ∧
      (XmlCursor.start document none).toNextElement = c ∧
      AttributeSource.Arranged attributes e.attributes ∧
      c.Shows e.name (attributes.map AttributeSource.reread) ∧
      (c.Shows e.name attributes ↔ ∀ a ∈ e.attributes, a.value.kind.IsCanonical) := by
  have hwritable : e.Writable := ⟨hfew, hname, hnames⟩
  have hshows := hwritable.shows_cursor
  refine ⟨e.document, e.cursor, e.ordered, hwritable.load_encode, e.followingElements_start,
    e.toNextElement_start, e.arranged_ordered, hshows, hshows.of_reread_iff.trans ?_⟩
  exact forall_congr' fun a => by rw [e.arranged_ordered.perm.mem_iff]

/-- An element whose attributes are given out of order, two of them with the same id. -/
def mixed : ElementSource where
  name := "TextView"
  attributes :=
    [.style ⟨.reference, 0x7f010001⟩, .bound 0x010100d0 "id" ⟨.reference, 7⟩,
      .bound 0x01010000 "theme" ⟨.attribute, 8⟩, .bound 0x010100d0 "tag" ⟨.decimal, 9⟩]

theorem ordered_mixed :
    mixed.ordered =
      [.bound 0x01010000 "theme" ⟨.attribute, 8⟩, .bound 0x010100d0 "id" ⟨.reference, 7⟩,
        .bound 0x010100d0 "tag" ⟨.decimal, 9⟩, .style ⟨.reference, 0x7f010001⟩] := by
  simp [ordered, mixed, List.mergeSort, AttributeSource.precedes, AttributeSource.id?]

theorem load_encode_shows_mixed :
    mixed.attributes.length < 65536 ∧ (Text.utf8Bytes mixed.name).length ≤ 0x7fff ∧
      (∀ a ∈ mixed.attributes, (Text.utf8Bytes a.name).length ≤ 0x7fff) ∧
      ∃ document c, XmlDocument.load mixed.encode.toByteArray = .ok document ∧
        (XmlCursor.start document none).followingElements = [c] ∧
        c.elementName? = some "TextView" ∧ c.attributes.length = 4 ∧
        c.attributeName? 0 = some "theme" ∧ c.attributeName? 1 = some "id" ∧
        c.attributeName? 2 = some "tag" ∧ c.attributeName? 3 = some "style" ∧
        c.attributeId 2 = 0x010100d0 ∧ c.attributeId 3 = 0 ∧
        c.attributeValue? 2 = some ⟨.decimal, 9⟩ ∧ c.styleIndex? = some 3 := by
  have hfew : mixed.attributes.length < 65536 := by decide
  have hname : (Text.utf8Bytes mixed.name).length ≤ 0x7fff := by decide +kernel
  have hnames : ∀ a ∈ mixed.attributes, (Text.utf8Bytes a.name).length ≤ 0x7fff := by
    decide +kernel
  obtain ⟨document, c, attributes, hload, hfollowing, _, harranged, _, hshowsIff⟩ :=
    load_encode_shows mixed hfew hname hnames
  have hshows := hshowsIff.mpr (by decide +kernel)
  have hattributes := (harranged.unique mixed.arranged_ordered).trans ordered_mixed
  subst hattributes
  exact ⟨hfew, hname, hnames, document, c, hload, hfollowing, hshows.name, hshows.count,
    hshows.names 0 _ rfl, hshows.names 1 _ rfl, hshows.names 2 _ rfl, hshows.names 3 _ rfl,
    hshows.ids 2 _ rfl, hshows.ids 3 _ rfl, hshows.values 2 _ rfl, hshows.style⟩

/-- An element whose attribute has the tag of a reference, with its meaning left aside. -/
def disguised : ElementSource where
  name := "View"
  attributes := [.bound 0x01010000 "theme" ⟨.unknown 0x01, 7⟩]

/-- The attributes of an element are not always reported with the values that were put in: what
was written with the tag of a reference is read as a reference. -/
theorem not_forall_load_encode_shows :
    ¬ ∀ e : ElementSource, e.attributes.length < 65536 →
      (Text.utf8Bytes e.name).length ≤ 0x7fff →
      (∀ a ∈ e.attributes, (Text.utf8Bytes a.name).length ≤ 0x7fff) →
      ∃ document c attributes, XmlDocument.load e.encode.toByteArray = .ok document ∧
        (XmlCursor.start document none).followingElements = [c] ∧
        AttributeSource.Arranged attributes e.attributes ∧ c.Shows e.name attributes := by
  intro hall
  have hwritable : disguised.Writable := ⟨by decide, by decide +kernel, by decide +kernel⟩
  obtain ⟨document, c, attributes, hload, hfollowing, harranged, hshows⟩ :=
    hall disguised hwritable.few hwritable.name hwritable.names
  cases hwritable.load_encode.symm.trans hload
  cases disguised.followingElements_start.symm.trans hfollowing
  rw [harranged.unique disguised.arranged_ordered, hwritable.shows_cursor.of_reread_iff] at hshows
  have hmem := disguised.arranged_ordered.perm.mem_iff.mpr List.mem_cons_self
  exact absurd (hshows _ hmem) (by decide)

end ElementSource

end AppResources
