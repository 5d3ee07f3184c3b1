import AppResources.Encoding.Document
import AppResources.Proofs.PoolRoundTrip
import AppResources.Proofs.WrittenRecords
import Mathlib.Data.List.Pairwise

/-!
# Elements are read back

The attributes of an element are written in the order of their resource ids, with those that
have none behind them, and those with one id in the order in which they were given. The name of
each attribute has the index of the attribute itself, so that the list of ids, which is told from
the front of the order, binds just the names of the attributes with an id.

## Main definitions

* `AttributeSource.Arranged`: attributes in the order in which they are written.
* `ElementSource.element`: the element that is read back.

## Main results

* `AttributeSource.Arranged.unique`: there is just one such order.
* `ElementSource.arranged_ordered`: attributes are written in it.
* `AttributeSource.getElem?_ids`: an attribute and its id have the same index.
* `ElementSource.read_startNode`, `ElementSource.read_endNode`: the nodes are read back.
-/

namespace AppResources

namespace AttributeSource

variable {a b c : AttributeSource} {attributes given : List AttributeSource}

/-! ## The order of attributes -/

theorem precedes_iff :
    a.precedes b = true ↔ ∀ y, b.id? = some y → ∃ x, a.id? = some x ∧ x ≤ y := by
  unfold precedes
  cases a.id? <;> cases b.id? <;> simp

theorem precedes_trans (a b c : AttributeSource) (hab : a.precedes b = true)
    (hbc : b.precedes c = true) : a.precedes c = true := by
  rw [precedes_iff] at hab hbc ⊢
  intro z hz
  obtain ⟨y, hy, hyz⟩ := hbc z hz
  obtain ⟨x, hx, hxy⟩ := hab y hy
  exact ⟨x, hx, UInt32.le_trans hxy hyz⟩

theorem precedes_total (a b : AttributeSource) : (a.precedes b || b.precedes a) = true := by
  unfold precedes
  cases a.id? <;> cases b.id? <;> simp [UInt32.le_total]

theorem precedes_of_id_eq (h : a.id? = b.id?) : a.precedes b = true := by
  rw [precedes_iff, h]
  exact fun y hy => ⟨y, hy, UInt32.le_refl y⟩

/-- Attributes stand in the order of their ids, with those that have none behind them. Those
with one id, and those without, stand in the order in which they were given. -/
structure Arranged (attributes given : List AttributeSource) : Prop where
  perm : attributes.Perm given
  ascending : attributes.Pairwise fun a b =>
    ∀ y, b.id? = some y → ∃ x, a.id? = some x ∧ x ≤ y
  stable : ∀ id, attributes.filter (·.id? == id) = given.filter (·.id? == id)

theorem id_eq_of_precedes (hab : a.precedes b = true) (hba : b.precedes a = true) :
    a.id? = b.id? := by
  rw [precedes_iff] at hab hba
  cases hb : b.id? with
  | some y =>
      obtain ⟨x, hx, hxy⟩ := hab y hb
      obtain ⟨z, hz, hzx⟩ := hba x hx
      cases hb.symm.trans hz
      rw [hx, UInt32.le_antisymm hxy hzx]
  | none =>
      cases ha : a.id? with
      | none => rfl
      | some x =>
          obtain ⟨z, hz, _⟩ := hba x ha
          cases hb.symm.trans hz

theorem mem_iff_of_filter_eq {as bs : List AttributeSource}
    (h : ∀ id, as.filter (·.id? == id) = bs.filter (·.id? == id)) : c ∈ as ↔ c ∈ bs := by
  have hc := congrArg (c ∈ ·) (h c.id?)
  simpa only [List.mem_filter, BEq.rfl, and_true, eq_iff_iff] using hc

/-- The first attribute of an ascending list is not behind another member. -/
theorem precedes_of_mem_cons {as : List AttributeSource}
    (has : ∀ b ∈ as, a.precedes b = true) (hc : c ∈ a :: as) : a.precedes c = true := by
  rcases List.mem_cons.mp hc with rfl | hlater
  · exact precedes_of_id_eq rfl
  · exact has c hlater

/-- Two ascending lists are the same if they agree on the attributes of each id. -/
theorem eq_of_filter_eq {as bs : List AttributeSource}
    (has : as.Pairwise fun a b => a.precedes b = true)
    (hbs : bs.Pairwise fun a b => a.precedes b = true)
    (h : ∀ id, as.filter (·.id? == id) = bs.filter (·.id? == id)) : as = bs := by
  induction as generalizing bs with
  | nil =>
      cases bs with
      | nil => rfl
      | cons b bs => cases (mem_iff_of_filter_eq h).mpr List.mem_cons_self
  | cons a as ih =>
      cases bs with
      | nil => cases (mem_iff_of_filter_eq h).mp List.mem_cons_self
      | cons b bs =>
          obtain ⟨ha, hrestA⟩ := List.pairwise_cons.mp has
          obtain ⟨hb, hrestB⟩ := List.pairwise_cons.mp hbs
          have hab : a.precedes b = true :=
            precedes_of_mem_cons ha ((mem_iff_of_filter_eq h).mpr List.mem_cons_self)
          have hba : b.precedes a = true :=
            precedes_of_mem_cons hb ((mem_iff_of_filter_eq h).mp List.mem_cons_self)
          -- they have one id, so that each is the first one with the id in its list
          have hself : (a.id? == a.id?) = true := BEq.rfl
          have hother : (b.id? == a.id?) = true :=
            beq_iff_eq.mpr (id_eq_of_precedes hba hab)
          have hfirst := h a.id?
          simp only [List.filter_cons, hself, hother, if_true] at hfirst
          obtain ⟨rfl, _⟩ := List.cons.inj hfirst
          have hrest : ∀ id, as.filter (·.id? == id) = bs.filter (·.id? == id) := by
            intro id
            have hall := h id
            simp only [List.filter_cons] at hall
            split at hall
            · exact List.tail_eq_of_cons_eq hall
            · exact hall
          exact congrArg (a :: ·) (ih hrestA hrestB hrest)

/-- There is just one such order. -/
theorem Arranged.unique {as bs : List AttributeSource} (has : Arranged as given)
    (hbs : Arranged bs given) : as = bs :=
  eq_of_filter_eq (has.ascending.imp precedes_iff.mpr) (hbs.ascending.imp precedes_iff.mpr)
    fun id => (has.stable id).trans (hbs.stable id).symm

/-- Behind an attribute without an id there is none with one. -/
theorem filterMap_id_eq_nil {first : AttributeSource} (hfirst : first.id? = none)
    (hrest : ∀ b ∈ attributes, ∀ y, b.id? = some y → ∃ x, first.id? = some x ∧ x ≤ y) :
    attributes.filterMap (·.id?) = [] := by
  rw [List.filterMap_eq_nil_iff]
  intro b hb
  by_contra hsome
  obtain ⟨y, hy⟩ := Option.ne_none_iff_exists'.mp hsome
  obtain ⟨x, hx, _⟩ := hrest b hb y hy
  rw [hfirst] at hx
  cases hx

/-- The ids of attributes in their order have the indices of the attributes. -/
theorem getElem?_ids (h : attributes.Pairwise fun a b =>
      ∀ y, b.id? = some y → ∃ x, a.id? = some x ∧ x ≤ y) (i : Nat) :
    (attributes.filterMap (·.id?))[i]? = attributes[i]?.bind (·.id?) := by
  induction attributes generalizing i with
  | nil => rfl
  | cons first rest ih =>
      obtain ⟨hfirst, hrest⟩ := List.pairwise_cons.mp h
      cases hid : first.id? with
      | some x =>
          rw [List.filterMap_cons_some hid]
          cases i with
          | zero => simp [hid]
          | succ i => simpa using ih hrest i
      | none =>
          have hnil := filterMap_id_eq_nil hid hfirst
          rw [List.filterMap_cons_none hid, hnil]
          cases i with
          | zero => simp [hid]
          | succ i =>
              have hbehind := ih hrest i
              rw [hnil] at hbehind
              simpa using hbehind

/-! ## Written attributes -/

/-- The attribute with the value that is read back. -/
def reread : AttributeSource → AttributeSource
  | .bound id name value => .bound id name value.reread
  | .style value => .style value.reread

theorem id_reread (a : AttributeSource) : a.reread.id? = a.id? := by
  cases a <;> rfl

theorem name_reread (a : AttributeSource) : a.reread.name = a.name := by
  cases a <;> rfl

theorem value_reread (a : AttributeSource) : a.reread.value = a.value.reread := by
  cases a <;> rfl

theorem reread_eq_self_iff : a.reread = a ↔ a.value.kind.IsCanonical := by
  rw [← Value.reread_eq_self_iff, ← value_reread]
  refine ⟨congrArg value, fun h => ?_⟩
  cases a with
  | bound id name value => exact congrArg (bound id name) h
  | style value => exact congrArg style h

/-- The attribute that is read back, where its name has the given index. -/
def written (a : AttributeSource) (index : Nat) : XmlAttribute where
  space := noIndex
  name := UInt32.ofNat index
  rawValue := noIndex
  value := a.reread.value

theorem length_encode (a : AttributeSource) (index : Nat) :
    (a.encode index).length = XmlAttribute.diskSize := rfl

theorem encodeFrom_eq (first : Nat) (attributes : List AttributeSource) :
    encodeFrom first attributes =
      (attributes.zipIdx first).flatMap fun p => p.1.encode p.2 := by
  induction attributes generalizing first with
  | nil => rfl
  | cons a attributes ih =>
      rw [encodeFrom, ih, List.zipIdx_cons, List.flatMap_cons]

theorem length_encodeFrom (first : Nat) (attributes : List AttributeSource) :
    (encodeFrom first attributes).length = XmlAttribute.diskSize * attributes.length := by
  have hsize : ∀ p : AttributeSource × Nat, (p.1.encode p.2).length = XmlAttribute.diskSize :=
    fun p => length_encode p.1 p.2
  rw [encodeFrom_eq, Bytes.length_items hsize, List.length_zipIdx]

variable {buffer : ByteArray} {i : Nat}

theorem readAt_of_holds {index : Nat} (h : Bytes.Holds buffer i (a.encode index)) :
    XmlAttribute.readAt buffer i = .ok (a.written index) := by
  simp only [encode, Bytes.holds_append_iff, List.length_append, Bytes.length_bytes32,
    Nat.reduceAdd, and_assoc] at h
  obtain ⟨hspace, hname, hrawValue, hvalue⟩ := h
  simp only [XmlAttribute.readAt, hspace.word32At, hname.word32At, hrawValue.word32At,
    Value.readAt_of_holds hvalue, bind, Except.bind, written, value_reread]
  rfl

/-- Attributes that stand one behind the other are read back in their order. -/
theorem mapM_readAt_of_holds (h : Bytes.Holds buffer i (encodeFrom 0 attributes)) :
    ((List.range attributes.length).mapM fun k =>
        XmlAttribute.readAt buffer (i + XmlAttribute.diskSize * k)) =
      .ok (attributes.zipIdx.map fun p => p.1.written p.2) := by
  rw [encodeFrom_eq] at h
  have hlength : (attributes.zipIdx.map fun p => p.1.written p.2).length = attributes.length := by
    rw [List.length_map, List.length_zipIdx]
  rw [← hlength]
  apply mapM_range_eq
  intro k read hk
  rw [List.getElem?_map, Option.map_eq_some_iff] at hk
  obtain ⟨p, hitem, rfl⟩ := hk
  exact readAt_of_holds (h.item (fun p => length_encode p.1 p.2) hitem)

end AttributeSource

namespace ElementSource

variable {e : ElementSource} {position : Nat}

/-- Attributes are written in their order. -/
theorem arranged_ordered (e : ElementSource) :
    AttributeSource.Arranged e.ordered e.attributes where
  perm := List.mergeSort_perm _ _
  ascending :=
    (List.pairwise_mergeSort AttributeSource.precedes_trans AttributeSource.precedes_total
      e.attributes).imp AttributeSource.precedes_iff.mp
  stable id := by
    have hperm : e.ordered.Perm e.attributes := List.mergeSort_perm _ _
    -- attributes with one id are in order already, so sorting keeps them
    have hequal : (e.attributes.filter (·.id? == id)).Pairwise fun a b =>
        a.precedes b = true := by
      apply List.pairwise_of_forall_mem_list
      intro a ha b hb
      rw [List.mem_filter, beq_iff_eq] at ha hb
      exact AttributeSource.precedes_of_id_eq (ha.2.trans hb.2.symm)
    have hkept : (e.attributes.filter (·.id? == id)).Sublist e.ordered :=
      List.sublist_mergeSort AttributeSource.precedes_trans AttributeSource.precedes_total hequal
        List.filter_sublist
    have hsub := hkept.filter (·.id? == id)
    simp only [List.filter_filter, Bool.and_self] at hsub
    exact (hsub.eq_of_length (hperm.filter _).length_eq.symm).symm

/-! ## Nodes -/

/-- Where a written node comes from. -/
def origin : NodeOrigin := ⟨1, noIndex⟩

/-- The element that is read back. -/
def element (e : ElementSource) : XmlElement where
  origin := origin
  space := noIndex
  name := UInt32.ofNat e.ordered.length
  idIndex := 0
  classIndex := 0
  styleIndex := UInt16.ofNat (styleIndex e.ordered)
  attributes := e.ordered.zipIdx.map fun p => p.1.written p.2

/-- The header of a node. -/
def originBytes : List UInt8 := Bytes.bytes32 1 ++ Bytes.bytes32 noIndex

/-- The words that name the element. -/
def nameBytes (e : ElementSource) : List UInt8 :=
  Bytes.bytes32 noIndex ++ Bytes.bytes32 (UInt32.ofNat e.ordered.length)

/-- The chunk of the start of the element before it is written. -/
def startParts (e : ElementSource) : ChunkParts where
  kind := .xmlStartElement
  header := originBytes
  body :=
    e.nameBytes ++ Bytes.bytes16 20 ++ Bytes.bytes16 20 ++
      Bytes.bytes16 (UInt16.ofNat e.ordered.length) ++ Bytes.bytes16 0 ++ Bytes.bytes16 0 ++
      Bytes.bytes16 (UInt16.ofNat (styleIndex e.ordered)) ++
      AttributeSource.encodeFrom 0 e.ordered

/-- The chunk of the end of the element before it is written. -/
def endParts (e : ElementSource) : ChunkParts where
  kind := .xmlEndElement
  header := originBytes
  body := e.nameBytes

theorem length_body_startParts (e : ElementSource) :
    e.startParts.body.length = XmlElement.fieldsSize + 20 * e.ordered.length := by
  simp only [startParts, nameBytes, List.length_append, Bytes.length_bytes32,
    Bytes.length_bytes16, AttributeSource.length_encodeFrom, XmlAttribute.diskSize,
    XmlElement.fieldsSize]

/-- The fields and the attributes of an element are read back. -/
theorem read_element (hcount : e.ordered.length < 65536) :
    XmlElement.read e.startParts.body.toByteArray origin = .ok e.element := by
  have hall := Bytes.holds_toByteArray e.startParts.body
  have hsize : e.startParts.body.toByteArray.size = 20 + 20 * e.ordered.length := by
    rw [List.size_toByteArray, length_body_startParts, XmlElement.fieldsSize]
  generalize hbuffer : e.startParts.body.toByteArray = buffer at hall hsize ⊢
  simp only [startParts, nameBytes, Bytes.holds_append_iff, List.length_append,
    Bytes.length_bytes32, Bytes.length_bytes16, Nat.zero_add, Nat.reduceAdd, and_assoc] at hall
  obtain ⟨hspace, hname, hstart, hsizes, hlength, hid, hclass, hstyle, hattributes⟩ := hall
  have hcountNat : (UInt16.ofNat e.ordered.length).toNat = e.ordered.length :=
    UInt16.toNat_ofNat_of_lt' hcount
  have htwenty : (20 : UInt16).toNat = 20 := rfl
  have hsmall : ¬ (0 < UInt16.ofNat e.ordered.length ∧ 20 < 20) :=
    fun h => Nat.lt_irrefl 20 h.2
  have hread := AttributeSource.mapM_readAt_of_holds hattributes
  rw [XmlAttribute.diskSize] at hread
  simp only [XmlElement.read, hspace.word32?, hname.word32?, hstart.word16?, hsizes.word16?,
    hlength.word16?, hid.word16?, hclass.word16?, hstyle.word16?, hcountNat, htwenty, hsize,
    if_neg (Nat.lt_irrefl _), XmlAttribute.diskSize, if_neg hsmall, Bytes.within,
    if_pos (show 20 ≤ 20 + 20 * e.ordered.length ∧
      20 + 20 * e.ordered.length ≤ 20 + 20 * e.ordered.length from ⟨by omega, Nat.le_refl _⟩),
    bind, Except.bind, hread]
  rfl

theorem wordPair?_of_holds {b : ByteArray} {first second : UInt32}
    (h : Bytes.Holds b 0 (Bytes.bytes32 first ++ Bytes.bytes32 second)) :
    XmlNode.wordPair? b = some (first, second) := by
  obtain ⟨hfirst, hsecond⟩ := Bytes.holds_append_iff.mp h
  rw [Bytes.length_bytes32, Nat.zero_add] at hsecond
  simp only [XmlNode.wordPair?, hfirst.word32?, hsecond.word32?]

/-- The start of an element is read back. -/
theorem read_startNode (hcount : e.ordered.length < 65536) (position : Nat) :
    XmlNode.read (e.startParts.placed position) = .ok (.startElement e.element) := by
  have hheader := wordPair?_of_holds (Bytes.holds_toByteArray originBytes)
  have hkind : e.startParts.kind = .xmlStartElement := rfl
  have hheaderSize : ¬ (e.startParts.placed position).headerSize < XmlNode.headerSize :=
    Nat.lt_irrefl 16
  have horigin : e.startParts.header = originBytes := rfl
  simp only [XmlNode.read, if_neg hheaderSize,
    ChunkParts.frame_placed, horigin, hheader, ChunkParts.kind_placed, hkind, XmlNode.readFields]
  exact congrArg (Except.map XmlNode.startElement) (read_element hcount)

/-- The end of an element is read back. -/
theorem read_endNode (e : ElementSource) (position : Nat) :
    XmlNode.read (e.endParts.placed position) =
      .ok (.endElement origin noIndex (UInt32.ofNat e.ordered.length)) := by
  have hheader := wordPair?_of_holds (Bytes.holds_toByteArray originBytes)
  have hname := wordPair?_of_holds (Bytes.holds_toByteArray e.nameBytes)
  have hkind : e.endParts.kind = .xmlEndElement := rfl
  have hheaderSize : ¬ (e.endParts.placed position).headerSize < XmlNode.headerSize :=
    Nat.lt_irrefl 16
  have horigin : e.endParts.header = originBytes := rfl
  have hbody : e.endParts.body = e.nameBytes := rfl
  simp only [XmlNode.read, if_neg hheaderSize,
    ChunkParts.frame_placed, horigin, hbody, hheader, ChunkParts.kind_placed, hkind,
    XmlNode.readFields, hname]
  rfl

end ElementSource

end AppResources
