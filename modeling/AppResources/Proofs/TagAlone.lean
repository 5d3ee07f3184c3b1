import AppResources.Proofs.BagSession
import AppResources.Proofs.ReferenceChain
import AppResources.Theme.Attributes

/-!
# Attributes from a tag alone

The values of a tag alone are found by one walk over the attributes of the tag and those that
are asked for, which passes every attribute of the tag once. If the ids on both sides ascend,
the walk finds for every attribute what a search of the whole tag finds. Attributes of the tag
without an id may stand anywhere among the others.

A theme without any style adds nothing to a tag: an attribute of the theme that a value stands
for is not found, and the value stays as it is. So a tag alone has the values that it has under
a new theme.

## Main definitions

* `AttributeSet.Ascending`: the ids of a tag ascend, without regard to attributes that have none.

## Main results

* `valuesFrom_eq_map`: the walk finds what a search for every attribute finds.
* `attributesOfTag_newTheme`: a tag alone, and under a new theme.
-/

namespace AppResources

namespace AttributeSet

/-- The ids of attributes ascend, without regard to attributes that have none. -/
def Ascending (items : List (ResourceId × Option Value)) : Prop :=
  ((items.map (·.1)).filter (· ≠ 0)).Pairwise (· < ·)

instance (items : List (ResourceId × Option Value)) : Decidable (Ascending items) := by
  unfold Ascending
  infer_instance

/-- What attributes say about one of them. -/
def said (items : List (ResourceId × Option Value)) (id : ResourceId) : Value :=
  (({ items := items } : AttributeSet).value? id).getD .undefined

variable {items : List (ResourceId × Option Value)} {a : ResourceId × Option Value}
  {id : ResourceId}

theorem said_cons_self (h : a.1 = id) : said (a :: items) id = a.2.getD .undefined := by
  simp [said, value?, h]

theorem said_cons_of_ne (h : a.1 ≠ id) : said (a :: items) id = said items id := by
  simp [said, value?, h]

theorem said_of_forall_ne (h : ∀ b ∈ items, b.1 ≠ id) : said items id = .undefined := by
  have hnone : items.find? (·.1 == id) = none :=
    List.find?_eq_none.mpr fun b hb => by simpa using h b hb
  simp [said, value?, hnone]

theorem Ascending.tail (h : Ascending (a :: items)) : Ascending items := by
  unfold Ascending at h ⊢
  rw [List.map_cons, List.filter_cons] at h
  split at h
  · exact (List.pairwise_cons.mp h).2
  · exact h

/-- Behind an attribute with an id there are none with the same or a smaller one. -/
theorem Ascending.lt_of_mem (h : Ascending (a :: items)) (ha : a.1 ≠ 0)
    {b : ResourceId × Option Value} (hb : b ∈ items) (hset : b.1 ≠ 0) : a.1 < b.1 := by
  unfold Ascending at h
  rw [List.map_cons, List.filter_cons, if_pos (by simpa using ha)] at h
  refine (List.pairwise_cons.mp h).1 b.1 (List.mem_filter.mpr ⟨List.mem_map_of_mem hb, ?_⟩)
  simpa using hset

end AttributeSet

namespace Resources

open AttributeSet

variable {r : Resources} {left : List (ResourceId × Option Value)} {attr other : ResourceId}

/-! ## The walk -/

/-- A step finds what is said about its attribute. -/
theorem passTo_fst (hleft : Ascending left) (hattr : attr ≠ 0) :
    (passTo attr left).1 = said left attr := by
  induction left with
  | nil => rfl
  | cons a rest ih =>
      unfold passTo
      by_cases hbefore : a.1 < attr
      · rw [if_pos hbefore, said_cons_of_ne (UInt32.ne_of_lt hbefore), ih hleft.tail]
      · rw [if_neg hbefore]
        by_cases hhere : a.1 = attr
        · rw [if_pos hhere, said_cons_self hhere]
        · -- an id behind it is zero or greater than the one that was passed over
          rw [if_neg hhere, said_cons_of_ne hhere]
          refine (said_of_forall_ne fun b hb hsame => ?_).symm
          have hzero : a.1 ≠ 0 := fun hzero => by
            rw [hzero, UInt32.lt_iff_toNat_lt] at hbefore
            exact hattr (UInt32.toNat_inj.mp (Nat.eq_zero_of_not_pos hbefore))
          have hlt : a.1 < b.1 := hleft.lt_of_mem hzero hb (hsame ▸ hattr)
          exact hbefore (hsame ▸ hlt)

/-- What was passed says nothing about a later attribute. -/
theorem said_passTo (h : attr < other) : said (passTo attr left).2 other = said left other := by
  induction left with
  | nil => rfl
  | cons a rest ih =>
      unfold passTo
      by_cases hbefore : a.1 < attr
      · have hne : a.1 ≠ other := UInt32.ne_of_lt (UInt32.lt_trans hbefore h)
        rw [if_pos hbefore, ih, said_cons_of_ne hne]
      · rw [if_neg hbefore]
        by_cases hhere : a.1 = attr
        · have hne : a.1 ≠ other := hhere ▸ UInt32.ne_of_lt h
          rw [if_pos hhere, said_cons_of_ne hne]
        · rw [if_neg hhere]

/-- What is left of ids that ascend ascends. -/
theorem ascending_passTo (hleft : Ascending left) (attr : ResourceId) :
    Ascending (passTo attr left).2 := by
  induction left with
  | nil => exact hleft
  | cons a rest ih =>
      unfold passTo
      by_cases hbefore : a.1 < attr
      · rw [if_pos hbefore]
        exact ih hleft.tail
      · rw [if_neg hbefore]
        split
        · exact hleft.tail
        · exact hleft

/-- The walk finds what a search for every attribute finds. -/
theorem valuesFrom_eq_map (r : Resources) {attrs : List ResourceId} (hleft : Ascending left)
    (hattrs : attrs.Pairwise (· < ·)) (hzero : 0 ∉ attrs) :
    r.valuesFrom left attrs = attrs.map fun attr => r.tagValue (said left attr) := by
  induction attrs generalizing left with
  | nil => rfl
  | cons attr attrs ih =>
      obtain ⟨hfirst, hattrs⟩ := List.pairwise_cons.mp hattrs
      rw [List.mem_cons, not_or] at hzero
      have hrest := ih (ascending_passTo hleft attr) hattrs hzero.2
      have hlater : (attrs.map fun other => r.tagValue (said (passTo attr left).2 other)) =
          attrs.map fun other => r.tagValue (said left other) :=
        List.map_congr_left fun other hother => by rw [said_passTo (hfirst other hother)]
      show r.tagValue (passTo attr left).1 :: r.valuesFrom (passTo attr left).2 attrs = _
      rw [hrest, hlater, passTo_fst hleft (Ne.symm hzero.1), List.map_cons]

end Resources

/-! ## A theme without styles -/

namespace Theme

variable {t : Theme} {r : Resources} {tag : AttributeSet}

theorem lookup_of_empty (hempty : t.slots = ByteTable.empty) (id : ResourceId) :
    t.lookup id = .error (.notFound id) := by
  simp [lookup, lookupFrom, slot, hempty, maxSteps, Value.undefined, Value.isUndefined]

/-- In such a theme a value of a tag ends where its references end. -/
theorem answer_of_empty (hempty : t.slots = ByteTable.empty) (r : Resources) (attr : ResourceId)
    (v : Value) : t.answer r attr ({ value := v }, 0) = r.tagValue v := by
  have hchase : t.chase r attr { value := v } =
      if v.isNull then { value := v } else settled none (r.follow { value := v }) := by
    unfold chase
    rw [lookup_of_empty hempty, ite_self]
    refine if_congr Iff.rfl rfl ?_
    unfold followAttribute
    by_cases hkind : v.kind = .attribute
    · -- the attribute is not found, and is no reference either
      have hstill : v.isLiveReference = false := by rw [Value.isLiveReference, hkind]; rfl
      rw [if_pos hkind, lookup_of_empty hempty, Resources.follow,
        Resources.followFor_still maxSteps hstill]
      rfl
    · rw [if_neg hkind]
  rw [answer, hchase]
  rfl

theorem sourceInTag_alone (tag : AttributeSet) (attr : ResourceId) :
    sourceInTag tag {} {} attr = ({ value := AttributeSet.said tag.items attr }, 0) := by
  have hsaid : AttributeSet.said tag.items attr = (tag.value? attr).getD .undefined := rfl
  rw [hsaid, sourceInTag]
  cases tag.value? attr <;> simp [ConsultedStyle.value?]

/-- Without styles every attribute is answered from the tag. -/
theorem attributesOfTag_of_empty (hempty : t.slots = ByteTable.empty) (r : Resources)
    (hstyle : tag.styleIndex = none) (attrs : List ResourceId) (cache : BagCache) :
    t.attributesOfTag r tag 0 0 attrs cache =
      (.of AttributeValue.isDefined
        (attrs.map fun attr => r.tagValue (AttributeSet.said tag.items attr)), cache) := by
  have hdefault : t.defaultStyle r 0 0 cache = ({}, cache) := rfl
  have htag : t.tagStyle r tag cache = ({}, cache) := by rw [tagStyle, hstyle]
  unfold attributesOfTag
  simp only [hdefault, htag, sourceInTag_alone, answer_of_empty hempty]

end Theme

/-! ## A tag alone -/

namespace Manager

/-- A theme of a manager, without any style. -/
def newTheme (m : Manager) : Theme := { owner := m.id }

/-- A tag that names no style has the same values alone and under a new theme, if the ids of its
attributes and those that are asked for ascend. No bag is looked up for them. -/
theorem attributesOfTag_newTheme (m : Manager) {tag : AttributeSet} {attrs : List ResourceId}
    (hstyle : tag.styleIndex = none) (htag : AttributeSet.Ascending tag.items)
    (hattrs : attrs.Pairwise (· < ·)) (hzero : 0 ∉ attrs) :
    m.newTheme.attributesOfTag m.resources tag 0 0 attrs m.bags =
      (m.resources.attributesAlone tag attrs, m.bags) := by
  rw [Theme.attributesOfTag_of_empty rfl m.resources hstyle, Resources.attributesAlone,
    m.resources.valuesFrom_eq_map htag hattrs hzero]

/-- A manager with a number, and a reference to it. -/
def referring : Manager :=
  fresh 0 [.ofVariants ResourceId.appPackage #[.none, .orientation]
    [(.default, [some (.plain 0 0 ⟨.reference, 0x7f010001⟩),
      some (.plain 0 0 ⟨.decimal, 42⟩)])]]
    .default

/-- A tag with a reference, a value of an unknown library, an attribute of the theme, a reference
to nothing, one to a resource that does not exist and the empty value. Attributes without an id
stand between them. -/
def mixedTag : AttributeSet where
  items := [(0x01010000, some ⟨.reference, 0x7f010000⟩), (0, some ⟨.decimal, 5⟩),
    (0x01010001, none), (0x01010002, some ⟨.attribute, 0x01010009⟩), (0, none),
    (0x01010003, some ⟨.reference, 0⟩), (0x01010005, some ⟨.reference, 0x7f010007⟩),
    (0x01010006, some ⟨.null, 1⟩)]

theorem attributesOfTag_newTheme_mixed :
    let attrs : List ResourceId := [0x01010000, 0x01010001, 0x01010002, 0x01010003, 0x01010004,
      0x01010005, 0x01010006]
    mixedTag.styleIndex = none ∧ AttributeSet.Ascending mixedTag.items ∧
      attrs.Pairwise (· < ·) ∧ 0 ∉ attrs ∧
      referring.newTheme.attributesOfTag referring.resources mixedTag 0 0 attrs referring.bags =
        (referring.resources.attributesAlone mixedTag attrs, referring.bags) ∧
      ((referring.resources.attributesAlone mixedTag attrs).values.map fun a =>
          (a.value, a.origin)) =
        [(⟨.decimal, 42⟩, 0x7f010001), (.undefined, 0), (⟨.attribute, 0x01010009⟩, 0),
          (.undefined, 0), (.undefined, 0), (⟨.reference, 0x7f010007⟩, 0x7f010007),
          (⟨.null, 1⟩, 0)] ∧
      (referring.resources.attributesAlone mixedTag attrs).indices = [0, 2, 5, 6] := by
  intro attrs
  have hstyle : mixedTag.styleIndex = none := rfl
  have htag : AttributeSet.Ascending mixedTag.items := by decide
  have hattrs : attrs.Pairwise (· < ·) := by decide
  have hzero : 0 ∉ attrs := by decide
  exact ⟨hstyle, htag, hattrs, hzero,
    attributesOfTag_newTheme referring hstyle htag hattrs hzero, by decide +kernel,
    by decide +kernel⟩

end Manager

end AppResources
