import AppResources.Proofs.AttributeCascade
import AppResources.Proofs.BagFailure

/-!
# Attributes in code and of a tag that says nothing

A view that is made in code, with no attribute given in place of another one, and one that is
made from a tag without attributes have the same sources, the default style and the theme. So
they have the same values. But the empty value counts as one for a tag only, and therefore the
positions of empty values are listed for the tag and not in code.

Both remember the bag of the default style, and one that comes behind the other answers as if it
came first.

## Main definitions

* `AttributeValues.AgreeButEmpty`: the same values, with the positions of empty ones left out.

## Main results

* `attributesInCode_agree`: what is answered in code and for a tag that says nothing.
-/

namespace AppResources

/-- The value that is explicitly empty. -/
def Value.empty : Value := ⟨.null, 1⟩

namespace AttributeValue

variable {a : AttributeValue}

theorem isDefined_of_not_isNull (h : (!a.value.isNull) = true) : a.isDefined = true := by
  rw [Bool.not_eq_true'] at h
  rw [isDefined, Value.isUndefined, show (a.value.kind == .null) = false from h]
  rfl

/-- A null that is defined is the empty value. -/
theorem isDefined_and_isNull_iff :
    a.isDefined = true ∧ a.value.isNull = true ↔ a.value = .empty := by
  obtain ⟨⟨kind, data⟩, _, _, _, _, _⟩ := a
  simp only [isDefined, Value.isUndefined, Value.isNull, Value.empty, Value.mk.injEq,
    Bool.not_eq_true', Bool.and_eq_false_iff, beq_eq_false_iff_ne, bne_eq_false_iff_eq, beq_iff_eq]
  constructor
  · rintro ⟨hdefined, hnull⟩
    exact ⟨hnull, hdefined.resolve_left (not_not_intro hnull)⟩
  · rintro ⟨hnull, hempty⟩
    exact ⟨.inr hempty, hnull⟩

end AttributeValue

namespace AttributeValues

variable {values : List AttributeValue} {inCode ofTag : AttributeValues}

/-- What passes one test and so another one is listed for both. -/
theorem positionsFrom_sublist {p q : AttributeValue → Bool} (h : ∀ a, p a = true → q a = true)
    (start : Nat) (values : List AttributeValue) :
    (positionsFrom p start values).Sublist (positionsFrom q start values) := by
  induction values generalizing start with
  | nil => exact .slnil
  | cons a values ih =>
      unfold positionsFrom
      by_cases hp : p a = true
      · rw [if_pos hp, if_pos (h a hp)]
        exact (ih _).cons_cons start
      · rw [if_neg hp]
        split
        · exact (ih _).cons start
        · exact ih _

/-- The value at a position is the empty one. -/
def EmptyAt (values : List AttributeValue) (i : Nat) : Prop :=
  ∃ a, values[i]? = some a ∧ a.value = .empty

/-- The values are the same, and so are the positions but those of empty values, which only the
tag lists. -/
structure AgreeButEmpty (inCode ofTag : AttributeValues) : Prop where
  values : inCode.values = ofTag.values
  indices : inCode.indices.Sublist ofTag.indices
  only_ofTag : ∀ i, (i ∈ ofTag.indices ∧ i ∉ inCode.indices) ↔ EmptyAt ofTag.values i

/-- One list of values with both tests. -/
theorem agreeButEmpty_of (values : List AttributeValue) :
    AgreeButEmpty (of (fun a => !a.value.isNull) values) (of AttributeValue.isDefined values) where
  values := rfl
  indices := positionsFrom_sublist (fun _ => AttributeValue.isDefined_of_not_isNull) 0 values
  only_ofTag i := by
    have hmem (test : AttributeValue → Bool) : i ∈ (of test values).indices ↔
        ∃ a, values[i]? = some a ∧ test a = true := by
      have hpositions := @mem_positionsFrom_iff test values 0 i
      rwa [Nat.zero_add] at hpositions
    rw [hmem, hmem, show (of AttributeValue.isDefined values).values = values from rfl, EmptyAt]
    constructor
    · rintro ⟨⟨a, ha, hdefined⟩, hnot⟩
      refine ⟨a, ha, AttributeValue.isDefined_and_isNull_iff.mp ⟨hdefined, ?_⟩⟩
      by_contra hnull
      exact hnot ⟨a, ha, by simpa using hnull⟩
    · rintro ⟨a, ha, hempty⟩
      obtain ⟨hdefined, hnull⟩ := AttributeValue.isDefined_and_isNull_iff.mpr hempty
      refine ⟨⟨a, ha, hdefined⟩, ?_⟩
      rintro ⟨b, hb, hvalue⟩
      obtain rfl := Option.some.inj (ha.symm.trans hb)
      simp [hnull] at hvalue

end AttributeValues

/-! ## The default style, looked up again -/

theorem ConsultedStyle.load_again (r : Resources) (axes : Axes) (id : ResourceId)
    (cache : BagCache) : load r axes id (load r axes id cache).2 = load r axes id cache := by
  have hcache : (load r axes id cache).2 = (r.bag id cache).2 :=
    congrArg Prod.snd (Theme.bag_load r axes id cache)
  rw [hcache]
  unfold load
  rw [r.bag_again]

theorem ConsultedStyle.loadUnlessZero_again (r : Resources) (axes : Axes) (id : ResourceId)
    (cache : BagCache) :
    let loaded := fun cache => if id = 0 then (⟨none, axes⟩, cache) else load r axes id cache
    loaded (loaded cache).2 = loaded cache := by
  by_cases hid : id = 0
  · simp only [if_pos hid]
  · simp only [if_neg hid, load_again]

namespace Theme

variable {t : Theme} {r : Resources}

theorem defaultStyle_again (t : Theme) (r : Resources) (styleAttr style : ResourceId)
    (cache : BagCache) :
    t.defaultStyle r styleAttr style (t.defaultStyle r styleAttr style cache).2 =
      t.defaultStyle r styleAttr style cache := by
  unfold defaultStyle
  cases (if styleAttr = 0 then none else (t.lookup styleAttr).toOption) with
  | none => exact ConsultedStyle.loadUnlessZero_again r _ style cache
  | some slot => exact ConsultedStyle.loadUnlessZero_again r _ _ cache

/-! ## The default style and the theme as the only sources -/

/-- The values of attributes from a default style and the theme. -/
def valuesByDefault (t : Theme) (r : Resources) (style : ConsultedStyle)
    (attrs : List ResourceId) : List AttributeValue :=
  attrs.map fun attr => t.answer r attr ((style.value? attr).getD ({}, 0))

/-- In code, with nothing given in place of an attribute. -/
theorem attributesInCode_nil (t : Theme) (r : Resources) (styleAttr style : ResourceId)
    (attrs : List ResourceId) (cache : BagCache) :
    t.attributesInCode r styleAttr style [] attrs cache =
      (.of (fun a => !a.value.isNull)
        (t.valuesByDefault r (t.defaultStyle r styleAttr style cache).1 attrs),
        (t.defaultStyle r styleAttr style cache).2) := by
  have hvalues (consulted : ConsultedStyle) :
      (((List.range attrs.length).zip attrs).map fun x =>
          t.answer r x.2 (sourceInCode consulted ((([] : List ResourceId)[x.1]?).getD 0) x.2)) =
        t.valuesByDefault r consulted attrs := by
    have hsnd : ((List.range attrs.length).zip attrs).map Prod.snd = attrs :=
      List.map_snd_zip (by simp)
    rw [valuesByDefault]
    conv_rhs => rw [← hsnd, List.map_map]
    rfl
  exact congrArg (fun values => (AttributeValues.of _ values, _)) (hvalues _)

/-- From a tag without attributes. -/
theorem attributesOfTag_nil (t : Theme) (r : Resources) (styleAttr style : ResourceId)
    (attrs : List ResourceId) (cache : BagCache) :
    t.attributesOfTag r {} styleAttr style attrs cache =
      (.of AttributeValue.isDefined
        (t.valuesByDefault r (t.defaultStyle r styleAttr style cache).1 attrs),
        (t.defaultStyle r styleAttr style cache).2) := rfl

/-- In code, with nothing given in place of an attribute, and for a tag that says nothing all
attributes have the same values, and the same bags are remembered; also if one comes behind the
other. The positions differ in those of empty values. -/
theorem attributesInCode_agree (t : Theme) (r : Resources) (styleAttr style : ResourceId)
    (attrs : List ResourceId) (cache : BagCache) :
    let inCode := t.attributesInCode r styleAttr style [] attrs
    let ofTag := t.attributesOfTag r {} styleAttr style attrs
    ((inCode cache).1.AgreeButEmpty (ofTag cache).1 ∧ (inCode cache).2 = (ofTag cache).2) ∧
      (inCode cache).1.AgreeButEmpty (ofTag (inCode cache).2).1 ∧
      (inCode (ofTag cache).2).1.AgreeButEmpty (ofTag cache).1 := by
  simp only [attributesInCode_nil, attributesOfTag_nil, defaultStyle_again, and_self, and_true]
  exact AttributeValues.agreeButEmpty_of _

end Theme

end AppResources
