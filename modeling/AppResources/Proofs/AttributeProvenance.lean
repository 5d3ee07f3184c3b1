import AppResources.Proofs.AttributeCascade
import AppResources.Proofs.ThemeStyles

/-!
# Which style a value is credited to

Next to the value of an attribute stands the style that defines it. It is kept beside the value
while the sources take each other's place, and it is that of the source whose value was taken:
the first one that defines the attribute, or else the last one that has it at all.

When no source defines the attribute the theme is asked, but the style stays. So a value of the
theme is credited to a style whose entry for the attribute is undefined, if no source behind
that style has one. In all other cases the style is the right one.

## Main definitions

* `ValueSource`: what one source says about an attribute.
* `Theme.TakenFrom`: the style that a value is taken from, zero if it is taken from none.
* `Theme.Miscredits`: whether a value of the theme is credited to a style.

## Main results

* `attributes_style`: the style that stands next to a value, and when it is the right one.
-/

namespace AppResources

/-- What one source says about an attribute. -/
inductive ValueSource where
  /-- A value of the tag, or the attribute that was given in place of another one. -/
  | written (v : Value)
  /-- The entry of a style. -/
  | styled (e : BagEntry)

namespace ValueSource

variable {front sources : List ValueSource} {s : ValueSource}

/-- The value. -/
def value : ValueSource → Value
  | written v => v
  | styled e => e.value

/-- The style that the value stands in, zero if it stands in none. -/
def style : ValueSource → ResourceId
  | written _ => 0
  | styled e => e.style

/-- Whether there is a value; the empty value is one. -/
def isDefined (s : ValueSource) : Bool := Theme.isDefinedValue s.value

/-- The entry of a style that is found for an attribute. -/
def ofStyle (b : Option Bag) (attr : ResourceId) : Option ValueSource :=
  (b.bind (·.find? attr)).map .styled

/-- The source that is taken: the first one with a value, or else the last one. -/
def taken? (sources : List ValueSource) : Option ValueSource :=
  (sources.find? isDefined).or sources.getLast?

/-- The source that is taken is the first one with a value, if it has one itself. -/
theorem filter_taken? (sources : List ValueSource) :
    (taken? sources).filter isDefined = sources.find? isDefined := by
  unfold taken?
  cases hfirst : sources.find? isDefined with
  | some s => simp [Option.filter, List.find?_some hfirst]
  | none =>
      rw [Option.none_or, Option.filter_eq_none_iff]
      intro s hs
      exact List.find?_eq_none.mp hfirst s (List.mem_of_getLast? hs)

/-- A further source is taken where those in front of it have no value. -/
theorem taken?_concat (front : List ValueSource) (s : ValueSource) :
    taken? (front ++ [s]) = ((taken? front).filter isDefined).or (some s) := by
  rw [filter_taken?, taken?, List.find?_append, List.getLast?_concat]
  cases front.find? isDefined with
  | some first => rfl
  | none =>
      rw [Option.none_or, Option.none_or, List.find?_singleton]
      cases s.isDefined <;> rfl

end ValueSource

namespace Theme

open ValueSource

variable {t : Theme} {r : Resources} {attr : ResourceId} {s : Sourced}
  {sources : List ValueSource}

/-! ## The source that is taken -/

/-- What the sources of an attribute say for a tag: the tag, the style that it names and the
default style. -/
def sourcesOfTag (tag : AttributeSet) (named given : Option Bag) (attr : ResourceId) :
    List ValueSource :=
  ((tag.value? attr).map .written).toList ++ (ofStyle named attr).toList ++
    (ofStyle given attr).toList

/-- What the sources of an attribute say in code: an attribute in its place, or else the
default style. -/
def sourcesInCode (inPlace : ResourceId) (given : Option Bag) (attr : ResourceId) :
    List ValueSource :=
  if inPlace = 0 then (ofStyle given attr).toList else [.written ⟨.attribute, inPlace⟩]

/-- A value and a style are those of the source that is taken. -/
structure Follows (s : Sourced) (sources : List ValueSource) : Prop where
  value : s.1.value = ((taken? sources).map ValueSource.value).getD .undefined
  style : s.2 = ((taken? sources).map ValueSource.style).getD 0

theorem follows_of_taken? {x : ValueSource} (htaken : taken? sources = some x)
    (hvalue : s.1.value = x.value) (hstyle : s.2 = x.style) : Follows s sources := by
  constructor
  · rw [htaken, hvalue]
    rfl
  · rw [htaken, hstyle]
    rfl

/-- The value that is taken is that of the first source with a value. -/
theorem Follows.find?_values (h : Follows s sources) :
    (sources.map ValueSource.value).find? isDefinedValue =
      (some s.1.value).filter isDefinedValue := by
  have hfind : (sources.map ValueSource.value).find? isDefinedValue =
      (sources.find? ValueSource.isDefined).map ValueSource.value := List.find?_map ..
  rw [hfind, ← filter_taken?, h.value]
  cases taken? sources with
  | none => rfl
  | some x =>
      rw [Option.map_some, Option.getD_some, Option.filter_some, Option.filter_some]
      show Option.map _ (if isDefinedValue x.value = true then _ else _) = _
      split <;> rfl

/-- A style further behind counts where those in front of it have no value. -/
theorem Follows.orStyle (h : Follows s sources) (style : ConsultedStyle) (attr : ResourceId) :
    Follows (if s.1.value.isUndefined then (style.value? attr).getD s else s)
      (sources ++ (ofStyle style.bag attr).toList) := by
  unfold ConsultedStyle.value? ofStyle
  cases style.bag.bind (·.find? attr) with
  | none =>
      rw [Option.map_none, Option.map_none, Option.getD_none, ite_self, Option.toList_none,
        List.append_nil]
      exact h
  | some e =>
      rw [Option.map_some, Option.map_some, Option.getD_some, Option.toList_some]
      have hconcat := taken?_concat sources (.styled e)
      cases htaken : taken? sources with
      | none =>
          have hundefined : s.1.value.isUndefined = true := by
            rw [h.value, htaken]
            rfl
          rw [htaken] at hconcat
          rw [if_pos hundefined]
          exact follows_of_taken? hconcat rfl rfl
      | some x =>
          have hvalue : s.1.value = x.value := by rw [h.value, htaken]; rfl
          have hstyle : s.2 = x.style := by rw [h.style, htaken]; rfl
          rw [htaken, Option.filter_some] at hconcat
          rw [hvalue]
          cases hundefined : x.value.isUndefined with
          | true =>
              have hnone : x.isDefined = false := congrArg not hundefined
              rw [hnone] at hconcat
              exact follows_of_taken? hconcat rfl rfl
          | false =>
              have hdefined : x.isDefined = true := congrArg not hundefined
              rw [hdefined] at hconcat
              exact follows_of_taken? hconcat hvalue hstyle

theorem follows_sourceInTag (tag : AttributeSet) (byTag byDefault : ConsultedStyle)
    (attr : ResourceId) :
    Follows (sourceInTag tag byTag byDefault attr)
      (sourcesOfTag tag byTag.bag byDefault.bag attr) := by
  refine Follows.orStyle (Follows.orStyle ?_ byTag attr) byDefault attr
  cases tag.value? attr with
  | none => exact ⟨rfl, rfl⟩
  | some v => exact follows_of_taken? (taken?_concat [] _) rfl rfl

theorem follows_sourceInCode (style : ConsultedStyle) (inPlace attr : ResourceId) :
    Follows (sourceInCode style inPlace attr) (sourcesInCode inPlace style.bag attr) := by
  unfold sourceInCode sourcesInCode
  split
  · have hempty : Follows ({}, 0) [] := ⟨rfl, rfl⟩
    exact hempty.orStyle style attr
  · exact follows_of_taken? (taken?_concat [] _) rfl rfl

/-! ## The style that is named -/

/-- The style that the value of an attribute is taken from: that of the first source with a
value, and none if the value is that of the theme. -/
inductive TakenFrom (t : Theme) (attr : ResourceId) (sources : List ValueSource) :
    ResourceId → Prop
  | source {s : ValueSource} (hfirst : sources.find? isDefined = some s) :
      TakenFrom t attr sources s.style
  | theme {slot : ThemeSlot} (hnone : sources.find? isDefined = none)
      (hslot : t.lookup attr = .ok slot) : TakenFrom t attr sources 0

/-- No source has a value for an attribute, the theme has one, and the last source is an
entry of a style. -/
structure Miscredits (t : Theme) (attr : ResourceId) (sources : List ValueSource) : Prop where
  undefined : sources.find? isDefined = none
  themed : ∃ slot, t.lookup attr = .ok slot
  styled : ∃ s, sources.getLast? = some s ∧ s.style ≠ 0

/-- What is answered for an attribute: the value of its sources or the theme, and the style of
the source that is taken. That is where the value comes from except if the theme is asked in
place of an undefined entry. -/
structure Credits (t : Theme) (r : Resources) (attr : ResourceId)
    (sources : List ValueSource) (a : AttributeValue) : Prop where
  reports : t.Reports r attr (sources.map ValueSource.value) a
  style : a.style = ((taken? sources).map ValueSource.style).getD 0
  credited_iff : (∀ style, t.TakenFrom attr sources style → a.style = style) ↔
    ¬ t.Miscredits attr sources

theorem style_answer (t : Theme) (r : Resources) (attr : ResourceId) (s : Sourced) :
    (t.answer r attr s).style = s.2 := by
  unfold answer AttributeValue.ofResolved
  split <;> rfl

theorem Follows.credits (h : Follows s sources) : t.Credits r attr sources (t.answer r attr s) := by
  have hstyle : (t.answer r attr s).style = ((taken? sources).map ValueSource.style).getD 0 :=
    (t.style_answer r attr s).trans h.style
  refine ⟨reports_answer h.find?_values, hstyle, ?_, ?_⟩
  · rintro hcredited ⟨hundefined, ⟨slot, hslot⟩, last, hlast, hne⟩
    refine hne ?_
    rw [← hcredited 0 (.theme hundefined hslot), hstyle, taken?, hundefined, Option.none_or, hlast]
    rfl
  · intro hnot style htaken
    rw [hstyle, taken?]
    cases htaken with
    | source hfirst =>
        rw [hfirst]
        rfl
    | theme hnone hslot =>
        rw [hnone, Option.none_or]
        cases hlast : sources.getLast? with
        | none => rfl
        | some last =>
            by_contra hne
            exact hnot ⟨hnone, ⟨_, hslot⟩, last, hlast, hne⟩

/-! ## Lists of attributes -/

theorem bag_given (t : Theme) (r : Resources) (styleAttr style : ResourceId) (cache : BagCache) :
    (t.defaultStyle r styleAttr style cache).1.bag = t.givenBag r styleAttr style cache :=
  congrArg Prod.fst (t.bag_defaultStyle r styleAttr style cache)

theorem bag_named (t : Theme) (r : Resources) (tag : AttributeSet) (styleAttr style : ResourceId)
    (cache : BagCache) :
    (t.tagStyle r tag (t.defaultStyle r styleAttr style cache).2).1.bag =
      t.namedBag r tag styleAttr style cache := by
  have hcache : (t.defaultStyle r styleAttr style cache).2 =
      (r.styleBag (t.givenStyle? styleAttr style) cache).2 :=
    congrArg Prod.snd (t.bag_defaultStyle r styleAttr style cache)
  rw [hcache]
  exact congrArg Prod.fst (t.bag_tagStyle r tag _)

/-- For every attribute of a list the style next to the value is that of the first source that
defines it or else of the last one that has it, and it is the one that the value is taken from
unless a value of the theme is credited to an undefined entry; from a tag and in code. -/
theorem attributes_style (t : Theme) (r : Resources) (tag : AttributeSet)
    (styleAttr style : ResourceId) (given attrs : List ResourceId) (cache : BagCache) :
    List.Forall₂
      (fun attr a => t.Credits r attr
        (sourcesOfTag tag (t.namedBag r tag styleAttr style cache)
          (t.givenBag r styleAttr style cache) attr) a)
      attrs (t.attributesOfTag r tag styleAttr style attrs cache).1.values ∧
    List.Forall₂
      (fun x a => t.Credits r x.2
        (sourcesInCode ((given[x.1]?).getD 0) (t.givenBag r styleAttr style cache) x.2) a)
      ((List.range attrs.length).zip attrs)
      (t.attributesInCode r styleAttr style given attrs cache).1.values := by
  rw [← bag_named, ← bag_given]
  constructor
  · show List.Forall₂ _ attrs (attrs.map _)
    rw [List.forall₂_map_right_iff, List.forall₂_same]
    exact fun attr _ => (follows_sourceInTag _ _ _ attr).credits
  · show List.Forall₂ _ _ (List.map _ _)
    rw [List.forall₂_map_right_iff, List.forall₂_same]
    exact fun x _ => (follows_sourceInCode _ _ x.2).credits

/-- Resources with a style whose only entry is undefined. -/
def blankStyle : Resources :=
  (Manager.fresh 0 [.ofVariants ResourceId.appPackage #[.none]
    [(.default, [some (.bag 0 0 0 [⟨0x01010001, .undefined⟩])])]] .default).resources

/-- Not every style that stands next to a value is the one that the value is taken from. -/
theorem not_attributes_style :
    ¬ ∀ (t : Theme) (r : Resources) (tag : AttributeSet) (styleAttr style : ResourceId)
      (given attrs : List ResourceId) (cache : BagCache),
      List.Forall₂
        (fun attr a => ∀ style', t.TakenFrom attr
          (sourcesOfTag tag (t.namedBag r tag styleAttr style cache)
            (t.givenBag r styleAttr style cache) attr) style' → a.style = style')
        attrs (t.attributesOfTag r tag styleAttr style attrs cache).1.values ∧
      List.Forall₂
        (fun x a => ∀ style', t.TakenFrom x.2
          (sourcesInCode ((given[x.1]?).getD 0) (t.givenBag r styleAttr style cache) x.2)
            style' → a.style = style')
        ((List.range attrs.length).zip attrs)
        (t.attributesInCode r styleAttr style given attrs cache).1.values := by
  intro h
  -- the value is that of the theme, and the style that of the undefined entry
  have hvalues : (withValue.attributesOfTag blankStyle {} 0 0x7f010000 [0x01010001] []).1.values.map
      (fun a => (a.value, a.style)) = [(⟨.decimal, 9⟩, 0x7f010000)] := by decide +kernel
  obtain ⟨a, ha, hstyle⟩ := List.map_eq_singleton_iff.mp hvalues
  have hnone : (sourcesOfTag {} (withValue.namedBag blankStyle {} 0 0x7f010000 [])
      (withValue.givenBag blankStyle 0 0x7f010000 []) 0x01010001).find? isDefined = none := by
    decide +kernel
  have hslot : withValue.lookup 0x01010001 = .ok ⟨some 3, .none, ⟨.decimal, 9⟩⟩ := by
    decide +kernel
  have hcredited := (h withValue blankStyle {} 0 0x7f010000 [] [0x01010001] []).1
  rw [ha, List.forall₂_cons] at hcredited
  have hzero := hcredited.1 0 (.theme hnone hslot)
  rw [(Prod.mk.inj hstyle).2] at hzero
  exact absurd hzero (by decide)

end Theme

end AppResources
