import AppResources.Proofs.BagOrder
import AppResources.Proofs.ReferenceChain
import AppResources.Theme.Attributes

/-!
# Which source decides an attribute

The value of an attribute of a view is that of the first source that defines it: the tag, the
style that the tag names, the default style. The value that is found may be an attribute of the
theme or a reference, and is followed to its end; where no source defines the attribute the
theme is asked. A chain that cannot be followed ends with the last value reached.

A style is searched by bisection, which relies on ascending keys. In a style with other keys an
entry may be missed, and then a later source decides, or none.

## Main definitions

* `Resources.Ends`: where a chain of references ends.
* `Theme.Chases`: where a chain ends that may start at an attribute of the theme.
* `Theme.sources`: what the sources of an attribute say, in order.
* `Theme.Reports`: the value that is reported for an attribute.

## Main results

* `ends_followFor`: chains are followed to their ends.
* `attributesOfTag_cascade`: the first source that defines an attribute decides.
-/

namespace AppResources

/-! ## Where references end -/

namespace Resources

variable {r : Resources} {steps : Nat} {v x y : Value}

/-- Where a chain of references ends that is followed for a number of steps: at a value that
refers to nothing else, at a resource that cannot be found, at one whose value is its own id,
or where no step is left. -/
inductive Ends (r : Resources) : Nat → Value → Value → Prop
  | still {steps : Nat} {v : Value} (h : v.isLiveReference = false) : Ends r steps v v
  | limit {v : Value} (h : v.isLiveReference = true) : Ends r 0 v v
  | lost {steps : Nat} {v : Value} {e : LookupError} (h : v.isLiveReference = true)
      (hget : r.get v.data true 0 = .error e) : Ends r (steps + 1) v v
  | own {steps : Nat} {v : Value} {next : Resolved} (h : v.isLiveReference = true)
      (hget : r.get v.data true 0 = .ok next) (hown : next.value.data = v.data) :
      Ends r (steps + 1) v next.value
  | next {steps : Nat} {v x : Value} {next : Resolved} (h : v.isLiveReference = true)
      (hget : r.get v.data true 0 = .ok next) (hother : next.value.data ≠ v.data)
      (hends : Ends r steps next.value x) : Ends r (steps + 1) v x

theorem value_settled_error (cookie : Option Nat) (u : Unresolved) :
    (settled cookie (.error u)).value = u.reached.value := by
  unfold settled Unresolved.settle
  dsimp only
  split <;> rfl

/-- References are followed to where they end. -/
theorem ends_followFor (r : Resources) (cookie : Option Nat) (steps : Nat) (s : Resolved) :
    r.Ends steps s.value (settled cookie (r.followFor steps s)).value := by
  induction steps, s using r.followFor_induction with
  | still steps s hstill =>
      rw [followFor_still steps hstill]
      exact .still hstill
  | limit s hlive =>
      rw [followFor_limit hlive, value_settled_error]
      exact .limit hlive
  | lost steps s e hlive hget =>
      rw [followFor_lost steps hlive hget, value_settled_error]
      exact .lost hlive hget
  | own steps s next hlive hget hown =>
      rw [followFor_own steps hlive hget hown]
      show r.Ends (steps + 1) s.value next.value
      exact .own hlive hget hown
  | next steps s next hlive hget hother ih =>
      rw [followFor_next steps hlive hget hother]
      exact .next hlive hget hother ih

theorem ends_follow (r : Resources) (cookie : Option Nat) (s : Resolved) :
    r.Ends maxSteps s.value (settled cookie (r.follow s)).value :=
  r.ends_followFor cookie maxSteps { s with origin := 0 }

/-- A chain has one end. -/
theorem Ends.unique (hx : r.Ends steps v x) (hy : r.Ends steps v y) : x = y := by
  induction hx with
  | still h =>
      cases hy with
      | still _ => rfl
      | limit h' | lost h' | own h' | next h' => exact absurd (h.symm.trans h') (by decide)
  | limit h =>
      cases hy with
      | still h' => exact absurd (h'.symm.trans h) (by decide)
      | limit _ => rfl
  | lost h hget =>
      cases hy with
      | still h' => exact absurd (h'.symm.trans h) (by decide)
      | lost _ _ => rfl
      | own _ hget' _ | next _ hget' _ _ => cases hget.symm.trans hget'
  | own h hget hown =>
      cases hy with
      | still h' => exact absurd (h'.symm.trans h) (by decide)
      | lost _ hget' => cases hget.symm.trans hget'
      | own _ hget' _ => rw [Except.ok.inj (hget.symm.trans hget')]
      | next _ hget' hother _ =>
          rw [← Except.ok.inj (hget.symm.trans hget')] at hother
          exact absurd hown hother
  | next h hget hother _ ih =>
      cases hy with
      | still h' => exact absurd (h'.symm.trans h) (by decide)
      | lost _ hget' => cases hget.symm.trans hget'
      | own _ hget' hown =>
          rw [← Except.ok.inj (hget.symm.trans hget')] at hown
          exact absurd hown hother
      | next _ hget' _ hends =>
          rw [← Except.ok.inj (hget.symm.trans hget')] at hends
          exact ih hends

end Resources

/-! ## Where values end -/

namespace Theme

variable {t : Theme} {r : Resources} {v x y : Value} {attr : ResourceId} {cache : BagCache}

/-- Where a chain ends that may start at an attribute of the theme, which stands for the value
that the theme has for it. -/
inductive Chases (t : Theme) (r : Resources) : Value → Value → Prop
  | direct {v x : Value} (h : v.kind ≠ .attribute) (hends : r.Ends maxSteps v x) : Chases t r v x
  | themed {v x : Value} {slot : ThemeSlot} (h : v.kind = .attribute)
      (hslot : t.lookup v.data = .ok slot) (hends : r.Ends maxSteps slot.value x) : Chases t r v x
  | unthemed {v : Value} {e : LookupError} (h : v.kind = .attribute)
      (hslot : t.lookup v.data = .error e) : Chases t r v v

/-- Values are followed to where they end. -/
theorem chases_followAttribute (t : Theme) (r : Resources) (cookie : Option Nat) (s : Resolved) :
    t.Chases r s.value (settled cookie (t.followAttribute r s)).value := by
  unfold followAttribute
  by_cases hkind : s.value.kind = .attribute
  · rw [if_pos hkind]
    cases hslot : t.lookup s.value.data with
    | error e =>
        dsimp only
        rw [Resources.value_settled_error]
        exact .unthemed hkind hslot
    | ok slot =>
        have hends := r.ends_follow cookie { s with
          cookie := slot.cookie
          value := slot.value
          axes := s.axes.union slot.axes }
        exact .themed hkind hslot hends
  · rw [if_neg hkind]
    exact .direct hkind (r.ends_follow cookie s)

/-- A value has one end. -/
theorem Chases.unique (hx : t.Chases r v x) (hy : t.Chases r v y) : x = y := by
  cases hx with
  | direct h hends =>
      cases hy with
      | direct _ hends' => exact hends.unique hends'
      | themed h' _ _ | unthemed h' _ => exact absurd h' h
  | themed h hslot hends =>
      cases hy with
      | direct h' _ => exact absurd h h'
      | themed _ hslot' hends' =>
          rw [← Except.ok.inj (hslot.symm.trans hslot')] at hends'
          exact hends.unique hends'
      | unthemed _ hslot' => cases hslot.symm.trans hslot'
  | unthemed h hslot =>
      cases hy with
      | direct h' _ => exact absurd h h'
      | themed _ hslot' _ => cases hslot.symm.trans hslot'
      | unthemed _ _ => rfl

/-! ## The sources of an attribute -/

/-- The style that a tag names, directly or by an attribute of the theme. -/
def namedStyle? (t : Theme) (tag : AttributeSet) : Option ResourceId := do
  let written := tag.valueAt (← tag.styleIndex)
  let value ←
    if written.kind = .attribute then (t.lookup written.data).toOption.map (·.value)
    else some written
  if value.isLiveReference then some value.data else none

/-- The default style: the one that an attribute of the theme refers to, or else the given
one; zero is none. -/
def givenStyle? (t : Theme) (styleAttr style : ResourceId) : Option ResourceId :=
  let slot : Option ThemeSlot := if styleAttr = 0 then none else (t.lookup styleAttr).toOption
  let id := ((slot.filter (·.value.kind = .reference)).map (·.value.data)).getD style
  if id = 0 then none else some id

end Theme

namespace Resources

/-- The bag of a style, as it is answered with some bags known, and the bags known then. -/
def styleBag (r : Resources) (style : Option ResourceId) (cache : BagCache) :
    Option Bag × BagCache :=
  match style with
  | some id => ((r.bag id cache).1.toOption, (r.bag id cache).2)
  | none => (none, cache)

end Resources

/-- The value of the entry of a style for an attribute, if it has one. -/
def Bag.valueOf? (b : Bag) (attr : ResourceId) : Option Value :=
  (b.entries.find? (·.key == attr)).map (·.value)

namespace Theme

theorem bag_load (r : Resources) (axes : Axes) (id : ResourceId) (cache : BagCache) :
    ((ConsultedStyle.load r axes id cache).1.bag, (ConsultedStyle.load r axes id cache).2) =
      r.styleBag (some id) cache := by
  unfold ConsultedStyle.load Resources.styleBag
  split
  · next b cache' hbag => simp [hbag, Except.toOption]
  · next e cache' hbag => simp [hbag, Except.toOption]

theorem bag_loadUnlessZero (r : Resources) (axes : Axes) (id : ResourceId) (cache : BagCache) :
    let loaded := if id = 0 then (⟨none, axes⟩, cache) else ConsultedStyle.load r axes id cache
    (loaded.1.bag, loaded.2) = r.styleBag (if id = 0 then none else some id) cache := by
  by_cases hid : id = 0
  · rw [if_pos hid, if_pos hid]
    rfl
  · rw [if_neg hid, if_neg hid]
    exact bag_load r axes id cache

theorem bag_defaultStyle (t : Theme) (r : Resources) (styleAttr style : ResourceId)
    (cache : BagCache) :
    ((t.defaultStyle r styleAttr style cache).1.bag,
        (t.defaultStyle r styleAttr style cache).2) =
      r.styleBag (t.givenStyle? styleAttr style) cache := by
  unfold defaultStyle givenStyle?
  cases (if styleAttr = 0 then none else (t.lookup styleAttr).toOption) with
  | none => exact bag_loadUnlessZero r _ style cache
  | some slot =>
      by_cases hkind : slot.value.kind = .reference
      · simp only [Option.filter, hkind, if_true, decide_true, Option.map_some, Option.getD_some]
        exact bag_loadUnlessZero r _ slot.value.data cache
      · simp only [Option.filter, hkind, if_false, decide_false, Bool.false_eq_true,
          Option.map_none, Option.getD_none]
        exact bag_loadUnlessZero r _ style cache

theorem bag_tagStyle (t : Theme) (r : Resources) (tag : AttributeSet) (cache : BagCache) :
    ((t.tagStyle r tag cache).1.bag, (t.tagStyle r tag cache).2) =
      r.styleBag (t.namedStyle? tag) cache := by
  unfold tagStyle namedStyle?
  cases tag.styleIndex with
  | none => rfl
  | some i =>
      simp only [Option.bind_eq_bind, Option.bind_some]
      by_cases hkind : (tag.valueAt i).kind = .attribute
      · rw [if_pos hkind, if_pos hkind]
        cases t.lookup (tag.valueAt i).data with
        | error e => rfl
        | ok slot =>
            simp only [Except.toOption, Option.map_some, Option.bind_some]
            split
            · exact bag_load _ _ _ _
            · rfl
      · rw [if_neg hkind, if_neg hkind]
        dsimp only
        split
        · exact bag_load _ _ _ _
        · rfl

/-- What the sources of an attribute say, in order: the tag, the style that it names and the
default style. -/
def sources (tag : AttributeSet) (named given : Option Bag) (attr : ResourceId) : List Value :=
  (tag.value? attr).toList ++ (named.bind (·.valueOf? attr)).toList ++
    (given.bind (·.valueOf? attr)).toList

/-- Whether a value is one, be it the empty one. -/
def isDefinedValue (v : Value) : Bool := !v.isUndefined

/-- The value of a style for an attribute is that of its entry, if its keys ascend. -/
theorem value?_of_ascends {style : ConsultedStyle}
    (h : ∀ b, style.bag = some b → Bag.Ascends b.entries) (attr : ResourceId) :
    (style.value? attr).map (·.1.value) = style.bag.bind (·.valueOf? attr) := by
  unfold ConsultedStyle.value?
  cases hbag : style.bag with
  | none => rfl
  | some b =>
      simp only [Option.bind_some, Option.map_map, Bag.valueOf?]
      rw [Bag.find?_eq_find?_entries (h b hbag)]
      rfl

/-- A further source counts where those in front of it define nothing. -/
theorem find?_append_source {front : List Value} {s : Sourced} (further : Option Sourced)
    (h : front.find? isDefinedValue = (some s.1.value).filter isDefinedValue) :
    (front ++ (further.map (·.1.value)).toList).find? isDefinedValue =
      (some (if s.1.value.isUndefined then further.getD s else s).1.value).filter
        isDefinedValue := by
  rw [List.find?_append, h]
  cases hundefined : s.1.value.isUndefined with
  | false => simp [Option.filter, isDefinedValue, hundefined]
  | true =>
      cases further with
      | none => simp [Option.filter, isDefinedValue, hundefined]
      | some other =>
          rw [Option.map_some, Option.toList_some, List.find?_singleton]
          simp [Option.filter_some, isDefinedValue, hundefined]

/-- The source that is taken says what the first one says that defines the attribute. -/
theorem find?_sources {tag : AttributeSet} {byTag byDefault : ConsultedStyle}
    (htag : ∀ b, byTag.bag = some b → Bag.Ascends b.entries)
    (hdefault : ∀ b, byDefault.bag = some b → Bag.Ascends b.entries) (attr : ResourceId) :
    (sources tag byTag.bag byDefault.bag attr).find? isDefinedValue =
      (some (sourceInTag tag byTag byDefault attr).1.value).filter isDefinedValue := by
  unfold sources
  rw [← value?_of_ascends htag, ← value?_of_ascends hdefault]
  refine find?_append_source _ (find?_append_source _ ?_)
  cases tag.value? attr with
  | none => rfl
  | some v => rw [Option.toList_some, List.find?_singleton, Option.filter_some]

/-! ## What is reported -/

end Theme

/-- An answer shows a value. A reference to nothing is shown as no value, from no asset. -/
def AttributeValue.Shows (a : AttributeValue) (x : Value) : Prop :=
  if x.isNullReference then a.value = .undefined ∧ a.cookie = none else a.value = x

theorem AttributeValue.shows_ofResolved (s : Resolved) (style : ResourceId) :
    (ofResolved s style).Shows s.value := by
  unfold Shows ofResolved
  split
  · exact ⟨rfl, rfl⟩
  · rfl

namespace Theme

variable {t : Theme} {r : Resources} {attr : ResourceId}

/-- What is reported for an attribute: where the value of the first source that defines it ends,
or else where the value of the theme ends, or else no value. -/
inductive Reports (t : Theme) (r : Resources) (attr : ResourceId) (sources : List Value)
    (a : AttributeValue) : Prop
  | source {v x : Value} (hfirst : sources.find? isDefinedValue = some v)
      (hchase : t.Chases r v x) (hshows : a.Shows x)
  | theme {slot : ThemeSlot} {x : Value} (hnone : sources.find? isDefinedValue = none)
      (hslot : t.lookup attr = .ok slot) (hends : r.Ends maxSteps slot.value x)
      (hshows : a.Shows x)
  | nothing {e : LookupError} (hnone : sources.find? isDefinedValue = none)
      (hslot : t.lookup attr = .error e) (hundefined : a.isDefined = false)

/-- A value that is one is followed. -/
theorem chases_chase {s : Resolved} (hdefined : s.value.isUndefined = false) :
    t.Chases r s.value (t.chase r attr s).value := by
  unfold chase
  cases hnull : s.value.isNull with
  | true =>
      -- the empty value stays as it is
      have hkind : s.value.kind = .null := beq_iff_eq.mp hnull
      rw [if_pos rfl, hdefined, if_neg (by decide)]
      refine .direct (by rw [hkind]; decide) (.still ?_)
      rw [Value.isLiveReference, hkind]
      rfl
  | false =>
      rw [if_neg (by decide)]
      exact t.chases_followAttribute r s.cookie s

/-- An answer is what is reported if its source is the first one that defines the attribute. -/
theorem reports_answer {sources : List Value} {s : Sourced}
    (h : sources.find? isDefinedValue = (some s.1.value).filter isDefinedValue) :
    t.Reports r attr sources (t.answer r attr s) := by
  have hshows := AttributeValue.shows_ofResolved (t.chase r attr s.1) s.2
  cases hundefined : s.1.value.isUndefined with
  | false =>
      have hfirst : sources.find? isDefinedValue = some s.1.value := by
        rw [h]
        simp [Option.filter, isDefinedValue, hundefined]
      exact .source hfirst (chases_chase hundefined) hshows
  | true =>
      have hnone : sources.find? isDefinedValue = none := by
        rw [h]
        simp [Option.filter, isDefinedValue, hundefined]
      have hnull : s.1.value.isNull = true := by
        rw [Value.isUndefined, Bool.and_eq_true] at hundefined
        exact hundefined.1
      cases hslot : t.lookup attr with
      | error e =>
          refine .nothing hnone hslot ?_
          have hsame : t.chase r attr s.1 = s.1 := by
            rw [chase, if_pos hnull, if_pos hundefined, hslot]
          have hkind : s.1.value.kind = .null := beq_iff_eq.mp hnull
          have hreference : s.1.value.isNullReference = false := by
            rw [Value.isNullReference, hkind]
            rfl
          rw [answer, hsame, AttributeValue.ofResolved, hreference, if_neg (by decide),
            AttributeValue.isDefined, hundefined]
          rfl
      | ok slot =>
          have hends := r.ends_follow s.1.cookie
            { cookie := slot.cookie, value := slot.value, axes := slot.axes }
          refine .theme hnone hslot hends ?_
          have hchase : t.chase r attr s.1 = settled s.1.cookie
              (r.follow { cookie := slot.cookie, value := slot.value, axes := slot.axes }) := by
            rw [chase, if_pos hnull, if_pos hundefined, hslot]
          rw [← hchase]
          exact hshows

end Theme

/-! ## Positions -/

namespace AttributeValues

variable {test : AttributeValue → Bool} {values : List AttributeValue} {start i : Nat}

theorem le_of_mem_positionsFrom (h : i ∈ positionsFrom test start values) : start ≤ i := by
  induction values generalizing start with
  | nil => exact absurd h List.not_mem_nil
  | cons a values ih =>
      unfold positionsFrom at h
      split at h
      · rcases List.mem_cons.mp h with rfl | h
        · exact Nat.le_refl _
        · exact Nat.le_of_succ_le (ih h)
      · exact Nat.le_of_succ_le (ih h)

theorem pairwise_positionsFrom : (positionsFrom test start values).Pairwise (· < ·) := by
  induction values generalizing start with
  | nil => exact .nil
  | cons a values ih =>
      unfold positionsFrom
      split
      · exact .cons (fun i hi => le_of_mem_positionsFrom hi) ih
      · exact ih

theorem mem_positionsFrom_iff :
    start + i ∈ positionsFrom test start values ↔
      ∃ a, values[i]? = some a ∧ test a = true := by
  induction values generalizing start i with
  | nil => simp [positionsFrom]
  | cons a values ih =>
      unfold positionsFrom
      cases i with
      | zero =>
          have hlater : start ∉ positionsFrom test (start + 1) values := fun h =>
            Nat.not_succ_le_self start (le_of_mem_positionsFrom h)
          split <;> simp_all
      | succ i =>
          have hnext : start + (i + 1) = start + 1 + i := by omega
          have hrest := @ih (start + 1) i
          rw [hnext, List.getElem?_cons_succ, ← hrest]
          split
          · rw [List.mem_cons]
            exact or_iff_right (by omega)
          · rfl

end AttributeValues

namespace Theme

/-- The bag of the default style. -/
def givenBag (t : Theme) (r : Resources) (styleAttr style : ResourceId) (cache : BagCache) :
    Option Bag :=
  (r.styleBag (t.givenStyle? styleAttr style) cache).1

/-- The bag of the style that a tag names, which is looked up behind the default style. -/
def namedBag (t : Theme) (r : Resources) (tag : AttributeSet) (styleAttr style : ResourceId)
    (cache : BagCache) : Option Bag :=
  (r.styleBag (t.namedStyle? tag) (r.styleBag (t.givenStyle? styleAttr style) cache).2).1

/-- For every attribute that is reported which the first source that defines it says, and the
positions are those of the values that are defined. -/
structure Cascades (t : Theme) (r : Resources) (tag : AttributeSet) (styleAttr style : ResourceId)
    (attrs : List ResourceId) (cache : BagCache) : Prop where
  values : List.Forall₂
    (fun attr a => t.Reports r attr
      (sources tag (t.namedBag r tag styleAttr style cache) (t.givenBag r styleAttr style cache) attr) a)
    attrs (t.attributesOfTag r tag styleAttr style attrs cache).1.values
  ascending : (t.attributesOfTag r tag styleAttr style attrs cache).1.indices.Pairwise (· < ·)
  mem_indices : ∀ i, i ∈ (t.attributesOfTag r tag styleAttr style attrs cache).1.indices ↔
    ∃ a, (t.attributesOfTag r tag styleAttr style attrs cache).1.values[i]? = some a ∧
      a.isDefined = true

/-- The first source that defines an attribute decides, if the keys of both styles ascend. -/
theorem attributesOfTag_cascade (t : Theme) (r : Resources) (tag : AttributeSet)
    (styleAttr style : ResourceId) (attrs : List ResourceId) (cache : BagCache)
    (hgiven : ∀ b, t.givenBag r styleAttr style cache = some b → Bag.Ascends b.entries)
    (hnamed : ∀ b, t.namedBag r tag styleAttr style cache = some b → Bag.Ascends b.entries) :
    t.Cascades r tag styleAttr style attrs cache := by
  -- the two styles that are consulted
  have hgivenBag := t.bag_defaultStyle r styleAttr style cache
  have hgivenStyle : (t.defaultStyle r styleAttr style cache).1.bag =
      t.givenBag r styleAttr style cache := congrArg Prod.fst hgivenBag
  have hnamedStyle : (t.tagStyle r tag (t.defaultStyle r styleAttr style cache).2).1.bag =
      t.namedBag r tag styleAttr style cache := by
    have hcache : (t.defaultStyle r styleAttr style cache).2 =
        (r.styleBag (t.givenStyle? styleAttr style) cache).2 := congrArg Prod.snd hgivenBag
    rw [hcache]
    exact congrArg Prod.fst (t.bag_tagStyle r tag _)
  have hvalues : (t.attributesOfTag r tag styleAttr style attrs cache).1.values =
      attrs.map fun attr => t.answer r attr
        (sourceInTag tag (t.tagStyle r tag (t.defaultStyle r styleAttr style cache).2).1
          (t.defaultStyle r styleAttr style cache).1 attr) := rfl
  refine ⟨?_, AttributeValues.pairwise_positionsFrom, fun i => ?_⟩
  · rw [hvalues, List.forall₂_map_right_iff, List.forall₂_same]
    intro attr _
    refine reports_answer ?_
    rw [← hnamedStyle, ← hgivenStyle]
    refine find?_sources ?_ ?_ attr
    · rw [hnamedStyle]
      exact hnamed
    · rw [hgivenStyle]
      exact hgiven
  · have hpositions := @AttributeValues.mem_positionsFrom_iff AttributeValue.isDefined
      (t.attributesOfTag r tag styleAttr style attrs cache).1.values 0 i
    rw [Nat.zero_add] at hpositions
    exact hpositions

/-- A tag with an attribute and the name of a style. -/
def styledTag : AttributeSet where
  items := [(0x01010001, some ⟨.decimal, 5⟩), (0, some ⟨.reference, 0x7f010000⟩)]
  styleIndex := some 1

theorem ascends_of_all {found : Option Bag}
    (h : found.all (fun b => decide (Bag.Ascends b.entries)) = true) :
    ∀ b, found = some b → Bag.Ascends b.entries := by
  intro b hb
  rw [hb] at h
  exact of_decide_eq_true h

/-- The first attribute is written in the tag, the second one comes from the style that the tag
names, and the third one is defined nowhere. -/
theorem attributesOfTag_cascade_styles :
    let t : Theme := { owner := 0 }
    let r := (Manager.fresh 0 [Manager.appStyles] .default).resources
    (∀ b, t.givenBag r 0 0x7f010001 [] = some b → Bag.Ascends b.entries) ∧
      (∀ b, t.namedBag r styledTag 0 0x7f010001 [] = some b → Bag.Ascends b.entries) ∧
      t.Cascades r styledTag 0 0x7f010001 [0x01010001, 0x01010000, 0x01010002] [] ∧
      (t.attributesOfTag r styledTag 0 0x7f010001
        [0x01010001, 0x01010000, 0x01010002] []).1.values.map (fun a => (a.value, a.style)) =
          [(⟨.decimal, 5⟩, 0), (⟨.decimal, 0⟩, 0x7f010000), (.undefined, 0)] := by
  intro t r
  have hgiven : ∀ b, t.givenBag r 0 0x7f010001 [] = some b → Bag.Ascends b.entries :=
    ascends_of_all (by decide +kernel)
  have hnamed : ∀ b, t.namedBag r styledTag 0 0x7f010001 [] = some b → Bag.Ascends b.entries :=
    ascends_of_all (by decide +kernel)
  refine ⟨hgiven, hnamed, ?_, by decide +kernel⟩
  exact attributesOfTag_cascade t r styledTag 0 0x7f010001 _ [] hgiven hnamed

/-- In a style whose keys do not ascend an entry is missed. -/
theorem not_attributesOfTag_cascade :
    ¬ ∀ (t : Theme) (r : Resources) (tag : AttributeSet) (styleAttr style : ResourceId)
      (attrs : List ResourceId) (cache : BagCache), t.Cascades r tag styleAttr style attrs cache := by
  intro h
  let t : Theme := { owner := 0 }
  let r := (Manager.fresh 0 [Manager.libraryStyles] .default).resources
  have hsources : sources {} (t.namedBag r {} 0 0x02010000 []) (t.givenBag r 0 0x02010000 [])
      0x02020000 = [⟨.decimal, 0⟩] := by decide +kernel
  have hvalues : (t.attributesOfTag r {} 0 0x02010000 [0x02020000] []).1.values.map (·.value) =
      [.undefined] := by decide +kernel
  obtain ⟨a, ha, hundefined⟩ := List.map_eq_singleton_iff.mp hvalues
  have hreports := (h t r {} 0 0x02010000 [0x02020000] []).values
  rw [ha, List.forall₂_cons, hsources] at hreports
  cases hreports.1 with
  | source hfirst hchase hshows =>
      obtain rfl := Option.some.inj hfirst
      rw [← Chases.unique (.direct (by decide) (.still rfl)) hchase] at hshows
      cases hundefined.symm.trans hshows
  | theme hnone | nothing hnone => cases hnone

end Theme

end AppResources
