import AppResources.Theme
import AppResources.Xml.AttributeSet

/-!
# Attributes of views

The values of the attributes of a view come from several sources: the tag of the
view, the style that the tag names, a default style, and the theme. The first source
that defines an attribute decides.

## Main definitions

* `Theme.attributesInCode`: for a view that is made in code.
* `Theme.attributesOfTag`: for a view that is made from a tag.
* `Resources.attributesAlone`: from a tag alone, by one walk over both lists.
-/

namespace AppResources

/-- The value found for an attribute. -/
structure AttributeValue where
  /-- The value. -/
  value : Value
  /-- The asset that the value comes from, if it is not a tag. -/
  cookie : Option Nat
  /-- The last reference that was followed, or zero. -/
  origin : ResourceId
  /-- The axes along which the value varies. -/
  axes : Axes
  /-- The density of the configuration that the value was read from. -/
  density : UInt16
  /-- The style that defines the value, zero if no style does. -/
  style : ResourceId
  deriving DecidableEq

namespace AttributeValue

/-- Whether there is a value; the empty value is one. -/
def isDefined (a : AttributeValue) : Bool :=
  !a.value.isUndefined

/-- The answer for a value. A reference to nothing is no value. -/
def ofResolved (s : Resolved) (style : ResourceId) : AttributeValue :=
  if s.value.isNullReference then
    ⟨.undefined, none, s.origin, s.axes, s.config.density, style⟩
  else ⟨s.value, s.cookie, s.origin, s.axes, s.config.density, style⟩

end AttributeValue

/-- The values of a list of attributes. -/
structure AttributeValues where
  /-- The values in the order of the attributes. -/
  values : List AttributeValue
  /-- The positions with a value. -/
  indices : List Nat
  deriving DecidableEq

namespace AttributeValues

/-- The positions of the values that pass a test, counted from a start. -/
def positionsFrom (test : AttributeValue → Bool) : Nat → List AttributeValue → List Nat
  | _, [] => []
  | i, a :: rest =>
    if test a then i :: positionsFrom test (i + 1) rest else positionsFrom test (i + 1) rest

/-- Values with the positions of those that pass a test. -/
def of (test : AttributeValue → Bool) (values : List AttributeValue) : AttributeValues :=
  ⟨values, positionsFrom test 0 values⟩

end AttributeValues

/-- A style that is consulted, and the axes of all that led to it. -/
structure ConsultedStyle where
  /-- The style, if there is one. -/
  bag : Option Bag := none
  /-- The axes. -/
  axes : Axes := .none

/-- A value and the style that defines it. -/
abbrev Sourced := Resolved × ResourceId

namespace ConsultedStyle

/-- The value that a style gives an attribute. -/
def value? (s : ConsultedStyle) (attr : ResourceId) : Option Sourced :=
  (s.bag.bind (·.find? attr)).map fun e =>
    ({ cookie := some e.cookie, value := e.value, axes := s.axes }, e.style)

/-- The style with an id, next to axes that led to it. -/
def load (r : Resources) (axes : Axes) (id : ResourceId) (cache : BagCache) :
    ConsultedStyle × BagCache :=
  match r.bag id cache with
  | (.ok b, cache) => (⟨some b, axes.union b.axes⟩, cache)
  | (.error _, cache) => (⟨none, axes⟩, cache)

end ConsultedStyle

/-- What is left of a chain that could not be followed: all of it when it is too long,
and otherwise the value that was reached, as if it came from the given asset. -/
def Unresolved.settle (u : Unresolved) (cookie : Option Nat) : Resolved :=
  match u.error with
  | .tooManySteps _ => u.reached
  | _ => { u.reached with cookie := cookie }

/-- The end of a chain, however it ended. -/
def settled (cookie : Option Nat) : Except Unresolved Resolved → Resolved
  | .ok s => s
  | .error u => u.settle cookie

namespace Theme

/-- The default style of a view: the one that an attribute of the theme refers to, or else
the given one. -/
def defaultStyle (t : Theme) (r : Resources) (styleAttr style : ResourceId)
    (cache : BagCache) : ConsultedStyle × BagCache :=
  let fromTheme : Option ThemeSlot :=
    if styleAttr = 0 then none else (t.lookup styleAttr).toOption
  let axes := match fromTheme with
    | some slot => slot.axes
    | none => .none
  let id := match fromTheme with
    | some slot => if slot.value.kind = .reference then slot.value.data else style
    | none => style
  if id = 0 then (⟨none, axes⟩, cache) else ConsultedStyle.load r axes id cache

/-- The style that a tag names, directly or by an attribute of the theme. -/
def tagStyle (t : Theme) (r : Resources) (tag : AttributeSet) (cache : BagCache) :
    ConsultedStyle × BagCache :=
  match tag.styleIndex with
  | none => ({}, cache)
  | some i =>
    let written := tag.valueAt i
    let (value, axes) : Value × Axes :=
      if written.kind = .attribute then
        match t.lookup written.data with
        | .ok slot => (slot.value, slot.axes)
        | .error _ => (.undefined, .none)
      else (written, .none)
    if value.isLiveReference then ConsultedStyle.load r axes value.data cache
    else (⟨none, axes⟩, cache)

/-- Follows a value that was found, or asks the theme when none was. -/
def chase (t : Theme) (r : Resources) (attr : ResourceId) (s : Resolved) : Resolved :=
  if s.value.isNull then
    if s.value.isUndefined then
      match t.lookup attr with
      | .error _ => s
      | .ok slot =>
        settled s.cookie
          (r.follow { cookie := slot.cookie, value := slot.value, axes := slot.axes })
    else s
  else settled s.cookie (t.followAttribute r s)

/-- The answer for an attribute once its first source is known. -/
def answer (t : Theme) (r : Resources) (attr : ResourceId) (s : Sourced) : AttributeValue :=
  .ofResolved (t.chase r attr s.1) s.2

/-- The source of an attribute of a view that is made in code: the attribute that was given
in its place, or the default style. -/
def sourceInCode (style : ConsultedStyle) (given attr : ResourceId) : Sourced :=
  if given = 0 then (style.value? attr).getD ({}, 0)
  else ({ value := ⟨.attribute, given⟩ }, 0)

/-- The values of attributes for a view that is made in code. -/
def attributesInCode (t : Theme) (r : Resources) (styleAttr style : ResourceId)
    (given attrs : List ResourceId) (cache : BagCache) : AttributeValues × BagCache :=
  let (consulted, cache) := t.defaultStyle r styleAttr style cache
  let values := (List.range attrs.length).zip attrs |>.map fun (i, attr) =>
    t.answer r attr (sourceInCode consulted ((given[i]?).getD 0) attr)
  (.of (fun a => !a.value.isNull) values, cache)

/-- The first source that defines an attribute: the tag, its style, the default style. -/
def sourceInTag (tag : AttributeSet) (tagStyle defaultStyle : ConsultedStyle)
    (attr : ResourceId) : Sourced :=
  let written : Sourced := match tag.value? attr with
    | some v => ({ value := v, axes := tagStyle.axes }, 0)
    | none => ({}, 0)
  let styled := if written.1.value.isUndefined then (tagStyle.value? attr).getD written
    else written
  if styled.1.value.isUndefined then (defaultStyle.value? attr).getD styled else styled

/-- The values of attributes for a view that is made from a tag. -/
def attributesOfTag (t : Theme) (r : Resources) (tag : AttributeSet)
    (styleAttr style : ResourceId) (attrs : List ResourceId) (cache : BagCache) :
    AttributeValues × BagCache :=
  let (byDefault, cache) := t.defaultStyle r styleAttr style cache
  let (byTag, cache) := t.tagStyle r tag cache
  let values := attrs.map fun attr => t.answer r attr (sourceInTag tag byTag byDefault attr)
  (.of AttributeValue.isDefined values, cache)

end Theme

namespace Resources

/-- The value of an attribute in the attributes of a tag that were not passed yet, and what
is left of them. Both lists ascend. -/
def passTo (attr : ResourceId) :
    List (ResourceId × Option Value) → Value × List (ResourceId × Option Value)
  | [] => (.undefined, [])
  | a :: rest =>
    if a.1 < attr then passTo attr rest
    else if a.1 = attr then (a.2.getD .undefined, rest)
    else (.undefined, a :: rest)

/-- The end of the chain of references that starts at the value of a tag. -/
def tagValue (r : Resources) (v : Value) : AttributeValue :=
  .ofResolved (if v.isNull then { value := v } else settled none (r.follow { value := v })) 0

/-- The values of attributes from what is left of a tag. -/
def valuesFrom (r : Resources) :
    List (ResourceId × Option Value) → List ResourceId → List AttributeValue
  | _, [] => []
  | left, attr :: attrs =>
    let (v, left) := passTo attr left
    r.tagValue v :: r.valuesFrom left attrs

/-- The values of attributes from a tag alone, without styles or a theme. -/
def attributesAlone (r : Resources) (tag : AttributeSet) (attrs : List ResourceId) :
    AttributeValues :=
  .of AttributeValue.isDefined (r.valuesFrom tag.items attrs)

end Resources

end AppResources
