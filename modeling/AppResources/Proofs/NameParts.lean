import AppResources.Proofs.NameRoundTrip
import Mathlib.Data.List.TakeDrop

/-!
# The parts of a name

A name is split in one pass from its front. A separator ends the part before it while that part
is open, which means not met yet, or met with nothing in it. So a separator that stands in front
of its part's text is forgotten once the same separator ends a later text, and a package may be
met behind the type. The parts give the text of the name back exactly if neither happens, and
this can be seen from where the first separators stand.

## Main definitions

* `ResourceName.joined`: the parts that are there, each with its separator.
* `ResourceName.KeepsText`: the parts of a name, if it has any, give its text.
* `ResourceName.InOrder`: the first separators stand where they belong.

## Main results

* `Split.length_text_foldl_le`: a pass never tells more than it has read.
* `Split.Settled.foldl`: from a settled state on it tells everything.
* `keepsText_iff`: the text is kept by the names whose separators are in order and by those that
  are no names.
-/

namespace AppResources

namespace ResourceName

/-- A part with its separator, or nothing where the part is empty. -/
def ended (part : List Char) (separator : Char) : List Char :=
  if part = [] then [] else part ++ [separator]

/-- The parts that are there, each with its separator. -/
def joined (n : ResourceName) : List Char :=
  ended n.package.toList ':' ++ (ended n.type.toList '/' ++ n.entry.toList)

/-- The parts of a name, if it has any, give the text behind the sigil. -/
def KeepsText (name : String) : Prop :=
  ∀ n, parse? name = some n → withoutSigil name.toList = n.joined

/-- Whether a character separates parts. -/
def isSeparator (c : Char) : Bool :=
  c == ':' || c == '/'

/-- The first separator has something in front of it. If it is a colon, no slash stands directly
behind it; if it is a slash, no colon follows at all. -/
def InOrder (cs : List Char) : Prop :=
  match cs.span (!isSeparator ·) with
  | (_, []) => True
  | (front, separator :: rest) =>
    front ≠ [] ∧ if separator = ':' then rest.head? ≠ some '/' else ':' ∉ rest

variable {cs front rest : List Char} {c separator : Char}

theorem ended_nil : ended [] separator = [] := rfl

theorem ended_of_ne (h : front ≠ []) : ended front separator = front ++ [separator] :=
  if_neg h

theorem length_ended_le (part : List Char) (separator : Char) :
    (ended part separator).length ≤ part.length + 1 := by
  unfold ended
  split <;> simp

/-! ## Where the first separator stands -/

/-- No character of a text separates parts. -/
def Unbroken (cs : List Char) : Prop :=
  ∀ c ∈ cs, isSeparator c = false

theorem Unbroken.colon (h : Unbroken cs) : ':' ∉ cs := fun hmem =>
  absurd (h ':' hmem) (by decide)

theorem Unbroken.slash (h : Unbroken cs) : '/' ∉ cs := fun hmem =>
  absurd (h '/' hmem) (by decide)

theorem eq_or_of_isSeparator (h : isSeparator c = true) : c = ':' ∨ c = '/' := by
  simpa [isSeparator] using h

theorem unbroken_or_exists (cs : List Char) :
    Unbroken cs ∨ ∃ front separator rest, cs = front ++ separator :: rest ∧ Unbroken front ∧
      isSeparator separator = true := by
  cases hfind : cs.find? isSeparator with
  | none => exact .inl fun c hc => Bool.eq_false_iff.mpr (List.find?_eq_none.mp hfind c hc)
  | some separator =>
      obtain ⟨hseparator, front, rest, rfl, hfront⟩ := List.find?_eq_some_iff_append.mp hfind
      exact .inr ⟨front, separator, rest, rfl, fun c hc => by simpa using hfront c hc, hseparator⟩

theorem inOrder_of_unbroken (h : Unbroken cs) : InOrder cs := by
  have hall : ∀ c ∈ cs, (!isSeparator c) = true := fun c hc => by rw [h c hc]; rfl
  have hspan : cs.span (!isSeparator ·) = (cs, []) := by
    rw [List.span_eq_takeWhile_dropWhile, List.takeWhile_eq_self_iff.mpr hall,
      List.dropWhile_eq_nil_iff.mpr hall]
  rw [InOrder, hspan]
  trivial

/-- What stands behind the first separator decides. -/
theorem inOrder_append_cons_iff (hfront : Unbroken front) (h : isSeparator separator = true) :
    InOrder (front ++ separator :: rest) ↔
      front ≠ [] ∧ if separator = ':' then rest.head? ≠ some '/' else ':' ∉ rest := by
  have hall : ∀ c ∈ front, (!isSeparator c) = true := fun c hc => by rw [hfront c hc]; rfl
  have hspan : (front ++ separator :: rest).span (!isSeparator ·) = (front, separator :: rest) := by
    rw [List.span_eq_takeWhile_dropWhile, List.takeWhile_append_of_pos hall,
      List.dropWhile_append_of_pos hall]
    simp [h]
  rw [InOrder, hspan]

/-! ## What a pass tells -/

namespace Split

variable {s : Split}

/-- The parts that are there so far, each with its separator, and what is collected. -/
def text (s : Split) : List Char :=
  ended (s.package.getD []) ':' ++ (ended (s.type.getD []) '/' ++ s.current.reverse)

theorem getD_of_isOpen {part : Option (List Char)} (h : isOpen part = true) :
    part.getD [] = [] := by
  unfold isOpen at h
  split at h
  · cases h
  · next hopen =>
    rcases part with _ | _ | ⟨c, cs⟩
    · rfl
    · rfl
    · exact absurd rfl (hopen c cs)

theorem isOpen_some (h : cs ≠ []) : isOpen (some cs) = false := by
  cases cs with
  | nil => exact absurd rfl h
  | cons c cs => rfl

/-- A part that is ended gains one character, its separator, if it is not empty. -/
theorem length_text_step_le (s : Split) (c : Char) :
    (s.step c).text.length ≤ s.text.length + 1 := by
  unfold step
  split
  · next h =>
    have hle := length_ended_le s.current.reverse '/'
    simp only [text, getD_of_isOpen h.2, ended_nil, Option.getD_some, List.length_append,
      List.reverse_nil, List.length_nil, List.length_reverse] at hle ⊢
    omega
  · split
    · next h =>
      have hle := length_ended_le s.current.reverse ':'
      simp only [text, getD_of_isOpen h.2, ended_nil, Option.getD_some, List.length_append,
        List.reverse_nil, List.length_nil, List.length_reverse] at hle ⊢
      omega
    · simp [text, Nat.add_assoc]

/-- A pass never tells more than it has read. -/
theorem length_text_foldl_le (s : Split) (cs : List Char) :
    (cs.foldl step s).text.length ≤ s.text.length + cs.length := by
  induction cs generalizing s with
  | nil => exact Nat.le_refl _
  | cons c cs ih =>
      have hstep := length_text_step_le s c
      have hrest := ih (s.step c)
      rw [List.foldl_cons, List.length_cons]
      omega

/-- A character that adds nothing is lost for good. -/
theorem text_foldl_ne (hread : s.text.length ≤ front.length)
    (hstep : (s.step c).text.length ≤ s.text.length) :
    ((c :: rest).foldl step s).text ≠ front ++ c :: rest := by
  intro heq
  have hle := length_text_foldl_le (s.step c) rest
  have hlength := congrArg List.length heq
  rw [List.foldl_cons, List.length_append, List.length_cons] at hlength
  omega

/-- Whatever follows is told: the package is ended, and the type is ended too or there is
something to end it with. -/
structure Settled (s : Split) : Prop where
  package : isOpen s.package = false
  type : isOpen s.type = false ∨ s.type = none ∧ s.current ≠ []

theorem Settled.filled (h : Settled s) : s.package ≠ some [] ∧ s.type ≠ some [] := by
  constructor
  · intro hempty
    have hclosed := h.package
    rw [hempty] at hclosed
    cases hclosed
  · intro hempty
    rcases h.type with hclosed | ⟨hnone, -⟩
    · rw [hempty] at hclosed
      cases hclosed
    · rw [hempty] at hnone
      cases hnone

theorem Settled.step (h : Settled s) (c : Char) :
    Settled (s.step c) ∧ (s.step c).text = s.text ++ [c] := by
  have hcolon : ¬ (c = ':' ∧ isOpen s.package = true) := by simp [h.package]
  by_cases hslash : c = '/' ∧ isOpen s.type = true
  · obtain ⟨rfl, hopen⟩ := hslash
    obtain ⟨hnone, hne⟩ := h.type.resolve_left (by simp [hopen])
    have hne' : s.current.reverse ≠ [] := by simpa using hne
    have hstep : s.step '/' = { s with type := some s.current.reverse, current := [] } :=
      if_pos ⟨rfl, hopen⟩
    rw [hstep]
    refine ⟨⟨h.package, .inl (isOpen_some hne')⟩, ?_⟩
    simp [text, hnone, ended_of_ne hne', ended_nil]
  · have hstep : s.step c = { s with current := c :: s.current } := by
      rw [Split.step, if_neg hslash, if_neg hcolon]
    rw [hstep]
    refine ⟨⟨h.package, h.type.imp_right fun hnone => ⟨hnone.1, List.cons_ne_nil c _⟩⟩, ?_⟩
    simp [text]

theorem Settled.foldl (h : Settled s) (cs : List Char) :
    Settled (cs.foldl Split.step s) ∧ (cs.foldl Split.step s).text = s.text ++ cs := by
  induction cs generalizing s with
  | nil => exact ⟨h, (List.append_nil _).symm⟩
  | cons c cs ih =>
      obtain ⟨hsettled, htext⟩ := h.step c
      obtain ⟨hend, hall⟩ := ih hsettled
      exact ⟨hend, by rw [List.foldl_cons, hall, htext, List.append_assoc, List.singleton_append]⟩

/-! ## Whole names -/

/-- A split that tells a text and has no empty part in it. -/
structure Tells (s : Split) (cs : List Char) : Prop where
  text : s.text = cs
  package : s.package ≠ some []
  type : s.type ≠ some []

theorem tells_unbroken (h : Unbroken cs) : Tells (cs.foldl step {}) cs := by
  rw [foldl_step (.inl h.slash) (.inl h.colon)]
  exact ⟨by simp [text, ended_nil], nofun, nofun⟩

theorem step_colon (front : List Char) :
    step { current := front.reverse } ':' = { package := some front } := by
  simp [step, isOpen]

theorem step_slash (front : List Char) :
    step { current := front.reverse } '/' = { type := some front } := by
  simp [step, isOpen]

theorem tells_colon (hne : front ≠ []) (hrest : rest.head? ≠ some '/') :
    Tells ((':' :: rest).foldl step { current := front.reverse }) (front ++ ':' :: rest) := by
  have hclosed := isOpen_some hne
  rw [List.foldl_cons, step_colon]
  cases rest with
  | nil => exact ⟨by simp [text, ended_of_ne hne, ended_nil], by simpa using hne, nofun⟩
  | cons c rest =>
      have hslash : c ≠ '/' := fun heq => hrest (by rw [heq]; rfl)
      have hstep : step { package := some front } c =
          { package := some front, current := [c] } := by
        simp [step, hslash, hclosed]
      have hsettled : Settled { package := some front, current := [c] } :=
        ⟨hclosed, .inr ⟨rfl, List.cons_ne_nil c []⟩⟩
      obtain ⟨hend, htext⟩ := hsettled.foldl rest
      rw [List.foldl_cons, hstep]
      exact ⟨htext.trans (by simp [text, ended_of_ne hne, ended_nil]), hend.filled.1, hend.filled.2⟩

theorem tells_slash (hne : front ≠ []) (hrest : ':' ∉ rest) :
    Tells (('/' :: rest).foldl step { current := front.reverse }) (front ++ '/' :: rest) := by
  rw [List.foldl_cons, step_slash, foldl_step (.inr (isOpen_some hne)) (.inl hrest)]
  exact ⟨by simp [text, ended_of_ne hne, ended_nil], nofun, by simpa using hne⟩

/-- A colon in front of everything, or a slash right behind the colon, is not told. -/
theorem text_colon_ne (h : front = [] ∨ rest.head? = some '/') :
    ((':' :: rest).foldl step { current := front.reverse }).text ≠ front ++ ':' :: rest := by
  by_cases hne : front = []
  · subst hne
    exact text_foldl_ne (Nat.le_refl _) (by rw [step_colon]; exact Nat.le_refl _)
  · obtain ⟨rest, rfl⟩ : ∃ more, rest = '/' :: more :=
      ⟨_, List.eq_cons_of_mem_head? (h.resolve_left hne)⟩
    have hread : text { package := some front } = front ++ [':'] := by
      simp [text, ended_of_ne hne, ended_nil]
    have hstep : step { package := some front } '/' =
        { package := some front, type := some [] } := by
      simp [step, isOpen]
    have hlost : ((('/' :: rest).foldl step { package := some front }).text) ≠
        (front ++ [':']) ++ '/' :: rest := by
      refine text_foldl_ne (by rw [hread]) ?_
      rw [hstep]
      exact Nat.le_refl _
    rw [List.foldl_cons, step_colon]
    simpa using hlost

/-- A slash in front of everything is not told, and a colon behind a slash is not told in its
place. -/
theorem text_slash_ne (h : front = [] ∨ ':' ∈ rest) :
    (('/' :: rest).foldl step { current := front.reverse }).text ≠ front ++ '/' :: rest := by
  by_cases hne : front = []
  · subst hne
    exact text_foldl_ne (Nat.le_refl _) (by rw [step_slash]; exact Nat.le_refl _)
  · obtain ⟨middle, rest, rfl, hmiddle⟩ := List.eq_append_cons_of_mem (h.resolve_left hne)
    have hclosed := isOpen_some hne
    -- what stands between the slash and the colon is collected
    rw [List.foldl_cons, step_slash, List.foldl_append, foldl_step (.inr hclosed) (.inl hmiddle),
      List.append_nil]
    have hread : text { type := some front, current := middle.reverse } =
        front ++ '/' :: middle := by
      simp [text, ended_of_ne hne, ended_nil]
    have hcolon : step { type := some front, current := middle.reverse } ':' =
        { package := some middle, type := some front } := by
      simp [step, isOpen]
    by_cases hempty : middle = []
    · subst hempty
      have hlost : ((':' :: rest).foldl step { type := some front }).text ≠
          (front ++ ['/']) ++ ':' :: rest := by
        refine text_foldl_ne (by simpa using (congrArg List.length hread).le) ?_
        rw [show step { type := some front } ':' = _ from hcolon]
        exact Nat.le_refl _
      simpa using hlost
    · -- both parts are ended, in the other order than they were met
      have hsettled : Settled { package := some middle, type := some front } :=
        ⟨isOpen_some hempty, .inl hclosed⟩
      rw [List.foldl_cons, hcolon, (hsettled.foldl rest).2]
      intro heq
      have hsplit : (middle ++ ':' :: front ++ ['/']) ++ rest =
          (front ++ '/' :: middle ++ [':']) ++ rest := by
        simpa [text, ended_of_ne hne, ended_of_ne hempty] using heq
      have hlast := (List.append_inj' (List.append_cancel_right hsplit) rfl).2
      exact absurd hlast (by decide)

theorem tells_of_inOrder (h : InOrder cs) : Tells (cs.foldl step {}) cs := by
  rcases unbroken_or_exists cs with hcs | ⟨front, separator, rest, rfl, hfront, hseparator⟩
  · exact tells_unbroken hcs
  · rw [inOrder_append_cons_iff hfront hseparator] at h
    rw [List.foldl_append, foldl_step (.inl hfront.slash) (.inl hfront.colon), List.append_nil]
    rcases eq_or_of_isSeparator hseparator with rfl | rfl
    · exact tells_colon h.1 h.2
    · exact tells_slash h.1 h.2

theorem inOrder_of_text (h : (cs.foldl step {}).text = cs) : InOrder cs := by
  rcases unbroken_or_exists cs with hcs | ⟨front, separator, rest, rfl, hfront, hseparator⟩
  · exact inOrder_of_unbroken hcs
  · rw [inOrder_append_cons_iff hfront hseparator]
    rw [List.foldl_append, foldl_step (.inl hfront.slash) (.inl hfront.colon),
      List.append_nil] at h
    by_contra hnot
    rcases eq_or_of_isSeparator hseparator with rfl | rfl
    · exact text_colon_ne (or_iff_not_and_not.mpr hnot) h
    · exact text_slash_ne (or_iff_not_and_not.mpr hnot) h

end Split

theorem joined_of_parse? {name : String} {n : ResourceName} (h : parse? name = some n) :
    n.joined = ((withoutSigil name.toList).foldl Split.step {}).text := by
  unfold parse? at h
  dsimp only at h
  split at h
  · cases h
  · cases h
    simp [joined, Split.text]

theorem exists_parse? {name : String} (h : InOrder (withoutSigil name.toList)) :
    ∃ n, parse? name = some n := by
  have htells := Split.tells_of_inOrder h
  exact ⟨_, if_neg (not_or.mpr ⟨htells.package, htells.type⟩)⟩

/-- The parts of a name give its text exactly if the separators are in order, and such a name
always has parts. -/
theorem keepsText_iff (name : String) :
    (KeepsText name ↔ parse? name = none ∨ InOrder (withoutSigil name.toList)) ∧
      (InOrder (withoutSigil name.toList) → ∃ n, parse? name = some n) := by
  refine ⟨⟨fun hkeeps => ?_, ?_⟩, exists_parse?⟩
  · cases hparse : parse? name with
    | none => exact .inl rfl
    | some n =>
        have htext := hkeeps n hparse
        rw [joined_of_parse? hparse] at htext
        exact .inr (Split.inOrder_of_text htext.symm)
  · rintro (hnone | horder) n hparse
    · rw [hnone] at hparse
      cases hparse
    · rw [joined_of_parse? hparse]
      exact (Split.tells_of_inOrder horder).text.symm

/-- The slash in front of a type that is not there is forgotten when the next slash ends one. -/
theorem not_forall_keepsText : ¬ ∀ name, KeepsText name := by
  intro h
  have hparse : parse? "/string/ok" = some ⟨"", "string", "ok"⟩ := by decide +kernel
  exact absurd (h _ _ hparse) (by decide +kernel)

end ResourceName

end AppResources
