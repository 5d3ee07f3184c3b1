import AppResources.Qualifier.Parse

/-!
# No computed script in qualifiers

A tag has its script filled in where it names none, and the locale is marked then. Behind
`b+` this is undone again, so that qualifiers never describe a configuration with a computed
script.

## Main results

* `scriptComputed_ofQualifiers`: qualifiers compute no script.
-/

namespace AppResources

namespace Qualifier

/-- What a token changes leaves no computed script behind. -/
def Meaning.Unscripted : Meaning → Prop
  | .set c => c.locale.scriptComputed = false
  | .language c => c.locale.scriptComputed = false
  | .refused _ => True

variable {c c' : Config}

theorem unscripted_ofResult {result : Except QualifierError Config}
    (h : ∀ c, result = .ok c → c.locale.scriptComputed = false) :
    (Meaning.ofResult result).Unscripted := by
  cases result with
  | error e => trivial
  | ok c => exact h c rfl

theorem unscripted_taggedLocale (tag : List Char) : (taggedLocale tag).scriptComputed = false := by
  unfold taggedLocale
  dsimp only
  split
  · rfl
  · next h => simpa using h

theorem unscripted_applyNumbered {token : List Char} {n : Numbered}
    (hc : c.locale.scriptComputed = false) (h : applyNumbered c token n = .ok c') :
    c'.locale.scriptComputed = false := by
  have hset : ∀ (q : NumberQualifier) (value : UInt16),
      (q.set value c).locale.scriptComputed = false := by
    intro q value
    cases q <;> exact hc
  unfold applyNumbered at h
  split at h
  · cases h
  · split at h
    · cases h
      exact hset _ _
    · split at h
      · cases h
        exact hset _ _
      · cases h

theorem unscripted_applySize {token : List Char} {digits : List Char × List Char}
    (hc : c.locale.scriptComputed = false) (h : applySize c token digits = .ok c') :
    c'.locale.scriptComputed = false := by
  unfold applySize at h
  cases hfirst : readNumber token digits.1 with
  | error e =>
      rw [hfirst] at h
      cases h
  | ok a =>
      cases hsecond : readNumber token digits.2 with
      | error e =>
          rw [hfirst, hsecond] at h
          cases h
      | ok b =>
          rw [hfirst, hsecond] at h
          cases h
          exact hc

theorem unscripted_meaning (token : List Char) (hc : c.locale.scriptComputed = false) :
    (meaning c token).Unscripted := by
  unfold meaning
  split
  · next w _ =>
      change (w.field.set w.value c).locale.scriptComputed = false
      cases w.field <;> exact hc
  · split
    · exact hc
    · split
      · next digits _ =>
          refine unscripted_ofResult fun c' h => ?_
          cases hread : readNumber token digits with
          | error e =>
              rw [hread] at h
              cases h
          | ok d =>
              rw [hread] at h
              cases h
              exact hc
      · split
        · exact unscripted_ofResult fun _ h => unscripted_applySize hc h
        · split
          · exact unscripted_ofResult fun _ h => unscripted_applyNumbered hc h
          · split
            · exact unscripted_taggedLocale _
            · split
              · exact hc
              · trivial

theorem unscripted_of_meaning {token : List Char} {m : Meaning}
    (hc : c.locale.scriptComputed = false) (h : meaning c token = m) : m.Unscripted :=
  h ▸ unscripted_meaning token hc

/-- No token is read in a configuration with a computed script. -/
theorem unscripted_parseTokens {tokens : List (List Char)} (hc : c.locale.scriptComputed = false)
    (h : parseTokens c tokens = .ok c') : c'.locale.scriptComputed = false := by
  fun_induction parseTokens c tokens with
  | case1 c => exact Except.ok.inj h ▸ hc
  | case2 c token last hmeaning => exact Except.ok.inj h ▸ unscripted_of_meaning hc hmeaning
  | case3 c token last hmeaning => exact Except.ok.inj h ▸ unscripted_of_meaning hc hmeaning
  | case4 | case5 => cases h
  | case6 c token next rest changed hmeaning ih => exact ih (unscripted_of_meaning hc hmeaning) h
  | case7 c token next rest changed hmeaning code hregion ih =>
      -- the region that follows leaves the script alone
      have hchanged := unscripted_of_meaning hc hmeaning
      exact ih hchanged h
  | case8 c token next rest changed hmeaning hregion ih =>
      exact ih (unscripted_of_meaning hc hmeaning) h

end Qualifier

namespace Config

theorem scriptComputed_ofQualifiers {text : String} {c : Config} (h : ofQualifiers text = .ok c) :
    c.locale.scriptComputed = false := by
  unfold ofQualifiers at h
  split at h
  · cases h
    rfl
  · exact Qualifier.unscripted_parseTokens rfl h

end Config

end AppResources
