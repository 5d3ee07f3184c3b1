import AppResources.LoadError

/-!
# Reads that stay inside their buffer

The loaders take ranges, words and differences that their own earlier checks promise. Where
such a promise fails the result is an error that holds a `ReadFault`. A result is *safe* for a
property if it is no such error and if its value, where there is one, has the property. The
rules here say what the ways to build results preserve.

## Main definitions

* `HasFault`: the errors among which there are read faults.
* `Safe`: no read fault, and a value with a property.

## Main results

* `Safe.bind`, `Safe.mapM_range`, `Safe.foldlM`: sequences and loops of safe steps are safe.
* `safe_slice`, `safe_word32At` and so on: reads are safe inside their buffer.
-/

namespace AppResources

/-- Errors among which there are faults of reads. -/
class HasFault (ε : Type) where
  /-- The fault that an error holds. -/
  fault? : ε → Option ReadFault

instance : HasFault ReadFault := ⟨some⟩

instance : HasFault ChunkFault := ⟨fun e => match e with
  | .fault f => some f
  | _ => none⟩

instance : HasFault PoolFault := ⟨fun e => match e with
  | .fault f => some f
  | _ => none⟩

instance : HasFault EntryFault := ⟨fun e => match e with
  | .fault f => some f
  | _ => none⟩

instance : HasFault VariantFault := ⟨fun e => match e with
  | .fault f => some f
  | .entry e => HasFault.fault? e
  | _ => none⟩

instance : HasFault VariantError := ⟨fun e => match e with
  | .invalid _ e => HasFault.fault? e
  | .header => none⟩

instance : HasFault TypeSpecFault := ⟨fun e => match e with
  | .fault f => some f
  | _ => none⟩

instance : HasFault TypeSpecError := ⟨fun e => match e with
  | .invalid _ e => HasFault.fault? e
  | .header => none⟩

instance : HasFault LibraryFault := ⟨fun e => match e with
  | .fault f => some f
  | _ => none⟩

instance : HasFault IdmapFault := ⟨fun e => match e with
  | .fault f => some f
  | _ => none⟩

instance : HasFault XmlFault := ⟨fun e => match e with
  | .fault f => some f
  | _ => none⟩

instance : HasFault LoadError := ⟨fun e => match e with
  | .chunk e => HasFault.fault? e
  | .stringPool e => HasFault.fault? e
  | .typeSpec _ e => HasFault.fault? e
  | .variant _ e => HasFault.fault? e
  | .library e => HasFault.fault? e
  | .idmap e => HasFault.fault? e
  | .document e => HasFault.fault? e
  | _ => none⟩

/-! ## Safe results -/

section Rules

variable {ε ε' α β σ : Type} [HasFault ε] [HasFault ε']

/-- A result that is no read fault, and whose value has a property. -/
def Safe (r : Except ε α) (P : α → Prop) : Prop :=
  match r with
  | .ok a => P a
  | .error e => HasFault.fault? e = none

variable {P Q : α → Prop} {R : β → Prop} {r : Except ε α}

theorem Safe.mono (h : Safe r P) (hPQ : ∀ a, P a → Q a) : Safe r Q := by
  cases r with
  | ok a => exact hPQ a h
  | error e => exact h

theorem Safe.of_ok {a : α} (h : Safe r P) (hr : r = .ok a) : P a := by
  subst hr
  exact h

theorem Safe.fault_eq_none {e : ε} (h : Safe r P) (hr : r = .error e) :
    HasFault.fault? e = none := by
  subst hr
  exact h

/-- A read that is safe has a value. -/
theorem Safe.exists_ok {r : Except ReadFault α} (h : Safe r P) : ∃ a, r = .ok a ∧ P a := by
  cases r with
  | ok a => exact ⟨a, rfl, h⟩
  | error f => cases h

theorem Safe.bind {f : α → Except ε β} (h : Safe r P) (hf : ∀ a, P a → Safe (f a) R) :
    Safe (r >>= f) R := by
  cases r with
  | ok a => exact hf a h
  | error e => exact h

/-- A read that is safe stays so under errors of another kind. -/
theorem Safe.mapError {r : Except ReadFault α} (h : Safe r P) (g : ReadFault → ε) :
    Safe (r.mapError g) P := by
  obtain ⟨a, rfl, ha⟩ := h.exists_ok
  exact ha

theorem Safe.mapM {f : α → Except ε β} {xs : List α} (h : ∀ x ∈ xs, Safe (f x) R) :
    Safe (xs.mapM f) fun ys => ys.length = xs.length ∧ ∀ y ∈ ys, R y := by
  induction xs with
  | nil => exact ⟨rfl, fun y hy => absurd hy List.not_mem_nil⟩
  | cons x xs ih =>
      obtain ⟨hx, hxs⟩ := List.forall_mem_cons.mp h
      rw [List.mapM_cons]
      refine hx.bind fun y hy => (ih hxs).bind fun ys hys => ?_
      exact ⟨congrArg (· + 1) hys.1, List.forall_mem_cons.mpr ⟨hy, hys.2⟩⟩

theorem Safe.mapM_range {f : Nat → Except ε β} {n : Nat} (h : ∀ i < n, Safe (f i) R) :
    Safe ((List.range n).mapM f) fun ys => ys.length = n ∧ ∀ y ∈ ys, R y := by
  have hall : ∀ i ∈ List.range n, Safe (f i) R := fun i hi => h i (List.mem_range.mp hi)
  have hrun := Safe.mapM hall
  rwa [List.length_range] at hrun

/-- A loop is safe if every step keeps an invariant. -/
theorem Safe.foldlM {step : σ → α → Except ε σ} {xs : List α} {I : σ → Prop} {s : σ} (hs : I s)
    (hstep : ∀ s, I s → ∀ x ∈ xs, Safe (step s x) I) : Safe (xs.foldlM step s) I := by
  induction xs generalizing s with
  | nil => exact hs
  | cons x xs ih =>
      rw [List.foldlM_cons]
      refine (hstep s hs x List.mem_cons_self).bind fun s' hs' => ?_
      exact ih hs' fun t ht y hy => hstep t ht y (List.mem_cons_of_mem x hy)

end Rules

/-! ## Reads -/

namespace Bytes

variable {b : ByteArray} {i start stop : Nat}

theorem exists_word16? (h : i + 2 ≤ b.size) : ∃ v, word16? b i = some v := by
  unfold word16?
  rw [getElem?_pos b i (by omega), getElem?_pos b (i + 1) (by omega)]
  exact ⟨_, rfl⟩

theorem exists_word32? (h : i + 4 ≤ b.size) : ∃ v, word32? b i = some v := by
  unfold word32?
  rw [getElem?_pos b i (by omega), getElem?_pos b (i + 1) (by omega),
    getElem?_pos b (i + 2) (by omega), getElem?_pos b (i + 3) (by omega)]
  exact ⟨_, rfl⟩

theorem exists_byte? (h : i < b.size) : ∃ v, byte? b i = some v :=
  ⟨_, getElem?_pos b i h⟩

theorem le_of_word32? {v : UInt32} (h : word32? b i = some v) : i + 4 ≤ b.size := by
  unfold word32? at h
  split at h
  · next hlast =>
      have := (getElem?_eq_some_iff.mp hlast).1
      omega
  · cases h

theorem safe_within (h : start ≤ stop ∧ stop ≤ b.size) : Safe (within b start stop) fun _ => True := by
  rw [within, if_pos h]
  trivial

theorem safe_slice (h : start ≤ stop ∧ stop ≤ b.size) :
    Safe (slice b start stop) fun s => s = b.extract start stop ∧ s.size = stop - start := by
  rw [slice, if_pos h]
  refine ⟨rfl, ?_⟩
  rw [ByteArray.size_extract]
  omega

theorem safe_word16At (h : i + 2 ≤ b.size) : Safe (word16At b i) fun _ => True := by
  obtain ⟨v, hv⟩ := exists_word16? h
  rw [word16At, hv]
  trivial

theorem safe_word32At (h : i + 4 ≤ b.size) : Safe (word32At b i) fun _ => True := by
  obtain ⟨v, hv⟩ := exists_word32? h
  rw [word32At, hv]
  trivial

theorem safe_minus {a c : Nat} (h : c ≤ a) : Safe (minus a c) (· = a - c) := by
  rw [minus, if_pos h]
  rfl

end Bytes

end AppResources
