import AppResources.Proofs.NumberedLists
import AppResources.Proofs.Selection
import AppResources.Proofs.WrittenRecords
import AppResources.Table.TypeSpec

/-!
# Calls that build types

The content of a type is put together by calls. What a sequence of calls has put into the type
is told from the calls alone: the axes of an entry add up, and of two entries for one
configuration and index the later one counts. The type that the calls build says the same.

## Main definitions

* `TypeCall`: a call that adds to a type, with `build` running a sequence of them.
* `TypeCall.spec`: the type that calls have put into a package.
* `TypeSource.Reflects`: a type says what calls say.

## Main results

* `Reflects.concat_axes`, `Reflects.concat_entry`: one more call is reflected as well.
* `TypeSource.reflects_build`: a type that was built reflects its calls.
-/

namespace AppResources

/-! ## Calls that add to a type -/

/-- A call that adds to a type. -/
inductive TypeCall where
  /-- Adds an entry to the variant for a configuration. -/
  | entry (index : UInt16) (config : Config) (e : Entry)
  /-- Adds axes to those of an entry. -/
  | axes (index : UInt16) (added : Axes)

namespace TypeCall

/-- The type after a call. -/
def apply (t : TypeSource) : TypeCall → TypeSource
  | .entry index config e => t.addEntry config index.toNat e
  | .axes index added => t.addAxes index.toNat added

/-- The type that calls build. -/
def build (calls : List TypeCall) : TypeSource :=
  calls.foldl apply {}

/-- The index of the entry that a call is about. -/
def index : TypeCall → UInt16
  | .entry index _ _ => index
  | .axes index _ => index

/-- The entry that is added. -/
def added? : TypeCall → Option Entry
  | .entry _ _ e => some e
  | .axes .. => none

/-- The configuration that an entry is added for. -/
def config? : TypeCall → Option Config
  | .entry _ config _ => some config
  | .axes .. => none

/-- The entry that is added for a configuration and an index. -/
def entryFor? (config : Config) (i : Nat) : TypeCall → Option Entry
  | .entry index c e => if c = config ∧ index.toNat = i then some e else none
  | .axes .. => none

/-- The axes that are added to those of an index. -/
def axesFor? (i : Nat) : TypeCall → Option Axes
  | .entry .. => none
  | .axes index added => if index.toNat = i then some added else none

/-- One more than the greatest index that the calls are about. -/
def entryCount (calls : List TypeCall) : Nat :=
  calls.foldl (fun count c => max count (c.index.toNat + 1)) 0

/-- All axes that are added to an entry. -/
def axesAt (calls : List TypeCall) (i : Nat) : Axes :=
  (calls.filterMap (axesFor? i)).foldl Axes.union .none

/-- The configurations that entries are added for, without repetitions. -/
def configs (calls : List TypeCall) : List Config :=
  (calls.filterMap config?).eraseDups

/-- The last entry that is added for a configuration and an index. -/
def entryAt (calls : List TypeCall) (config : Config) (i : Nat) : Option Entry :=
  (calls.filterMap (entryFor? config i)).getLast?

/-- The variant that calls have put into a type for a configuration. -/
def variant (id : UInt8) (calls : List TypeCall) (config : Config) : Variant where
  typeId := id
  flags := 0
  config := config
  entries := ((List.range (entryCount calls)).map fun i =>
    (entryAt calls config i).map Entry.stored).toArray

/-- The type that calls have put into a package. -/
def spec (id : UInt8) (calls : List TypeCall) : TypeSpec where
  id := id
  axes := ((List.range (entryCount calls)).map (axesAt calls)).toArray
  overlay := none
  variants := (configs calls).map (variant id calls)

/-! ### One more call -/

variable {calls : List TypeCall} {c : TypeCall} {config : Config} {i : Nat}

theorem build_concat (calls : List TypeCall) (c : TypeCall) :
    build (calls ++ [c]) = c.apply (build calls) := by
  rw [build, List.foldl_append]
  rfl

theorem entryCount_concat (calls : List TypeCall) (c : TypeCall) :
    entryCount (calls ++ [c]) = max (entryCount calls) (c.index.toNat + 1) := by
  rw [entryCount, List.foldl_append]
  rfl

theorem entryCount_le {bound : Nat} (h : ∀ c ∈ calls, c.index.toNat < bound) :
    entryCount calls ≤ bound := by
  induction calls using List.reverseRecOn with
  | nil => exact Nat.zero_le _
  | append_singleton calls last ih =>
      have hbefore := ih fun c hc => h c (List.mem_append_left _ hc)
      have hlast := h last (List.mem_append_right _ (List.mem_singleton_self _))
      rw [entryCount_concat]
      omega

theorem configs_concat (calls : List TypeCall) (c : TypeCall) :
    configs (calls ++ [c]) =
      match c.config? with
      | some config => if config ∈ configs calls then configs calls else configs calls ++ [config]
      | none => configs calls := by
  cases hconfig : c.config? with
  | none => simp only [configs, List.filterMap_append, List.filterMap_cons, hconfig,
      List.filterMap_nil, List.append_nil]
  | some config =>
      simp only [configs, List.filterMap_append, List.filterMap_cons, hconfig,
        List.filterMap_nil, List.eraseDups_append, List.mem_eraseDups]
      generalize calls.filterMap config? = found
      by_cases hmem : config ∈ found
      · simp [List.removeAll, hmem]
      · simp [List.removeAll, hmem, List.eraseDups_cons]

theorem axesAt_concat (calls : List TypeCall) (c : TypeCall) (i : Nat) :
    axesAt (calls ++ [c]) i = (axesAt calls i).union ((c.axesFor? i).getD .none) := by
  cases hadded : c.axesFor? i with
  | none =>
      simp only [axesAt, List.filterMap_append, List.filterMap_cons, hadded, List.filterMap_nil,
        List.append_nil]
      exact (Axes.union_none _).symm
  | some axes =>
      simp only [axesAt, List.filterMap_append, List.filterMap_cons, hadded, List.filterMap_nil,
        List.foldl_append]
      rfl

theorem entryAt_concat (calls : List TypeCall) (c : TypeCall) (config : Config) (i : Nat) :
    entryAt (calls ++ [c]) config i = (c.entryFor? config i).or (entryAt calls config i) := by
  rw [entryAt, List.filterMap_append, List.getLast?_append]
  cases hadded : c.entryFor? config i with
  | none => simp [hadded, entryAt]
  | some e => simp [hadded]

theorem exists_of_entryAt_eq_some {e : Entry} (h : entryAt calls config i = some e) :
    ∃ c ∈ calls, c.entryFor? config i = some e := by
  obtain ⟨before, hbefore⟩ := List.getLast?_eq_some_iff.mp h
  have hmem : e ∈ calls.filterMap (entryFor? config i) := by
    rw [hbefore]
    exact List.mem_append_right _ (List.mem_singleton_self _)
  exact List.mem_filterMap.mp hmem

theorem entryFor?_eq_some_iff {e : Entry} :
    c.entryFor? config i = some e ↔ ∃ index, c = .entry index config e ∧ index.toNat = i := by
  cases c with
  | entry index other added =>
      rw [entryFor?]
      split
      · next heq =>
        obtain ⟨rfl, rfl⟩ := heq
        constructor
        · intro h
          exact ⟨index, by rw [Option.some.inj h], rfl⟩
        · rintro ⟨_, h, _⟩
          cases h
          rfl
      · next hne =>
        constructor
        · intro h
          cases h
        · rintro ⟨_, h, hi⟩
          cases h
          exact absurd ⟨rfl, hi⟩ hne
  | axes index axes =>
      constructor
      · intro h
        cases h
      · rintro ⟨_, h, _⟩
        cases h

theorem entryAt_eq_none (h : config ∉ configs calls) : entryAt calls config i = none := by
  rw [Option.eq_none_iff_forall_ne_some]
  intro e he
  obtain ⟨c, hc, hadded⟩ := exists_of_entryAt_eq_some he
  obtain ⟨index, rfl, _⟩ := entryFor?_eq_some_iff.mp hadded
  exact h (List.mem_eraseDups.mpr (List.mem_filterMap.mpr ⟨_, hc, rfl⟩))

end TypeCall

/-! ## Types that were built -/

namespace TypeSource

variable {t : TypeSource} {calls : List TypeCall} {config : Config} {index : Nat} {e : Entry}
  {variants : List (Config × List (Nat × Entry))} {v : Config × List (Nat × Entry)}

theorem configs_addToVariant :
    (addToVariant config index e variants).map Prod.fst =
      if config ∈ variants.map Prod.fst then variants.map Prod.fst
      else variants.map Prod.fst ++ [config] := by
  induction variants with
  | nil => rfl
  | cons first rest ih =>
      obtain ⟨c, entries⟩ := first
      rw [addToVariant]
      by_cases hc : c = config
      · subst hc
        rw [if_pos rfl, if_pos (by simp)]
        rfl
      · rw [if_neg hc, List.map_cons, ih]
        have hmem : config ∈ List.map Prod.fst ((c, entries) :: rest) ↔
            config ∈ rest.map Prod.fst := by
          simp [Ne.symm hc]
        by_cases hrest : config ∈ rest.map Prod.fst
        · rw [if_pos hrest, if_pos (hmem.mpr hrest)]
          rfl
        · rw [if_neg hrest, if_neg fun h => hrest (hmem.mp h)]
          rfl

/-- A variant after an entry was added: one of the others, or the one that the entry was
added to. -/
theorem mem_addToVariant (hdistinct : (variants.map Prod.fst).Nodup)
    (hv : v ∈ addToVariant config index e variants) :
    (v.1 ≠ config ∧ v ∈ variants) ∨
      ∃ entries, v = (config, Numbered.insert index e entries) ∧
        ((config, entries) ∈ variants ∨ config ∉ variants.map Prod.fst ∧ entries = []) := by
  induction variants with
  | nil => exact .inr ⟨[], List.mem_singleton.mp hv, .inr ⟨List.not_mem_nil, rfl⟩⟩
  | cons first rest ih =>
      obtain ⟨c, entries⟩ := first
      obtain ⟨hfirst, hrest⟩ := List.nodup_cons.mp hdistinct
      rw [addToVariant] at hv
      by_cases hc : c = config
      · subst hc
        rw [if_pos rfl] at hv
        obtain rfl | hmem := List.mem_cons.mp hv
        · exact .inr ⟨entries, rfl, .inl List.mem_cons_self⟩
        · refine .inl ⟨?_, List.mem_cons_of_mem _ hmem⟩
          intro hv
          have hmapped : v.1 ∈ rest.map Prod.fst := List.mem_map_of_mem hmem
          exact hfirst (hv ▸ hmapped)
      · rw [if_neg hc] at hv
        obtain rfl | hmem := List.mem_cons.mp hv
        · exact .inl ⟨hc, List.mem_cons_self⟩
        · obtain ⟨hne, hold⟩ | ⟨others, hv, hsource⟩ := ih hrest hmem
          · exact .inl ⟨hne, List.mem_cons_of_mem _ hold⟩
          · refine .inr ⟨others, hv, hsource.imp (List.mem_cons_of_mem _) ?_⟩
            rintro ⟨hnot, hempty⟩
            refine ⟨?_, hempty⟩
            rw [List.map_cons, List.mem_cons]
            rintro (heq | hmem)
            · exact hc heq.symm
            · exact hnot hmem

/-- A type says what its calls say. -/
structure Reflects (t : TypeSource) (calls : List TypeCall) : Prop where
  axes_ascending : Numbered.Ascending t.axes
  axes_lookup : ∀ i, (t.axes.lookup i).getD .none = TypeCall.axesAt calls i
  count : t.entryCount = TypeCall.entryCount calls
  distinct : (t.variants.map Prod.fst).Nodup
  configs : t.variants.map Prod.fst = TypeCall.configs calls
  ascending : ∀ v ∈ t.variants, Numbered.Ascending v.2
  entries : ∀ v ∈ t.variants, ∀ i, v.2.lookup i = TypeCall.entryAt calls v.1 i

theorem reflects_nil : ({} : TypeSource).Reflects [] where
  axes_ascending := Numbered.ascending_nil
  axes_lookup _ := rfl
  count := rfl
  distinct := List.nodup_nil
  configs := rfl
  ascending v hv := by cases hv
  entries v hv := by cases hv

/-- Axes are added to an entry alone, and the entry is counted. -/
theorem Reflects.lookup_addAxes (h : t.Reflects calls) (index : Nat) (added : Axes) (i : Nat) :
    ((t.addAxes index added).axes.lookup i).getD .none =
      if i = index then (TypeCall.axesAt calls i).union added else TypeCall.axesAt calls i := by
  rw [addAxes, Numbered.lookup_alter h.axes_ascending]
  split
  · next hi =>
    rw [Option.getD_some, h.axes_lookup, hi]
  · exact h.axes_lookup i

theorem Reflects.entryCount_addAxes (h : t.Reflects calls) (index : Nat) (added : Axes) :
    (t.addAxes index added).entryCount = max (TypeCall.entryCount calls) (index + 1) := by
  rw [← h.count]
  exact Numbered.bound_alter h.axes_ascending

/-- The variant that an entry is added to holds what was added to it before. -/
theorem Reflects.lookup_source (h : t.Reflects calls) {entries : List (Nat × Entry)}
    (hsource : (config, entries) ∈ t.variants ∨
      config ∉ t.variants.map Prod.fst ∧ entries = []) :
    Numbered.Ascending entries ∧ ∀ i, entries.lookup i = TypeCall.entryAt calls config i := by
  obtain hmem | ⟨hnot, rfl⟩ := hsource
  · exact ⟨h.ascending _ hmem, h.entries _ hmem⟩
  · refine ⟨Numbered.ascending_nil, ?_⟩
    intro i
    rw [h.configs] at hnot
    exact (TypeCall.entryAt_eq_none hnot).symm

/-- Axes of an entry keep a type and its calls together. -/
theorem Reflects.concat_axes (h : t.Reflects calls) (index : UInt16) (added : Axes) :
    (t.addAxes index.toNat added).Reflects (calls ++ [.axes index added]) where
  axes_ascending := Numbered.ascending_alter h.axes_ascending
  axes_lookup := by
    intro i
    rw [h.lookup_addAxes, TypeCall.axesAt_concat, TypeCall.axesFor?]
    by_cases hi : i = index.toNat
    · rw [if_pos hi, if_pos hi.symm]
      rfl
    · rw [if_neg hi, if_neg (Ne.symm hi)]
      exact (Axes.union_none _).symm
  count := by
    rw [h.entryCount_addAxes, TypeCall.entryCount_concat]
    rfl
  distinct := h.distinct
  configs := by
    rw [TypeCall.configs_concat]
    exact h.configs
  ascending := h.ascending
  entries := by
    intro v hv i
    rw [TypeCall.entryAt_concat]
    exact h.entries v hv i

/-- An entry keeps a type and its calls together. -/
theorem Reflects.concat_entry (h : t.Reflects calls) (index : UInt16) (config : Config)
    (e : Entry) :
    (t.addEntry config index.toNat e).Reflects (calls ++ [.entry index config e]) where
  axes_ascending := Numbered.ascending_alter h.axes_ascending
  axes_lookup := by
    intro i
    rw [TypeCall.axesAt_concat]
    refine (h.lookup_addAxes index.toNat .none i).trans ?_
    rw [Axes.union_none, ite_self]
    exact (Axes.union_none _).symm
  count := by
    rw [TypeCall.entryCount_concat]
    exact h.entryCount_addAxes index.toNat .none
  distinct := by
    show ((addToVariant config index.toNat e t.variants).map Prod.fst).Nodup
    rw [configs_addToVariant]
    split
    · exact h.distinct
    · next hnot =>
      refine List.nodup_append.mpr ⟨h.distinct, List.pairwise_singleton _ _, ?_⟩
      intro c hc other hother heq
      rw [heq, List.mem_singleton.mp hother] at hc
      exact hnot hc
  configs := by
    show (addToVariant config index.toNat e t.variants).map Prod.fst = _
    rw [configs_addToVariant, h.configs, TypeCall.configs_concat]
    rfl
  ascending := by
    intro v hv
    obtain ⟨_, hold⟩ | ⟨entries, rfl, hsource⟩ := mem_addToVariant h.distinct hv
    · exact h.ascending v hold
    · exact Numbered.ascending_alter (h.lookup_source hsource).1
  entries := by
    intro v hv i
    rw [TypeCall.entryAt_concat, TypeCall.entryFor?]
    obtain ⟨hne, hold⟩ | ⟨entries, rfl, hsource⟩ := mem_addToVariant h.distinct hv
    · have hother : ¬ (config = v.1 ∧ index.toNat = i) := fun hsame => hne hsame.1.symm
      rw [if_neg hother]
      exact h.entries v hold i
    · obtain ⟨hascending, hlookup⟩ := h.lookup_source hsource
      rw [Numbered.insert, Numbered.lookup_alter hascending]
      by_cases hi : i = index.toNat
      · rw [if_pos hi, if_pos ⟨rfl, hi.symm⟩]
        rfl
      · rw [if_neg hi, if_neg fun hsame => hi hsame.2.symm]
        exact hlookup i

/-- A type that was built says what its calls say. -/
theorem reflects_build (calls : List TypeCall) : (TypeCall.build calls).Reflects calls := by
  induction calls using List.reverseRecOn with
  | nil => exact reflects_nil
  | append_singleton calls c ih =>
      rw [TypeCall.build_concat]
      cases c with
      | entry index config e => exact ih.concat_entry index config e
      | axes index added => exact ih.concat_axes index added

end TypeSource

end AppResources
