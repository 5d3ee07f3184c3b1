import AppResources.Bag
import Mathlib.Data.List.Nodup
import Mathlib.Data.List.TakeDrop
import Mathlib.Data.List.TakeWhile

/-!
# Merging and searching by ascending keys

The entries of a bag are searched by bisection, which is right if their keys ascend. Merging
keeps the order of both lists, and it does not make any: the merged list ascends exactly if
the list of the bag and that of its parent do.

## Main results

* `ascends_merge_iff`: when a merged list ascends.
* `find?_entries_merge`: under a key the entry of the bag counts, and else that of its parent.
* `find?_eq_some_iff`: in a bag with ascending keys every entry is found under its key.
* `ascends_iff_bisect`: without the order there is an entry that the bisection misses.
-/

namespace AppResources

namespace Bag

/-- The keys ascend, and no key comes twice. -/
def Ascends (entries : List BagEntry) : Prop := (entries.map (·.key)).Pairwise (· < ·)

instance (entries : List BagEntry) : Decidable (Ascends entries) := by
  unfold Ascends
  infer_instance

variable {child parent before rest : List BagEntry} {c e : BagEntry} {k x : ResourceId} {b : Bag}

/-! ## Merging -/

theorem ascends_cons_iff :
    Ascends (e :: rest) ↔ (∀ k ∈ rest.map (·.key), e.key < k) ∧ Ascends rest := by
  unfold Ascends
  rw [List.map_cons, List.pairwise_cons]

theorem merge_cons : merge (c :: child) parent =
    parent.takeWhile (·.key < c.key) ++
      c :: merge child (withoutKey c.key (parent.dropWhile (·.key < c.key))) := by
  rw [merge, List.span_eq_takeWhile_dropWhile]

theorem mem_keys_withoutKey :
    (k = x ∨ k ∈ (withoutKey x rest).map (·.key)) ↔ (k = x ∨ k ∈ rest.map (·.key)) := by
  cases rest with
  | nil => rfl
  | cons e rest =>
      by_cases hkey : e.key = x
      · rw [withoutKey, if_pos hkey, List.map_cons, List.mem_cons, hkey, or_self_left]
      · rw [withoutKey, if_neg hkey]

/-- Merging keeps the keys of both lists. -/
theorem mem_keys_merge : k ∈ (merge child parent).map (·.key) ↔
    k ∈ child.map (·.key) ∨ k ∈ parent.map (·.key) := by
  induction child generalizing parent with
  | nil => simp [merge]
  | cons c child ih =>
      have hparent := List.takeWhile_append_dropWhile (p := (·.key < c.key)) (l := parent)
      have hrest := @mem_keys_withoutKey (parent.dropWhile (·.key < c.key)) k c.key
      have hsplit : k ∈ parent.map (·.key) ↔
          k ∈ (parent.takeWhile (·.key < c.key)).map (·.key) ∨
            k ∈ (parent.dropWhile (·.key < c.key)).map (·.key) := by
        rw [← List.mem_append, ← List.map_append, hparent]
      rw [merge_cons, List.map_append, List.mem_append, List.map_cons, List.mem_cons, ih, hsplit,
        List.map_cons, List.mem_cons]
      constructor
      · rintro (h | h | h | h)
        · exact Or.inr (Or.inl h)
        · exact Or.inl (Or.inl h)
        · exact Or.inl (Or.inr h)
        · exact (hrest.mp (Or.inr h)).imp Or.inl Or.inr
      · rintro ((h | h) | h | h)
        · exact Or.inr (Or.inl h)
        · exact Or.inr (Or.inr (Or.inl h))
        · exact Or.inl h
        · exact Or.inr ((hrest.mpr (Or.inr h)).imp id Or.inr)

theorem withoutKey_sublist (x : ResourceId) (rest : List BagEntry) :
    (withoutKey x rest).Sublist rest := by
  cases rest with
  | nil => exact .refl _
  | cons e rest =>
      by_cases hkey : e.key = x
      · rw [withoutKey, if_pos hkey]
        exact List.sublist_cons_self e rest
      · rw [withoutKey, if_neg hkey]

/-- Merging makes up no entries. -/
theorem mem_of_mem_merge (h : e ∈ merge child parent) : e ∈ child ∨ e ∈ parent := by
  induction child generalizing parent with
  | nil => exact .inr h
  | cons c child ih =>
      rw [merge_cons, List.mem_append, List.mem_cons] at h
      rcases h with h | rfl | h
      · exact .inr ((List.takeWhile_sublist _).subset h)
      · exact .inl List.mem_cons_self
      · rcases ih h with h | h
        · exact .inl (List.mem_cons_of_mem _ h)
        · exact .inr ((List.dropWhile_sublist _).subset ((withoutKey_sublist _ _).subset h))

/-- What is left behind an entry whose key is not exceeded by the first one. -/
theorem ascends_withoutKey_iff (hfirst : ∀ e ∈ rest.head?, x ≤ e.key) :
    ((∀ k ∈ (withoutKey x rest).map (·.key), x < k) ∧ Ascends (withoutKey x rest)) ↔
      Ascends rest := by
  cases rest with
  | nil => simp [withoutKey, Ascends]
  | cons e rest =>
      have hle : x ≤ e.key := hfirst e rfl
      by_cases hkey : e.key = x
      · rw [withoutKey, if_pos hkey, ascends_cons_iff, hkey]
      · rw [withoutKey, if_neg hkey]
        refine ⟨And.right, fun h => ⟨fun k hk => ?_, h⟩⟩
        have hlt : x < e.key := UInt32.lt_of_le_of_ne hle (Ne.symm hkey)
        rcases List.mem_cons.mp hk with rfl | hk
        · exact hlt
        · exact UInt32.lt_trans hlt ((ascends_cons_iff.mp h).1 k hk)

theorem lt_of_mem_takeWhile (h : k ∈ (parent.takeWhile (·.key < x)).map (·.key)) : k < x := by
  obtain ⟨e, he, rfl⟩ := List.mem_map.mp h
  simpa using List.mem_takeWhile_imp he

theorem le_of_mem_head?_dropWhile (h : e ∈ (parent.dropWhile (·.key < x)).head?) : x ≤ e.key := by
  have hnot := List.head?_dropWhile_not (·.key < x) parent
  rw [Option.mem_def.mp h] at hnot
  simpa using hnot

/-- Entries below a key in front of entries that reach it. -/
theorem ascends_append_iff (hbefore : ∀ k ∈ before.map (·.key), k < x)
    (hfirst : ∀ e ∈ rest.head?, x ≤ e.key) :
    Ascends (before ++ rest) ↔ Ascends before ∧ Ascends rest := by
  unfold Ascends
  rw [List.map_append, List.pairwise_append]
  refine ⟨fun h => ⟨h.1, h.2.1⟩, fun h => ⟨h.1, h.2, ?_⟩⟩
  intro k hk l hl
  cases rest with
  | nil => cases hl
  | cons first rest =>
      have hlow : k < first.key := UInt32.lt_of_lt_of_le (hbefore k hk) (hfirst first rfl)
      rcases List.mem_cons.mp hl with rfl | hl
      · exact hlow
      · exact UInt32.lt_trans hlow ((ascends_cons_iff.mp h.2).1 l hl)

/-- Entries before the first one that reaches a key, and entries from there on. -/
theorem ascends_iff_split :
    Ascends parent ↔ Ascends (parent.takeWhile (·.key < x)) ∧
      Ascends (parent.dropWhile (·.key < x)) := by
  rw [← ascends_append_iff (fun _ => lt_of_mem_takeWhile) (fun _ => le_of_mem_head?_dropWhile),
    List.takeWhile_append_dropWhile]

theorem ascends_merge_iff : Ascends (merge child parent) ↔ Ascends child ∧ Ascends parent := by
  induction child generalizing parent with
  | nil => simp [merge, Ascends]
  | cons c child ih =>
      have hbefore : ∀ k ∈ (parent.takeWhile (·.key < c.key)).map (·.key), k < c.key :=
        fun _ => lt_of_mem_takeWhile
      have hfirst : ∀ e ∈ (parent.dropWhile (·.key < c.key)).head?, c.key ≤ e.key :=
        fun _ => le_of_mem_head?_dropWhile
      rw [merge_cons, @ascends_iff_split parent c.key,
        ← ascends_withoutKey_iff hfirst, ascends_cons_iff]
      generalize parent.takeWhile (·.key < c.key) = before at hbefore ⊢
      generalize withoutKey c.key (parent.dropWhile (·.key < c.key)) = rest
      have hmerged : Ascends (before ++ c :: merge child rest) ↔
          Ascends before ∧ Ascends (c :: merge child rest) := by
        refine ascends_append_iff hbefore fun e he => ?_
        obtain rfl := Option.mem_some_iff.mp he
        exact UInt32.le_refl _
      rw [hmerged, ascends_cons_iff, ih]
      simp only [mem_keys_merge, or_imp, forall_and]
      constructor
      · rintro ⟨hascends, ⟨hchild, hrest⟩, hchildAscends, hrestAscends⟩
        exact ⟨⟨hchild, hchildAscends⟩, hascends, hrest, hrestAscends⟩
      · rintro ⟨⟨hchild, hchildAscends⟩, hascends, hrest, hrestAscends⟩
        exact ⟨hascends, ⟨hchild, hrest⟩, hchildAscends, hrestAscends⟩

theorem key_of_find? (h : rest.find? (·.key == k) = some e) : e.key = k := by
  simpa using List.find?_some h

/-- Leaving out an entry under another key does not hide anything. -/
theorem find?_withoutKey (hk : k ≠ x) :
    (withoutKey x rest).find? (·.key == k) = rest.find? (·.key == k) := by
  cases rest with
  | nil => rfl
  | cons e rest =>
      by_cases hkey : e.key = x
      · have hne : (e.key == k) = false := beq_false_of_ne fun heq => hk (heq.symm.trans hkey)
        rw [withoutKey, if_pos hkey, List.find?_cons, hne]
      · rw [withoutKey, if_neg hkey]

/-- Under a key the entry of the bag counts, and that of its parent where there is none. -/
theorem find?_entries_merge (h : Ascends child) :
    (merge child parent).find? (·.key == k) =
      (child.find? (·.key == k)).or (parent.find? (·.key == k)) := by
  induction child generalizing parent with
  | nil => rfl
  | cons c child ih =>
      obtain ⟨habove, hchild⟩ := ascends_cons_iff.mp h
      have hsplit : parent.find? (·.key == k) =
          ((parent.takeWhile (·.key < c.key)).find? (·.key == k)).or
            ((parent.dropWhile (·.key < c.key)).find? (·.key == k)) := by
        rw [← List.find?_append, List.takeWhile_append_dropWhile]
      rw [merge_cons, List.find?_append, List.find?_cons, List.find?_cons]
      by_cases hk : c.key = k
      · -- the entries in front have lesser keys
        have hbefore : (parent.takeWhile (·.key < c.key)).find? (·.key == k) = none := by
          rw [List.find?_eq_none]
          intro e he heq
          have hlt : e.key < c.key := lt_of_mem_takeWhile (List.mem_map_of_mem he)
          rw [hk, eq_of_beq heq] at hlt
          exact UInt32.lt_irrefl _ hlt
        rw [hbefore, Option.none_or, beq_iff_eq.mpr hk]
        rfl
      · rw [beq_false_of_ne hk, ih hchild, find?_withoutKey fun heq => hk heq.symm, hsplit]
        cases hbefore : (parent.takeWhile (·.key < c.key)).find? (·.key == k) with
        | none => simp
        | some e =>
            -- a key below that of the first entry is not among those behind it
            have hlt : e.key < c.key :=
              lt_of_mem_takeWhile (List.mem_map_of_mem (List.mem_of_find?_eq_some hbefore))
            have hkey : e.key = k := key_of_find? hbefore
            have hnone : child.find? (·.key == k) = none := by
              rw [List.find?_eq_none]
              intro e' he' heq
              have hgt := habove e'.key (List.mem_map_of_mem he')
              rw [eq_of_beq heq, ← hkey] at hgt
              exact UInt32.lt_irrefl _ (UInt32.lt_trans hlt hgt)
            simp [hnone]

/-! ## Searching -/

section Search

variable {entries : Array BagEntry} {base size i j : Nat}

/-- One step of a bisection: it goes on in the upper part unless the middle entry exceeds
the key. -/
theorem bisect_step (hsize : 1 < size) (hmiddle : base + size / 2 < entries.size) :
    bisect entries k base size =
      if k < entries[base + size / 2].key then bisect entries k base (size - size / 2)
      else bisect entries k (base + size / 2) (size - size / 2) := by
  rw [bisect, if_neg (by omega)]
  simp only [Array.getElem?_eq_getElem hmiddle, Option.all_some, decide_eq_true_eq]
  split <;> rfl

theorem bisect_of_le_one (hsize : size ≤ 1) : bisect entries k base size = base := by
  rw [bisect, if_pos hsize]

/-- A bisection stays in its range. -/
theorem bisect_mem (hbound : base + size ≤ entries.size) :
    base ≤ bisect entries k base size ∧ bisect entries k base size < base + max size 1 := by
  induction size using Nat.strongRecOn generalizing base with
  | ind size ih =>
      by_cases hsize : size ≤ 1
      · rw [bisect_of_le_one hsize]
        omega
      · rw [bisect_step (by omega) (by omega)]
        split
        · have hlow := @ih (size - size / 2) (by omega) base (by omega)
          omega
        · have hhigh := @ih (size - size / 2) (by omega) (base + size / 2) (by omega)
          omega

/-- A bisection for the key of an entry of its range ends there, if the keys ascend. -/
theorem bisect_eq
    (hascends : ∀ i j (hi : i < entries.size) (hj : j < entries.size), i < j →
      entries[i].key < entries[j].key)
    (hi : i < entries.size) (hbound : base + size ≤ entries.size) (hlow : base ≤ i)
    (hhigh : i < base + size) : bisect entries entries[i].key base size = i := by
  induction size using Nat.strongRecOn generalizing base with
  | ind size ih =>
      by_cases hsize : size ≤ 1
      · rw [bisect_of_le_one hsize]
        omega
      · have hmiddle : base + size / 2 < entries.size := by omega
        rw [bisect_step (by omega) hmiddle]
        split
        · next hexceeds =>
            have hbefore : i < base + size / 2 := by
              by_contra hnot
              rcases Nat.lt_or_eq_of_le (Nat.le_of_not_lt hnot) with hlt | heq
              · exact UInt32.lt_irrefl _ (UInt32.lt_trans hexceeds (hascends _ _ hmiddle hi hlt))
              · subst heq
                exact UInt32.lt_irrefl _ hexceeds
            exact ih (size - size / 2) (by omega) (by omega) hlow (by omega)
        · next hreaches =>
            have hbehind : base + size / 2 ≤ i := by
              by_contra hnot
              exact hreaches (hascends _ _ hi hmiddle (Nat.lt_of_not_le hnot))
            exact ih (size - size / 2) (by omega) (by omega) hbehind (by omega)

/-- Two entries that are both found by bisection are in order: the step that separates them
puts the middle key between theirs. -/
theorem lt_of_bisect_eq (hi : i < entries.size) (hj : j < entries.size) (hij : i < j)
    (hbound : base + size ≤ entries.size)
    (hfoundI : bisect entries entries[i].key base size = i)
    (hfoundJ : bisect entries entries[j].key base size = j) :
    entries[i].key < entries[j].key := by
  induction size using Nat.strongRecOn generalizing base with
  | ind size ih =>
      by_cases hsize : size ≤ 1
      · rw [bisect_of_le_one hsize] at hfoundI hfoundJ
        omega
      · have hmiddle : base + size / 2 < entries.size := by omega
        rw [bisect_step (by omega) hmiddle] at hfoundI hfoundJ
        by_cases hexceedsI : entries[i].key < entries[base + size / 2].key
        · by_cases hexceedsJ : entries[j].key < entries[base + size / 2].key
          · rw [if_pos hexceedsI] at hfoundI
            rw [if_pos hexceedsJ] at hfoundJ
            exact ih (size - size / 2) (by omega) (by omega) hfoundI hfoundJ
          · exact UInt32.lt_of_lt_of_le hexceedsI (UInt32.not_lt.mp hexceedsJ)
        · by_cases hexceedsJ : entries[j].key < entries[base + size / 2].key
          · -- the later entry lies below the middle one, and the earlier one does not
            rw [if_neg hexceedsI] at hfoundI
            rw [if_pos hexceedsJ] at hfoundJ
            have hmemI := bisect_mem (k := entries[i].key)
              (show base + size / 2 + (size - size / 2) ≤ entries.size by omega)
            have hmemJ := bisect_mem (k := entries[j].key)
              (show base + (size - size / 2) ≤ entries.size by omega)
            have hmiddleJ : j = base + size / 2 := by omega
            subst hmiddleJ
            exact absurd hexceedsJ (UInt32.lt_irrefl _)
          · rw [if_neg hexceedsI] at hfoundI
            rw [if_neg hexceedsJ] at hfoundJ
            exact ih (size - size / 2) (by omega) (by omega) hfoundI hfoundJ

end Search

/-- The keys ascend exactly if the bisection for the key of any entry ends at the entry. -/
theorem ascends_iff_bisect : Ascends b.entries ↔
    ∀ i (hi : i < b.entries.length),
      bisect b.entries.toArray b.entries[i].key 0 b.entries.toArray.size = i := by
  have hsorted : Ascends b.entries ↔ ∀ i j (hi : i < b.entries.length) (hj : j < b.entries.length),
      i < j → b.entries[i].key < b.entries[j].key := by
    rw [Ascends, List.pairwise_map, List.pairwise_iff_getElem]
  rw [hsorted]
  constructor
  · intro h i hi
    exact @bisect_eq b.entries.toArray _ _ i h hi (by omega) (by omega) (by simpa using hi)
  · intro h i j hi hj hij
    have hbound : 0 + b.entries.toArray.size ≤ b.entries.toArray.size := by omega
    exact lt_of_bisect_eq hi hj hij hbound (h i hi) (h j hj)

/-- In a bag with ascending keys an entry is found under its key, and nothing else. -/
theorem find?_eq_some_iff (h : Ascends b.entries) :
    b.find? k = some e ↔ e ∈ b.entries ∧ e.key = k := by
  unfold find?
  simp only [Option.filter_eq_some_iff, beq_iff_eq, List.getElem?_toArray]
  constructor
  · rintro ⟨hfound, hkey⟩
    exact ⟨List.mem_of_getElem? hfound, hkey⟩
  · rintro ⟨hmem, rfl⟩
    obtain ⟨i, hi, rfl⟩ := List.mem_iff_getElem.mp hmem
    rw [ascends_iff_bisect.mp h i hi]
    exact ⟨List.getElem?_eq_getElem hi, rfl⟩

/-- Of entries with ascending keys there is one under a key at most. -/
theorem eq_of_key_eq (h : Ascends rest) {e' : BagEntry} (he : e ∈ rest) (he' : e' ∈ rest)
    (hkey : e.key = e'.key) : e = e' := by
  have hnodup : (rest.map (·.key)).Nodup := List.Pairwise.imp UInt32.ne_of_lt h
  exact List.inj_on_of_nodup_map hnodup he he' hkey

/-- In a bag with ascending keys the bisection finds what a search from the first entry on
finds. -/
theorem find?_eq_find?_entries (h : Ascends b.entries) :
    b.find? k = b.entries.find? (·.key == k) := by
  apply Option.ext
  intro e
  rw [find?_eq_some_iff h]
  constructor
  · rintro ⟨he, rfl⟩
    have hfound : (b.entries.find? (·.key == e.key)).isSome = true := by
      rw [List.find?_isSome]
      exact ⟨e, he, beq_self_eq_true _⟩
    obtain ⟨e', he'⟩ := Option.isSome_iff_exists.mp hfound
    have hkey : e'.key = e.key := key_of_find? he'
    rw [he', eq_of_key_eq h (List.mem_of_find?_eq_some he') he hkey]
  · intro hfound
    exact ⟨List.mem_of_find?_eq_some hfound, key_of_find? hfound⟩

end Bag

end AppResources
