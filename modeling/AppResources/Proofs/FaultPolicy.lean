import AppResources.Proofs.ChunkWalk
import AppResources.Proofs.LoadSafety

/-!
# Broken bytes in a table file

Files are known to carry broken bytes behind their last chunk. A walk that ends in such a fault
found the same chunks as the walk over the file without those bytes, and a table is loaded as
if they were not there. Any other fault means that the file cannot be trusted: whether it is met
among the chunks of the file, inside a table or inside a package, and whatever was loaded
before, the file is refused.

## Main definitions

* `Refused`: a computation ends in an error.
* `Table.MeetsFatal`: one of the walks over a file meets a fatal fault.

## Main results

* `Contiguous.walkFrom_extract`: the walk over a buffer that was cut behind a chunk.
* `Table.refused_load`: a fatal fault anywhere refuses the file.
* `Table.load_fault_policy`: both rules.
-/

namespace AppResources

/-! ## Errors end loops -/

/-- A computation ends in an error. -/
def Refused {ε α : Type} (r : Except ε α) : Prop := ∃ e, r = .error e

namespace Refused

variable {ε α β σ : Type}

theorem error (e : ε) : Refused (.error e : Except ε α) := ⟨e, rfl⟩

theorem bind_left {x : Except ε α} {f : α → Except ε β} (h : Refused x) : Refused (x >>= f) := by
  obtain ⟨e, rfl⟩ := h
  exact error e

theorem bind {x : Except ε α} {f : α → Except ε β} (h : ∀ a, Refused (f a)) :
    Refused (x >>= f) := by
  cases x with
  | error e => exact error e
  | ok a => exact h a

/-- One step that fails in every state lets the loop fail. -/
theorem foldlM {step : σ → α → Except ε σ} {xs : List α} {x : α} (hx : x ∈ xs)
    (h : ∀ s, Refused (step s x)) (s : σ) : Refused (xs.foldlM step s) := by
  induction xs generalizing s with
  | nil => exact absurd hx List.not_mem_nil
  | cons y ys ih =>
      rw [List.foldlM_cons]
      rcases List.mem_cons.mp hx with rfl | hx
      · exact bind_left (h s)
      · exact bind (ih hx)

end Refused

/-! ## Walks over a file that was cut -/

/-- Cut right behind chunks, a buffer is walked over these chunks to its end. -/
theorem Contiguous.walkFrom_extract {b : ByteArray} {i position : Nat} {cs : List Chunk}
    (h : Contiguous b i position cs) (hi : i ≤ b.size) :
    walkFrom (b.extract 0 (i + Chunk.span cs)) i position = ⟨cs, none⟩ := by
  have hsize : ∀ n, n ≤ b.size → (b.extract 0 n).size = n := by
    intro n hn
    rw [ByteArray.size_extract, Nat.min_eq_left hn, Nat.sub_zero]
  -- where the buffer ends is the same for every tail of the chunks
  induction h with
  | @nil i position =>
      exact walkFrom_of_le (by rw [Chunk.span_nil, Nat.add_zero, hsize i hi])
  | @cons i position c cs hc htail ih =>
      have hend := htail.add_span_le hc.inside
      have hrest := ih hc.inside
      have hcovers := hc.covers
      have hle := hc.headerSize_le
      simp only [chunkHeaderSize] at hcovers
      rw [Chunk.span_cons, ← Nat.add_assoc]
      have hread := (hc.extract (Nat.le_add_right _ (Chunk.span cs))).readChunk_eq
      rw [walkFrom_of_ok (by rw [hsize _ hend]; omega) hread, hrest]

theorem framed_of_mem_walkAt {b : ByteArray} {position : Nat} {c : Chunk}
    (h : c ∈ (walkAt b position).chunks) : c.Framed :=
  (walkAt_sound b position).framed c h

theorem Walk.fatal?_eq {w : Walk} {f : ChunkFault} (h : w.fault = some f) (hf : f.isFatal) :
    w.fatal? = some f :=
  Option.filter_eq_some_iff.mpr ⟨h, hf⟩

theorem Walk.fatal?_eq_none {w : Walk} {f : ChunkFault} (h : w.fault = some f)
    (hf : f.isFatal = false) : w.fatal? = none := by
  rw [fatal?, h, Option.filter_some, hf]
  rfl

/-! ## Fatal faults -/

variable {mode : LoadMode} {c p : Chunk} {f : ChunkFault}

theorem Package.refused_load (hc : c.Framed) (h : c.children.fatal? = some f) :
    Refused (load c mode) := by
  unfold load
  split
  · exact .error _
  rw [hc.frame_eq]
  dsimp only
  split
  · exact .error _
  split
  · exact .error _
  split
  · exact .error _
  refine .bind fun found => ?_
  have hfatal : (walkAt c.payload c.payloadPosition).fatal? = some f := h
  rw [hfatal]
  exact .error _

namespace Table

/-- One of the walks over a file meets a fault after which nothing of it counts. -/
inductive MeetsFatal (b : ByteArray) : Prop
  | file (f : ChunkFault) (h : (walkAt b 0).fault = some f) (hf : f.isFatal)
  | table (t : Chunk) (ht : t ∈ (walkAt b 0).chunks) (htable : t.kind = .table)
      (f : ChunkFault) (h : t.children.fault = some f) (hf : f.isFatal)
  | package (t p : Chunk) (ht : t ∈ (walkAt b 0).chunks) (htable : t.kind = .table)
      (hp : p ∈ t.children.chunks) (hpackage : p.kind = .tablePackage)
      (f : ChunkFault) (h : p.children.fault = some f) (hf : f.isFatal)

theorem refused_addChunk {declared : UInt32} (hpackage : c.kind = .tablePackage)
    (h : Refused (Package.load c mode)) (state : Table × Nat) :
    Refused (addChunk mode declared state c) := by
  obtain ⟨e, he⟩ := h
  simp only [addChunk, hpackage, he]
  split
  · exact .error _
  · exact .error _

/-- A table is refused if its walk meets a fatal fault, or if one of its packages is. -/
theorem refused_addTable (hc : c.Framed)
    (h : (∃ f, c.children.fatal? = some f) ∨
      ∃ p ∈ c.children.chunks, p.kind = .tablePackage ∧ Refused (Package.load p mode))
    (table : Table) : Refused (addTable mode table c) := by
  unfold addTable
  split
  · exact .error _
  rw [hc.frame_eq]
  dsimp only
  split
  · exact .error _
  next declared _ =>
  rcases h with ⟨f, hfatal⟩ | ⟨p, hp, hpackage, hload⟩
  · refine .bind fun state => ?_
    have hwalk : (walkAt c.payload c.payloadPosition).fatal? = some f := hfatal
    rw [hwalk]
    exact .error _
  · exact .bind_left (.foldlM hp (refused_addChunk hpackage hload) _)

/-- A file is refused if its walk meets a fatal fault, or if one of its tables is. -/
theorem refused_load_of {b : ByteArray}
    (h : (∃ f, (walkAt b 0).fatal? = some f) ∨
      ∃ t ∈ (walkAt b 0).chunks, t.kind = .table ∧ ∀ table, Refused (addTable mode table t)) :
    Refused (load b mode) := by
  unfold load
  split
  · exact .error _
  rcases h with ⟨f, hfatal⟩ | ⟨t, ht, htable, hadd⟩
  · refine .bind fun table => ?_
    rw [hfatal]
    exact .error _
  · have hstep : ∀ table, Refused (addFileChunk mode table t) := by
      intro table
      simp only [addFileChunk, htable]
      exact hadd table
    exact .bind_left (.foldlM ht hstep _)

/-- A fatal fault refuses the file, wherever it is met and whatever was found before. -/
theorem refused_load {b : ByteArray} (h : MeetsFatal b) : Refused (load b mode) := by
  cases h with
  | file f h hf => exact refused_load_of (.inl ⟨f, Walk.fatal?_eq h hf⟩)
  | table t ht htable f h hf =>
      have hadd : ∀ table, Refused (addTable mode table t) :=
        refused_addTable (framed_of_mem_walkAt ht) (.inl ⟨f, Walk.fatal?_eq h hf⟩)
      exact refused_load_of (.inr ⟨t, ht, htable, hadd⟩)
  | package t p ht htable hp hpackage f h hf =>
      have hload : Refused (Package.load p mode) :=
        Package.refused_load (framed_of_mem_walkAt hp) (Walk.fatal?_eq h hf)
      have hadd : ∀ table, Refused (addTable mode table t) :=
        refused_addTable (framed_of_mem_walkAt ht) (.inr ⟨p, hp, hpackage, hload⟩)
      exact refused_load_of (.inr ⟨t, ht, htable, hadd⟩)

/-! ## Recoverable faults -/

/-- What a load depends on besides its mode: the chunks of the file and the fault that counts. -/
theorem load_eq_of_walk {b b' : ByteArray} (hsize : minHeaderSize ≤ b.size)
    (hsize' : minHeaderSize ≤ b'.size) (hchunks : (walkAt b 0).chunks = (walkAt b' 0).chunks)
    (hfatal : (walkAt b 0).fatal? = (walkAt b' 0).fatal?) : load b mode = load b' mode := by
  unfold load
  rw [if_neg (Nat.not_lt.mpr hsize), if_neg (Nat.not_lt.mpr hsize')]
  dsimp only
  rw [hchunks, hfatal]

/-- Bytes behind the last chunk that are no chunk do not change what is loaded. -/
theorem load_extract {b : ByteArray} (h : (walkAt b 0).fault = some f) (hf : f.isFatal = false)
    (hspan : minHeaderSize ≤ Chunk.span (walkAt b 0).chunks) :
    load b mode = load (b.extract 0 (Chunk.span (walkAt b 0).chunks)) mode := by
  have hcontiguous : Contiguous b 0 0 (walkAt b 0).chunks := contiguous_walkFrom b 0 0
  have hinside := hcontiguous.add_span_le (Nat.zero_le _)
  have hwalk := hcontiguous.walkFrom_extract (Nat.zero_le _)
  rw [Nat.zero_add] at hinside hwalk
  rw [← walkAt] at hwalk
  refine load_eq_of_walk (Nat.le_trans hspan hinside) ?_ ?_ ?_
  · rw [ByteArray.size_extract, Nat.min_eq_left hinside, Nat.sub_zero]
    exact hspan
  · rw [hwalk]
  · rw [hwalk, Walk.fatal?_eq_none h hf]
    rfl

/-- Broken bytes behind the chunks of a file are ignored where they are known to occur. Any
other fault, in the walk over the file or over a table or a package in it, refuses the file; and
it does so with an error, not by a faulty read. -/
theorem load_fault_policy (b : ByteArray) (mode : LoadMode) :
    (∀ f, (walkAt b 0).fault = some f → f.isFatal = false →
      minHeaderSize ≤ Chunk.span (walkAt b 0).chunks →
      load b mode = load (b.extract 0 (Chunk.span (walkAt b 0).chunks)) mode) ∧
    (MeetsFatal b → ∃ e, load b mode = .error e ∧
      ((∀ m, mode.idmap = some m → ∃ file, Idmap.load file = .ok m) →
        HasFault.fault? e = none)) := by
  refine ⟨fun f h hf hspan => load_extract h hf hspan, fun h => ?_⟩
  obtain ⟨e, he⟩ : Refused (load b mode) := refused_load h
  refine ⟨e, he, fun hidmap => ?_⟩
  have htargeted : ∀ m, mode.idmap = some m → Idmap.Targeted m.maps := by
    intro m hm
    obtain ⟨file, hfile⟩ := hidmap m hm
    exact (Idmap.safe_load file).of_ok hfile
  exact (safe_load b htargeted).fault_eq_none he

/-- A table without packages, and three bytes behind it. -/
def litteredFile : ByteArray := ⟨#[2, 0, 12, 0, 12, 0, 0, 0, 0, 0, 0, 0, 1, 2, 3]⟩

/-- The table in the file. -/
def bareTable : Chunk := ⟨.table, 12, litteredFile.extract 0 12, 0⟩

/-- A table with a package whose header does not cover its own fields. -/
def stuntedFile : ByteArray :=
  ⟨#[2, 0, 12, 0, 20, 0, 0, 0, 1, 0, 0, 0, 0, 2, 4, 0, 8, 0, 0, 0]⟩

/-- The table around the package. -/
def stuntedTable : Chunk := ⟨.table, 12, stuntedFile, 0⟩

theorem load_fault_policy_littered :
    load litteredFile {} = load (litteredFile.extract 0 12) {} ∧
      ∃ e, load stuntedFile {} = .error e ∧ HasFault.fault? e = none := by
  have hlittered : walkAt litteredFile 0 = ⟨[bareTable], some .headerTruncated⟩ := by
    have htable : readChunk litteredFile 0 0 = .ok bareTable := by rfl
    have hrest : readChunk litteredFile 12 12 = .error .headerTruncated := by rfl
    have hsize : bareTable.size = 12 := rfl
    have htail : walkFrom litteredFile (0 + 12) (0 + 12) = ⟨[], some .headerTruncated⟩ :=
      walkFrom_of_error (by decide) hrest
    rw [walkAt, walkFrom_of_ok (by decide) htable, hsize, htail]
  have hstunted : stuntedTable ∈ (walkAt stuntedFile 0).chunks := by
    have htable : readChunk stuntedFile 0 0 = .ok stuntedTable := by rfl
    rw [walkAt, walkFrom_of_ok (by decide) htable]
    exact List.mem_cons_self
  have hpackage : stuntedTable.children.fault = some .headerTooSmall := by
    have hread : readChunk stuntedTable.payload 0 12 = .error .headerTooSmall := by rfl
    show (walkFrom stuntedTable.payload 0 12).fault = _
    rw [walkFrom_of_error (by decide) hread]
  have hspan : Chunk.span (walkAt litteredFile 0).chunks = 12 := by
    rw [hlittered]
    rfl
  have hfault : (walkAt litteredFile 0).fault = some .headerTruncated := by
    rw [hlittered]
  have hcut := (load_fault_policy litteredFile {}).1 _ hfault rfl (by rw [hspan]; decide)
  rw [hspan] at hcut
  obtain ⟨e, he, hsafe⟩ := (load_fault_policy stuntedFile {}).2
    (.table stuntedTable hstunted rfl _ hpackage rfl)
  exact ⟨hcut, e, he, hsafe fun m hm => by cases hm⟩

end Table

end AppResources
