import AppResources.Proofs.BagOrder
import AppResources.Resources.Reference

/-!
# Ids of an application that became a library

An application that is loaded as a shared library gets the id of the first library, so its ids
have another package byte than those of the same application by itself. All other ids that it
can refer to without naming libraries stay as they are: those of the framework, and ordinals.

Among such ids the new byte stands where the old one stood, behind the framework. So the
renaming keeps the order of ids. And an id of build time, in which the package byte zero stands
for the application as well, is renumbered to an id of the application by the one table and to
the renamed id by the other.

## Main definitions

* `ResourceId.toLibrary`: an id of the application once it is a library.
* `Value.RefersWithin`, `Entry.RefersWithin`: what refers to the application and the framework.

## Main results

* `toLibrary_lt_iff`: the renaming keeps the order.
* `runtimeId?_toLibrary`, `runtimeValue?_toLibrary`: both tables renumber to the same place.
-/

namespace AppResources

/-! ## Ids -/

namespace ResourceId

variable {id a b : ResourceId}

/-- The package id of the first shared library. -/
def libraryPackage : UInt8 := UInt8.ofNat PackageGroup.firstLibraryId

/-- An id with the package byte of the first library in the place of that of applications. -/
def toLibrary (id : ResourceId) : ResourceId :=
  if ResourceId.package id = appPackage then withPackage id libraryPackage else id

/-- Whether the package byte is that of the application or of the framework. -/
def IsNear (id : ResourceId) : Prop :=
  ResourceId.package id = frameworkPackage ∨ ResourceId.package id = appPackage

/-- Whether the package byte is zero or one of these two. Ordinals have a package byte of
zero. -/
def IsWithin (id : ResourceId) : Prop := ResourceId.package id = 0 ∨ IsNear id

instance (id : ResourceId) : Decidable (IsNear id) := by
  unfold IsNear
  infer_instance

instance (id : ResourceId) : Decidable (IsWithin id) := by
  unfold IsWithin
  infer_instance

theorem IsNear.ne_zero (h : IsNear id) : id ≠ 0 := by
  rintro rfl
  exact absurd h (by decide)

theorem toLibrary_of_app (h : ResourceId.package id = appPackage) :
    toLibrary id = withPackage id libraryPackage := if_pos h

theorem toLibrary_of_ne (h : ResourceId.package id ≠ appPackage) : toLibrary id = id := if_neg h

theorem type_toLibrary (id : ResourceId) : ResourceId.type (toLibrary id) = ResourceId.type id := by
  unfold toLibrary
  split
  · exact type_make ..
  · rfl

theorem entry_toLibrary (id : ResourceId) :
    ResourceId.entry (toLibrary id) = ResourceId.entry id := by
  unfold toLibrary
  split
  · exact entry_make ..
  · rfl

theorem isValid_toLibrary (id : ResourceId) : isValid (toLibrary id) = isValid id := by
  unfold isValid
  rw [type_toLibrary]

theorem package_eq_byte_iff {byte : UInt8} :
    ResourceId.package id = byte ↔ id.toNat / 16777216 = byte.toNat := by
  have h := id.toNat_lt
  rw [← UInt8.toNat_inj, ResourceId.package, UInt8.toNat_ofNat']
  omega

theorem toNat_toLibrary (id : ResourceId) : (toLibrary id).toNat =
    if id.toNat / 16777216 = 127 then 33554432 + id.toNat % 16777216 else id.toNat := by
  have hbyte : ResourceId.package id = appPackage ↔ id.toNat / 16777216 = 127 := package_eq_byte_iff
  unfold toLibrary
  simp only [hbyte]
  split
  · exact toNat_withPackage id libraryPackage
  · rfl

theorem isWithin_iff : IsWithin id ↔
    id.toNat / 16777216 = 0 ∨ id.toNat / 16777216 = 1 ∨ id.toNat / 16777216 = 127 := by
  unfold IsWithin IsNear
  rw [package_eq_byte_iff, package_eq_byte_iff, package_eq_byte_iff]
  rfl

theorem toLibrary_of_isOrdinal (h : isOrdinal id = true) : toLibrary id = id := by
  have hsmall : id.toNat < 65536 := of_decide_eq_true h
  apply UInt32.toNat_inj.mp
  rw [toNat_toLibrary, if_neg (by omega)]

/-- The renaming keeps the order of ids. -/
theorem toLibrary_lt_iff (ha : IsWithin a) (hb : IsWithin b) :
    toLibrary a < toLibrary b ↔ a < b := by
  rw [isWithin_iff] at ha hb
  rw [UInt32.lt_iff_toNat_lt, UInt32.lt_iff_toNat_lt, toNat_toLibrary, toNat_toLibrary]
  split <;> split <;> omega

/-- Different ids stay different. -/
theorem toLibrary_inj (ha : IsWithin a) (hb : IsWithin b) : toLibrary a = toLibrary b ↔ a = b := by
  rw [isWithin_iff] at ha hb
  rw [← UInt32.toNat_inj, ← UInt32.toNat_inj, toNat_toLibrary, toNat_toLibrary]
  split <;> split <;> omega

end ResourceId

/-! ## Values -/

namespace Value

/-- A value with a renamed id, if it refers to one. -/
def toLibrary (v : Value) : Value :=
  if v.kind = .reference ∨ v.kind = .attribute then ⟨v.kind, ResourceId.toLibrary v.data⟩ else v

/-- A value refers to the application and the framework at most. At build time the package byte
zero stands for the application as well. -/
def RefersWithin (v : Value) : Prop :=
  match v.kind with
  | .reference | .attribute => v.data = 0 ∨ ResourceId.IsNear v.data
  | .dynamicReference | .dynamicAttribute => ResourceId.IsWithin v.data
  | _ => True

instance (v : Value) : Decidable v.RefersWithin := by
  unfold RefersWithin
  split <;> infer_instance

end Value

/-- An entry refers to the application and the framework at most. -/
def Entry.RefersWithin : Entry → Prop
  | .plain _ _ v => v.RefersWithin
  | .bag _ _ parent items =>
    ResourceId.IsWithin parent ∧
      ∀ item ∈ items, ResourceId.IsWithin item.name ∧ item.value.RefersWithin

instance (e : Entry) : Decidable e.RefersWithin := by
  unfold Entry.RefersWithin
  split <;> infer_instance

/-! ## Run-time ids -/

namespace LibraryTable

variable {id : ResourceId} {v : Value}

/-- The table of an application by itself. -/
def ofApp : LibraryTable := { ownId := ResourceId.appPackage }

/-- The table of an application that is the first library. -/
def ofLibrary : LibraryTable := { ownId := ResourceId.libraryPackage, appAsLibrary := true }

/-- Both tables renumber an id to the same place. -/
theorem runtimeId?_toLibrary (h : ResourceId.IsWithin id) :
    ∃ found, ofApp.runtimeId? id = some found ∧ ResourceId.IsNear found ∧
      ofLibrary.runtimeId? id = some (ResourceId.toLibrary found) := by
  unfold runtimeId?
  have hpackage : ResourceId.package (ResourceId.withPackage id ResourceId.appPackage) =
      ResourceId.appPackage := ResourceId.package_make ..
  have hrenamed : ResourceId.withPackage id ResourceId.libraryPackage =
      ResourceId.toLibrary (ResourceId.withPackage id ResourceId.appPackage) := by
    rw [ResourceId.toLibrary_of_app hpackage]
    simp [ResourceId.withPackage, ResourceId.type_make, ResourceId.entry_make]
  rcases h with h | h | h
  · rw [h]
    exact ⟨_, rfl, .inr hpackage, congrArg some hrenamed⟩
  · have hsame : ResourceId.withPackage id ResourceId.frameworkPackage = id := by
      rw [← h]
      exact ResourceId.make_parts id
    have hother : ResourceId.toLibrary id = id :=
      ResourceId.toLibrary_of_ne (by rw [h]; decide)
    rw [h]
    refine ⟨id, congrArg some hsame, .inl h, ?_⟩
    rw [hother]
    exact congrArg some hsame
  · rw [h]
    exact ⟨_, rfl, .inr hpackage, congrArg some hrenamed⟩

/-- An application by itself keeps the ids that hold at run time. -/
theorem runtimeId?_ofApp (h : ResourceId.IsNear id) : ofApp.runtimeId? id = some id := by
  have hsame := ResourceId.make_parts id
  unfold runtimeId?
  rcases h with h | h
  · rw [h] at hsame ⊢
    exact congrArg some hsame
  · rw [h] at hsame ⊢
    exact congrArg some hsame

theorem runtimeId?_ofLibrary (h : ResourceId.IsNear id) :
    ofLibrary.runtimeId? id = some (ResourceId.toLibrary id) := by
  obtain ⟨found, hfound, -, hrenamed⟩ := runtimeId?_toLibrary (.inr h)
  obtain rfl := Option.some.inj (hfound.symm.trans (runtimeId?_ofApp h))
  exact hrenamed

/-- What a value that refers to something refers to at run time. -/
theorem runtimeValue?_of_kind {t : LibraryTable} {kind : ValueKind}
    (h : t.runtimeKind? v.kind = some kind) :
    t.runtimeValue? v =
      (if v.data = 0 then some 0 else t.runtimeId? v.data).map fun id => ⟨kind, id⟩ := by
  unfold runtimeValue?
  rw [h]
  dsimp only
  split <;> rfl

/-- Both tables renumber a value to the same place. -/
theorem runtimeValue?_toLibrary (h : v.RefersWithin) :
    ∃ found, ofApp.runtimeValue? v = some found ∧
      ofLibrary.runtimeValue? v = some found.toLibrary := by
  have hreference : ∀ kind id, kind = .reference ∨ kind = .attribute →
      (⟨kind, ResourceId.toLibrary id⟩ : Value) = Value.toLibrary ⟨kind, id⟩ :=
    fun _ _ hkind => (if_pos hkind).symm
  -- a plain reference is renumbered in the library only
  have hplain : v.kind = .reference ∨ v.kind = .attribute →
      v.data = 0 ∨ ResourceId.IsNear v.data → ofApp.runtimeValue? v = some v →
        ofLibrary.runtimeKind? v.kind = some v.kind →
          ∃ found, ofApp.runtimeValue? v = some found ∧
            ofLibrary.runtimeValue? v = some found.toLibrary := by
    intro hkind hdata happ hlibrary
    refine ⟨v, happ, ?_⟩
    rw [runtimeValue?_of_kind hlibrary, ← hreference v.kind v.data hkind]
    rcases hdata with hzero | hnear
    · rw [if_pos hzero, hzero]
      rfl
    · rw [if_neg hnear.ne_zero, runtimeId?_ofLibrary hnear]
      rfl
  have hdynamic : ∀ kind, kind = .reference ∨ kind = .attribute → ResourceId.IsWithin v.data →
      ofApp.runtimeKind? v.kind = some kind → ofLibrary.runtimeKind? v.kind = some kind →
        ∃ found, ofApp.runtimeValue? v = some found ∧
          ofLibrary.runtimeValue? v = some found.toLibrary := by
    intro kind hkind hdata happ hlibrary
    rw [runtimeValue?_of_kind happ, runtimeValue?_of_kind hlibrary]
    by_cases hzero : v.data = 0
    · rw [if_pos hzero, if_pos hzero]
      exact ⟨_, rfl, congrArg some (hreference kind 0 hkind)⟩
    · obtain ⟨id, hid, -, hrenamed⟩ := runtimeId?_toLibrary hdata
      rw [if_neg hzero, if_neg hzero, hid, hrenamed]
      exact ⟨_, rfl, congrArg some (hreference kind id hkind)⟩
  obtain ⟨kind, data⟩ := v
  cases kind with
  | reference => exact hplain (.inl rfl) h rfl rfl
  | «attribute» => exact hplain (.inr rfl) h rfl rfl
  | dynamicReference => exact hdynamic _ (.inl rfl) h rfl rfl
  | dynamicAttribute => exact hdynamic _ (.inr rfl) h rfl rfl
  | _ => exact ⟨_, rfl, rfl⟩

end LibraryTable

/-! ## Answers -/

/-- An error with a renamed id. -/
def LookupError.toLibrary : LookupError → LookupError
  | .invalidId id => .invalidId (ResourceId.toLibrary id)
  | .notFound id => .notFound (ResourceId.toLibrary id)
  | .tooManySteps id => .tooManySteps (ResourceId.toLibrary id)
  | .unknownLibrary id => .unknownLibrary (ResourceId.toLibrary id)

/-- An answer of the library, made from that of the application. -/
def libraryAnswer {α β : Type} (f : α → β) (answer : Except LookupError α) :
    Except LookupError β :=
  (answer.map f).mapError .toLibrary

/-- An answer about a value with a renamed id. -/
def Resolved.toLibrary (s : Resolved) : Resolved := { s with value := s.value.toLibrary }

end AppResources
