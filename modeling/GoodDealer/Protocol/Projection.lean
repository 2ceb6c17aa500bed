/-
# `GoodDealer.Protocol.Projection` — domain-asset projections

A projection is a list of domain-asset rows, unique and strictly ascending by
entity id.  Cloud and client both build projections by assigning the changed
fields of a mutation to a row (`applyField`); they differ in how they find the
row, and in what they do with a delete.
-/
import GoodDealer.Protocol.Mutation
import GoodDealer.Lib.Keyed

namespace GoodDealer

structure DomainAssetProjectionRow where
  entityId : String
  note : Option String
  portfolioId : Option String
  tags : List String
  targetPrice : Option Money
deriving DecidableEq

namespace DomainAssetProjectionRow

/-- `domainAssetProjectionRowSchema`. -/
def valid (r : DomainAssetProjectionRow) : Bool :=
  validDomainAssetId r.entityId && r.note.all validNote && r.portfolioId.all validIdentifier &&
    validTags r.tags && r.targetPrice.all Money.valid

/-- Assign one changed field. -/
def applyField (r : DomainAssetProjectionRow) : ChangedField → DomainAssetProjectionRow
  | .note v => { r with note := v }
  | .portfolioId v => { r with portfolioId := v }
  | .tags v => { r with tags := v }
  | .targetPrice v => { r with targetPrice := v }

/-- Assign changed fields in order. -/
def applyFields (r : DomainAssetProjectionRow) (fs : List ChangedField) :
    DomainAssetProjectionRow :=
  fs.foldl applyField r

variable (r : DomainAssetProjectionRow) (f : ChangedField) (fs : List ChangedField)

@[simp] theorem applyField_entityId : (r.applyField f).entityId = r.entityId := by
  cases f <;> rfl

@[simp] theorem applyFields_nil : r.applyFields [] = r := rfl

@[simp] theorem applyFields_cons : r.applyFields (f :: fs) = (r.applyField f).applyFields fs := rfl

@[simp] theorem applyFields_entityId : (r.applyFields fs).entityId = r.entityId := by
  induction fs generalizing r with
  | nil => rfl
  | cons f fs ih => rw [applyFields_cons, ih, applyField_entityId]

theorem valid_applyField {r : DomainAssetProjectionRow} {f : ChangedField}
    (hr : r.valid = true) (hf : f.valid = true) : (r.applyField f).valid = true := by
  simp only [valid, Bool.and_eq_true] at hr
  obtain ⟨⟨⟨⟨hid, hn⟩, hp⟩, ht⟩, hm⟩ := hr
  cases f <;> simp only [applyField, valid, Bool.and_eq_true]
  case note v => exact ⟨⟨⟨⟨hid, hf⟩, hp⟩, ht⟩, hm⟩
  case portfolioId v => exact ⟨⟨⟨⟨hid, hn⟩, hf⟩, ht⟩, hm⟩
  case tags v => exact ⟨⟨⟨⟨hid, hn⟩, hp⟩, hf⟩, hm⟩
  case targetPrice v => exact ⟨⟨⟨⟨hid, hn⟩, hp⟩, ht⟩, hf⟩

theorem valid_applyFields {fs : List ChangedField} (hfs : ∀ f ∈ fs, f.valid = true) :
    ∀ {r : DomainAssetProjectionRow}, r.valid = true → (r.applyFields fs).valid = true := by
  induction fs with
  | nil => exact fun h => h
  | cons f fs ih =>
    intro r hr
    exact ih (fun g hg => hfs g (List.mem_cons_of_mem _ hg))
      (valid_applyField hr (hfs f List.mem_cons_self))

end DomainAssetProjectionRow

/-- What `domainAssetProjectionSchema` checks. -/
@[mk_iff] structure ValidProjection (rows : List DomainAssetProjectionRow) : Prop where
  valid : ∀ r ∈ rows, r.valid = true
  ascending : Keyed.Ascending DomainAssetProjectionRow.entityId rows

instance decValidProjection (rows : List DomainAssetProjectionRow) :
    Decidable (ValidProjection rows) :=
  decidable_of_iff _ (validProjection_iff rows).symm

/-- `domainAssetProjectionSchema.parse`; `none` is the thrown issue. -/
def parseProjection (rows : List DomainAssetProjectionRow) :
    Option (List DomainAssetProjectionRow) :=
  if ValidProjection rows then some rows else none

variable {rows : List DomainAssetProjectionRow} {e e' : String} {fs : List ChangedField}

theorem parseProjection_eq_some {rows' : List DomainAssetProjectionRow} :
    parseProjection rows = some rows' ↔ ValidProjection rows ∧ rows = rows' := by
  simp [parseProjection]

theorem parseProjection_of_valid (h : ValidProjection rows) : parseProjection rows = some rows :=
  if_pos h

/-! ## Updating one row of a projection -/

/-- Assign changed fields to the row of an entity. -/
def assignRow (entityId : String) (fs : List ChangedField)
    (rows : List DomainAssetProjectionRow) : List DomainAssetProjectionRow :=
  Keyed.adjust DomainAssetProjectionRow.entityId entityId (·.applyFields fs) rows

/-- Remove the row of an entity. -/
def removeRow (entityId : String) (rows : List DomainAssetProjectionRow) :
    List DomainAssetProjectionRow :=
  Keyed.remove DomainAssetProjectionRow.entityId entityId rows

/-- The entity has a row. -/
def HasRow (rows : List DomainAssetProjectionRow) (entityId : String) : Prop :=
  entityId ∈ rows.map DomainAssetProjectionRow.entityId

instance (rows : List DomainAssetProjectionRow) (entityId : String) :
    Decidable (HasRow rows entityId) :=
  inferInstanceAs (Decidable (_ ∈ _))

theorem hasRow_iff_lookup :
    HasRow rows e ↔ (Keyed.lookup DomainAssetProjectionRow.entityId e rows).isSome :=
  Keyed.lookup_isSome.symm

@[simp] theorem assignRow_nil (e : String) (rows : List DomainAssetProjectionRow) :
    assignRow e [] rows = rows := by
  simp [assignRow, Keyed.adjust]

@[simp] theorem keys_assignRow (e : String) (fs : List ChangedField)
    (rows : List DomainAssetProjectionRow) :
    (assignRow e fs rows).map DomainAssetProjectionRow.entityId =
      rows.map DomainAssetProjectionRow.entityId :=
  Keyed.keys_adjust (fun r hr => (r.applyFields_entityId fs).trans hr) rows

@[simp] theorem hasRow_assignRow :
    HasRow (assignRow e fs rows) e' ↔ HasRow rows e' := by
  rw [HasRow, HasRow, keys_assignRow]

theorem hasRow_removeRow :
    HasRow (removeRow e rows) e' ↔ HasRow rows e' ∧ e' ≠ e := by
  simp only [HasRow, removeRow, List.mem_map, Keyed.mem_remove]
  constructor
  · rintro ⟨r, ⟨hr, hne⟩, rfl⟩
    exact ⟨⟨r, hr, rfl⟩, hne⟩
  · rintro ⟨⟨r, hr, rfl⟩, hne⟩
    exact ⟨r, ⟨hr, hne⟩, rfl⟩

theorem validProjection_assignRow (h : ValidProjection rows)
    (hfs : ∀ f ∈ fs, f.valid = true) : ValidProjection (assignRow e fs rows) where
  valid := by
    intro r hr
    obtain ⟨a, ha, rfl⟩ := Keyed.mem_adjust.mp hr
    split
    · exact DomainAssetProjectionRow.valid_applyFields hfs (h.valid a ha)
    · exact h.valid a ha
  ascending := Keyed.ascending_adjust (fun r => r.applyFields_entityId fs) e h.ascending

end GoodDealer
