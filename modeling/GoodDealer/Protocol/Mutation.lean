/-
# `GoodDealer.Protocol.Mutation` — workspace mutations

A device submits mutations of domain assets; the cloud gives each accepted one
the next server revision.  `SubmittedSyncMutationWire` is the record as it
travels, `SubmittedSyncMutation` the record with the proof that it passes
`tenantNeutralSubmittedSyncMutationSchema`, and `SyncMutation` an entry of the
workspace log: a submitted mutation, its workspace and its revision.

An upsert carries at least one changed field, in strictly ascending field-path
order, and no deletion time; a delete carries a deletion time and no field.
That shape is part of `Valid`, so an entry of the log cannot have another one.
-/
import GoodDealer.Protocol.Fields

namespace GoodDealer

/-- A canonical UTC second, counted from the epoch. -/
abbrev Timestamp := Nat

inductive FieldPath where
  | note
  | portfolioId
  | tags
  | targetPrice
deriving DecidableEq

namespace FieldPath

/-- The text of a field path on the wire; the order of paths is the order of the texts. -/
def wire : FieldPath → String
  | note => "note"
  | portfolioId => "portfolioId"
  | tags => "tags"
  | targetPrice => "targetPrice"

/-- All field paths, in wire order. -/
def all : List FieldPath := [note, portfolioId, tags, targetPrice]

end FieldPath

/-- A field path with its new value. -/
inductive ChangedField where
  | note (value : Option String)
  | portfolioId (value : Option String)
  | tags (value : List String)
  | targetPrice (value : Option Money)
deriving DecidableEq

namespace ChangedField

def fieldPath : ChangedField → FieldPath
  | note _ => .note
  | portfolioId _ => .portfolioId
  | tags _ => .tags
  | targetPrice _ => .targetPrice

/-- The value schema of the field. -/
def valid : ChangedField → Bool
  | note v => v.all validNote
  | portfolioId v => v.all validIdentifier
  | tags v => validTags v
  | targetPrice v => v.all Money.valid

end ChangedField

inductive OperationKind where
  | upsert
  | delete
deriving DecidableEq

/-- A submitted mutation as it travels; the schema version and the entity type are fixed. -/
structure SubmittedSyncMutationWire where
  mutationId : String
  workspaceSchemaVersion : Nat
  entityId : String
  operationKind : OperationKind
  deletedAt : Option Timestamp
  baseServerRevision : Nat
  changedFields : List ChangedField
  sourceDeviceId : String
  activeLeaseEpoch : Nat
  deviceMutationSequence : Nat
deriving DecidableEq

namespace SubmittedSyncMutationWire

/-- `safePositiveInteger`. -/
def safePositive (n : Nat) : Prop := 1 ≤ n ∧ n ≤ maxSafeInteger

instance (n : Nat) : Decidable (safePositive n) := inferInstanceAs (Decidable (_ ∧ _))

/-- `validateSubmittedSyncMutation`: the shape each operation kind requires. -/
def Shape (m : SubmittedSyncMutationWire) : Prop :=
  match m.operationKind with
  | .upsert => m.changedFields ≠ [] ∧ m.deletedAt = none
  | .delete => m.changedFields = [] ∧ m.deletedAt ≠ none

instance (m : SubmittedSyncMutationWire) : Decidable m.Shape := by
  unfold Shape
  cases m.operationKind <;> exact inferInstanceAs (Decidable (_ ∧ _))

/-- `tenantNeutralSubmittedSyncMutationSchema`. -/
@[mk_iff] structure Valid (m : SubmittedSyncMutationWire) : Prop where
  mutationId : validIdentifier m.mutationId = true
  workspaceSchemaVersion : safePositive m.workspaceSchemaVersion
  entityId : validDomainAssetId m.entityId = true
  baseServerRevision : m.baseServerRevision ≤ maxSafeInteger
  fields : m.changedFields.all ChangedField.valid = true
  ascending : m.changedFields.Pairwise (fun a b => a.fieldPath.wire < b.fieldPath.wire)
  sourceDeviceId : validIdentifier m.sourceDeviceId = true
  activeLeaseEpoch : safePositive m.activeLeaseEpoch
  deviceMutationSequence : safePositive m.deviceMutationSequence
  shape : m.Shape

instance decValid (m : SubmittedSyncMutationWire) : Decidable m.Valid :=
  decidable_of_iff _ (valid_iff m).symm

end SubmittedSyncMutationWire

/-- A mutation that passed the schema. -/
structure SubmittedSyncMutation extends SubmittedSyncMutationWire where
  valid : toSubmittedSyncMutationWire.Valid
deriving DecidableEq

namespace SubmittedSyncMutation

/-- `tenantNeutralSubmittedSyncMutationSchema.safeParse`. -/
def parse (m : SubmittedSyncMutationWire) : Option SubmittedSyncMutation :=
  if h : m.Valid then some ⟨m, h⟩ else none

@[simp] theorem parse_self (m : SubmittedSyncMutation) :
    parse m.toSubmittedSyncMutationWire = some m := by
  simp [parse, m.valid]

theorem parse_eq_some {w : SubmittedSyncMutationWire} {m : SubmittedSyncMutation} :
    parse w = some m ↔ m.toSubmittedSyncMutationWire = w := by
  constructor
  · intro h
    simp only [parse, Option.dite_none_right_eq_some, Option.some.injEq] at h
    obtain ⟨_, rfl⟩ := h
    rfl
  · rintro rfl
    exact parse_self m

end SubmittedSyncMutation

/-- An entry of the workspace log. -/
structure SyncMutation where
  workspaceId : String
  mutation : SubmittedSyncMutation
  serverRevision : Nat
deriving DecidableEq

namespace SyncMutation

/-- What `syncMutationSchema` adds to the submitted mutation. -/
def Valid (m : SyncMutation) : Prop :=
  1 ≤ m.serverRevision ∧ m.mutation.baseServerRevision < m.serverRevision

instance (m : SyncMutation) : Decidable m.Valid := inferInstanceAs (Decidable (_ ∧ _))

end SyncMutation

end GoodDealer
