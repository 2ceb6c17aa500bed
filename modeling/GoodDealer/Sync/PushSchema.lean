/-
# `GoodDealer.Sync.PushSchema` — local edits under the schema of the push

An edit is checked twice: by the validators of the desktop before it is committed, and
by `tenantNeutralSubmittedSyncMutationSchema` when the cloud receives the mutation that
`reconstruct_sync_mutation_v2` reads back from the outbox.  The two agree on
identifiers, domain names, prices, timestamps and the order of tags.  They differ on
the format characters of notes and tags: the desktop refuses those of
`is_forbidden_text_character`, the cloud those of `\p{Cf}`.  The desktop counts the
characters of a text.  If zod does too, a committed edit passes the schema exactly when
its note and its tags contain no format character (`Portable`).
-/
import GoodDealer.Desktop.Validators
import GoodDealer.Sync.Push

namespace GoodDealer.Desktop

open Unicode Schemas List

variable {H : Type}

/-! ## An edit with the texts of its caller -/

/-- The arguments of `edit_domain_asset` and `delete_domain_asset`. -/
structure EditRequest where
  mutationId : String
  expectedAssetVersion : Nat
  deviceId : String
  activeLeaseEpoch : Nat
  committedAt : String
  allowNew : Bool
deriving DecidableEq

/-- The second a timestamp stands for. -/
def timestampOf (value : String) : Timestamp := (dateParse (value.toList.map Char.toNat)).getD 0

/-- The columns hold the text of `committed_at`, the model of the store its second. -/
def EditRequest.request (r : EditRequest) : MutationRequest where
  mutationId := r.mutationId
  expectedAssetVersion := r.expectedAssetVersion
  deviceId := r.deviceId
  activeLeaseEpoch := r.activeLeaseEpoch
  committedAt := timestampOf r.committedAt
  allowNew := r.allowNew

/-- `validate_domain_asset` of an edit, `validate_domain_asset_id` of a delete. -/
def LocalOperation.validate : LocalOperation → Bool
  | .edit asset => validateProjection none [asset]
  | .delete entityId => validateDomainAssetId entityId

/-- `edit_domain_asset` and `delete_domain_asset`. -/
def editDomainAsset (s : Store H) (r : EditRequest) (op : LocalOperation) :
    Except BusinessDatabaseError (Store H × DomainAssetMutationReceipt) :=
  if !validateIdentifier r.mutationId then .error .invalidInput
  else if !validateIdentifier r.deviceId then .error .invalidInput
  else if !validateTimestamp r.committedAt then .error .invalidInput
  else if !op.validate then .error .invalidInput
  else mutateDomainAsset s r.request op

/-! ## The mutation on the wire -/

/-- The loop of `reconstruct_sync_mutation_v2` over the field paths. -/
def ascendingPaths : Option String → List FieldPath → Bool
  | _, [] => true
  | previous, path :: paths =>
    !previous.any (fun value => decide (path.wire ≤ value)) &&
      ascendingPaths (some path.wire) paths

/-- `reconstruct_sync_mutation_v2`. -/
def reconstructSyncMutation (m : SubmittedSyncMutationWire) :
    Except BusinessDatabaseError (Json String) :=
  match m.operationKind with
  | .upsert =>
    if m.changedFields.isEmpty ||
        !ascendingPaths none (m.changedFields.map ChangedField.fieldPath) then
      .error .storageRejected
    else .ok (.object m.properties)
  | .delete =>
    if !m.changedFields.isEmpty then .error .storageRejected
    else .ok (.object (m.properties ++
      m.deletedAt.toList.map fun t => ("deletedAt", .string (timestampText t))))

/-! ## What the columns hold -/

/-- The `CHECK`s of `sync_outbox` on the numbers of a row; a delete has the time of its
commit, which every writer of the outbox validates. -/
structure Checked (m : SubmittedSyncMutationWire) : Prop where
  workspaceSchemaVersion : SubmittedSyncMutationWire.safePositive m.workspaceSchemaVersion
  baseServerRevision : m.baseServerRevision ≤ maxSafeInteger
  activeLeaseEpoch : SubmittedSyncMutationWire.safePositive m.activeLeaseEpoch
  deviceMutationSequence : SubmittedSyncMutationWire.safePositive m.deviceMutationSequence
  upsert : m.operationKind = .upsert → m.deletedAt = none
  delete : m.operationKind = .delete → ∃ t < secondLimit, m.deletedAt = some t

/-- The `CHECK`s of `active_workspace_metadata` and `sync_outbox`. -/
structure Store.Checked (s : Store H) : Prop where
  applied : s.appliedThroughServerRevision ≤ maxSafeInteger
  sequence : 1 ≤ s.nextDeviceMutationSequence
  outbox : ∀ row ∈ s.outbox, Desktop.Checked row.mutation

/-- A text without a format character. -/
def PortableText (text : String) : Prop := ∀ c ∈ text.toList, isFormat c = false

instance (text : String) : Decidable (PortableText text) :=
  -- not by search: Mathlib would run through all characters
  List.decidableBAll _ _

/-- The note and the tags of an edit pass in the cloud as well. -/
def LocalOperation.Portable : LocalOperation → Prop
  | .edit asset => (∀ note ∈ asset.note, PortableText note) ∧ ∀ tag ∈ asset.tags, PortableText tag
  | .delete _ => True

instance (op : LocalOperation) : Decidable op.Portable :=
  match op with
  | .edit _ => inferInstanceAs (Decidable (_ ∧ _))
  | .delete _ => inferInstanceAs (Decidable True)

/-! ## The two checks of a text -/

theorem not_control_of_forbidden {c : Char} (h : isForbiddenTextCharacter c = false) :
    isControl c = false := by
  simp only [isForbiddenTextCharacter, Bool.or_eq_false_iff] at h
  exact h.1.1.1.1.1.1.1

/-- White space for JavaScript is white space for Rust, or forbidden. -/
theorem not_trimmed_of {c : Char} (hspace : isWhitespace c = false)
    (hforbidden : isForbiddenTextCharacter c = false) : isTrimmed c = false := by
  rw [Bool.eq_false_iff] at hspace hforbidden ⊢
  simp only [isWhitespace, isForbiddenTextCharacter, isTrimmed, ne_eq, Bool.or_eq_true,
    Bool.and_eq_true, beq_iff_eq, decide_eq_true_eq] at hspace hforbidden ⊢
  omega

theorem validNote_iff {note : String} (hlength : note.toList.length ≤ 10000)
    (h : ∀ c ∈ note.toList, isForbiddenTextCharacter c = false) :
    validNote note = true ↔ PortableText note := by
  rw [validNote, decide_eq_true hlength, Bool.true_and, all_eq_true, PortableText]
  refine forall₂_congr fun c hc => ?_
  rw [not_control_of_forbidden (h c hc), Bool.not_false, Bool.true_or, Bool.true_or, Bool.true_or,
    Bool.and_true, Bool.not_eq_true']

theorem validTag_iff {tag : String} (h : tagAccepted tag = true) :
    validTag tag = true ↔ PortableText tag := by
  simp only [tagAccepted, Bool.and_eq_true, decide_eq_true_eq, Bool.not_eq_true',
    all_eq_true] at h
  obtain ⟨⟨⟨⟨hpos, hle⟩, hhead⟩, hlast⟩, hall⟩ := h
  have hends : ∀ o : Option Char, (∀ c ∈ o, c ∈ tag.toList) → o.any isWhitespace = false →
      o.any isTrimmed = false := by
    intro o hmem hspace
    cases o with
    | none => rfl
    | some c => exact not_trimmed_of hspace (hall c (hmem c rfl))
  have h₁ := hends _ (fun c hc => mem_of_mem_head? hc) hhead
  have h₂ := hends _ (fun c hc => mem_of_mem_getLast? hc) hlast
  have hclass : tag.toList.all (fun c => !isControl c && !isFormat c) = true ↔
      ∀ c ∈ tag.toList, isFormat c = false := by
    rw [all_eq_true]
    refine forall₂_congr fun c hc => ?_
    rw [not_control_of_forbidden (hall c hc)]
    cases isFormat c <;> decide
  simp only [validTag, Bool.and_eq_true, decide_eq_true_eq, hclass, h₁, h₂, Bool.not_false,
    and_true, show 1 ≤ tag.toList.length from hpos, hle, true_and]
  exact Iff.rfl

variable {op : LocalOperation} {s s' : Store H}

/-- The fields of an accepted edit pass the schemas of the cloud when its texts do. -/
theorem changedFields_valid_iff (h : op.validate = true) :
    op.changedFields.all ChangedField.valid = true ↔ op.Portable := by
  cases op with
  | delete => exact iff_of_true rfl trivial
  | edit asset =>
    rw [LocalOperation.validate, validateProjection_eq] at h
    simp only [validateDomainAsset, Bool.and_eq_true, decide_eq_true_eq] at h
    obtain ⟨⟨⟨⟨⟨⟨-, hnote⟩, hportfolio⟩, hcount⟩, htags⟩, hascending⟩, hprice⟩ := h
    have hnote' : asset.note.all validNote = true ↔
        ∀ note ∈ asset.note, PortableText note := by
      rw [Option.all_eq_true]
      refine forall₂_congr fun note hmem => ?_
      have hchars := (Option.all_eq_true _ _).mp hnote note hmem
      rw [Bool.and_eq_true, decide_eq_true_eq, all_eq_true] at hchars
      exact validNote_iff hchars.1 fun c hc => by simpa using hchars.2 c hc
    have htags' : validTags asset.tags = true ↔ ∀ tag ∈ asset.tags, PortableText tag := by
      simp only [validTags, Bool.and_eq_true, decide_eq_true_eq, hcount, hascending, true_and,
        and_true, all_eq_true]
      exact forall₂_congr fun tag hmem => validTag_iff (all_eq_true.mp htags tag hmem)
    simp only [LocalOperation.changedFields, all_cons, all_nil, ChangedField.valid,
      hportfolio, hprice, Bool.and_true, Bool.true_and, Bool.and_eq_true, hnote', htags']
    exact Iff.rfl

/-! ## The mutation of an accepted edit -/

theorem timestampOf_spec {value : String} (h : validateTimestamp value = true) :
    timestampOf value < secondLimit ∧ timestampText (timestampOf value) = value := by
  obtain ⟨t, ht, rfl⟩ := validateTimestamp_iff.mp h
  have hsecond : timestampOf (timestampText t) = t := by
    rw [timestampOf, toNat_timestampText, dateParse_isoSeconds ht, Option.getD_some]
  rw [hsecond]
  exact ⟨ht, rfl⟩

/-- What a row of the outbox has from the edit that wrote it. -/
structure Renders (op : LocalOperation) (m : SubmittedSyncMutationWire) : Prop where
  mutationId : validIdentifier m.mutationId = true
  sourceDeviceId : validIdentifier m.sourceDeviceId = true
  entityId : m.entityId = op.entityId
  operationKind : m.operationKind = op.kind
  changedFields : m.changedFields = op.changedFields

theorem Checked.deletedAt_lt {m : SubmittedSyncMutationWire} (hc : Checked m) :
    ∀ t ∈ m.deletedAt, t < secondLimit := by
  intro t ht
  cases hkind : m.operationKind with
  | upsert =>
    rw [hc.upsert hkind] at ht
    cases ht
  | delete =>
    obtain ⟨t', hlt, ht'⟩ := hc.delete hkind
    rw [ht'] at ht
    cases ht
    exact hlt

section

variable {m : SubmittedSyncMutationWire} (hop : op.validate = true) (hm : Renders op m)
  (hc : Checked m)

include hop in
theorem validDomainAssetId_of_validate : validDomainAssetId op.entityId = true := by
  cases op with
  | edit asset =>
    rw [LocalOperation.validate, validateProjection_eq, validateDomainAsset] at hop
    simp only [Bool.and_eq_true] at hop
    exact hop.1.1.1.1.1.1
  | delete entityId =>
    rw [LocalOperation.validate, validateDomainAssetId_eq] at hop
    exact hop

include hm hc in
theorem Renders.shape : m.Shape := by
  cases op with
  | edit asset =>
    have hkind : m.operationKind = .upsert := hm.operationKind
    simp only [SubmittedSyncMutationWire.Shape, hkind, hm.changedFields]
    exact ⟨cons_ne_nil _ _, hc.upsert hkind⟩
  | delete entityId =>
    have hkind : m.operationKind = .delete := hm.operationKind
    obtain ⟨t, -, ht⟩ := hc.delete hkind
    simp only [SubmittedSyncMutationWire.Shape, hkind, hm.changedFields]
    exact ⟨rfl, by rw [ht]; exact Option.some_ne_none t⟩

include hop hm hc in
theorem Renders.valid_iff : m.Valid ↔ op.Portable := by
  rw [← changedFields_valid_iff hop, ← hm.changedFields]
  constructor
  · exact fun h => h.fields
  · intro hfields
    have hascending :
        m.changedFields.Pairwise (fun a b => a.fieldPath.wire < b.fieldPath.wire) := by
      rw [hm.changedFields]
      cases op with
      | edit asset =>
        have hpaths : (FieldPath.all.map FieldPath.wire).Pairwise (· < ·) := by decide
        exact pairwise_map.mp hpaths
      | delete => exact List.Pairwise.nil
    exact
      { mutationId := hm.mutationId
        workspaceSchemaVersion := hc.workspaceSchemaVersion
        entityId := hm.entityId ▸ validDomainAssetId_of_validate hop
        baseServerRevision := hc.baseServerRevision
        fields := hfields
        ascending := hascending
        sourceDeviceId := hm.sourceDeviceId
        activeLeaseEpoch := hc.activeLeaseEpoch
        deviceMutationSequence := hc.deviceMutationSequence
        shape := hm.shape hc }

include hm hc in
theorem Renders.reconstruct : reconstructSyncMutation m = .ok m.json := by
  cases op with
  | edit asset =>
    have hkind : m.operationKind = .upsert := hm.operationKind
    have hpaths : ascendingPaths none FieldPath.all = true := by decide
    have hmap : m.changedFields.map ChangedField.fieldPath = FieldPath.all := by
      rw [hm.changedFields]
      rfl
    have hne : m.changedFields.isEmpty = false := by
      rw [hm.changedFields]
      rfl
    simp only [reconstructSyncMutation, hkind, SubmittedSyncMutationWire.json, hc.upsert hkind,
      hmap, hpaths, hne, Bool.not_true, Bool.or_false, Bool.false_eq_true, if_false]
  | delete entityId =>
    have hkind : m.operationKind = .delete := hm.operationKind
    obtain ⟨t, -, ht⟩ := hc.delete hkind
    have hempty : m.changedFields.isEmpty = true := by
      rw [hm.changedFields]
      rfl
    simp only [reconstructSyncMutation, hkind, SubmittedSyncMutationWire.json, ht, hempty,
      Bool.not_true, Bool.false_eq_true, if_false, Option.toList_some, map_cons,
      map_nil]

/-- The schema of the push, on what the outbox renders. -/
theorem Renders.schema_iff [Zod] (hzod : CountsCodePoints) (hop : op.validate = true)
    (hm : Renders op m) (hc : Checked m) :
    ∃ v, reconstructSyncMutation m = .ok v ∧
      (tenantNeutralSubmittedSyncMutationSchema (v.map js) = true ↔ op.Portable) :=
  ⟨m.json, hm.reconstruct hc,
    (tenantNeutralSubmittedSyncMutationSchema_json hzod hc.deletedAt_lt).trans
    (hm.valid_iff hop hc)⟩

end

/-! ## Committed edits -/

theorem editDomainAsset_ok {r : EditRequest} {receipt : DomainAssetMutationReceipt}
    (h : editDomainAsset s r op = .ok (s', receipt)) :
    validIdentifier r.mutationId = true ∧ validIdentifier r.deviceId = true ∧
      validateTimestamp r.committedAt = true ∧ op.validate = true ∧
      mutateDomainAsset s r.request op = .ok (s', receipt) := by
  rw [editDomainAsset, validateIdentifier_eq, validateIdentifier_eq] at h
  split at h
  · cases h
  next h₁ =>
  split at h
  · cases h
  next h₂ =>
  split at h
  · cases h
  next h₃ =>
  split at h
  · cases h
  next h₄ =>
    simp only [Bool.not_eq_true', Bool.not_eq_false] at h₁ h₂ h₃ h₄
    exact ⟨h₁, h₂, h₃, h₄, h⟩

/-- A new row meets the `CHECK`s. -/
theorem LocalCommit.checked {r : MutationRequest} (h : LocalCommit s r op s') (hs : s.Checked)
    (ht : r.committedAt < secondLimit) :
    Desktop.Checked
      (op.mutation r s.appliedThroughServerRevision s.nextDeviceMutationSequence) where
  workspaceSchemaVersion := (by decide : SubmittedSyncMutationWire.safePositive 1)
  baseServerRevision := hs.applied
  activeLeaseEpoch := h.epoch
  deviceMutationSequence := ⟨hs.sequence, h.sequence.le⟩
  upsert := by
    cases op with
    | edit => exact fun _ => rfl
    | delete => rintro ⟨⟩
  delete := by
    cases op with
    | edit => rintro ⟨⟩
    | delete => exact fun _ => ⟨r.committedAt, ht, rfl⟩

/-- If zod counts code points, a committed edit passes the schema of the push exactly when its
texts are portable. -/
theorem editDomainAsset_pushSchema_iff [Zod] (hzod : CountsCodePoints) (hs : s.Checked)
    {r : EditRequest} {receipt : DomainAssetMutationReceipt}
    (h : editDomainAsset s r op = .ok (s', receipt)) :
    s'.Checked ∧ ∃ row v, s'.outboxRow r.mutationId = some row ∧
      reconstructSyncMutation row.mutation = .ok v ∧
      (tenantNeutralSubmittedSyncMutationSchema (v.map js) = true ↔ op.Portable) := by
  obtain ⟨hid, hdevice, htime, hop, hmutate⟩ := editDomainAsset_ok h
  obtain ⟨⟨row, hrow, hsame, _⟩, hcases⟩ := mutateDomainAsset_committed hmutate
  have hs' : s'.Checked := by
    rcases hcases with ⟨rfl, _⟩ | ⟨hcommitted, hepoch, rfl, _⟩
    · exact hs
    · have hrow := (hcommitted.localCommit hepoch).checked hs (timestampOf_spec htime).1
      exact ⟨hs.applied, Nat.le_add_left 1 _,
        forall_mem_append.mpr ⟨hs.outbox, forall_mem_singleton.mpr hrow⟩⟩
  -- whichever submission wrote the row, it renders this operation
  obtain ⟨hmem, hkey⟩ := Keyed.lookup_eq_some hrow
  simp only [OutboxRow.differs, Bool.or_eq_false_iff, bne_eq_false_iff_eq] at hsame
  obtain ⟨⟨⟨hentity, hkind⟩, hfields⟩, hsource⟩ := hsame
  have hm : Renders op row.mutation :=
    ⟨by rw [← OutboxRow.mutationId, hkey]; exact hid, by rw [hsource]; exact hdevice, hentity,
      hkind, hfields⟩
  obtain ⟨v, hv, hiff⟩ := hm.schema_iff hzod hop (hs'.outbox row hmem)
  exact ⟨hs', row, v, hrow, hv, hiff⟩

/-- An edit of the sample asset. -/
def sampleEditRequest : EditRequest := ⟨"edit", 1, "device", 1, "2026-01-01T00:00:00Z", true⟩

theorem sampleStore_checked : Sync.sampleStore.Checked :=
  ⟨by decide, by decide, fun _ h => absurd h not_mem_nil⟩

theorem exists_of_isOk {ε α : Type} {e : Except ε α} (h : e.isOk = true) : ∃ a, e = .ok a := by
  cases e with
  | error => cases h
  | ok a => exact ⟨a, rfl⟩

attribute [local instance] codePointZod

/-- A plain note passes on both sides. -/
theorem editDomainAsset_pushSchema_iff_sample : ∃ s' receipt row v,
    editDomainAsset Sync.sampleStore sampleEditRequest (Sync.sampleEdit "mine") =
      .ok (s', receipt) ∧
    s'.outboxRow "edit" = some row ∧ reconstructSyncMutation row.mutation = .ok v ∧
    tenantNeutralSubmittedSyncMutationSchema (v.map js) = true := by
  obtain ⟨⟨s', receipt⟩, h⟩ := exists_of_isOk (show (editDomainAsset Sync.sampleStore
    sampleEditRequest (Sync.sampleEdit "mine")).isOk = true by decide +kernel)
  obtain ⟨-, row, v, hrow, hv, hiff⟩ :=
    editDomainAsset_pushSchema_iff (fun _ _ => rfl) sampleStore_checked h
  exact ⟨s', receipt, row, v, h, hrow, hv, hiff.mpr (by decide)⟩

/-- The mutation on the wire after an edit of the sample asset. -/
def sampleWire (note : String) : Option (Json String) :=
  match editDomainAsset Sync.sampleStore sampleEditRequest (Sync.sampleEdit note) with
  | .ok (s, _) =>
    (s.outboxRow "edit").bind fun row => (reconstructSyncMutation row.mutation).toOption
  | .error _ => none

/-- A note of one Arabic number sign is committed, and refused by the schema. -/
theorem editDomainAsset_refused : ∃ v, sampleWire "\u0600" = some v ∧
    tenantNeutralSubmittedSyncMutationSchema (v.map js) = false := by
  have hany : (sampleWire "\u0600").any
      (fun v => !tenantNeutralSubmittedSyncMutationSchema (v.map js)) = true := by decide +kernel
  obtain ⟨v, hv, hrefused⟩ := (Option.any_eq_true _ _).mp hany
  exact ⟨v, hv, by simpa using hrefused⟩

end GoodDealer.Desktop
