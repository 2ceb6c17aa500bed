/-
# `GoodDealer.Sync.OpenConflicts` — whether an open conflict can be resolved

A candidate freezes the local value it was recorded against.  A resolution is refused as
stale unless the field still has that value, so a second edit of the field, or the accepted
candidate of a sibling, leaves a candidate that no request can close.  An accepted candidate
also writes its revision into the field version without looking at the one that is there,
and an acknowledgement may have put a later one.

`Anchored` is what keeps a candidate resolvable; `Careful` is the condition on a step under
which every transaction keeps it.
-/
import GoodDealer.Sync.Candidates

namespace GoodDealer.Sync

open Desktop List Keyed Symbolic
open Cloud (sampleNote)

variable {H V : Type} {s : Store H} {c : SyncConflict H} {J : SerdeJson H}

/-! ## The two properties -/

/-- The request that names what is stored for an open conflict now. -/
def currentRequest (hash : ConflictValue → V) (s : Store H) (c : SyncConflict H)
    (resolutionId deviceId : String) (activeLeaseEpoch : Nat) (committedAt : Timestamp)
    (choice : ResolutionChoice) : ResolutionRequest V where
  resolutionId := resolutionId
  conflictId := c.conflictId
  expectedCandidateSetVersion := s.appliedThroughServerRevision
  expectedCandidateVersion := c.remoteServerRevision
  expectedRemoteRevision := c.remoteServerRevision
  expectedCurrentValueHash := hash (s.localConflictValue c.entityId c.fieldPath)
  choice := choice
  deviceId := deviceId
  activeLeaseEpoch := activeLeaseEpoch
  committedAt := committedAt

/-- A lease holder resolves under a new identifier, while the counters are not exhausted. -/
structure ResolutionAuthority (db : BusinessDatabase H V) (resolutionId deviceId : String)
    (activeLeaseEpoch : Nat) : Prop where
  validResolution : validIdentifier resolutionId = true
  validDevice : validIdentifier deviceId = true
  epoch : 1 ≤ activeLeaseEpoch ∧ activeLeaseEpoch ≤ maxSafeInteger
  fresh : db.receipt resolutionId = none
  unsent : db.store.outboxRow (resolutionMutationId resolutionId) = none
  room : db.store.localCommitSequence < maxSafeInteger ∧
    db.store.nextDeviceMutationSequence < maxSafeInteger

/-- One of the two choices goes through with the values currently stored. -/
def Resolvable [DecidableEq V] (J : SerdeJson H) (hash : ConflictValue → V)
    (db : BusinessDatabase H V) (c : SyncConflict H) : Prop :=
  ∀ resolutionId deviceId activeLeaseEpoch committedAt,
    ResolutionAuthority db resolutionId deviceId activeLeaseEpoch →
    ∃ choice db' receipt, resolveSyncConflict J hash db (currentRequest hash db.store c resolutionId
      deviceId activeLeaseEpoch committedAt choice) = .ok (db', receipt)

/-- No field version goes back. -/
def RevisionsKept (s s' : Store H) : Prop :=
  ∀ v ∈ s.fieldVersions, ∃ v' ∈ s'.fieldVersions, v'.key = v.key ∧
    v.serverRevision ≤ v'.serverRevision

/-- Every open conflict can be resolved, and no resolution lowers a recorded revision. -/
structure ConflictsSound [DecidableEq V] (J : SerdeJson H) (hash : ConflictValue → V)
    (db : BusinessDatabase H V) : Prop where
  resolvable : ∀ c ∈ db.store.conflicts, Resolvable J hash db c
  revisions : ∀ r db' receipt, resolveSyncConflict J hash db r = .ok (db', receipt) →
    RevisionsKept db.store db'.store

/-! ## The condition -/

/-- What a page may not do to an open candidate: write the value it was recorded against. -/
def Spares (s : Store H) (m : SyncMutation) (c : SyncConflict H) : Prop :=
  c.entityId = m.mutation.entityId →
    match m.mutation.operationKind with
    | .upsert => ∀ f ∈ m.mutation.changedFields, c.fieldPath = .sync f.fieldPath →
        s.FieldPending m.mutation.entityId (.sync f.fieldPath)
    | .delete => c.fieldPath = .lifecycleStatus → s.EntityPending m.mutation.entityId

instance (s : Store H) (m : SyncMutation) (c : SyncConflict H) : Decidable (Spares s m c) :=
  match h : m.mutation.operationKind with
  | .upsert => decidable_of_iff (c.entityId = m.mutation.entityId →
      ∀ f ∈ m.mutation.changedFields, c.fieldPath = .sync f.fieldPath →
        s.FieldPending m.mutation.entityId (.sync f.fieldPath)) (by rw [Spares, h])
  | .delete => decidable_of_iff (c.entityId = m.mutation.entityId →
      c.fieldPath = .lifecycleStatus → s.EntityPending m.mutation.entityId) (by rw [Spares, h])

/-- The paths at which an entry can leave a candidate. -/
def candidatePaths (m : SyncMutation) : List LocalFieldPath :=
  .lifecycleStatus :: m.mutation.changedFields.map (fun f => .sync f.fieldPath)

/-- When an entry meets a pending value: nothing of the entity is being sent, no field version
of it is ahead of the entry, and the identifier of the candidate is not too long. -/
@[mk_iff] structure Recordable (s : Store H) (m : SyncMutation) : Prop where
  unsent : ∀ row ∈ s.outbox, row.mutation.entityId = m.mutation.entityId → row.isSending = false
  versions : ∀ v ∈ s.fieldVersions, v.entityId = m.mutation.entityId →
    v.serverRevision ≤ m.serverRevision
  identifiers : ∀ path ∈ candidatePaths m, validIdentifier (candidateId m path) = true

instance (s : Store H) (m : SyncMutation) : Decidable (Recordable s m) :=
  decidable_of_iff _ (recordable_iff s m).symm

/-- The row has the value the candidate was recorded against. -/
def KeepsValue (row : DomainAssetProjectionRow) (c : SyncConflict H) : Prop :=
  match c.fieldPath with
  | .sync path => c.localValue = .field (fieldAt row path)
  | .lifecycleStatus => True

instance (row : DomainAssetProjectionRow) (c : SyncConflict H) : Decidable (KeepsValue row c) :=
  match h : c.fieldPath with
  | .sync path => decidable_of_iff (c.localValue = .field (fieldAt row path))
      (by rw [KeepsValue, h])
  | .lifecycleStatus => isTrue (by rw [KeepsValue, h]; trivial)

/-- The condition on a step. -/
def Careful (db : BusinessDatabase H V) : DatabaseEvent H V → Prop
  | .outbox (.commit _ (.edit row)) => ∀ c ∈ db.store.conflicts, c.entityId = row.entityId →
      KeepsValue row c
  | .outbox (.claim ..) => ∀ row ∈ db.store.outbox, row.isOpen = true →
      ∀ c ∈ db.store.conflicts, c.entityId ≠ row.mutation.entityId
  | .outbox _ => True
  | .applyPage page _ =>
    page.returnedThroughServerRevision = page.throughServerRevisionInclusive ∧
    ∀ m ∈ page.mutations, (Contested db.store m → Recordable db.store m) ∧
      ∀ c ∈ db.store.conflicts, Spares db.store m c
  | .resolve r => r.choice = .acceptRemote → ∀ c ∈ db.openConflict r.conflictId,
      ∀ c' ∈ db.store.conflicts, c'.entityId = c.entityId → c'.fieldPath = c.fieldPath →
        c'.conflictId = c.conflictId

instance (db : BusinessDatabase H V) : ∀ e, Decidable (Careful db e)
  | .outbox (.commit _ (.edit row)) => inferInstanceAs
      (Decidable (∀ c ∈ db.store.conflicts, c.entityId = row.entityId → KeepsValue row c))
  | .outbox (.claim ..) => inferInstanceAs (Decidable (∀ row ∈ db.store.outbox, _ → ∀ c ∈ _, _))
  | .outbox (.commit _ (.delete _)) | .outbox (.acknowledge ..) | .outbox (.defer ..)
  | .outbox (.reject ..) => isTrue trivial
  | .applyPage page _ => inferInstanceAs (Decidable (_ ∧ ∀ m ∈ page.mutations,
      (Contested db.store m → Recordable db.store m) ∧ ∀ c ∈ db.store.conflicts, _))
  | .resolve r => inferInstanceAs (Decidable (r.choice = .acceptRemote →
      ∀ c ∈ db.openConflict r.conflictId, ∀ c' ∈ db.store.conflicts, _ → _ → _))

/-! ## The invariant -/

/-- The candidate can be resolved with what is stored. -/
structure Anchored (s : Store H) (c : SyncConflict H) : Prop where
  conflictId : validIdentifier c.conflictId = true
  revision : 1 ≤ c.remoteServerRevision
  row : (s.portfolioRow c.entityId).isSome = true
  asset : (s.domainAsset c.entityId).isSome = true
  value : s.localConflictValue c.entityId c.fieldPath = c.localValue
  remote : ∀ path f, c.fieldPath = .sync path → remoteField path c.remoteValue = some f →
    f.fieldPath = path
  unsent : ∀ row ∈ s.outbox, row.mutation.entityId = c.entityId → row.isSending = false
  version : ∀ v ∈ s.fieldVersions, v.key = (c.entityId, c.fieldPath) →
    v.serverRevision ≤ c.remoteServerRevision
  tombstone : c.fieldPath = .lifecycleStatus → s.Tombstoned c.entityId
  recorded : c.fieldPath ≠ .lifecycleStatus →
    (c.entityId, c.fieldPath) ∈ s.fieldVersions.map FieldVersion.key

/-- Every open candidate is anchored, and the rows a new one needs are there. -/
structure Settleable (s : Store H) : Prop where
  anchored : ∀ c ∈ s.conflicts, Anchored s c
  unique : (s.conflicts.map SyncConflict.conflictId).Nodup
  applied : s.conflicts ≠ [] → 1 ≤ s.appliedThroughServerRevision
  caughtUp : ∀ r ∈ s.readers, r.pinnedTargetServerRevision ≤ r.readThroughServerRevision
  live : ∀ e a, s.domainAsset e = some a → a.deletedAt = none → (s.portfolioRow e).isSome = true
  pending : ∀ v ∈ s.fieldVersions, v.isPending = true → (s.portfolioRow v.entityId).isSome = true

/-! ## What the invariant gives -/

section

theorem Anchored.read (h : Anchored s c) :
    s.readResolutionField c.entityId c.fieldPath = .ok c.localValue := by
  obtain ⟨a, ha⟩ := Option.isSome_iff_exists.mp h.row
  obtain ⟨asset, hasset⟩ := Option.isSome_iff_exists.mp h.asset
  have hvalue := h.value
  unfold Store.localConflictValue at hvalue
  unfold Store.readResolutionField
  rw [ha]
  cases hpath : c.fieldPath with
  | sync path =>
    rw [hpath, ha] at hvalue
    exact congrArg Except.ok hvalue
  | lifecycleStatus =>
    rw [hpath, hasset] at hvalue
    rw [hasset]
    exact congrArg Except.ok hvalue

variable {hash : ConflictValue → V} {db : BusinessDatabase H V}

theorem Anchored.not_stale [DecidableEq V] (h : Anchored s c) (hs : Settleable s)
    (resolutionId deviceId : String) (activeLeaseEpoch : Nat) (committedAt : Timestamp)
    (choice : ResolutionChoice) :
    staleResolution hash s c (currentRequest hash s c resolutionId deviceId activeLeaseEpoch
      committedAt choice) c.localValue = false := by
  have hreaders : s.readerNotCaughtUp = false := by
    refine any_eq_false.mpr fun r hr => ?_
    simpa using hs.caughtUp r hr
  have hunsent : s.involvedOutcomeUnknown c.entityId = false := by
    refine any_eq_false.mpr fun row hrow => ?_
    rw [Bool.and_eq_true, decide_eq_true_eq]
    rintro ⟨hentity, hsending⟩
    rw [h.unsent row hrow hentity] at hsending
    cases hsending
  simp [staleResolution, currentRequest, h.value, hreaders, hunsent]

/-- The choice that goes through: a delete can only be accepted. -/
def closingChoice : LocalFieldPath → ResolutionChoice
  | .sync _ => .keepLocal
  | .lifecycleStatus => .acceptRemote

theorem Anchored.choice_ok (h : Anchored db.store c)
    {resolutionId deviceId : String} {activeLeaseEpoch : Nat}
    (hauthority : ResolutionAuthority db resolutionId deviceId activeLeaseEpoch)
    (r : ResolutionRequest V) (hid : r.resolutionId = resolutionId)
    (hepoch : r.activeLeaseEpoch = activeLeaseEpoch)
    (hchoice : r.choice = closingChoice c.fieldPath) :
    ∃ s', resolveChoice db.store c r = .ok s' := by
  unfold resolveChoice
  rw [hchoice]
  cases hpath : c.fieldPath with
  | lifecycleStatus =>
    simp only [closingChoice, applyRemoteResolution, hpath]
    exact ⟨_, rfl⟩
  | sync path =>
    obtain ⟨a, ha⟩ := Option.isSome_iff_exists.mp h.row
    obtain ⟨hlocal, hdevice⟩ := hauthority.room
    obtain ⟨hpos, hmax⟩ := hauthority.epoch
    have hsmall : ¬ 2 ^ 63 ≤ activeLeaseEpoch := by
      simp only [maxSafeInteger] at hmax
      omega
    simp only [closingChoice, keepLocal, hpath, reduceCtorEq, if_false, ha, hid, hepoch,
      not_le.mpr hlocal, not_le.mpr hdevice, or_self, hsmall, not_lt.mpr hmax,
      hauthority.unsent, Option.isSome_none, Bool.false_eq_true]
    exact ⟨_, rfl⟩

theorem Anchored.resolvable [DecidableEq V] (hs : Settleable db.store)
    (hc : c ∈ db.store.conflicts) : Resolvable J hash db c := by
  intro resolutionId deviceId activeLeaseEpoch committedAt hauthority
  have h := hs.anchored c hc
  have happlied : db.store.appliedThroughServerRevision ≠ 0 :=
    Nat.ne_of_gt (hs.applied (ne_nil_of_mem hc))
  have hrevision : c.remoteServerRevision ≠ 0 := Nat.ne_of_gt h.revision
  have hepoch : activeLeaseEpoch ≠ 0 := Nat.ne_of_gt hauthority.epoch.1
  have hopen : db.openConflict c.conflictId = some c := lookup_of_mem hs.unique hc
  let r := currentRequest hash db.store c resolutionId deviceId activeLeaseEpoch committedAt
    (closingChoice c.fieldPath)
  have hvalid : invalidResolution r = false := by
    simp [r, invalidResolution, currentRequest, hauthority.validResolution, hauthority.validDevice,
      h.conflictId, happlied, hrevision, hepoch]
  have hstale : staleResolution hash db.store c r c.localValue = false :=
    h.not_stale hs resolutionId deviceId activeLeaseEpoch committedAt _
  obtain ⟨s', hs'⟩ := h.choice_ok hauthority r rfl rfl rfl
  have hfresh : db.receipt r.resolutionId = none := hauthority.fresh
  have hfound : db.openConflict r.conflictId = some c := hopen
  refine ⟨closingChoice c.fieldPath, ⟨s'.closeConflict J c, db.resolved ++ [c],
    db.receipts ++ [r.receipt]⟩, r.receipt, ?_⟩
  show resolveSyncConflict J hash db r = _
  simp only [resolveSyncConflict, hvalid, Bool.false_eq_true, if_false, hfresh, hfound, h.read,
    hstale, hs']

/-- A resolution of an anchored candidate. -/
theorem revisionsKept_of_write {r : ResolutionRequest V} {s' : Store H}
    (hversion : ∀ v ∈ s.fieldVersions, v.key = (c.entityId, c.fieldPath) →
      v.serverRevision ≤ c.remoteServerRevision)
    (hwrite : ResolutionWrite c r s s') : RevisionsKept s s' := by
  have haccepted : ∀ v ∈ s.fieldVersions, ∃ v' ∈ c.acceptedVersions s.fieldVersions,
      v'.key = v.key ∧ v.serverRevision ≤ v'.serverRevision := by
    intro v hv
    refine ⟨_, mem_adjust.mpr ⟨v, hv, rfl⟩, ?_⟩
    split
    next hk => exact ⟨rfl, hversion v hv hk⟩
    · exact ⟨rfl, le_rfl⟩
  cases hwrite with
  | acceptField | acceptDelete => exact haccepted
  | keep => exact fun v hv => ⟨v, hv, rfl, le_rfl⟩

theorem conflictsSound_of_settleable [DecidableEq V] (hs : Settleable db.store) :
    ConflictsSound J hash db where
  resolvable := fun _ hc => Anchored.resolvable hs hc
  revisions := by
    intro r db' receipt hresolve
    rcases resolveSyncConflict_cases hresolve with rfl | ⟨c, s', hresolved, rfl⟩
    · exact fun v hv => ⟨v, hv, rfl, le_rfl⟩
    · have hc := (lookup_eq_some hresolved.found).1
      have h := revisionsKept_of_write (hs.anchored c hc).version hresolved.write
      exact h

end

/-! ## Transactions that keep a candidate anchored -/

section

variable {P : Platform H} {s' : Store H}

variable {e : String}

theorem SameAsset.localConflictValue (h : SameAsset e s s') (path : LocalFieldPath) :
    s'.localConflictValue e path = s.localConflictValue e path := by
  unfold Store.localConflictValue
  rw [h.asset, h.row]

/-- A write that leaves the rows and the field version of the candidate alone. -/
theorem Anchored.of_frame (h : Anchored s c)
    (hasset : s'.domainAsset c.entityId = s.domainAsset c.entityId)
    (hrow : s'.portfolioRow c.entityId = s.portfolioRow c.entityId)
    (hunsent : ∀ row ∈ s'.outbox, row.mutation.entityId = c.entityId → row.isSending = false)
    (hversions : ∀ v ∈ s'.fieldVersions, v.key = (c.entityId, c.fieldPath) → v ∈ s.fieldVersions)
    (hkeys : ∀ k ∈ s.fieldVersions.map FieldVersion.key,
      k ∈ s'.fieldVersions.map FieldVersion.key)
    (htomb : s.Tombstoned c.entityId → s'.Tombstoned c.entityId) : Anchored s' c where
  conflictId := h.conflictId
  revision := h.revision
  row := hrow ▸ h.row
  asset := hasset ▸ h.asset
  value := by
    rw [← h.value]
    unfold Store.localConflictValue
    rw [hasset, hrow]
  remote := h.remote
  unsent := hunsent
  version := fun v hv hk => h.version v (hversions v hv hk) hk
  tombstone := fun hpath => htomb (h.tombstone hpath)
  recorded := fun hpath => hkeys _ (h.recorded hpath)

/-! ### Local mutations -/

variable {r : ResolutionRequest V} {c₀ : SyncConflict H} {op : LocalOperation} {path : FieldPath}
  {f : ChangedField}

section

variable {r : MutationRequest}

theorem tombstoned_mutated (h : s.Tombstoned e) : (s.mutated r op).Tombstoned e := by
  cases op with
  | edit asset => exact h
  | delete entityId =>
    show e ∈ List.map Tombstone.entityId (_ ++ _)
    rw [map_append]
    exact mem_append_left _ h

theorem portfolioRow_mutated_isSome
    (h : (s.portfolioRow e).isSome = true) : ((s.mutated r op).portfolioRow e).isSome = true := by
  by_cases he : e = op.entityId
  · subst he
    cases op with
    | delete entityId => exact h
    | edit asset =>
      show ((s.mutated r (.edit asset)).portfolioRow asset.entityId).isSome = true
      rw [portfolioRow_mutated_edit, Option.isSome_map]
      exact h
  · rw [(SameAsset.mutated r he).row]
    exact h

variable (h : Anchored s c) (hcommitted : Committed s r op)

include h hcommitted

/-- A local mutation of the entity of a candidate of a delete is an edit. -/
theorem Anchored.not_delete (hentity : c.entityId = op.entityId)
    (hpath : c.fieldPath = .lifecycleStatus) : op.kind ≠ .delete := by
  intro hkind
  apply hcommitted.untombstoned hkind
  rw [← hentity]
  exact h.tombstone hpath

/-- The field version of a candidate keeps its revision. -/
theorem Anchored.version_mutated (v : FieldVersion) (hv : v ∈ (s.mutated r op).fieldVersions)
    (hk : v.key = (c.entityId, c.fieldPath)) : v.serverRevision ≤ c.remoteServerRevision := by
  rcases mem_foldl_markPending_marked hv with hv | hmarked
  · exact h.version v hv hk
  rcases hmarked.revision with ⟨u, hu, hku, hrev⟩ | ⟨_, hfresh⟩
  · rw [← hrev]
    exact h.version u hu (hku.trans hk)
  · -- a version the write adds belongs to no candidate
    obtain ⟨hentity, hpath⟩ := Prod.mk.inj hk
    by_cases hlife : c.fieldPath = .lifecycleStatus
    · have hmem := hmarked.path
      have hsame : c.entityId = op.entityId := hentity.symm.trans hmarked.entityId
      have hkind := h.not_delete hcommitted hsame hlife
      cases op with
      | edit asset =>
        rw [show v.fieldPath = .lifecycleStatus from hpath.trans hlife] at hmem
        obtain ⟨_, _, heq⟩ := mem_map.mp hmem
        cases heq
      | delete entityId => exact absurd rfl hkind
    · exact absurd (hk ▸ h.recorded hlife) hfresh

theorem anchored_mutated
    (hcareful : ∀ row, op = .edit row → c.entityId = row.entityId → KeepsValue row c) :
    Anchored (s.mutated r op) c where
  conflictId := h.conflictId
  revision := h.revision
  row := portfolioRow_mutated_isSome h.row
  asset := by
    by_cases he : c.entityId = op.entityId
    · rw [he, domainAsset_mutated, Option.isSome_map, ← he]
      exact h.asset
    · rw [(SameAsset.mutated r he).asset]
      exact h.asset
  value := by
    by_cases he : c.entityId = op.entityId
    · cases hpath : c.fieldPath with
      | lifecycleStatus =>
        have hkind := h.not_delete hcommitted he hpath
        have hvalue := h.value
        obtain ⟨a, ha⟩ := Option.isSome_iff_exists.mp h.asset
        have hnew := domainAsset_mutated s r op
        rw [← he, ha, Option.map_some] at hnew
        simp only [Store.localConflictValue, hpath, ha] at hvalue
        simp only [Store.localConflictValue, hnew]
        rw [← hvalue]
        cases op with
        | edit asset => rfl
        | delete entityId => exact absurd rfl hkind
      | sync path =>
        cases op with
        | delete entityId =>
          have hvalue := h.value
          rw [hpath] at hvalue
          exact hvalue
        | edit asset =>
          have hrow := portfolioRow_mutated_edit s r asset
          obtain ⟨a, ha⟩ := Option.isSome_iff_exists.mp h.row
          rw [show asset.entityId = c.entityId from he.symm, ha, Option.map_some] at hrow
          simp only [Store.localConflictValue, hrow]
          have hkeeps := hcareful asset rfl he
          rw [KeepsValue, hpath] at hkeeps
          exact hkeeps.symm
    · exact (SameAsset.localConflictValue (.mutated r he) _).trans h.value
  remote := h.remote
  unsent := forall_mem_append.mpr ⟨h.unsent, forall_mem_singleton.mpr fun _ => rfl⟩
  version := h.version_mutated hcommitted
  tombstone := fun hpath => tombstoned_mutated (h.tombstone hpath)
  recorded := fun hpath => key_mem_foldl_markPending (h.recorded hpath)

end

/-! ### The delivery cycle -/

theorem anchored_settleWrite (h : Anchored s c) (hwrite : SettleWrite s s') : Anchored s' c := by
  have hsame := SameAsset.settleWrite hwrite (e := c.entityId)
  refine h.of_frame hsame.asset hsame.row ?_ ?_ ?_ (tombstoned_settleWrite hwrite _).mpr
  · intro row' hrow' hentity
    cases hwrite with
    | row mutationId state _ unsent =>
      obtain ⟨row, hrow, rfl⟩ := mem_adjust.mp hrow'
      split
      · refine Bool.eq_false_iff.mpr fun hsending => ?_
        obtain ⟨owner, lease, fence, hstate⟩ := OutboxRow.isSending_iff.mp hsending
        exact unsent owner lease fence hstate
      next hne =>
        rw [if_neg hne] at hentity
        exact h.unsent row hrow hentity
    | acknowledge acked serverRevision =>
      obtain ⟨row, hrow, rfl⟩ := mem_adjust.mp hrow'
      split
      · rfl
      next hne =>
        rw [if_neg hne] at hentity
        exact h.unsent row hrow hentity
  · cases hwrite with
    | row => exact fun v hv _ => hv
    | acknowledge row serverRevision found sending =>
      intro v' hv' hk
      obtain ⟨v, hv, rfl⟩ := mem_map.mp hv'
      -- the acknowledged row was being sent, so it is of another entity
      unfold cleanFields at hk ⊢
      split
      next hclean =>
        rw [if_pos hclean] at hk
        have hentity : row.mutation.entityId = c.entityId :=
          hclean.1.symm.trans (Prod.mk.inj hk).1
        rw [h.unsent row (lookup_eq_some found).1 hentity] at sending
        cases sending
      · exact hv
  · cases hwrite with
    | row => exact fun k hk => hk
    | acknowledge row serverRevision =>
      intro k hk
      obtain ⟨v, hv, rfl⟩ := mem_map.mp hk
      refine mem_map.mpr ⟨_, mem_map_of_mem hv, ?_⟩
      unfold cleanFields
      split <;> rfl

/-- A claim sends rows that are open. -/
theorem isOpen_of_claimed [DecidableEq H] {owner : String} {now lease : Timestamp} {limit : Nat}
    (hs : s.UniqueMutationIds) {row' : OutboxRow H}
    (hrow' : row' ∈ ((outbox J P).next s (.claim owner now lease limit)).outbox)
    (hsending : row'.isSending = true) :
    ∃ row ∈ s.outbox, row.mutation = row'.mutation ∧ row.isOpen = true := by
  have hunique := outbox_uniqueMutationIds (J := J) (P := P) hs (.claim owner now lease limit)
  have hstep := outbox_rowStep (J := J) (P := P) hs (.claim owner now lease limit) row'.mutationId
  rw [hunique.lookup hrow'] at hstep
  generalize hbefore : s.outboxRow row'.mutationId = o at hstep
  cases hstep with
  | same =>
    obtain ⟨_, _, _, hstate⟩ := OutboxRow.isSending_iff.mp hsending
    exact ⟨row', (lookup_eq_some hbefore).1, rfl, OutboxRow.isOpen_of_sending hstate⟩
  | appended _ hstate =>
    obtain ⟨_, _, _, hsent⟩ := OutboxRow.isSending_iff.mp hsending
    rw [hstate] at hsent
    cases hsent
  | @claimed row _ _ hopen => exact ⟨row, (lookup_eq_some hbefore).1, rfl, hopen⟩
  | closed => cases hsending
  | settled _ hreleased =>
    obtain ⟨_, _, _, hsent⟩ := OutboxRow.isSending_iff.mp hsending
    exact absurd hsent (hreleased _ _ _)

/-! ### Entries of a page -/

theorem fieldAt_applyField_ne (row : DomainAssetProjectionRow)
    (h : path ≠ f.fieldPath) : fieldAt (row.applyField f) path = fieldAt row path := by
  cases f <;> cases path <;> first | rfl | exact absurd rfl h

section

variable {m : SyncMutation} (hwrite : EntryWrite J P m s s')

include hwrite

theorem outbox_of_entryWrite : s'.outbox = s.outbox := by
  cases hwrite <;> rfl

theorem tombstoned_of_entryWrite (ht : s.Tombstoned e) : s'.Tombstoned e := by
  cases hwrite with
  | contest | contestAgain | delete => exact mem_put_tombstone.mpr (.inl ht)
  | candidate | ensure | field => exact ht

theorem portfolioRow_of_entryWrite
    (hrow : (s.portfolioRow e).isSome = true) : (s'.portfolioRow e).isSome = true := by
  by_cases he : e = m.mutation.entityId
  · subst he
    cases hwrite with
    | candidate | contest | contestAgain | delete => exact hrow
    | ensure => rw [portfolioRow_ensureAsset]; rfl
    | field => rw [portfolioRow_writeField, Option.isSome_map]; exact hrow
  · rw [(SameAsset.entryWrite hwrite he).row]
    exact hrow

theorem domainAsset_of_entryWrite
    (hasset : (s.domainAsset e).isSome = true) : (s'.domainAsset e).isSome = true := by
  by_cases he : e = m.mutation.entityId
  · subst he
    cases hwrite with
    | candidate | contest | contestAgain | field => exact hasset
    | delete => rw [Store.domainAsset, lookup_archived]; rfl
    | ensure => rw [domainAsset_ensureAsset]; rfl
  · rw [(SameAsset.entryWrite hwrite he).asset]
    exact hasset

/-- An entry writes the versions of the fields of its own that are not pending. -/
theorem version_of_entryWrite {v : FieldVersion}
    (hv : v ∈ s'.fieldVersions) :
    v ∈ s.fieldVersions ∨ m.mutation.operationKind = .upsert ∧ ∃ f ∈ m.mutation.changedFields,
      v.key = (m.mutation.entityId, .sync f.fieldPath) ∧
        ¬ s.FieldPending m.mutation.entityId (.sync f.fieldPath) := by
  cases hwrite with
  | candidate | contest | contestAgain | delete | ensure => exact .inl hv
  | @field f upsert field clean _ =>
    rcases mem_put hv with hv | rfl | ⟨u, _, hk, rfl⟩
    · exact .inl hv
    · exact .inr ⟨upsert, f, field, rfl, clean⟩
    · exact .inr ⟨upsert, f, field, hk, clean⟩

theorem key_mem_of_entryWrite {k : String × LocalFieldPath}
    (hk : k ∈ s.fieldVersions.map FieldVersion.key) :
    k ∈ s'.fieldVersions.map FieldVersion.key := by
  cases hwrite with
  | candidate | contest | contestAgain | delete | ensure => exact hk
  | field =>
    apply (key_mem_put ?_).mpr (.inl hk)
    exact fun _ hb => hb

variable (h : Anchored s c) (hspares : Spares s m c)

include h hspares

/-- The value a candidate was recorded against is not written. -/
theorem Anchored.value_of_entryWrite :
    s'.localConflictValue c.entityId c.fieldPath =
      s.localConflictValue c.entityId c.fieldPath := by
  by_cases he : c.entityId = m.mutation.entityId
  case neg => exact SameAsset.localConflictValue (.entryWrite hwrite he) _
  cases hwrite with
  | candidate | contest | contestAgain => rfl
  | delete delete clean =>
    cases hpath : c.fieldPath with
    | sync path => rfl
    | lifecycleStatus =>
      have hpending := hspares he
      rw [delete] at hpending
      exact absurd (hpending hpath) clean
  | ensure _ untombstoned =>
    cases hpath : c.fieldPath with
    | lifecycleStatus => exact absurd (he ▸ h.tombstone hpath) untombstoned
    | sync path =>
      obtain ⟨a, ha⟩ := Option.isSome_iff_exists.mp h.row
      have hrow := portfolioRow_ensureAsset s m.mutation.entityId
      rw [← he, ha, Option.getD_some] at hrow
      simp only [Store.localConflictValue, ← he, hrow, ha]
  | @field f upsert field clean _ =>
    cases hpath : c.fieldPath with
    | lifecycleStatus => rfl
    | sync path =>
      have hne : path ≠ f.fieldPath := by
        rintro rfl
        have hpending := hspares he
        rw [upsert] at hpending
        exact clean (hpending f field hpath)
      obtain ⟨a, ha⟩ := Option.isSome_iff_exists.mp h.row
      have hrow := portfolioRow_writeField s m.mutation.entityId m.serverRevision f
      rw [← he, ha, Option.map_some] at hrow
      simp only [Store.localConflictValue, ← he, hrow, ha, fieldAt_applyField_ne a.row hne]

theorem anchored_entryWrite : Anchored s' c where
  conflictId := h.conflictId
  revision := h.revision
  row := portfolioRow_of_entryWrite hwrite h.row
  asset := domainAsset_of_entryWrite hwrite h.asset
  value := (h.value_of_entryWrite hwrite hspares).trans h.value
  remote := h.remote
  unsent := by rw [outbox_of_entryWrite hwrite]; exact h.unsent
  version := by
    intro v hv hk
    rcases version_of_entryWrite hwrite hv with hv | ⟨hupsert, f, hf, hkey, hclean⟩
    · exact h.version v hv hk
    · obtain ⟨hentity, hpath⟩ := Prod.mk.inj (hk.symm.trans hkey)
      have hpending := hspares hentity
      rw [hupsert] at hpending
      exact absurd (hpending f hf hpath) hclean
  tombstone := fun hpath => tombstoned_of_entryWrite hwrite (h.tombstone hpath)
  recorded := fun hpath => key_mem_of_entryWrite hwrite (h.recorded hpath)

end

/-! ### New candidates -/

/-- The remote value of a candidate is of its field. -/
theorem fieldPath_of_remote {m : SyncMutation} (hupsert : m.mutation.operationKind = .upsert)
    (h : remoteField path (remoteConflictValue m (.sync path)) = some f) : f.fieldPath = path := by
  have hnull : remoteField path .null = some f → f.fieldPath = path := by
    intro h
    cases path <;> cases h <;> rfl
  unfold remoteConflictValue at h
  rw [hupsert] at h
  simp only at h
  split at h
  next g hg =>
    cases h
    have hfound := List.find?_some hg
    have hpath := of_decide_eq_true hfound
    cases hpath
    rfl
  · exact hnull h

/-- The database while a page is applied that started at `s`. -/
structure PageInvariant (s : Store H) (page : MutationPage H) (t : Store H) : Prop where
  anchored : ∀ c ∈ t.conflicts, Anchored t c
  unique : (t.conflicts.map SyncConflict.conflictId).Nodup
  live : ∀ e a, t.domainAsset e = some a → a.deletedAt = none → (t.portfolioRow e).isSome = true
  pending : ∀ v ∈ t.fieldVersions, v.isPending = true → (t.portfolioRow v.entityId).isSome = true
  outbox : t.outbox = s.outbox
  fieldPending : ∀ e path, t.FieldPending e path ↔ s.FieldPending e path
  versions : ∀ v ∈ t.fieldVersions, v ∈ s.fieldVersions ∨
    ∃ path, v.fieldPath = .sync path ∧ ¬ s.FieldPending v.entityId (.sync path)
  spares : ∀ c ∈ t.conflicts, ∀ m ∈ page.mutations, Spares s m c

section

variable {page : MutationPage H} {t t' : Store H} {m : SyncMutation}

/-- A candidate at a pending value is spared by every entry. -/
theorem spares_of_pending
    (hfield : c.fieldPath ≠ .lifecycleStatus → s.FieldPending c.entityId c.fieldPath)
    (hentity : s.EntityPending c.entityId) (m : SyncMutation) : Spares s m c := by
  intro he
  split
  · intro f _ hpath
    rw [← he, ← hpath]
    exact hfield (by rw [hpath]; exact fun h => by cases h)
  · intro _
    rw [← he]
    exact hentity

/-- Nothing but the counters and the inbox changed. -/
theorem Anchored.of_eq (h : Anchored s c) (hassets : s'.domainAssets = s.domainAssets)
    (hrows : s'.portfolioDomainAssets = s.portfolioDomainAssets) (houtbox : s'.outbox = s.outbox)
    (hversions : s'.fieldVersions = s.fieldVersions) (htombs : s'.tombstones = s.tombstones) :
    Anchored s' c := by
  refine h.of_frame ?_ ?_ (houtbox ▸ h.unsent) ?_ ?_ ?_
  · rw [Store.domainAsset, Store.domainAsset, hassets]
  · rw [Store.portfolioRow, Store.portfolioRow, hrows]
  · exact hversions ▸ fun _ hv _ => hv
  · exact hversions ▸ fun _ hk => hk
  · rw [Store.Tombstoned, Store.Tombstoned, htombs]
    exact id

section

variable (h : PageInvariant s page t)

include h

theorem PageInvariant.entityPending (e : String) : t.EntityPending e ↔ s.EntityPending e := by
  rw [Store.entityPending_iff, Store.entityPending_iff]
  exact exists_congr fun path => h.fieldPending e path

/-- The candidate of a field that is pending. -/
theorem anchored_candidate (hrecord : Recordable s m)
    (hrevision : 1 ≤ m.serverRevision) (hupsert : m.mutation.operationKind = .upsert)
    (hf : f ∈ m.mutation.changedFields)
    (hpending : t.FieldPending m.mutation.entityId (.sync f.fieldPath))
    (hensured : t.Ensured m.mutation.entityId) (asset : DomainAsset) :
    Anchored t (candidate P t m (.sync f.fieldPath) asset) where
  conflictId := hrecord.identifiers _ (mem_cons_of_mem _ (mem_map_of_mem hf))
  revision := hrevision
  row := hensured.row
  asset := by
    obtain ⟨a, ha, _⟩ := hensured.asset
    exact Option.isSome_iff_exists.mpr ⟨a, ha⟩
  value := rfl
  remote := by
    intro path g hpath hg
    cases hpath
    exact fieldPath_of_remote hupsert hg
  unsent := by rw [h.outbox]; exact hrecord.unsent
  version := by
    intro v hv hk
    obtain ⟨hentity, hpath⟩ := Prod.mk.inj hk
    rcases h.versions v hv with hv | ⟨path, hvpath, hclean⟩
    · exact hrecord.versions v hv hentity
    · -- the version of a pending field was not written by the page
      rw [hvpath] at hpath
      cases hpath
      rw [hentity] at hclean
      exact absurd ((h.fieldPending _ _).mp hpending) hclean
  tombstone := fun hpath => by cases hpath
  recorded := by
    intro _
    obtain ⟨v, hv, hk, _⟩ := hpending
    exact mem_map.mpr ⟨v, hv, hk⟩

/-- The candidate of a delete, once its tombstone is written. -/
theorem anchored_contest (hrecord : Recordable s m)
    (hrevision : 1 ≤ m.serverRevision)
    (hpending : t.EntityPending m.mutation.entityId) {asset : DomainAsset}
    (hfound : t.domainAsset m.mutation.entityId = some asset) (hrows : t'.outbox = t.outbox)
    (hversions : t'.fieldVersions = t.fieldVersions)
    (hsame : SameAsset m.mutation.entityId t t')
    (htomb : t'.Tombstoned m.mutation.entityId) :
    Anchored t' (candidate P t m .lifecycleStatus asset) where
  conflictId := hrecord.identifiers _ mem_cons_self
  revision := hrevision
  row := by
    obtain ⟨v, hv, hentity, hp⟩ := hpending
    show (t'.portfolioRow m.mutation.entityId).isSome = true
    rw [hsame.row, ← hentity]
    exact h.pending v hv hp
  asset := by
    show (t'.domainAsset m.mutation.entityId).isSome = true
    rw [hsame.asset, hfound]
    rfl
  value := SameAsset.localConflictValue hsame _
  remote := fun path g hpath => by cases hpath
  unsent := by rw [hrows, h.outbox]; exact hrecord.unsent
  version := by
    intro v hv hk
    obtain ⟨hentity, hpath⟩ := Prod.mk.inj hk
    rw [hversions] at hv
    rcases h.versions v hv with hv | ⟨path, hvpath, _⟩
    · exact hrecord.versions v hv hentity
    · rw [hvpath] at hpath
      cases hpath
  tombstone := fun _ => htomb
  recorded := fun hpath => absurd rfl hpath

theorem PageInvariant.spares_now (hc : c ∈ t.conflicts)
    (hm : m ∈ page.mutations) : Spares t m c := by
  intro he
  have hspares := h.spares c hc m hm he
  cases hkind : m.mutation.operationKind with
  | upsert =>
    rw [hkind] at hspares
    exact fun f hf hpath => (h.fieldPending _ _).mpr (hspares f hf hpath)
  | delete =>
    rw [hkind] at hspares
    exact fun hpath => (h.entityPending _).mpr (hspares hpath)

/-- What a write adds to the open conflicts. -/
theorem PageInvariant.conflicts_of_write
    (hrecord : Contested s m → Recordable s m) (hrevision : 1 ≤ m.serverRevision)
    (hwrite : EntryWrite J P m t t') :
    t'.conflicts = t.conflicts ∨ ∃ c, t'.conflicts = t.conflicts ++ [c] ∧ Anchored t' c ∧
      (∀ x ∈ t.conflicts, x.conflictId ≠ c.conflictId) ∧
      (c.fieldPath ≠ .lifecycleStatus → s.FieldPending c.entityId c.fieldPath) ∧
      s.EntityPending c.entityId := by
  cases hwrite with
  | @candidate f asset upsert field pending ensured found new =>
    have hpending := (h.fieldPending _ _).mp pending
    have hcontested : Contested s m := by
      rw [Contested, upsert]
      exact ⟨f, field, hpending⟩
    have hanchored := anchored_candidate (P := P) h (hrecord hcontested) hrevision upsert field
      pending ensured asset
    exact .inr ⟨_, rfl, hanchored.of_eq rfl rfl rfl rfl rfl, new, fun _ => hpending,
      Store.entityPending_iff.mpr ⟨_, hpending⟩⟩
  | contest delete pending found new =>
    have hpending := (h.entityPending _).mp pending
    have hcontested : Contested s m := by
      rw [Contested, delete]
      exact hpending
    exact .inr ⟨_, rfl, anchored_contest h (hrecord hcontested) hrevision pending found rfl rfl
      ⟨rfl, rfl, rfl⟩ (mem_put_tombstone.mpr (.inr rfl)), new, fun hpath => absurd rfl hpath,
      hpending⟩
  | contestAgain | delete | ensure | field => exact .inl rfl

theorem PageInvariant.live_of_write (hwrite : EntryWrite J P m t t')
    (e : String) (a : DomainAsset) (ha : t'.domainAsset e = some a) (hlive : a.deletedAt = none) :
    (t'.portfolioRow e).isSome = true := by
  by_cases he : e = m.mutation.entityId
  case neg =>
    have hsame := SameAsset.entryWrite hwrite he
    rw [hsame.asset] at ha
    rw [hsame.row]
    exact h.live e a ha hlive
  subst he
  have hkept := fun hrow => portfolioRow_of_entryWrite hwrite (e := m.mutation.entityId) hrow
  cases hwrite with
  | candidate | contest | contestAgain | field => exact hkept (h.live _ a ha hlive)
  | delete =>
    rw [Store.domainAsset, lookup_archived] at ha
    cases ha
    cases hlive
  | ensure =>
    rw [portfolioRow_ensureAsset]
    rfl

theorem PageInvariant.write (hm : m ∈ page.mutations)
    (hrecord : Contested s m → Recordable s m) (hrevision : 1 ≤ m.serverRevision)
    (hwrite : EntryWrite J P m t t') : PageInvariant s page t' := by
  have hold : ∀ c ∈ t.conflicts, Anchored t' c := fun c hc =>
    anchored_entryWrite hwrite (h.anchored c hc) (h.spares_now hc hm)
  have hconflicts := h.conflicts_of_write hrecord hrevision hwrite
  refine
    { anchored := ?_
      unique := ?_
      live := h.live_of_write hwrite
      pending := ?_
      outbox := (outbox_of_entryWrite hwrite).trans h.outbox
      fieldPending := fun e path => (hwrite.fieldPending e path).trans (h.fieldPending e path)
      versions := ?_
      spares := ?_ }
  · rcases hconflicts with heq | ⟨new, heq, hnew, _⟩
    · rw [heq]
      exact hold
    · rw [heq]
      exact forall_mem_append.mpr ⟨hold, forall_mem_singleton.mpr hnew⟩
  · rcases hconflicts with heq | ⟨new, heq, _, hfresh, _⟩
    · rw [heq]
      exact h.unique
    · rw [heq]
      exact nodup_append_new h.unique (lookup_eq_none.mpr hfresh)
  · intro v hv hp
    exact portfolioRow_of_entryWrite hwrite (h.pending v ((hwrite.pendingVersion hp).mp hv) hp)
  · intro v hv
    rcases version_of_entryWrite hwrite hv with hv | ⟨_, f, _, hk, hclean⟩
    · exact h.versions v hv
    · obtain ⟨hentity, hpath⟩ := Prod.mk.inj hk
      refine .inr ⟨f.fieldPath, hpath, ?_⟩
      rw [hentity]
      exact fun hp => hclean ((h.fieldPending _ _).mpr hp)
  · rcases hconflicts with heq | ⟨new, heq, _, _, hfield, hentity⟩
    · rw [heq]
      exact h.spares
    · rw [heq]
      refine forall_mem_append.mpr ⟨h.spares, forall_mem_singleton.mpr fun m' _ => ?_⟩
      exact spares_of_pending hfield hentity m'

/-- Counters and inbox are not part of it. -/
theorem PageInvariant.of_eq (hassets : t'.domainAssets = t.domainAssets)
    (hrows : t'.portfolioDomainAssets = t.portfolioDomainAssets) (houtbox : t'.outbox = t.outbox)
    (hversions : t'.fieldVersions = t.fieldVersions) (htombs : t'.tombstones = t.tombstones)
    (hconflicts : t'.conflicts = t.conflicts) : PageInvariant s page t' where
  anchored := by
    rw [hconflicts]
    exact fun c hc => (h.anchored c hc).of_eq hassets hrows houtbox hversions htombs
  unique := hconflicts ▸ h.unique
  live := by
    simp only [Store.domainAsset, Store.portfolioRow, hassets, hrows]
    exact h.live
  pending := by
    simp only [Store.portfolioRow, hversions, hrows]
    exact h.pending
  outbox := houtbox.trans h.outbox
  fieldPending := by
    simp only [Store.FieldPending, hversions]
    exact h.fieldPending
  versions := hversions ▸ h.versions
  spares := hconflicts ▸ h.spares

end

/-- The entries of a well-formed page. -/
theorem wellFormedPage_dense (h : wellFormedPage page = true) :
    DenseFrom SyncMutation.serverRevision page.fromServerRevisionExclusive page.mutations ∧
      page.returnedThroughServerRevision =
        page.fromServerRevisionExclusive + page.mutations.length := by
  simp only [wellFormedPage, Bool.and_eq_true, decide_eq_true_eq] at h
  obtain ⟨⟨⟨hdense, _⟩, hreturned⟩, _⟩ := h
  exact ⟨hdense, hreturned.trans (MutationPage.expectedReturnedRevision_eq hdense)⟩

theorem settleable_page [DecidableEq H] {deviceId : String} {token : H} (hs : Settleable s)
    (hpage : PageEntries J P s page t)
    (hlast : page.returnedThroughServerRevision = page.throughServerRevisionInclusive)
    (hcareful : ∀ m ∈ page.mutations, (Contested s m → Recordable s m) ∧
      ∀ c ∈ s.conflicts, Spares s m c) :
    Settleable (t.recordPage deviceId page token) := by
  obtain ⟨hdense, hreturned⟩ := wellFormedPage_dense hpage.wellFormed
  have hstart : PageInvariant s page s :=
    { hs with
      outbox := rfl
      fieldPending := fun _ _ => Iff.rfl
      versions := fun v hv => .inl hv
      spares := fun c hc m hm => (hcareful m hm).2 c hc }
  have hend : PageInvariant s page t := by
    refine hpage.inv (K := PageInvariant s page)
      (fun m _ u _ hu => hu.of_eq rfl rfl rfl rfl rfl rfl) (fun m hm u u' hu hwrite => ?_)
      (fun u row hu => hu.of_eq rfl rfl rfl rfl rfl rfl) hstart
    have hrevision := (denseFrom_bounds hdense m hm).1
    exact hu.write hm (hcareful m hm).1 (by omega) hwrite
  have hreaders : t.readers = s.readers := (applyEntries_ok hpage.entries).readers
  refine
    { hend with
      anchored := fun c hc => (hend.anchored c hc).of_eq rfl rfl rfl rfl rfl
      applied := fun hne => ?_
      caughtUp := fun r hr => ?_ }
  · show 1 ≤ page.returnedThroughServerRevision
    cases hms : page.mutations with
    | cons m ms =>
      rw [hms, length_cons] at hreturned
      omega
    | nil =>
      -- an empty page leaves the conflicts that were open
      have hsame := hpage.entries
      rw [hms] at hsame
      cases hsame
      have happlied := hs.applied hne
      rw [hreturned, hpage.start]
      omega
  · rcases mem_put hr with hr | rfl | ⟨r, _, _, rfl⟩
    · exact hs.caughtUp r (hreaders ▸ hr)
    · exact le_of_eq hlast.symm
    · exact le_of_eq hlast.symm

end

/-! ### Resolutions -/

theorem lookup_acceptedField (s : Store H) (e : String) (f : ChangedField) :
    Keyed.lookup PortfolioDomainAsset.entityId e (adjust PortfolioDomainAsset.entityId e
      (fun a => { a with row := a.row.applyField f }) s.portfolioDomainAssets) =
    (Keyed.lookup PortfolioDomainAsset.entityId e s.portfolioDomainAssets).map
      (fun a => { a with row := a.row.applyField f }) :=
  lookup_adjust_self
    (fun a ha => (DomainAssetProjectionRow.applyField_entityId a.row f).trans ha) _

section

variable (hwrite : ResolutionWrite c₀ r s s')

include hwrite

theorem tombstoned_of_resolutionWrite (e : String) : s'.Tombstoned e ↔ s.Tombstoned e := by
  cases hwrite with
  | acceptField | keep => exact Iff.rfl
  | acceptDelete =>
    unfold Store.Tombstoned
    rw [keys_adjust (by exact fun _ ha => ha)]

theorem portfolioRow_of_resolutionWrite (e : String) :
    (s'.portfolioRow e).isSome = (s.portfolioRow e).isSome := by
  by_cases he : e = c₀.entityId
  case neg => rw [(SameAsset.resolutionWrite hwrite he).row]
  cases hwrite with
  | @acceptField path f =>
    have hrow := lookup_acceptedField s c₀.entityId f
    rw [he, Store.portfolioRow, hrow, Option.isSome_map]
    rfl
  | acceptDelete | keep => rfl

theorem domainAsset_of_resolutionWrite (e : String) :
    (s'.domainAsset e).isSome = (s.domainAsset e).isSome := by
  by_cases he : e = c₀.entityId
  case neg => rw [(SameAsset.resolutionWrite hwrite he).asset]
  cases hwrite with
  | acceptDelete =>
    rw [he, Store.domainAsset, lookup_adjust_self (by exact fun _ ha => ha),
      Option.isSome_map]
    rfl
  | acceptField | keep => rfl

section

variable (h : Anchored s c) (h₀ : Anchored s c₀)
  (hother : r.choice = .acceptRemote → c.entityId = c₀.entityId → c.fieldPath ≠ c₀.fieldPath)

include h h₀ hother

theorem Anchored.value_of_resolutionWrite :
    s'.localConflictValue c.entityId c.fieldPath =
      s.localConflictValue c.entityId c.fieldPath := by
  by_cases he : c.entityId = c₀.entityId
  case neg => exact SameAsset.localConflictValue (.resolutionWrite hwrite he) _
  cases hwrite with
  | keep => rfl
  | acceptDelete accept field =>
    cases hpath : c.fieldPath with
    | sync path => rfl
    | lifecycleStatus => exact absurd (hpath.trans field.symm) (hother accept he)
  | @acceptField path f accept field value =>
    cases hpath : c.fieldPath with
    | lifecycleStatus => rfl
    | sync path' =>
      have hne : path' ≠ f.fieldPath := by
        rw [h₀.remote path f field value]
        rintro rfl
        exact hother accept he (hpath.trans field.symm)
      obtain ⟨a, ha⟩ := Option.isSome_iff_exists.mp h.row
      have hrow := lookup_acceptedField s c₀.entityId f
      rw [← he, show Keyed.lookup PortfolioDomainAsset.entityId c.entityId
        s.portfolioDomainAssets = some a from ha, Option.map_some] at hrow
      simp only [Store.localConflictValue, Store.portfolioRow, ← he, hrow]
      rw [show Keyed.lookup PortfolioDomainAsset.entityId c.entityId
        s.portfolioDomainAssets = some a from ha]
      simp only [fieldAt_applyField_ne a.row hne]

theorem anchored_resolutionWrite :
    Anchored s' c where
  conflictId := h.conflictId
  revision := h.revision
  row := (portfolioRow_of_resolutionWrite hwrite _).trans h.row
  asset := (domainAsset_of_resolutionWrite hwrite _).trans h.asset
  value := (h.value_of_resolutionWrite hwrite h₀ hother).trans h.value
  remote := h.remote
  unsent := by
    cases hwrite with
    | acceptField | acceptDelete => exact h.unsent
    | keep => exact forall_mem_append.mpr ⟨h.unsent, forall_mem_singleton.mpr fun _ => rfl⟩
  version := by
    have hkey : r.choice = .acceptRemote → ∀ v : FieldVersion,
        v.key = (c.entityId, c.fieldPath) → v.key ≠ (c₀.entityId, c₀.fieldPath) := by
      intro haccept v hk hk₀
      obtain ⟨hentity, hpath⟩ := Prod.mk.inj (hk.symm.trans hk₀)
      exact hother haccept hentity hpath
    cases hwrite with
    | keep => exact h.version
    | acceptField accept | acceptDelete accept =>
      exact fun v hv hk => h.version v (mem_acceptedVersions_of_ne hv (hkey accept v hk)) hk
  tombstone := fun hpath => (tombstoned_of_resolutionWrite hwrite _).mpr (h.tombstone hpath)
  recorded := by
    cases hwrite with
    | keep => exact h.recorded
    | acceptField | acceptDelete =>
      intro hpath
      rw [SyncConflict.acceptedVersions, Keyed.keys_adjust]
      · exact h.recorded hpath
      · exact fun _ ha => ha

end

theorem live_of_resolutionWrite (hs : Settleable s)
    (e : String) (a : DomainAsset) (ha : s'.domainAsset e = some a) (hlive : a.deletedAt = none) :
    (s'.portfolioRow e).isSome = true := by
  rw [portfolioRow_of_resolutionWrite hwrite]
  by_cases he : e = c₀.entityId
  case neg =>
    rw [(SameAsset.resolutionWrite hwrite he).asset] at ha
    exact hs.live e a ha hlive
  cases hwrite with
  | acceptField | keep => exact hs.live e a ha hlive
  | acceptDelete =>
    rw [he, Store.domainAsset, lookup_adjust_self (by exact fun _ ha => ha)] at ha
    obtain ⟨b, _, rfl⟩ := Option.map_eq_some_iff.mp ha
    cases hlive

theorem settleable_resolutionWrite (hs : Settleable s) (hc₀ : c₀ ∈ s.conflicts)
    (hcareful : r.choice = .acceptRemote → ∀ c ∈ s.conflicts, c.entityId = c₀.entityId →
      c.fieldPath = c₀.fieldPath → c.conflictId = c₀.conflictId) :
    Settleable (s'.closeConflict J c₀) := by
  obtain ⟨hconflicts, happlied, hreaders⟩ : s'.conflicts = s.conflicts ∧
      s'.appliedThroughServerRevision = s.appliedThroughServerRevision ∧
      s'.readers = s.readers := by
    cases hwrite <;> exact ⟨rfl, rfl, rfl⟩
  have hmem : ∀ c ∈ (s'.closeConflict J c₀).conflicts, c ∈ s.conflicts ∧
      c.conflictId ≠ c₀.conflictId := by
    intro c hc
    rw [← hconflicts]
    exact mem_remove.mp hc
  have hlive := live_of_resolutionWrite hwrite hs
  refine
    { anchored := fun c hc => ?_
      unique := ?_
      applied := fun hne => ?_
      caughtUp := fun r hr => hs.caughtUp r (hreaders ▸ hr)
      live := hlive
      pending := fun v hv hp => ?_ }
  · obtain ⟨hc', hne⟩ := hmem c hc
    have h := anchored_resolutionWrite hwrite (hs.anchored c hc') (hs.anchored c₀ hc₀)
      fun haccept hentity hpath => hne (hcareful haccept c hc' hentity hpath)
    exact h.of_eq rfl rfl rfl rfl rfl
  · have hsub : ((s'.closeConflict J c₀).conflicts.map SyncConflict.conflictId).Sublist
        (s.conflicts.map SyncConflict.conflictId) := by
      rw [← hconflicts]
      exact filter_sublist.map _
    exact hs.unique.sublist hsub
  · obtain ⟨c, hc⟩ := exists_mem_of_ne_nil _ hne
    rw [show (s'.closeConflict J c₀).appliedThroughServerRevision =
      s'.appliedThroughServerRevision from rfl, happlied]
    exact hs.applied (ne_nil_of_mem (hmem c hc).1)
  · show (s'.portfolioRow v.entityId).isSome = true
    rw [portfolioRow_of_resolutionWrite hwrite]
    refine hs.pending v ?_ hp
    cases hwrite with
    | keep => exact hv
    | acceptField | acceptDelete => exact mem_acceptedVersions hv hp

end

/-! ### Every transaction -/

theorem settleable_mutated {r : MutationRequest} (hs : Settleable s)
    (hcommitted : Committed s r op)
    (hcareful : ∀ row, op = .edit row → ∀ c ∈ s.conflicts, c.entityId = row.entityId →
      KeepsValue row c) :
    Settleable (s.mutated r op) where
  anchored := fun c hc => anchored_mutated (hs.anchored c hc) hcommitted
    fun row hop hentity => hcareful row hop c hc hentity
  unique := hs.unique
  applied := hs.applied
  caughtUp := hs.caughtUp
  live := by
    intro e a ha hlive
    apply portfolioRow_mutated_isSome
    by_cases he : e = op.entityId
    · obtain ⟨b, hb, hblive, _⟩ := hcommitted.asset
      rw [he]
      exact hs.live _ b hb hblive
    · rw [(SameAsset.mutated r he).asset] at ha
      exact hs.live e a ha hlive
  pending := by
    intro v hv hp
    apply portfolioRow_mutated_isSome
    rcases mem_foldl_markPending_marked hv with hv | hmarked
    · exact hs.pending v hv hp
    · -- only a live asset is edited, and that has its row
      obtain ⟨b, hb, hblive, _⟩ := hcommitted.asset
      rw [hmarked.entityId]
      exact hs.live _ b hb hblive

/-- The rows of the outbox matter only while they are being sent. -/
theorem Settleable.of_outbox (hs : Settleable s) {rows : List (OutboxRow H)}
    (hunsent : ∀ c ∈ s.conflicts, ∀ row ∈ rows, row.mutation.entityId = c.entityId →
      row.isSending = false) : Settleable { s with outbox := rows } :=
  { hs with
    anchored := fun c hc => (hs.anchored c hc).of_frame rfl rfl (hunsent c hc)
      (fun _ hv _ => hv) (fun _ hk => hk) (fun h => h) }

theorem settleable_settleWrite (hs : Settleable s) (hwrite : SettleWrite s s') : Settleable s' := by
  obtain ⟨hconflicts, happlied, hreaders⟩ : s'.conflicts = s.conflicts ∧
      s'.appliedThroughServerRevision = s.appliedThroughServerRevision ∧
      s'.readers = s.readers := by
    cases hwrite <;> exact ⟨rfl, rfl, rfl⟩
  refine
    { anchored := fun c hc => anchored_settleWrite (hs.anchored c (hconflicts ▸ hc)) hwrite
      unique := hconflicts ▸ hs.unique
      applied := fun hne => happlied ▸ hs.applied (hconflicts ▸ hne)
      caughtUp := fun r hr => hs.caughtUp r (hreaders ▸ hr)
      live := fun e a ha hlive => ?_
      pending := fun v hv hp => ?_ }
  · have hsame := SameAsset.settleWrite hwrite (e := e)
    rw [hsame.asset] at ha
    rw [hsame.row]
    exact hs.live e a ha hlive
  · rw [(SameAsset.settleWrite hwrite).row]
    cases hwrite with
    | row => exact hs.pending v hv hp
    | acknowledge row serverRevision =>
      obtain ⟨u, hu, rfl⟩ := mem_map.mp hv
      unfold cleanFields at hp ⊢
      split at hp
      · cases hp
      next hother =>
        rw [if_neg hother]
        exact hs.pending u hu hp

theorem settleable_step [DecidableEq H] [DecidableEq V] {hash : ConflictValue → V}
    {deviceId : String} (db : BusinessDatabase H V) (e : DatabaseEvent H V)
    (db' : BusinessDatabase H V) (hdb : db.store.UniqueMutationIds ∧ Settleable db.store)
    (he : Careful db e) (hstep : DatabaseStep J P hash deviceId db e db') :
    db'.store.UniqueMutationIds ∧ Settleable db'.store := by
  refine ⟨uniqueMutationIds_step db e db' hdb.1 hstep, ?_⟩
  cases hstep with
  | same => exact hdb.2
  | @commit r op committed =>
    refine settleable_mutated hdb.2 committed fun row hop => ?_
    subst hop
    exact he
  | claim writes =>
    have honly := outbox_of_claimChain writes
    rw [honly]
    refine hdb.2.of_outbox fun c hc row hrow hentity => ?_
    refine Bool.eq_false_iff.mpr fun hsending => ?_
    obtain ⟨row₀, hrow₀, hmutation, hopen⟩ := isOpen_of_claimed hdb.1 hrow hsending
    exact he row₀ hrow₀ hopen c hc (hmutation ▸ hentity.symm)
  | settle writes =>
    exact chain_inv (I := Settleable) (fun _ _ => settleable_settleWrite) hdb.2 writes
  | page entries => exact settleable_page hdb.2 entries he.1 he.2
  | @resolve r c s' resolved =>
    have hc := (lookup_eq_some resolved.found).1
    exact settleable_resolutionWrite resolved.write hdb.2 hc
      fun haccept => he haccept c resolved.found

end

/-- In every run of careful steps, every open conflict can be resolved with the values currently
stored, and no resolution lowers the recorded revision of a field. -/
theorem conflictsSound_run [DecidableEq H] [DecidableEq V] (J : SerdeJson H) (P : Platform H)
    (hash : ConflictValue → V) (deviceId : String) (db : BusinessDatabase H V)
    (hunique : db.store.UniqueMutationIds) (hdb : Settleable db.store)
    (es : List (DatabaseEvent H V))
    (hrun : (database J P hash deviceId).Along Careful db es) :
    ConflictsSound J hash ((database J P hash deviceId).run db es) :=
  conflictsSound_of_settleable (database_inv
    (I := fun db => db.store.UniqueMutationIds ∧ Settleable db.store) settleable_step
    ⟨hunique, hdb⟩ hrun).2

theorem sampleDatabase_settleable : Settleable sampleDatabase.store where
  anchored := fun c hc => by cases hc
  unique := nodup_nil
  applied := fun h => absurd rfl h
  caughtUp := fun r hr => by cases hr
  live := by
    intro e a ha _
    have hmem := (lookup_eq_some ha)
    rw [mem_singleton.mp hmem.1] at hmem
    rw [← hmem.2]
    rfl
  pending := fun v hv => by cases hv

/-- One candidate of another device, against a local note. -/
theorem conflictsSound_run_candidate :
    ConflictsSound sampleJson id
      (sampleRun [sampleCommit "edit" 1 "mine", samplePull 0 [sampleTheirs]]) :=
  conflictsSound_run sampleJson platform id "device" sampleDatabase nodup_nil
    sampleDatabase_settleable _ (by decide)

/-- A second note of the other device: the one that is stored here. -/
def sampleTheirsToo : SubmittedSyncMutationWire :=
  { sampleNote "other-two" 2 with
    sourceDeviceId := "other-device"
    baseServerRevision := 1
    changedFields := [.note (some "mine")] }

/-- The note was edited again after the candidate was recorded. -/
def sampleEditedAgain : BusinessDatabase Symbolic ConflictValue :=
  sampleRun
    [sampleCommit "edit" 1 "mine", samplePull 0 [sampleTheirs], sampleCommit "again" 3 "second"]

/-- Two candidates of the note, and the later one accepted. -/
def sampleLaterAccepted : BusinessDatabase Symbolic ConflictValue :=
  sampleRun [sampleCommit "edit" 1 "mine", samplePull 0 [sampleTheirs, sampleTheirsToo],
      .resolve ⟨"later", "conflict-other-two-note", 2, 2, 2, .field (.note (some "mine")),
        .acceptRemote, "device", 1, 5⟩]

/-- The acceptance of the earlier one. -/
def sampleEarlier : ResolutionRequest ConflictValue :=
  ⟨"earlier", "conflict-other-note", 2, 1, 1, .field (.note (some "mine")), .acceptRemote, "device",
    1, 6⟩

theorem sampleEditedAgain_stale :
    ∀ c ∈ sampleEditedAgain.store.conflicts, ∀ choice : ResolutionChoice,
      (resolveSyncConflict sampleJson id sampleEditedAgain (currentRequest id
        sampleEditedAgain.store c "resolution" "device" 1 5 choice)).isOk = false := by
  intro c hc choice
  cases choice with
  | acceptRemote | keepLocal =>
    revert c
    decide

/-- The acceptance takes the revision of the note from 2 to 1. -/
theorem sampleEarlier_lowers :
    (∃ v ∈ sampleLaterAccepted.store.fieldVersions,
      v.key = ("a.example", .sync .note) ∧ v.serverRevision = 2) ∧
    ∃ res, resolveSyncConflict sampleJson id sampleLaterAccepted sampleEarlier = .ok res ∧
      ∀ v ∈ res.1.store.fieldVersions, v.key = ("a.example", .sync .note) → v.serverRevision = 1 :=
  ⟨by decide, _, rfl, by decide⟩

/-- No request closes the candidate of a note that was edited again, and the acceptance of an
earlier candidate puts the revision of the note back. -/
theorem conflicts_not_sound :
    ¬ ConflictsSound sampleJson id sampleEditedAgain ∧
    ¬ ConflictsSound sampleJson id sampleLaterAccepted := by
  constructor
  · intro h
    have hauthority : ResolutionAuthority sampleEditedAgain "resolution" "device" 1 :=
      ⟨by decide, by decide, by decide, by decide, by decide, by decide⟩
    obtain ⟨c, hc⟩ : ∃ c, c ∈ sampleEditedAgain.store.conflicts := ⟨_, mem_cons_self⟩
    obtain ⟨choice, db', receipt, hok⟩ := h.resolvable c hc "resolution" "device" 1 5 hauthority
    have hstale := sampleEditedAgain_stale c hc choice
    rw [hok] at hstale
    cases hstale
  · intro h
    obtain ⟨⟨v, hv, hkey, hrevision⟩, res, hok, hlow⟩ := sampleEarlier_lowers
    obtain ⟨v', hv', hsame, hle⟩ := h.revisions sampleEarlier res.1 res.2 hok v hv
    have hone : v'.serverRevision = 1 := hlow v' hv' (hsame.trans hkey)
    rw [hone, hrevision] at hle
    exact absurd hle (by decide)

end GoodDealer.Sync
