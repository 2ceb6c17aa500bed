/-
# `GoodDealer.Desktop.Transactions` — what a resolution writes

The last of the inversions, one for each transaction of the business database, so that an
invariant over runs is shown write by write and never unfolds a transaction.

    localMutation          ↦  `Committed`, the state is `Store.mutated`
    claim                  ↦  a chain of `ClaimWrite`
    completions            ↦  a chain of `SettleWrite`
    an entry of a page     ↦  `Store.stamp`, then a chain of `EntryWrite`
    resolveSyncConflict    ↦  `Resolved`
-/
import GoodDealer.Desktop.Fencing
import GoodDealer.Desktop.Resolution

namespace GoodDealer.Desktop

open List Keyed

variable {H V : Type}

open Relation (ReflTransGen)

/-! ## Resolutions -/

variable {J : SerdeJson H} {s s' : Store H} {c : SyncConflict H} {vs : List FieldVersion}
  {r : ResolutionRequest V} {v : FieldVersion}

/-- The field version of an accepted candidate. -/
def SyncConflict.acceptedVersions (c : SyncConflict H) (vs : List FieldVersion) :
    List FieldVersion :=
  adjust FieldVersion.key (c.entityId, c.fieldPath)
    (fun v => { v with serverRevision := c.remoteServerRevision, syncState := .clean }) vs

/-- An accepted candidate clears its field version. -/
theorem mem_acceptedVersions (hv : v ∈ c.acceptedVersions vs)
    (hp : v.isPending = true) : v ∈ vs := by
  obtain ⟨u, hu, rfl⟩ := mem_adjust.mp hv
  split at hp
  · cases hp
  next hne =>
    rw [if_neg hne]
    exact hu

theorem mem_acceptedVersions_of_ne (hv : v ∈ c.acceptedVersions vs)
    (hk : v.key ≠ (c.entityId, c.fieldPath)) : v ∈ vs := by
  obtain ⟨u, hu, rfl⟩ := mem_adjust.mp hv
  split at hk
  next heq => exact absurd heq hk
  next hne =>
    rw [if_neg hne]
    exact hu

/-- The write of a choice. -/
inductive ResolutionWrite (c : SyncConflict H) (r : ResolutionRequest V) (s : Store H) :
    Store H → Prop where
  | acceptField {path : FieldPath} {f : ChangedField} (accept : r.choice = .acceptRemote)
      (field : c.fieldPath = .sync path) (value : remoteField path c.remoteValue = some f) :
      ResolutionWrite c r s { s with
        desiredState := adjust DesiredState.entityId c.entityId (·.assign f) s.desiredState
        portfolioDomainAssets := adjust PortfolioDomainAsset.entityId c.entityId
          (fun a => { a with row := a.row.applyField f }) s.portfolioDomainAssets
        fieldVersions := c.acceptedVersions s.fieldVersions }
  | acceptDelete (accept : r.choice = .acceptRemote) (field : c.fieldPath = .lifecycleStatus) :
      ResolutionWrite c r s { s with
        domainAssets := adjust DomainAsset.entityId c.entityId
          (fun a => { a with lifecycleStatus := .archived, deletedAt := some r.committedAt })
          s.domainAssets
        tombstones := adjust Tombstone.entityId c.entityId
          (fun t => { t with state := .replicated, barrierState := .replicated }) s.tombstones
        fieldVersions := c.acceptedVersions s.fieldVersions }
  | keep {path : FieldPath} {a : PortfolioDomainAsset} (keep : r.choice = .keepLocal)
      (field : c.fieldPath = .sync path) (row : s.portfolioRow c.entityId = some a)
      (room : s.localCommitSequence < maxSafeInteger ∧
        s.nextDeviceMutationSequence < maxSafeInteger)
      (fresh : s.outboxRow (resolutionMutationId r.resolutionId) = none) :
      ResolutionWrite c r s { s with
        localCommitSequence := s.localCommitSequence + 1
        nextDeviceMutationSequence := s.nextDeviceMutationSequence + 1
        outbox := s.outbox ++ [resolutionRow r a.row s] }

theorem resolveChoice_write (h : resolveChoice s c r = .ok s') :
    ResolutionWrite c r s s' := by
  unfold resolveChoice at h
  split at h
  next haccept =>
    unfold applyRemoteResolution at h
    simp only at h
    split at h
    next path hpath =>
      split at h
      · cases h
      next f hf =>
      split at h
      · cases h
      · cases h
        exact .acceptField haccept hpath hf
    next hpath =>
      cases h
      exact .acceptDelete haccept hpath
  next hkeep =>
  unfold keepLocal at h
  split at h
  · cases h
  next hpath =>
  split at h
  · cases h
  next a ha =>
  split at h
  · cases h
  split at h
  · cases h
  split at h
  · cases h
  next hmax _ htaken =>
  cases h
  cases hp : c.fieldPath with
  | lifecycleStatus => exact absurd hp hpath
  | sync path =>
    refine .keep hkeep hp ha (by omega) ?_
    rw [not_or] at htaken
    simpa using htaken.2

/-- A resolution that was committed, and was not a replay. -/
structure Resolved [DecidableEq V] (hash : ConflictValue → V) (db : BusinessDatabase H V)
    (r : ResolutionRequest V) (c : SyncConflict H) (s' : Store H) : Prop where
  fresh : db.receipt r.resolutionId = none
  found : db.openConflict r.conflictId = some c
  current : ∃ current, db.store.readResolutionField c.entityId c.fieldPath = .ok current ∧
    staleResolution hash db.store c r current = false
  write : ResolutionWrite c r db.store s'

theorem resolveSyncConflict_cases [DecidableEq V] {hash : ConflictValue → V}
    {db db' : BusinessDatabase H V} {receipt : ResolutionReceipt V}
    (h : resolveSyncConflict J hash db r = .ok (db', receipt)) :
    db' = db ∨ ∃ c s', Resolved hash db r c s' ∧
      db' = ⟨s'.closeConflict J c, db.resolved ++ [c], db.receipts ++ [r.receipt]⟩ := by
  unfold resolveSyncConflict at h
  simp only at h
  split at h
  · cases h
  split at h
  next stored _ =>
    split at h
    · cases h
    · cases h
      exact .inl rfl
  next hfresh =>
  split at h
  next c hfound =>
    split at h
    · cases h
    next current hread =>
    split at h
    · cases h
    next hstale =>
    split at h
    · cases h
    next s' hchoice =>
      cases h
      exact .inr ⟨c, s', ⟨hfresh, hfound, ⟨current, hread, Bool.eq_false_iff.mpr hstale⟩,
        resolveChoice_write hchoice⟩, rfl⟩
  next =>
    split at h
    · split at h <;> cases h
    · cases h

/-! ## Other assets -/

/-- The rows of an asset are as before. -/
structure SameAsset (e : String) (s s' : Store H) : Prop where
  asset : s'.domainAsset e = s.domainAsset e
  row : s'.portfolioRow e = s.portfolioRow e
  desired : Keyed.lookup DesiredState.entityId e s'.desiredState =
    Keyed.lookup DesiredState.entityId e s.desiredState

namespace SameAsset

variable {e entityId : String}

theorem mutated (r : MutationRequest) {op : LocalOperation} (he : e ≠ op.entityId) :
    SameAsset e s (s.mutated r op) where
  asset := by
    apply lookup_adjust_ne _ he
    exact fun a ha => (op.writeAsset_entityId r _ a).trans ha
  row := by
    cases op with
    | edit asset =>
      apply lookup_adjust_ne _ he
      exact fun _ _ => rfl
    | delete entityId => rfl
  desired := by
    cases op with
    | edit asset =>
      apply lookup_adjust_ne _ he
      exact fun _ _ => rfl
    | delete entityId => rfl

theorem claimWrite (h : ClaimWrite s s') : SameAsset e s s' := by
  cases h
  exact ⟨rfl, rfl, rfl⟩

theorem settleWrite (h : SettleWrite s s') : SameAsset e s s' := by
  cases h <;> exact ⟨rfl, rfl, rfl⟩

theorem ensureAsset (he : e ≠ entityId) :
    SameAsset e s (s.ensureAsset entityId) where
  asset := by
    apply lookup_put_ne _ he
    exact fun _ hb => hb
  row := by
    apply lookup_put_ne _ he
    exact fun _ hb => hb
  desired := by
    apply lookup_put_ne _ he
    exact fun _ hb => hb

theorem assign_entityId (d : DesiredState) (f : ChangedField) :
    (d.assign f).entityId = d.entityId := by
  cases f <;> rfl

theorem writeField (revision : Nat) (f : ChangedField) (he : e ≠ entityId) :
    SameAsset e s (s.writeField entityId revision f) where
  asset := rfl
  row := by
    apply lookup_adjust_ne _ he
    exact fun a ha => (DomainAssetProjectionRow.applyField_entityId a.row f).trans ha
  desired := by
    apply lookup_adjust_ne _ he
    exact fun d hd => (assign_entityId d f).trans hd

theorem entryWrite {P : Platform H} {m : SyncMutation}
    (h : EntryWrite J P m s s') (he : e ≠ m.mutation.entityId) : SameAsset e s s' := by
  cases h with
  | candidate | contest | contestAgain => exact ⟨rfl, rfl, rfl⟩
  | delete =>
    have hkept : Keyed.lookup DomainAsset.entityId e (s.archived m) =
        Keyed.lookup DomainAsset.entityId e s.domainAssets := by
      unfold Store.archived
      apply lookup_put_ne
      · exact fun _ hb => hb
      · exact he
    exact ⟨hkept, rfl, rfl⟩
  | ensure => exact ensureAsset he
  | field => exact writeField _ _ he

theorem resolutionWrite
    (h : ResolutionWrite c r s s') (he : e ≠ c.entityId) : SameAsset e s s' := by
  cases h with
  | acceptField =>
    refine ⟨rfl, ?_, ?_⟩
    · apply lookup_adjust_ne _ he
      exact fun a ha => (DomainAssetProjectionRow.applyField_entityId a.row _).trans ha
    · apply lookup_adjust_ne _ he
      exact fun d hd => (assign_entityId d _).trans hd
  | acceptDelete =>
    refine ⟨?_, rfl, rfl⟩
    apply lookup_adjust_ne _ he
    exact fun _ ha => ha
  | keep => exact ⟨rfl, rfl, rfl⟩

end SameAsset

theorem portfolioRow_mutated_edit (s : Store H) (r : MutationRequest)
    (asset : DomainAssetProjectionRow) :
    (s.mutated r (.edit asset)).portfolioRow asset.entityId =
      (s.portfolioRow asset.entityId).map (fun a => { a with row := asset }) := by
  apply lookup_adjust_self
  exact fun _ _ => rfl

theorem domainAsset_mutated (s : Store H) (r : MutationRequest) (op : LocalOperation) :
    (s.mutated r op).domainAsset op.entityId =
      (s.domainAsset op.entityId).map (op.writeAsset r (s.localCommitSequence + 1)) := by
  apply lookup_adjust_self
  exact fun a ha => (op.writeAsset_entityId r _ a).trans ha

end GoodDealer.Desktop
