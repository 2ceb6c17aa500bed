/-
# `GoodDealer.Sync.Staleness` — a device that is stale against itself

A local edit is based on the revision the device has applied.  The cloud refuses an edit
whose field was written after its base, and it does not ask by whom: the device's own
earlier edit of the asset, pushed but not yet pulled back, makes the next one stale.

The condition that rules this out is `Settled`: an asset is edited only when every earlier
mutation of it has been accepted and pulled back.  Under it (`neverStale_run`)

* a mutation without a receipt is the only one of its asset, and
* the fields of its asset still have revisions up to its base,

so no batch made of such mutations, in whatever order it is claimed, split, pushed or
repeated, meets a field written after its base.
-/
import GoodDealer.Sync.System

namespace GoodDealer.Sync

open Cloud Desktop List Symbolic

variable {H : Type}

/-- The mutations of the outbox. -/
def SyncState.mutations (s : SyncState H) : List SubmittedSyncMutationWire :=
  s.store.outbox.map OutboxRow.mutation

/-- Every mutation of the asset is accepted, and the device has applied it. -/
def Settled (s : SyncState H) (entityId : String) : Prop :=
  ∀ m ∈ s.mutations, m.entityId = entityId →
    Receipted s.cloud.ledger m.mutationId ∧
      ∀ r ∈ s.cloud.ledger, r.mutationId = m.mutationId →
        r.serverRevision ≤ s.store.appliedThroughServerRevision

instance (s : SyncState H) (entityId : String) : Decidable (Settled s entityId) :=
  inferInstanceAs (Decidable (∀ _ ∈ _, _ → _))

/-- The device edits settled assets only, and nobody else writes to the workspace. -/
def EditsSettled (s : SyncState H) (e : SyncEvent H) : Prop :=
  (∀ op ∈ e.edited, Settled s op.entityId) ∧ ∀ c ∈ e.served, c.ingested = none

instance (s : SyncState H) (e : SyncEvent H) : Decidable (EditsSettled s e) :=
  inferInstanceAs (Decidable (_ ∧ _))

/-- No batch under way is refused as stale. -/
def NeverStale [DecidableEq H] (P : Platform H) (s : SyncState H) : Prop :=
  ∀ claim ∈ s.pushes, ∀ ports w' failures,
    ingest P ports s.cloud claim.mutations ≠ some (w', .rejected .fieldStale failures)

/-- A device that has applied everything, and has not edited anything yet. -/
structure InSync (P : Platform H) (s : SyncState H) : Prop where
  reader : ReaderInv P s.cloud
  outbox : s.store.outbox = []
  pushes : s.pushes = []
  answers : s.answers = []
  applied : ∀ a ∈ s.cloud.assets.rows, ∀ path,
    a.lastModifiedRevision.get path ≤ s.store.appliedThroughServerRevision

/-! ## The invariant -/

structure Unstale (P : Platform H) (s : SyncState H) : Prop where
  reader : ReaderInv P s.cloud
  sent : s.InFlight
  current : ∀ m ∈ s.mutations, ¬ Receipted s.cloud.ledger m.mutationId →
    ∀ a ∈ s.cloud.assets.rows, a.entityId = m.entityId →
      ∀ path, a.lastModifiedRevision.get path ≤ m.baseServerRevision
  alone : ∀ m ∈ s.mutations, ∀ m' ∈ s.mutations, ¬ Receipted s.cloud.ledger m.mutationId →
    ¬ Receipted s.cloud.ledger m'.mutationId → m.entityId = m'.entityId →
      m.mutationId = m'.mutationId
  /-- A revision the device has not applied is that of one of its own mutations. -/
  own : ∀ a ∈ s.cloud.assets.rows, ∀ path,
    a.lastModifiedRevision.get path ≤ s.store.appliedThroughServerRevision ∨
      ∃ m ∈ s.mutations, m.entityId = a.entityId ∧ ∃ r ∈ s.cloud.ledger,
        r.mutationId = m.mutationId ∧ a.lastModifiedRevision.get path ≤ r.serverRevision

namespace Unstale

variable {P : Platform H} {s s' : SyncState H}

theorem of_inSync (h : InSync P s) : Unstale P s where
  reader := h.reader
  sent := fun m hm => by
    rcases hm with ⟨c, hc, _⟩ | ⟨a, ha, _⟩
    · rw [h.pushes] at hc; cases hc
    · rw [h.answers] at ha; cases ha
  current := fun m hm => by rw [SyncState.mutations, h.outbox] at hm; cases hm
  alone := fun m hm => by rw [SyncState.mutations, h.outbox] at hm; cases hm
  own := fun a ha path => .inl (h.applied a ha path)

/-- Steps that leave rows, receipts and outbox alone. -/
theorem frame (h : Unstale P s) (hreader : ReaderInv P s'.cloud) (hsent : s'.InFlight)
    (hassets : s'.cloud.assets = s.cloud.assets) (hledger : s'.cloud.ledger = s.cloud.ledger)
    (hmutations : s'.mutations = s.mutations)
    (happlied : s.store.appliedThroughServerRevision ≤ s'.store.appliedThroughServerRevision) :
    Unstale P s' where
  reader := hreader
  sent := hsent
  current := by rw [hmutations, hassets, hledger]; exact h.current
  alone := by rw [hmutations, hledger]; exact h.alone
  own := fun a ha path => by
    rw [hassets] at ha
    rw [hmutations, hledger]
    rcases h.own a ha path with hle | hown
    · exact .inl (le_trans hle happlied)
    · exact .inr hown

/-- A settled asset has no revision above what the device has applied. -/
theorem applied_of_settled (h : Unstale P s) {e : String} (hsettled : Settled s e)
    {a : LockedDomainAsset} (ha : a ∈ s.cloud.assets.rows) (he : a.entityId = e)
    (path : FieldPath) :
    a.lastModifiedRevision.get path ≤ s.store.appliedThroughServerRevision := by
  rcases h.own a ha path with hle | ⟨m, hm, hentity, r, hr, hid, hle⟩
  · exact hle
  · exact le_trans hle ((hsettled m hm (hentity.trans he)).2 r hr hid)

theorem mutate {r : MutationRequest} {op : LocalOperation} {store : Store H} (h : Unstale P s)
    (hsettled : Settled s op.entityId) (hcommit : LocalCommit s.store r op store)
    (hsent : { s with store := store }.InFlight) : Unstale P { s with store := store } := by
  have hmem : ∀ {m}, m ∈ SyncState.mutations { s with store := store } →
      m ∈ s.mutations ∨ m = op.mutation r s.store.appliedThroughServerRevision
        s.store.nextDeviceMutationSequence := by
    intro m hm
    rw [SyncState.mutations, hcommit.outbox, map_append, mem_append] at hm
    exact hm.imp id mem_singleton.mp
  have hold : ∀ {m}, m ∈ s.mutations → m ∈ SyncState.mutations { s with store := store } := by
    intro m hm
    rw [SyncState.mutations, hcommit.outbox, map_append]
    exact mem_append_left _ hm
  refine ⟨h.reader, hsent, ?_, ?_, ?_⟩
  · intro m hm hreceipt a ha he path
    rcases hmem hm with hm | rfl
    · exact h.current m hm hreceipt a ha he path
    · exact h.applied_of_settled hsettled ha he path
  · intro m hm m' hm' hreceipt hreceipt' hentity
    rcases hmem hm with hm | rfl <;> rcases hmem hm' with hm' | rfl
    · exact h.alone m hm m' hm' hreceipt hreceipt' hentity
    -- an older mutation of the asset has a receipt
    · exact absurd (hsettled m hm hentity).1 hreceipt
    · exact absurd (hsettled m' hm' hentity.symm).1 hreceipt'
    · rfl
  · intro a ha path
    rcases h.own a ha path with hle | ⟨m, hm, hown⟩
    · exact .inl (hcommit.applied ▸ hle)
    · exact .inr ⟨m, hold hm, hown⟩

variable [DecidableEq H] {ttl : LeaseTtl}

variable (h : Unstale P s)

include h

/-- What is accepted were mutations without a receipt, each the only one of its asset. -/
theorem ingest {fresh : List SubmittedSyncMutation} {cloud : Workspace H}
    (hown : ∀ m ∈ fresh, m.toSubmittedSyncMutationWire ∈ s.mutations)
    (hcommit : IngestCommit P s.cloud cloud fresh) (hreader : ReaderInv P cloud)
    (hstore : s'.store = s.store) (hcloud : s'.cloud = cloud) (hsent : s'.InFlight) :
    Unstale P s' := by
  subst hcloud
  have hmutations : s'.mutations = s.mutations := by
    rw [SyncState.mutations, hstore, SyncState.mutations]
  have htraced := DomainAssetTable.applyAcceptedMutations_traced hcommit.assets
  have hkept : ∀ {id}, ¬ Receipted s'.cloud.ledger id → ¬ Receipted s.cloud.ledger id :=
    mt hcommit.receipted
  refine ⟨hreader, hsent, ?_, ?_, ?_⟩
  · rw [hmutations]
    intro m hm hreceipt a' ha' he path
    obtain ⟨a, ha, hkey, hrevision⟩ := htraced a' ha'
    rcases hrevision path with hsame | ⟨x, hx, hentity, _⟩
    · rw [hsame]
      exact h.current m hm (hkept hreceipt) a ha (hkey.trans he) path
    -- an accepted mutation of the same asset would be `m` itself, which has no receipt
    · have hfresh := (MutationLog.mem_number hx).2.2
      refine absurd ⟨receiptOf P x, hcommit.receipt hx, ?_⟩ hreceipt
      exact h.alone _ (hown _ hfresh) m hm (not_receipted_of_missing (hcommit.missing _ hfresh))
        (hkept hreceipt) (hentity.trans he)
  · rw [hmutations]
    intro m hm m' hm' hreceipt hreceipt'
    exact h.alone m hm m' hm' (hkept hreceipt) (hkept hreceipt')
  · rw [hmutations]
    intro a' ha' path
    obtain ⟨a, ha, hkey, hrevision⟩ := htraced a' ha'
    rcases hrevision path with hsame | ⟨x, hx, hentity, hrev⟩
    · rw [hsame, hstore, ← hkey]
      rcases h.own a ha path with hle | ⟨m, hm, he, r, hr, hid, hle⟩
      · exact .inl hle
      · refine .inr ⟨m, hm, he, r, ?_, hid, hle⟩
        rw [hcommit.rest]
        exact mem_append_left _ hr
    · refine .inr
        ⟨_, hown _ (MutationLog.mem_number hx).2.2, hentity, _, hcommit.receipt hx, rfl, ?_⟩
      rw [hrev]
      exact le_rfl

/-- A step of the cloud that accepts mutations of the outbox, or none. -/
theorem cloud {e : CloudEvent H} (hstep : CloudStep P ttl s.cloud e s'.cloud)
    (hown : ∀ value ∈ e.ingested, ∀ m ∈ value, m ∈ s.mutations)
    (hstore : s'.store = s.store) (hsent : s'.InFlight) : Unstale P s' := by
  have hreader := readerInv_step h.reader hstep
  rcases hstep.tables with ⟨ports, value, ms, fresh, rfl, hparse, hsub, hcommit⟩ |
    ⟨hassets, hledger, _⟩
  · refine h.ingest (fun m hm => hown value rfl _ ?_) hcommit hreader hstore rfl hsent
    rw [← parseRequest_map hparse]
    exact mem_map_of_mem (hsub.subset hm)
  · refine h.frame hreader hsent hassets hledger ?_ ?_
    · rw [SyncState.mutations, hstore, SyncState.mutations]
    · rw [hstore]

theorem step {deviceId : String} {e : SyncEvent H}
    (hsettled : EditsSettled s e) (hstep : SyncStep P ttl deviceId s e s') : Unstale P s' := by
  have hreader : ReaderInv P s'.cloud := by
    obtain ⟨_, hcloud⟩ := hstep.cloudStep h.reader
    exact readerInv_step h.reader hcloud
  have hsent := inFlight_step h.sent hstep
  cases hstep with
  | idle => exact h
  | mutate hcommit => exact h.mutate (hsettled.1 _ rfl) hcommit hsent
  | deliver hupdate _ =>
    exact h.frame hreader hsent rfl rfl hupdate.mutations (le_of_eq hupdate.applied.symm)
  | @push index ports claim _ _ hclaim hcloud =>
    refine h.cloud hcloud ?_ rfl hsent
    rintro _ ⟨⟩ m hm
    exact h.sent m (.inl ⟨claim, mem_of_getElem? hclaim, hm⟩)
  | request => exact h.frame hreader hsent rfl rfl rfl le_rfl
  | openReader =>
    refine h.cloud (service_step h.reader _) ?_ rfl hsent
    rintro _ ⟨⟩
  | pull _ hpull =>
    refine h.cloud (.pull hpull) ?_ rfl hsent
    rintro _ ⟨⟩
  | receive _ _ hpage happly =>
    refine h.frame hreader hsent rfl rfl ?_ ?_
    · exact congrArg (List.map OutboxRow.mutation) happly.entries.outbox
    · rw [happly.applied, ← happly.start]
      exact from_le_returned hpage
  | cloud hcloud =>
    refine h.cloud hcloud (fun value hvalue => ?_) rfl hsent
    rw [hsettled.2 _ rfl] at hvalue
    cases hvalue

/-- Mutations without a receipt are current, and no two of a batch are of one asset. -/
theorem neverStale : NeverStale P s := by
  intro claim hclaim ports w' failures hstale
  rcases ingest_cases hstale with ⟨_, _, _, heq, hcode⟩ | ⟨_, _, heq, _⟩
  rotate_left
  · cases heq
  cases heq
  obtain ⟨rs, hrs, hnot⟩ := hcode rfl
  have hsub := freshMutations_sublist rs
  have hunsent : ∀ m ∈ freshMutations rs, ¬ Receipted s.cloud.ledger m.mutationId :=
    fun m hm => not_receipted_of_missing (hrs.receipts _ (mem_freshMutations.mp hm))
  have hown : ∀ m ∈ freshMutations rs, m.toSubmittedSyncMutationWire ∈ s.mutations := by
    intro m hm
    refine h.sent _ (.inl ⟨claim, hclaim, ?_⟩)
    rw [← parseRequest_map hrs.parsed]
    exact mem_map_of_mem (hsub.subset hm)
  refine hnot ⟨?_, ?_⟩
  · intro m hm a ha f _
    obtain ⟨hmem, hkey⟩ := Keyed.lookup_eq_some ha
    exact h.current _ (hown m hm) (hunsent m hm) a hmem hkey f.fieldPath
  · have hids : ((freshMutations rs).map (·.mutationId)).Nodup :=
      (hsub.map _).nodup (parseRequest_valid hrs.parsed).ids
    rw [List.Nodup, pairwise_map] at hids
    refine hids.imp_of_mem ?_
    intro a b ha hb hne hentity
    refine absurd ?_ hne
    exact h.alone _ (hown a ha) _ (hown b hb) (hunsent a ha) (hunsent b hb) hentity

end Unstale

/-- While every edit is of a settled asset, no batch of the device is ever refused as stale. -/
theorem neverStale_run [DecidableEq H] {J : SerdeJson H} {P : Platform H} {ttl : LeaseTtl}
    {deviceId : String} {s₀ : SyncState H} (h₀ : InSync P s₀) {es : List (SyncEvent H)}
    (hes : (syncSystem J P ttl deviceId).Along EditsSettled s₀ es) :
    NeverStale P ((syncSystem J P ttl deviceId).run s₀ es) := by
  have hinv := (syncSystem J P ttl deviceId).run_inv (I := Unstale P) (G := EditsSettled)
    (fun s e h hsettled => h.step hsettled (syncSystem_step h.reader e)) (.of_inSync h₀) hes
  exact hinv.neverStale

theorem sampleSync_inSync : InSync platform sampleSync where
  reader := readerInv_initial sampleWorkspace_initial
  outbox := rfl
  pushes := rfl
  answers := rfl
  applied := fun a ha path => le_of_eq (sampleWorkspace_initial.revisions a ha path)

/-- The asset is edited once more, and claimed. -/
def sampleAgain (expectedAssetVersion : Nat) : List (SyncEvent Symbolic) :=
  [.mutate (sampleRequest "again" expectedAssetVersion) (sampleEdit "again"),
    .claim "owner" 4 104 256]

/-- The first edit is pulled back before the second. -/
theorem neverStale_run_sample :
    (sampleSynced (samplePushed ++ samplePulled ++ sampleAgain 3)).pushes.length = 2 ∧
    NeverStale platform (sampleSynced (samplePushed ++ samplePulled ++ sampleAgain 3)) :=
  ⟨by decide, neverStale_run sampleSync_inSync (by decide)⟩

/-- Without the pull the second edit is refused: revision 1 is the device's own. -/
theorem not_neverStale_own :
    InSync platform sampleSync ∧
    ¬ NeverStale platform (sampleSynced (samplePushed ++ sampleAgain 2)) := by
  refine ⟨sampleSync_inSync, fun h => ?_⟩
  have hrefused : ∃ claim ∈ (sampleSynced (samplePushed ++ sampleAgain 2)).pushes,
      ingest platform samplePorts (sampleSynced (samplePushed ++ sampleAgain 2)).cloud
        claim.mutations =
        some ((sampleSynced (samplePushed ++ sampleAgain 2)).cloud,
          .rejected .fieldStale ([.note, .portfolioId, .tags, .targetPrice].map fun path =>
            ⟨0, "again", some path, some 1, some 1⟩)) := by
    decide
  obtain ⟨claim, hclaim, hstale⟩ := hrefused
  exact h claim hclaim _ _ _ hstale

end GoodDealer.Sync
