/-
# `GoodDealer.Sync.Tombstones` — deletes against upserts

A tombstone is never removed, and an upsert of a tombstoned entity fails with
`MutationConflict`.  The page that holds the upsert then fails as a whole, and every
later pull gets the same page: the device is stuck.  The cloud knows nothing of
tombstones, so it accepts such upserts, from other devices and from the device itself,
whose own edit comes back after its own delete.

The order that avoids this (`Orderly`) is one between the two sides:

* an upsert is accepted only while the device has no tombstone for the entity and no
  delete of it is on the way to the device;
* the device deletes an entity only while no upsert of it is on the way.

Then what the device has not applied yet is always `Applicable` (`Unblocked.step`).  The
cloud also accepts what `apply_sync_page_v2` refuses for another reason: a portfolio the
device does not have, more than 64 tags or a tag of more than 64 bytes, entries whose
page has more than a mebibyte, more candidates than the conflict table has room for.  And
an empty page after an empty page is taken for the same one, with another token.  Without
these, every page that is next applies (`pagesApply_run`).
-/
import GoodDealer.Cloud.ExactlyOnce
import GoodDealer.Desktop.Room
import GoodDealer.Sync.System

namespace GoodDealer.Sync

open Cloud Desktop List Symbolic

variable {H : Type} {P : Platform H} {page : MutationPage H} {s s' : SyncState H} {ttl : LeaseTtl}

/-! ## The order of deletes and upserts -/

/-- The entries the device has not applied. -/
def SyncState.unapplied (s : SyncState H) : List SyncMutation :=
  s.cloud.log.readRange s.store.appliedThroughServerRevision s.cloud.head

/-- The mutations of a request that the ledger has no receipt of. -/
def SyncState.newMutations (s : SyncState H) (value : List SubmittedSyncMutationWire) :
    List SubmittedSyncMutationWire :=
  value.filter fun v => decide (¬ Receipted s.cloud.ledger v.mutationId)

/-- The new upserts of a request meet no tombstone, now or on the way to the device. -/
def OrderlyBatch (s : SyncState H) (value : List SubmittedSyncMutationWire) : Prop :=
  (∀ v ∈ s.newMutations value, v.operationKind = .upsert → ¬ s.store.Tombstoned v.entityId ∧
    ∀ m ∈ s.unapplied, m.mutation.operationKind = .delete →
      v.entityId ≠ m.mutation.entityId) ∧
  (s.newMutations value).Pairwise fun a b =>
    a.operationKind = .delete → b.operationKind = .upsert → b.entityId ≠ a.entityId

instance (s : SyncState H) (value : List SubmittedSyncMutationWire) :
    Decidable (OrderlyBatch s value) :=
  inferInstanceAs (Decidable (_ ∧ _))

/-- Nothing is deleted here that the device has yet to apply an upsert of, and what is submitted
is in order.  Compaction is left out: it removes what the device has not applied. -/
def Orderly (s : SyncState H) (e : SyncEvent H) : Prop :=
  (∀ op ∈ e.edited, op.kind = .delete → ∀ m ∈ s.unapplied,
    m.mutation.operationKind = .upsert → m.mutation.entityId ≠ op.entityId) ∧
  (∀ value ∈ s.submitted e, OrderlyBatch s value) ∧ ∀ c ∈ e.served, c.isCompact = false

instance (s : SyncState H) (e : SyncEvent H) : Decidable (Orderly s e) :=
  inferInstanceAs (Decidable (_ ∧ _))

/-! ## Pages under way -/

/-- The page is a range of the log, with the schema and the digest of a page. -/
structure PageOf (P : Platform H) (w : Workspace H) (page : MutationPage H) : Prop where
  workspace : page.workspaceId = w.log.workspaceId
  retained : w.watermark ≤ page.fromServerRevisionExclusive
  ordered : page.fromServerRevisionExclusive ≤ page.returnedThroughServerRevision
  known : page.returnedThroughServerRevision ≤ w.head
  mutations : page.mutations = w.log.readRange page.fromServerRevisionExclusive
    page.returnedThroughServerRevision
  valid : page.Valid
  digest : page.pageDigest = P.sha256 page.digestInput

namespace PageOf

variable {w w' : Workspace H}

theorem grows (h : PageOf P w page) (hgrows : LogGrows w w') : PageOf P w' page where
  workspace := h.workspace.trans hgrows.workspace.symm
  retained := by rw [hgrows.watermark]; exact h.retained
  ordered := h.ordered
  known := le_trans h.known hgrows.head
  mutations := by rw [hgrows.range _ _ h.known]; exact h.mutations
  valid := h.valid
  digest := h.digest

theorem of_bounds {reader : ReaderBinding} {a t n : Nat} {pred : Option H} {e : Timestamp}
    (h : PageBounds w.log a t n) : PageOf P w (issue P reader w.log a t n pred e).page :=
  ⟨rfl, h.retained, h.from_le_last, h.last_le_head, rfl, servedPage_valid h, rfl⟩

/-- What a pull serves. -/
theorem of_pullStep [DecidableEq H] {deviceId : String} {r : PullRequest H}
    {res : PersistentReaderPullResult H} {d : PullDelivery H} (hinv : ReaderInv P w)
    (h : PullStep P ttl w deviceId r w' res) (hres : res = .accepted d) : PageOf P w d.page := by
  cases h with
  | reject | retire => cases hres
  | first hc hactive _ hvalid _ _ _ hd =>
    cases hres
    rw [hd]
    exact of_bounds ((hinv.rows _ _ hc hactive).bounds hvalid.2.1 hvalid.2.2)
  | confirm hc hactive hp hgen _ hvalid _ _ _ _ hd =>
    cases hres
    obtain rfl := reader_device hc
    rw [hd]
    exact of_bounds (((hinv.rows _ _ hc hactive).confirm hp hgen).bounds hvalid.2.1 hvalid.2.2)
  | replay hc hactive hp hgen _ _ _ hd =>
    cases hres
    obtain rfl := reader_device hc
    rw [hd]
    exact of_bounds ((hinv.rows _ _ hc hactive).served _ hp hgen).1

end PageOf

/-! ## The invariant -/

structure Unblocked (P : Platform H) (s : SyncState H) : Prop where
  reader : ReaderInv P s.cloud
  retained : s.cloud.watermark ≤ s.store.appliedThroughServerRevision
  known : s.store.appliedThroughServerRevision ≤ s.cloud.head
  served : ∀ x ∈ s.deliveries, PageOf P s.cloud x.2.page
  applicable : Applicable s.store.Tombstoned s.unapplied

section

variable {fresh : List SubmittedSyncMutation}

variable {value : List SubmittedSyncMutationWire}

/-- An orderly batch stays applicable behind what is on the way. -/
theorem applicable_commit (h : Unblocked P s) (horder : OrderlyBatch s value)
    (hsub : (fresh.map (·.toSubmittedSyncMutationWire)).Sublist (s.newMutations value))
    (w : String) (n : Nat) :
    Applicable s.store.Tombstoned (s.unapplied ++ MutationLog.number w n fresh) := by
  refine Applicable.append.mpr ⟨h.applicable, ⟨?_, ?_⟩⟩
  · intro x hx hup hdead
    have hmem := hsub.subset (mem_map_of_mem (MutationLog.mem_number hx).2.2)
    obtain ⟨halive, hahead⟩ := horder.1 _ hmem hup
    rcases hdead with hdead | ⟨m, hm, hdelete, he⟩
    · exact halive hdead
    · exact hahead m hm hdelete he
  · have hpairs := horder.2.sublist hsub
    rw [pairwise_map, ← MutationLog.number_mutations w n fresh, pairwise_map] at hpairs
    exact hpairs

variable [DecidableEq H]

/-- What is accepted of a request are new mutations of it, in order. -/
theorem newMutations_sublist {ms : List SubmittedSyncMutation}
    (hparse : parseRequest value = some ms)
    (hsub : fresh.Sublist ms)
    (hmissing : ∀ m ∈ fresh, resolveReceipt P s.cloud.ledger m = .missing) :
    (fresh.map (·.toSubmittedSyncMutationWire)).Sublist (s.newMutations value) := by
  have hwires : (fresh.map (·.toSubmittedSyncMutationWire)).Sublist value := by
    rw [← parseRequest_map hparse]
    exact hsub.map _
  have hnew : (fresh.map (·.toSubmittedSyncMutationWire)).filter
      (fun v => decide (¬ Receipted s.cloud.ledger v.mutationId)) =
        fresh.map (·.toSubmittedSyncMutationWire) := by
    refine filter_eq_self.mpr fun v hv => ?_
    obtain ⟨m, hm, rfl⟩ := mem_map.mp hv
    exact decide_eq_true (not_receipted_of_missing (hmissing m hm))
  rw [← hnew]
  exact hwires.filter _

/-- An accepted batch is appended to what the device has not applied. -/
theorem unapplied_commit (h : Unblocked P s) (hcommit : IngestCommit P s.cloud s'.cloud fresh)
    (hstore : s'.store = s.store) :
    s'.unapplied = s.unapplied ++
      MutationLog.number s.cloud.log.workspaceId s.cloud.log.serverRevision fresh := by
  rw [SyncState.unapplied, hstore]
  exact MutationLog.append_readRange_head hcommit.log h.known

end

namespace Unblocked

/-- A local step that does not move the reader. -/
theorem frame (h : Unblocked P s) (hcloud : s'.cloud = s.cloud)
    (hdeliveries : s'.deliveries = s.deliveries)
    (happlied : s'.store.appliedThroughServerRevision = s.store.appliedThroughServerRevision)
    (htombstones : ∀ e, s'.store.Tombstoned e → s.store.Tombstoned e ∨
      ∀ m ∈ s.unapplied, m.mutation.operationKind = .upsert → m.mutation.entityId ≠ e) :
    Unblocked P s' where
  reader := hcloud ▸ h.reader
  retained := by rw [hcloud, happlied]; exact h.retained
  known := by rw [hcloud, happlied]; exact h.known
  served := by rw [hcloud, hdeliveries]; exact h.served
  applicable := by
    rw [SyncState.unapplied, hcloud, happlied]
    refine ⟨fun m hm hup hdead => ?_, h.applicable.ordered⟩
    rcases htombstones _ hdead with hdead | hnone
    · exact h.applicable.alive m hm hup hdead
    · exact hnone m hm hup rfl

/-- What is on the way starts with the page that is next. -/
theorem unapplied_eq (hpage : PageOf P s.cloud page)
    (hstart : page.fromServerRevisionExclusive = s.store.appliedThroughServerRevision) :
    s.unapplied = page.mutations ++
      s.cloud.log.readRange page.returnedThroughServerRevision s.cloud.head := by
  rw [SyncState.unapplied, hpage.mutations, ← hstart]
  exact MutationLog.readRange_split hpage.retained hpage.ordered hpage.known le_rfl

variable {deviceId : String}

/-- Applying a page moves its deletes from the way to the tombstones. -/
theorem receive {token : H} {store : Store H} (h : Unblocked P s) (hpage : PageOf P s.cloud page)
    (happlied : PageApplied s.store deviceId page token store) :
    Unblocked P { s with store := store } where
  reader := h.reader
  retained := by
    rw [happlied.applied]
    exact le_trans hpage.retained hpage.ordered
  known := by rw [happlied.applied]; exact hpage.known
  served := h.served
  applicable := by
    have hall := h.applicable
    rw [unapplied_eq hpage happlied.start] at hall
    rw [SyncState.unapplied, happlied.applied]
    exact (Applicable.append.mp hall).2.mono happlied.entries.tombstones

variable [DecidableEq H]

/-- A step of the cloud. -/
theorem cloud {e : CloudEvent H} (h : Unblocked P s)
    (hstep : CloudStep P ttl s.cloud e s'.cloud) (hcompact : e.isCompact = false)
    (horder : ∀ value ∈ e.ingested, OrderlyBatch s value)
    (hstore : s'.store = s.store)
    (hserved : ∀ x ∈ s'.deliveries, PageOf P s.cloud x.2.page) : Unblocked P s' := by
  have hgrows := logGrows_step hstep hcompact
  refine ⟨readerInv_step h.reader hstep, ?_, ?_, fun x hx => (hserved x hx).grows hgrows, ?_⟩
  · rw [hgrows.watermark, hstore]
    exact h.retained
  · rw [hstore]
    exact le_trans h.known hgrows.head
  · rcases hstep.tables with ⟨ports, value, ms, fresh, rfl, hparse, hsub, hcommit⟩ | ⟨_, _, _, hlog⟩
    · rw [unapplied_commit h hcommit hstore, hstore]
      exact applicable_commit h (horder value rfl)
        (newMutations_sublist hparse hsub hcommit.missing) _ _
    · rw [SyncState.unapplied, Workspace.head, hlog hcompact, hstore]
      exact h.applicable

theorem step {e : SyncEvent H} (h : Unblocked P s) (horder : Orderly s e)
    (hstep : SyncStep P ttl deviceId s e s') : Unblocked P s' := by
  obtain ⟨hdelete, horder, hcompact⟩ := horder
  cases hstep with
  | idle => exact h
  | @mutate r op store hcommit =>
    refine h.frame rfl rfl hcommit.applied fun e he => ?_
    rcases hcommit.tombstones e he with he | ⟨hkind, rfl⟩
    · exact .inl he
    · exact .inr (hdelete op rfl hkind)
  | deliver hupdate _ =>
    exact h.frame rfl rfl hupdate.applied fun e he => .inl (hupdate.tombstones e he)
  | push hclaim hcloud =>
    refine h.cloud hcloud rfl (fun value hvalue => horder value ?_) rfl h.served
    rw [SyncState.submitted, hclaim]
    exact hvalue
  | request => exact h.frame rfl rfl rfl fun _ he => .inl he
  | openReader =>
    refine h.cloud (service_step h.reader _) rfl ?_ rfl h.served
    rintro _ ⟨⟩
  | @pull index r cloud result hr hpull =>
    refine h.cloud (.pull hpull) rfl ?_ rfl ?_
    · rintro _ ⟨⟩
    · intro x hx
      cases hresult : result with
      | rejected code =>
        rw [hresult] at hx
        exact h.served x hx
      | accepted d =>
        rw [hresult] at hx
        have hpage := PageOf.of_pullStep h.reader hpull hresult
        exact forall_mem_append.mpr ⟨h.served, forall_mem_singleton.mpr hpage⟩ x hx
  | receive hd _ _ happlied =>
    exact h.receive (h.served _ (mem_of_getElem? hd)) happlied
  | cloud hcloud => exact h.cloud hcloud (hcompact _ rfl) horder rfl h.served

end Unblocked

/-- A device that has bootstrapped the workspace: what is on the way to it applies. -/
structure Bootstrapped (P : Platform H) (s : SyncState H) : Prop where
  reader : ReaderInv P s.cloud
  retained : s.cloud.watermark ≤ s.store.appliedThroughServerRevision
  known : s.store.appliedThroughServerRevision ≤ s.cloud.head
  deliveries : s.deliveries = []
  applicable : Applicable s.store.Tombstoned s.unapplied

theorem Bootstrapped.unblocked (h : Bootstrapped P s) :
    Unblocked P s :=
  { h with served := fun x hx => by rw [h.deliveries] at hx; cases hx }

/-! ## Pages that apply -/

/-- What the entries on the way need besides: their workspace, fields that fit, asset rows for
what is pending, an active reader, and identifiers that neither the inbox nor another entry
has. -/
structure Storable (deviceId : String) (s : SyncState H) : Prop where
  workspace : s.cloud.log.workspaceId = s.store.workspaceId
  safe : s.cloud.head ≤ maxSafeInteger
  fields : ∀ m ∈ s.unapplied, ∀ f ∈ m.mutation.changedFields, FieldFits s.store.portfolios f
  pending : ∀ e, s.store.EntityPending e → e ∈ s.store.domainAssets.map DomainAsset.entityId
  active : ∀ r, s.store.reader deviceId = some r → r.status = .active
  inbox : ∀ row ∈ s.store.inbox, row.serverRevision ≤ s.store.appliedThroughServerRevision ∧
    Receipted s.cloud.ledger row.mutationId ∧
    ∀ m ∈ s.unapplied, row.mutationId ≠ m.mutation.mutationId
  receipted : ∀ m ∈ s.unapplied, Receipted s.cloud.ledger m.mutation.mutationId
  distinct : (s.unapplied.map (·.mutation.mutationId)).Nodup

namespace Storable

variable {deviceId : String} (h : Storable deviceId s)

include h

/-- A local step: pending fields are of assets that have a row. -/
theorem frame (hlog : s'.cloud.log = s.cloud.log) (hledger : s'.cloud.ledger = s.cloud.ledger)
    (hworkspace : s'.store.workspaceId = s.store.workspaceId)
    (happlied : s'.store.appliedThroughServerRevision = s.store.appliedThroughServerRevision)
    (hportfolios : s'.store.portfolios = s.store.portfolios)
    (hreaders : s'.store.readers = s.store.readers) (hinbox : s'.store.inbox = s.store.inbox)
    (hpending : ∀ e, s'.store.EntityPending e →
      e ∈ s'.store.domainAssets.map DomainAsset.entityId) : Storable deviceId s' := by
  have hunapplied : s'.unapplied = s.unapplied := by
    rw [SyncState.unapplied, Workspace.head, hlog, happlied, SyncState.unapplied, Workspace.head]
  exact
    { workspace := by rw [hlog, hworkspace]; exact h.workspace
      safe := by rw [Workspace.head, hlog]; exact h.safe
      fields := by rw [hunapplied, hportfolios]; exact h.fields
      pending := hpending
      active := by rw [Store.reader, hreaders]; exact h.active
      inbox := by rw [hinbox, happlied, hledger, hunapplied]; exact h.inbox
      receipted := by rw [hunapplied, hledger]; exact h.receipted
      distinct := by rw [hunapplied]; exact h.distinct }

/-- Applying a page moves its identifiers to the inbox. -/
theorem receive {token : H} {store : Store H} (hpage : PageOf P s.cloud page)
    (happlied : PageApplied s.store deviceId page token store) :
    Storable deviceId { s with store := store } := by
  have hsplit : s.unapplied = page.mutations ++ SyncState.unapplied { s with store := store } := by
    rw [Unblocked.unapplied_eq hpage happlied.start, SyncState.unapplied, happlied.applied]
  have hfirst : ∀ m ∈ page.mutations, m ∈ s.unapplied := by
    rw [hsplit]
    exact fun m hm => mem_append_left _ hm
  have hrest : ∀ m ∈ SyncState.unapplied { s with store := store }, m ∈ s.unapplied := by
    rw [hsplit]
    exact fun m hm => mem_append_right _ hm
  have hids := h.distinct
  rw [hsplit, map_append, nodup_append] at hids
  refine
    { workspace := h.workspace.trans happlied.entries.workspaceId.symm
      safe := h.safe
      fields := fun m hm => ?_
      pending := fun e he => ?_
      active := fun r hr => ?_
      inbox := fun row hrow => ?_
      receipted := fun m hm => h.receipted m (hrest m hm)
      distinct := hids.2.1 }
  · rw [show store.portfolios = s.store.portfolios from happlied.entries.portfolios]
    exact h.fields m (hrest m hm)
  · obtain ⟨path, hpath⟩ := Store.entityPending_iff.mp he
    refine happlied.entries.assets _ (h.pending e (Store.entityPending_iff.mpr ⟨path, ?_⟩))
    exact happlied.entries.pending e path hpath
  · obtain ⟨r', hr', _, _, _, _, hactive⟩ := happlied.reader
    cases hr.symm.trans hr'
    exact hactive
  · show _ ≤ store.appliedThroughServerRevision ∧ _
    rw [happlied.applied]
    rcases happlied.entries.inbox row hrow with hold | ⟨m, hm, hrevision, hid⟩
    · obtain ⟨hle, hreceipt, hne⟩ := h.inbox row hold
      rw [← happlied.start] at hle
      exact ⟨hle.trans hpage.ordered, hreceipt, fun m hm => hne m (hrest m hm)⟩
    · rw [hrevision, hid]
      refine ⟨?_, h.receipted m (hfirst m hm), fun x hx => ?_⟩
      · rw [hpage.mutations] at hm
        exact (MutationLog.mem_readRange.mp hm).2.2
      · exact hids.2.2 _ (mem_map_of_mem hm) _ (mem_map_of_mem hx)

/-- The entries of a page that is next fit the database. -/
theorem fits (hpage : PageOf P s.cloud page)
    (hstart : page.fromServerRevisionExclusive = s.store.appliedThroughServerRevision) :
    ∀ m ∈ page.mutations, Fits s.store m := by
  intro m hm
  have hrange := hm
  rw [hpage.mutations, MutationLog.mem_readRange] at hrange
  obtain ⟨hentry, _, hle⟩ := hrange
  exact
    { workspace := (s.cloud.log.tenant m hentry).trans h.workspace
      valid := s.cloud.log.valid m hentry
      revision := le_trans hle (le_trans hpage.known h.safe)
      fields := h.fields m (by
        rw [Unblocked.unapplied_eq hpage hstart]
        exact mem_append_left _ hm)
      pending := h.pending _ }

end Storable

/-- The new mutations of a request name portfolios the device has and tags it can store. -/
def FieldsFit (s : SyncState H) (value : List SubmittedSyncMutationWire) : Prop :=
  ∀ v ∈ s.newMutations value, ∀ f ∈ v.changedFields, FieldFits s.store.portfolios f

instance (s : SyncState H) (value : List SubmittedSyncMutationWire) :
    Decidable (FieldsFit s value) :=
  inferInstanceAs (Decidable (∀ _ ∈ _, _))

variable (J : SerdeJson H) (limit : Nat) (deviceId : String)

/-- There is room for the entries of the page, its text is within the limit, and it is not
taken for the last page. -/
def PageFits (s : Store H) (d : PullDelivery H) : Prop :=
  RoomFor J limit s d.page.mutations ∧ J.page d.page ≤ 1048576 ∧
    Repeats s deviceId d.page d.confirmToken

/-- The fields of what is accepted fit, and so does the page that is applied. -/
def Provided (s : SyncState H) (e : SyncEvent H) : Prop :=
  (∀ value ∈ s.submitted e, FieldsFit s value) ∧
    ∀ d ∈ s.received e, PageFits J limit deviceId s.store d

/-- The condition on one event. -/
def Unwedged (s : SyncState H) (e : SyncEvent H) : Prop :=
  Orderly s e ∧ Provided J limit deviceId s e

variable [DecidableEq H]

instance (s : Store H) (d : PullDelivery H) : Decidable (PageFits J limit deviceId s d) :=
  inferInstanceAs (Decidable (_ ∧ _ ∧ _))

instance (s : SyncState H) (e : SyncEvent H) : Decidable (Unwedged J limit deviceId s e) :=
  inferInstanceAs (Decidable (_ ∧ _ ∧ _))

/-- A page that is next is applied by `apply_sync_page_v2`. -/
def PageApplies (P : Platform H) (deviceId : String) (s : SyncState H) (e : SyncEvent H) : Prop :=
  ∀ d ∈ s.received e, d.page.fromServerRevisionExclusive = s.store.appliedThroughServerRevision →
    (applySyncPage J P s.store deviceId d.page d.confirmToken).isOk = true

instance (P : Platform H) (s : SyncState H) (e : SyncEvent H) :
    Decidable (PageApplies J P deviceId s e) :=
  inferInstanceAs (Decidable (∀ _ ∈ _, _ → _))

namespace Storable

variable {J limit deviceId} (h : Storable deviceId s)

include h

/-- A page that is next applies, if it fits. -/
theorem applies {d : PullDelivery H}
    (hdevice : validIdentifier deviceId = true) (hu : Unblocked P s)
    (hpage : PageOf P s.cloud d.page)
    (hstart : d.page.fromServerRevisionExclusive = s.store.appliedThroughServerRevision)
    (hfits : PageFits J limit deviceId s.store d) :
    (applySyncPage J P s.store deviceId d.page d.confirmToken).isOk = true := by
  obtain ⟨hroom, hsize, hrepeats⟩ := hfits
  have hsplit := Unblocked.unapplied_eq hpage hstart
  have happlicable := hu.applicable
  have hids := h.distinct
  rw [hsplit] at happlicable hids
  have hentries := h.fits hpage hstart
  refine applySyncPage_fits hdevice hsize (hpage.workspace.trans h.workspace) hpage.valid
    hpage.digest (fun m hm => validateSyncMutationFields_of_fits (hentries m hm).fields) h.active
    hstart hrepeats ?_
  refine applyEntries_fits hpage.valid.dense ?_ (fun row hrow => ?_)
    (Applicable.append.mp happlicable).1 hentries hroom
  · rw [map_append] at hids
    exact (nodup_append.mp hids).1
  · obtain ⟨hle, -, hne⟩ := h.inbox row hrow
    rw [hsplit] at hne
    exact ⟨by rw [hstart]; exact hle, fun m hm => hne m (mem_append_left _ hm)⟩

variable (hu : Unblocked P s)

include hu

/-- The identifiers of what is accepted had no receipt. -/
theorem ingest {value : List SubmittedSyncMutationWire} {ms fresh : List SubmittedSyncMutation}
    (hparse : parseRequest value = some ms)
    (hsub : fresh.Sublist ms) (hcommit : IngestCommit P s.cloud s'.cloud fresh)
    (hknown : FieldsFit s value) (hstore : s'.store = s.store) : Storable deviceId s' := by
  obtain ⟨_, hws, _, _, hhead, _⟩ := MutationLog.append_eq_some hcommit.log
  have hnew : ∀ m ∈ MutationLog.number s.cloud.log.workspaceId s.cloud.log.serverRevision fresh,
      ¬ Receipted s.cloud.ledger m.mutation.mutationId := fun m hm =>
    not_receipted_of_missing (hcommit.missing _ (MutationLog.mem_number hm).2.2)
  have hids : (MutationLog.number s.cloud.log.workspaceId s.cloud.log.serverRevision fresh).map
      (·.mutation.mutationId) = fresh.map (·.mutationId) := by
    conv_rhs => rw [← MutationLog.number_mutations s.cloud.log.workspaceId
      s.cloud.log.serverRevision fresh, map_map]
    rfl
  refine
    { workspace := by rw [hws, hstore]; exact h.workspace
      safe := by rw [Workspace.head, hhead]; exact hcommit.safe
      fields := ?_
      pending := by rw [hstore]; exact h.pending
      active := by rw [hstore]; exact h.active
      inbox := fun row hrow => ?_
      receipted := ?_
      distinct := ?_ }
  all_goals rw [unapplied_commit hu hcommit hstore]
  · rw [hstore]
    refine forall_mem_append.mpr ⟨h.fields, fun m hm => ?_⟩
    exact hknown _ ((newMutations_sublist hparse hsub hcommit.missing).subset
      (mem_map_of_mem (MutationLog.mem_number hm).2.2))
  · rw [hstore] at hrow ⊢
    obtain ⟨hle, hreceipt, hne⟩ := h.inbox row hrow
    refine ⟨hle, hcommit.receipted hreceipt, forall_mem_append.mpr ⟨hne, fun m hm heq => ?_⟩⟩
    exact hnew m hm (heq ▸ hreceipt)
  · exact forall_mem_append.mpr ⟨fun m hm => hcommit.receipted (h.receipted m hm),
      fun m hm => ⟨_, hcommit.receipt hm, rfl⟩⟩
  · rw [map_append, hids]
    refine nodup_append.mpr ⟨h.distinct, hcommit.ids, ?_⟩
    rw [← hids]
    rintro id hid _ hid' rfl
    obtain ⟨m, hm, rfl⟩ := mem_map.mp hid
    obtain ⟨m', hm', heq⟩ := mem_map.mp hid'
    exact hnew m' hm' (heq ▸ h.receipted m hm)

theorem cloud {e : CloudEvent H}
    (hstep : CloudStep P ttl s.cloud e s'.cloud) (hcompact : e.isCompact = false)
    (hknown : ∀ value ∈ e.ingested, FieldsFit s value)
    (hstore : s'.store = s.store) : Storable deviceId s' := by
  rcases hstep.tables with ⟨ports, value, ms, fresh, rfl, hparse, hsub, hcommit⟩ |
    ⟨_, hledger, _, hlog⟩
  · exact h.ingest hu hparse hsub hcommit (hknown value rfl) hstore
  · refine h.frame (hlog hcompact) hledger ?_ ?_ ?_ ?_ ?_ ?_ <;> rw [hstore]
    exact h.pending

theorem step {e : SyncEvent H} (hcondition : Unwedged J limit deviceId s e)
    (hstep : SyncStep P ttl deviceId s e s') : Storable deviceId s' := by
  obtain ⟨⟨-, -, hcompact⟩, hknown, -⟩ := hcondition
  cases hstep with
  | idle => exact h
  | mutate hcommit =>
    refine h.frame rfl rfl hcommit.workspaceId hcommit.applied hcommit.portfolios hcommit.readers
      hcommit.inbox fun e he => ?_
    rw [hcommit.assets]
    rcases hcommit.pending e he with he | rfl
    · exact h.pending e he
    · exact hcommit.known
  | deliver hupdate _ =>
    refine h.frame rfl rfl hupdate.workspaceId hupdate.applied hupdate.portfolios hupdate.readers
      hupdate.inbox fun e he => ?_
    rw [hupdate.assets]
    exact h.pending e (hupdate.pending e he)
  | push hclaim hcloud =>
    refine h.cloud hu hcloud rfl (fun value hvalue => hknown value ?_) rfl
    rw [SyncState.submitted, hclaim]
    exact hvalue
  | request => exact h.frame rfl rfl rfl rfl rfl rfl rfl h.pending
  | openReader =>
    refine h.cloud hu (service_step hu.reader _) rfl ?_ rfl
    rintro _ ⟨⟩
  | pull _ hpull =>
    refine h.cloud hu (.pull hpull) rfl ?_ rfl
    rintro _ ⟨⟩
  | receive hd _ _ happlied => exact h.receive (hu.served _ (mem_of_getElem? hd)) happlied
  | cloud hcloud => exact h.cloud hu hcloud (hcompact _ rfl) hknown rfl

end Storable

/-- While deletes and upserts are in order and what is accepted and applied fits, every page
that is next applies. -/
theorem pagesApply_run {J : SerdeJson H} {P : Platform H} {ttl : LeaseTtl} {deviceId : String}
    (limit : Nat) (hdevice : validIdentifier deviceId = true) {s₀ : SyncState H}
    (h₀ : Bootstrapped P s₀) (hstorable : Storable deviceId s₀) {es : List (SyncEvent H)}
    (hes : (syncSystem J P ttl deviceId).Along (Unwedged J limit deviceId) s₀ es) :
    (syncSystem J P ttl deviceId).Along (PageApplies J P deviceId) s₀ es := by
  refine (syncSystem J P ttl deviceId).along_of_inv
    (I := fun s => Unblocked P s ∧ Storable deviceId s) (G := Unwedged J limit deviceId) ?_ ?_
    ⟨h₀.unblocked, hstorable⟩ hes
  · rintro s e ⟨hu, hs⟩ hcondition
    have hstep : SyncStep P ttl deviceId s e ((syncSystem J P ttl deviceId).next s e) :=
      syncSystem_step hu.reader e
    exact ⟨hu.step hcondition.1 hstep, hs.step hu hcondition hstep⟩
  · rintro s e ⟨hu, hs⟩ hcondition
    intro d hd hstart
    have hfits := hcondition.2.2 d hd
    cases e with
    | receive index =>
      obtain ⟨x, hx, rfl⟩ := Option.map_eq_some_iff.mp hd
      exact hs.applies hdevice hu (hu.served x (mem_of_getElem? hx)) hstart hfits
    | _ => cases hd

theorem sampleSync_bootstrapped : Bootstrapped platform sampleSync where
  reader := readerInv_initial sampleWorkspace_initial
  retained := le_rfl
  known := le_rfl
  deliveries := rfl
  applicable := .nil _

theorem sampleSync_storable : Storable "device" sampleSync where
  workspace := rfl
  safe := Nat.zero_le _
  fields := fun m hm => by cases hm
  pending := fun e he => by
    obtain ⟨v, hv, _⟩ := he
    cases hv
  active := fun r hr => by cases hr
  inbox := fun row hrow => by cases hrow
  receipted := fun m hm => by cases hm
  distinct := nodup_nil

/-- Delete the sample asset, after `expectedAssetVersion`. -/
def sampleRemove (expectedAssetVersion : Nat) : SyncEvent Symbolic :=
  .mutate (sampleRequest "remove" expectedAssetVersion) (.delete "a.example")

/-- An edit comes back before the asset is deleted; then the delete comes back. -/
def sampleOrderly : List (SyncEvent Symbolic) :=
  samplePushed ++ samplePulled ++ [sampleRemove 3, .claim "owner" 4 104 256, .push 1 samplePorts,
    .complete 1 5, .request 256, .pull 1, .receive 1]

theorem pagesApply_run_sample :
    (sampleSynced sampleOrderly).store.appliedThroughServerRevision = 2 ∧
    (syncSystem sampleJson platform sampleTtl "device").Along
      (PageApplies sampleJson platform "device") sampleSync sampleOrderly :=
  ⟨by decide, pagesApply_run 2 (by decide) sampleSync_bootstrapped sampleSync_storable (by decide)⟩

/-- One device edits and deletes an asset, and pushes both: the edit comes back to the
tombstone. -/
theorem not_pagesApply_own :
    Bootstrapped platform sampleSync ∧ Storable "device" sampleSync ∧
    ¬ (syncSystem sampleJson platform sampleTtl "device").Along
      (PageApplies sampleJson platform "device") sampleSync
      ([.mutate (sampleRequest "edit" 1) (sampleEdit "mine"), sampleRemove 2,
        .claim "owner" 2 100 256, .push 0 samplePorts, .complete 0 3] ++ samplePulled) :=
  ⟨sampleSync_bootstrapped, sampleSync_storable, by decide⟩

end GoodDealer.Sync
