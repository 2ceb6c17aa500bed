/-
# `GoodDealer.Sync.LocalEdits` — what a local edit or delete can rely on

Three properties of `mutate_domain_asset` over every run of the local database.

| property | invariant | step that breaks it |
| :-- | :-- | :-- |
| a live asset can be edited and deleted | no live asset has a tombstone | a contested delete |
| no update is lost | whatever changes an asset moves its version | `accept_remote` of a field |
| the outbox is numbered `1..n` | a number is given to the row that takes it | none |

A contested delete leaves the asset live and writes a tombstone next to it; the local delete
inserts its own without looking.  An accepted candidate writes the field of the asset and
leaves the version, by which edits are compared and swapped, as it was.
-/
import GoodDealer.Sync.Database

namespace GoodDealer.Sync

open Desktop List Keyed Symbolic

variable {H V : Type} {J : SerdeJson H} {P : Platform H} {s s' : Store H} {r : MutationRequest}
  {a : DomainAsset} {deviceId : String} {hash : ConflictValue → V}

/-! ## Live assets and tombstones -/

/-- No live asset has a tombstone. -/
def Unburied (s : Store H) : Prop :=
  ∀ e, s.Tombstoned e → ∀ a, s.domainAsset e = some a → a.deletedAt.isSome = true

/-- No delete of the page names an asset with a pending field. -/
def Uncontested (db : BusinessDatabase H V) : DatabaseEvent H V → Prop
  | .applyPage page _ => ∀ m ∈ page.mutations, m.mutation.operationKind = .delete →
      ¬ db.store.EntityPending m.mutation.entityId
  | .outbox _ | .resolve _ => True

instance (db : BusinessDatabase H V) : ∀ e, Decidable (Uncontested db e)
  | .applyPage page _ => inferInstanceAs (Decidable (∀ m ∈ page.mutations, _ → ¬ _))
  | .outbox _ | .resolve _ => isTrue trivial

section

variable (hs : Unburied s)

include hs

/-- What happens to the tombstones and the asset of one entity. -/
theorem Unburied.of_entity (e₀ : String)
    (hsame : ∀ e, e ≠ e₀ → s'.Tombstoned e → s.Tombstoned e ∧ s'.domainAsset e = s.domainAsset e)
    (hself : s'.Tombstoned e₀ → ∀ a, s'.domainAsset e₀ = some a → a.deletedAt.isSome = true) :
    Unburied s' := by
  intro e ht a ha
  by_cases he : e = e₀
  · subst he
    exact hself ht a ha
  · obtain ⟨ht', hasset⟩ := hsame e he ht
    rw [hasset] at ha
    exact hs e ht' a ha

theorem unburied_mutated {op : LocalOperation} :
    Unburied (s.mutated r op) := by
  refine hs.of_entity op.entityId (fun e he ht => ?_) (fun ht a ha => ?_)
  · refine ⟨?_, (SameAsset.mutated r he).asset⟩
    cases op with
    | edit asset => exact ht
    | delete entityId =>
      simp only [Store.Tombstoned, Store.mutated, map_append, mem_append,
        map_cons, map_nil, mem_singleton] at ht
      exact ht.resolve_right he
  · rw [domainAsset_mutated] at ha
    obtain ⟨b, hb, rfl⟩ := Option.map_eq_some_iff.mp ha
    cases op with
    | edit asset => exact hs _ ht b hb
    | delete entityId => rfl

theorem unburied_settleWrite (h : SettleWrite s s') : Unburied s' := by
  intro e ht a ha
  rw [(SameAsset.settleWrite h).asset] at ha
  exact hs e ((tombstoned_settleWrite h e).mp ht) a ha

/-- A write of an entry that is not a contested delete. -/
theorem unburied_entryWrite {m : SyncMutation} (h : EntryWrite J P m s s')
    (hm : m.mutation.operationKind = .delete → ¬ s.EntityPending m.mutation.entityId) :
    Unburied s' := by
  have hother := fun e (he : e ≠ m.mutation.entityId) => (SameAsset.entryWrite h he).asset
  cases h with
  | candidate => exact hs
  | contest delete pending | contestAgain delete pending => exact absurd pending (hm delete)
  | delete =>
    refine hs.of_entity m.mutation.entityId (fun e he ht => ?_) (fun _ a ha => ?_)
    · exact ⟨(mem_put_tombstone.mp ht).resolve_right he, hother e he⟩
    · rw [Store.domainAsset, lookup_archived] at ha
      cases ha
      rfl
  | ensure _ untombstoned =>
    refine hs.of_entity m.mutation.entityId (fun e he ht => ?_) (fun ht => ?_)
    · exact ⟨ht, hother e he⟩
    · exact absurd ht untombstoned
  | field => exact hs

theorem unburied_page [DecidableEq H] {page : MutationPage H} {t : Store H}
    (hpage : PageEntries J P s page t)
    (hdeletes : ∀ m ∈ page.mutations, m.mutation.operationKind = .delete →
      ¬ s.EntityPending m.mutation.entityId) : Unburied t := by
  let I (u : Store H) : Prop :=
    Unburied u ∧ ∀ e path, u.FieldPending e path → s.FieldPending e path
  suffices h : I t from h.1
  refine hpage.inv (K := I) (fun m _ u _ hu => hu) ?_ (fun u row hu => hu) ⟨hs, fun _ _ h => h⟩
  intro m hm u u' ⟨hu, hpending⟩ hwrite
  refine ⟨unburied_entryWrite hu hwrite fun hdelete hp => ?_,
    fun e path h => hpending e path ((hwrite.fieldPending e path).mp h)⟩
  obtain ⟨path, hpath⟩ := Store.entityPending_iff.mp hp
  exact hdeletes m hm hdelete (Store.entityPending_iff.mpr ⟨path, hpending _ _ hpath⟩)

theorem unburied_resolutionWrite {c : SyncConflict H} {r : ResolutionRequest V}
    (h : ResolutionWrite c r s s') : Unburied s' := by
  have hother := fun e (he : e ≠ c.entityId) => (SameAsset.resolutionWrite h he).asset
  cases h with
  | acceptField => exact hs
  | acceptDelete =>
    have hkeys : (adjust Tombstone.entityId c.entityId (fun t => { t with
        state := .replicated, barrierState := .replicated }) s.tombstones).map
          Tombstone.entityId = s.tombstones.map Tombstone.entityId := by
      apply keys_adjust
      exact fun _ ha => ha
    refine hs.of_entity c.entityId (fun e he ht => ⟨?_, hother e he⟩) (fun _ a ha => ?_)
    · unfold Store.Tombstoned at ht
      rwa [hkeys] at ht
    · rw [Store.domainAsset, lookup_adjust_self (by exact fun _ ha => ha)] at ha
      obtain ⟨b, _, rfl⟩ := Option.map_eq_some_iff.mp ha
      rfl
  | keep => exact hs

end

theorem unburied_step [DecidableEq H] [DecidableEq V]
    (db : BusinessDatabase H V) (e : DatabaseEvent H V)
    (db' : BusinessDatabase H V) (hdb : Unburied db.store) (he : Uncontested db e)
    (hstep : DatabaseStep J P hash deviceId db e db') : Unburied db'.store := by
  cases hstep with
  | same => exact hdb
  | commit => exact unburied_mutated hdb
  | claim writes =>
    exact chain_inv (I := Unburied) (fun _ _ ht hw => by cases hw; exact ht) hdb writes
  | settle writes => exact chain_inv (I := Unburied) (fun _ _ => unburied_settleWrite) hdb writes
  | page entries =>
    have h := unburied_page hdb entries he
    exact h
  | resolve resolved =>
    have h := unburied_resolutionWrite hdb resolved.write
    exact h

/-! ## A live asset can be edited and deleted -/

/-- A new and well-formed request of a lease holder that names the current version. -/
structure Authorized (s : Store H) (r : MutationRequest) (a : DomainAsset) : Prop where
  mutationId : validIdentifier r.mutationId = true
  deviceId : validIdentifier r.deviceId = true
  entityId : validDomainAssetId a.entityId = true
  fresh : s.outboxRow r.mutationId = none
  allowNew : r.allowNew = true
  version : a.localCommitSequence = r.expectedAssetVersion
  epoch : 1 ≤ r.activeLeaseEpoch ∧ r.activeLeaseEpoch ≤ maxSafeInteger
  room : s.localCommitSequence < maxSafeInteger ∧ s.nextDeviceMutationSequence < maxSafeInteger

/-- The request goes through, as an edit to any valid row and as a delete. -/
structure Mutable (s : Store H) (r : MutationRequest) (entityId : String) : Prop where
  edit : ∀ row : DomainAssetProjectionRow, row.entityId = entityId →
    validateDomainAsset row = true → row.portfolioId.all s.portfolios.contains = true →
    ∃ s' receipt, localMutation s r (.edit row) = .ok (s', receipt) ∧ receipt.replayed = false
  delete : ∃ s' receipt, localMutation s r (.delete entityId) = .ok (s', receipt) ∧
    receipt.replayed = false

section

/-- The local checks are stricter than the columns, except for the reference to a portfolio. -/
theorem storable_of_validate {portfolios : List String} {row : DomainAssetProjectionRow}
    (h : validateDomainAsset row = true)
    (hknown : row.portfolioId.all portfolios.contains = true) :
    (LocalOperation.edit row).changedFields.all (fieldStorable portfolios) = true := by
  simp only [validateDomainAsset, Bool.and_eq_true, decide_eq_true_eq, all_eq_true,
    Bool.not_eq_true'] at h
  obtain ⟨⟨⟨⟨⟨⟨_, hnote⟩, _⟩, _⟩, htags⟩, hsorted⟩, hprice⟩ := h
  simp only [LocalOperation.changedFields, all_cons, all_nil, Bool.and_true,
    Bool.and_eq_true]
  refine ⟨?_, hknown, ?_, ?_⟩
  · cases hn : row.note with
    | none => rfl
    | some note =>
      rw [hn, Option.all_some, Bool.and_eq_true] at hnote
      exact hnote.1
  · simp only [fieldStorable, Bool.and_eq_true, all_eq_true, decide_eq_true_eq]
    refine ⟨fun tag htag => ?_, hsorted.imp fun hlt => ne_of_lt hlt⟩
    obtain ⟨⟨⟨⟨hlength, hle⟩, hhead⟩, hlast⟩, _⟩ := htags tag htag
    exact tagStorable_of_ends (by decide) hlength hle hhead hlast
  · cases hp : row.targetPrice with
    | none => rfl
    | some money =>
      rw [hp, Option.all_some, Money.valid, Bool.and_eq_true] at hprice
      exact hprice.1

/-- A write of the asset rows that succeeds is committed. -/
theorem mutateDomainAsset_of_write {op : LocalOperation} {t : Store H}
    (hasset : s.domainAsset op.entityId = some a) (hlive : a.deletedAt = none)
    (hr : Authorized s r a)
    (hwrite : { s with
        localCommitSequence := s.localCommitSequence + 1
        nextDeviceMutationSequence := s.nextDeviceMutationSequence + 1 }.write op r
          (s.localCommitSequence + 1) = .ok t) :
    ∃ s' receipt, mutateDomainAsset s r op = .ok (s', receipt) ∧ receipt.replayed = false := by
  have hmax : ¬ (maxSafeInteger ≤ s.localCommitSequence ∨
      maxSafeInteger ≤ s.nextDeviceMutationSequence) := by
    have := hr.room
    omega
  have hsmall : ¬ 2 ^ 63 ≤ r.activeLeaseEpoch := by
    have := hr.epoch
    simp only [maxSafeInteger] at this
    omega
  have hepoch : ¬ (r.activeLeaseEpoch < 1 ∨ maxSafeInteger < r.activeLeaseEpoch) := by
    have := hr.epoch
    omega
  simp only [mutateDomainAsset, hr.fresh, hr.allowNew, Bool.not_true, Bool.false_eq_true,
    if_false, hasset, hlive, Option.isSome_none, hr.version, ne_eq, not_true_eq_false, if_neg hmax,
    hwrite, if_neg hsmall, if_neg hepoch]
  exact ⟨_, _, rfl, rfl⟩

theorem Authorized.ids (hr : Authorized s r a) :
    (!validIdentifier r.mutationId || !validIdentifier r.deviceId) = false := by
  rw [hr.mutationId, hr.deviceId]
  rfl

theorem mutable_of_untombstoned {entityId : String} (hasset : s.domainAsset entityId = some a)
    (hlive : a.deletedAt = none) (htomb : ¬ s.Tombstoned entityId) (hr : Authorized s r a) :
    Mutable s r entityId where
  edit := by
    intro row hentity hvalid hknown
    subst hentity
    simp only [localMutation, hr.ids, Bool.false_eq_true, if_false, hvalid, Bool.not_true]
    apply mutateDomainAsset_of_write hasset hlive hr
    show Store.writeEdit _ row _ = _
    rw [Store.writeEdit, storable_of_validate hvalid hknown, Bool.not_true, Bool.and_false]
    rfl
  delete := by
    have hentity : a.entityId = entityId := (lookup_eq_some hasset).2
    have hvalid : validDomainAssetId entityId = true := hentity ▸ hr.entityId
    simp only [localMutation, hr.ids, Bool.false_eq_true, if_false, hvalid, Bool.not_true]
    apply mutateDomainAsset_of_write hasset hlive hr
    show Store.writeDelete _ entityId _ _ = _
    rw [Store.writeDelete, if_neg (by exact htomb)]

end

/-- In every run in which no applied delete of the log is contested, an asset that is live can be
edited and deleted by whoever presents its current version. -/
theorem mutable_run [DecidableEq H] [DecidableEq V] (J : SerdeJson H) (P : Platform H)
    (hash : ConflictValue → V) (deviceId : String) (db : BusinessDatabase H V)
    (hdb : Unburied db.store) (es : List (DatabaseEvent H V))
    (hrun : (database J P hash deviceId).Along Uncontested db es) (entityId : String)
    (a : DomainAsset)
    (hasset : ((database J P hash deviceId).run db es).store.domainAsset entityId = some a)
    (hlive : a.deletedAt = none) (r : MutationRequest)
    (hr : Authorized ((database J P hash deviceId).run db es).store r a) :
    Mutable ((database J P hash deviceId).run db es).store r entityId := by
  refine mutable_of_untombstoned hasset hlive (fun htomb => ?_) hr
  have hburied : Unburied ((database J P hash deviceId).run db es).store :=
    database_inv (I := fun db => Unburied db.store) unburied_step hdb hrun
  have hdeleted := hburied entityId htomb a hasset
  rw [hlive] at hdeleted
  cases hdeleted

/-- The sample asset after an edit. -/
theorem mutable_run_edited :
    Mutable (sampleRun [sampleCommit "edit" 1 "mine"]).store (sampleRequest "next" 2) "a.example" :=
  mutable_run sampleJson platform id "device" sampleDatabase (fun e h => by cases h)
    [sampleCommit "edit" 1 "mine"] (by decide) "a.example" ⟨"a.example", .active, none, 2⟩
    (by decide) rfl (sampleRequest "next" 2)
    ⟨by decide, by decide, by decide, by decide, by decide, by decide, by decide, by decide⟩

/-- A delete of the sample asset by another device. -/
def sampleRemoteDelete : SubmittedSyncMutationWire where
  mutationId := "gone"
  workspaceSchemaVersion := 1
  entityId := "a.example"
  operationKind := .delete
  deletedAt := some 4
  baseServerRevision := 0
  changedFields := []
  sourceDeviceId := "other-device"
  activeLeaseEpoch := 1
  deviceMutationSequence := 1

/-- The sample desktop after an edit that the delete of another device contests. -/
def sampleContested : Store Symbolic :=
  (sampleRun [sampleCommit "edit" 1 "mine", samplePull 0 [sampleRemoteDelete]]).store

/-- The asset is live, and its delete is aborted by the tombstone of the contested one. -/
theorem contested_not_mutable :
    sampleContested.domainAsset "a.example" = some ⟨"a.example", .active, none, 2⟩ ∧
    Authorized sampleContested (sampleRequest "remove" 2) ⟨"a.example", .active, none, 2⟩ ∧
    localMutation sampleContested (sampleRequest "remove" 2) (.delete "a.example") =
      .error .storageRejected ∧
    ¬ Mutable sampleContested (sampleRequest "remove" 2) "a.example" := by
  have hrefused : localMutation sampleContested (sampleRequest "remove" 2) (.delete "a.example") =
      .error .storageRejected := by decide
  refine ⟨by decide, ?_, hrefused, fun h => ?_⟩
  · exact ⟨by decide, by decide, by decide, by decide, by decide, by decide, by decide, by decide⟩
  · obtain ⟨s', receipt, hok, _⟩ := h.delete
    rw [hrefused] at hok
    cases hok

/-! ## Versions and visible fields -/

/-- What a reader sees of an asset: the lifecycle, and note, portfolio, tags and target price
in both tables that are read. -/
structure VisibleFields where
  lifecycle : Option (LifecycleStatus × Option Timestamp)
  projection : Option DomainAssetProjectionRow
  desired : Option (Option String × Option String × Option Money)
deriving DecidableEq

def visibleFields (s : Store H) (e : String) : VisibleFields where
  lifecycle := (s.domainAsset e).map (fun a => (a.lifecycleStatus, a.deletedAt))
  projection := (s.portfolioRow e).map (fun a => a.row)
  desired := (Keyed.lookup DesiredState.entityId e s.desiredState).map
    (fun d => (d.note, d.portfolioId, d.targetPrice))

/-- No candidate of a field is accepted. -/
def FieldsKept (db : BusinessDatabase H V) : DatabaseEvent H V → Prop
  | .resolve r => r.choice = .acceptRemote →
      ∀ c ∈ db.openConflict r.conflictId, c.fieldPath = .lifecycleStatus
  | .outbox _ | .applyPage .. => True

instance (db : BusinessDatabase H V) : ∀ e, Decidable (FieldsKept db e)
  | .resolve r => inferInstanceAs
      (Decidable (r.choice = .acceptRemote → ∀ c ∈ db.openConflict r.conflictId, _ = _))
  | .outbox _ | .applyPage .. => isTrue trivial

/-- The version of an asset is the sequence of a commit. -/
def VersionsBounded (s : Store H) : Prop :=
  ∀ a ∈ s.domainAssets, a.localCommitSequence ≤ s.localCommitSequence

instance (s : Store H) : Decidable (VersionsBounded s) :=
  inferInstanceAs (Decidable (∀ a ∈ s.domainAssets, _ ≤ _))

/-- Since the asset `e` had version `v` and the fields `seen`: its version only moved up, and
while it is `v` the fields are as they were seen or the asset is deleted. -/
def Since (e : String) (v : Nat) (seen : VisibleFields) (s : Store H) : Prop :=
  ∃ a, s.domainAsset e = some a ∧ v ≤ a.localCommitSequence ∧
    (a.localCommitSequence = v → visibleFields s e = seen ∨ a.deletedAt.isSome = true)

section

variable {f : DomainAsset → DomainAsset}

theorem bounded_adjust {k : String} {n : Nat} (hs : ∀ a ∈ s.domainAssets, a.localCommitSequence ≤ n)
    (hf : ∀ a ∈ s.domainAssets, (f a).localCommitSequence ≤ n) :
    ∀ a ∈ adjust DomainAsset.entityId k f s.domainAssets, a.localCommitSequence ≤ n := by
  intro a ha
  obtain ⟨b, hb, rfl⟩ := mem_adjust.mp ha
  split
  · exact hf b hb
  · exact hs b hb

section

variable (hs : VersionsBounded s)

include hs

/-- A row that is put with the present commit. -/
theorem bounded_put (ha : a.localCommitSequence = s.localCommitSequence)
    (hf : ∀ b, (f b).localCommitSequence = s.localCommitSequence) :
    ∀ b ∈ Keyed.put DomainAsset.entityId a f s.domainAssets,
      b.localCommitSequence ≤ s.localCommitSequence := by
  intro b hb
  rcases mem_put hb with hb | rfl | ⟨c, _, _, rfl⟩
  · exact hs b hb
  · exact le_of_eq ha
  · exact le_of_eq (hf c)

theorem bounded_mutated (r : MutationRequest) (op : LocalOperation) :
    VersionsBounded (s.mutated r op) :=
  bounded_adjust (fun a ha => Nat.le_succ_of_le (hs a ha))
    (fun a _ => le_of_eq (by cases op <;> rfl))

theorem bounded_entryWrite {m : SyncMutation}
    (hwrite : EntryWrite J P m s s') : VersionsBounded s' := by
  cases hwrite with
  | candidate | contest | contestAgain | field => exact hs
  | delete | ensure => exact bounded_put hs rfl (fun _ => rfl)

theorem bounded_page [DecidableEq H] {page : MutationPage H} {t : Store H}
    (hpage : PageEntries J P s page t) : VersionsBounded t :=
  hpage.inv (K := VersionsBounded) (fun _ _ _ _ hu a ha => Nat.le_succ_of_le (hu a ha))
    (fun _ _ _ _ ht => bounded_entryWrite ht) (fun _ _ hu => hu) hs

theorem bounded_resolutionWrite {c : SyncConflict H} {r : ResolutionRequest V}
    (hwrite : ResolutionWrite c r s s') : VersionsBounded s' := by
  cases hwrite with
  | acceptField => exact hs
  | acceptDelete => exact bounded_adjust hs hs
  | keep => exact fun a ha => Nat.le_succ_of_le (hs a ha)

end

theorem bounded_step [DecidableEq H] [DecidableEq V]
    (db : BusinessDatabase H V) (ev : DatabaseEvent H V) (db' : BusinessDatabase H V)
    (hdb : VersionsBounded db.store) (hstep : DatabaseStep J P hash deviceId db ev db') :
    VersionsBounded db'.store := by
  cases hstep with
  | same => exact hdb
  | commit => exact bounded_mutated hdb _ _
  | claim writes =>
    exact chain_inv (I := VersionsBounded) (fun _ _ ht hw => by cases hw; exact ht) hdb writes
  | settle writes =>
    exact chain_inv (I := VersionsBounded) (fun _ _ ht hw => by cases hw <;> exact ht) hdb writes
  | page entries =>
    have h := bounded_page hdb entries
    exact h
  | resolve resolved =>
    have h := bounded_resolutionWrite hdb resolved.write
    exact h

end

section

variable {e : String} {v : Nat} {seen : VisibleFields}

/-- A write that moves the version. -/
theorem Since.of_moved (ha : s'.domainAsset e = some a)
    (hv : v < a.localCommitSequence) : Since e v seen s' :=
  ⟨a, ha, le_of_lt hv, fun heq => absurd heq (Nat.ne_of_gt hv)⟩

section

variable (h : Since e v seen s)

include h

/-- A write that leaves the rows of the asset alone. -/
theorem Since.of_sameAsset (hsame : SameAsset e s s') : Since e v seen s' := by
  obtain ⟨a, ha, hv, hseen⟩ := h
  have hvisible : visibleFields s' e = visibleFields s e := by
    unfold visibleFields
    rw [hsame.asset, hsame.row, hsame.desired]
  refine ⟨a, by rw [hsame.asset, ha], hv, fun heq => ?_⟩
  rw [hvisible]
  exact hseen heq

/-- The version is a commit of the past. -/
theorem Since.version_le (hs : VersionsBounded s) : v ≤ s.localCommitSequence := by
  obtain ⟨a, ha, hv, _⟩ := h
  exact le_trans hv (hs a (lookup_eq_some ha).1)

theorem since_mutated (r : MutationRequest) (op : LocalOperation) (hs : VersionsBounded s)
    : Since e v seen (s.mutated r op) := by
  by_cases he : e = op.entityId
  · have hle := h.version_le hs
    obtain ⟨a, ha, _⟩ := h
    have hnew := domainAsset_mutated s r op
    rw [← he, ha, Option.map_some] at hnew
    refine .of_moved hnew ?_
    cases op <;> exact Nat.lt_succ_of_le hle
  · exact h.of_sameAsset (.mutated r he)

/-- While an entry is applied, the present commit is later than the version. -/
theorem since_entryWrite {m : SyncMutation} (hlt : v < s.localCommitSequence)
    (hwrite : EntryWrite J P m s s') :
    v < s'.localCommitSequence ∧ Since e v seen s' := by
  have hother := fun hne : e ≠ m.mutation.entityId => SameAsset.entryWrite hwrite hne
  cases hwrite with
  | candidate | contest | contestAgain => exact ⟨hlt, h.of_sameAsset ⟨rfl, rfl, rfl⟩⟩
  | delete =>
    refine ⟨hlt, ?_⟩
    by_cases he : e = m.mutation.entityId
    · subst he
      exact .of_moved (lookup_archived s m) hlt
    · exact h.of_sameAsset (hother he)
  | ensure =>
    refine ⟨hlt, ?_⟩
    by_cases he : e = m.mutation.entityId
    · subst he
      exact .of_moved (domainAsset_ensureAsset s _) hlt
    · exact h.of_sameAsset (hother he)
  | field _ _ _ ensured =>
    refine ⟨hlt, ?_⟩
    by_cases he : e = m.mutation.entityId
    · subst he
      -- the rows were brought to the present commit before a field is written
      obtain ⟨a, ha, _, hversion⟩ := ensured.asset
      exact .of_moved ha (hversion ▸ hlt)
    · exact h.of_sameAsset (hother he)

theorem since_page [DecidableEq H] {page : MutationPage H} {t : Store H}
    (hpage : PageEntries J P s page t) (hs : VersionsBounded s) :
    Since e v seen t := by
  let I (u : Store H) : Prop := VersionsBounded u ∧ Since e v seen u
  suffices ht : I t from ht.2
  refine hpage.inv (K := fun u => VersionsBounded u ∧ v < u.localCommitSequence ∧ Since e v seen u)
    (fun m _ u _ hu => ?_)
    (fun m _ u u' hu hwrite =>
      ⟨bounded_entryWrite hu.1 hwrite, since_entryWrite hu.2.2 hu.2.1 hwrite⟩)
    (fun u row hu => ⟨hu.1, hu.2.2.of_sameAsset ⟨rfl, rfl, rfl⟩⟩) ⟨hs, h⟩
  refine ⟨fun a ha => Nat.le_succ_of_le (hu.1 a ha), Nat.lt_succ_of_le (hu.2.version_le hu.1), ?_⟩
  exact hu.2.of_sameAsset ⟨rfl, rfl, rfl⟩

theorem since_resolutionWrite {c : SyncConflict H} {r : ResolutionRequest V}
    (hwrite : ResolutionWrite c r s s')
    (hkept : r.choice = .acceptRemote → c.fieldPath = .lifecycleStatus) : Since e v seen s' := by
  have hother := fun hne : e ≠ c.entityId => SameAsset.resolutionWrite hwrite hne
  cases hwrite with
  | acceptField accept field =>
    rw [hkept accept] at field
    cases field
  | acceptDelete =>
    by_cases he : e = c.entityId
    · subst he
      -- the version stays, but a deleted asset cannot be edited
      obtain ⟨a, ha, hv, _⟩ := h
      have hnew : Keyed.lookup DomainAsset.entityId c.entityId (adjust DomainAsset.entityId
          c.entityId (fun a => { a with
            lifecycleStatus := .archived, deletedAt := some r.committedAt }) s.domainAssets) = _ :=
        lookup_adjust_self (by exact fun _ ha => ha) s.domainAssets
      rw [show Keyed.lookup DomainAsset.entityId c.entityId s.domainAssets = some a from ha,
        Option.map_some] at hnew
      exact ⟨_, hnew, hv, fun _ => .inr rfl⟩
    · exact h.of_sameAsset (hother he)
  | keep => exact h.of_sameAsset ⟨rfl, rfl, rfl⟩

end

theorem since_step [DecidableEq H] [DecidableEq V]
    (db : BusinessDatabase H V) (ev : DatabaseEvent H V) (db' : BusinessDatabase H V)
    (hdb : VersionsBounded db.store ∧ Since e v seen db.store) (hev : FieldsKept db ev)
    (hstep : DatabaseStep J P hash deviceId db ev db') :
    VersionsBounded db'.store ∧ Since e v seen db'.store := by
  refine ⟨bounded_step db ev db' hdb.1 hstep, ?_⟩
  cases hstep with
  | same => exact hdb.2
  | commit => exact since_mutated hdb.2 _ _ hdb.1
  | claim writes =>
    exact chain_inv (I := Since e v seen)
      (fun _ _ ht hwrite => ht.of_sameAsset (.claimWrite hwrite)) hdb.2 writes
  | settle writes =>
    exact chain_inv (I := Since e v seen)
      (fun _ _ ht hwrite => ht.of_sameAsset (.settleWrite hwrite)) hdb.2 writes
  | page entries => exact (since_page hdb.2 entries hdb.1).of_sameAsset ⟨rfl, rfl, rfl⟩
  | @resolve r c s' resolved =>
    have h := since_resolutionWrite hdb.2 resolved.write
      fun haccept => hev haccept c resolved.found
    exact h.of_sameAsset ⟨rfl, rfl, rfl⟩

/-- From a state in which the asset has some version, to a mutation that is committed: the
version only moved up, and if it is still the same nothing changed. -/
theorem visibleFields_of_committed [DecidableEq H] [DecidableEq V] {db : BusinessDatabase H V}
    (hdb : VersionsBounded db.store)
    {es : List (DatabaseEvent H V)} (hrun : (database J P hash deviceId).Along FieldsKept db es)
    (r : MutationRequest) (op : LocalOperation)
    (hcommitted : Committed ((database J P hash deviceId).run db es).store r op)
    (ha : db.store.domainAsset op.entityId = some a) :
    a.localCommitSequence ≤ r.expectedAssetVersion ∧
      (a.localCommitSequence = r.expectedAssetVersion →
        visibleFields ((database J P hash deviceId).run db es).store op.entityId =
          visibleFields db.store op.entityId) := by
  obtain ⟨b, hb, hlive, hversion⟩ := hcommitted.asset
  obtain ⟨b', hb', hle, hseen⟩ := (database_inv
    (I := fun t => VersionsBounded t.store ∧ Since op.entityId a.localCommitSequence
      (visibleFields db.store op.entityId) t.store)
    since_step ⟨hdb, a, ha, le_rfl, fun _ => .inl rfl⟩ hrun).2
  rw [hb] at hb'
  cases hb'
  refine ⟨hversion ▸ hle, fun heq => ?_⟩
  refine (hseen (hversion.trans heq.symm)).resolve_right fun hdeleted => ?_
  rw [hlive] at hdeleted
  cases hdeleted

end

/-- In every run in which no candidate of a field is accepted: if an edit or a delete is
committed with the version an asset had in an earlier state, nothing a reader sees of the asset
changed in any state since. -/
theorem noLostUpdate_run [DecidableEq H] [DecidableEq V] (J : SerdeJson H) (P : Platform H)
    (hash : ConflictValue → V) (deviceId : String) (db : BusinessDatabase H V)
    (hdb : VersionsBounded db.store) (es es₁ es₂ : List (DatabaseEvent H V))
    (hrun : (database J P hash deviceId).Along FieldsKept db (es ++ es₁ ++ es₂))
    (r : MutationRequest) (op : LocalOperation) (a : DomainAsset)
    (hasset : ((database J P hash deviceId).run db es).store.domainAsset op.entityId = some a)
    (hversion : a.localCommitSequence = r.expectedAssetVersion)
    (s' : Store H) (receipt : DomainAssetMutationReceipt)
    (hcommit : localMutation ((database J P hash deviceId).run db (es ++ es₁ ++ es₂)).store r op =
      .ok (s', receipt)) (hnew : receipt.replayed = false) :
    visibleFields ((database J P hash deviceId).run db (es ++ es₁)).store op.entityId =
      visibleFields ((database J P hash deviceId).run db es).store op.entityId := by
  have hcommitted :
      Committed ((database J P hash deviceId).run db (es ++ es₁ ++ es₂)).store r op := by
    rcases (mutateDomainAsset_committed (mutateDomainAsset_of_local hcommit)).2 with
      ⟨_, hreplayed⟩ | ⟨hcommitted, _⟩
    · rw [hnew] at hreplayed
      cases hreplayed
    · exact hcommitted
  have hbounded : ∀ es, VersionsBounded ((database J P hash deviceId).run db es).store := fun es =>
    (database J P hash deviceId).run_of_step (I := fun db => VersionsBounded db.store)
      (fun db ev hI => bounded_step db ev _ hI (database_step db ev)) es hdb
  -- the asset is still there in the state between, with a version that lies between
  have hfirst := ((database J P hash deviceId).along_append db es (es₁ ++ es₂)).mp
    (append_assoc es es₁ es₂ ▸ hrun)
  have hmid := ((database J P hash deviceId).along_append db (es ++ es₁) es₂).mp hrun
  have hfrom := ((database J P hash deviceId).along_append db es es₁).mp hmid.1
  obtain ⟨b, hb, hle, _⟩ := (database_inv (J := J) (P := P)
    (I := fun t => VersionsBounded t.store ∧ Since op.entityId a.localCommitSequence
      (visibleFields ((database J P hash deviceId).run db es).store op.entityId) t.store)
    since_step ⟨hbounded es, a, hasset, le_rfl, fun _ => .inl rfl⟩ hfrom.2).2
  rw [← Machine.run_append] at hb
  have hsince := visibleFields_of_committed (hbounded es) hfirst.2 r op
    (by rw [← Machine.run_append, ← append_assoc]; exact hcommitted)
    hasset
  have hbetween := visibleFields_of_committed (hbounded (es ++ es₁)) hmid.2 r op
    (by rw [← Machine.run_append]; exact hcommitted) hb
  have hstart := hsince.2 hversion
  have hend := hbetween.2 (le_antisymm hbetween.1 (hversion ▸ hle))
  rw [← Machine.run_append, ← append_assoc] at hstart
  rw [← Machine.run_append] at hend
  exact hend.symm.trans hstart

/-- The local note is kept, and the asset edited with the version from before. -/
theorem noLostUpdate_run_kept :
    visibleFields (sampleRun ([sampleCommit "edit" 1 "mine", samplePull 0 [sampleTheirs]] ++
        [sampleResolve .keepLocal])).store "a.example" =
    visibleFields (sampleRun
      [sampleCommit "edit" 1 "mine", samplePull 0 [sampleTheirs]]).store "a.example" :=
  noLostUpdate_run sampleJson platform id "device" sampleDatabase (by decide)
    [sampleCommit "edit" 1 "mine", samplePull 0 [sampleTheirs]] [sampleResolve .keepLocal] []
    (by decide) (sampleRequest "next" 3) (sampleEdit "again") ⟨"a.example", .active, none, 3⟩
    (by decide) rfl _ _ rfl rfl

/-- A candidate is accepted: the note is another one, the version is the same, and an edit that
names it is committed. -/
theorem accepted_lostUpdate :
    let before := sampleRun [sampleCommit "edit" 1 "mine", samplePull 0 [sampleTheirs]]
    let after := (database sampleJson platform id "device").run before
      [sampleResolve .acceptRemote]
    before.store.domainAsset "a.example" = some ⟨"a.example", .active, none, 3⟩ ∧
    (localMutation after.store (sampleRequest "next" 3) (sampleEdit "again")).toOption.map
      (·.2.replayed) = some false ∧
    visibleFields after.store "a.example" ≠ visibleFields before.store "a.example" := by
  decide

/-! ## The order of the outbox -/

/-- A call of the host.  `guard` is asked just before the commit, and is told whether the
mutation is a replay. -/
inductive HostCall (H V : Type) where
  | mutate (request : MutationRequest) (op : LocalOperation)
      (guard : Bool → Except BusinessDatabaseError Unit)
  | resolve (request : ResolutionRequest V) (commitFence : Except BusinessDatabaseError Unit)
  | sync (event : DatabaseEvent H V)

/-- The outbox without the state of delivery. -/
def journal (s : Store H) : List (OutboxRow H) := s.outbox.map OutboxRow.undelivered

/-- The outbox and its counter are as they were. -/
structure Unsequenced (s s' : Store H) : Prop where
  rows : journal s' = journal s
  next : s'.nextDeviceMutationSequence = s.nextDeviceMutationSequence
  commits : s.localCommitSequence ≤ s'.localCommitSequence

/-- One row is added, with the next numbers. -/
structure Sequenced (s s' : Store H) (row : OutboxRow H) : Prop where
  rows : journal s' = journal s ++ [row]
  sequence : row.mutation.deviceMutationSequence = s.nextDeviceMutationSequence
  commit : row.localCommitSequence = s.localCommitSequence + 1
  next : s'.nextDeviceMutationSequence = s.nextDeviceMutationSequence + 1
  commits : s'.localCommitSequence = s.localCommitSequence + 1

/-- The rows are numbered from one, in the order of their commits. -/
structure Journaled (s : Store H) : Prop where
  unique : s.UniqueMutationIds
  sequences : (journal s).map (·.mutation.deviceMutationSequence) = range' 1 (journal s).length
  next : s.nextDeviceMutationSequence = (journal s).length + 1
  commits : (journal s).Pairwise (·.localCommitSequence < ·.localCommitSequence)
  last : ∀ row ∈ journal s, row.localCommitSequence ≤ s.localCommitSequence

theorem Unsequenced.setDelivery (i : String) {f : OutboxRow H → OutboxRow H}
    (hf : ∀ row, (f row).undelivered = row.undelivered) (h : Unsequenced s s') :
    Unsequenced s (s'.setDelivery i f) := by
  refine ⟨Eq.trans ?_ h.rows, h.next, h.commits⟩
  simp only [journal, Store.setDelivery, adjust, map_map]
  apply map_congr_left
  intro row _
  simp only [Function.comp_apply]
  split
  · exact hf row
  · rfl

section

variable [DecidableEq H] [DecidableEq V]

/-- The database with the guards of its callers: a refusal rolls the transaction back. -/
def guarded (J : SerdeJson H) (P : Platform H) (hash : ConflictValue → V) (deviceId : String) :
    Machine (BusinessDatabase H V) (HostCall H V)
      (Except BusinessDatabaseError (Option DomainAssetMutationReceipt)) where
  step db
    | .mutate r op guard =>
      match localMutation db.store r op with
      | .error e => (db, .error e)
      | .ok (s', receipt) =>
        match guard receipt.replayed with
        | .error e => (db, .error e)
        | .ok () => ({ db with store := s' }, .ok (some receipt))
    | .resolve r commitFence =>
      match resolveSyncConflict J hash db r with
      | .error e => (db, .error e)
      | .ok (db', _) =>
        match commitFence with
        | .error e => (db, .error e)
        | .ok () => (db', .ok none)
    | .sync e => ((database J P hash deviceId).next db e, .ok none)

variable {db db' : BusinessDatabase H V} {e : DatabaseEvent H V}

theorem journal_step (h : DatabaseStep J P hash deviceId db e db') :
    Unsequenced db.store db'.store ∨ ∃ row, Sequenced db.store db'.store row := by
  have hsame : Unsequenced db.store db.store := ⟨rfl, rfl, le_rfl⟩
  cases h with
  | same => exact .inl hsame
  | commit => exact .inr ⟨_, map_append, rfl, rfl, rfl, rfl⟩
  | claim writes =>
    refine .inl (chain_inv (fun t t' ht hwrite => ?_) hsame writes)
    obtain ⟨i, f, hf⟩ := hwrite
    exact ht.setDelivery i hf
  | settle writes =>
    refine .inl (chain_inv (fun t t' ht hwrite => ?_) hsame writes)
    cases hwrite with
    | row => exact ht.setDelivery _ fun _ => rfl
    | acknowledge row n =>
      have h := ht.setDelivery (f := fun r => { r with state := .acknowledged n }) row.mutationId
        fun _ => rfl
      exact ⟨h.rows, h.next, h.commits⟩
  | page entries =>
    have h := entries.inv (I := Unsequenced db.store) (K := Unsequenced db.store)
      (fun _ _ _ _ hu => ⟨hu.rows, hu.next, Nat.le_succ_of_le hu.commits⟩)
      (fun m _ u u' hu hwrite => ?_) (fun _ _ hu => ⟨hu.rows, hu.next, hu.commits⟩) hsame
    · exact .inl ⟨h.rows, h.next, h.commits⟩
    · cases hwrite <;> exact ⟨hu.rows, hu.next, hu.commits⟩
  | resolve resolved =>
    cases resolved.write with
    | acceptField | acceptDelete => exact .inl ⟨rfl, rfl, le_rfl⟩
    | keep => exact .inr ⟨_, map_append, rfl, rfl, rfl, rfl⟩

theorem Journaled.step (hs : Journaled db.store)
    (h : DatabaseStep J P hash deviceId db e db') : Journaled db'.store := by
  have hunique := uniqueMutationIds_step db e db' hs.unique h
  rcases journal_step h with
    ⟨hjournal, hnext, hcommits⟩ | ⟨row, hjournal, hseq, hcommit, hnext, hcommits⟩
  · refine ⟨hunique, ?_, ?_, ?_, fun j hj => ?_⟩ <;> rw [hjournal] at *
    · exact hs.sequences
    · exact hnext.trans hs.next
    · exact hs.commits
    · exact (hs.last j hj).trans hcommits
  · refine ⟨hunique, ?_, ?_, ?_, fun j hj => ?_⟩
    · rw [hjournal, map_append, hs.sequences, length_append, range'_append_1.symm]
      simp [hseq, hs.next, add_comm]
    · rw [hjournal, hnext, hs.next, length_append, length_singleton]
    · rw [hjournal, pairwise_append]
      refine ⟨hs.commits, pairwise_singleton _ _, fun j hj k hk => ?_⟩
      rw [mem_singleton.mp hk, hcommit]
      exact Nat.lt_succ_of_le (hs.last j hj)
    · rw [hjournal, mem_append, mem_singleton] at hj
      rcases hj with hj | rfl
      · exact hcommits ▸ Nat.le_succ_of_le (hs.last j hj)
      · exact le_of_eq (hcommit.trans hcommits.symm)

/-- A guarded call is a transaction of the database, or is rolled back. -/
theorem guarded_step (db : BusinessDatabase H V) (call : HostCall H V) :
    ∃ e, DatabaseStep J P hash deviceId db e ((guarded J P hash deviceId).next db call) := by
  cases call with
  | mutate r op guard =>
    refine ⟨.outbox (.commit r op), ?_⟩
    have h : DatabaseStep J P hash deviceId db (.outbox (.commit r op)) _ := database_step db _
    simp only [Machine.next, guarded, database, outbox] at h ⊢
    split
    · exact .same _
    next hlocal =>
    split
    · exact .same _
    · rw [hlocal] at h
      exact h
  | resolve r commitFence =>
    refine ⟨.resolve r, ?_⟩
    have h : DatabaseStep J P hash deviceId db (.resolve r) _ := database_step db _
    simp only [Machine.next, guarded, database] at h ⊢
    split
    · exact .same _
    next hresolve =>
    split
    · exact .same _
    · rw [hresolve] at h
      exact h
  | sync e => exact ⟨e, database_step db e⟩

/-- A row that is committed stays, in its place. -/
theorem mem_journal_run {j : OutboxRow H} (hj : j ∈ journal db.store)
    (calls : List (HostCall H V)) :
    j ∈ journal ((guarded J P hash deviceId).run db calls).store := by
  refine (guarded J P hash deviceId).run_of_step (I := fun db => j ∈ journal db.store)
    (fun db call hj => ?_) calls hj
  obtain ⟨e, hstep⟩ := guarded_step db call
  rcases journal_step hstep with h | ⟨m, h⟩
  · exact h.rows ▸ hj
  · exact h.rows ▸ mem_append_left _ hj

end

section

variable {s₀ s₁ : Store H} {r' : MutationRequest} {op op' : LocalOperation} {row : OutboxRow H}
  {receipt : DomainAssetMutationReceipt}

theorem LocalOperation.eq_of_fields (he : op'.entityId = op.entityId) (hk : op'.kind = op.kind)
    (hf : op'.changedFields = op.changedFields) : op' = op := by
  cases op <;> cases op' <;> cases hk
  case edit.edit.refl a b =>
    obtain ⟨_, _, _, _, _⟩ := a
    obtain ⟨_, _, _, _, _⟩ := b
    cases he
    cases hf
    rfl
  case delete.delete.refl => exact congrArg _ he

theorem mutateDomainAsset_found (hfound : s.outboxRow r.mutationId = some row) :
    mutateDomainAsset s r op =
      if row.differs r op then .error .mutationConflict else .ok (s, row.replay) := by
  simp only [mutateDomainAsset, hfound]
  split
  · rfl
  next hsame => rw [replay_eq hfound hsame]

/-- What is checked before the transaction. -/
def admissible (mutationId deviceId : String) (op : LocalOperation) : Bool :=
  validIdentifier mutationId && validIdentifier deviceId && match op with
    | .edit asset => validateDomainAsset asset
    | .delete entityId => validDomainAssetId entityId

theorem localMutation_eq : localMutation s r op =
    if admissible r.mutationId r.deviceId op then mutateDomainAsset s r op
    else .error .invalidInput := by
  cases op <;> grind [localMutation, admissible]

/-- The answer to a mutation whose row is there. -/
theorem localMutation_again (op' : LocalOperation) (hfound : s.outboxRow r'.mutationId = some row)
    (hid : r'.mutationId = r.mutationId) (h : localMutation s₀ r op = .ok (s₁, receipt))
    (hrow : row.differs r op = false) :
    if r'.deviceId = r.deviceId ∧ op' = op then localMutation s r' op' = .ok (s, row.replay)
    else ∃ e, localMutation s r' op' = .error e := by
  have hdiffers : row.differs r' op' = !decide (r'.deviceId = r.deviceId ∧ op' = op) := by
    simp only [OutboxRow.differs] at hrow ⊢
    have hop : _ → _ → _ → op' = op := LocalOperation.eq_of_fields
    grind
  rw [localMutation_eq] at h ⊢
  rw [mutateDomainAsset_found hfound, hdiffers]
  split at h
  next hvalid =>
    split
    next hsame => simp [hsame, hid, hvalid]
    next hother =>
      split
      · exact ⟨.mutationConflict, by simp [hother]⟩
      · exact ⟨_, rfl⟩
  · cases h

end

/-- From an empty outbox, after any calls of the host: the rows are numbered `1..n` in the order
of their commits; a failed call changes nothing; the id of a mutation that went through is
answered with its receipt, or refused if the device or the content is another. -/
theorem guarded_run [DecidableEq H] [DecidableEq V] (J : SerdeJson H) (P : Platform H)
    (hash : ConflictValue → V) (deviceId : String) (db : BusinessDatabase H V)
    (hempty : db.store.outbox = []) (hfirst : db.store.nextDeviceMutationSequence = 1)
    (calls : List (HostCall H V)) :
    let M := guarded J P hash deviceId
    let s := M.run db calls
    s.store.outbox.map (·.mutation.deviceMutationSequence) = range' 1 s.store.outbox.length ∧
    (s.store.outbox.map OutboxRow.localCommitSequence).Pairwise (· < ·) ∧
    s.store.nextDeviceMutationSequence = s.store.outbox.length + 1 ∧
    (∀ call e, M.out s call = .error e → M.next s call = s) ∧
    ∀ before after r op guard receipt, calls = before ++ .mutate r op guard :: after →
      M.out (M.run db before) (.mutate r op guard) = .ok (some receipt) →
      ∀ r' op' guard', r'.mutationId = r.mutationId →
        M.next s (.mutate r' op' guard') = s ∧
        if r'.deviceId = r.deviceId ∧ op' = op then
          M.out s (.mutate r' op' guard') =
            (guard' true).map fun _ => some { receipt with replayed := true }
        else ∃ e, M.out s (.mutate r' op' guard') = .error e := by
  intro M s
  have horder : Journaled s.store := by
    refine M.run_of_step (I := fun db => Journaled db.store) (fun db call hs => ?_) calls ?_
    · obtain ⟨e, hstep⟩ := guarded_step db call
      exact hs.step hstep
    · constructor <;> simp [journal, Store.UniqueMutationIds, hempty, hfirst]
  have hlength : (journal s.store).length = s.store.outbox.length := length_map _
  refine ⟨?_, ?_, hlength ▸ horder.next, ?_, ?_⟩
  · have h := horder.sequences
    rwa [hlength, journal, map_map] at h
  · have h := horder.commits
    rw [journal, pairwise_map] at h
    exact pairwise_map.mpr h
  · intro call e he
    simp only [M, Machine.out, Machine.next, guarded] at he ⊢
    grind
  · intro before after r op guard receipt hcalls hout r' op' guard' hid
    -- the row of the first call is in the outbox from then on
    obtain ⟨s₁, hlocal, hnext⟩ : ∃ s₁, localMutation (M.run db before).store r op =
        .ok (s₁, receipt) ∧ (M.next (M.run db before) (.mutate r op guard)).store = s₁ := by
      simp only [M, Machine.out, Machine.next, guarded] at hout ⊢
      grind
    obtain ⟨row, hrow, hsame, hreceipt⟩ :=
      (mutateDomainAsset_committed (mutateDomainAsset_of_local hlocal)).1
    obtain ⟨hmem, hkey⟩ := lookup_eq_some hrow
    have hkept : row.undelivered ∈ journal s.store := by
      simp only [s, hcalls, Machine.run_append]
      exact mem_journal_run (hnext ▸ mem_map_of_mem hmem) after
    obtain ⟨row', hrow', heq⟩ := mem_map.mp hkept
    obtain ⟨hm, ht, hn, -⟩ := OutboxRow.mk.inj heq
    have hfound : s.store.outboxRow r'.mutationId = some row' := by
      rw [hid, ← hkey, OutboxRow.mutationId, ← hm]
      exact horder.unique.lookup hrow'
    have hreplay : row'.replay = { receipt with replayed := true } := by
      rw [hreceipt]
      simp only [OutboxRow.replay, OutboxRow.mutationId, hm, ht, hn]
    have hagain := localMutation_again op' hfound hid hlocal
      (by rw [OutboxRow.differs, hm]; exact hsame)
    simp only [M, Machine.out, Machine.next, guarded]
    split at hagain
    next hsame =>
      rw [if_pos hsame, hagain, hreplay]
      simp only
      cases guard' true <;> exact ⟨rfl, rfl⟩
    next hother =>
      obtain ⟨e, he⟩ := hagain
      rw [if_neg hother, he]
      exact ⟨rfl, e, rfl⟩

/-- The second submission of an edit of the sample asset. -/
theorem guarded_run_replayed :
    let M := guarded sampleJson platform id "device"
    let call := HostCall.mutate (sampleRequest "edit" 1) (sampleEdit "mine") fun _ => .ok ()
    M.out (M.run sampleDatabase [call]) call =
      .ok (some ⟨true, "edit", "a.example", 2, 1, 0, 1, 1⟩) := by
  have h := ((guarded_run sampleJson platform id "device" sampleDatabase rfl rfl _).2.2.2.2 [] []
    (sampleRequest "edit" 1) (sampleEdit "mine") (fun _ => .ok ())
    ⟨false, "edit", "a.example", 2, 1, 0, 1, 1⟩ rfl rfl (sampleRequest "edit" 1) (sampleEdit "mine")
    (fun _ => .ok ()) rfl).2
  rwa [if_pos ⟨rfl, rfl⟩] at h

end GoodDealer.Sync
