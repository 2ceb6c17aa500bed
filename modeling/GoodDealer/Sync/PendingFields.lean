/-
# `GoodDealer.Sync.PendingFields` — pending field versions and the outbox

A field version is pending because of a local commit, and the outbox row of that commit is
what clears it.  `Tracked` ties the tables together:

    every pending field version (entity, n) has an outbox row of the entity with the local
    commit sequence n that is not acknowledged

A commit adds row and versions together; an acknowledgement closes one row and clears
exactly its versions; a resolution only clears versions or adds a row.  So an asset whose
rows are all acknowledged has no pending field, and the log is written over it.
-/
import GoodDealer.Sync.Database

namespace GoodDealer.Sync

open Desktop List Symbolic

variable {H V : Type} {J : SerdeJson H} {P : Platform H} {s s' : Store H}

/-! ## The invariant -/

def Acknowledged (row : OutboxRow H) : Prop := ∃ n, row.state = .acknowledged n

instance (row : OutboxRow H) : Decidable (Acknowledged row) :=
  match h : row.state with
  | .acknowledged n => isTrue ⟨n, h⟩
  | .pending _ | .sending .. | .conflicted | .rejected =>
    isFalse fun ⟨_, hn⟩ => by rw [h] at hn; cases hn

/-- Every pending field version has its outbox row. -/
def Tracked (s : Store H) : Prop :=
  ∀ v ∈ s.fieldVersions, v.isPending = true →
    ∃ row ∈ s.outbox, row.mutation.entityId = v.entityId ∧
      row.localCommitSequence = v.localCommitSequence ∧ ¬ Acknowledged row

section

variable {f : OutboxRow H → OutboxRow H} {mutationId : String}

section

variable (h : Tracked s)

include h

/-- More rows, and no more pending versions. -/
theorem Tracked.mono (hrows : ∀ row ∈ s.outbox, row ∈ s'.outbox)
    (hversions : ∀ v ∈ s'.fieldVersions, v.isPending = true → v ∈ s.fieldVersions) :
    Tracked s' := by
  intro v hv hp
  obtain ⟨row, hrow, hfacts⟩ := h v (hversions v hv hp) hp
  exact ⟨row, hrows row hrow, hfacts⟩

theorem tracked_mutated (r : MutationRequest) (op : LocalOperation) : Tracked (s.mutated r op) := by
  intro v hv hp
  rcases mem_foldl_markPending_marked hv with hv | hmarked
  · obtain ⟨row, hrow, hfacts⟩ := h v hv hp
    exact ⟨row, mem_append_left _ hrow, hfacts⟩
  · -- the versions of this commit belong to the row it adds
    refine ⟨_, mem_append_right _ mem_cons_self, hmarked.entityId.symm,
      hmarked.sequence.symm, ?_⟩
    rintro ⟨n, hn⟩
    cases hn

/-- A row of the outbox gets another state, but is not acknowledged. -/
theorem tracked_setDelivery (hf : ∀ r, (f r).undelivered = r.undelivered)
    (hack : ∀ r n, (f r).state ≠ .acknowledged n) : Tracked (s.setDelivery mutationId f) := by
  intro v hv hp
  obtain ⟨row, hrow, hentity, hcommit, hopen⟩ := h v hv hp
  by_cases hid : row.mutationId = mutationId
  · obtain ⟨hmutation, -, hsequence, -⟩ := OutboxRow.mk.inj (hf row)
    refine ⟨f row, Keyed.mem_adjust.mpr ⟨row, hrow, (if_pos hid).symm⟩, ?_, ?_, ?_⟩
    · rw [hmutation]
      exact hentity
    · exact hsequence.trans hcommit
    · rintro ⟨n, hn⟩
      exact hack row n hn
  · exact ⟨row, Keyed.mem_adjust.mpr ⟨row, hrow, (if_neg hid).symm⟩, hentity, hcommit, hopen⟩

theorem tracked_claimWrite (hwrite : ClaimWrite s s') : Tracked s' := by
  cases hwrite with
  | row mutationId f content unacknowledged => exact tracked_setDelivery h content unacknowledged

theorem tracked_settleWrite (hs : s.UniqueMutationIds)
    (hwrite : SettleWrite s s') : Tracked s' := by
  cases hwrite with
  | row mutationId state unacknowledged =>
    exact tracked_setDelivery h (fun _ => rfl) (fun _ => unacknowledged)
  | acknowledge row serverRevision found sending =>
    intro v' hv' hp
    obtain ⟨v, hv, rfl⟩ := mem_map.mp hv'
    unfold cleanFields at hp ⊢
    split at hp
    · cases hp
    next hother =>
    rw [if_neg hother]
    obtain ⟨row', hrow', hentity, hsequence, hopen⟩ := h v hv hp
    refine ⟨row', Keyed.mem_adjust.mpr ⟨row', hrow', (if_neg ?_).symm⟩, hentity, hsequence, hopen⟩
    -- the row of this version is another one, since its version was not cleared
    intro hid
    have hlookup := hs.lookup hrow'
    rw [hid, found] at hlookup
    cases hlookup
    exact hother ⟨hentity.symm, hsequence.symm⟩

theorem tracked_page [DecidableEq H] {page : MutationPage H} {t : Store H}
    (hpage : PageEntries J P s page t) : Tracked t := by
  have hversions : ∀ v ∈ t.fieldVersions, v.isPending = true → v ∈ s.fieldVersions := by
    let I (u : Store H) : Prop := ∀ v ∈ u.fieldVersions, v.isPending = true → v ∈ s.fieldVersions
    refine hpage.inv (I := I) (K := I) (fun m _ u _ hu => hu) ?_ (fun u row hu => hu)
      (fun v hv _ => hv)
    intro m _ u u' hu hwrite v hv hp
    exact hu v ((hwrite.pendingVersion hp).mp hv) hp
  refine h.mono ?_ hversions
  rw [(applyEntries_ok hpage.entries).outbox]
  exact fun row hrow => hrow

theorem tracked_resolutionWrite {c : SyncConflict H} {r : ResolutionRequest V}
    (hwrite : ResolutionWrite c r s s') : Tracked s' := by
  cases hwrite with
  | acceptField | acceptDelete => exact h.mono (fun _ hrow => hrow) fun v => mem_acceptedVersions
  | keep => exact h.mono (fun _ hrow => mem_append_left _ hrow) fun v hv _ => hv

end

/-- Every transaction keeps the tables tied together. -/
theorem tracked_step [DecidableEq H] [DecidableEq V] {hash : ConflictValue → V} {deviceId : String}
    (db : BusinessDatabase H V) (e : DatabaseEvent H V) (db' : BusinessDatabase H V)
    (hdb : db.store.UniqueMutationIds ∧ Tracked db.store)
    (hstep : DatabaseStep J P hash deviceId db e db') :
    db'.store.UniqueMutationIds ∧ Tracked db'.store := by
  refine ⟨uniqueMutationIds_step db e db' hdb.1 hstep, ?_⟩
  cases hstep with
  | same => exact hdb.2
  | commit => exact tracked_mutated hdb.2 _ _
  | claim writes => exact chain_inv (I := Tracked) (fun _ _ => tracked_claimWrite) hdb.2 writes
  | settle writes =>
    exact (chain_inv (I := fun t : Store H => t.UniqueMutationIds ∧ Tracked t)
      (fun t t' ht hwrite => ⟨(DeliveryUpdate.settleWrite hwrite).uniqueMutationIds ht.1,
        tracked_settleWrite ht.2 ht.1 hwrite⟩) hdb writes).2
  | page entries =>
    have h := tracked_page hdb.2 entries
    exact h
  | resolve resolved =>
    have h := tracked_resolutionWrite hdb.2 resolved.write
    exact h

end

/-! ## What the log does to an asset without pending fields -/

/-- The entry is written: no candidate, the fields of an upsert are those of the entry, and a
delete removes the asset. -/
structure Written (s : Store H) (m : SyncMutation) (s' : Store H) : Prop where
  conflicts : s'.conflicts = s.conflicts
  upsert : m.mutation.operationKind = .upsert → ∃ a, s'.portfolioRow m.mutation.entityId = some a ∧
    a.row = DomainAssetProjectionRow.applyFields
      (((s.portfolioRow m.mutation.entityId).map PortfolioDomainAsset.row).getD
        ⟨m.mutation.entityId, none, none, [], none⟩) m.mutation.changedFields
  delete : m.mutation.operationKind = .delete → ∃ a,
    s'.domainAsset m.mutation.entityId = some a ∧ a.deletedAt.isSome = true

section

variable {m : SyncMutation}

/-- Fields of an asset without pending fields are written one after another. -/
theorem applyFields_clean : ∀ {fs : List ChangedField} {s : Store H} {a : PortfolioDomainAsset},
    ¬ s.EntityPending m.mutation.entityId → s.portfolioRow m.mutation.entityId = some a →
    fs.foldlM (applyField J P m) s = .ok s' →
    s'.conflicts = s.conflicts ∧ ∃ a', s'.portfolioRow m.mutation.entityId = some a' ∧
      a'.row = a.row.applyFields fs := by
  intro fs
  induction fs with
  | nil =>
    intro s a _ ha h
    cases h
    exact ⟨rfl, a, ha, rfl⟩
  | cons f fs ih =>
    intro s a hclean ha h
    rw [foldlM_cons] at h
    have hfield : ¬ s.FieldPending m.mutation.entityId (.sync f.fieldPath) :=
      fun hp => hclean (Store.entityPending_iff.mpr ⟨_, hp⟩)
    cases hf : applyField J P m s f with
    | error e =>
      rw [hf] at h
      cases h
    | ok t =>
      rw [hf] at h
      rw [applyField, if_neg hfield] at hf
      split at hf
      · cases hf
      · cases hf
        have hrow := portfolioRow_writeField s m.mutation.entityId m.serverRevision f
        rw [ha, Option.map_some] at hrow
        refine ih ?_ hrow h
        intro hp
        obtain ⟨path, hpath⟩ := Store.entityPending_iff.mp hp
        exact hclean (Store.entityPending_iff.mpr ⟨path, fieldPending_writeField hpath⟩)

theorem written_of_clean {conflicted : Bool} (hclean : ¬ s.EntityPending m.mutation.entityId)
    (h : applySyncMutationProjection J P s m = .ok (s', conflicted)) :
    conflicted = false ∧ Written s m s' := by
  unfold applySyncMutationProjection at h
  split at h
  · cases h
  split at h
  · cases h
  split at h
  · cases h
  simp only at h
  split at h
  next hdelete =>
    unfold applyDelete at h
    simp only at h
    split at h
    next hpending => exact absurd hpending hclean
    · cases h
      refine ⟨rfl, rfl, fun hkind => ?_, fun _ => ?_⟩
      · rw [hdelete] at hkind
        cases hkind
      · exact ⟨_, lookup_archived (s.stamp m) m, rfl⟩
  next hupsert =>
  unfold applyUpsert at h
  split at h
  · cases h
  split at h
  · cases h
  next t hfields =>
  cases h
  have hfield : ∀ path, ¬ s.FieldPending m.mutation.entityId path :=
    fun path hp => hclean (Store.entityPending_iff.mpr ⟨path, hp⟩)
  obtain ⟨hconflicts, a, ha, hrow⟩ :=
    applyFields_clean (s := (s.stamp m).ensureAsset m.mutation.entityId) hclean
      (portfolioRow_ensureAsset _ _) hfields
  refine ⟨?_, hconflicts, fun _ => ⟨a, ha, ?_⟩, fun hkind => ?_⟩
  · rw [any_eq_false]
    intro f _ hp
    exact hfield (.sync f.fieldPath) (of_decide_eq_true hp)
  · rw [hrow]
    show (Option.getD (s.portfolioRow _) _).row.applyFields _ = _
    cases s.portfolioRow m.mutation.entityId <;> rfl
  · rw [hupsert] at hkind
    cases hkind

end

/-! ## Every reachable state -/

/-- Every mutation of the asset is acknowledged, and no conflict of it is open. -/
def Quiet (s : Store H) (entityId : String) : Prop :=
  (∀ row ∈ s.outbox, row.mutation.entityId = entityId → Acknowledged row) ∧
    ∀ c ∈ s.conflicts, c.entityId ≠ entityId

instance (s : Store H) (entityId : String) : Decidable (Quiet s entityId) :=
  inferInstanceAs (Decidable ((∀ row ∈ s.outbox, _ → _) ∧ ∀ c ∈ s.conflicts, _))

/-- In every state a run reaches, an asset that is quiet has no pending or conflicted field
version, and each entry of a later page is written to it. -/
theorem clean_of_quiet [DecidableEq H] [DecidableEq V] (J : SerdeJson H) (P : Platform H)
    (hash : ConflictValue → V) (deviceId : String) (db : BusinessDatabase H V)
    (hunique : db.store.UniqueMutationIds)
    (hstart : ∀ v ∈ db.store.fieldVersions, v.isPending = false)
    (es : List (DatabaseEvent H V)) (entityId : String)
    (hquiet : Quiet ((database J P hash deviceId).run db es).store entityId) :
    (∀ v ∈ ((database J P hash deviceId).run db es).store.fieldVersions,
      v.entityId = entityId → v.isPending = false) ∧
    ∀ (before : List SyncMutation) (t : Store H), before.foldlM (applyEntry J P)
        ((database J P hash deviceId).run db es).store = .ok t →
      ∀ m t' conflicted, m.mutation.entityId = entityId →
        applySyncMutationProjection J P t m = .ok (t', conflicted) →
        conflicted = false ∧ Written t m t' := by
  have htracked : Tracked ((database J P hash deviceId).run db es).store := by
    refine ((database J P hash deviceId).run_of_step
      (I := fun db => db.store.UniqueMutationIds ∧ Tracked db.store)
      (fun db e hdb => tracked_step db e _ hdb (database_step db e)) es ⟨hunique, ?_⟩).2
    intro v hv hp
    rw [hstart v hv] at hp
    cases hp
  have hclean : ∀ v ∈ ((database J P hash deviceId).run db es).store.fieldVersions,
      v.entityId = entityId → v.isPending = false := by
    intro v hv hentity
    by_contra hp
    obtain ⟨row, hrow, hsame, _, hopen⟩ := htracked v hv (Bool.eq_true_of_not_eq_false hp)
    exact hopen (hquiet.1 row hrow (hsame.trans hentity))
  refine ⟨hclean, fun before t hbefore m t' conflicted hm h => written_of_clean ?_ h⟩
  -- the entries in front of `m` make no field pending
  intro hpending
  obtain ⟨path, hpath⟩ := Store.entityPending_iff.mp hpending
  obtain ⟨v, hv, hk, hp⟩ := (applyEntries_ok hbefore).pending _ _ hpath
  rw [hclean v hv ((Prod.mk.inj hk).1.trans hm)] at hp
  cases hp

/-- An edit that is acknowledged leaves the asset clean. -/
theorem clean_of_quiet_acknowledged :
    Quiet (sampleRun
      [sampleCommit "edit" 1 "mine", sampleClaim 2, sampleAcknowledge 1]).store "a.example" ∧
    ∀ v ∈ (sampleRun
      [sampleCommit "edit" 1 "mine", sampleClaim 2, sampleAcknowledge 1]).store.fieldVersions,
      v.entityId = "a.example" → v.isPending = false :=
  ⟨by decide, (clean_of_quiet sampleJson platform id "device" sampleDatabase
    nodup_nil (by decide) _ "a.example" (by decide)).1⟩

end GoodDealer.Sync
