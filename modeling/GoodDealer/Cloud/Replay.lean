/-
# `GoodDealer.Cloud.Replay` — the live table against the replayed log

Two interpreters of one log.  `applyAcceptedMutations` keeps a table up to date,
one `UPDATE` for each changed field; `replayDomainAssets` folds the log over the
snapshot of a checkpoint.  A delete has no changed field: the table keeps the
row, the fold removes it.

    applyAcceptedMutations_projection   the table follows `assignEntries`
    replayFrom_eq_foldlM                the loop is a fold of `replayEntry`
    agrees_iff_no_delete                in a reachable state the two agree iff the
                                        range is retained and holds no delete
-/
import GoodDealer.Cloud.Retention

namespace GoodDealer.Cloud

open List Keyed

open DomainAssetProjectionRow (applyFields)

/-! ## `replayDomainAssets` -/

/-- The loop of `replayDomainAssets`. -/
def replayFrom (workspaceId : String) :
    Nat → List DomainAssetProjectionRow → List SyncMutation → Option (List DomainAssetProjectionRow)
  | _, rows, [] => some rows
  | expectedRevision, rows, m :: ms =>
    if m.serverRevision ≠ expectedRevision then none
    else if m.workspaceId ≠ workspaceId then none
    else
      match Keyed.lookup DomainAssetProjectionRow.entityId m.mutation.entityId rows with
      | none => none
      | some _ =>
        match m.mutation.operationKind with
        | .delete =>
          replayFrom workspaceId (expectedRevision + 1) (removeRow m.mutation.entityId rows) ms
        | .upsert =>
          replayFrom workspaceId (expectedRevision + 1)
            (assignRow m.mutation.entityId m.mutation.changedFields rows) ms

/-- `replayDomainAssets`; `none` is the thrown error. -/
def replayDomainAssets (snapshot : List DomainAssetProjectionRow) (mutations : List SyncMutation)
    (fromServerRevisionExclusive throughServerRevisionInclusive : Nat) (workspaceId : String) :
    Option (List DomainAssetProjectionRow) :=
  (parseProjection snapshot).bind fun snapshot =>
    if throughServerRevisionInclusive < fromServerRevisionExclusive then none
    else if ¬ ∀ m ∈ mutations, m.Valid then none
    else if mutations.length ≠
      throughServerRevisionInclusive - fromServerRevisionExclusive then none
    else
      (replayFrom workspaceId (fromServerRevisionExclusive + 1) snapshot mutations).bind fun rows =>
        parseProjection (sortByKey DomainAssetProjectionRow.entityId rows)

/-! ## The two interpretations of one entry -/

/-- An entry as the fold reads it: its entity must have a row. -/
def replayEntry (rows : List DomainAssetProjectionRow) (m : SyncMutation) :
    Option (List DomainAssetProjectionRow) :=
  if HasRow rows m.mutation.entityId then
    match m.mutation.operationKind with
    | .delete => some (removeRow m.mutation.entityId rows)
    | .upsert => some (assignRow m.mutation.entityId m.mutation.changedFields rows)
  else none

/-- Entries as the table reads them: fields are assigned, rows stay. -/
def assignEntries (rows : List DomainAssetProjectionRow) (ms : List SyncMutation) :
    List DomainAssetProjectionRow :=
  ms.foldl (fun rows m => assignRow m.mutation.entityId m.mutation.changedFields rows) rows

section

variable {rows rows' : List DomainAssetProjectionRow} {ms : List SyncMutation} {m : SyncMutation}
  {e : String}

@[simp] theorem assignEntries_nil (rows : List DomainAssetProjectionRow) :
    assignEntries rows [] = rows := rfl

@[simp] theorem assignEntries_cons (rows : List DomainAssetProjectionRow) (m : SyncMutation)
    (ms : List SyncMutation) : assignEntries rows (m :: ms) =
      assignEntries (assignRow m.mutation.entityId m.mutation.changedFields rows) ms := rfl

theorem hasRow_assignEntries :
    HasRow (assignEntries rows ms) e ↔ HasRow rows e := by
  induction ms generalizing rows with
  | nil => exact Iff.rfl
  | cons m ms ih =>
    rw [assignEntries_cons, ih]
    exact hasRow_assignRow

theorem validProjection_assignEntries (h : ValidProjection rows) :
    ValidProjection (assignEntries rows ms) := by
  induction ms generalizing rows with
  | nil => exact h
  | cons m ms ih =>
    have hfields : ∀ f ∈ m.mutation.changedFields, f.valid = true :=
      all_eq_true.mp m.mutation.valid.fields
    exact ih (validProjection_assignRow h hfields)

theorem replayEntry_eq_some (h : replayEntry rows m = some rows') :
    HasRow rows m.mutation.entityId ∧
      ((m.mutation.operationKind = .delete ∧ rows' = removeRow m.mutation.entityId rows) ∨
        (m.mutation.operationKind = .upsert ∧
          rows' = assignRow m.mutation.entityId m.mutation.changedFields rows)) := by
  unfold replayEntry at h
  split at h
  next hrow =>
    cases hk : m.mutation.operationKind with
    | delete => rw [hk] at h; cases h; exact ⟨hrow, .inl ⟨rfl, rfl⟩⟩
    | upsert => rw [hk] at h; cases h; exact ⟨hrow, .inr ⟨rfl, rfl⟩⟩
  next => cases h

theorem replayEntry_upsert (hrow : HasRow rows m.mutation.entityId)
    (hk : m.mutation.operationKind ≠ .delete) : replayEntry rows m =
      some (assignRow m.mutation.entityId m.mutation.changedFields rows) := by
  rw [replayEntry, if_pos hrow]
  cases h : m.mutation.operationKind with
  | delete => exact absurd h hk
  | upsert => rfl

/-- On a dense range of the workspace the loop is a fold of `replayEntry`. -/
theorem replayFrom_eq_foldlM {workspaceId : String} :
    ∀ {ms : List SyncMutation} {a : Nat} {rows : List DomainAssetProjectionRow},
      DenseFrom SyncMutation.serverRevision a ms → (∀ m ∈ ms, m.workspaceId = workspaceId) →
      replayFrom workspaceId (a + 1) rows ms = ms.foldlM replayEntry rows
  | [], _, _, _, _ => rfl
  | m :: ms, a, rows, hd, hw => by
    have hws : ∀ x ∈ ms, x.workspaceId = workspaceId := fun x hx =>
      hw x (mem_cons_of_mem _ hx)
    rw [replayFrom, if_neg (not_not_intro hd.1), if_neg (not_not_intro (hw m mem_cons_self)),
      foldlM_cons, replayEntry]
    simp only [hasRow_iff_lookup]
    cases Keyed.lookup DomainAssetProjectionRow.entityId m.mutation.entityId rows with
    | none => rfl
    | some r =>
      cases m.mutation.operationKind with
      | delete | upsert => exact replayFrom_eq_foldlM hd.2 hws

/-- Without deletes the fold assigns. -/
theorem foldlM_replayEntry_of_upserts : ∀ {ms : List SyncMutation}
    {rows : List DomainAssetProjectionRow}, (∀ m ∈ ms, HasRow rows m.mutation.entityId) →
    (∀ m ∈ ms, m.mutation.operationKind ≠ .delete) →
    ms.foldlM replayEntry rows = some (assignEntries rows ms)
  | [], _, _, _ => rfl
  | m :: ms, rows, hrow, hk => by
    have hstep := replayEntry_upsert (hrow m mem_cons_self) (hk m mem_cons_self)
    rw [foldlM_cons, hstep]
    refine foldlM_replayEntry_of_upserts (fun x hx => ?_) (fun x hx => ?_)
    · exact hasRow_assignRow.mpr (hrow x (mem_cons_of_mem _ hx))
    · exact hk x (mem_cons_of_mem _ hx)

/-- A row that survives the fold was there before, and no entry deleted it. -/
theorem foldlM_replayEntry_survives : ∀ {ms : List SyncMutation}
    {rows rows' : List DomainAssetProjectionRow}, ms.foldlM replayEntry rows = some rows' →
    HasRow rows' e →
    HasRow rows e ∧ ∀ m ∈ ms, m.mutation.operationKind = .delete → m.mutation.entityId ≠ e
  | [], _, _, h, he => by
    cases h
    refine ⟨he, fun m hm => ?_⟩
    cases hm
  | m :: ms, rows, rows', h, he => by
    rw [foldlM_cons] at h
    obtain ⟨mid, hmid, hrest⟩ := Option.bind_eq_some_iff.mp h
    obtain ⟨hmrow, hms⟩ := foldlM_replayEntry_survives hrest he
    obtain ⟨_, ⟨hk, rfl⟩ | ⟨hk, rfl⟩⟩ := replayEntry_eq_some hmid
    · obtain ⟨hrow, hne⟩ := hasRow_removeRow.mp hmrow
      refine ⟨hrow, fun x hx hdel => ?_⟩
      cases mem_cons.mp hx with
      | inl hxm => rw [hxm]; exact hne.symm
      | inr hxs => exact hms x hxs hdel
    · refine ⟨hasRow_assignRow.mp hmrow, fun x hx hdel => ?_⟩
      cases mem_cons.mp hx with
      | inl hxm => rw [hxm, hk] at hdel; cases hdel
      | inr hxs => exact hms x hxs hdel

end

/-! ## The live table follows the assignments -/

namespace DomainAssetTable

variable {t t' : DomainAssetTable} {e : String} {revision : Nat}

theorem assign_projection {f : ChangedField} (h : t.assign e revision f = some t') :
    t'.projection =
      adjust DomainAssetProjectionRow.entityId e (·.applyField f) t.projection := by
  unfold assign at h
  split at h
  next => cases h
  next =>
    cases h
    rw [projection, projection]
    exact map_adjust (g := LockedDomainAsset.row) (fun _ => rfl) (fun _ => rfl) e t.rows

theorem assignFields_projection {fs : List ChangedField}
    (h : t.assignFields e revision fs = some t') : t'.projection = assignRow e fs t.projection := by
  induction fs generalizing t with
  | nil =>
    cases h
    exact (assignRow_nil e _).symm
  | cons f fs ih =>
    obtain ⟨mid, hmid, hrest⟩ := Option.bind_eq_some_iff.mp h
    rw [ih hrest, assign_projection hmid, assignRow, assignRow, adjust_adjust]
    · rfl
    · exact fun r => r.applyField_entityId f

/-- The table follows `assignEntries`; a delete leaves it alone. -/
theorem applyAcceptedMutations_projection {ms : List SyncMutation}
    (h : t.applyAcceptedMutations ms = some t') :
    t'.projection = assignEntries t.projection ms := by
  induction ms generalizing t with
  | nil =>
    cases h
    rfl
  | cons m ms ih =>
    obtain ⟨mid, hmid, hrest⟩ := Option.bind_eq_some_iff.mp h
    rw [ih hrest, assignFields_projection hmid, assignEntries_cons]

theorem ascending_projection (t : DomainAssetTable) :
    Ascending DomainAssetProjectionRow.entityId t.projection :=
  ascending_iff_keys.mpr (by
    have h := ascending_iff_keys.mp t.ascending
    rw [projection, List.map_map]
    exact h)

theorem captureSnapshot_eq (h : ValidProjection t.projection) :
    t.captureSnapshot = some t.projection := by
  rw [captureSnapshot, sortByKey_eq_self h.ascending]
  exact parseProjection_of_valid h

theorem find_isSome_iff : (t.find e).isSome = true ↔ HasRow t.projection e := by
  rw [find, lookup_isSome, HasRow, projection, List.map_map]
  exact Iff.rfl

end DomainAssetTable

/-! ## What every reachable state keeps -/

variable {H : Type} {P : Platform H} {ttl : LeaseTtl} {w w' : Workspace H}
  {c : PersistentCheckpoint H}

/-- The live rows are the snapshot of each checkpoint whose range is retained,
with the range assigned to it; the range names entities of the snapshot only. -/
structure ReplayInv (w : Workspace H) : Prop where
  valid : ValidProjection w.assets.projection
  live : ∀ c ∈ w.checkpoints, w.watermark ≤ c.throughServerRevision →
    w.assets.projection =
      assignEntries c.snapshot (w.log.readRange c.throughServerRevision w.head)
  known : ∀ c ∈ w.checkpoints, w.watermark ≤ c.throughServerRevision →
    ∀ m ∈ w.log.readRange c.throughServerRevision w.head, HasRow c.snapshot m.mutation.entityId

namespace ReplayInv

/-- Steps that write neither table nor log, and keep snapshots. -/
theorem frame (h : ReplayInv w) (hassets : w'.assets = w.assets) (hlog : w'.log = w.log)
    (hcheckpoints : ∀ c ∈ w'.checkpoints, ∃ c₀ ∈ w.checkpoints, c.snapshot = c₀.snapshot ∧
      c.throughServerRevision = c₀.throughServerRevision) : ReplayInv w' := by
  have hhead : w'.head = w.head := by rw [Workspace.head, hlog, Workspace.head]
  have hmark : w'.watermark = w.watermark := by rw [Workspace.watermark, hlog, Workspace.watermark]
  refine ⟨hassets ▸ h.valid, fun c hc hle => ?_, fun c hc hle => ?_⟩
  · obtain ⟨c₀, hc₀, hsnap, hthrough⟩ := hcheckpoints c hc
    rw [hassets, hlog, hhead, hsnap, hthrough]
    exact h.live c₀ hc₀ (by rw [← hthrough, ← hmark]; exact hle)
  · obtain ⟨c₀, hc₀, hsnap, hthrough⟩ := hcheckpoints c hc
    rw [hlog, hhead, hsnap, hthrough]
    exact h.known c₀ hc₀ (by rw [← hthrough, ← hmark]; exact hle)

theorem ingest [DecidableEq H] {fresh : List SubmittedSyncMutation} (hsound : CheckpointsSound w)
    (h : ReplayInv w) (hc : IngestCommit P w w' fresh) : ReplayInv w' := by
  have hcheckpoints : w'.checkpoints = w.checkpoints := by rw [hc.rest]
  have hlive := DomainAssetTable.applyAcceptedMutations_projection hc.assets
  obtain ⟨_, _, _, hcomp, _, _⟩ := MutationLog.append_eq_some hc.log
  have hmark : w'.watermark = w.watermark := hcomp
  -- the new range is the old one followed by the batch
  have hrange : ∀ c ∈ w.checkpoints, w'.log.readRange c.throughServerRevision w'.head =
      w.log.readRange c.throughServerRevision w.head ++
        MutationLog.number w.log.workspaceId w.log.serverRevision fresh := fun c hmem =>
    MutationLog.append_readRange_head hc.log (hsound.known c hmem)
  refine ⟨hlive ▸ validProjection_assignEntries h.valid, ?_, ?_⟩
  · intro c hmem hle
    rw [hcheckpoints] at hmem
    rw [hlive, hrange c hmem, h.live c hmem (hmark ▸ hle)]
    exact (foldl_append ..).symm
  · intro c hmem hle m hm
    rw [hcheckpoints] at hmem
    rw [hrange c hmem] at hm
    cases mem_append.mp hm with
    | inl hold => exact h.known c hmem (hmark ▸ hle) m hold
    | inr hnew =>
      have hrow := DomainAssetTable.find_isSome_iff.mp
        (hc.known _ (MutationLog.mem_number hnew).2.2)
      rw [h.live c hmem (hmark ▸ hle)] at hrow
      exact hasRow_assignEntries.mp hrow

theorem build (h : ReplayInv w)
    (hthrough : c.throughServerRevision = w.log.serverRevision)
    (hsnapshot : w.assets.captureSnapshot = some c.snapshot) :
    ReplayInv { w with checkpoints := w.checkpoints ++ [c] } := by
  -- nothing is after the new checkpoint yet
  have hempty : w.log.readRange c.throughServerRevision w.head = [] := by
    rw [hthrough]
    exact w.log.readRange_self _
  refine ⟨h.valid, fun x hx hle => ?_, fun x hx hle m hm => ?_⟩
  · cases mem_append.mp hx with
    | inl hx => exact h.live x hx hle
    | inr hx =>
      rw [mem_singleton.mp hx]
      show _ = assignEntries c.snapshot (w.log.readRange c.throughServerRevision w.head)
      rw [hempty]
      rw [DomainAssetTable.captureSnapshot, sortByKey_eq_self w.assets.ascending_projection]
        at hsnapshot
      exact (parseProjection_eq_some.mp hsnapshot).2
  · cases mem_append.mp hx with
    | inl hx => exact h.known x hx hle m hm
    | inr hx =>
      rw [mem_singleton.mp hx] at hm
      replace hm : m ∈ w.log.readRange c.throughServerRevision w.head := hm
      rw [hempty] at hm
      cases hm

theorem compact {requested : Nat} {log : MutationLog} {readers : List (ReaderCursor H)}
    {pins : List (CheckpointPin H)} (h : ReplayInv w)
    (hlog : w.log.compactPrefix requested = some log) :
    ReplayInv { w with log := log, readers := readers, pins := pins } := by
  obtain ⟨hbounds, _, _, hmark, hhead, _⟩ := MutationLog.compactPrefix_eq_some hlog
  have hold : ∀ c : PersistentCheckpoint H, log.compactedThroughServerRevision ≤
      c.throughServerRevision → w.watermark ≤ c.throughServerRevision := fun c hle =>
    le_trans (le_of_lt hbounds.1) (hmark ▸ hle)
  have hrange : ∀ c : PersistentCheckpoint H, log.compactedThroughServerRevision ≤
      c.throughServerRevision → log.readRange c.throughServerRevision log.serverRevision =
        w.log.readRange c.throughServerRevision w.head := by
    intro c hle
    rw [MutationLog.compactPrefix_readRange hlog (hmark ▸ hle), hhead]
    rfl
  refine ⟨h.valid, fun c hc hle => ?_, fun c hc hle m hm => ?_⟩
  · exact (h.live c hc (hold c hle)).trans (congrArg _ (hrange c hle).symm)
  · exact h.known c hc (hold c hle) m (hrange c hle ▸ hm)

theorem step [DecidableEq H] {e : CloudEvent H} (hsound : CheckpointsSound w) (h : ReplayInv w)
    (hs : CloudStep P ttl w e w') : ReplayInv w' := by
  have hsame : ∀ c ∈ w.checkpoints, ∃ c₀ ∈ w.checkpoints, c.snapshot = c₀.snapshot ∧
      c.throughServerRevision = c₀.throughServerRevision := fun c hc => ⟨c, hc, rfl, rfl⟩
  have hstatus : ∀ (x : Workspace H) (id : String) (s : PersistentCheckpointStatus),
      ∀ c ∈ (x.setStatus id s).checkpoints, ∃ c₀ ∈ x.checkpoints, c.snapshot = c₀.snapshot ∧
        c.throughServerRevision = c₀.throughServerRevision := by
    intro x id s c hc
    obtain ⟨c₀, hc₀, rfl⟩ := mem_setStatus.mp hc
    refine ⟨c₀, hc₀, ?_⟩
    split <;> exact ⟨rfl, rfl⟩
  cases hs with
  | ingest _ _ hc => exact h.ingest hsound hc
  | build _ hthrough hsnapshot _ => exact h.build hthrough hsnapshot
  | promote => exact h.frame rfl rfl (hstatus w _ _)
  | supersede => exact h.frame rfl rfl (hstatus w.releaseExpired _ _)
  | compact hlog _ _ _ _ => exact h.compact hlog
  | cursor hs | pull hs => cases hs <;> exact h.frame rfl rfl hsame
  | _ => exact h.frame rfl rfl hsame

end ReplayInv

theorem replayInv_initial (h : w.Initial) : ReplayInv w := by
  refine ⟨⟨?_, w.assets.ascending_projection⟩, fun c hc => ?_, fun c hc => ?_⟩
  · intro r hr
    obtain ⟨a, ha, rfl⟩ := mem_map.mp hr
    exact h.rows a ha
  · rw [h.checkpoints] at hc
    cases hc
  · rw [h.checkpoints] at hc
    cases hc

theorem replayInv_run [DecidableEq H] {w₀ : Workspace H} (h₀ : w₀.Initial)
    (es : List (CloudEvent H)) :
    CheckpointsSound ((service P ttl).run w₀ es) ∧ ReplayInv ((service P ttl).run w₀ es) := by
  have hall := (service P ttl).run_of_step
    (I := fun w => ReaderInv P w ∧ CheckpointsSound w ∧ ReplayInv w)
    (fun w e hw => by
      have hs : CloudStep P ttl w e _ := service_step hw.1 e
      exact ⟨readerInv_step hw.1 hs, checkpointsSound_step hw.2.1 hs, hw.2.2.step hw.2.1 hs⟩)
    es ⟨readerInv_initial h₀, checkpointsSound_initial h₀, replayInv_initial h₀⟩
  exact hall.2

/-! ## Agreement -/

/-- `replayDomainAssets` from a checkpoint to the head. -/
def Workspace.replay (w : Workspace H) (c : PersistentCheckpoint H) :
    Option (List DomainAssetProjectionRow) :=
  replayDomainAssets c.snapshot (w.log.readRange c.throughServerRevision w.head)
    c.throughServerRevision w.head w.log.workspaceId

/-- The live table reads as the replay from the checkpoint. -/
def Agrees (w : Workspace H) (c : PersistentCheckpoint H) : Prop :=
  (w.replay c).isSome = true ∧ w.assets.captureSnapshot = w.replay c

instance (w : Workspace H) (c : PersistentCheckpoint H) : Decidable (Agrees w c) :=
  inferInstanceAs (Decidable (_ ∧ _))

/-- On a retained range `replayDomainAssets` is the fold and the final parse. -/
theorem replay_eq (hsound : CheckpointsSound w)
    (hc : c ∈ w.checkpoints) (hle : w.watermark ≤ c.throughServerRevision) :
    w.replay c = ((w.log.readRange c.throughServerRevision w.head).foldlM replayEntry
      c.snapshot).bind fun rows =>
        parseProjection (sortByKey DomainAssetProjectionRow.entityId rows) := by
  have hknown : c.throughServerRevision ≤ w.head := hsound.known c hc
  have hvalid : ∀ m ∈ w.log.readRange c.throughServerRevision w.head, m.Valid := fun m hm =>
    w.log.valid m (MutationLog.mem_readRange.mp hm).1
  have htenant : ∀ m ∈ w.log.readRange c.throughServerRevision w.head,
      m.workspaceId = w.log.workspaceId := fun m hm =>
    w.log.tenant m (MutationLog.mem_readRange.mp hm).1
  have hdense := MutationLog.readRange_dense hle hknown le_rfl
  rw [Workspace.replay, replayDomainAssets, parseProjection_of_valid (hsound.snapshot c hc),
    Option.bind_some, if_neg (not_lt.mpr hknown), if_neg (not_not_intro hvalid),
    if_neg (not_not_intro (MutationLog.readRange_length hle hknown le_rfl)),
    replayFrom_eq_foldlM hdense htenant]

/-- A range that compaction has cut short is refused. -/
theorem replay_eq_none (hlt : c.throughServerRevision < w.watermark) :
    w.replay c = none := by
  have hall : w.log.readRange c.throughServerRevision w.head = w.log.entries := by
    refine window_eq_self fun m hm => ?_
    have hb := denseFrom_bounds w.log.dense m hm
    rw [w.log.head] at hb
    exact ⟨lt_trans hlt hb.1, hb.2⟩
  have hlen : w.log.entries.length ≠ w.head - c.throughServerRevision := by
    have := w.log.head
    simp only [Workspace.watermark, Workspace.head] at hlt ⊢
    omega
  rw [Workspace.replay, replayDomainAssets, hall]
  cases parseProjection c.snapshot with
  | none => rfl
  | some rows =>
    rw [Option.bind_some, if_pos hlen, ite_self, ite_self]

/-- In every reachable state the live table agrees with the replay from a
checkpoint exactly if the log still holds the range and no entry of it is a delete. -/
theorem agrees_iff_no_delete [DecidableEq H] {w₀ : Workspace H} (h₀ : w₀.Initial)
    (es : List (CloudEvent H)) {c : PersistentCheckpoint H}
    (hc : c ∈ ((service P ttl).run w₀ es).checkpoints) :
    Agrees ((service P ttl).run w₀ es) c ↔
      ((service P ttl).run w₀ es).watermark ≤ c.throughServerRevision ∧
      ∀ m ∈ ((service P ttl).run w₀ es).log.readRange c.throughServerRevision
          ((service P ttl).run w₀ es).head, m.mutation.operationKind ≠ .delete := by
  have hrun : CheckpointsSound ((service P ttl).run w₀ es) ∧ _ := replayInv_run h₀ es
  obtain ⟨hsound, hinv⟩ := hrun
  generalize (service P ttl).run w₀ es = w at *
  have hlive := DomainAssetTable.captureSnapshot_eq hinv.valid
  constructor
  · rintro ⟨hsome, heq⟩
    rcases lt_or_ge c.throughServerRevision w.watermark with hlt | hle
    · rw [replay_eq_none hlt] at hsome
      cases hsome
    refine ⟨hle, fun m hm hdel => ?_⟩
    -- the deleted entity has a live row; the replay, if it succeeds, has none
    rw [hlive, replay_eq hsound hc hle] at heq
    obtain ⟨rows, hfold, hparse⟩ := Option.bind_eq_some_iff.mp heq.symm
    have hrows : HasRow rows m.mutation.entityId := by
      have hrow : HasRow w.assets.projection m.mutation.entityId := by
        rw [hinv.live c hc hle]
        exact hasRow_assignEntries.mpr (hinv.known c hc hle m hm)
      rw [← (parseProjection_eq_some.mp hparse).2, HasRow, mem_map] at hrow
      obtain ⟨r, hr, hid⟩ := hrow
      exact mem_map.mpr ⟨r, mem_sortByKey.mp hr, hid⟩
    exact (foldlM_replayEntry_survives hfold hrows).2 m hm hdel rfl
  · rintro ⟨hle, hupserts⟩
    have hreplay : w.replay c = some w.assets.projection := by
      rw [replay_eq hsound hc hle, foldlM_replayEntry_of_upserts (hinv.known c hc hle) hupserts,
        Option.bind_some, ← hinv.live c hc hle]
      exact hlive
    exact ⟨by rw [hreplay]; rfl, hlive.trans hreplay.symm⟩

/-- The sample asset deleted by a device. -/
def sampleDelete (mutationId : String) (sequence : Nat) : SubmittedSyncMutationWire where
  mutationId := mutationId
  workspaceSchemaVersion := 1
  entityId := "a.example"
  operationKind := .delete
  deletedAt := some 0
  baseServerRevision := 0
  changedFields := []
  sourceDeviceId := "device"
  activeLeaseEpoch := 1
  deviceMutationSequence := sequence

/-- A checkpoint at revision 0 and one more batch. -/
def sampleBatch (m : SubmittedSyncMutationWire) : Workspace Symbolic :=
  (service Symbolic.platform sampleTtl).run sampleWorkspace
    (publishAt "c0" 0 ++ [.ingest samplePorts [m]])

theorem agrees_iff_no_delete_note :
    (sampleBatch (sampleNote "m1" 1)).head = 1 ∧
    Agrees (sampleBatch (sampleNote "m1" 1))
      ((sampleBatch (sampleNote "m1" 1)).checkpoints.head (by decide)) :=
  ⟨by decide, (agrees_iff_no_delete sampleWorkspace_initial _ (head_mem _)).mpr (by decide)⟩

/-- After an accepted delete the live table keeps the asset that the replay removes. -/
theorem not_agrees_after_delete :
    (sampleBatch (sampleDelete "m1" 1)).head = 1 ∧
    (sampleBatch (sampleDelete "m1" 1)).assets.captureSnapshot = some [sampleRow] ∧
    (sampleBatch (sampleDelete "m1" 1)).replay
      ((sampleBatch (sampleDelete "m1" 1)).checkpoints.head (by decide)) = some [] ∧
    ¬ Agrees (sampleBatch (sampleDelete "m1" 1))
      ((sampleBatch (sampleDelete "m1" 1)).checkpoints.head (by decide)) := by
  decide

end GoodDealer.Cloud
