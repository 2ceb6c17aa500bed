/-
# `GoodDealer.Client.Rebuild` — rebuilding a workspace on the desktop

`BootstrapRebuildAccumulator` derives a projection from a checkpoint and the
pages of mutations after it.  It is the client's counterpart of the cloud's
`replayDomainAssets`: one runs over the whole range at once, the other page by
page, with checks on each page.

    rebuild_pages         over accepted pages the accumulator is one fold of the
                          chain, wherever the pages are cut
    foldlM_replayEntry_eq_none   when the cloud refuses a chain
    rebuild_agrees_iff    when both give the same rows, or both refuse

The accumulator assigns the changed fields of every mutation and has no case for
a delete.
-/
import GoodDealer.Cloud.Replay

namespace GoodDealer.Client

open List Keyed Symbolic

open Cloud (replayDomainAssets replayEntry assignEntries computeDomainAssetEntityDigests)

variable {H : Type} {rows : List DomainAssetProjectionRow} {ms : List SyncMutation} {P : Platform H}

/-! ## `copyStrictWireValue` -/

/-- A value as it arrives; the keys of an object are the ones of its schema. -/
inductive Wire where
  | null
  | number (n : Nat)
  | string (s : String)
  | array (elements : List Wire)
  | object (properties : List (String × Wire))

structure Budget where
  properties : Nat
  bytes : Nat

/-- The check at every node. -/
def Budget.within (b : Budget) (depth : Nat) : Bool :=
  depth ≤ 16 && b.properties ≤ 8192 && b.bytes ≤ 2000000

def Budget.property (b : Budget) : Budget := { b with properties := b.properties + 1 }

mutual

/-- `copyStrictWireNode`; the copy itself is the value, what is left is the budget. -/
def copyStrictWireNode : Wire → Budget → Nat → Option Budget
  | .null, b, depth => if b.within depth then some b else none
  | .number n, b, depth => if b.within depth && n ≤ maxSafeInteger then some b else none
  | .string s, b, depth =>
    if b.within depth && b.bytes + s.utf8ByteSize ≤ 2000000 && utf16Length s ≤ 100000 then
      some { b with bytes := b.bytes + s.utf8ByteSize }
    else none
  | .array elements, b, depth =>
    if b.within depth && elements.length ≤ 8192 then copyElements elements b depth else none
  | .object properties, b, depth =>
    if b.within depth then copyProperties properties b depth else none

def copyElements : List Wire → Budget → Nat → Option Budget
  | [], b, _ => some b
  | v :: vs, b, depth =>
    (copyStrictWireNode v b.property (depth + 1)).bind (copyElements vs · depth)

def copyProperties : List (String × Wire) → Budget → Nat → Option Budget
  | [], b, _ => some b
  | p :: ps, b, depth => (copyProperty p b depth).bind (copyProperties ps · depth)

def copyProperty : String × Wire → Budget → Nat → Option Budget
  | (_, v), b, depth => copyStrictWireNode v b.property (depth + 1)

end

/-- `copyStrictWireValue`. -/
def copyStrictWireValue (v : Wire) : Bool := (copyStrictWireNode v ⟨0, 0⟩ 0).isSome

/-- How the wire spells an opaque text and a canonical UTC second. -/
structure WireText (H : Type) where
  token : H → String
  timestamp : Timestamp → String

namespace Wire

def option {α : Type} (f : α → Wire) : Option α → Wire
  | none => .null
  | some a => f a

def money (m : Money) : Wire :=
  .object [("currency", .string m.currency), ("amount", .string m.amount)]

def tags (ts : List String) : Wire := .array (ts.map .string)

def changedField (f : ChangedField) : Wire :=
  .object [("fieldPath", .string f.fieldPath.wire), ("value",
    match f with
    | .note v => option .string v
    | .portfolioId v => option .string v
    | .tags v => tags v
    | .targetPrice v => option money v)]

/-- The deletion time is absent from an upsert. -/
def mutation (text : WireText H) (m : SyncMutation) : Wire :=
  .object ([("schemaVersion", .number 2), ("mutationId", .string m.mutation.mutationId),
      ("workspaceId", .string m.workspaceId),
      ("workspaceSchemaVersion", .number m.mutation.workspaceSchemaVersion),
      ("entityType", .string "domain_asset"), ("entityId", .string m.mutation.entityId),
      ("operationKind", .string
        (match m.mutation.operationKind with | .upsert => "upsert" | .delete => "delete"))] ++
    (m.mutation.deletedAt.toList.map fun t => ("deletedAt", .string (text.timestamp t))) ++
    [("baseServerRevision", .number m.mutation.baseServerRevision),
      ("changedFields", .array (m.mutation.changedFields.map changedField)),
      ("sourceDeviceId", .string m.mutation.sourceDeviceId),
      ("activeLeaseEpoch", .number m.mutation.activeLeaseEpoch),
      ("deviceMutationSequence", .number m.mutation.deviceMutationSequence),
      ("serverRevision", .number m.serverRevision)])

def page (text : WireText H) (p : MutationPage H) : Wire :=
  .object [("schemaVersion", .number 2), ("workspaceId", .string p.workspaceId),
    ("fromServerRevisionExclusive", .number p.fromServerRevisionExclusive),
    ("throughServerRevisionInclusive", .number p.throughServerRevisionInclusive),
    ("mutations", .array (p.mutations.map (mutation text))),
    ("returnedThroughServerRevision", .number p.returnedThroughServerRevision),
    ("nextCursor", option (fun c => .string (text.token c)) p.nextCursor),
    ("pageDigest", .string (text.token p.pageDigest))]

def row (r : DomainAssetProjectionRow) : Wire :=
  .object [("entityId", .string r.entityId), ("note", option .string r.note),
    ("portfolioId", option .string r.portfolioId), ("tags", tags r.tags),
    ("targetPrice", option money r.targetPrice)]

end Wire

/-! ## The accumulator -/

/-- `checkpointDescriptorSchema`. -/
structure CheckpointDescriptor (H : Type) where
  checkpointId : String
  workspaceId : String
  workspaceSchemaVersion : Nat
  throughServerRevision : Nat
  checkpointDigest : H
deriving DecidableEq

/-- `bootstrapCheckpointSnapshotSchema`. -/
structure BootstrapCheckpointSnapshot where
  workspaceId : String
  workspaceSchemaVersion : Nat
  throughServerRevision : Nat
  rows : List DomainAssetProjectionRow
deriving DecidableEq

/-- `BootstrapRebuildAccumulatorOptions`. -/
structure BootstrapRebuildAccumulatorOptions (H : Type) where
  workspaceId : String
  workspaceSchemaVersion : Nat
  targetServerRevision : Nat
  checkpointDescriptor : CheckpointDescriptor H
  checkpointSnapshot : BootstrapCheckpointSnapshot
deriving DecidableEq

/-- `BootstrapMutationPagePresentation`. -/
structure BootstrapMutationPagePresentation (H : Type) where
  cursor : Option H
  page : MutationPage H
deriving DecidableEq

structure BootstrapRebuildAccumulator (H : Type) where
  workspaceId : String
  workspaceSchemaVersion : Nat
  fromServerRevisionExclusive : Nat
  throughServerRevisionInclusive : Nat
  projection : List DomainAssetProjectionRow
  mutationIds : List String
  returnedThroughServerRevision : Nat
  nextCursor : Option H
  completed : Bool
deriving DecidableEq

/-- `BootstrapRebuildDigestSet`. -/
structure BootstrapRebuildDigestSet (H : Type) where
  targetServerRevision : Nat
  projection : List DomainAssetProjectionRow
  entityDigests : List (WorkspaceEntityDigest H)
  digest : H

namespace Wire

def descriptor (text : WireText H) (d : CheckpointDescriptor H) : Wire :=
  .object [("schemaVersion", .number 2), ("checkpointId", .string d.checkpointId),
    ("workspaceId", .string d.workspaceId),
    ("workspaceSchemaVersion", .number d.workspaceSchemaVersion),
    ("throughServerRevision", .number d.throughServerRevision),
    ("checkpointDigest", .string (text.token d.checkpointDigest))]

def snapshot (s : BootstrapCheckpointSnapshot) : Wire :=
  .object [("schemaVersion", .number 1), ("workspaceId", .string s.workspaceId),
    ("workspaceSchemaVersion", .number s.workspaceSchemaVersion),
    ("throughServerRevision", .number s.throughServerRevision), ("rows", .array (s.rows.map row))]

def presentation (text : WireText H) (x : BootstrapMutationPagePresentation H) : Wire :=
  .object [("cursor", option (fun c => .string (text.token c)) x.cursor),
    ("page", page text x.page)]

end Wire

/-- What the schemas of the options check. -/
def BootstrapRebuildAccumulatorOptions.valid (o : BootstrapRebuildAccumulatorOptions H) : Bool :=
  validIdentifier o.workspaceId &&
    decide (SubmittedSyncMutationWire.safePositive o.workspaceSchemaVersion) &&
    decide (o.targetServerRevision ≤ maxSafeInteger) &&
    validIdentifier o.checkpointDescriptor.checkpointId &&
    validIdentifier o.checkpointDescriptor.workspaceId &&
    decide (SubmittedSyncMutationWire.safePositive o.checkpointDescriptor.workspaceSchemaVersion) &&
    decide (o.checkpointDescriptor.throughServerRevision ≤ maxSafeInteger) &&
    validIdentifier o.checkpointSnapshot.workspaceId &&
    decide (SubmittedSyncMutationWire.safePositive o.checkpointSnapshot.workspaceSchemaVersion) &&
    decide (o.checkpointSnapshot.throughServerRevision ≤ maxSafeInteger) &&
    decide (ValidProjection o.checkpointSnapshot.rows)

variable (P)

/-- `start`. -/
def start [DecidableEq H] (text : WireText H)
    (o : BootstrapRebuildAccumulatorOptions H) : Option (BootstrapRebuildAccumulator H) :=
  if !copyStrictWireValue (.descriptor text o.checkpointDescriptor) ||
      !copyStrictWireValue (.snapshot o.checkpointSnapshot) || !o.valid then none
  else if o.checkpointDescriptor.workspaceId ≠ o.workspaceId ∨
      o.checkpointSnapshot.workspaceId ≠ o.workspaceId ∨
      o.checkpointDescriptor.workspaceSchemaVersion ≠ o.workspaceSchemaVersion ∨
      o.checkpointSnapshot.workspaceSchemaVersion ≠ o.workspaceSchemaVersion ∨
      o.checkpointDescriptor.throughServerRevision ≠ o.checkpointSnapshot.throughServerRevision ∨
      o.targetServerRevision < o.checkpointDescriptor.throughServerRevision then none
  else
    match computeDomainAssetEntityDigests P o.checkpointSnapshot.rows with
    | none => none
    | some entityDigests =>
      if P.sha256 (.entityDigests entityDigests) ≠ o.checkpointDescriptor.checkpointDigest then
        none
      else
        some
          { workspaceId := o.workspaceId
            workspaceSchemaVersion := o.workspaceSchemaVersion
            fromServerRevisionExclusive := o.checkpointDescriptor.throughServerRevision
            throughServerRevisionInclusive := o.targetServerRevision
            projection := o.checkpointSnapshot.rows
            mutationIds := []
            returnedThroughServerRevision := o.checkpointDescriptor.throughServerRevision
            nextCursor := none
            completed := false }

/-- `applyDomainAssetMutation`: the kind of the operation is not read. -/
def applyDomainAssetMutation (projection : List DomainAssetProjectionRow) (m : SyncMutation) :
    Option (List DomainAssetProjectionRow) :=
  match Keyed.lookup DomainAssetProjectionRow.entityId m.mutation.entityId projection with
  | none => none
  | some _ => some (assignRow m.mutation.entityId m.mutation.changedFields projection)

/-- The loop of `appendPage`, over copies of the projection and of the ids seen. -/
def applyMutations :
    List DomainAssetProjectionRow × List String → List SyncMutation →
      Option (List DomainAssetProjectionRow × List String)
  | s, [] => some s
  | (projection, mutationIds), m :: ms =>
    if m.mutation.mutationId ∈ mutationIds then none
    else
      (applyDomainAssetMutation projection m).bind fun projection =>
        applyMutations (projection, m.mutation.mutationId :: mutationIds) ms

/-- `appendPage`; appends are awaited one after the other. -/
def appendPage [DecidableEq H] (text : WireText H)
    (acc : BootstrapRebuildAccumulator H) (x : BootstrapMutationPagePresentation H) :
    Option (BootstrapRebuildAccumulator H) :=
  if acc.completed then none
  else if !copyStrictWireValue (.presentation text x) || !decide x.page.Valid then none
  else if x.cursor ≠ acc.nextCursor then none
  else if x.page.workspaceId ≠ acc.workspaceId then none
  else if x.page.throughServerRevisionInclusive ≠ acc.throughServerRevisionInclusive then none
  else if x.page.fromServerRevisionExclusive ≠ acc.returnedThroughServerRevision then none
  else if ∃ m ∈ x.page.mutations,
      m.mutation.workspaceSchemaVersion ≠ acc.workspaceSchemaVersion then none
  else if x.page.pageDigest ≠ P.sha256 x.page.digestInput then none
  else
    (applyMutations (acc.projection, acc.mutationIds) x.page.mutations).bind fun s =>
      (parseProjection (sortByKey DomainAssetProjectionRow.entityId s.1)).bind fun _ =>
        some
          { acc with
            projection := s.1
            mutationIds := s.2
            returnedThroughServerRevision := x.page.returnedThroughServerRevision
            nextCursor := x.page.nextCursor
            completed := x.page.nextCursor.isNone }

/-- `finalize`. -/
def finalize (acc : BootstrapRebuildAccumulator H) :
    Option (BootstrapRebuildDigestSet H) :=
  if !acc.completed then none
  else
    let projection := sortByKey DomainAssetProjectionRow.entityId acc.projection
    (parseProjection projection).bind fun rows =>
      (computeDomainAssetEntityDigests P rows).map fun entityDigests =>
        ⟨acc.throughServerRevisionInclusive, projection, entityDigests,
          P.sha256 (.entityDigests entityDigests)⟩

/-- The rows a rebuild ends with. -/
def rebuild [DecidableEq H] (text : WireText H)
    (o : BootstrapRebuildAccumulatorOptions H) (xs : List (BootstrapMutationPagePresentation H)) :
    Option (List DomainAssetProjectionRow) :=
  (start P text o).bind fun acc =>
    (xs.foldlM (appendPage P text) acc).bind fun acc =>
      (finalize P acc).map BootstrapRebuildDigestSet.projection

/-! ## Accepted pages -/

/-- The checks `appendPage` makes of a page before it reads the mutations. -/
structure PageAccepted (text : WireText H) (workspaceId : String)
    (workspaceSchemaVersion target : Nat) (cursor : Option H) (fromRevision : Nat)
    (x : BootstrapMutationPagePresentation H) : Prop where
  copied : copyStrictWireValue (.presentation text x) = true
  valid : x.page.Valid
  cursor : x.cursor = cursor
  workspace : x.page.workspaceId = workspaceId
  target : x.page.throughServerRevisionInclusive = target
  contiguous : x.page.fromServerRevisionExclusive = fromRevision
  schema : ∀ m ∈ x.page.mutations, m.mutation.workspaceSchemaVersion = workspaceSchemaVersion
  digest : x.page.pageDigest = P.sha256 x.page.digestInput

variable {P}

/-- A run of accepted pages, from a revision up to the terminal page. -/
def AcceptedPages (P : Platform H) (text : WireText H) (workspaceId : String)
    (workspaceSchemaVersion target : Nat) :
    Option H → Nat → List (BootstrapMutationPagePresentation H) → Prop
  | _, _, [] => False
  | cursor, fromRevision, x :: xs =>
    PageAccepted P text workspaceId workspaceSchemaVersion target cursor fromRevision x ∧
      match x.page.nextCursor with
      | none => xs = []
      | some next =>
        AcceptedPages P text workspaceId workspaceSchemaVersion target (some next)
          x.page.returnedThroughServerRevision xs

/-- The chain of mutations that was cut into pages. -/
def chain (xs : List (BootstrapMutationPagePresentation H)) : List SyncMutation :=
  xs.flatMap (·.page.mutations)

/-! ## The accumulator over accepted pages -/

section

variable {ids : List String}

theorem applyDomainAssetMutation_eq {m : SyncMutation} :
    applyDomainAssetMutation rows m =
      if HasRow rows m.mutation.entityId then
        some (assignRow m.mutation.entityId m.mutation.changedFields rows)
      else none := by
  simp only [applyDomainAssetMutation, hasRow_iff_lookup]
  cases Keyed.lookup DomainAssetProjectionRow.entityId m.mutation.entityId rows <;> rfl

theorem applyMutations_append (s : List DomainAssetProjectionRow × List String)
    (ms ms' : List SyncMutation) :
    applyMutations s (ms ++ ms') = (applyMutations s ms).bind (applyMutations · ms') := by
  induction ms generalizing s with
  | nil => rfl
  | cons m ms ih =>
    obtain ⟨rows, ids⟩ := s
    rw [cons_append, applyMutations, applyMutations]
    split
    · rfl
    · cases applyDomainAssetMutation rows m with
      | none => rfl
      | some rows' => exact ih _

/-- The loop succeeds iff every entity has a row and no id is seen twice; it then has
assigned every entry. -/
theorem applyMutations_eq_some {s : List DomainAssetProjectionRow × List String} :
    applyMutations (rows, ids) ms = some s ↔
      ((∀ m ∈ ms, HasRow rows m.mutation.entityId) ∧
        (ms.map (·.mutation.mutationId)).Nodup ∧ (∀ m ∈ ms, m.mutation.mutationId ∉ ids)) ∧
      s = (assignEntries rows ms, (ms.map (·.mutation.mutationId)).reverse ++ ids) := by
  induction ms generalizing rows ids with
  | nil =>
    simp only [applyMutations, Option.some.injEq, map_nil, nodup_nil, reverse_nil,
      nil_append, not_mem_nil, false_implies, implies_true, and_self, true_and,
      Cloud.assignEntries_nil]
    exact eq_comm
  | cons m ms ih =>
    rw [applyMutations, applyDomainAssetMutation_eq]
    by_cases hid : m.mutation.mutationId ∈ ids
    · rw [if_pos hid]
      refine ⟨fun h => ?_, fun h => absurd hid (h.1.2.2 m mem_cons_self)⟩
      cases h
    rw [if_neg hid]
    by_cases hrow : HasRow rows m.mutation.entityId
    · rw [if_pos hrow, Option.bind_some, ih]
      simp only [hasRow_assignRow, forall_mem_cons, hrow, true_and, hid, not_false_eq_true,
        map_cons, nodup_cons, reverse_cons, append_assoc, singleton_append,
        Cloud.assignEntries_cons]
      simp only [mem_cons, not_or, mem_map, not_exists, not_and]
      constructor
      · rintro ⟨⟨hrows, hnodup, hids⟩, hs⟩
        exact ⟨⟨hrows, ⟨fun x hx heq => (hids x hx).1 heq, hnodup⟩, fun x hx => (hids x hx).2⟩, hs⟩
      · rintro ⟨⟨hrows, ⟨hne, hnodup⟩, hids⟩, hs⟩
        exact ⟨⟨hrows, hnodup, fun x hx => ⟨hne x hx, hids x hx⟩⟩, hs⟩
    · rw [if_neg hrow]
      refine ⟨fun h => ?_, fun h => absurd (h.1.1 m mem_cons_self) hrow⟩
      cases h

end

section

variable [DecidableEq H] {text : WireText H} {acc : BootstrapRebuildAccumulator H}
  {x : BootstrapMutationPagePresentation H} {xs : List (BootstrapMutationPagePresentation H)}

variable (hopen : acc.completed = false) (hrows : ValidProjection acc.projection)

include hopen hrows

/-- An accepted page is appended iff its mutations can be applied. -/
theorem appendPage_eq (h : PageAccepted P text acc.workspaceId acc.workspaceSchemaVersion
      acc.throughServerRevisionInclusive acc.nextCursor acc.returnedThroughServerRevision x) :
    appendPage P text acc x =
      (applyMutations (acc.projection, acc.mutationIds) x.page.mutations).map fun s =>
        { acc with
          projection := s.1
          mutationIds := s.2
          returnedThroughServerRevision := x.page.returnedThroughServerRevision
          nextCursor := x.page.nextCursor
          completed := x.page.nextCursor.isNone } := by
  have hschema : ¬ ∃ m ∈ x.page.mutations,
      m.mutation.workspaceSchemaVersion ≠ acc.workspaceSchemaVersion := by
    rintro ⟨m, hm, hne⟩
    exact hne (h.schema m hm)
  have hinput : (!copyStrictWireValue (.presentation text x) || !decide x.page.Valid) = false := by
    simp [h.copied, h.valid]
  rw [appendPage, if_neg (by rw [hopen]; exact Bool.false_ne_true),
    if_neg (by rw [hinput]; exact Bool.false_ne_true), if_neg (not_not_intro h.cursor),
    if_neg (not_not_intro h.workspace), if_neg (not_not_intro h.target),
    if_neg (not_not_intro h.contiguous), if_neg hschema, if_neg (not_not_intro h.digest)]
  cases hs : applyMutations (acc.projection, acc.mutationIds) x.page.mutations with
  | none => rfl
  | some s =>
    -- the assigned rows stay a valid projection, so the parse never throws
    obtain ⟨_, rfl⟩ := applyMutations_eq_some.mp hs
    have hvalid : ValidProjection (assignEntries acc.projection x.page.mutations) :=
      Cloud.validProjection_assignEntries hrows
    rw [Option.bind_some, sortByKey_eq_self hvalid.ascending,
      parseProjection_of_valid hvalid]
    rfl

/-- Over accepted pages the accumulator is one fold of the chain. -/
theorem rebuild_pages (h : AcceptedPages P text acc.workspaceId acc.workspaceSchemaVersion
      acc.throughServerRevisionInclusive acc.nextCursor acc.returnedThroughServerRevision xs) :
    xs.foldlM (appendPage P text) acc =
      (applyMutations (acc.projection, acc.mutationIds) (chain xs)).map fun s =>
        { acc with
          projection := s.1
          mutationIds := s.2
          returnedThroughServerRevision := acc.throughServerRevisionInclusive
          nextCursor := none
          completed := true } := by
  induction xs generalizing acc with
  | nil => exact h.elim
  | cons x xs ih =>
    obtain ⟨hpage, hrest⟩ := h
    have hchain : chain (x :: xs) = x.page.mutations ++ chain xs := flatMap_cons
    rw [foldlM_cons, appendPage_eq hopen hrows hpage, hchain, applyMutations_append]
    cases hs : applyMutations (acc.projection, acc.mutationIds) x.page.mutations with
    | none => rfl
    | some s =>
      obtain ⟨_, rfl⟩ := applyMutations_eq_some.mp hs
      have hvalid : ValidProjection (assignEntries acc.projection x.page.mutations) :=
        Cloud.validProjection_assignEntries hrows
      cases hnext : x.page.nextCursor with
      | none =>
        -- the terminal page has reached the target
        rw [hnext] at hrest
        obtain rfl := hrest
        have hreturned := (hpage.valid.terminal hnext).trans hpage.target
        rw [hreturned]
        rfl
      | some next =>
        rw [hnext] at hrest
        exact ih rfl hvalid hrest

end

/-! ## Agreement with the cloud -/

/-- A mutation of the chain follows a delete of its own entity. -/
def FollowsDelete : List SyncMutation → Prop
  | [] => False
  | m :: ms => (m.mutation.operationKind = .delete ∧
      ∃ x ∈ ms, x.mutation.entityId = m.mutation.entityId) ∨ FollowsDelete ms

instance decFollowsDelete : ∀ ms : List SyncMutation, Decidable (FollowsDelete ms)
  | [] => inferInstanceAs (Decidable False)
  | _ :: ms =>
    haveI := decFollowsDelete ms
    inferInstanceAs (Decidable ((_ ∧ ∃ x ∈ ms, _) ∨ FollowsDelete ms))

section

variable {rows' : List DomainAssetProjectionRow}

/-- When the cloud refuses a chain. -/
theorem foldlM_replayEntry_eq_none :
    ms.foldlM replayEntry rows = none ↔
      (∃ m ∈ ms, ¬ HasRow rows m.mutation.entityId) ∨ FollowsDelete ms := by
  induction ms generalizing rows with
  | nil =>
    constructor
    · intro h
      cases h
    · rintro (⟨m, hm, _⟩ | h)
      · cases hm
      · exact h.elim
  | cons m ms ih =>
    rw [foldlM_cons, replayEntry]
    by_cases hrow : HasRow rows m.mutation.entityId
    · rw [if_pos hrow]
      cases hk : m.mutation.operationKind with
      | upsert =>
        have hih := @ih (assignRow m.mutation.entityId m.mutation.changedFields rows)
        simp only [hasRow_assignRow] at hih
        simp only [FollowsDelete, hk, reduceCtorEq, false_and, false_or, exists_mem_cons_iff,
          hrow, not_true]
        exact hih
      | delete =>
        have hih := @ih (removeRow m.mutation.entityId rows)
        simp only [FollowsDelete, hk, true_and, exists_mem_cons_iff, hrow, not_true,
          false_or]
        refine hih.trans ⟨?_, ?_⟩
        · rintro (⟨x, hx, hno⟩ | h)
          · rw [hasRow_removeRow, not_and, not_not] at hno
            by_cases hxrow : HasRow rows x.mutation.entityId
            · exact .inr (.inl ⟨x, hx, hno hxrow⟩)
            · exact .inl ⟨x, hx, hxrow⟩
          · exact .inr (.inr h)
        · rintro (⟨x, hx, hno⟩ | ⟨x, hx, heq⟩ | h)
          · exact .inl ⟨x, hx, fun h => hno (hasRow_removeRow.mp h).1⟩
          · exact .inl ⟨x, hx, fun h => (hasRow_removeRow.mp h).2 heq⟩
          · exact .inr h
    · rw [if_neg hrow]
      exact ⟨fun _ => .inl ⟨m, mem_cons_self, hrow⟩, fun _ => rfl⟩

theorem foldlM_replayEntry_valid (h : ValidProjection rows)
    (hfold : ms.foldlM replayEntry rows = some rows') : ValidProjection rows' := by
  induction ms generalizing rows with
  | nil => cases hfold; exact h
  | cons m ms ih =>
    rw [foldlM_cons] at hfold
    obtain ⟨mid, hmid, hrest⟩ := Option.bind_eq_some_iff.mp hfold
    obtain ⟨_, ⟨_, rfl⟩ | ⟨_, rfl⟩⟩ := Cloud.replayEntry_eq_some hmid
    · exact ih ⟨fun r hr => h.valid r (Keyed.mem_remove.mp hr).1, h.ascending.filter _⟩ hrest
    · exact ih (validProjection_assignRow h (all_eq_true.mp m.mutation.valid.fields)) hrest

/-- On a chain of the workspace, `replayDomainAssets` is the fold. -/
theorem replayDomainAssets_eq {workspaceId : String} {a b : Nat} (hrows : ValidProjection rows)
    (hdense : DenseFrom SyncMutation.serverRevision a ms) (hlength : a + ms.length = b)
    (hvalid : ∀ m ∈ ms, m.Valid) (hws : ∀ m ∈ ms, m.workspaceId = workspaceId) :
    replayDomainAssets rows ms a b workspaceId = ms.foldlM replayEntry rows := by
  have hle : ¬ b < a := not_lt.mpr (hlength ▸ Nat.le_add_right ..)
  have hlen : ms.length = b - a := by omega
  rw [replayDomainAssets, parseProjection_of_valid hrows, Option.bind_some, if_neg hle,
    if_neg (not_not_intro hvalid), if_neg (not_not_intro hlen),
    Cloud.replayFrom_eq_foldlM hdense hws]
  cases hfold : ms.foldlM replayEntry rows with
  | none => rfl
  | some rows' =>
    have hvalid' := foldlM_replayEntry_valid hrows hfold
    rw [Option.bind_some, sortByKey_eq_self hvalid'.ascending]
    exact parseProjection_of_valid hvalid'

end

section

variable {text : WireText H} {workspaceId : String} {workspaceSchemaVersion target : Nat}

/-- The pages tile the chain from the first revision to the target. -/
theorem AcceptedPages.tiles : ∀ {xs : List (BootstrapMutationPagePresentation H)}
    {cursor : Option H} {a : Nat},
    AcceptedPages P text workspaceId workspaceSchemaVersion target cursor a xs →
    DenseFrom SyncMutation.serverRevision a (chain xs) ∧ a + (chain xs).length = target ∧
      (∀ m ∈ chain xs, m.Valid) ∧ ∀ m ∈ chain xs, m.workspaceId = workspaceId
  | [], _, _, h => h.elim
  | x :: xs, _, a, ⟨hpage, hrest⟩ => by
    have hchain : chain (x :: xs) = x.page.mutations ++ chain xs := flatMap_cons
    have hdense := hpage.valid.dense
    have hreturned :=
      hpage.valid.returned.trans (MutationPage.expectedReturnedRevision_eq hdense)
    rw [hpage.contiguous] at hdense hreturned
    have hws : ∀ m ∈ x.page.mutations, m.workspaceId = workspaceId := fun m hm =>
      (hpage.valid.workspace m hm).trans hpage.workspace
    cases hnext : x.page.nextCursor with
    | none =>
      rw [hnext] at hrest
      obtain rfl := hrest
      have hlast := (hpage.valid.terminal hnext).trans hpage.target
      have hnil : chain [x] = x.page.mutations := flatMap_singleton ..
      rw [hnil]
      exact ⟨hdense, hreturned.symm.trans hlast, hpage.valid.mutations, hws⟩
    | some next =>
      rw [hnext] at hrest
      obtain ⟨hdense', hlength, hvalid, hws'⟩ := AcceptedPages.tiles hrest
      rw [hreturned] at hdense' hlength
      rw [hchain]
      refine ⟨denseFrom_append.mpr ⟨hdense, hdense'⟩, ?_,
        forall_mem_append.mpr ⟨hpage.valid.mutations, hvalid⟩, forall_mem_append.mpr ⟨hws, hws'⟩⟩
      rw [length_append, ← Nat.add_assoc]
      exact hlength

/-- Whether the partitions can be numbered depends on the number of rows only. -/
theorem computeDomainAssetEntityDigests_isSome {rows' : List DomainAssetProjectionRow}
    (hlength : rows'.length = rows.length)
    (h : (computeDomainAssetEntityDigests P rows).isSome = true) :
    (computeDomainAssetEntityDigests P rows').isSome = true := by
  have hempty : rows' = [] ↔ rows = [] := by
    rw [← length_eq_zero_iff, ← length_eq_zero_iff, hlength]
  have hpartitions : ∀ rs : List DomainAssetProjectionRow,
      (computeDomainAssetEntityDigests P rs).isSome =
        (Cloud.partitions rs).all (fun p => p.1.isSome) := by
    intro rs
    rw [computeDomainAssetEntityDigests]
    split
    next hall => rw [hall]; rfl
    next hall => rw [Bool.eq_false_of_not_eq_true hall]; rfl
  rw [hpartitions] at h ⊢
  unfold Cloud.partitions at h ⊢
  by_cases hrows : rows = []
  · rw [if_pos (hempty.mpr hrows)]
    rfl
  · rw [if_neg hrows, all_map] at h
    rw [if_neg (fun he => hrows (hempty.mp he)), hlength, all_map]
    exact h

theorem assignEntries_length : (assignEntries rows ms).length = rows.length := by
  induction ms generalizing rows with
  | nil => rfl
  | cons m ms ih =>
    rw [Cloud.assignEntries_cons, ih, assignRow, adjust, length_map]

variable [DecidableEq H] {o : BootstrapRebuildAccumulatorOptions H}

/-- What `start` has checked. -/
theorem start_eq_some {acc : BootstrapRebuildAccumulator H} (h : start P text o = some acc) :
    ValidProjection o.checkpointSnapshot.rows ∧
      (computeDomainAssetEntityDigests P o.checkpointSnapshot.rows).isSome = true ∧
      acc = { workspaceId := o.workspaceId
              workspaceSchemaVersion := o.workspaceSchemaVersion
              fromServerRevisionExclusive := o.checkpointSnapshot.throughServerRevision
              throughServerRevisionInclusive := o.targetServerRevision
              projection := o.checkpointSnapshot.rows
              mutationIds := []
              returnedThroughServerRevision := o.checkpointSnapshot.throughServerRevision
              nextCursor := none
              completed := false } := by
  unfold start at h
  split at h
  next => cases h
  next hinput =>
  split at h
  next => cases h
  next hbinding =>
  split at h
  next => cases h
  next digests hdigests =>
  split at h
  next => cases h
  next =>
  simp only [not_or, Decidable.not_not] at hbinding
  have hvalid : o.valid = true := by
    cases hv : o.valid with
    | true => rfl
    | false => exact absurd (by rw [hv]; simp) hinput
  have hrows : ValidProjection o.checkpointSnapshot.rows := by
    rw [BootstrapRebuildAccumulatorOptions.valid, Bool.and_eq_true] at hvalid
    exact of_decide_eq_true hvalid.2
  cases h
  refine ⟨hrows, by rw [hdigests]; rfl, ?_⟩
  rw [hbinding.2.2.2.2.1]

/-- The rows of a rebuild over accepted pages, as a function of the chain. -/
theorem rebuild_eq {xs : List (BootstrapMutationPagePresentation H)}
    (hstart : (start P text o).isSome = true)
    (hpages : AcceptedPages P text o.workspaceId o.workspaceSchemaVersion o.targetServerRevision
      none o.checkpointSnapshot.throughServerRevision xs) :
    rebuild P text o xs =
      (applyMutations (o.checkpointSnapshot.rows, []) (chain xs)).map Prod.fst := by
  obtain ⟨acc, hacc⟩ := Option.isSome_iff_exists.mp hstart
  obtain ⟨hrows, hdigests, rfl⟩ := start_eq_some hacc
  rw [rebuild, hacc, Option.bind_some, rebuild_pages rfl hrows hpages]
  cases hs : applyMutations (o.checkpointSnapshot.rows, []) (chain xs) with
  | none => rfl
  | some s =>
    obtain ⟨_, rfl⟩ := applyMutations_eq_some.mp hs
    have hvalid : ValidProjection (assignEntries o.checkpointSnapshot.rows (chain xs)) :=
      Cloud.validProjection_assignEntries hrows
    obtain ⟨digests, hdig⟩ := Option.isSome_iff_exists.mp
      (computeDomainAssetEntityDigests_isSome
        (@assignEntries_length o.checkpointSnapshot.rows (chain xs)) hdigests)
    simp only [Option.map_some, Option.bind_some, finalize, Bool.not_true, Bool.false_eq_true,
      if_false, sortByKey_eq_self hvalid.ascending, parseProjection_of_valid hvalid, hdig]

/-- The condition under which accumulator and cloud agree on a chain: they both refuse
an entity outside the snapshot; else no entry is a delete, or an id is repeated, which
only the accumulator notices, after something else the cloud refuses. -/
def ChainAgrees (rows : List DomainAssetProjectionRow) (ms : List SyncMutation) : Prop :=
  (∃ m ∈ ms, ¬ HasRow rows m.mutation.entityId) ∨
    if (ms.map (·.mutation.mutationId)).Nodup then
      ∀ m ∈ ms, m.mutation.operationKind ≠ .delete
    else FollowsDelete ms

instance (rows : List DomainAssetProjectionRow) (ms : List SyncMutation) :
    Decidable (ChainAgrees rows ms) :=
  inferInstanceAs (Decidable ((∃ m ∈ ms, ¬ HasRow rows m.mutation.entityId) ∨
    if (ms.map (·.mutation.mutationId)).Nodup then
      ∀ m ∈ ms, m.mutation.operationKind ≠ .delete
    else FollowsDelete ms))

/-- Both refuse, or both give the same rows. -/
theorem applyMutations_eq_replay_iff :
    (applyMutations (rows, []) ms).map Prod.fst = ms.foldlM replayEntry rows ↔
      ChainAgrees rows ms := by
  by_cases hunknown : ∃ m ∈ ms, ¬ HasRow rows m.mutation.entityId
  · -- neither side ever has the row
    have hclient : applyMutations (rows, []) ms = none := by
      cases hs : applyMutations (rows, []) ms with
      | none => rfl
      | some s =>
        obtain ⟨m, hm, hno⟩ := hunknown
        exact absurd ((applyMutations_eq_some.mp hs).1.1 m hm) hno
    rw [hclient, foldlM_replayEntry_eq_none.mpr (.inl hunknown)]
    exact ⟨fun _ => .inl hunknown, fun _ => rfl⟩
  have hknown : ∀ m ∈ ms, HasRow rows m.mutation.entityId := fun m hm =>
    Decidable.not_not.mp fun hno => hunknown ⟨m, hm, hno⟩
  rw [ChainAgrees, or_iff_right hunknown]
  by_cases hnodup : (ms.map (·.mutation.mutationId)).Nodup
  · rw [if_pos hnodup]
    have hclient : applyMutations (rows, []) ms =
        some (assignEntries rows ms, (ms.map (·.mutation.mutationId)).reverse ++ []) :=
      applyMutations_eq_some.mpr ⟨⟨hknown, hnodup, fun m _ => not_mem_nil⟩, rfl⟩
    rw [hclient, Option.map_some]
    constructor
    · intro heq m hm hdel
      have hrow : HasRow (assignEntries rows ms) m.mutation.entityId :=
        Cloud.hasRow_assignEntries.mpr (hknown m hm)
      exact (Cloud.foldlM_replayEntry_survives heq.symm hrow).2 m hm hdel rfl
    · intro hupserts
      exact (Cloud.foldlM_replayEntry_of_upserts hknown hupserts).symm
  · rw [if_neg hnodup]
    have hclient : applyMutations (rows, []) ms = none := by
      cases hs : applyMutations (rows, []) ms with
      | none => rfl
      | some s => exact absurd (applyMutations_eq_some.mp hs).1.2.1 hnodup
    rw [hclient, Option.map_none, eq_comm, foldlM_replayEntry_eq_none, or_iff_right hunknown]

/-- Wherever a chain is cut into accepted pages the rebuild ends the same, and it ends
as the cloud's replay of the chain exactly if the chain meets `ChainAgrees`. -/
theorem rebuild_agrees_iff {xs : List (BootstrapMutationPagePresentation H)}
    (hstart : (start P text o).isSome = true)
    (hpages : AcceptedPages P text o.workspaceId o.workspaceSchemaVersion o.targetServerRevision
      none o.checkpointSnapshot.throughServerRevision xs) :
    (∀ ys, AcceptedPages P text o.workspaceId o.workspaceSchemaVersion o.targetServerRevision
        none o.checkpointSnapshot.throughServerRevision ys → chain ys = chain xs →
      rebuild P text o ys = rebuild P text o xs) ∧
    (rebuild P text o xs = replayDomainAssets o.checkpointSnapshot.rows (chain xs)
        o.checkpointSnapshot.throughServerRevision o.targetServerRevision o.workspaceId ↔
      ChainAgrees o.checkpointSnapshot.rows (chain xs)) := by
  obtain ⟨acc, hacc⟩ := Option.isSome_iff_exists.mp hstart
  obtain ⟨hrows, _, _⟩ := start_eq_some hacc
  refine ⟨fun ys hys hchain => ?_, ?_⟩
  · rw [rebuild_eq hstart hys, rebuild_eq hstart hpages, hchain]
  · obtain ⟨hdense, hlength, hvalid, hws⟩ := hpages.tiles
    rw [rebuild_eq hstart hpages, replayDomainAssets_eq hrows hdense hlength hvalid hws]
    exact applyMutations_eq_replay_iff

end

/-! ### On the sample workspace -/

def sampleText : WireText Symbolic := ⟨fun _ => "token", fun _ => "1970-01-01T00:00:00Z"⟩

/-- A rebuild of the sample workspace from revision 0 to revision 1. -/
def sampleOptions : BootstrapRebuildAccumulatorOptions Symbolic where
  workspaceId := "workspace"
  workspaceSchemaVersion := 1
  targetServerRevision := 1
  checkpointDescriptor := ⟨"c0", "workspace", 1, 0, platform.sha256 (.entityDigests
    [⟨some "p0000", platform.sha256 (.domainAssets [Cloud.sampleRow])⟩])⟩
  checkpointSnapshot := ⟨"workspace", 1, 0, [Cloud.sampleRow]⟩

/-- The one page of a chain of one mutation. -/
def samplePage (m : SubmittedSyncMutation) : BootstrapMutationPagePresentation Symbolic where
  cursor := none
  page := ⟨"workspace", 0, 1, [⟨"workspace", m, 1⟩], 1, none,
    platform.sha256 (.page "workspace" 0 1 [⟨"workspace", m, 1⟩] 1 none)⟩

def sampleUpsert : SubmittedSyncMutation := ⟨Cloud.sampleNote "m1" 1, by decide⟩

def sampleRemoval : SubmittedSyncMutation := ⟨Cloud.sampleDelete "m1" 1, by decide⟩

theorem samplePage_accepted (m : SubmittedSyncMutation) (hschema : m.workspaceSchemaVersion = 1)
    (hbase : m.baseServerRevision = 0)
    (hcopied : copyStrictWireValue (.presentation sampleText (samplePage m)) = true) :
    AcceptedPages platform sampleText "workspace" 1 1 none 0 [samplePage m] := by
  refine ⟨⟨hcopied, ?_, rfl, rfl, rfl, rfl, ?_, rfl⟩, rfl⟩
  · refine ⟨by simp [samplePage, maxMutationsPerPage], ?_, Nat.zero_le _, ?_, ⟨rfl, trivial⟩, rfl,
      le_rfl, fun _ => rfl, fun h => absurd rfl h⟩
    · intro x hx
      rw [mem_singleton.mp hx]
      exact ⟨le_rfl, by rw [hbase]; exact Nat.zero_lt_one⟩
    · intro x hx
      rw [mem_singleton.mp hx]
      rfl
  · intro x hx
    rw [mem_singleton.mp hx]
    exact hschema

theorem rebuild_agrees_iff_upsert :
    rebuild platform sampleText sampleOptions [samplePage sampleUpsert] =
      replayDomainAssets [Cloud.sampleRow] [⟨"workspace", sampleUpsert, 1⟩] 0 1 "workspace" :=
  (rebuild_agrees_iff (o := sampleOptions) (by decide)
    (samplePage_accepted sampleUpsert rfl rfl (by decide))).2.mpr (by decide)

/-- A delete: the accumulator keeps the row, the cloud removes it. -/
theorem not_rebuild_agrees_after_delete :
    AcceptedPages platform sampleText "workspace" 1 1 none 0 [samplePage sampleRemoval] ∧
    rebuild platform sampleText sampleOptions [samplePage sampleRemoval] =
      some [Cloud.sampleRow] ∧
    replayDomainAssets [Cloud.sampleRow] [⟨"workspace", sampleRemoval, 1⟩] 0 1 "workspace" =
      some [] :=
  ⟨samplePage_accepted sampleRemoval rfl rfl (by decide), by decide, by decide⟩

end GoodDealer.Client
