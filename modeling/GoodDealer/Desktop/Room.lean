/-
# `GoodDealer.Desktop.Room` — when a list of entries applies

`apply_sync_mutation_projection` fails in four ways that depend on the database: an
upsert of an entity with a tombstone, a portfolio it does not have, a full conflict
table, and an exhausted commit sequence.  `applyEntries_fits` says that these are all:
entries that the cloud accepted apply one after another if

* `Applicable` — no upsert meets a tombstone, neither one of the database nor one of an
  earlier delete of the list;
* `FieldFits` — every portfolio they name is there, and their tags are within the limits;
* `RoomFor` — the capacity is enough for one candidate for each pending field they touch.

A candidate takes its bytes from a value of the database and a value of the entry, so
the capacity is counted in candidates (`candidates`), with one bound for all values.
-/
import GoodDealer.Desktop.Replica

namespace GoodDealer.Desktop

open List Keyed

variable {H : Type} {m : SyncMutation} {s : Store H} {J : SerdeJson H} {P : Platform H}
  {limit n : Nat}

/-! ## Entries and tombstones -/

/-- No upsert of the list meets a tombstone: of an entity that is dead already, or of
an earlier delete. -/
structure Applicable (dead : String → Prop) (ms : List SyncMutation) : Prop where
  alive : ∀ m ∈ ms, m.mutation.operationKind = .upsert → ¬ dead m.mutation.entityId
  ordered : ms.Pairwise fun a b => a.mutation.operationKind = .delete →
    b.mutation.operationKind = .upsert → b.mutation.entityId ≠ a.mutation.entityId

namespace Applicable

variable {dead dead' : String → Prop} {ms ms' : List SyncMutation}

theorem nil (dead : String → Prop) : Applicable dead [] :=
  ⟨fun _ h => (by cases h), .nil⟩

/-- What follows a list meets its tombstones too. -/
theorem append : Applicable dead (ms ++ ms') ↔ Applicable dead ms ∧
    Applicable (fun e => dead e ∨ ∃ m ∈ ms, m.mutation.operationKind = .delete ∧
      e = m.mutation.entityId) ms' := by
  constructor
  · intro h
    obtain ⟨hms, hms', hacross⟩ := pairwise_append.mp h.ordered
    refine ⟨⟨fun m hm => h.alive m (mem_append_left _ hm), hms⟩, ⟨?_, hms'⟩⟩
    rintro m hm hup (hdead | ⟨x, hx, hdelete, he⟩)
    · exact h.alive m (mem_append_right _ hm) hup hdead
    · exact hacross x hx m hm hdelete hup he
  · rintro ⟨h, h'⟩
    refine ⟨forall_mem_append.mpr ⟨h.alive, fun m hm hup hdead => ?_⟩,
      pairwise_append.mpr ⟨h.ordered, h'.ordered, ?_⟩⟩
    · exact h'.alive m hm hup (.inl hdead)
    · intro a ha b hb hdelete hup he
      exact h'.alive b hb hup (.inr ⟨a, ha, hdelete, he⟩)

theorem mono (h : Applicable dead' ms) (hdead : ∀ e, dead e → dead' e) : Applicable dead ms :=
  ⟨fun m hm hup he => h.alive m hm hup (hdead _ he), h.ordered⟩

end Applicable

/-! ## Values the columns accept -/

/-- A field whose portfolio, if it names one, is there, and whose tags are within the limits
of `validate_sync_mutation_fields`. -/
def FieldFits (portfolios : List String) : ChangedField → Prop
  | .portfolioId (some p) => p ∈ portfolios
  | .tags tags => tags.length ≤ 64 ∧ ∀ tag ∈ tags, tag.utf8ByteSize ≤ 64
  | _ => True

instance (portfolios : List String) : ∀ f, Decidable (FieldFits portfolios f)
  | .portfolioId (some p) => inferInstanceAs (Decidable (p ∈ portfolios))
  | .tags _ => inferInstanceAs (Decidable (_ ∧ _))
  | .portfolioId none | .note _ | .targetPrice _ => isTrue trivial

theorem tagStorable_of_valid {tag : String} (h : validTag tag = true) : tagStorable tag = true := by
  simp only [validTag, Bool.and_eq_true, decide_eq_true_eq, Bool.not_eq_true'] at h
  obtain ⟨⟨⟨⟨hpos, hle⟩, _⟩, hhead⟩, hlast⟩ := h
  exact tagStorable_of_ends (by decide) hpos hle hhead hlast

/-- The wire schema is stricter than the columns, except for the reference to a portfolio. -/
theorem fieldStorable_of_valid {portfolios : List String} {f : ChangedField}
    (h : f.valid = true) (hknown : FieldFits portfolios f) :
    fieldStorable portfolios f = true := by
  cases f with
  | note v =>
    cases v with
    | none => rfl
    | some note =>
      simp only [ChangedField.valid, Option.all_some, validNote, Bool.and_eq_true,
        decide_eq_true_eq] at h
      simp only [fieldStorable, Option.all_some, decide_eq_true_eq]
      exact h.1
  | portfolioId v =>
    cases v with
    | none => rfl
    | some p =>
      simp only [fieldStorable, Option.all_some, contains_iff_mem]
      exact hknown
  | tags v =>
    simp only [ChangedField.valid, validTags, Bool.and_eq_true, decide_eq_true_eq,
      all_eq_true] at h
    simp only [fieldStorable, Bool.and_eq_true, all_eq_true, decide_eq_true_eq]
    refine ⟨fun tag htag => tagStorable_of_valid (h.1.2 tag htag), ?_⟩
    exact h.2.imp fun hlt => ne_of_lt hlt
  | targetPrice v =>
    cases v with
    | none => rfl
    | some money =>
      simp only [ChangedField.valid, Option.all_some, Money.valid, Bool.and_eq_true] at h
      simp only [fieldStorable, Option.all_some, Bool.and_eq_true]
      exact h.1

/-! ## Room for conflict candidates -/

/-- The values a candidate can compare whatever the entry and the assets are. -/
def fixedValues : List ConflictValue :=
  [.null, .lifecycleStatus .active, .lifecycleStatus .expired, .lifecycleStatus .sold,
    .lifecycleStatus .dropped, .lifecycleStatus .archived, .field (.note none),
    .field (.portfolioId none), .field (.tags []), .field (.targetPrice none)]

/-- The values of an entry. -/
def entryValues (m : SyncMutation) : List ConflictValue :=
  .deletedAt m.mutation.deletedAt :: m.mutation.changedFields.map .field

/-- The fields of an upsert that are pending. -/
def fieldCandidates (s : Store H) (entityId : String) (fs : List ChangedField) : Nat :=
  (fs.filter fun f => decide (s.FieldPending entityId (.sync f.fieldPath))).length

/-- The candidates an entry adds at most. -/
def entryCandidates (s : Store H) (m : SyncMutation) : Nat :=
  match m.mutation.operationKind with
  | .upsert => fieldCandidates s m.mutation.entityId m.mutation.changedFields
  | .delete => if s.EntityPending m.mutation.entityId then 1 else 0

def candidates (s : Store H) : List SyncMutation → Nat
  | [] => 0
  | m :: ms => entryCandidates s m + candidates s ms

/-- The capacity is enough for `n` more candidates whose values have at most `limit` bytes. -/
@[mk_iff] structure Room (J : SerdeJson H) (limit n : Nat) (s : Store H) : Prop where
  count : s.openCount + n ≤ maxOpenConflicts
  bytes : s.openBytes + n * (2 * limit) ≤ maxOpenConflictBytes
  stored : ∀ a ∈ s.portfolioDomainAssets, ∀ path, J.value (.field (fieldAt a.row path)) ≤ limit

/-- The entries fit: their candidates, and the commit sequence. -/
@[mk_iff] structure RoomFor (J : SerdeJson H) (limit : Nat) (s : Store H) (ms : List SyncMutation) :
    Prop where
  fixed : ∀ v ∈ fixedValues, J.value v ≤ limit
  entries : ∀ m ∈ ms, ∀ v ∈ entryValues m, J.value v ≤ limit
  room : Room J limit (candidates s ms) s
  sequence : s.localCommitSequence + ms.length ≤ maxSafeInteger

theorem fieldCandidates_cons (s : Store H) (e : String) (f : ChangedField)
    (fs : List ChangedField) :
    fieldCandidates s e (f :: fs) = fieldCandidates s e [f] + fieldCandidates s e fs := by
  unfold fieldCandidates
  rw [filter_cons, filter_cons]
  split <;> simp [add_comm]

/-- A statement about all four fields. -/
instance decForallFieldPath (p : FieldPath → Prop) [DecidablePred p] : Decidable (∀ path, p path) :=
  decidable_of_iff (p .note ∧ p .portfolioId ∧ p .tags ∧ p .targetPrice)
    ⟨fun ⟨h1, h2, h3, h4⟩ path => by cases path <;> assumption,
      fun h => ⟨h _, h _, h _, h _⟩⟩

instance (J : SerdeJson H) (limit n : Nat) (s : Store H) : Decidable (Room J limit n s) :=
  decidable_of_iff _ (room_iff J limit n s).symm

instance (J : SerdeJson H) (limit : Nat) (s : Store H) (ms : List SyncMutation) :
    Decidable (RoomFor J limit s ms) :=
  decidable_of_iff _ (roomFor_iff J limit s ms).symm

section

variable {s' : Store H} (h : ∀ e path, s'.FieldPending e path → s.FieldPending e path)

include h

theorem fieldCandidates_mono (entityId : String) (fs : List ChangedField) :
    fieldCandidates s' entityId fs ≤ fieldCandidates s entityId fs := by
  refine (monotone_filter_right fs fun f hf => ?_).length_le
  simp only [decide_eq_true_eq] at hf ⊢
  exact h _ _ hf

theorem entryCandidates_mono (m : SyncMutation) : entryCandidates s' m ≤ entryCandidates s m := by
  unfold entryCandidates
  split
  · exact fieldCandidates_mono h _ _
  · split
    next hp =>
      obtain ⟨path, hpath⟩ := Store.entityPending_iff.mp hp
      rw [if_pos (Store.entityPending_iff.mpr ⟨path, h _ _ hpath⟩)]
    · exact Nat.zero_le _

theorem candidates_mono : ∀ ms : List SyncMutation, candidates s' ms ≤ candidates s ms
  | [] => le_rfl
  | m :: ms => Nat.add_le_add (entryCandidates_mono h m) (candidates_mono ms)

end

theorem fieldAt_applyField (r : DomainAssetProjectionRow) (f : ChangedField) (path : FieldPath) :
    fieldAt (r.applyField f) path = f ∨ fieldAt (r.applyField f) path = fieldAt r path := by
  cases f <;> cases path <;> first | exact .inl rfl | exact .inr rfl

namespace Room

variable {n' : Nat} {f : ChangedField}

theorem mono (h : Room J limit n s) (hn : n' ≤ n) : Room J limit n' s where
  count := le_trans (Nat.add_le_add_left hn _) h.count
  bytes := le_trans (Nat.add_le_add_left (Nat.mul_le_mul_right _ hn) _) h.bytes
  stored := h.stored

theorem writeField (h : Room J limit n s) (hf : J.value (.field f) ≤ limit) (entityId : String)
    (revision : Nat) : Room J limit n (s.writeField entityId revision f) where
  count := h.count
  bytes := h.bytes
  stored := fun a ha path => by
    obtain ⟨b, hb, rfl⟩ := mem_adjust.mp ha
    split
    · show J.value (.field (fieldAt (b.row.applyField f) path)) ≤ limit
      rcases fieldAt_applyField b.row f path with heq | heq
      · rw [heq]
        exact hf
      · rw [heq]
        exact h.stored b hb path
    · exact h.stored b hb path

variable (hfixed : ∀ v ∈ fixedValues, J.value v ≤ limit)

include hfixed

theorem localValue_le (h : Room J limit n s) (entityId : String) (path : LocalFieldPath) :
    J.value (s.localConflictValue entityId path) ≤ limit := by
  cases path with
  | sync path =>
    unfold Store.localConflictValue
    cases hrow : s.portfolioRow entityId with
    | none => exact hfixed _ (by simp [fixedValues])
    | some a => exact h.stored a (lookup_eq_some hrow).1 path
  | lifecycleStatus =>
    unfold Store.localConflictValue
    cases s.domainAsset entityId with
    | none => exact hfixed _ (by simp [fixedValues])
    | some a => cases hl : a.lifecycleStatus <;> exact hfixed _ (by simp [fixedValues, hl])

theorem remoteValue_le (hentry : ∀ v ∈ entryValues m, J.value v ≤ limit) (path : LocalFieldPath) :
    J.value (remoteConflictValue m path) ≤ limit := by
  unfold remoteConflictValue
  split
  · exact hentry _ mem_cons_self
  · split
    next f hfind =>
      refine hentry _ (mem_cons_of_mem _ (mem_map_of_mem ?_))
      exact mem_of_find?_eq_some hfind
    · exact hfixed _ (by simp [fixedValues])

/-- A candidate takes its place. -/
theorem persistConflictCandidate (h : Room J limit (n + 1) s) {path : LocalFieldPath}
    (hasset : m.mutation.entityId ∈ s.domainAssets.map DomainAsset.entityId)
    (hentry : ∀ v ∈ entryValues m, J.value v ≤ limit) :
    ∃ s', persistConflictCandidate J P s m path = .ok s' ∧ Room J limit n s' := by
  have hlocal := h.localValue_le hfixed m.mutation.entityId path
  have hremote := remoteValue_le (J := J) hfixed hentry path
  have hcount := h.count
  have hbytes := h.bytes
  rw [Nat.succ_mul] at hbytes
  obtain ⟨asset, hlookup⟩ := Option.isSome_iff_exists.mp (lookup_isSome.mpr hasset)
  unfold Desktop.persistConflictCandidate
  simp only [Store.domainAsset, hlookup]
  rw [if_neg (by omega)]
  split
  · exact ⟨s, rfl, h.mono (Nat.le_succ n)⟩
  · refine ⟨_, rfl, ⟨?_, ?_, h.stored⟩⟩
    · show s.openCount + 1 + n ≤ maxOpenConflicts
      omega
    · show s.openBytes + _ + _ + n * (2 * limit) ≤ maxOpenConflictBytes
      omega

theorem ensureAsset (h : Room J limit n s)
    (entityId : String) : Room J limit n (s.ensureAsset entityId) where
  count := h.count
  bytes := h.bytes
  stored := fun a ha path => by
    rcases mem_put ha with ha | rfl | ⟨b, hb, _, heq⟩
    · exact h.stored a ha path
    · cases path <;> exact hfixed _ (by simp [fixedValues, fieldAt])
    · rw [heq]
      exact h.stored b hb path

end Room

/-! ## Entries that apply -/

section

variable (hfixed : ∀ v ∈ fixedValues, J.value v ≤ limit)
  (hentry : ∀ v ∈ entryValues m, J.value v ≤ limit)

include hfixed hentry

theorem applyField_ok {f : ChangedField} (hmem : f ∈ m.mutation.changedFields)
    (hknown : FieldFits s.portfolios f)
    (hasset : m.mutation.entityId ∈ s.domainAssets.map DomainAsset.entityId)
    (h : Room J limit (fieldCandidates s m.mutation.entityId [f] + n) s) :
    ∃ s', applyField J P m s f = .ok s' ∧ Room J limit n s' := by
  unfold applyField
  by_cases hp : s.FieldPending m.mutation.entityId (.sync f.fieldPath)
  · rw [if_pos hp]
    refine Room.persistConflictCandidate hfixed (h.mono ?_) hasset hentry
    simp [fieldCandidates, hp, add_comm]
  · have hvalid : f.valid = true := all_eq_true.mp m.mutation.valid.fields f hmem
    rw [if_neg hp, fieldStorable_of_valid hvalid hknown]
    refine ⟨_, rfl, Room.writeField (h.mono (Nat.le_add_left ..)) ?_ _ _⟩
    exact hentry _ (mem_cons_of_mem _ (mem_map_of_mem hmem))

theorem applyFields_ok :
    ∀ {fs : List ChangedField} {s : Store H}, (∀ f ∈ fs, f ∈ m.mutation.changedFields) →
      (∀ f ∈ fs, FieldFits s.portfolios f) →
      m.mutation.entityId ∈ s.domainAssets.map DomainAsset.entityId →
      Room J limit (fieldCandidates s m.mutation.entityId fs + n) s →
      ∃ s', fs.foldlM (applyField J P m) s = .ok s' ∧ Room J limit n s'
  | [], s, _, _, _, h => ⟨s, rfl, h.mono (Nat.le_add_left ..)⟩
  | f :: fs, s, hmem, hknown, hasset, h => by
    rw [fieldCandidates_cons, Nat.add_assoc] at h
    obtain ⟨t, ht, hroom⟩ := applyField_ok hfixed hentry (hmem f mem_cons_self)
      (hknown f mem_cons_self) hasset h
    obtain ⟨hassets, hportfolios, hpending⟩ := applyField_keeps ht
    have hcount := fieldCandidates_mono hpending m.mutation.entityId fs
    rw [foldlM_cons, ht]
    refine applyFields_ok (forall_mem_cons.mp hmem).2 ?_
      (hassets ▸ hasset) (hroom.mono (Nat.add_le_add_right hcount n))
    rw [hportfolios]
    exact (forall_mem_cons.mp hknown).2

theorem applyDelete_applies
    (hpending : s.EntityPending m.mutation.entityId →
      m.mutation.entityId ∈ s.domainAssets.map DomainAsset.entityId)
    (h : Room J limit ((if s.EntityPending m.mutation.entityId then 1 else 0) + n) s) :
    ∃ s' conflicted, applyDelete J P s m = .ok (s', conflicted) ∧ Room J limit n s' := by
  unfold applyDelete
  by_cases hp : s.EntityPending m.mutation.entityId
  · rw [if_pos hp, add_comm] at h
    obtain ⟨t, ht, hroom⟩ : ∃ t, persistConflictCandidate J P s m .lifecycleStatus = .ok t ∧
        Room J limit n t := h.persistConflictCandidate hfixed (hpending hp) hentry
    obtain ⟨asset, hlookup⟩ : ∃ asset, t.domainAsset m.mutation.entityId = some asset := by
      obtain ⟨asset, hfound, rfl | ⟨_, rfl⟩⟩ := persistConflictCandidate_cases ht
      · exact ⟨asset, hfound⟩
      · exact ⟨asset, hfound⟩
    simp only [if_pos hp, ht, hlookup]
    exact ⟨_, _, rfl, hroom.count, hroom.bytes, hroom.stored⟩
  · simp only [if_neg hp]
    have hroom := h.mono (Nat.le_add_left n _)
    exact ⟨_, _, rfl, hroom.count, hroom.bytes, hroom.stored⟩

theorem applyUpsert_applies
    (hknown : ∀ f ∈ m.mutation.changedFields, FieldFits s.portfolios f)
    (halive : ¬ s.Tombstoned m.mutation.entityId)
    (h : Room J limit (fieldCandidates s m.mutation.entityId m.mutation.changedFields + n) s) :
    ∃ s' conflicted, applyUpsert J P s m = .ok (s', conflicted) ∧ Room J limit n s' := by
  have hasset : m.mutation.entityId ∈
      (s.ensureAsset m.mutation.entityId).domainAssets.map DomainAsset.entityId := by
    apply (key_mem_put ?_).mpr (.inr rfl)
    exact fun _ hb => hb
  obtain ⟨t, ht, hroom⟩ := applyFields_ok (P := P) (s := s.ensureAsset m.mutation.entityId)
    hfixed hentry (fun f hf => hf) hknown hasset (h.ensureAsset hfixed m.mutation.entityId)
  unfold applyUpsert
  rw [if_neg halive, ht]
  exact ⟨t, _, rfl, hroom⟩

/-- What an entry needs of the database, apart from the room. -/
structure Fits (s : Store H) (m : SyncMutation) : Prop where
  workspace : m.workspaceId = s.workspaceId
  valid : m.Valid
  revision : m.serverRevision ≤ maxSafeInteger
  fields : ∀ f ∈ m.mutation.changedFields, FieldFits s.portfolios f
  pending : s.EntityPending m.mutation.entityId →
    m.mutation.entityId ∈ s.domainAssets.map DomainAsset.entityId

theorem applySyncMutationProjection_fits (hfits : Fits s m)
    (halive : m.mutation.operationKind = .upsert → ¬ s.Tombstoned m.mutation.entityId)
    (hsequence : s.localCommitSequence < maxSafeInteger)
    (h : Room J limit (entryCandidates s m + n) s) :
    ∃ s' conflicted, applySyncMutationProjection J P s m = .ok (s', conflicted) ∧
      Room J limit n s' := by
  have hvalid := m.mutation.valid
  have hschema := hvalid.workspaceSchemaVersion.1
  have hepoch := hvalid.activeLeaseEpoch.1
  have hdevice := hvalid.deviceMutationSequence.1
  have hbase := hfits.valid.2
  unfold applySyncMutationProjection
  rw [if_neg (by simp [hvalid.entityId, hvalid.mutationId, hvalid.sourceDeviceId]),
    if_neg (by simp only [hfits.workspace, ne_eq, not_true, false_or]; omega),
      if_neg (by have := hfits.revision; omega)]
  simp only
  unfold entryCandidates at h
  cases hkind : m.mutation.operationKind with
  | delete =>
    rw [hkind] at h
    exact applyDelete_applies hfixed hentry hfits.pending ⟨h.count, h.bytes, h.stored⟩
  | upsert =>
    rw [hkind] at h
    exact applyUpsert_applies hfixed hentry hfits.fields (halive hkind)
      ⟨h.count, h.bytes, h.stored⟩

end

theorem Projected.fits {s s' : Store H} {m x : SyncMutation} (h : Projected s m s')
    (hx : Fits s x) : Fits s' x where
  workspace := hx.workspace.trans h.workspaceId.symm
  valid := hx.valid
  revision := hx.revision
  fields := by rw [h.portfolios]; exact hx.fields
  pending := fun hp => by
    obtain ⟨path, hpath⟩ := Store.entityPending_iff.mp hp
    exact h.assets _ (hx.pending (Store.entityPending_iff.mpr ⟨path, h.pending _ _ hpath⟩))

/-- An entry the inbox does not have is applied and written to it. -/
theorem applyEntry_new [DecidableEq H] {t : Store H} {conflicted : Bool}
    (hnew : ∀ row ∈ s.inbox,
      row.serverRevision < m.serverRevision ∧ row.mutationId ≠ m.mutation.mutationId)
    (h : applySyncMutationProjection J P s m = .ok (t, conflicted)) :
    applyEntry J P s m = .ok { t with inbox := s.inbox ++
      [⟨m.serverRevision, m.mutation.mutationId, canonicalMutationDigest P m, conflicted⟩] } := by
  have hlookup : Keyed.lookup InboxRow.serverRevision m.serverRevision s.inbox = none :=
    lookup_eq_none.mpr fun row hrow => ne_of_lt (hnew row hrow).1
  have hinbox : t.inbox = s.inbox := (applySyncMutationProjection_applies h).projected.inbox
  have hany : s.inbox.any (fun row => decide (row.mutationId = m.mutation.mutationId)) = false := by
    rw [any_eq_false]
    exact fun row hrow => by simpa using (hnew row hrow).2
  rw [applyEntry, hlookup]
  simp only [h, hinbox, hany, Bool.false_eq_true, if_false]

theorem applyEntries_fits [DecidableEq H] :
    ∀ {ms : List SyncMutation} {n : Nat} {s : Store H},
      DenseFrom SyncMutation.serverRevision n ms → (ms.map (·.mutation.mutationId)).Nodup →
      (∀ row ∈ s.inbox, row.serverRevision ≤ n ∧ ∀ m ∈ ms, row.mutationId ≠ m.mutation.mutationId) →
      Applicable s.Tombstoned ms → (∀ m ∈ ms, Fits s m) → RoomFor J limit s ms →
      ∃ s', ms.foldlM (applyEntry J P) s = .ok s'
  | [], _, s, _, _, _, _, _, _ => ⟨s, rfl⟩
  | m :: ms, n, s, hdense, hids, hinbox, happlicable, hfits, hroom => by
    have hrevision : m.serverRevision = n + 1 := hdense.1
    have hsequence := hroom.sequence
    rw [length_cons] at hsequence
    obtain ⟨t, conflicted, ht, hroom'⟩ := applySyncMutationProjection_fits (P := P)
      (n := candidates s ms) hroom.fixed (hroom.entries m mem_cons_self)
      (hfits m mem_cons_self) (happlicable.alive m mem_cons_self) (by omega) hroom.room
    have hprojected := (applySyncMutationProjection_applies ht).projected
    have hrest : Applicable t.Tombstoned ms := by
      have hsplit : Applicable s.Tombstoned ([m] ++ ms) := happlicable
      refine (Applicable.append.mp hsplit).2.mono fun e he => ?_
      exact (hprojected.tombstones e he).imp id fun hd => ⟨m, mem_cons_self, hd⟩
    rw [map_cons, nodup_cons] at hids
    rw [foldlM_cons, applyEntry_new (fun row hrow => ?_) ht]
    · refine applyEntries_fits hdense.2 hids.2
        (forall_mem_append.mpr ⟨fun row hrow => ?_, ?_⟩) hrest
        (fun x hx => ?_) ⟨hroom.fixed, (forall_mem_cons.mp hroom.entries).2, ?_, ?_⟩
      · obtain ⟨hle, hne⟩ := hinbox row hrow
        exact ⟨Nat.le_succ_of_le hle, (forall_mem_cons.mp hne).2⟩
      · refine forall_mem_singleton.mpr ⟨hrevision.le, fun x hx heq => hids.1 ?_⟩
        exact mem_map.mpr ⟨x, hx, heq.symm⟩
      · obtain ⟨h₁, h₂, h₃, h₄, h₅⟩ := hprojected.fits (hfits x (mem_cons_of_mem _ hx))
        exact ⟨h₁, h₂, h₃, h₄, h₅⟩
      · obtain ⟨h₁, h₂, h₃⟩ := hroom'
        refine Room.mono ⟨h₁, h₂, h₃⟩ (candidates_mono ?_ ms)
        exact hprojected.pending
      · show t.localCommitSequence + ms.length ≤ maxSafeInteger
        rw [hprojected.sequence]
        omega
    · obtain ⟨hle, hne⟩ := hinbox row hrow
      exact ⟨by omega, hne m mem_cons_self⟩

/-! ## Pages that apply -/

section

variable {page : MutationPage H}

theorem validateSyncMutationFields_of_fits {portfolios : List String}
    (h : ∀ f ∈ m.mutation.changedFields, FieldFits portfolios f) :
    validateSyncMutationFields m = true := by
  refine all_eq_true.mpr fun f hf => ?_
  have hvalid : f.valid = true := all_eq_true.mp m.mutation.valid.fields f hf
  have hfits := h f hf
  cases f with
  | tags tags =>
    simp only [ChangedField.valid, validTags, Bool.and_eq_true, all_eq_true] at hvalid
    simp only [Bool.and_eq_true, decide_eq_true_eq, all_eq_true]
    refine ⟨hfits.1, fun tag htag => ⟨?_, hfits.2 tag htag⟩⟩
    rintro rfl
    exact absurd (hvalid.1.2 "" htag) (by decide)
  | note | portfolioId | targetPrice => rfl

/-- A page of the schema is well formed if the tags of its entries are short. -/
theorem wellFormedPage_of_valid (h : page.Valid)
    (hfields : ∀ m ∈ page.mutations, validateSyncMutationFields m = true) :
    wellFormedPage page = true := by
  simp only [wellFormedPage, Bool.and_eq_true, decide_eq_true_eq, all_eq_true]
  refine ⟨⟨⟨h.dense, fun m hm => ⟨⟨⟨⟨h.workspace m hm, ?_⟩, ?_⟩, m.mutation.valid.shape⟩,
    hfields m hm⟩⟩, h.returned⟩, ?_⟩
  · intro hid
    have hvalid := m.mutation.valid.mutationId
    rw [hid] at hvalid
    exact absurd hvalid (by decide)
  · intro hid
    have hvalid := m.mutation.valid.entityId
    rw [hid] at hvalid
    exact absurd hvalid (by decide)
  · cases hnext : page.nextCursor with
    | none => exact decide_eq_true (h.terminal hnext)
    | some c => exact decide_eq_true (h.continued (by rw [hnext]; exact Option.some_ne_none c))

/-- An empty page with the digest of the last one comes with its token, too. -/
def Repeats (s : Store H) (deviceId : String) (page : MutationPage H) (token : H) : Prop :=
  page.mutations = [] → (s.reader deviceId).bind (·.lastPageDigest) = some page.pageDigest →
    (s.reader deviceId).bind (·.confirmationToken) = some token

instance [DecidableEq H] (s : Store H) (deviceId : String) (page : MutationPage H) (token : H) :
    Decidable (Repeats s deviceId page token) :=
  inferInstanceAs (Decidable (_ → _ → _))

/-- A page passes every check of `apply_sync_page_v2` if its entries apply. -/
theorem applySyncPage_fits [DecidableEq H] {deviceId : String} {token : H}
    (hdevice : validIdentifier deviceId = true) (hsize : J.page page ≤ 1048576)
    (hworkspace : page.workspaceId = s.workspaceId) (hvalid : page.Valid)
    (hdigest : page.pageDigest = P.sha256 page.digestInput)
    (hfields : ∀ m ∈ page.mutations, validateSyncMutationFields m = true)
    (hactive : ∀ r, s.reader deviceId = some r → r.status = .active)
    (hstart : page.fromServerRevisionExclusive = s.appliedThroughServerRevision)
    (hrepeats : Repeats s deviceId page token)
    (hentries : ∃ t, page.mutations.foldlM (applyEntry J P) s = .ok t) :
    (applySyncPage J P s deviceId page token).isOk = true := by
  have hlength : page.mutations.length ≤ 256 := hvalid.length
  have hbounds := hvalid.bounds
  have htarget := hvalid.target
  have hstatus : (s.reader deviceId).any (fun r => decide (r.status ≠ .active)) = false :=
    (Option.any_eq_false _ _).mpr (by simpa using hactive)
  unfold applySyncPage
  rw [hdevice, if_neg (by simp [hsize]), if_neg, if_neg (not_not_intro hdigest),
    wellFormedPage_of_valid hvalid hfields]
  swap
  · simp only [hworkspace, ne_eq, not_true, false_or]
    omega
  unfold commitPage
  simp only [hstatus, Bool.not_true, Bool.false_eq_true, if_false]
  split
  next hlast =>
    -- a page that ends where it starts is empty
    have hempty : page.mutations = [] := by
      rw [← length_eq_zero_iff]
      have hreturned := hvalid.returned
      rw [MutationPage.expectedReturnedRevision_eq hvalid.dense] at hreturned
      omega
    rw [if_neg (not_not_intro (hrepeats hempty hlast.2))]
    rfl
  · obtain ⟨t, ht⟩ := hentries
    rw [if_neg (not_not_intro hstart), ht]
    rfl

end

/-! ## Errors that are left

Entries that are applicable, and newer than the inbox, meet no conflict. -/

section

variable [DecidableEq H] {e : BusinessDatabaseError}

theorem applyEntry_error (h : applyEntry J P s m = .error e)
    (hinbox : ∀ row ∈ s.inbox, row.serverRevision < m.serverRevision)
    (halive : m.mutation.operationKind = .upsert → ¬ s.Tombstoned m.mutation.entityId) :
    e = .invalidInput ∨ e = .storageRejected := by
  unfold applyEntry at h
  split at h
  next row hrow =>
    obtain ⟨hmem, hkey⟩ := lookup_eq_some hrow
    exact absurd hkey (ne_of_lt (hinbox row hmem))
  split at h
  next hproject =>
    cases h
    rcases applySyncMutationProjection_error hproject with he | he | ⟨_, hup, hdead⟩
    · exact .inl he
    · exact .inr he
    · exact absurd hdead (halive hup)
  split at h
  · cases h
    exact .inr rfl
  · cases h

theorem applyEntries_error : ∀ {ms : List SyncMutation} {n : Nat} {s : Store H},
    ms.foldlM (applyEntry J P) s = .error e → DenseFrom SyncMutation.serverRevision n ms →
    (∀ row ∈ s.inbox, row.serverRevision ≤ n) → Applicable s.Tombstoned ms →
    e = .invalidInput ∨ e = .storageRejected
  | [], _, _, h, _, _, _ => by cases h
  | m :: ms, n, s, h, hdense, hinbox, happlicable => by
    have hrevision : m.serverRevision = n + 1 := hdense.1
    rw [foldlM_cons] at h
    cases hm : applyEntry J P s m with
    | error e' =>
      rw [hm] at h
      cases h
      refine applyEntry_error hm (fun row hrow => ?_) (happlicable.alive m mem_cons_self)
      have := hinbox row hrow
      omega
    | ok t =>
      rw [hm] at h
      have ht := (EntriesApplied.refl s [m]).entry mem_cons_self hm
      refine applyEntries_error h hdense.2 (fun row hrow => ?_) ?_
      · rcases ht.inbox row hrow with hrow | ⟨x, hx, hrev, _⟩
        · exact Nat.le_succ_of_le (hinbox row hrow)
        · rw [hrev, mem_singleton.mp hx]
          exact le_of_eq hrevision
      · have hsplit : Applicable s.Tombstoned ([m] ++ ms) := happlicable
        exact (Applicable.append.mp hsplit).2.mono ht.tombstones

/-- A page with a right digest, that starts where the device stands, is not taken for the
last one and is applicable, fails with neither a conflict nor a wrong revision. -/
theorem applySyncPage_error {deviceId : String} {page : MutationPage H} {token : H}
    (h : applySyncPage J P s deviceId page token = .error e)
    (hdigest : page.pageDigest = P.sha256 page.digestInput)
    (hstart : page.fromServerRevisionExclusive = s.appliedThroughServerRevision)
    (hactive : ∀ r, s.reader deviceId = some r → r.status = .active)
    (hnew : ¬ (s.appliedThroughServerRevision = page.returnedThroughServerRevision ∧
      (s.reader deviceId).bind (·.lastPageDigest) = some page.pageDigest))
    (hinbox : ∀ row ∈ s.inbox, row.serverRevision ≤ s.appliedThroughServerRevision)
    (happlicable : Applicable s.Tombstoned page.mutations) :
    e = .invalidInput ∨ e = .storageRejected := by
  unfold applySyncPage at h
  split at h
  · cases h; exact .inl rfl
  split at h
  · cases h; exact .inl rfl
  rw [if_neg (not_not_intro hdigest)] at h
  split at h
  · cases h; exact .inl rfl
  next hwell =>
  have hdense : DenseFrom SyncMutation.serverRevision s.appliedThroughServerRevision
      page.mutations := by
    simp only [wellFormedPage, Bool.not_eq_true', Bool.not_eq_false, Bool.and_eq_true,
      decide_eq_true_eq] at hwell
    rw [← hstart]
    exact hwell.1.1.1
  have hstatus : (s.reader deviceId).any (fun r => decide (r.status ≠ .active)) = false :=
    (Option.any_eq_false _ _).mpr (by simpa using hactive)
  unfold commitPage at h
  simp only [hstatus, Bool.false_eq_true, if_false, if_neg hnew, hstart, ne_eq, not_true] at h
  split at h
  next herror =>
    cases h
    exact applyEntries_error herror hdense hinbox happlicable
  · cases h

end

end GoodDealer.Desktop
