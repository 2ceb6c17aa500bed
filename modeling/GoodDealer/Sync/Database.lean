/-
# `GoodDealer.Sync.Database` — every run of the local database

The business database of one desktop as a machine.  Local mutations, the delivery cycle,
pages of the log and conflict resolutions come in any order and with any arguments: an
acknowledgement can be lost or late, a page can repeat what this device sent.

`DatabaseStep` says what one transaction can do, and `database_inv` is the rule by which
every invariant of this machine is shown.
-/
import GoodDealer.Desktop.Transactions
import GoodDealer.Sync.OutboxRun

namespace GoodDealer.Sync

open Desktop Symbolic
open Cloud (sampleNote)
open Relation (ReflTransGen)

variable {H V : Type}

/-- A transaction of the business database. -/
inductive DatabaseEvent (H V : Type) where
  | outbox (event : OutboxEvent H)
  | applyPage (page : MutationPage H) (confirmationToken : H)
  | resolve (request : ResolutionRequest V)

/-- The business database of the desktop `deviceId`; `hash` digests the values of candidates. -/
def database [DecidableEq H] [DecidableEq V] (J : SerdeJson H) (P : Platform H)
    (hash : ConflictValue → V) (deviceId : String) :
    Machine (BusinessDatabase H V) (DatabaseEvent H V) (OutboxReply H) where
  step db
    | .outbox e =>
      ({ db with store := ((outbox J P).step db.store e).1 }, ((outbox J P).step db.store e).2)
    | .applyPage page token =>
      match applySyncPage J P db.store deviceId page token with
      | .error e => (db, .failed e)
      | .ok (s', _) => ({ db with store := s' }, .done)
    | .resolve r =>
      match resolveSyncConflict J hash db r with
      | .error e => (db, .failed e)
      | .ok (db', _) => (db', .done)

/-- A completion is the chain of its writes, or nothing. -/
theorem of_chain {s : Store H} {res : Except BusinessDatabaseError (Store H)}
    (h : ∀ s', res = .ok s' → ReflTransGen SettleWrite s s') :
    ReflTransGen SettleWrite s (OutboxReply.of s res).1 := by
  cases res with
  | error e => exact .refl
  | ok s' => exact h s' rfl

section

variable [DecidableEq H] [DecidableEq V] {J : SerdeJson H} {P : Platform H}
  {hash : ConflictValue → V} {deviceId : String}

variable (J : SerdeJson H) (P : Platform H) (hash : ConflictValue → V) (deviceId : String)
  (db : BusinessDatabase H V) in
/-- What a transaction does to the database. -/
inductive DatabaseStep : DatabaseEvent H V → BusinessDatabase H V → Prop where
  /-- Rolled back, or a replay. -/
  | same (e : DatabaseEvent H V) : DatabaseStep e db
  | commit {r : MutationRequest} {op : LocalOperation} (committed : Committed db.store r op) :
      DatabaseStep (.outbox (.commit r op))
        { db with store := db.store.mutated r op }
  | claim {owner : String} {now lease : Timestamp} {limit : Nat}
      (writes : ReflTransGen ClaimWrite db.store
        ((outbox J P).next db.store (.claim owner now lease limit))) :
      DatabaseStep (.outbox (.claim owner now lease limit))
        { db with store := (outbox J P).next db.store (.claim owner now lease limit) }
  | settle {e : OutboxEvent H}
      (writes : ReflTransGen SettleWrite db.store ((outbox J P).next db.store e)) :
      DatabaseStep (.outbox e)
        { db with store := (outbox J P).next db.store e }
  | page {page : MutationPage H} {token : H} {t : Store H}
      (entries : PageEntries J P db.store page t) :
      DatabaseStep (.applyPage page token)
        { db with store := t.recordPage deviceId page token }
  | resolve {r : ResolutionRequest V} {c : SyncConflict H} {s' : Store H}
      (resolved : Resolved hash db r c s') :
      DatabaseStep (.resolve r)
        ⟨s'.closeConflict J c, db.resolved ++ [c], db.receipts ++ [r.receipt]⟩

theorem database_outbox_step (db : BusinessDatabase H V) (e : OutboxEvent H) :
    DatabaseStep J P hash deviceId db (.outbox e)
      { db with store := (outbox J P).next db.store e } := by
  cases e with
  | commit r op =>
    show DatabaseStep J P hash deviceId db _ { db with store :=
      (OutboxReply.of db.store ((localMutation db.store r op).map (·.1))).1 }
    cases h : localMutation db.store r op with
    | error e => exact .same _
    | ok res =>
      obtain ⟨s', receipt⟩ := res
      rcases (mutateDomainAsset_committed (mutateDomainAsset_of_local h)).2 with
        ⟨hsame, _⟩ | ⟨hcommitted, _, hnext, _⟩
      · show DatabaseStep J P hash deviceId db _ { db with store := s' }
        rw [hsame]
        exact .same _
      · show DatabaseStep J P hash deviceId db _ { db with store := s' }
        rw [hnext]
        exact .commit hcommitted
  | claim owner now lease limit =>
    refine .claim ?_
    show ReflTransGen ClaimWrite db.store ((outbox J P).step db.store _).1
    simp only [outbox]
    split
    · exact .refl
    next h => exact claimSyncMutations_chain h
  | acknowledge owner as => exact .settle (of_chain fun _ h => acknowledgeSyncBatch_chain h)
  | defer owner cs now => exact .settle (of_chain fun _ h => deferRetryableSyncBatch_chain h)
  | reject owner cs conflicted => exact .settle (of_chain fun _ h => rejectSyncBatch_chain h)

theorem database_step (db : BusinessDatabase H V) (e : DatabaseEvent H V) :
    DatabaseStep J P hash deviceId db e ((database J P hash deviceId).next db e) := by
  cases e with
  | outbox e => exact database_outbox_step db e
  | applyPage page token =>
    simp only [Machine.next, database]
    split
    · exact .same _
    next s' effect h =>
      rcases (applySyncPage_cases h).2 with rfl | ⟨t, hentries, _, rfl⟩
      · exact .same _
      · exact .page hentries
  | resolve r =>
    simp only [Machine.next, database]
    split
    · exact .same _
    next db' receipt h =>
      rcases resolveSyncConflict_cases h with rfl | ⟨c, s', hresolved, rfl⟩
      · exact .same _
      · exact .resolve hresolved

/-- What every transaction under the condition keeps, holds in every state such a run
reaches. -/
theorem database_inv {I : BusinessDatabase H V → Prop}
    {G : BusinessDatabase H V → DatabaseEvent H V → Prop}
    (hstep : ∀ db e db', I db → G db e → DatabaseStep J P hash deviceId db e db' → I db')
    {db : BusinessDatabase H V} {es : List (DatabaseEvent H V)} (hdb : I db)
    (hrun : (database J P hash deviceId).Along G db es) :
    I ((database J P hash deviceId).run db es) :=
  (database J P hash deviceId).run_inv
    (fun db e hI hG => hstep db e _ hI hG (database_step db e)) hdb hrun

/-- The primary key of `sync_outbox` holds in every state. -/
theorem uniqueMutationIds_step (db : BusinessDatabase H V) (e : DatabaseEvent H V)
    (db' : BusinessDatabase H V) (hdb : db.store.UniqueMutationIds)
    (hstep : DatabaseStep J P hash deviceId db e db') : db'.store.UniqueMutationIds := by
  cases hstep with
  | same => exact hdb
  | commit committed => exact hdb.append committed.fresh
  | claim => exact outbox_uniqueMutationIds hdb _
  | @settle e _ => exact outbox_uniqueMutationIds hdb e
  | page entries =>
    show (List.map OutboxRow.mutationId _).Nodup
    rw [show ∀ (t : Store H) d p k, (t.recordPage d p k).outbox = t.outbox from
      fun _ _ _ _ => rfl, (applyEntries_ok entries.entries).outbox]
    exact hdb
  | resolve resolved =>
    cases resolved.write with
    | acceptField | acceptDelete => exact hdb
    | keep _ _ _ _ fresh => exact hdb.append fresh

end

/-! ## The sample desktop -/

/-- The sample desktop; a value is its own hash. -/
def sampleDatabase : BusinessDatabase Symbolic ConflictValue := ⟨sampleStore, [], []⟩

def sampleRun (es : List (DatabaseEvent Symbolic ConflictValue)) :
    BusinessDatabase Symbolic ConflictValue :=
  (database sampleJson platform id "device").run sampleDatabase es

/-- The page of the mutations the log has after `start`. -/
def samplePage (start : Nat) (mutations : List SubmittedSyncMutationWire) :
    MutationPage Symbolic :=
  let entries : List SyncMutation :=
    ((mutations.filterMap SubmittedSyncMutation.parse).zipIdx (start + 1)).map
      (fun (m, revision) => ⟨"workspace", m, revision⟩)
  let page : MutationPage Symbolic :=
    ⟨"workspace", start, start + entries.length, entries, start + entries.length, none,
      platform.literal ""⟩
  { page with pageDigest := platform.sha256 page.digestInput }

/-- A page of the log is applied with some confirmation token. -/
def samplePull (start : Nat) (mutations : List SubmittedSyncMutationWire) :
    DatabaseEvent Symbolic ConflictValue :=
  .applyPage (samplePage start mutations) (platform.literal "confirm")

/-- An edit of the note of the sample asset. -/
def sampleCommit (mutationId : String) (version : Nat) (note : String) :
    DatabaseEvent Symbolic ConflictValue :=
  .outbox (.commit (sampleRequest mutationId version) (sampleEdit note))

/-- The open rows of the outbox are claimed. -/
def sampleClaim (now : Timestamp) : DatabaseEvent Symbolic ConflictValue :=
  .outbox (.claim "owner" now (now + 98) 256)

/-- The acknowledgement of the first sample edit. -/
def sampleAcknowledge (serverRevision : Nat) : DatabaseEvent Symbolic ConflictValue :=
  .outbox (.acknowledge "owner" (sampleClaimed.2.claimed.map (⟨·, serverRevision⟩)))

/-- A note of another device. -/
def sampleTheirs : SubmittedSyncMutationWire :=
  { sampleNote "other" 1 with sourceDeviceId := "other-device" }

/-- The candidate of that note is resolved, while the local note is "mine". -/
def sampleResolve (choice : ResolutionChoice) : DatabaseEvent Symbolic ConflictValue :=
  .resolve ⟨"resolution", "conflict-other-note", 1, 1, 1, .field (.note (some "mine")), choice,
    "device", 1, 5⟩

end GoodDealer.Sync
