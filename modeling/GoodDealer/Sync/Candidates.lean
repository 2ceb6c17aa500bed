/-
# `GoodDealer.Sync.Candidates` — where conflict candidates come from

An entry of the log becomes a candidate where it meets a pending local value.  It is not
asked which device wrote the entry, so a mutation of this device that comes back while the
field is still pending is recorded as a conflict with itself: its acknowledgement was lost,
or the field was edited again before the page arrived.

    ownFree_run          no candidate of this device, while no page brings back a mutation
                         of it that meets a pending value
    database_echo        such a page, as the cloud serves it
-/
import GoodDealer.Sync.Database
import GoodDealer.Sync.System

namespace GoodDealer.Sync

open Cloud Desktop Symbolic

variable {H V : Type}

/-! ## Mutations that come back -/

/-- The entry meets a pending local value. -/
def Contested (s : Store H) (m : SyncMutation) : Prop :=
  match m.mutation.operationKind with
  | .delete => s.EntityPending m.mutation.entityId
  | .upsert => ∃ f ∈ m.mutation.changedFields,
      s.FieldPending m.mutation.entityId (.sync f.fieldPath)

instance (s : Store H) (m : SyncMutation) : Decidable (Contested s m) :=
  match h : m.mutation.operationKind with
  | .delete => decidable_of_iff (s.EntityPending m.mutation.entityId) (by rw [Contested, h])
  | .upsert => decidable_of_iff (∃ f ∈ m.mutation.changedFields,
      s.FieldPending m.mutation.entityId (.sync f.fieldPath)) (by rw [Contested, h])

/-- No open conflict has a mutation of the device as its remote side. -/
def OwnFree (deviceId : String) (s : Store H) : Prop :=
  ∀ c ∈ s.conflicts, c.remoteSourceDeviceId ≠ deviceId

instance (deviceId : String) (s : Store H) : Decidable (OwnFree deviceId s) :=
  inferInstanceAs (Decidable (∀ c ∈ s.conflicts, _ ≠ _))

/-- A page brings a mutation of the device back only where nothing is pending any more. -/
def Unechoed (deviceId : String) (db : BusinessDatabase H V) : DatabaseEvent H V → Prop
  | .applyPage page _ => ∀ m ∈ page.mutations, m.mutation.sourceDeviceId = deviceId →
      ¬ Contested db.store m
  | .outbox _ | .resolve _ => True

instance (deviceId : String) (db : BusinessDatabase H V) :
    ∀ e, Decidable (Unechoed deviceId db e)
  | .applyPage page _ => inferInstanceAs (Decidable (∀ m ∈ page.mutations, _ → ¬ _))
  | .outbox _ | .resolve _ => isTrue trivial

section

variable {J : SerdeJson H} {P : Platform H} {deviceId : String} {m : SyncMutation} {s s' : Store H}

/-- A write of an entry adds no candidate but its own, and only where it is contested. -/
theorem mem_conflicts_of_entryWrite (h : EntryWrite J P m s s') {c : SyncConflict H}
    (hc : c ∈ s'.conflicts) :
    c ∈ s.conflicts ∨ Contested s m ∧ c.remoteSourceDeviceId = m.mutation.sourceDeviceId := by
  cases h with
  | candidate upsert field pending =>
    rcases List.mem_append.mp hc with hc | hc
    · exact .inl hc
    · rw [List.mem_singleton.mp hc]
      refine .inr ⟨?_, rfl⟩
      rw [Contested, upsert]
      exact ⟨_, field, pending⟩
  | contest delete pending =>
    rcases List.mem_append.mp hc with hc | hc
    · exact .inl hc
    · rw [List.mem_singleton.mp hc]
      refine .inr ⟨?_, rfl⟩
      rw [Contested, delete]
      exact pending
  | contestAgain | delete | ensure | field => exact .inl hc

theorem contested_of_pending (hpending : ∀ e path, s'.FieldPending e path → s.FieldPending e path)
    (h : Contested s' m) : Contested s m := by
  unfold Contested at h ⊢
  split at h
  · obtain ⟨path, hpath⟩ := Store.entityPending_iff.mp h
    exact Store.entityPending_iff.mpr ⟨path, hpending _ _ hpath⟩
  · obtain ⟨f, hf, hp⟩ := h
    exact ⟨f, hf, hpending _ _ hp⟩

/-- The page keeps what the writes of its entries keep. -/
theorem ownFree_page [DecidableEq H] {page : MutationPage H} {t : Store H}
    (hpage : PageEntries J P s page t)
    (hunechoed : ∀ m ∈ page.mutations, m.mutation.sourceDeviceId = deviceId → ¬ Contested s m)
    (hs : OwnFree deviceId s) : OwnFree deviceId t := by
  -- no field becomes pending on the way, so the condition on `s` speaks of every entry
  let I (t : Store H) : Prop :=
    OwnFree deviceId t ∧ ∀ e path, t.FieldPending e path → s.FieldPending e path
  suffices h : I t from h.1
  refine hpage.inv (K := I) (fun m _ u _ hu => hu) ?_ (fun u row hu => hu) ⟨hs, fun _ _ h => h⟩
  intro m hm u u' ⟨hfree, hpending⟩ hwrite
  refine ⟨fun c hc => ?_, fun e path h => hpending e path ((hwrite.fieldPending e path).mp h)⟩
  rcases mem_conflicts_of_entryWrite hwrite hc with hc | ⟨hcontested, hsource⟩
  · exact hfree c hc
  · intro heq
    exact hunechoed m hm (hsource.symm.trans heq) (contested_of_pending hpending hcontested)

theorem ownFree_step [DecidableEq H] [DecidableEq V] {hash : ConflictValue → V}
    (db : BusinessDatabase H V) (e : DatabaseEvent H V) (db' : BusinessDatabase H V)
    (hdb : OwnFree deviceId db.store) (he : Unechoed deviceId db e)
    (hstep : DatabaseStep J P hash deviceId db e db') : OwnFree deviceId db'.store := by
  cases hstep with
  | same | commit => exact hdb
  | claim writes =>
    refine chain_inv (I := OwnFree deviceId) (fun t t' ht hwrite => ?_) hdb writes
    cases hwrite
    exact ht
  | settle writes =>
    refine chain_inv (I := OwnFree deviceId) (fun t t' ht hwrite => ?_) hdb writes
    cases hwrite <;> exact ht
  | page entries =>
    have h := ownFree_page entries he hdb
    exact h
  | @resolve r c s' resolved =>
    have hsame : s'.conflicts = db.store.conflicts := by
      cases resolved.write <;> rfl
    intro x hx
    have hx' := (Keyed.mem_remove.mp hx).1
    rw [hsame] at hx'
    exact hdb x hx'

end

/-- In every run in which each mutation of this device comes back only where nothing is
pending any more, no open conflict has a mutation of this device as its remote side. -/
theorem ownFree_run [DecidableEq H] [DecidableEq V] (J : SerdeJson H) (P : Platform H)
    (hash : ConflictValue → V) (deviceId : String) (db : BusinessDatabase H V)
    (hdb : OwnFree deviceId db.store) (es : List (DatabaseEvent H V))
    (hrun : (database J P hash deviceId).Along (Unechoed deviceId) db es) :
    OwnFree deviceId ((database J P hash deviceId).run db es).store :=
  database_inv (I := fun db => OwnFree deviceId db.store) ownFree_step hdb hrun

/-- The mutation of the first sample edit. -/
def sampleSent : SubmittedSyncMutationWire :=
  (sampleEdit "mine").mutation (sampleRequest "edit" 1) 0 1

/-- The edit is acknowledged before the page brings it back. -/
theorem ownFree_run_acknowledged :
    OwnFree "device" (sampleRun [sampleCommit "edit" 1 "mine", sampleClaim 2, sampleAcknowledge 1,
        samplePull 0 [sampleSent]]).store :=
  ownFree_run _ _ _ _ _ (by decide) _ (by decide)

/-- The acknowledgement is lost: the cloud serves the edit, and the desktop records it as a
conflict with itself. -/
theorem database_echo :
    (sampleSynced [.mutate (sampleRequest "edit" 1) (sampleEdit "mine"), .claim "owner" 2 100 256,
        .push 0 samplePorts, .request 256, .openReader 0, .pull 0]).deliveries.map
        (fun d => d.2.page) = [samplePage 0 [sampleSent]] ∧
    ¬ OwnFree "device" (sampleRun
      [sampleCommit "edit" 1 "mine", sampleClaim 2, samplePull 0 [sampleSent]]).store := by
  decide

end GoodDealer.Sync
