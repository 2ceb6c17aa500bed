/-
# `GoodDealer.Cloud.Reader` — reader cursors and the durable pull

The operations of `PostgresReaderCursorService`.  A reader opens a cursor at a
revision and pulls pages; each page is first stored as a pending delivery, and
the cursor advances only when a later pull presents the delivery's confirmation
token.  A pull that presents the token of the delivery before it is a replay and
gets the stored page again.

`pullV2` is one transaction; `none` is a thrown error.
-/
import GoodDealer.Cloud.Checkpoint

namespace GoodDealer.Cloud

variable {H : Type} {P : Platform H} {c : ReaderCursor H} {w : Workspace H} {ttl : LeaseTtl}
  {deviceId : String}

/-- `leaseTtlSeconds`, within the bounds of `assertTtl`. -/
structure LeaseTtl where
  seconds : Nat
  valid : 1 ≤ seconds ∧ seconds ≤ 86400

/-- The end of a lease taken now. -/
def LeaseTtl.expiry (ttl : LeaseTtl) (now : Instant) : Instant := now + ttl.seconds * 1000000

/-- `PersistentReaderCursorRejectionCode`; a bound workspace always resolves. -/
inductive PersistentReaderCursorRejectionCode where
  | unknown
  | retired
  | ttlExpired
  | compactionRace
  | deviceRemoved
  | revisionRegression
  | stalePresentation
  | storageInvalid
deriving DecidableEq

inductive PersistentReaderCursorResult (H : Type) where
  | accepted (cursor : ReaderCursor H) (continuationToken : Option H)
  | rejected (code : PersistentReaderCursorRejectionCode)
deriving DecidableEq

variable (P)

/-- `matchesTokenDigest`. -/
def matchesTokenDigest [DecidableEq H] : Option H → Option H → Bool
  | none, none => true
  | some expected, some token => expected = P.sha256 (.token token)
  | _, _ => false

/-! ## Cursor rows -/

/-- Write back one cursor row. -/
def Workspace.setReader (w : Workspace H) (c : ReaderCursor H) : Workspace H :=
  { w with readers := Keyed.adjust ReaderCursor.deviceId c.deviceId (fun _ => c) w.readers }

/-- `retireIfExpired`: the row version must be able to advance, expired or not. -/
def retireIfExpired (now : Instant) (c : ReaderCursor H) : Option (Option (ReaderCursor H)) :=
  if maxSafeInteger ≤ c.rowVersion then none
  else if c.isExpired now then some (some (c.retire .ttlExpired)) else some none

/-- `device_removed` is reported before the retirement itself. -/
def retirementCode : RetirementReason → PersistentReaderCursorRejectionCode
  | .deviceRemoved => .deviceRemoved
  | _ => .retired

/-! ## Opening, reopening, renewing -/

/-- `open`. -/
def openReader (ttl : LeaseTtl) (w : Workspace H) (deviceId : String) (atRevision : Nat) :
    Option (Workspace H × PersistentReaderCursorResult H) :=
  if !validIdentifier deviceId || maxSafeInteger < atRevision then none
  else if atRevision < w.log.compactedThroughServerRevision then
    some (w, .rejected .compactionRace)
  else if w.log.serverRevision < atRevision then some (w, .rejected .revisionRegression)
  else
    match w.reader deviceId with
    | none =>
      let created : ReaderCursor H :=
        { deviceId := deviceId
          generation := 1
          rowVersion := 1
          readThroughServerRevision := atRevision
          leaseExpiresAt := ttl.expiry w.now
          lifecycle := .active none }
      some ({ w with readers := w.readers ++ [created] }, .accepted created none)
    | some existing =>
      match existing.lifecycle with
      | .retired reason => some (w, .rejected (retirementCode reason))
      | .active page =>
        match retireIfExpired w.now existing with
        | none => none
        | some (some retired) => some (w.setReader retired, .rejected .ttlExpired)
        | some none =>
          if existing.readThroughServerRevision ≠ atRevision ∨ page.isSome then
            some (w, .rejected .revisionRegression)
          else some (w, .accepted existing none)

/-- `reopenAfterRebootstrap`: a new generation from the baseline. -/
def reopenAfterRebootstrap (ttl : LeaseTtl) (w : Workspace H) (deviceId : String)
    (baselineServerRevision generation rowVersion : Nat) :
    Option (Workspace H × PersistentReaderCursorResult H) :=
  if !validIdentifier deviceId || maxSafeInteger < baselineServerRevision then none
  else if baselineServerRevision < w.log.compactedThroughServerRevision then
    some (w, .rejected .compactionRace)
  else if w.log.serverRevision < baselineServerRevision then
    some (w, .rejected .revisionRegression)
  else
    match w.reader deviceId with
    | none => some (w, .rejected .unknown)
    | some c =>
      match c.lifecycle with
      | .active _ => some (w, .rejected .retired)
      | .retired .deviceRemoved => some (w, .rejected .deviceRemoved)
      | .retired _ =>
        if c.generation ≠ generation ∨ c.rowVersion ≠ rowVersion then
          some (w, .rejected .stalePresentation)
        else if maxSafeInteger ≤ c.generation ∨ maxSafeInteger ≤ c.rowVersion then none
        else
          let reopened : ReaderCursor H :=
            { deviceId := deviceId
              generation := c.generation + 1
              rowVersion := c.rowVersion + 1
              readThroughServerRevision := baselineServerRevision
              leaseExpiresAt := ttl.expiry w.now
              lifecycle := .active none }
          some (w.setReader reopened, .accepted reopened none)

/-- `renew`. -/
def renew [DecidableEq H] (ttl : LeaseTtl) (w : Workspace H) (deviceId : String)
    (generation rowVersion : Nat) (continuationToken : Option H) :
    Option (Workspace H × PersistentReaderCursorResult H) :=
  if !validIdentifier deviceId then none
  else
    match w.reader deviceId with
    | none => some (w, .rejected .unknown)
    | some c =>
      match c.lifecycle with
      | .retired reason => some (w, .rejected (retirementCode reason))
      | .active _ =>
        match retireIfExpired w.now c with
        | none => none
        | some (some retired) => some (w.setReader retired, .rejected .ttlExpired)
        | some none =>
          if c.generation ≠ generation ∨ c.rowVersion ≠ rowVersion ∨
              matchesTokenDigest P c.continuationTokenDigest continuationToken = false then
            some (w, .rejected .stalePresentation)
          else if c.readThroughServerRevision < w.log.compactedThroughServerRevision then
            some (w.setReader (c.retire .compactionRace), .rejected .compactionRace)
          else
            let renewed : ReaderCursor H :=
              { c with
                rowVersion := c.rowVersion + 1
                leaseExpiresAt := ttl.expiry w.now }
            some (w.setReader renewed, .accepted renewed continuationToken)

/-- `retireForDeviceRemoval`. -/
def retireForDeviceRemoval (w : Workspace H) (deviceId : String) : Option (Workspace H × Unit) :=
  if !validIdentifier deviceId then none
  else
    match w.reader deviceId with
    | none => some (w, ())
    | some c =>
      if !c.isActive then some (w, ())
      else if maxSafeInteger ≤ c.rowVersion then none
      else some (w.setReader (c.retire .deviceRemoved), ())

/-! ## Pages -/

/-- `readPage`. -/
def readPage [DecidableEq H] (l : MutationLog)
    (fromServerRevisionExclusive throughServerRevisionInclusive pageLimit : Nat) :
    Option (MutationPage H) :=
  let last := min throughServerRevisionInclusive (fromServerRevisionExclusive + pageLimit)
  let mutations := l.readRange fromServerRevisionExclusive last
  if last < fromServerRevisionExclusive then none
  else if mutations.length ≠ last - fromServerRevisionExclusive ∨
      ¬ DenseFrom SyncMutation.serverRevision fromServerRevisionExclusive mutations then none
  else
    let draft : MutationPage H :=
      { workspaceId := l.workspaceId
        fromServerRevisionExclusive := fromServerRevisionExclusive
        throughServerRevisionInclusive := throughServerRevisionInclusive
        mutations := mutations
        returnedThroughServerRevision := last
        nextCursor := if last = throughServerRevisionInclusive then none
          else some (P.literal "pending-reader-cursor")
        pageDigest := P.literal "AAAAAAAAAAAAAAAAAAAAAAAAAAAAAAAAAAAAAAAAAAA" }
    let page := { draft with pageDigest := P.sha256 draft.digestInput }
    if page.Valid then some page else none

/-- Replace the placeholder cursor of a page by a token and seal the page. -/
def signPage (reader : ReaderBinding) (fromRevision through target : Nat)
    (expiresAt : Timestamp) (base : MutationPage H) : MutationPage H :=
  let unsigned :=
    { base with
      nextCursor := base.nextCursor.map
        (fun _ => P.hmacSha256 (.cursor reader fromRevision through target expiresAt))
      pageDigest := P.literal "AAAAAAAAAAAAAAAAAAAAAAAAAAAAAAAAAAAAAAAAAAA" }
  { unsigned with pageDigest := P.sha256 unsigned.digestInput }

/-- `digestToken`. -/
def digestToken (token : H) : H := P.sha256 (.token token)

variable {P}

theorem digestToken_inj (hP : P.Injective) {a b : H}
    (h : digestToken P a = digestToken P b) : a = b := by
  injection hP.sha256 h

theorem matchesTokenDigest_iff [DecidableEq H] {expected token : Option H} :
    matchesTokenDigest P expected token = true ↔ expected = token.map (digestToken P) := by
  cases expected <;> cases token <;> simp [matchesTokenDigest, digestToken]

/-! ## Pulling -/

/-- `workspaceMutationPullRequestSchema`. -/
structure PullRequest (H : Type) where
  afterServerRevision : Nat
  cursor : Option H
  confirm : Option H
  pageLimit : Nat
deriving DecidableEq

namespace PullRequest

def Valid (r : PullRequest H) : Prop :=
  r.afterServerRevision ≤ maxSafeInteger ∧ 1 ≤ r.pageLimit ∧ r.pageLimit ≤ maxMutationsPerPage

instance (r : PullRequest H) : Decidable r.Valid := inferInstanceAs (Decidable (_ ∧ _))

end PullRequest

/-- An accepted pull. -/
structure PullDelivery (H : Type) where
  page : MutationPage H
  confirmedThrough : Nat
  pendingDelivery : PendingDelivery H
  confirmToken : H
deriving DecidableEq

inductive PersistentReaderPullResult (H : Type) where
  | accepted (delivery : PullDelivery H)
  | rejected (code : PersistentReaderCursorRejectionCode)
deriving DecidableEq

/-- The reader a token is bound to. -/
def Workspace.readerBinding (w : Workspace H) (c : ReaderCursor H) : ReaderBinding :=
  ⟨w.accountId, w.log.workspaceId, c.deviceId, c.generation⟩

variable (P)

/-- `assertPage`. -/
def assertPage [DecidableEq H] (page : MutationPage H) (workspaceId : String)
    (fromRevision target : Nat) : Bool :=
  page.workspaceId = workspaceId && page.fromServerRevisionExclusive = fromRevision &&
    page.throughServerRevisionInclusive = target && page.pageDigest = P.sha256 page.digestInput

/-- `assertPendingDelivery`. -/
def assertPendingDelivery (p : PendingDelivery H) (c : ReaderCursor H) : Bool :=
  1 ≤ p.pageLimit && p.pageLimit ≤ 256 &&
    p.fromServerRevisionExclusive ≤ p.throughServerRevisionInclusive &&
    p.throughServerRevisionInclusive ≤ p.targetServerRevision &&
    p.fromServerRevisionExclusive = c.readThroughServerRevision

/-- `#createPending`. -/
def createPending [DecidableEq H] (ttl : LeaseTtl) (w : Workspace H)
    (c : ReaderCursor H) (target pageLimit : Nat) (predecessorConfirmationDigest : Option H) :
    Option (Workspace H × PersistentReaderPullResult H) :=
  let expiresAt := secondOf (ttl.expiry w.now)
  match readPage P w.log c.readThroughServerRevision target pageLimit with
  | none => none
  | some base =>
    if !assertPage P base w.log.workspaceId c.readThroughServerRevision target then none
    else
      let page := signPage P (w.readerBinding c) base.fromServerRevisionExclusive
        base.returnedThroughServerRevision target expiresAt base
      let confirmToken := P.hmacSha256 (.confirm (w.readerBinding c)
        page.fromServerRevisionExclusive page.returnedThroughServerRevision target
        page.pageDigest (page.nextCursor.map (digestToken P)) predecessorConfirmationDigest
        expiresAt)
      let pending : PendingDelivery H :=
        { deviceId := c.deviceId
          generation := c.generation
          fromServerRevisionExclusive := page.fromServerRevisionExclusive
          throughServerRevisionInclusive := page.returnedThroughServerRevision
          targetServerRevision := target
          pageLimit := pageLimit
          pageDigest := page.pageDigest
          nextCursorDigest := page.nextCursor.map (digestToken P)
          predecessorConfirmationDigest := predecessorConfirmationDigest
          confirmationTokenDigest := digestToken P confirmToken
          expiresAt := expiresAt }
      if ¬ page.Valid ∨ assertPendingDelivery pending c = false ∨
          (w.delivery c.deviceId).isSome then none
      else
        some ({ w with deliveries := w.deliveries ++ [pending] },
          .accepted ⟨page, c.readThroughServerRevision, pending, confirmToken⟩)

/-- `confirmPendingDelivery`: delete the delivery and advance the cursor to its end. -/
def confirmPendingDelivery [DecidableEq H] (ttl : LeaseTtl) (w : Workspace H) (c : ReaderCursor H)
    (pending : PendingDelivery H) (confirmationTokenDigest : H) :
    Option (Workspace H × ReaderCursor H) :=
  if pending.generation ≠ c.generation ∨
      pending.fromServerRevisionExclusive ≠ c.readThroughServerRevision ∨
      pending.confirmationTokenDigest ≠ confirmationTokenDigest ∨
      instantOf pending.expiresAt ≤ w.now ∨ maxSafeInteger ≤ c.rowVersion ∨
      (pending.nextCursorDigest.isSome ∧
        pending.targetServerRevision ≤ pending.throughServerRevisionInclusive) then none
  else
    let advanced : ReaderCursor H :=
      { c with
        rowVersion := c.rowVersion + 1
        readThroughServerRevision := pending.throughServerRevisionInclusive
        leaseExpiresAt := ttl.expiry w.now
        lifecycle := .active (pending.nextCursorDigest.map
          (fun d => ⟨pending.targetServerRevision, d⟩)) }
    some ({ w.setReader advanced with
      deliveries := Keyed.remove PendingDelivery.deviceId c.deviceId w.deliveries }, advanced)

/-- `#replayPending`. -/
def replayPending [DecidableEq H] (w : Workspace H) (c : ReaderCursor H)
    (pending : PendingDelivery H) : Option (PersistentReaderPullResult H) :=
  match readPage P w.log pending.fromServerRevisionExclusive pending.targetServerRevision
      pending.pageLimit with
  | none => none
  | some base =>
    let page := signPage P (w.readerBinding c) pending.fromServerRevisionExclusive
      pending.throughServerRevisionInclusive pending.targetServerRevision pending.expiresAt base
    if ¬ page.Valid then none
    else if page.returnedThroughServerRevision ≠ pending.throughServerRevisionInclusive ∨
        pending.pageDigest ≠ page.pageDigest ∨
        matchesTokenDigest P pending.nextCursorDigest page.nextCursor = false then
      some (.rejected .storageInvalid)
    else
      let confirmToken := P.hmacSha256 (.confirm (w.readerBinding c)
        pending.fromServerRevisionExclusive pending.throughServerRevisionInclusive
        pending.targetServerRevision page.pageDigest pending.nextCursorDigest
        pending.predecessorConfirmationDigest pending.expiresAt)
      if matchesTokenDigest P (some pending.confirmationTokenDigest) (some confirmToken) = false
      then some (.rejected .storageInvalid)
      else some (.accepted ⟨page, c.readThroughServerRevision, pending, confirmToken⟩)

/-- `pullV2` on an active cursor at or above the watermark. -/
def pullActive [DecidableEq H] (ttl : LeaseTtl) (w : Workspace H)
    (c : ReaderCursor H) (r : PullRequest H) :
    Option (Workspace H × PersistentReaderPullResult H) :=
  match w.delivery c.deviceId with
  | none =>
    if r.confirm.isSome ∨ r.afterServerRevision ≠ c.readThroughServerRevision ∨
        matchesTokenDigest P c.continuationTokenDigest r.cursor = false then
      some (w, .rejected .stalePresentation)
    else
      createPending P ttl w c (c.pinnedPageTargetServerRevision.getD w.log.serverRevision)
        r.pageLimit none
  | some pending =>
    if pending.generation ≠ c.generation then none
    else if instantOf pending.expiresAt ≤ w.now then some (w, .rejected .stalePresentation)
    else if matchesTokenDigest P (some pending.confirmationTokenDigest) r.confirm then
      if r.afterServerRevision ≠ pending.throughServerRevisionInclusive ∨
          matchesTokenDigest P pending.nextCursorDigest r.cursor = false then
        some (w, .rejected .stalePresentation)
      else
        match r.confirm with
        | none => none
        | some token =>
          match confirmPendingDelivery ttl w c pending (digestToken P token) with
          | none => none
          | some (w', current) =>
            createPending P ttl w' current
              (current.pinnedPageTargetServerRevision.getD w.log.serverRevision) r.pageLimit
              (some (digestToken P token))
    else if matchesTokenDigest P pending.predecessorConfirmationDigest r.confirm then
      if r.afterServerRevision ≠ c.readThroughServerRevision ∨
          matchesTokenDigest P c.continuationTokenDigest r.cursor = false then
        some (w, .rejected .stalePresentation)
      else (replayPending P w c pending).map (fun result => (w, result))
    else some (w, .rejected .stalePresentation)

/-- `pullV2`. -/
def pullV2 [DecidableEq H] (ttl : LeaseTtl) (w : Workspace H) (deviceId : String)
    (r : PullRequest H) : Option (Workspace H × PersistentReaderPullResult H) :=
  if !validIdentifier deviceId || !decide r.Valid then none
  else
    match w.reader deviceId with
    | none => some (w, .rejected .unknown)
    | some c =>
      match c.lifecycle with
      | .retired reason => some (w, .rejected (retirementCode reason))
      | .active _ =>
        match retireIfExpired w.now c with
        | none => none
        | some (some retired) => some (w.setReader retired, .rejected .ttlExpired)
        | some none =>
          if c.readThroughServerRevision < w.log.compactedThroughServerRevision then
            some (w.setReader (c.retire .compactionRace), .rejected .compactionRace)
          else pullActive P ttl w c r

/-! ## What is served

Both a new delivery and a replayed one are a function of the reader, the log
range and the stored parameters; `issue` is that function. -/

/-- The sealed page of the range from `fromRevision`, on the way to `target`. -/
def servedPage (reader : ReaderBinding) (l : MutationLog)
    (fromRevision target pageLimit : Nat) (expiresAt : Timestamp) : MutationPage H :=
  let last := min target (fromRevision + pageLimit)
  let unsigned : MutationPage H :=
    { workspaceId := l.workspaceId
      fromServerRevisionExclusive := fromRevision
      throughServerRevisionInclusive := target
      mutations := l.readRange fromRevision last
      returnedThroughServerRevision := last
      nextCursor := if last = target then none
        else some (P.hmacSha256 (.cursor reader fromRevision last target expiresAt))
      pageDigest := P.literal "AAAAAAAAAAAAAAAAAAAAAAAAAAAAAAAAAAAAAAAAAAA" }
  { unsigned with pageDigest := P.sha256 unsigned.digestInput }

/-- The delivery of that page. -/
def issue (reader : ReaderBinding) (l : MutationLog)
    (fromRevision target pageLimit : Nat) (predecessorConfirmationDigest : Option H)
    (expiresAt : Timestamp) : PullDelivery H :=
  let page := servedPage P reader l fromRevision target pageLimit expiresAt
  let confirmToken := P.hmacSha256 (.confirm reader page.fromServerRevisionExclusive
    page.returnedThroughServerRevision target page.pageDigest
    (page.nextCursor.map (digestToken P)) predecessorConfirmationDigest expiresAt)
  { page := page
    confirmedThrough := fromRevision
    pendingDelivery :=
      { deviceId := reader.deviceId
        generation := reader.generation
        fromServerRevisionExclusive := page.fromServerRevisionExclusive
        throughServerRevisionInclusive := page.returnedThroughServerRevision
        targetServerRevision := target
        pageLimit := pageLimit
        pageDigest := page.pageDigest
        nextCursorDigest := page.nextCursor.map (digestToken P)
        predecessorConfirmationDigest := predecessorConfirmationDigest
        confirmationTokenDigest := digestToken P confirmToken
        expiresAt := expiresAt }
    confirmToken := confirmToken }

variable {P}

/-- Bounds a page can be read from: the log still has the range, and the limit is legal. -/
structure PageBounds (l : MutationLog) (fromRevision target pageLimit : Nat) : Prop where
  retained : l.compactedThroughServerRevision ≤ fromRevision
  ordered : fromRevision ≤ target
  known : target ≤ l.serverRevision
  positive : 1 ≤ pageLimit
  bounded : pageLimit ≤ maxMutationsPerPage

namespace PageBounds

variable {l : MutationLog} {a t n : Nat} (h : PageBounds l a t n)

include h

theorem from_le_last : a ≤ min t (a + n) :=
  Nat.le_min.mpr ⟨h.ordered, Nat.le_add_right ..⟩

theorem last_le_head : min t (a + n) ≤ l.serverRevision :=
  Nat.le_trans (Nat.min_le_left ..) h.known

theorem dense : DenseFrom SyncMutation.serverRevision a (l.readRange a (min t (a + n))) :=
  MutationLog.readRange_dense h.retained h.from_le_last h.last_le_head

theorem length : (l.readRange a (min t (a + n))).length = min t (a + n) - a :=
  MutationLog.readRange_length h.retained h.from_le_last h.last_le_head

/-- A page over these bounds passes the page schema, with a cursor iff it stops short. -/
theorem page_valid {p : MutationPage H}
    (hw : p.workspaceId = l.workspaceId) (hf : p.fromServerRevisionExclusive = a)
    (ht : p.throughServerRevisionInclusive = t)
    (hm : p.mutations = l.readRange a (min t (a + n)))
    (hr : p.returnedThroughServerRevision = min t (a + n))
    (hn : p.nextCursor = none ↔ min t (a + n) = t) : p.Valid where
  length := by
    rw [hm, h.length]
    have := h.bounded
    omega
  mutations := fun m hmem => l.valid m (MutationLog.mem_readRange.mp (hm ▸ hmem)).1
  bounds := by rw [hf, ht]; exact h.ordered
  workspace := fun m hmem => by
    rw [hw]; exact l.tenant m (MutationLog.mem_readRange.mp (hm ▸ hmem)).1
  dense := by rw [hf, hm]; exact h.dense
  returned := by
    rw [MutationPage.expectedReturnedRevision_eq (by rw [hf, hm]; exact h.dense), hr, hf, hm,
      h.length, Nat.add_sub_cancel' h.from_le_last]
  target := by rw [hr, ht]; exact Nat.min_le_left ..
  terminal := fun hnone => by rw [hr, ht]; exact hn.mp hnone
  continued := fun hsome => by
    rw [hr, ht]
    exact Nat.lt_of_le_of_ne (Nat.min_le_left ..) (fun he => hsome (hn.mpr he))

end PageBounds

section

variable {reader : ReaderBinding} {l : MutationLog} {a t n : Nat} {pred : Option H}
  {expiresAt : Timestamp}

theorem servedPage_nextCursor :
    (servedPage P reader l a t n expiresAt).nextCursor = none ↔ min t (a + n) = t := by
  simp only [servedPage]
  split
  next h => exact ⟨fun _ => h, fun _ => rfl⟩
  next h => exact ⟨fun hc => (by cases hc), fun he => absurd he h⟩

theorem servedPage_valid (h : PageBounds l a t n) :
    (servedPage P reader l a t n expiresAt).Valid :=
  h.page_valid rfl rfl rfl rfl rfl servedPage_nextCursor

/-- `readPage` returns the page with the placeholder cursor. -/
theorem readPage_eq [DecidableEq H] (P : Platform H) (reader : ReaderBinding)
    (expiresAt : Timestamp) (h : PageBounds l a t n) :
    ∃ base, readPage P l a t n = some base ∧ assertPage P base l.workspaceId a t = true ∧
      base.fromServerRevisionExclusive = a ∧
      base.returnedThroughServerRevision = min t (a + n) ∧
      signPage P reader a (min t (a + n)) t expiresAt base =
        servedPage P reader l a t n expiresAt := by
  unfold readPage
  rw [if_neg (Nat.not_lt.mpr h.from_le_last),
    if_neg (by rw [not_or, Decidable.not_not, Decidable.not_not]; exact ⟨h.length, h.dense⟩)]
  simp only
  rw [if_pos (h.page_valid rfl rfl rfl rfl rfl (by
    simp only
    split
    next he => exact ⟨fun _ => he, fun _ => rfl⟩
    next he => exact ⟨fun hc => (by cases hc), fun hc => absurd hc he⟩))]
  refine ⟨_, rfl, ?_, rfl, rfl, ?_⟩
  · simp [assertPage, MutationPage.digestInput]
  · simp only [signPage, servedPage]
    split <;> rfl

theorem createPending_eq [DecidableEq H]
    (h : PageBounds w.log c.readThroughServerRevision t n) (hd : w.delivery c.deviceId = none) :
    createPending P ttl w c t n pred =
      some ({ w with deliveries := w.deliveries ++
          [(issue P (w.readerBinding c) w.log c.readThroughServerRevision t n pred
            (secondOf (ttl.expiry w.now))).pendingDelivery] },
        .accepted (issue P (w.readerBinding c) w.log c.readThroughServerRevision t n pred
          (secondOf (ttl.expiry w.now)))) := by
  obtain ⟨base, hbase, hassert, hfrom, hret, hsign⟩ :=
    readPage_eq P (w.readerBinding c) (secondOf (ttl.expiry w.now)) h
  unfold createPending
  simp only [hbase, hassert, hfrom, hret, hsign, Bool.not_true, Bool.false_eq_true, if_false]
  rw [if_neg]
  · rfl
  · simp only [not_or, Decidable.not_not, hd, Option.isSome_none, Bool.false_eq_true,
      not_false_eq_true, and_true]
    refine ⟨servedPage_valid h, ?_⟩
    have h1 := h.from_le_last
    have h2 : n ≤ 256 := h.bounded
    have h3 := h.positive
    simp [assertPendingDelivery, servedPage, h1, h2, h3]

theorem replayPending_eq [DecidableEq H] (P : Platform H) (pred : Option H) (expiresAt : Timestamp)
    (h : PageBounds w.log a t n) (hfrom : c.readThroughServerRevision = a) :
    replayPending P w c (issue P (w.readerBinding c) w.log a t n pred expiresAt).pendingDelivery =
      some (.accepted (issue P (w.readerBinding c) w.log a t n pred expiresAt)) := by
  obtain ⟨base, hbase, _, _, _, hsign⟩ :=
    readPage_eq P (w.readerBinding c) expiresAt h
  have hdigest : ∀ o : Option H, matchesTokenDigest P (o.map (digestToken P)) o = true := by
    intro o
    cases o <;> simp [matchesTokenDigest, digestToken]
  have hvalid : (servedPage P (w.readerBinding c) w.log a t n expiresAt).Valid :=
    servedPage_valid h
  unfold replayPending
  have hret : (servedPage P (w.readerBinding c) w.log a t n expiresAt).returnedThroughServerRevision
      = min t (a + n) := rfl
  have hfr : (servedPage P (w.readerBinding c) w.log a t n expiresAt).fromServerRevisionExclusive
      = a := rfl
  simp only [issue, hfr, hret, hbase, hsign, hvalid, hdigest, not_true, if_false, ne_eq,
    or_self, Bool.true_eq_false, hfrom]
  rw [if_neg]
  simp [matchesTokenDigest, digestToken]

end

/-! ## The steps of a pull -/

theorem reader_device {d : String} (hc : w.reader d = some c) : c.deviceId = d :=
  (Keyed.lookup_eq_some hc).2

/-- The revision a page run of the cursor is on its way to. -/
def Workspace.pageTarget (w : Workspace H) (c : ReaderCursor H) : Nat :=
  c.pinnedPageTargetServerRevision.getD w.log.serverRevision

/-- The cursor after the delivery is confirmed. -/
def ReaderCursor.confirmed (c : ReaderCursor H) (ttl : LeaseTtl) (now : Instant)
    (p : PendingDelivery H) : ReaderCursor H :=
  { c with
    rowVersion := c.rowVersion + 1
    readThroughServerRevision := p.throughServerRevisionInclusive
    leaseExpiresAt := ttl.expiry now
    lifecycle := .active (p.nextCursorDigest.map (fun d => ⟨p.targetServerRevision, d⟩)) }

/-- The workspace after the delivery is confirmed. -/
def Workspace.confirm (w : Workspace H) (ttl : LeaseTtl) (c : ReaderCursor H)
    (p : PendingDelivery H) : Workspace H :=
  { w.setReader (c.confirmed ttl w.now p) with
    deliveries := Keyed.remove PendingDelivery.deviceId c.deviceId w.deliveries }

theorem delivery_confirm (w : Workspace H) (ttl : LeaseTtl) (c : ReaderCursor H)
    (p : PendingDelivery H) : (w.confirm ttl c p).delivery c.deviceId = none :=
  Keyed.lookup_remove_self c.deviceId w.deliveries

/-- The workspace with one more pending delivery. -/
def Workspace.store (w : Workspace H) (d : PullDelivery H) : Workspace H :=
  { w with deliveries := w.deliveries ++ [d.pendingDelivery] }

/-- What the rows of one device say about each other.  `served` holds of a delivery
of the cursor's own generation only: a delivery of an older one may have lost its
log range. -/
structure ReaderRows (P : Platform H) (w : Workspace H) (c : ReaderCursor H) : Prop where
  retained : w.watermark ≤ c.readThroughServerRevision
  known : c.readThroughServerRevision ≤ w.head
  pinned : ∀ page, c.page = some page →
    c.readThroughServerRevision < page.pinnedPageTargetServerRevision ∧
      page.pinnedPageTargetServerRevision ≤ w.head
  served : ∀ p, w.delivery c.deviceId = some p → p.generation = c.generation →
    PageBounds w.log c.readThroughServerRevision p.targetServerRevision p.pageLimit ∧
      p = (issue P (w.readerBinding c) w.log c.readThroughServerRevision p.targetServerRevision
        p.pageLimit p.predecessorConfirmationDigest p.expiresAt).pendingDelivery

variable [DecidableEq H] (P : Platform H) (ttl : LeaseTtl) (w : Workspace H) (deviceId : String)
  (r : PullRequest H) in
/-- The transitions of `pullV2`. -/
inductive PullStep : Workspace H → PersistentReaderPullResult H → Prop where
  | reject (code : PersistentReaderCursorRejectionCode) :
      PullStep w (.rejected code)
  | retire {c : ReaderCursor H} (reason : RetirementReason)
      (code : PersistentReaderCursorRejectionCode) (hc : w.reader deviceId = some c)
      (hactive : c.isActive = true) :
      PullStep (w.setReader (c.retire reason)) (.rejected code)
  | first {c : ReaderCursor H} {d : PullDelivery H} (hc : w.reader deviceId = some c)
      (hactive : c.isActive = true) (hnone : w.delivery deviceId = none)
      (hvalid : r.Valid) (hconfirm : r.confirm = none)
      (hafter : r.afterServerRevision = c.readThroughServerRevision)
      (hcursor : matchesTokenDigest P c.continuationTokenDigest r.cursor = true)
      (hd : d = issue P (w.readerBinding c) w.log c.readThroughServerRevision (w.pageTarget c)
        r.pageLimit none (secondOf (ttl.expiry w.now))) :
      PullStep (w.store d) (.accepted d)
  | confirm {c : ReaderCursor H} {p : PendingDelivery H} {token : H} {d : PullDelivery H}
      (hc : w.reader deviceId = some c) (hactive : c.isActive = true)
      (hp : w.delivery deviceId = some p) (hgen : p.generation = c.generation)
      (hlive : w.now < instantOf p.expiresAt) (hvalid : r.Valid) (hconfirm : r.confirm = some token)
      (htoken : p.confirmationTokenDigest = digestToken P token)
      (hafter : r.afterServerRevision = p.throughServerRevisionInclusive)
      (hcursor : matchesTokenDigest P p.nextCursorDigest r.cursor = true)
      (hd : d = issue P (w.readerBinding c) w.log p.throughServerRevisionInclusive
        (w.pageTarget (c.confirmed ttl w.now p)) r.pageLimit (some (digestToken P token))
        (secondOf (ttl.expiry w.now))) :
      PullStep ((w.confirm ttl c p).store d) (.accepted d)
  | replay {c : ReaderCursor H} {p : PendingDelivery H} {d : PullDelivery H}
      (hc : w.reader deviceId = some c) (hactive : c.isActive = true)
      (hp : w.delivery deviceId = some p) (hgen : p.generation = c.generation)
      (hlive : w.now < instantOf p.expiresAt)
      (hpred : matchesTokenDigest P p.predecessorConfirmationDigest r.confirm = true)
      (hafter : r.afterServerRevision = c.readThroughServerRevision)
      (hd : d = issue P (w.readerBinding c) w.log c.readThroughServerRevision
        p.targetServerRevision p.pageLimit p.predecessorConfirmationDigest p.expiresAt) :
      PullStep w (.accepted d)

section

variable {p : PendingDelivery H} {r : PullRequest H}

theorem issue_nextCursorDigest {reader : ReaderBinding} {l : MutationLog} {a t n : Nat}
    {pred : Option H} {e : Timestamp} :
    (issue P reader l a t n pred e).pendingDelivery.nextCursorDigest = none ↔
      min t (a + n) = t := by
  rw [show (issue P reader l a t n pred e).pendingDelivery.nextCursorDigest =
    (servedPage P reader l a t n e).nextCursor.map (digestToken P) from rfl, Option.map_eq_none_iff,
    servedPage_nextCursor]

namespace ReaderRows

/-- The bounds of the next page of a cursor. -/
theorem bounds (h : ReaderRows P w c) {n : Nat} (h1 : 1 ≤ n) (hn : n ≤ maxMutationsPerPage) :
    PageBounds w.log c.readThroughServerRevision (w.pageTarget c) n := by
  refine ⟨h.retained, ?_, ?_, h1, hn⟩ <;>
    rw [Workspace.pageTarget, ReaderCursor.pinnedPageTargetServerRevision]
  · cases hp : c.page with
    | none => exact h.known
    | some page => exact Nat.le_of_lt (h.pinned page hp).1
  · cases hp : c.page with
    | none => exact Nat.le_refl _
    | some page => exact (h.pinned page hp).2

variable (h : ReaderRows P w c) (hp : w.delivery c.deviceId = some p)
  (hgen : p.generation = c.generation)

include h hp hgen

theorem from_eq : p.fromServerRevisionExclusive = c.readThroughServerRevision := by
  obtain ⟨_, heq⟩ := h.served p hp hgen
  exact congrArg PendingDelivery.fromServerRevisionExclusive heq

theorem through_eq :
    p.throughServerRevisionInclusive =
      min p.targetServerRevision (c.readThroughServerRevision + p.pageLimit) := by
  obtain ⟨_, heq⟩ := h.served p hp hgen
  exact congrArg PendingDelivery.throughServerRevisionInclusive heq

theorem nextCursorDigest_eq_none :
    p.nextCursorDigest = none ↔ p.throughServerRevisionInclusive = p.targetServerRevision := by
  obtain ⟨_, heq⟩ := h.served p hp hgen
  rw [h.through_eq hp hgen, congrArg PendingDelivery.nextCursorDigest heq]
  exact issue_nextCursorDigest

/-- Where a confirmed delivery ends. -/
theorem through_bounds :
    c.readThroughServerRevision ≤ p.throughServerRevisionInclusive ∧
      p.throughServerRevisionInclusive ≤ p.targetServerRevision ∧
      p.targetServerRevision ≤ w.head := by
  obtain ⟨hb, _⟩ := h.served p hp hgen
  rw [h.through_eq hp hgen]
  exact ⟨hb.from_le_last, Nat.min_le_left .., hb.known⟩

/-- The continuation of a confirmed cursor ends beyond it. -/
theorem confirmed_page {now : Instant} {page : PageContinuation H}
    (hpage : (c.confirmed ttl now p).page = some page) :
    p.throughServerRevisionInclusive < page.pinnedPageTargetServerRevision ∧
      page.pinnedPageTargetServerRevision ≤ w.head := by
  obtain ⟨_, hle, hhead⟩ := h.through_bounds hp hgen
  obtain ⟨d, hd, rfl⟩ := Option.map_eq_some_iff.mp hpage
  refine ⟨Nat.lt_of_le_of_ne hle (fun he => ?_), hhead⟩
  rw [(h.nextCursorDigest_eq_none hp hgen).mpr he] at hd
  cases hd

/-- The rows after the confirmation, before the next delivery is stored. -/
theorem confirm :
    ReaderRows P (w.confirm ttl c p) (c.confirmed ttl w.now p) where
  retained := Nat.le_trans h.retained (h.through_bounds hp hgen).1
  known := Nat.le_trans (h.through_bounds hp hgen).2.1 (h.through_bounds hp hgen).2.2
  pinned := fun _ hpage => h.confirmed_page hp hgen hpage
  served := fun _ hq => by cases (delivery_confirm w ttl c p).symm.trans hq

end ReaderRows

variable [DecidableEq H]

/-- A pull on an active cursor takes a step, unless the stored delivery is of
another generation. -/
theorem pullActive_spec (ttl : LeaseTtl) (h : ReaderRows P w c) (hc : w.reader deviceId = some c)
    (hactive : c.isActive = true) (hr : r.Valid) (hver : c.rowVersion < maxSafeInteger) :
    (∃ p, w.delivery deviceId = some p ∧ p.generation ≠ c.generation ∧
        pullActive P ttl w c r = none) ∨
      ∃ w' res, pullActive P ttl w c r = some (w', res) ∧ PullStep P ttl w deviceId r w' res := by
  obtain rfl := reader_device hc
  rw [pullActive]
  cases hd : w.delivery c.deviceId with
  | none =>
    refine .inr ?_
    simp only
    split
    next => exact ⟨_, _, rfl, .reject _⟩
    next hcond =>
    obtain ⟨hconfirm, hcond⟩ := not_or.mp hcond
    obtain ⟨hafter, hcursor⟩ := not_or.mp hcond
    refine ⟨_, _, createPending_eq (h.bounds hr.2.1 hr.2.2) hd, ?_⟩
    exact .first hc hactive hd hr (by simpa using hconfirm) (Decidable.not_not.mp hafter)
      (Bool.eq_true_of_not_eq_false hcursor) rfl
  | some p =>
    simp only
    split
    next hgen => exact .inl ⟨p, rfl, hgen, rfl⟩
    next hgen =>
    have hgen := Decidable.not_not.mp hgen
    refine .inr ?_
    split
    next => exact ⟨_, _, rfl, .reject _⟩
    next hlive =>
    have hlive := Nat.not_le.mp hlive
    split
    next hmatch =>
      split
      next => exact ⟨_, _, rfl, .reject _⟩
      next hcond =>
      obtain ⟨hafter, hcursor⟩ := not_or.mp hcond
      cases hconfirm : r.confirm with
      | none => rw [hconfirm] at hmatch; cases hmatch
      | some token =>
        rw [hconfirm] at hmatch
        have htoken : p.confirmationTokenDigest = digestToken P token := by
          simpa [matchesTokenDigest, digestToken] using hmatch
        have hpass : confirmPendingDelivery ttl w c p (digestToken P token) =
            some (w.confirm ttl c p, c.confirmed ttl w.now p) := by
          rw [confirmPendingDelivery, if_neg]
          · rfl
          · simp only [not_or, Decidable.not_not, ne_eq, not_and, Nat.not_le]
            refine ⟨hgen, h.from_eq hd hgen, htoken, hlive, hver, fun hsome => ?_⟩
            refine Nat.lt_of_le_of_ne (h.through_bounds hd hgen).2.1 (fun he => ?_)
            rw [(h.nextCursorDigest_eq_none hd hgen).mpr he] at hsome
            cases hsome
        simp only [hpass]
        refine ⟨_, _, createPending_eq ((h.confirm hd hgen).bounds hr.2.1 hr.2.2)
          (delivery_confirm w ttl c p), ?_⟩
        exact .confirm hc hactive hd hgen hlive hr hconfirm htoken (Decidable.not_not.mp hafter)
          (Bool.eq_true_of_not_eq_false hcursor) rfl
    next =>
    split
    next hpred =>
      split
      next => exact ⟨_, _, rfl, .reject _⟩
      next hcond =>
      obtain ⟨hafter, _⟩ := not_or.mp hcond
      obtain ⟨hb, heq⟩ := h.served p hd hgen
      have hreplay := replayPending_eq P p.predecessorConfirmationDigest p.expiresAt hb rfl
      rw [← heq] at hreplay
      rw [hreplay]
      exact ⟨_, _, rfl, .replay hc hactive hd hgen hlive hpred (Decidable.not_not.mp hafter)
        rfl⟩
    next => exact ⟨_, _, rfl, .reject _⟩

/-- Why a pull throws: a malformed input, a row version that cannot advance, or a
stored delivery of another generation. -/
structure PullThrows (w : Workspace H) (deviceId : String) (r : PullRequest H) : Prop where
  cause : (validIdentifier deviceId = true → r.Valid →
    ∃ c, w.reader deviceId = some c ∧ c.isActive = true ∧
      (maxSafeInteger ≤ c.rowVersion ∨
        ∃ p, w.delivery deviceId = some p ∧ p.generation ≠ c.generation))

/-- `pullV2` throws for one of the causes, or takes a step. -/
theorem pullV2_spec (ttl : LeaseTtl) (r : PullRequest H)
    (hrows : ∀ c, w.reader deviceId = some c → c.isActive = true → ReaderRows P w c) :
    (pullV2 P ttl w deviceId r = none ∧ PullThrows w deviceId r) ∨
      ∃ w' res, pullV2 P ttl w deviceId r = some (w', res) ∧
        PullStep P ttl w deviceId r w' res := by
  rw [pullV2]
  split
  next hbad =>
    refine .inl ⟨rfl, ⟨fun hid hr => ?_⟩⟩
    simp [hid, hr] at hbad
  next hgood =>
  have hr : r.Valid := by
    rw [Bool.or_eq_true, not_or] at hgood
    simpa using hgood.2
  cases hc : w.reader deviceId with
  | none => exact .inr ⟨_, _, rfl, .reject _⟩
  | some c =>
    simp only
    cases hl : c.lifecycle with
    | retired reason => exact .inr ⟨_, _, rfl, .reject _⟩
    | active page =>
      have hactive : c.isActive = true := by rw [ReaderCursor.isActive, hl]
      simp only
      rw [retireIfExpired]
      split
      next hret =>
        split at hret
        next hver => exact .inl ⟨rfl, ⟨fun _ _ => ⟨c, hc, hactive, .inl hver⟩⟩⟩
        next => split at hret <;> cases hret
      next retired hret =>
        split at hret
        next => cases hret
        next =>
          split at hret
          next => cases hret; exact .inr ⟨_, _, rfl, .retire _ _ hc hactive⟩
          next => cases hret
      next hret =>
      split at hret
      next => cases hret
      next hver =>
      split
      next => exact .inr ⟨_, _, rfl, .retire _ _ hc hactive⟩
      next =>
      cases pullActive_spec ttl (hrows c hc hactive) hc hactive hr
        (Nat.not_le.mp hver) with
      | inl hthrow =>
        obtain ⟨p, hp, hgen, hnone⟩ := hthrow
        exact .inl ⟨hnone, ⟨fun _ _ => ⟨c, hc, hactive, .inr ⟨p, hp, hgen⟩⟩⟩⟩
      | inr hstep => exact .inr hstep

/-- The request that a stored delivery answers gets it again. -/
theorem pullV2_replay (ttl : LeaseTtl) (h : ReaderRows P w c)
    (hdevice : validIdentifier deviceId = true)
    (hr : r.Valid) (hc : w.reader deviceId = some c) (hactive : c.isActive = true)
    (hlease : w.now < c.leaseExpiresAt) (hversion : c.rowVersion < maxSafeInteger)
    (hp : w.delivery deviceId = some p) (hgen : p.generation = c.generation)
    (hlive : w.now < instantOf p.expiresAt)
    (hnew : matchesTokenDigest P (some p.confirmationTokenDigest) r.confirm = false)
    (hpred : matchesTokenDigest P p.predecessorConfirmationDigest r.confirm = true)
    (hafter : r.afterServerRevision = c.readThroughServerRevision)
    (hcursor : matchesTokenDigest P c.continuationTokenDigest r.cursor = true) :
    pullV2 P ttl w deviceId r = some (w, .accepted (issue P (w.readerBinding c) w.log
      c.readThroughServerRevision p.targetServerRevision p.pageLimit
      p.predecessorConfirmationDigest p.expiresAt)) := by
  obtain rfl := reader_device hc
  obtain ⟨hb, heq⟩ := h.served p hp hgen
  have hreplay := replayPending_eq P p.predecessorConfirmationDigest p.expiresAt hb rfl
  rw [← heq] at hreplay
  have hinput : (!validIdentifier c.deviceId || !decide r.Valid) = false := by simp [hdevice, hr]
  have hretained : ¬ c.readThroughServerRevision < w.log.compactedThroughServerRevision :=
    Nat.not_lt.mpr h.retained
  have hunexpired : retireIfExpired w.now c = some none := by
    rw [retireIfExpired, if_neg (Nat.not_le.mpr hversion), if_neg]
    simp [ReaderCursor.isExpired, Nat.not_le.mpr hlease]
  have hpull : pullActive P ttl w c r =
      (replayPending P w c p).map (fun result => (w, result)) := by
    rw [pullActive, hp]
    simp only [hgen, ne_eq, not_true, if_false, Nat.not_le.mpr hlive, hnew, hpred, hafter, hcursor,
      or_self, Bool.true_eq_false, Bool.false_eq_true, if_true]
  rw [pullV2, if_neg (by rw [hinput]; exact Bool.false_ne_true), hc]
  cases hl : c.lifecycle with
  | retired reason => rw [ReaderCursor.isActive, hl] at hactive; cases hactive
  | active page =>
    simp only [hl, hunexpired]
    rw [if_neg hretained, hpull, hreplay]
    rfl

end

/-! ## The steps of the other operations -/

/-- A cursor of the first generation. -/
def ReaderCursor.opened (ttl : LeaseTtl) (now : Instant) (deviceId : String) (atRevision : Nat) :
    ReaderCursor H where
  deviceId := deviceId
  generation := 1
  rowVersion := 1
  readThroughServerRevision := atRevision
  leaseExpiresAt := ttl.expiry now
  lifecycle := .active none

/-- The next generation of a retired cursor. -/
def ReaderCursor.reopened (c : ReaderCursor H) (ttl : LeaseTtl) (now : Instant)
    (baselineServerRevision : Nat) : ReaderCursor H where
  deviceId := c.deviceId
  generation := c.generation + 1
  rowVersion := c.rowVersion + 1
  readThroughServerRevision := baselineServerRevision
  leaseExpiresAt := ttl.expiry now
  lifecycle := .active none

/-- The cursor with a new lease. -/
def ReaderCursor.renewed (c : ReaderCursor H) (ttl : LeaseTtl) (now : Instant) : ReaderCursor H :=
  { c with rowVersion := c.rowVersion + 1, leaseExpiresAt := ttl.expiry now }

variable (ttl : LeaseTtl) (w : Workspace H) (deviceId : String) (opening : Option Nat) in
/-- What opening, renewing and device removal do to the cursor rows; `opening` is the
revision asked for, if the device opens its reader. -/
inductive CursorStep : Workspace H → Prop where
  | same : CursorStep w
  | retire {c : ReaderCursor H} (reason : RetirementReason) (hc : w.reader deviceId = some c)
      (hactive : c.isActive = true) :
      CursorStep (w.setReader (c.retire reason))
  | opened {atRevision : Nat} (hopen : opening = some atRevision)
      (hnone : w.reader deviceId = none) (hretained : w.watermark ≤ atRevision)
      (hknown : atRevision ≤ w.head) :
      CursorStep
        { w with readers := w.readers ++ [.opened ttl w.now deviceId atRevision] }
  | renewed {c : ReaderCursor H} (hc : w.reader deviceId = some c) (hactive : c.isActive = true) :
      CursorStep (w.setReader (c.renewed ttl w.now))

section

variable {w' : Workspace H}

theorem retireIfExpired_eq {now : Instant} {c retired : ReaderCursor H}
    (h : retireIfExpired now c = some (some retired)) : retired = c.retire .ttlExpired := by
  rw [retireIfExpired] at h
  split at h
  next => cases h
  next => split at h <;> cases h; rfl

variable {res : PersistentReaderCursorResult H}

theorem openReader_step {atRevision : Nat}
    (h : openReader ttl w deviceId atRevision = some (w', res)) :
    CursorStep ttl w deviceId (some atRevision) w' := by
  rw [openReader] at h
  split at h
  next => cases h
  next =>
  split at h
  next => cases h; exact .same
  next hretained =>
  split at h
  next => cases h; exact .same
  next hknown =>
  split at h
  next hnone => cases h; exact .opened rfl hnone (Nat.not_lt.mp hretained) (Nat.not_lt.mp hknown)
  next c hc =>
  split at h
  next => cases h; exact .same
  next page hl =>
  split at h
  next => cases h
  next retired hret =>
    cases h
    rw [retireIfExpired_eq hret]
    exact .retire _ hc (by rw [ReaderCursor.isActive, hl])
  next => split at h <;> cases h <;> exact .same

theorem reopenAfterRebootstrap_cases {baseline generation rowVersion : Nat}
    (h : reopenAfterRebootstrap ttl w deviceId baseline generation rowVersion = some (w', res)) :
    w' = w ∨ ∃ c, w.reader deviceId = some c ∧ c.isActive = false ∧ w.watermark ≤ baseline ∧
      baseline ≤ w.head ∧ res = .accepted (c.reopened ttl w.now baseline) none ∧
      w' = w.setReader (c.reopened ttl w.now baseline) := by
  rw [reopenAfterRebootstrap] at h
  split at h
  next => cases h
  next =>
  split at h
  next => cases h; exact .inl rfl
  next hretained =>
  split at h
  next => cases h; exact .inl rfl
  next hknown =>
  split at h
  next => cases h; exact .inl rfl
  next c hc =>
  obtain rfl := reader_device hc
  split at h
  next => cases h; exact .inl rfl
  next => cases h; exact .inl rfl
  next hl =>
  split at h
  next => cases h; exact .inl rfl
  next =>
  split at h
  next => cases h
  next =>
    cases h
    exact .inr ⟨c, hc, by rw [ReaderCursor.isActive, hl], Nat.not_lt.mp hretained,
      Nat.not_lt.mp hknown, rfl, rfl⟩

theorem renew_step [DecidableEq H] {generation rowVersion : Nat}
    {token : Option H} (h : renew P ttl w deviceId generation rowVersion token = some (w', res)) :
    CursorStep ttl w deviceId none w' := by
  rw [renew] at h
  split at h
  next => cases h
  next =>
  split at h
  next => cases h; exact .same
  next c hc =>
  split at h
  next => cases h; exact .same
  next page hl =>
  have hactive : c.isActive = true := by rw [ReaderCursor.isActive, hl]
  split at h
  next => cases h
  next retired hret =>
    cases h
    rw [retireIfExpired_eq hret]
    exact .retire _ hc hactive
  next =>
  split at h
  next => cases h; exact .same
  next =>
    split at h
    next => cases h; exact .retire _ hc hactive
    next => cases h; exact .renewed hc hactive

theorem retireForDeviceRemoval_step {res : Unit}
    (h : retireForDeviceRemoval w deviceId = some (w', res)) :
    CursorStep ttl w deviceId none w' := by
  rw [retireForDeviceRemoval] at h
  split at h
  next => cases h
  next =>
  split at h
  next => cases h; exact .same
  next c hc =>
  split at h
  next => cases h; exact .same
  next hactive =>
  split at h
  next => cases h
  next => cases h; exact .retire _ hc (by simpa using hactive)

end

end GoodDealer.Cloud
