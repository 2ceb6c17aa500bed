/-
# `GoodDealer.Cloud.ExactlyOnce` — what one reader receives

Between its opening and the next generation a reader is served a chain of
deliveries (`Issued`): each page starts where the one before ends, and each token
signs the digest of the one before.  Tokens are therefore distinct, an accepted
token confirms the pending delivery or is the one confirmed last, and the
confirmed pages are the log from the opening to the cursor, each entry once.

Requests are arbitrary: a lost, repeated or delayed request is one that is not
made, or made again later; a lost response is one that is never confirmed.
-/
import GoodDealer.Lib.HashChain
import GoodDealer.Cloud.Delivery

namespace GoodDealer.Cloud

open List Keyed Symbolic

variable {H : Type} {P : Platform H} {ttl : LeaseTtl} {w w' : Workspace H} {deviceId : String}
  {e : CloudEvent H} {start : Nat} {d : PullDelivery H} {c : ReaderCursor H}

/-! ## The deliveries of one generation -/

/-- Where the deliveries so far, newest first, end. -/
def endOf (start : Nat) : List (PullDelivery H) → Nat
  | [] => start
  | d :: _ => d.page.returnedThroughServerRevision

/-- Deliveries, newest first: each page starts where the one before ends, and each
delivery is bound to the token of the one before. -/
def Issued (P : Platform H) (reader : ReaderBinding) (l : MutationLog) (start : Nat) :
    List (PullDelivery H) → Prop
  | [] => True
  | d :: ds =>
    (∃ target pageLimit expiresAt, PageBounds l (endOf start ds) target pageLimit ∧
      d = issue P reader l (endOf start ds) target pageLimit
        (ds.head?.map fun x => digestToken P x.confirmToken) expiresAt) ∧
    Issued P reader l start ds

namespace Issued

variable {reader : ReaderBinding} {l l' : MutationLog} {ds : List (PullDelivery H)}

theorem tail (h : Issued P reader l start (d :: ds)) : Issued P reader l start ds := h.2

theorem linked : ∀ {ds : List (PullDelivery H)}, Issued P reader l start ds →
    Linked (fun x => digestToken P x.confirmToken)
      (fun x => x.pendingDelivery.predecessorConfirmationDigest) ds
  | [], _ => trivial
  | _ :: _, h => by
    obtain ⟨⟨_, _, _, _, rfl⟩, htail⟩ := h
    exact ⟨rfl, linked htail⟩

/-- A delivery's token is the signature of a value that names its predecessor. -/
theorem token_eq : ∀ {ds : List (PullDelivery H)}, Issued P reader l start ds →
    ∀ x ∈ ds, ∃ a b t digest next expiresAt, x.confirmToken = P.hmacSha256
      (.confirm reader a b t digest next x.pendingDelivery.predecessorConfirmationDigest expiresAt)
  | d :: ds, h, x, hx => by
    cases mem_cons.mp hx with
    | inl hxd =>
      obtain ⟨⟨_, _, _, _, heq⟩, _⟩ := h
      rw [hxd, heq]
      exact ⟨_, _, _, _, _, _, rfl⟩
    | inr hxs => exact token_eq h.2 x hxs

/-- No token is issued twice. -/
theorem nodup (hP : P.Injective) (h : Issued P reader l start ds) :
    (ds.map fun x => digestToken P x.confirmToken).Nodup := by
  refine h.linked.nodup fun x hx y hy hkey => ?_
  have htoken := digestToken_inj hP hkey
  obtain ⟨_, _, _, _, _, _, hx'⟩ := h.token_eq x hx
  obtain ⟨_, _, _, _, _, _, hy'⟩ := h.token_eq y hy
  rw [hx', hy'] at htoken
  have := hP.hmacSha256 htoken
  injection this

/-- A delivery is not among the older ones, and neither is its token. -/
theorem token_ne (hP : P.Injective) (h : Issued P reader l start (d :: ds)) :
    ∀ x ∈ ds, x.confirmToken ≠ d.confirmToken := by
  intro x hx heq
  refine (nodup_cons.mp (h.nodup hP)).1 (mem_map.mpr ⟨x, hx, ?_⟩)
  rw [heq]

theorem not_mem (hP : P.Injective) (h : Issued P reader l start (d :: ds)) : d ∉ ds := by
  intro hmem
  exact h.token_ne hP d hmem rfl

/-- A longer log, with the same entries up to the old head, has the same deliveries. -/
theorem transfer (hws : l'.workspaceId = l.workspaceId)
    (hcomp : l'.compactedThroughServerRevision = l.compactedThroughServerRevision)
    (hhead : l.serverRevision ≤ l'.serverRevision)
    (hrange : ∀ a, ∀ b ≤ l.serverRevision, l'.readRange a b = l.readRange a b) :
    ∀ {ds : List (PullDelivery H)}, Issued P reader l start ds → Issued P reader l' start ds
  | [], _ => trivial
  | d :: ds, h => by
    obtain ⟨⟨t, n, e, hb, heq⟩, htail⟩ := h
    refine ⟨⟨t, n, e, ?_, ?_⟩, transfer hws hcomp hhead hrange htail⟩
    · exact ⟨hcomp ▸ hb.retained, hb.ordered, le_trans hb.known hhead, hb.positive,
        hb.bounded⟩
    · rw [heq]
      exact (issue_congr hws (hrange _ _ hb.last_le_head)).symm

/-- The pages, oldest first, are the log from the start to where they end. -/
theorem pages (hstart : l.compactedThroughServerRevision ≤ start)
    (hknown : start ≤ l.serverRevision) :
    ∀ {ds : List (PullDelivery H)}, Issued P reader l start ds →
      start ≤ endOf start ds ∧ endOf start ds ≤ l.serverRevision ∧
        ds.reverse.flatMap (·.page.mutations) = l.readRange start (endOf start ds)
  | [], _ => ⟨le_rfl, hknown, (l.readRange_self start).symm⟩
  | d :: ds, h => by
    obtain ⟨⟨t, n, e, hb, heq⟩, htail⟩ := h
    obtain ⟨hle, hhead, hpages⟩ := pages hstart hknown htail
    have hend : endOf start (d :: ds) = min t (endOf start ds + n) := by rw [heq]; rfl
    have hmutations : d.page.mutations =
        l.readRange (endOf start ds) (min t (endOf start ds + n)) := by rw [heq]; rfl
    rw [hend]
    refine ⟨le_trans hle hb.from_le_last, hb.last_le_head, ?_⟩
    rw [reverse_cons, flatMap_append, hpages, flatMap_singleton, hmutations]
    exact (MutationLog.readRange_split hstart hle hb.from_le_last hb.last_le_head).symm

end Issued

/-! ## The reader's history -/

/-- What a reader was served and has confirmed, newest first.  A response counts
when it is sent, whether it arrives or not; a delivery counts as confirmed when a
request that presents its token is accepted for the first time. -/
structure ReaderHistory (H : Type) where
  served : List (PullRequest H × PullDelivery H)
  confirmed : List (PullDelivery H)

namespace ReaderHistory

variable [DecidableEq H]

/-- The deliveries that were served, newest first. -/
def deliveries (h : ReaderHistory H) : List (PullDelivery H) := h.served.map Prod.snd

/-- The confirmed deliveries after an accepted request. -/
def confirm (h : ReaderHistory H) : Option H → List (PullDelivery H)
  | none => h.confirmed
  | some token =>
    match h.deliveries.find? (fun d => d.confirmToken = token) with
    | none => h.confirmed
    | some d => if d ∈ h.confirmed then h.confirmed else d :: h.confirmed

/-- Record one answer. -/
def record (h : ReaderHistory H) (r : PullRequest H) :
    PersistentReaderPullResult H → ReaderHistory H
  | .rejected _ => h
  | .accepted d =>
    { served := if d ∈ h.deliveries then h.served else (r, d) :: h.served
      confirmed := h.confirm r.confirm }

theorem deliveries_record (h : ReaderHistory H) (r : PullRequest H) (d : PullDelivery H) :
    (h.record r (.accepted d)).deliveries =
      if d ∈ h.deliveries then h.deliveries else d :: h.deliveries := by
  rw [record, deliveries]
  split <;> rfl

/-- Record an event, if it is a pull of this device. -/
def observe (h : ReaderHistory H) (deviceId : String) (e : CloudEvent H) (o : CloudOutput H) :
    ReaderHistory H :=
  match e, o with
  | .pull d r, .pulled res => if d = deviceId then h.record r res else h
  | _, _ => h

end ReaderHistory

/-- The service with the history of one reader. -/
def observed [DecidableEq H] (P : Platform H) (ttl : LeaseTtl) (deviceId : String) :
    Machine (Workspace H × ReaderHistory H) (CloudEvent H) (CloudOutput H) where
  step s e :=
    let x := (service P ttl).step s.1 e
    ((x.1, s.2.observe deviceId e x.2), x.2)

/-- Everything but compaction and a new generation of this reader. -/
def KeepsGeneration (deviceId : String) (e : CloudEvent H) : Prop :=
  e.isCompact = false ∧ e.reopened ≠ some deviceId

instance (deviceId : String) (e : CloudEvent H) : Decidable (KeepsGeneration deviceId e) :=
  inferInstanceAs (Decidable (_ ∧ _))

section

variable [DecidableEq H] {s : Workspace H × ReaderHistory H}

theorem observed_next_other (h : ∀ r, e ≠ .pull deviceId r) :
    (observed P ttl deviceId).next s e = ((service P ttl).next s.1 e, s.2) := by
  have hobserve : ∀ o, s.2.observe deviceId e o = s.2 := by
    intro o
    cases e with
    | pull d r =>
      have hd : d ≠ deviceId := fun heq => h r (by rw [heq])
      cases o <;> first | exact if_neg hd | rfl
    | _ => rfl
  exact Prod.ext rfl (hobserve _)

/-- A pull either leaves everything alone or takes a step whose answer is recorded. -/
theorem observed_next_pull {r : PullRequest H} (hinv : ReaderInv P s.1) :
    ((observed P ttl deviceId).next s (.pull deviceId r) = s ∧
      (service P ttl).out s.1 (.pull deviceId r) = .threw) ∨
      ∃ w' res, PullStep P ttl s.1 deviceId r w' res ∧
        (service P ttl).out s.1 (.pull deviceId r) = .pulled res ∧
        (observed P ttl deviceId).next s (.pull deviceId r) = (w', s.2.record r res) := by
  have hnext : (observed P ttl deviceId).next s (.pull deviceId r) =
      (((service P ttl).step s.1 (.pull deviceId r)).1,
        s.2.observe deviceId (.pull deviceId r)
          ((service P ttl).step s.1 (.pull deviceId r)).2) := rfl
  rcases pullV2_spec ttl r (fun c hc ha => hinv.rows deviceId c hc ha) with
    ⟨hnone, _⟩ | ⟨w', res, hsome, hstep⟩
  · have hs : (service P ttl).step s.1 (.pull deviceId r) = (s.1, .threw) := by
      show transact s.1 .pulled (pullV2 P ttl s.1 deviceId r) = _
      rw [hnone]
      rfl
    refine .inl ⟨?_, congrArg Prod.snd hs⟩
    rw [hnext, hs]
    rfl
  · have hs : (service P ttl).step s.1 (.pull deviceId r) = (w', .pulled res) := by
      show transact s.1 .pulled (pullV2 P ttl s.1 deviceId r) = _
      rw [hsome]
      rfl
    refine .inr ⟨w', res, hstep, congrArg Prod.snd hs, ?_⟩
    rw [hnext, hs]
    exact Prod.ext rfl (if_pos rfl)

end

/-- A step that is not a compaction only adds to the log. -/
structure LogGrows (w w' : Workspace H) : Prop where
  account : w'.accountId = w.accountId
  workspace : w'.log.workspaceId = w.log.workspaceId
  watermark : w'.watermark = w.watermark
  head : w.head ≤ w'.head
  range : ∀ a, ∀ b ≤ w.head, w'.log.readRange a b = w.log.readRange a b

theorem LogGrows.of_eq (hlog : w'.log = w.log) (haccount : w'.accountId = w.accountId) :
    LogGrows w w' where
  account := haccount
  workspace := by rw [hlog]
  watermark := by rw [Workspace.watermark, Workspace.watermark, hlog]
  head := by rw [Workspace.head, Workspace.head, hlog]
  range := fun _ _ _ => by rw [hlog]

theorem logGrows_step [DecidableEq H] (hs : CloudStep P ttl w e w')
    (hcompact : e.isCompact = false) : LogGrows w w' := by
  cases hs with
  | ingest _ _ hc =>
    obtain ⟨_, hws, _, hcomp, hhead, _⟩ := MutationLog.append_eq_some hc.log
    refine ⟨by rw [hc.rest], hws, hcomp, ?_, fun a b hb => MutationLog.append_readRange hc.log hb⟩
    rw [Workspace.head, Workspace.head, hhead]
    exact Nat.le_add_right ..
  | compact => cases hcompact
  | cursor hs | pull hs => cases hs <;> exact .of_eq rfl rfl
  | _ => exact .of_eq rfl rfl

/-! ## The invariant -/

/-- The pending delivery is the newest one served; the older ones are confirmed; and
the request that got it would get it again. -/
structure Pending [DecidableEq H] (P : Platform H) (w : Workspace H) (c : ReaderCursor H)
    (h : ReaderHistory H) (r : PullRequest H) (d : PullDelivery H) : Prop where
  served : ∃ older, h.served = (r, d) :: older ∧ h.confirmed = older.map Prod.snd
  stored : w.delivery c.deviceId = some d.pendingDelivery
  generation : d.pendingDelivery.generation = c.generation
  valid : r.Valid
  after : r.afterServerRevision = c.readThroughServerRevision
  predecessor :
    matchesTokenDigest P d.pendingDelivery.predecessorConfirmationDigest r.confirm = true
  cursor : c.isActive = true → matchesTokenDigest P c.continuationTokenDigest r.cursor = true

/-- What the rows of the reader say about its history. -/
structure Delivered [DecidableEq H] (P : Platform H) (start : Nat) (w : Workspace H)
    (c : ReaderCursor H) (h : ReaderHistory H) : Prop where
  retained : w.watermark ≤ start
  known : start ≤ w.head
  issued : Issued P (w.readerBinding c) w.log start h.deliveries
  position : c.readThroughServerRevision = endOf start h.confirmed
  pending : (w.delivery c.deviceId = none ∧ h = ⟨[], []⟩) ∨ ∃ r d, Pending P w c h r d

/-- The pending delivery is the newest one, and all others are confirmed. -/
theorem Pending.deliveries [DecidableEq H] {h : ReaderHistory H} {r : PullRequest H}
    (hp : Pending P w c h r d) : h.deliveries = d :: h.confirmed := by
  obtain ⟨older, hserved, hconfirmed⟩ := hp.served
  rw [ReaderHistory.deliveries, hserved, hconfirmed]
  rfl

namespace Delivered

variable [DecidableEq H] {c' : ReaderCursor H} {h : ReaderHistory H} (hd : Delivered P start w c h)

include hd

/-- The newest delivery names the one confirmed last. -/
theorem linked (hdeliveries : h.deliveries = d :: h.confirmed) :
    d.pendingDelivery.predecessorConfirmationDigest =
      h.confirmed.head?.map fun x => digestToken P x.confirmToken := by
  have hissued := hd.issued
  rw [hdeliveries] at hissued
  exact hissued.linked.1

/-- Steps that leave delivery and position alone. -/
theorem transfer (hgrows : LogGrows w w')
    (hdevice : c'.deviceId = c.deviceId) (hgen : c'.generation = c.generation)
    (hread : c'.readThroughServerRevision = c.readThroughServerRevision)
    (hactive : c'.isActive = true → c.isActive = true ∧ c'.page = c.page)
    (hdelivery : w'.delivery c.deviceId = w.delivery c.deviceId) : Delivered P start w' c' h where
  retained := by rw [hgrows.watermark]; exact hd.retained
  known := le_trans hd.known hgrows.head
  issued := by
    have hbinding : w'.readerBinding c' = w.readerBinding c := by
      rw [Workspace.readerBinding, Workspace.readerBinding, hgrows.account, hgrows.workspace,
        hdevice, hgen]
    rw [hbinding]
    exact hd.issued.transfer hgrows.workspace hgrows.watermark hgrows.head hgrows.range
  position := hread.trans hd.position
  pending := by
    rw [hdevice, hdelivery]
    rcases hd.pending with hnone | ⟨r, d, hp⟩
    · exact .inl hnone
    · refine .inr ⟨r, d, hp.served, ?_, hgen ▸ hp.generation, hp.valid, hread ▸ hp.after,
        hp.predecessor, fun ha => ?_⟩
      · rw [hdevice, hdelivery]
        exact hp.stored
      · obtain ⟨hactive', hpage⟩ := hactive ha
        rw [ReaderCursor.continuationTokenDigest, hpage]
        exact hp.cursor hactive'

variable {p : PendingDelivery H} {r : PullRequest H} {token : H}

/-- The stored delivery is the one served last. -/
theorem pending_of_delivery (hp : w.delivery c.deviceId = some p) :
    ∃ r d older, Pending P w c h r d ∧ d.pendingDelivery = p ∧ h.served = (r, d) :: older ∧
      h.confirmed = older.map Prod.snd ∧ h.deliveries = d :: h.confirmed := by
  rcases hd.pending with ⟨hnone, _⟩ | ⟨r, d, hpend⟩
  · rw [hnone] at hp
    cases hp
  · obtain ⟨older, hserved, hconfirmed⟩ := hpend.served
    refine ⟨r, d, older, hpend, ?_, hserved, hconfirmed, hpend.deliveries⟩
    rw [hpend.stored] at hp
    exact Option.some.inj hp

/-- The newest delivery as it was issued, with the parameters that were stored. -/
theorem newest_eq (hdeliveries : h.deliveries = d :: h.confirmed) :
    d = issue P (w.readerBinding c) w.log c.readThroughServerRevision
      d.pendingDelivery.targetServerRevision d.pendingDelivery.pageLimit
      d.pendingDelivery.predecessorConfirmationDigest d.pendingDelivery.expiresAt := by
  have hissued := hd.issued
  rw [hdeliveries] at hissued
  obtain ⟨⟨t, n, e, _, heq⟩, _⟩ := hissued
  rw [hd.position, heq]
  rfl

theorem newest_digest (hdeliveries : h.deliveries = d :: h.confirmed) :
    d.pendingDelivery.confirmationTokenDigest = digestToken P d.confirmToken := by
  rw [hd.newest_eq hdeliveries]
  rfl

/-- The first delivery of the reader. -/
theorem first (hrow : ReaderRows P w c)
    (hnone : w.delivery c.deviceId = none) (hvalid : r.Valid) (hconfirm : r.confirm = none)
    (hafter : r.afterServerRevision = c.readThroughServerRevision)
    (hcursor : matchesTokenDigest P c.continuationTokenDigest r.cursor = true)
    (hissue : d = issue P (w.readerBinding c) w.log c.readThroughServerRevision
      (w.pageTarget c) r.pageLimit none (secondOf (ttl.expiry w.now))) :
    Delivered P start (w.store d) c (h.record r (.accepted d)) := by
  have hempty : h = ⟨[], []⟩ := by
    rcases hd.pending with ⟨_, hempty⟩ | ⟨r', d', hp⟩
    · exact hempty
    · cases hnone.symm.trans hp.stored
  subst hempty
  have hrecord : ReaderHistory.record ⟨[], []⟩ r (.accepted d) = ⟨[(r, d)], []⟩ := by
    simp [ReaderHistory.record, ReaderHistory.deliveries, ReaderHistory.confirm, hconfirm]
  have hposition : c.readThroughServerRevision = start := hd.position
  rw [hrecord]
  refine ⟨hd.retained, hd.known,
    ⟨⟨w.pageTarget c, r.pageLimit, secondOf (ttl.expiry w.now), ?_, ?_⟩,
    trivial⟩, hd.position,
      .inr ⟨r, d, ⟨[], rfl, rfl⟩, ?_, ?_, hvalid, hafter, ?_, fun _ => hcursor⟩⟩
  · show PageBounds w.log start (w.pageTarget c) r.pageLimit
    rw [← hposition]
    exact hrow.bounds hvalid.2.1 hvalid.2.2
  · show d = issue P (w.readerBinding c) w.log start (w.pageTarget c) r.pageLimit none _
    rw [← hposition]
    exact hissue
  · exact delivery_store_self hnone (by rw [hissue]; rfl)
  · rw [hissue]
    rfl
  · rw [hissue, hconfirm]
    rfl

section

variable (hP : P.Injective) (hrow : ReaderRows P w c) (hp : w.delivery c.deviceId = some p)
  (hgen : p.generation = c.generation) (hvalid : r.Valid)
  (htoken : p.confirmationTokenDigest = digestToken P token)
  (hissue : d = issue P (w.readerBinding c) w.log p.throughServerRevisionInclusive
    (w.pageTarget (c.confirmed ttl w.now p)) r.pageLimit (some (digestToken P token))
    (secondOf (ttl.expiry w.now)))

include hP hrow hp hgen hvalid htoken hissue

/-- The presented token is the newest delivery's, and the next delivery continues it. -/
theorem confirm_issued :
    ∃ r₀ d₀ older, d₀.pendingDelivery = p ∧ d₀.confirmToken = token ∧
      h.served = (r₀, d₀) :: older ∧ h.confirmed = older.map Prod.snd ∧
      h.deliveries = d₀ :: h.confirmed ∧
      p.throughServerRevisionInclusive = d₀.page.returnedThroughServerRevision ∧
      Issued P (w.readerBinding c) w.log start (d :: h.deliveries) := by
  obtain ⟨r₀, d₀, older, hpend, rfl, hserved, hconfirmed, hdeliveries⟩ := hd.pending_of_delivery hp
  have hnewest := hd.newest_eq hdeliveries
  have hissued := hd.issued
  have htoken₀ : d₀.confirmToken = token :=
    digestToken_inj hP ((hd.newest_digest hdeliveries).symm.trans htoken)
  have hthrough : d₀.pendingDelivery.throughServerRevisionInclusive =
      d₀.page.returnedThroughServerRevision := by
    rw [hnewest]
    rfl
  have hrow' : ReaderRows P (w.confirm ttl c d₀.pendingDelivery)
      (c.confirmed ttl w.now d₀.pendingDelivery) := hrow.confirm hp hgen
  have hbounds : PageBounds w.log d₀.pendingDelivery.throughServerRevisionInclusive
      (w.pageTarget (c.confirmed ttl w.now d₀.pendingDelivery)) r.pageLimit :=
    hrow'.bounds hvalid.2.1 hvalid.2.2
  refine ⟨r₀, d₀, older, rfl, htoken₀, hserved, hconfirmed, hdeliveries, hthrough, ?_⟩
  rw [hdeliveries] at hissued ⊢
  refine ⟨⟨w.pageTarget (c.confirmed ttl w.now d₀.pendingDelivery), r.pageLimit,
    secondOf (ttl.expiry w.now), ?_, ?_⟩, hissued⟩
  · rw [hthrough] at hbounds
    exact hbounds
  · rw [hissue, htoken₀.symm, hthrough]
    rfl

/-- The newest delivery is confirmed and the next one is stored. -/
theorem confirm (hconfirm : r.confirm = some token)
    (hafter : r.afterServerRevision = p.throughServerRevisionInclusive)
    (hcursor : matchesTokenDigest P p.nextCursorDigest r.cursor = true) :
    Delivered P start ((w.confirm ttl c p).store d) (c.confirmed ttl w.now p)
      (h.record r (.accepted d)) := by
  obtain ⟨r₀, d₀, older, rfl, htoken₀, hserved, hconfirmed, hdeliveries, hthrough, hnext⟩ :=
    hd.confirm_issued hP hrow hp hgen hvalid htoken hissue
  have hissued := hd.issued
  rw [hdeliveries] at hissued
  have hrecord : h.record r (.accepted d) =
      ⟨(r, d) :: (r₀, d₀) :: older, d₀ :: h.confirmed⟩ := by
    have hnew : d ∉ h.deliveries := hnext.not_mem hP
    have hfind : h.deliveries.find? (fun x => x.confirmToken = token) = some d₀ := by
      rw [hdeliveries, List.find?_cons_of_pos (by simpa using htoken₀)]
    rw [ReaderHistory.record, if_neg hnew, hserved, hconfirm, ReaderHistory.confirm]
    simp only [hfind, if_neg (hissued.not_mem hP)]
  rw [hdeliveries] at hnext
  rw [hrecord]
  refine ⟨hd.retained, hd.known, ?_, hthrough, .inr ⟨r, d, ⟨(r₀, d₀) :: older, rfl, ?_⟩, ?_, ?_,
    hvalid, hafter, ?_, fun _ => ?_⟩⟩
  · rw [ReaderHistory.deliveries, map_cons, map_cons, ← hconfirmed]
    exact hnext
  · rw [map_cons, hconfirmed]
  · exact delivery_store_self (delivery_confirm w ttl c _) (by rw [hissue]; rfl)
  · rw [hissue]
    rfl
  · rw [hissue, hconfirm]
    simp [issue, matchesTokenDigest, digestToken]
  · have hcontinuation : (c.confirmed ttl w.now d₀.pendingDelivery).continuationTokenDigest =
        d₀.pendingDelivery.nextCursorDigest := by
      cases hn : d₀.pendingDelivery.nextCursorDigest <;>
        simp [ReaderCursor.continuationTokenDigest, ReaderCursor.confirmed, ReaderCursor.page, hn]
    rw [hcontinuation]
    exact hcursor

end

/-- A replay serves the newest delivery again and changes nothing. -/
theorem replay (hP : P.Injective) (hp : w.delivery c.deviceId = some p)
    (hpred : matchesTokenDigest P p.predecessorConfirmationDigest r.confirm = true)
    (hissue : d =
      issue P (w.readerBinding c) w.log c.readThroughServerRevision p.targetServerRevision
        p.pageLimit p.predecessorConfirmationDigest p.expiresAt) :
    h.deliveries = d :: h.confirmed ∧ h.record r (.accepted d) = h := by
  obtain ⟨r₀, d₀, older, hpend, rfl, hserved, hconfirmed, hdeliveries⟩ := hd.pending_of_delivery hp
  obtain rfl : d = d₀ := hissue.trans (hd.newest_eq hdeliveries).symm
  refine ⟨hdeliveries, ?_⟩
  have hissued := hd.issued
  rw [hdeliveries] at hissued
  have hold : d ∈ h.deliveries := by
    rw [hdeliveries]
    exact mem_cons_self
  have hconfirm : h.confirm r.confirm = h.confirmed := by
    cases hr : r.confirm with
    | none => rfl
    | some token =>
      -- the presented token is the one confirmed last
      rw [hr] at hpred
      have hlinked := hd.linked hdeliveries
      cases hlast : h.confirmed with
      | nil =>
        rw [hlast] at hlinked
        rw [hlinked] at hpred
        cases hpred
      | cons d₁ rest =>
        rw [hlast] at hlinked hissued
        rw [hlinked] at hpred
        have htoken : d₁.confirmToken = token :=
          digestToken_inj hP (Option.some.inj (matchesTokenDigest_iff.mp hpred))
        have hne : ¬ d.confirmToken = token := fun heq =>
          hissued.token_ne hP d₁ mem_cons_self (htoken.trans heq.symm)
        have hfind : h.deliveries.find? (fun x => x.confirmToken = token) = some d₁ := by
          rw [hdeliveries, hlast, List.find?_cons_of_neg (by simpa using hne),
            List.find?_cons_of_pos (by simpa using htoken)]
        rw [ReaderHistory.confirm]
        simp only [hfind, hlast, mem_cons_self, if_true]
  rw [ReaderHistory.record, if_pos hold, hconfirm]

end Delivered

section

variable [DecidableEq H] {h : ReaderHistory H}

/-- One pull of the reader. -/
theorem delivered_pullStep {r : PullRequest H} {res : PersistentReaderPullResult H}
    (hP : P.Injective) (hinv : ReaderInv P w) (hc : w.reader deviceId = some c)
    (hd : Delivered P start w c h) (hs : PullStep P ttl w deviceId r w' res) :
    ∃ c', w'.reader deviceId = some c' ∧
      c.readThroughServerRevision ≤ c'.readThroughServerRevision ∧
      Delivered P start w' c' (h.record r res) := by
  obtain rfl := reader_device hc
  cases hs with
  | reject code => exact ⟨c, hc, le_rfl, hd⟩
  | @retire x reason code hx hactive =>
    cases hc.symm.trans hx
    have hdevice : (c.retire reason).deviceId = c.deviceId := rfl
    refine ⟨c.retire reason, ?_, le_rfl, ?_⟩
    · rw [reader_setReader_self hdevice, hc]
      rfl
    · refine hd.transfer (.of_eq rfl rfl) rfl rfl rfl (fun ha => ?_) rfl
      cases ha
  | @first x d hx hactive hnone hvalid hconfirm hafter hcursor hissue =>
    cases hc.symm.trans hx
    refine ⟨c, hc, le_rfl, ?_⟩
    exact hd.first (hinv.rows _ c hc hactive) hnone hvalid hconfirm hafter hcursor hissue
  | @confirm x p token d hx hactive hp hgen hlive hvalid hconfirm htoken hafter hcursor hissue =>
    cases hc.symm.trans hx
    have hrow := hinv.rows _ c hc hactive
    refine ⟨c.confirmed ttl w.now p, reader_confirm hc, (hrow.through_bounds hp hgen).1, ?_⟩
    exact hd.confirm hP hrow hp hgen hvalid htoken hissue hconfirm hafter hcursor
  | @replay x p d hx hactive hp hgen hlive hpred hafter hissue =>
    cases hc.symm.trans hx
    refine ⟨c, hc, le_rfl, ?_⟩
    rw [(hd.replay hP hp hpred hissue).2]
    exact hd

/-- Any other event leaves position and delivery of the reader alone. -/
theorem delivered_other (hc : w.reader deviceId = some c)
    (hd : Delivered P start w c h) (hs : CloudStep P ttl w e w')
    (hkeeps : KeepsGeneration deviceId e) (hother : ∀ r, e ≠ .pull deviceId r) :
    ∃ c', w'.reader deviceId = some c' ∧
      c.readThroughServerRevision ≤ c'.readThroughServerRevision ∧ Delivered P start w' c' h := by
  have hgrows := logGrows_step hs hkeeps.1
  obtain rfl := reader_device hc
  cases deviceStep hs c.deviceId with
  | same _ hreader hdelivery =>
    refine ⟨c, hreader.trans hc, le_rfl, ?_⟩
    exact hd.transfer hgrows rfl rfl rfl (fun ha => ⟨ha, rfl⟩) hdelivery
  | @touched _ x c' hx hc' hdevice hgen hread hactive hdelivery =>
    cases hc.symm.trans hx
    exact ⟨c', hc', le_of_eq hread.symm,
      hd.transfer hgrows hdevice hgen hread hactive hdelivery⟩
  | opened _ _ hnone _ _ => cases hnone.symm.trans hc
  | reopened => exact absurd rfl hkeeps.2
  | pulled => exact absurd rfl (hother _)

/-- One event of the service. -/
theorem delivered_step {s : Workspace H × ReaderHistory H} (hP : P.Injective)
    (hinv : ReaderInv P s.1) (hc : s.1.reader deviceId = some c) (hd : Delivered P start s.1 c s.2)
    (hkeeps : KeepsGeneration deviceId e) :
    ∃ c', ((observed P ttl deviceId).next s e).1.reader deviceId = some c' ∧
      c.readThroughServerRevision ≤ c'.readThroughServerRevision ∧
      Delivered P start ((observed P ttl deviceId).next s e).1 c'
        ((observed P ttl deviceId).next s e).2 := by
  by_cases hpull : ∃ r, e = .pull deviceId r
  · obtain ⟨r, rfl⟩ := hpull
    rcases observed_next_pull hinv with ⟨hsame, _⟩ | ⟨w', res, hstep, _, hnext⟩
    · rw [hsame]
      exact ⟨c, hc, le_rfl, hd⟩
    · rw [hnext]
      exact delivered_pullStep hP hinv hc hd hstep
  · have hother : ∀ r, e ≠ .pull deviceId r := fun r hr => hpull ⟨r, hr⟩
    rw [observed_next_other hother]
    exact delivered_other hc hd (service_step hinv e) hkeeps hother

end

/-! ## Exactly once -/

/-- What holds of a reader that opened at `start`.

* `confirmed`: the confirmed pages, in the order of confirmation, are the log from
  the opening to the cursor: every revision once, in order, without a gap.
* `single`: at most one delivery is pending.
* `monotone`: no event moves the cursor back.
* `served`: an accepted pull that does not confirm the newest delivery gets that
  delivery again, page and token.
* `replayed`: the request that got it gets it again as long as neither it nor the
  lease has expired. -/
structure ExactlyOnce [DecidableEq H] (P : Platform H) (ttl : LeaseTtl) (deviceId : String)
    (start : Nat) (s : Workspace H × ReaderHistory H) : Prop where
  confirmed : ∃ c, s.1.reader deviceId = some c ∧
    s.2.confirmed.reverse.flatMap (·.page.mutations) =
      s.1.log.readRange start c.readThroughServerRevision ∧
    DenseFrom SyncMutation.serverRevision start
      (s.2.confirmed.reverse.flatMap (·.page.mutations)) ∧
    start + (s.2.confirmed.reverse.flatMap (·.page.mutations)).length =
      c.readThroughServerRevision
  single : (s.1.deliveries.filter (·.deviceId = deviceId)).length ≤ 1
  monotone : ∀ e, KeepsGeneration deviceId e → ∀ c c', s.1.reader deviceId = some c →
    ((service P ttl).next s.1 e).reader deviceId = some c' →
    c.readThroughServerRevision ≤ c'.readThroughServerRevision
  served : ∀ r d older, s.2.served = (r, d) :: older → ∀ r' d',
    (service P ttl).out s.1 (.pull deviceId r') = .pulled (.accepted d') →
    r'.confirm ≠ some d.confirmToken → d' = d
  replayed : ∀ r d older, s.2.served = (r, d) :: older → ∀ c, s.1.reader deviceId = some c →
    c.isActive = true → s.1.now < c.leaseExpiresAt → c.rowVersion < maxSafeInteger →
    s.1.now < instantOf d.pendingDelivery.expiresAt →
    (service P ttl).out s.1 (.pull deviceId r) = .pulled (.accepted d)

section

variable [DecidableEq H] {h : ReaderHistory H}

/-- The request of the pending delivery does not present its token. -/
theorem Pending.not_confirming {r : PullRequest H} (hP : P.Injective)
    (hd : Delivered P start w c h) (hp : Pending P w c h r d) :
    matchesTokenDigest P (some d.pendingDelivery.confirmationTokenDigest) r.confirm = false := by
  have hdeliveries := hp.deliveries
  have hissued := hd.issued
  rw [hdeliveries] at hissued
  have hpred := hp.predecessor
  rw [hd.linked hdeliveries] at hpred
  cases hr : r.confirm with
  | none => rfl
  | some token =>
    cases hlast : h.confirmed with
    | nil => rw [hr, hlast] at hpred; cases hpred
    | cons d₁ rest =>
      rw [hr, hlast] at hpred
      rw [hlast] at hissued
      refine Bool.eq_false_of_not_eq_true fun hmatch => ?_
      have hdigest : digestToken P d₁.confirmToken = digestToken P d.confirmToken := by
        rw [← hd.newest_digest hdeliveries, Option.some.inj (matchesTokenDigest_iff.mp hmatch)]
        exact Option.some.inj (matchesTokenDigest_iff.mp hpred)
      exact hissued.token_ne hP d₁ mem_cons_self (digestToken_inj hP hdigest)

theorem exactlyOnce_of_delivered {s : Workspace H × ReaderHistory H} (hP : P.Injective)
    (hdevice : validIdentifier deviceId = true) (hinv : ReaderInv P s.1)
    (hc : s.1.reader deviceId = some c) (hd : Delivered P start s.1 c s.2) :
    ExactlyOnce P ttl deviceId start s := by
  obtain rfl := reader_device hc
  -- the newest delivery is the stored one
  have hnewest : ∀ r d older, s.2.served = (r, d) :: older →
      Pending P s.1 c s.2 r d ∧ s.2.deliveries = d :: s.2.confirmed := by
    intro r d older hserved
    rcases hd.pending with ⟨_, hempty⟩ | ⟨r', d', hp⟩
    · rw [hempty] at hserved
      cases hserved
    · obtain ⟨older', hserved', -⟩ := hp.served
      cases hserved.symm.trans hserved'
      exact ⟨hp, hp.deliveries⟩
  constructor
  · have hissued : Issued P (s.1.readerBinding c) s.1.log start s.2.confirmed := by
      rcases hd.pending with ⟨_, hempty⟩ | ⟨r, d, hp⟩
      · rw [hempty]
        trivial
      · obtain ⟨older, hserved, _⟩ := hp.served
        have hissued := hd.issued
        rw [(hnewest r d older hserved).2] at hissued
        exact hissued.tail
    obtain ⟨hle, hhead, hpages⟩ := hissued.pages hd.retained hd.known
    refine ⟨c, hc, ?_, ?_, ?_⟩
    · rw [hpages, hd.position]
    · rw [hpages]
      exact MutationLog.readRange_dense hd.retained hle hhead
    · rw [hpages, MutationLog.readRange_length hd.retained hle hhead, hd.position]
      exact Nat.add_sub_cancel' hle
  · exact length_filter_le_one hinv.single c.deviceId
  · intro e hkeeps x x' hx hx'
    cases hc.symm.trans hx
    obtain ⟨y, hy, hle, _⟩ := delivered_step hP hinv hc hd hkeeps
    cases (show ((service P ttl).next s.1 e).reader c.deviceId = some y from hy).symm.trans hx'
    exact hle
  · intro r d older hserved r' d' hout hnot
    obtain ⟨hp, hdeliveries⟩ := hnewest r d older hserved
    rcases observed_next_pull (P := P) (s := s) hinv with ⟨_, hout'⟩ | ⟨w', res, hstep, hout', _⟩
    · cases hout.symm.trans hout'
    · cases hout.symm.trans hout'
      cases hstep with
      | first hx _ hnone => cases hnone.symm.trans hp.stored
      | @confirm x p token _ hx _ hp' _ _ _ hconfirm htoken _ _ _ =>
        -- the presented token would be the newest delivery's
        cases hp.stored.symm.trans hp'
        have htoken' := digestToken_inj hP ((hd.newest_digest hdeliveries).symm.trans htoken)
        exact absurd (hconfirm.trans (congrArg some htoken'.symm)) hnot
      | @replay x p _ hx _ hp' _ _ hpred _ hissue =>
        cases hc.symm.trans hx
        cases hp.stored.symm.trans hp'
        exact hissue.trans (hd.newest_eq hdeliveries).symm
  · intro r d older hserved x hx hactive hlease hversion hlive
    cases hc.symm.trans hx
    obtain ⟨hp, hdeliveries⟩ := hnewest r d older hserved
    have hpull := pullV2_replay ttl (hinv.rows _ c hc hactive) hdevice hp.valid hc hactive hlease
      hversion hp.stored hp.generation hlive (hp.not_confirming hP hd) hp.predecessor hp.after
      (hp.cursor hactive)
    rw [← hd.newest_eq hdeliveries] at hpull
    show (transact s.1 .pulled (pullV2 P ttl s.1 c.deviceId r)).2 = _
    rw [hpull]
    rfl

end

/-- What an accepted opening of a new reader leaves behind. -/
theorem delivered_opened [DecidableEq H] {t : Option H}
    (hinv : ReaderInv P w) (hnew : w.reader deviceId = none)
    (hopen : (service P ttl).out w (.openReader deviceId start) = .cursor (.accepted c t)) :
    validIdentifier deviceId = true ∧ ∃ c',
      ((service P ttl).next w (.openReader deviceId start)).reader deviceId = some c' ∧
      Delivered P start ((service P ttl).next w (.openReader deviceId start)) c' ⟨[], []⟩ := by
  replace hopen : (transact w .cursor (openReader ttl w deviceId start)).2 =
      .cursor (.accepted c t) := hopen
  show validIdentifier deviceId = true ∧ ∃ c',
    (transact w .cursor (openReader ttl w deviceId start)).1.reader deviceId = some c' ∧
      Delivered P start (transact w .cursor (openReader ttl w deviceId start)).1 c' ⟨[], []⟩
  unfold openReader at hopen ⊢
  split at hopen
  next => cases hopen
  next hinput =>
  rw [if_neg hinput]
  split at hopen
  next => cases hopen
  next hretained =>
  rw [if_neg hretained]
  split at hopen
  next => cases hopen
  next hknown =>
  rw [if_neg hknown]
  have hdevice : validIdentifier deviceId = true := by
    cases hv : validIdentifier deviceId with
    | true => rfl
    | false => rw [hv] at hinput; exact absurd rfl hinput
  simp only [hnew, transact]
  refine ⟨hdevice, .opened ttl w.now deviceId start, ?_, ?_⟩
  · have hread := reader_opened (w := w) (c := .opened ttl w.now deviceId start) deviceId
    rw [hnew, Option.none_or] at hread
    exact hread.trans (if_pos rfl)
  · exact ⟨not_lt.mp hretained, not_lt.mp hknown, trivial, rfl,
      .inl ⟨hinv.delivery_none hnew, rfl⟩⟩

/-- Exactly-once delivery: from the opening of a reader in any reachable state, along
every run without compaction or a new generation of it. -/
theorem exactlyOnce_run [DecidableEq H] {w₀ : Workspace H} (hP : P.Injective) (h₀ : w₀.Initial)
    (es₀ : List (CloudEvent H)) {start : Nat} {c : ReaderCursor H} {t : Option H}
    (hnew : ((service P ttl).run w₀ es₀).reader deviceId = none)
    (hopen : (service P ttl).out ((service P ttl).run w₀ es₀) (.openReader deviceId start) =
      .cursor (.accepted c t))
    {es : List (CloudEvent H)} (hes : ∀ e ∈ es, KeepsGeneration deviceId e) :
    ExactlyOnce P ttl deviceId start ((observed P ttl deviceId).run
      ((service P ttl).next ((service P ttl).run w₀ es₀) (.openReader deviceId start), ⟨[], []⟩)
      es) := by
  have hinv : ReaderInv P ((service P ttl).run w₀ es₀) := readerInv_run (readerInv_initial h₀) es₀
  obtain ⟨hdevice, hstart⟩ := delivered_opened hinv hnew hopen
  have hrun := (observed P ttl deviceId).run_inv
    (I := fun s => ReaderInv P s.1 ∧ ∃ c, s.1.reader deviceId = some c ∧
      Delivered P start s.1 c s.2)
    (G := fun _ => KeepsGeneration deviceId)
    (s := ((service P ttl).next ((service P ttl).run w₀ es₀) (.openReader deviceId start),
      ⟨[], []⟩))
    (fun s e hs hkeeps => by
      obtain ⟨hinv, c, hc, hd⟩ := hs
      obtain ⟨c', hc', _, hd'⟩ := delivered_step hP hinv hc hd hkeeps
      exact ⟨readerInv_step hinv (service_step hinv e), c', hc', hd'⟩)
    ⟨readerInv_step hinv (service_step hinv _), hstart⟩
    ((observed P ttl deviceId).along_of_mem hes)
  obtain ⟨hinv', c', hc', hd'⟩ := hrun
  exact exactlyOnce_of_delivered hP hdevice hinv' hc' hd'

/-- The sample workspace with one entry, in which the reader has opened at 0. -/
def sampleOpened : Workspace Symbolic :=
  (service platform sampleTtl).next
    (sampleServed [.ingest samplePorts [sampleNote "m1" 1]]) (.openReader "reader" 0)

/-- The request that confirms the answer to a first pull. -/
def sampleConfirm : PullRequest Symbolic :=
  match (service platform sampleTtl).out sampleOpened (.pull "reader" samplePull) with
  | .pulled (.accepted d) =>
    ⟨d.page.returnedThroughServerRevision, d.page.nextCursor, some d.confirmToken, 256⟩
  | _ => samplePull

/-- A repeated pull, its confirmation, and the confirmation repeated. -/
def sampleDelivery : List (CloudEvent Symbolic) :=
  [.pull "reader" samplePull, .pull "reader" samplePull, .pull "reader" sampleConfirm,
    .pull "reader" sampleConfirm]

theorem exactlyOnce_run_sample :
    ((observed platform sampleTtl "reader").run (sampleOpened, ⟨[], []⟩)
      sampleDelivery).2.confirmed.map (·.page.mutations.length) = [1] ∧
    ExactlyOnce platform sampleTtl "reader" 0
      ((observed platform sampleTtl "reader").run (sampleOpened, ⟨[], []⟩)
        sampleDelivery) := by
  refine ⟨by decide, ?_⟩
  exact exactlyOnce_run (c := .opened sampleTtl 0 "reader" 0) (t := none) platform_injective
    sampleWorkspace_initial [.ingest samplePorts [sampleNote "m1" 1]] (by decide) (by decide)
    (by decide)

end GoodDealer.Cloud
