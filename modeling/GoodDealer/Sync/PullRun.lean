/-
# `GoodDealer.Sync.PullRun` — the two sides of a pull

The cloud keeps the newest delivery, the device the newest page it applied.  Seen from
the device, the deliveries of its reader are a list `seen`, newest first; the cloud is at
the same list or one delivery ahead (`Dialogue.ahead`).  A request presents the token of
the newest delivery the device had applied when it was made, so it names an end of `seen`
(`Presents`), and tokens are never issued twice: a response that answers the device's
current request continues exactly `seen`.

Two things can go wrong with such a response.

* The device recognises a repeated page by its digest.  Two empty pages in a row at one
  revision have the same digest and different tokens, so the second one is a repeated page
  with a wrong token: `MutationConflict`, again and again.
* An entry of the page upserts an entity with a tombstone (`GoodDealer.Sync.Tombstones`).

`pullsAccepted_run`: while a pull that confirms an empty page finds new entries, and deletes
and upserts are in order, neither conflict nor a wrong revision occurs.
-/
import GoodDealer.Sync.Tombstones

namespace GoodDealer.Sync

open Cloud Desktop List Symbolic

variable {H : Type} {P : Platform H} {start : Nat} {deviceId : String}
  {seen : List (PullDelivery H)} {r : PullRequest H}

/-! ## Requests and what they present -/

/-- The request names the deliveries so far, newest first, by the newest one. -/
structure Presents (start : Nat) (older : List (PullDelivery H)) (r : PullRequest H) : Prop where
  after : r.afterServerRevision = endOf start older
  cursor : r.cursor = older.head?.bind (·.page.nextCursor)
  confirm : r.confirm = older.head?.map (·.confirmToken)

/-- The row of the device's reader after a delivery. -/
structure RowOf (r : ReaderState H) (d : PullDelivery H) : Prop where
  readThrough : r.readThroughServerRevision = d.page.returnedThroughServerRevision
  continuation : r.continuationToken = d.page.nextCursor
  confirmation : r.confirmationToken = some d.confirmToken
  digest : r.lastPageDigest = some d.page.pageDigest
  active : r.status = .active

/-- The device has applied these deliveries, newest first. -/
def Remembers (store : Store H) (deviceId : String) : List (PullDelivery H) → Prop
  | [] => store.reader deviceId = none
  | d :: _ => ∃ r, store.reader deviceId = some r ∧ RowOf r d

/-- The page has no entry. -/
def Idle (d : PullDelivery H) : Prop :=
  d.page.returnedThroughServerRevision = d.page.fromServerRevisionExclusive

section

variable {store : Store H}

theorem Remembers.active (h : Remembers store deviceId seen) :
    ∀ r, store.reader deviceId = some r → r.status = .active := by
  intro r hr
  cases seen with
  | nil => cases hr.symm.trans h
  | cons d ds =>
    obtain ⟨r', hr', hrow⟩ := h
    cases hr.symm.trans hr'
    exact hrow.active

/-- What the device asks for. -/
theorem Remembers.presents {pageLimit : Nat} (h : Remembers store deviceId seen)
    (hposition : store.appliedThroughServerRevision = endOf start seen)
    (hr : readSyncPullRequest store deviceId pageLimit = .ok r) : Presents start seen r := by
  unfold readSyncPullRequest at hr
  split at hr
  · cases hr
  cases seen with
  | nil =>
    rw [show store.reader deviceId = none from h] at hr
    cases hr
    exact ⟨hposition, rfl, rfl⟩
  | cons d ds =>
    obtain ⟨row, hrow, hd⟩ := h
    simp only [hrow] at hr
    split at hr
    · cases hr
    · cases hr
      exact ⟨hd.readThrough, hd.continuation, hd.confirmation⟩

/-- A request presents the end of the deliveries whose newest one it confirms. -/
theorem Presents.unique (hP : P.Injective) {reader : ReaderBinding} {l : MutationLog}
    {ds a b : List (PullDelivery H)} (hissued : Issued P reader l start ds) (ha : a <:+ ds)
    (hb : b <:+ ds) (hra : Presents start a r)
    (hconfirm : r.confirm = b.head?.map (·.confirmToken)) : a = b := by
  refine suffix_eq_of_head (hissued.nodup hP) ha hb ?_
  have htokens := hra.confirm.symm.trans hconfirm
  have hdigests := congrArg (Option.map (digestToken P)) htokens
  rw [Option.map_map, Option.map_map] at hdigests
  exact hdigests

/-- A request without a token presents no delivery. -/
theorem Presents.eq_nil {older : List (PullDelivery H)} (h : Presents start older r)
    (hconfirm : r.confirm = none) : older = [] := by
  rw [h.confirm, Option.map_eq_none_iff] at hconfirm
  exact List.head?_eq_none_iff.mp hconfirm

/-- A delivery that was confirmed empty is followed by one with entries. -/
theorem not_idle {ttl : LeaseTtl} {w : Workspace H} {c : ReaderCursor H} {token : H}
    {d d₀ : PullDelivery H} {ds : List (PullDelivery H)}
    (hissued : Issued P (w.readerBinding c) w.log start (d₀ :: ds)) (hvalid : r.Valid)
    (hfinds : Idle d₀ → d₀.page.returnedThroughServerRevision < w.head)
    (hissue : d = issue P (w.readerBinding c) w.log d₀.page.returnedThroughServerRevision
      (w.pageTarget (c.confirmed ttl w.now d₀.pendingDelivery)) r.pageLimit
        (some (digestToken P token)) (secondOf (ttl.expiry w.now))) :
    ¬ (Idle d ∧ Idle d₀) := by
  rintro ⟨hidle, hidle₀⟩
  have hlt := hfinds hidle₀
  obtain ⟨⟨t, n, e, hb, heq⟩, _⟩ := hissued
  -- the older page is empty, so it ends at its target and has no cursor
  have hend : min t (endOf start ds + n) = endOf start ds := by
    rw [heq] at hidle₀
    exact hidle₀
  have hnext : d₀.pendingDelivery.nextCursorDigest = none := by
    rw [heq]
    refine issue_nextCursorDigest.mpr ?_
    have := hb.positive
    have := hb.ordered
    omega
  have htarget : w.pageTarget (c.confirmed ttl w.now d₀.pendingDelivery) = w.head := by
    simp [Workspace.pageTarget, ReaderCursor.confirmed,
      ReaderCursor.pinnedPageTargetServerRevision, ReaderCursor.page, hnext, Workspace.head]
  rw [hissue, htarget] at hidle
  have hnew : min w.head (d₀.page.returnedThroughServerRevision + r.pageLimit) =
      d₀.page.returnedThroughServerRevision := hidle
  have := hvalid.2.1
  omega

end

/-! ## The condition and the property -/

/-- The device whose request the event is. -/
def requester : CloudEvent H → Option String
  | .openReader d _ | .pull d _ | .reopen d .. => some d
  | _ => none

section

variable [DecidableEq H] (J : SerdeJson H) (P : Platform H) (deviceId : String) (s : SyncState H)

/-- A pull that confirms an empty page finds new entries. -/
def FindsEntries (w : Workspace H) (r : PullRequest H) : Prop :=
  ∀ p ∈ w.delivery deviceId,
    matchesTokenDigest P (some p.confirmationTokenDigest) r.confirm = true →
    p.throughServerRevisionInclusive = p.fromServerRevisionExclusive →
    p.throughServerRevisionInclusive < w.head

instance (w : Workspace H) (r : PullRequest H) : Decidable (FindsEntries P deviceId w r) :=
  inferInstanceAs (Decidable (∀ _ ∈ _, _))

/-- The condition on each step: pulls of this device are not idle, and its rows change only at
its own requests. -/
def Undisturbed (e : SyncEvent H) : Prop :=
  Orderly s e ∧ (∀ r ∈ s.pulled e, FindsEntries P deviceId s.cloud r) ∧
    ∀ c ∈ e.served, requester c ≠ some deviceId

instance (e : SyncEvent H) : Decidable (Undisturbed P deviceId s e) :=
  inferInstanceAs (Decidable (_ ∧ _))

/-- No response that answers the current request fails with a conflict or a wrong revision. -/
def PullsAccepted : Prop :=
  ∀ x ∈ s.deliveries, readSyncPullRequest s.store deviceId x.1.pageLimit = .ok x.1 →
    (applySyncPage J P s.store deviceId x.2.page x.2.confirmToken).map (·.1) ≠
      .error .mutationConflict ∧
    (applySyncPage J P s.store deviceId x.2.page x.2.confirmToken).map (·.1) ≠
      .error .revisionRejected

instance : Decidable (PullsAccepted J P deviceId s) :=
  inferInstanceAs (Decidable (∀ x ∈ s.deliveries, _))

end

/-! ## The invariant -/

structure Dialogue [DecidableEq H] (P : Platform H) (deviceId : String) (start : Nat)
    (s : SyncState H) (h : ReaderHistory H) (seen : List (PullDelivery H)) : Prop where
  unblocked : Unblocked P s
  retained : s.cloud.watermark ≤ start
  known : start ≤ s.cloud.head
  rows : (s.cloud.reader deviceId = none ∧ h = ⟨[], []⟩) ∨
    ∃ c, s.cloud.reader deviceId = some c ∧ Delivered P start s.cloud c h
  spaced : h.deliveries.IsChain fun d d' => ¬ (Idle d ∧ Idle d')
  ahead : h.deliveries = seen ∨ ∃ d, h.deliveries = d :: seen
  position : s.store.appliedThroughServerRevision = endOf start seen
  device : Remembers s.store deviceId seen
  pulls : ∀ r ∈ s.pulls, ∃ older, older <:+ seen ∧ Presents start older r
  deliveries : ∀ x ∈ s.deliveries,
    ∃ older, x.2 :: older <:+ h.deliveries ∧ Presents start older x.1
  inbox : ∀ row ∈ s.store.inbox, row.serverRevision ≤ s.store.appliedThroughServerRevision

namespace Dialogue

variable [DecidableEq H] {ttl : LeaseTtl} {s s' : SyncState H} {h : ReaderHistory H}
  {d : PullDelivery H} (hd : Dialogue P deviceId start s h seen)

include hd

theorem issued : ∃ reader, Issued P reader s.cloud.log start h.deliveries := by
  rcases hd.rows with ⟨_, rfl⟩ | ⟨c, _, hc⟩
  · exact ⟨⟨"", "", "", 0⟩, trivial⟩
  · exact ⟨_, hc.issued⟩

theorem seen_suffix : seen <:+ h.deliveries := by
  rcases hd.ahead with heq | ⟨d, heq⟩
  · rw [heq]
  · rw [heq]
    exact suffix_cons d seen

/-- A response to the current request continues what the device has seen. -/
theorem answer (hP : P.Injective) (hx : (r, d) ∈ s.deliveries)
    (hcurrent : readSyncPullRequest s.store deviceId r.pageLimit = .ok r) :
    h.deliveries = d :: seen := by
  obtain ⟨older, hsuffix, hpresents⟩ := hd.deliveries _ hx
  obtain ⟨reader, hissued⟩ := hd.issued
  obtain rfl : older = seen :=
    hpresents.unique hP hissued ((suffix_cons d older).trans hsuffix) hd.seen_suffix
      (hd.device.presents hd.position hcurrent).confirm
  rcases hd.ahead with heq | ⟨d', heq⟩
  · rw [heq] at hsuffix
    have := hsuffix.length_le
    simp at this
  · rw [heq] at hsuffix ⊢
    exact (hsuffix.eq_of_length rfl).symm

/-- The page of that response starts where the device stands, and is not its last one. -/
theorem next_page (hP : P.Injective) (hnext : h.deliveries = d :: seen) :
    d.page.fromServerRevisionExclusive = s.store.appliedThroughServerRevision ∧
    d.page.pageDigest = P.sha256 d.page.digestInput ∧
    ¬ (s.store.appliedThroughServerRevision = d.page.returnedThroughServerRevision ∧
      (s.store.reader deviceId).bind (·.lastPageDigest) = some d.page.pageDigest) := by
  obtain ⟨reader, hissued⟩ := hd.issued
  rw [hnext] at hissued
  obtain ⟨⟨t, n, e, _, hissue⟩, holder⟩ := hissued
  have hfrom : d.page.fromServerRevisionExclusive = s.store.appliedThroughServerRevision := by
    rw [hissue, hd.position]
    rfl
  have hdigest : d.page.pageDigest = P.sha256 d.page.digestInput := by
    rw [hissue]
    rfl
  refine ⟨hfrom, hdigest, ?_⟩
  rintro ⟨happlied, hlast⟩
  cases hseen : seen with
  | nil =>
    have hnone : s.store.reader deviceId = none := by
      have := hd.device
      rw [hseen] at this
      exact this
    rw [hnone] at hlast
    cases hlast
  | cons d' ds =>
    have hdevice := hd.device
    have hspaced := hd.spaced
    have hposition := hd.position
    rw [hseen] at hdevice hposition holder
    rw [hnext, hseen, isChain_cons_cons] at hspaced
    obtain ⟨⟨t', n', e', _, hissue'⟩, _⟩ := holder
    obtain ⟨row, hrow, hrowOf⟩ := hdevice
    -- equal digests are digests of equal pages, so the page before is empty too
    have hsame : d'.page.pageDigest = d.page.pageDigest := by
      rw [hrow, Option.bind_some, hrowOf.digest] at hlast
      exact Option.some.inj hlast
    have hdigest' : d'.page.pageDigest = P.sha256 d'.page.digestInput := by
      rw [hissue']
      rfl
    have hinput := hP.sha256 (hdigest'.symm.trans (hsame.trans hdigest))
    injection hinput with _ hfrom' _ _ hreturned' _
    refine hspaced.1 ⟨happlied.symm.trans hfrom.symm, ?_⟩
    rw [Idle, hreturned', hfrom', hfrom, happlied]

/-! ### Steps -/

section

variable (hu : Unblocked P s') (hpulls : s'.pulls = s.pulls)
  (hdeliveries : s'.deliveries = s.deliveries)

include hu hpulls hdeliveries

/-- Local steps that leave the reader alone. -/
theorem frame (hcloud : s'.cloud = s.cloud)
    (happlied : s'.store.appliedThroughServerRevision = s.store.appliedThroughServerRevision)
    (hreaders : s'.store.readers = s.store.readers) (hinbox : s'.store.inbox = s.store.inbox) :
    Dialogue P deviceId start s' h seen := by
  have hreader : s'.store.reader deviceId = s.store.reader deviceId := by
    rw [Store.reader, hreaders, Store.reader]
  refine ⟨hu, hcloud ▸ hd.retained, hcloud ▸ hd.known, ?_, hd.spaced, hd.ahead,
    happlied.trans hd.position, ?_, hpulls ▸ hd.pulls, hdeliveries ▸ hd.deliveries, ?_⟩
  · rw [hcloud]
    exact hd.rows
  · have := hd.device
    cases seen with
    | nil => exact hreader.trans this
    | cons d ds =>
      obtain ⟨row, hrow, hrowOf⟩ := this
      exact ⟨row, hreader.trans hrow, hrowOf⟩
  · rw [hinbox, happlied]
    exact hd.inbox

variable (hstore : s'.store = s.store)

include hstore

/-- Steps of the cloud that do not serve this device. -/
theorem transfer (hgrows : LogGrows s.cloud s'.cloud)
    (hrows : (s'.cloud.reader deviceId = none ∧ h = ⟨[], []⟩) ∨
      ∃ c, s'.cloud.reader deviceId = some c ∧ Delivered P start s'.cloud c h) :
    Dialogue P deviceId start s' h seen := by
  refine ⟨hu, ?_, le_trans hd.known hgrows.head, hrows, hd.spaced, hd.ahead, ?_, ?_,
    hpulls ▸ hd.pulls, hdeliveries ▸ hd.deliveries, ?_⟩
  · rw [hgrows.watermark]
    exact hd.retained
  · rw [hstore]
    exact hd.position
  · rw [hstore]
    exact hd.device
  · rw [hstore]
    exact hd.inbox

/-- A step of the cloud that is not a request of this device. -/
theorem cloud {e : CloudEvent H}
    (hstep : CloudStep P ttl s.cloud e s'.cloud) (hcompact : e.isCompact = false)
    (hown : requester e ≠ some deviceId) : Dialogue P deviceId start s' h seen := by
  have hgrows := logGrows_step hstep hcompact
  refine hd.transfer hu hpulls hdeliveries hstore hgrows ?_
  rcases hd.rows with ⟨hnone, hempty⟩ | ⟨c, hc, hdelivered⟩
  · refine .inl ⟨?_, hempty⟩
    cases deviceStep hstep deviceId with
    | same _ hreader _ => exact hreader.trans hnone
    | touched _ hc => cases hnone.symm.trans hc
    | opened _ hopen =>
      cases e with
      | openReader d a =>
        rw [CloudEvent.opening, if_neg fun hd => hown (congrArg some hd)] at hopen
        cases hopen
      | _ => cases hopen
    | reopened _ hc => cases hnone.symm.trans hc
    | pulled => exact absurd rfl hown
  · have hkeeps : KeepsGeneration deviceId e := by
      refine ⟨hcompact, ?_⟩
      cases e with
      | reopen => exact hown
      | _ => rintro ⟨⟩
    have hother : ∀ r, e ≠ .pull deviceId r := by
      rintro r rfl
      exact hown rfl
    obtain ⟨c', hc', _, hdelivered'⟩ := delivered_other hc hdelivered hstep hkeeps hother
    exact .inr ⟨c', hc', hdelivered'⟩

/-- The reader opens where the device stood when it asked first. -/
theorem openReader (hr : r ∈ s.pulls)
    (hconfirm : r.confirm = none) (hcloud : s'.cloud =
      (service P ttl).next s.cloud (.openReader deviceId r.afterServerRevision))
    : Dialogue P deviceId start s' h seen := by
  have hafter : r.afterServerRevision = start := by
    obtain ⟨older, _, hpresents⟩ := hd.pulls r hr
    rw [hpresents.after, hpresents.eq_nil hconfirm]
    rfl
  have hstep : CloudStep P ttl s.cloud (.openReader deviceId r.afterServerRevision) s'.cloud := by
    rw [hcloud]
    exact service_step hd.unblocked.reader _
  have hgrows := logGrows_step hstep rfl
  refine hd.transfer hu hpulls hdeliveries hstore hgrows ?_
  rcases hd.rows with ⟨hnone, hempty⟩ | ⟨c, hc, hdelivered⟩
  · cases deviceStep hstep deviceId with
    | same _ hreader _ => exact .inl ⟨hreader.trans hnone, hempty⟩
    | touched _ hc => cases hnone.symm.trans hc
    | @opened _ a hopen _ hc' hdelivery =>
      have ha : a = start := by
        rw [CloudEvent.opening, if_pos rfl, hafter] at hopen
        exact (Option.some.inj hopen).symm
      subst ha hempty
      refine .inr ⟨_, hc', ?_, le_trans hd.known hgrows.head, trivial, rfl, .inl ⟨?_, rfl⟩⟩
      · rw [hgrows.watermark]
        exact hd.retained
      · exact hdelivery.trans (hd.unblocked.reader.delivery_none hnone)
  · obtain ⟨c', hc', _, hdelivered'⟩ := delivered_other hc hdelivered hstep ⟨rfl, nofun⟩
      (fun _ hpull => by cases hpull)
    exact .inr ⟨c', hc', hdelivered'⟩

end

/-- A delivery is served, once the history with it is known. -/
theorem served {cloud : Workspace H} {c : ReaderCursor H} {h' : ReaderHistory H}
    {older : List (PullDelivery H)}
    (hu : Unblocked P { s with cloud := cloud, deliveries := s.deliveries ++ [(r, d)] })
    (hgrows : LogGrows s.cloud cloud) (hc : cloud.reader deviceId = some c)
    (hdelivered : Delivered P start cloud c h') (hpresents : Presents start older r)
    (hspaced : h'.deliveries.IsChain fun d d' => ¬ (Idle d ∧ Idle d'))
    (hahead : h'.deliveries = seen ∨ ∃ d, h'.deliveries = d :: seen)
    (hold : h.deliveries <:+ h'.deliveries) (hnew : d :: older <:+ h'.deliveries) :
    Dialogue P deviceId start { s with cloud := cloud, deliveries := s.deliveries ++ [(r, d)] }
      h' seen := by
  refine ⟨hu, ?_, le_trans hd.known hgrows.head, .inr ⟨c, hc, hdelivered⟩, hspaced, hahead,
    hd.position, hd.device, hd.pulls, ?_, hd.inbox⟩
  · rw [hgrows.watermark]
    exact hd.retained
  · refine forall_mem_append.mpr
      ⟨fun x hx => ?_, forall_mem_singleton.mpr ⟨older, hnew, hpresents⟩⟩
    obtain ⟨older', hsuffix', hpresents'⟩ := hd.deliveries x hx
    exact ⟨older', hsuffix'.trans hold, hpresents'⟩

variable (hP : P.Injective)

include hP

/-- A pull of the device: the newest delivery again, or the one after what was seen. -/
theorem pull {cloud : Workspace H} {result : PersistentReaderPullResult H} (hr : r ∈ s.pulls)
    (hstep : PullStep P ttl s.cloud deviceId r cloud result)
    (hfinds : FindsEntries P deviceId s.cloud r)
    (hu : Unblocked P { s with cloud := cloud, deliveries := answered s.deliveries r result }) :
    ∃ h', Dialogue P deviceId start
      { s with cloud := cloud, deliveries := answered s.deliveries r result } h' seen := by
  have hgrows : LogGrows s.cloud cloud := logGrows_step (.pull hstep) rfl
  obtain ⟨older, hsuffix, hpresents⟩ := hd.pulls r hr
  have holder : older <:+ h.deliveries := hsuffix.trans hd.seen_suffix
  rcases hd.rows with ⟨hnone, hempty⟩ | ⟨c, hc, hdelivered⟩
  · cases hstep with
    | reject => exact ⟨h, hd.transfer hu rfl rfl rfl hgrows hd.rows⟩
    | retire _ _ hc | first hc | confirm hc | replay hc => cases hnone.symm.trans hc
  obtain rfl := reader_device hc
  obtain ⟨c', hc', _, hdelivered'⟩ :=
    delivered_pullStep hP hd.unblocked.reader hc hdelivered hstep
  cases hstep with
  | reject | retire => exact ⟨h, hd.transfer hu rfl rfl rfl hgrows (.inr ⟨c', hc', hdelivered'⟩)⟩
  | @first x d hx hactive hnone hvalid hconfirm hafter hcursor hissue =>
    have hempty : h = ⟨[], []⟩ := by
      rcases hdelivered.pending with ⟨_, hempty⟩ | ⟨r', d', hp⟩
      · exact hempty
      · cases hnone.symm.trans hp.stored
    subst hempty
    have hseen : seen = [] := suffix_nil.mp hd.seen_suffix
    have hrecord : (ReaderHistory.record ⟨[], []⟩ r (.accepted d)).deliveries = [d] := by
      rw [ReaderHistory.deliveries_record]
      rfl
    refine ⟨_, hd.served hu hgrows hc' hdelivered' hpresents ?_ ?_ ?_ ?_⟩
    · rw [hrecord]
      exact .singleton d
    · rw [hrecord, hseen]
      exact .inr ⟨d, rfl⟩
    · exact nil_suffix
    · rw [hrecord, hpresents.eq_nil hconfirm]
  | @confirm x p token d hx hactive hp hgen hlive hvalid hconfirm htoken hafter hcursor hissue =>
    cases hc.symm.trans hx
    have hrow := hd.unblocked.reader.rows _ c hc hactive
    obtain ⟨r₀, d₀, _, rfl, htoken₀, _, _, hdeliveries, hthrough, hnext⟩ :=
      hdelivered.confirm_issued hP hrow hp hgen hvalid htoken hissue
    -- the request presents everything that was served, so the device has seen it
    have hall : older = h.deliveries := by
      refine hpresents.unique hP hdelivered.issued holder suffix_rfl ?_
      rw [hconfirm, hdeliveries, List.head?_cons, Option.map_some, htoken₀]
    have hseen : h.deliveries = seen := by
      rcases hd.ahead with heq | ⟨d', heq⟩
      · exact heq
      · have := hsuffix.length_le
        rw [hall, heq] at this
        simp at this
    have hrecord : (h.record r (.accepted d)).deliveries = d :: h.deliveries := by
      rw [ReaderHistory.deliveries_record, if_neg (hnext.not_mem hP)]
    have hspaced : ¬ (Idle d ∧ Idle d₀) := by
      have hissued := hdelivered.issued
      rw [hdeliveries] at hissued
      rw [hthrough] at hissue
      refine not_idle hissued hvalid (fun hidle => ?_) hissue
      rw [← hthrough]
      refine hfinds _ hp ?_ ?_
      · rw [matchesTokenDigest_iff, hconfirm, htoken]
        rfl
      · rw [hthrough]
        have hfrom : d₀.pendingDelivery.fromServerRevisionExclusive =
            d₀.page.fromServerRevisionExclusive := by
          rw [hdelivered.newest_eq hdeliveries]
          rfl
        rw [hfrom]
        exact hidle
    refine ⟨_, hd.served hu hgrows hc' hdelivered' hpresents ?_ ?_ ?_ ?_⟩
    · have hold := hd.spaced
      rw [hrecord, hdeliveries]
      rw [hdeliveries] at hold
      exact isChain_cons_cons.mpr ⟨hspaced, hold⟩
    · rw [hrecord, hseen]
      exact .inr ⟨d, rfl⟩
    · rw [hrecord]
      exact suffix_cons d _
    · rw [hrecord, hall]
  | @replay x p d hx hactive hp hgen hlive hpred hafter hissue =>
    cases hc.symm.trans hx
    obtain ⟨hdeliveries, hrecord⟩ := hdelivered.replay hP hp hpred hissue
    -- the request presents what came before the newest delivery
    have hall : older = h.confirmed := by
      refine suffix_eq_of_head (hdelivered.issued.nodup hP) holder ?_ ?_
      · rw [hdeliveries]
        exact suffix_cons d _
      · have hstored : d.pendingDelivery.predecessorConfirmationDigest =
            p.predecessorConfirmationDigest := by
          rw [hissue]
          rfl
        rw [← hdelivered.linked hdeliveries, hstored, matchesTokenDigest_iff.mp hpred,
          hpresents.confirm, Option.map_map]
        rfl
    refine ⟨_, hd.served hu hgrows hc' hdelivered' hpresents ?_ ?_ ?_ ?_⟩
    · rw [hrecord]
      exact hd.spaced
    · rw [hrecord]
      exact hd.ahead
    · rw [hrecord]
    · rw [hrecord, hdeliveries, hall]

/-- The device applies the delivery after what it has seen. -/
theorem receive {store : Store H} (hx : (r, d) ∈ s.deliveries)
    (hcurrent : readSyncPullRequest s.store deviceId r.pageLimit = .ok r)
    (happlied : PageApplied s.store deviceId d.page d.confirmToken store)
    (hu : Unblocked P { s with store := store }) :
    Dialogue P deviceId start { s with store := store } h (d :: seen) := by
  have hnext := hd.answer hP hx hcurrent
  have hpage := hd.unblocked.served _ hx
  have happliedTo : s.store.appliedThroughServerRevision ≤ store.appliedThroughServerRevision := by
    rw [happlied.applied, ← happlied.start]
    exact hpage.ordered
  refine ⟨hu, hd.retained, hd.known, hd.rows, hd.spaced, .inl hnext, happlied.applied, ?_, ?_,
    hd.deliveries, ?_⟩
  · obtain ⟨row, hrow, hread, hcontinuation, hconfirmation, hdigest, hactive⟩ := happlied.reader
    exact ⟨row, hrow, hread, hcontinuation, hconfirmation, hdigest, hactive⟩
  · intro r hr
    obtain ⟨older, hsuffix, hpresents⟩ := hd.pulls r hr
    exact ⟨older, hsuffix.trans (suffix_cons d seen), hpresents⟩
  · intro row hrow
    rcases happlied.entries.inbox row hrow with hold | ⟨m, hm, hrevision, _⟩
    · exact le_trans (hd.inbox row hold) happliedTo
    · rw [hrevision, happlied.applied]
      rw [hpage.mutations] at hm
      exact (MutationLog.mem_readRange.mp hm).2.2

theorem step {e : SyncEvent H}
    (hcondition : Undisturbed P deviceId s e) (hstep : SyncStep P ttl deviceId s e s') :
    ∃ h' seen', Dialogue P deviceId start s' h' seen' := by
  obtain ⟨horder, hidle, hown⟩ := hcondition
  have hu := hd.unblocked.step horder hstep
  cases hstep with
  | idle => exact ⟨h, seen, hd⟩
  | mutate hcommit =>
    exact ⟨h, seen, hd.frame hu rfl rfl rfl hcommit.applied hcommit.readers hcommit.inbox⟩
  | deliver hupdate _ =>
    exact ⟨h, seen, hd.frame hu rfl rfl rfl hupdate.applied hupdate.readers hupdate.inbox⟩
  | push hclaim hcloud => exact ⟨h, seen, hd.cloud hu rfl rfl rfl hcloud rfl (by rintro ⟨⟩)⟩
  | request hrequest =>
    have hnew := hd.device.presents hd.position hrequest
    refine ⟨h, seen, { hd with unblocked := hu, pulls := ?_ }⟩
    exact forall_mem_append.mpr ⟨hd.pulls, forall_mem_singleton.mpr ⟨seen, suffix_rfl, hnew⟩⟩
  | openReader hr _ hconfirm =>
    exact ⟨h, seen, hd.openReader hu rfl rfl rfl (mem_of_getElem? hr) hconfirm rfl⟩
  | pull hr hpull =>
    obtain ⟨h', hd'⟩ := hd.pull hP (mem_of_getElem? hr) hpull (hidle _ hr) hu
    exact ⟨h', seen, hd'⟩
  | receive hx hcurrent _ happlied =>
    exact ⟨h, _, hd.receive hP (mem_of_getElem? hx) hcurrent happlied hu⟩
  | cloud hcloud =>
    exact ⟨h, seen, hd.cloud hu rfl rfl rfl hcloud (horder.2.2 _ rfl) (hown _ rfl)⟩

theorem pullsAccepted {J : SerdeJson H} : PullsAccepted J P deviceId s := by
  rintro ⟨r, d⟩ hx hcurrent
  obtain ⟨hfrom, hdigest, hnew⟩ := hd.next_page hP (hd.answer hP hx hcurrent)
  have happlicable := hd.unblocked.applicable
  rw [Unblocked.unapplied_eq (hd.unblocked.served _ hx) hfrom] at happlicable
  cases happly : applySyncPage J P s.store deviceId d.page d.confirmToken with
  | ok x => constructor <;> rintro ⟨⟩
  | error e =>
    rcases applySyncPage_error happly hdigest hfrom hd.device.active hnew hd.inbox
      (Applicable.append.mp happlicable).1 with rfl | rfl
    · constructor <;> rintro ⟨⟩
    · constructor <;> rintro ⟨⟩

end Dialogue

/-! ## Every run -/

/-- A device that has never pulled. -/
structure NeverPulled (P : Platform H) (deviceId : String) (s : SyncState H) : Prop where
  bootstrapped : Bootstrapped P s
  opened : s.cloud.reader deviceId = none
  reader : s.store.reader deviceId = none
  pulls : s.pulls = []
  inbox : ∀ row ∈ s.store.inbox, row.serverRevision ≤ s.store.appliedThroughServerRevision

theorem NeverPulled.dialogue [DecidableEq H] {s : SyncState H}
    (h : NeverPulled P deviceId s) :
    Dialogue P deviceId s.store.appliedThroughServerRevision s ⟨[], []⟩ [] where
  unblocked := h.bootstrapped.unblocked
  retained := h.bootstrapped.retained
  known := h.bootstrapped.known
  rows := .inl ⟨h.opened, rfl⟩
  spaced := .nil
  ahead := .inl rfl
  position := rfl
  device := h.reader
  pulls := fun r hr => by rw [h.pulls] at hr; cases hr
  deliveries := fun x hx => by rw [h.bootstrapped.deliveries] at hx; cases hx
  inbox := h.inbox

/-- Requests and responses are lost, repeated and late, entries arrive or do not: while no
pull confirms an empty page without new entries, and deletes and upserts are in order, a
response that answers the current request is never refused as a conflict or for its
revision. -/
theorem pullsAccepted_run [DecidableEq H] {J : SerdeJson H} {P : Platform H} {ttl : LeaseTtl}
    {deviceId : String} (hP : P.Injective) {s₀ : SyncState H} (h₀ : NeverPulled P deviceId s₀)
    {es : List (SyncEvent H)}
    (hes : (syncSystem J P ttl deviceId).Along (Undisturbed P deviceId) s₀ es) :
    PullsAccepted J P deviceId ((syncSystem J P ttl deviceId).run s₀ es) := by
  have hrun := (syncSystem J P ttl deviceId).run_inv
    (I := fun s => ∃ h seen,
      Dialogue P deviceId s₀.store.appliedThroughServerRevision s h seen)
    (G := Undisturbed P deviceId) ?_ ⟨_, _, h₀.dialogue⟩ hes
  · obtain ⟨h, seen, hd⟩ := hrun
    exact hd.pullsAccepted hP
  · rintro s e ⟨h, seen, hd⟩ hcondition
    exact hd.step hP hcondition (syncSystem_step hd.unblocked.reader e)

theorem sampleSync_neverPulled : NeverPulled platform "device" sampleSync where
  bootstrapped := sampleSync_bootstrapped
  opened := rfl
  reader := rfl
  pulls := rfl
  inbox := fun row hrow => by cases hrow

/-- An idle pull, an edit that is pushed, and the pull that brings it back, answered twice. -/
def sampleBusy : List (SyncEvent Symbolic) :=
  samplePulled ++ samplePushed ++ [.request 256, .pull 1, .pull 1, .receive 1, .receive 2]

theorem pullsAccepted_run_sample :
    (sampleSynced sampleBusy).store.appliedThroughServerRevision = 1 ∧
    PullsAccepted sampleJson platform "device" (sampleSynced sampleBusy) :=
  ⟨by decide, pullsAccepted_run platform_injective sampleSync_neverPulled (by decide)⟩

/-- Two pulls with nothing new: the second empty page is taken for the first, with a wrong
token. -/
theorem not_pullsAccepted_idle :
    NeverPulled platform "device" sampleSync ∧
    ¬ PullsAccepted sampleJson platform "device"
      (sampleSynced (samplePulled ++ [.request 256, .pull 1])) :=
  ⟨sampleSync_neverPulled, by decide⟩

end GoodDealer.Sync
