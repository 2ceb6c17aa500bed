/-
# `GoodDealer.Identity.Rotation` — refresh rotation in every run

For every run of `authentication`, in any order of calls and by any callers:

* no refresh credential is rotated twice (`rotations`);
* an active family has one current refresh credential, the one its row names;
* a revoked family stays revoked with all its credentials and is issued no other, and an epoch
  advance revokes the account's families;
* a rotated credential that is presented under another request id is detected by
  `commitRefresh`, and by `prepareRefresh` while the credential has not expired.

The last item is the one with a condition.  `prepareRefresh` looks at the expiry of the presented
credential before it looks at its state: after the expiry it answers `session_revoked` and leaves
the family active, with its current credential in the hands of whoever rotated last
(`expired_reuse_undetected`).
-/
import GoodDealer.Identity.Transactions

namespace GoodDealer.Identity

open Table List Keyed

namespace IdentityTables

variable {t t' : IdentityTables} {c : CredentialJti} {snapshot : RefreshSnapshot} {now : Nat}

/-! ## What a caller holds -/

/-- A snapshot that was read from the tables, now or earlier. -/
structure Held (t : IdentityTables) (p : RefreshSnapshot) : Prop where
  credential : ∃ c ∈ t.credentialJtis, c.toOwner = p.toOwner ∧ c.jti = p.presentedRefreshJti ∧
    c.kind = .refresh
  session : ∃ s ∈ t.authSessions, s.key = p.sessionKey ∧ s.expiresAt = none
  epoch : ∀ f ∈ t.refreshFamilies, f.toOwner = p.toOwner → f.state = .active →
    ∀ a ∈ t.securityStates, a.accountId = p.accountId →
      a.accountSecurityEpoch = p.accountSecurityEpoch

theorem Held.evolves {p : RefreshSnapshot} (h : t.Held p) (hsound : t.Sound)
    (hsound' : t'.Sound) (hevolves : Evolves t t') : t'.Held p := by
  obtain ⟨c, hc, howner, hjti, hkind⟩ := h.credential
  obtain ⟨s, hs, hkey, hexpires⟩ := h.session
  refine { credential := ?_, session := ?_, epoch := ?_ }
  · obtain ⟨c', hc', howner', hjti', hkind', -⟩ := hevolves.credential c hc
    exact ⟨c', hc', howner'.trans howner, hjti'.trans hjti, hkind'.trans hkind⟩
  · obtain ⟨s', hs', hkey', hexpires'⟩ := hevolves.session s hs
    exact ⟨s', hs', hkey'.trans hkey, hexpires'.trans hexpires⟩
  · intro f' hf' hfowner hactive a' ha' hid
    -- the family was there, and was active
    obtain ⟨f, hf, hfc⟩ := hsound.owned c hc
    have hfp : f.toOwner = p.toOwner := hfc.trans howner
    have hstay : ∀ g ∈ t'.refreshFamilies, g.toOwner = f.toOwner → g.state = .active := by
      intro g hg hgowner
      rw [hsound'.family_eq hg hf' (by rw [hgowner, hfp, hfowner])]
      exact hactive
    rcases hevolves.epoch a' ha' with ⟨a, ha, haid, haepoch⟩ | hall
    · have hfactive : f.state = .active := by
        obtain ⟨g, hg, hgowner, hkeeps⟩ := hevolves.family f hf
        cases hstate : f.state with
        | active => rfl
        | revoked => exact absurd ((hstay g hg hgowner).symm.trans (hkeeps hstate)) (by decide)
      rw [← haepoch]
      exact h.epoch f hf hfp hfactive a ha (haid.trans hid)
    · obtain ⟨g, hg, hgowner, hgrevoked⟩ := hall f hf (by rw [hfp, hid])
      exact absurd ((hstay g hg hgowner).symm.trans hgrevoked) (by decide)

variable (h : t.Sound)

include h

/-- What `identifyRefreshCredential` returns is held. -/
theorem Sound.held_of_identified {accountId jti : String}
    {credential : IdentifiedRefreshCredential}
    (hid : t.identifyRefreshCredential accountId jti = .ok (some credential)) :
    t.Held credential.toRefreshSnapshot := by
  unfold identifyRefreshCredential at hid
  split at hid
  · cases hid
  next c hc =>
  obtain ⟨hmem, hjti, haccount, hkind⟩ := refreshCredential_eq_some hc
  split at hid
  next session security hsession hsecurity =>
    split at hid
    · cases hid
    next deviceId hdevice =>
    obtain ⟨epoch, hepoch, hid⟩ := bind_eq_ok.mp hid
    cases hid
    obtain ⟨hs, hkey⟩ := lookup_eq_some hsession
    obtain ⟨ha, haid⟩ := lookup_eq_some hsecurity
    subst haccount
    refine { credential := ⟨c, hmem, rfl, hjti, hkind⟩, session := ⟨session, hs, hkey, ?_⟩,
             epoch := ?_ }
    · exact h.desktop session hs (by rw [hdevice]; rfl)
    · intro _ _ _ _ a ha' hida
      rw [inj_on_of_nodup_map h.accountKeys ha' ha (hida.trans haid.symm),
        parseSafeInteger_eq_ok hepoch]
  · cases hid

/-! ## Presenting a rotated credential -/

/-- The rows of a credential whose family has not been revoked. -/
theorem Sound.live_rows (hc : c ∈ t.credentialJtis) (hstate : c.state ≠ .revoked) :
    ∃ f ∈ t.refreshFamilies, f.toOwner = c.toOwner ∧ f.state = .active ∧
      ∃ a ∈ t.securityStates, a.accountId = c.accountId ∧ a.status = .normal ∧
        ∃ s ∈ t.authSessions, s.key = c.sessionKey ∧ s.revokedAt = none ∧
          s.epochAtIssue = a.accountSecurityEpoch := by
  obtain ⟨f, hf, howner⟩ := h.owned c hc
  have hactive : f.state = .active := by
    cases hfstate : f.state with
    | active => rfl
    | revoked => exact absurd (h.revoked f hf hfstate c hc (by rw [howner])) hstate
  obtain ⟨a, ha, hid, hstatus, s, hs, hkey, hrest⟩ := h.live f hf hactive
  exact ⟨f, hf, howner, hactive, a, ha, by rw [hid, howner], hstatus, s, hs,
    by rw [hkey, howner], hrest⟩

section

variable (hheld : t.Held snapshot) (hc : c ∈ t.credentialJtis)
  (hjti : c.jti = snapshot.presentedRefreshJti) (hstate : c.state = .rotated)

include hheld hc hjti hstate

/-- The rows of a rotated credential that a caller holds. -/
theorem Sound.rotated_rows :
    c.toOwner = snapshot.toOwner ∧
    t.refreshCredential snapshot.accountId snapshot.presentedRefreshJti = some c ∧
    ∃ f s a, t.refreshFamily c.familyKey = some f ∧ f.state = .active ∧
      t.authSession c.sessionKey = some s ∧ s.revokedAt = none ∧ s.expiresAt = none ∧
      t.securityState c.accountId = some a ∧ a.status = .normal ∧
      s.epochAtIssue = a.accountSecurityEpoch ∧
      a.accountSecurityEpoch = snapshot.accountSecurityEpoch ∧
      parseSafeInteger snapshot.accountSecurityEpoch = .ok snapshot.accountSecurityEpoch := by
  obtain ⟨d, hd, howner, hdjti, hkind⟩ := hheld.credential
  obtain rfl : c = d := h.credential_eq hc hd (hjti.trans hdjti.symm)
  obtain ⟨f, hf, hfowner, hactive, a, ha, hid, hstatus, s, hs, hkey, hlive, hepoch⟩ :=
    h.live_rows hc (by rw [hstate]; decide)
  have hcurrent : a.accountSecurityEpoch = snapshot.accountSecurityEpoch :=
    hheld.epoch f hf (hfowner.trans howner) hactive a ha (by rw [hid, howner])
  refine ⟨howner, ?_, f, s, a, ?_, hactive, ?_, hlive, ?_, ?_, hstatus, hepoch, hcurrent, ?_⟩
  · rw [← hjti, ← howner, refreshCredential, credentialJti, lookup_of_mem h.jtis hc]
    simp [hkind]
  · rw [← hfowner]
    exact lookup_of_mem h.familyKeys hf
  · rw [← hkey]
    exact lookup_of_mem h.sessionKeys hs
  · -- the session of a caller has no end of its own
    obtain ⟨s', hs', hkey', hexpires⟩ := hheld.session
    have hsame : s = s' := inj_on_of_nodup_map h.sessionKeys hs hs'
      (by rw [hkey, hkey', howner])
    rw [hsame, hexpires]
  · rw [← hid]
    exact lookup_of_mem h.accountKeys ha
  · rw [← hcurrent]
    exact if_pos (h.bounded a ha)

/-- What `prepareRefresh` answers to a rotated credential under another request id. -/
theorem Sound.prepareRefresh_rotated {requestId : String}
    (hother : c.rotationRequestId ≠ some requestId) :
    t.prepareRefresh now snapshot requestId =
      if c.expiresAt ≤ now then .ok (t, .sessionRevoked)
      else t.revokeFamily now snapshot.toOwner "refresh_reuse_detected" >>=
        fun t' => .ok (t', .refreshReuseDetected) := by
  obtain ⟨howner, hcredential, f, s, a, hfamily, hactive, hsession, hlive, hopen, hsecurity,
    hstatus, hepoch, hcurrent, hparsed⟩ := h.rotated_rows hheld hc hjti hstate
  have hrow : t.refreshRow snapshot =
      some { credential := c, family := f, session := s, security := a } := by
    simp only [refreshRow, hcredential, if_pos howner, bind, Option.bind, hfamily, hsession,
      hsecurity]
  have hinspect : t.inspectRefresh now snapshot requestId ⟨c, f, s, a⟩ =
      t.revokeFamily now snapshot.toOwner "refresh_reuse_detected" >>=
        fun t' => .ok (t', .refreshReuseDetected) := by
    unfold inspectRefresh
    simp only [hstate]
    split
    · rw [if_neg hother]
    · rfl
  unfold IdentityTables.prepareRefresh
  rw [hrow]
  simp only [hparsed, hepoch, bind, Except.bind, hactive, hlive, hopen, hstatus, hcurrent]
  by_cases hexpired : c.expiresAt ≤ now
  · simp [hexpired]
  · simp only [hexpired, hinspect]
    simp [bind, Except.bind]

end

/-- What `commitRefresh` answers to a rotated credential under another request id. -/
theorem Sound.commitRefresh_rotated {p : PreparedPostgresRefresh}
    {next : NextCredentials} (hheld : t.Held p.toRefreshSnapshot)
    (hc : c ∈ t.credentialJtis) (hjti : c.jti = p.presentedRefreshJti)
    (hstate : c.state = .rotated) (hother : c.rotationRequestId ≠ some p.requestId) :
    t.commitRefresh now p next =
      t.revokeFamily now p.toOwner "refresh_reuse_detected" >>=
        fun t' => .ok (t', .refreshReuseDetected) := by
  obtain ⟨howner, hcredential, f, s, a, hfamily, hactive, -, -, -, hsecurity, hstatus, -, hcurrent,
    hparsed⟩ := h.rotated_rows hheld hc hjti hstate
  have hlocked : t.lockSecurityState p.accountId =
      .ok (some (p.accountSecurityEpoch, .normal)) := by
    rw [howner] at hsecurity
    rw [lockSecurityState, hsecurity]
    simp only [hcurrent, hparsed, bind, Except.bind, hstatus]
  -- the head of the family is current, and the presented credential is not
  have hmissed : t.refreshFamilies.find? (isExpectedHead p) = none := by
    refine List.find?_eq_none.mpr fun g hg hexpected => ?_
    obtain ⟨-, hgactive, hhead, -⟩ := isExpectedHead_iff.mp hexpected
    obtain ⟨d, hd, -, hdjti, -, hdcurrent⟩ := h.head g hg hgactive
    rw [h.credential_eq hd hc (hdjti.trans (hhead.trans hjti.symm)), hstate] at hdcurrent
    cases hdcurrent
  have hanswer : t.missedHead now p =
      t.revokeFamily now p.toOwner "refresh_reuse_detected" >>=
        fun t' => .ok (t', .refreshReuseDetected) := by
    simp only [missedHead, hcredential, Option.filter_some, decide_eq_true howner, if_true,
      hfamily, hactive, hstate, ne_eq, not_true_eq_false, if_false, hother, not_false_eq_true,
      true_and]
  simp only [IdentityTables.commitRefresh, hlocked, bind, Except.bind, if_true, hmissed, hanswer]
  cases hrevoke : t.revokeFamily now p.toOwner "refresh_reuse_detected" with
  | ok t' => rfl
  | error e =>
    rw [revokeFamily_error hrevoke]
    rfl

end IdentityTables

/-! ## Runs -/

namespace AuthenticationState

open IdentityTables

/-- What holds in every state a run reaches. -/
structure Reached (s : AuthenticationState) : Prop where
  sound : s.tables.Sound
  identified : ∀ p ∈ s.identified, s.tables.Held p
  prepared : ∀ p ∈ s.prepared, s.tables.Held p.toRefreshSnapshot

theorem initial_reached : Reached initial where
  sound := initial_sound
  identified := fun _ hp => absurd hp not_mem_nil
  prepared := fun _ hp => absurd hp not_mem_nil

variable {s : AuthenticationState} {jti : String}

section

variable (h : s.Reached)

include h

theorem Reached.moved {t' : IdentityTables}
    (ht' : t'.Sound ∧ Evolves s.tables t') : Reached { s with tables := t' } where
  sound := ht'.1
  identified := fun p hp => (h.identified p hp).evolves h.sound ht'.1 ht'.2
  prepared := fun p hp => (h.prepared p hp).evolves h.sound ht'.1 ht'.2

theorem Reached.settle {α : Type} {reply : α → IdentityReply}
    {x : Except IdentityError (IdentityTables × α)}
    (hx : ∀ t' r, x = .ok (t', r) → t'.Sound ∧ Evolves s.tables t') :
    (s.settle reply x).1.Reached ∧ Evolves s.tables (s.settle reply x).1.tables := by
  cases x with
  | error e => exact ⟨h, Evolves.refl _⟩
  | ok result =>
    obtain ⟨t', r⟩ := result
    exact ⟨h.moved (hx t' r rfl), (hx t' r rfl).2⟩

/-- A family with a rotated credential is revoked by `revokeFamily`, unless that raises. -/
theorem Reached.settle_revoked_iff {α : Type} {c : CredentialJti}
    (hc : c ∈ s.tables.credentialJtis) (hstate : c.state = .rotated) {owner : Owner}
    (howner : c.toOwner = owner) (now : Nat) (reason : String) (result : α)
    (reply : α → IdentityReply) :
    (s.settle reply (s.tables.revokeFamily now owner reason >>=
      fun t' => .ok (t', result))).1.tables.FamilyRevoked c.familyKey ↔
      s.tables.Revisable owner.accountId := by
  obtain ⟨f, hf, hfowner⟩ := h.sound.owned c hc
  rw [← revokeFamily_isOk now owner reason]
  cases hrevoke : s.tables.revokeFamily now owner reason with
  | ok t' =>
    obtain ⟨-, -, hrevoked⟩ := h.sound.revokeFamily hf (hfowner.trans howner) hrevoke
    rw [← howner] at hrevoked
    exact ⟨fun _ => ⟨t', rfl⟩, fun _ => hrevoked⟩
  | error e =>
    constructor
    · intro hrevoked
      have hcrevoked := hrevoked.2 c hc rfl
      rw [hstate] at hcrevoked
      cases hcrevoked
    · rintro ⟨t', ht'⟩
      cases ht'

/-- One call. -/
theorem Reached.call (c : IdentityCall) :
    (s.call c).1.Reached ∧ Evolves s.tables (s.call c).1.tables := by
  cases c with
  | openSecurityState accountId =>
    have hopened := h.sound.opened accountId
    exact ⟨h.moved hopened, hopened.2⟩
  | issueInitial now input => exact h.settle fun _ _ ht' => h.sound.issueInitial ht'
  | identifyRefreshCredential accountId jti =>
    simp only [AuthenticationState.call]
    split
    · exact ⟨h, Evolves.refl _⟩
    · exact ⟨h, Evolves.refl _⟩
    next credential hidentified =>
    have hnew := h.sound.held_of_identified hidentified
    exact ⟨{ h with identified := forall_mem_cons.mpr ⟨hnew, h.identified⟩ }, Evolves.refl _⟩
  | prepareRefresh now snapshot requestId =>
    simp only [AuthenticationState.call]
    split
    next hmem =>
      have hsettled : (s.settle .preparation (s.tables.prepareRefresh now snapshot
          requestId)).1.Reached ∧ Evolves s.tables (s.settle .preparation
            (s.tables.prepareRefresh now snapshot requestId)).1.tables :=
        h.settle fun _ _ ht' => h.sound.prepareRefresh ht'
      split
      next s' p hready =>
        rw [hready] at hsettled
        refine ⟨{ hsettled.1 with prepared := ?_ }, hsettled.2⟩
        intro q hq
        rcases mem_cons.mp hq with rfl | hq
        · -- the preparation carries the snapshot it was made from
          cases hprepare : s.tables.prepareRefresh now snapshot requestId with
          | error e =>
            rw [hprepare] at hready
            cases hready
          | ok result =>
            obtain ⟨t', r⟩ := result
            rw [hprepare] at hready
            cases hready
            rcases prepareRefresh_cases hprepare with ⟨rfl, hsnapshot⟩ | ⟨_, _, hr, _⟩
            · rw [hsnapshot q rfl]
              exact h.identified snapshot hmem
            · cases hr
        · exact hsettled.1.prepared q hq
      · exact hsettled
    · exact ⟨h, Evolves.refl _⟩
  | commitRefresh now p next =>
    simp only [AuthenticationState.call]
    split
    · exact h.settle fun _ _ ht' => h.sound.commitRefresh ht'
    · exact ⟨h, Evolves.refl _⟩
  | recoverRefresh now replay requestId accessJti refreshJti => exact ⟨h, Evolves.refl _⟩
  | advanceSecurityEpoch now accountId status =>
    refine h.settle fun _ _ ht' => ?_
    obtain ⟨hsound, hevolves, -⟩ := h.sound.advanceSecurityEpoch ht'
    exact ⟨hsound, hevolves⟩

/-- Any run from a reached state. -/
theorem Reached.run (calls : List IdentityCall) :
    (authentication.run s calls).Reached ∧
    Evolves s.tables (authentication.run s calls).tables := by
  induction calls generalizing s with
  | nil => exact ⟨h, Evolves.refl _⟩
  | cons c calls ih =>
    obtain ⟨hnext, hevolves⟩ := h.call c
    obtain ⟨hend, hevolves'⟩ := ih hnext
    exact ⟨hend, hevolves.trans hevolves'⟩

end

/-! ## Rotated once -/

/-- The credential a call rotated. -/
def rotatedCredential : IdentityCall → IdentityReply → Option String
  | .commitRefresh _ p _, .commit (.rotated _) => some p.presentedRefreshJti
  | _, _ => none

/-- The credentials that the calls of a run rotated, in their order. -/
def rotations : AuthenticationState → List IdentityCall → List String
  | _, [] => []
  | s, c :: calls =>
    (rotatedCredential c (authentication.out s c)).toList ++
      rotations (authentication.next s c) calls

theorem Reached.rotated_spent (h : s.Reached) {c : IdentityCall}
    (hrotated : rotatedCredential c (authentication.out s c) = some jti) :
    ¬ s.tables.Spent jti ∧ (authentication.next s c).tables.Spent jti := by
  unfold rotatedCredential at hrotated
  split at hrotated
  next now p next g hreply =>
    cases hrotated
    simp only [authentication, Machine.out, Machine.next, AuthenticationState.call] at hreply ⊢
    split at hreply
    next hmem =>
      rw [if_pos hmem]
      cases hcommit : s.tables.commitRefresh now p next with
      | error e =>
        rw [hcommit] at hreply
        cases hreply
      | ok result =>
        obtain ⟨t', r⟩ := result
        rw [hcommit] at hreply
        cases hreply
        exact h.sound.spent_of_rotated hcommit
    · cases hreply
  · cases hrotated

/-- What is spent is not rotated again. -/
theorem Reached.not_mem_rotations :
    ∀ (calls : List IdentityCall) {s : AuthenticationState}, s.Reached → s.tables.Spent jti →
      jti ∉ rotations s calls := by
  intro calls
  induction calls with
  | nil => exact fun _ _ => not_mem_nil
  | cons c calls ih =>
    intro s h hspent hmem
    obtain ⟨hnext, hevolves⟩ := h.call c
    rcases mem_append.mp hmem with hmem | hmem
    · exact (h.rotated_spent (Option.mem_toList.mp hmem)).1 hspent
    · exact ih hnext (hspent.evolves hevolves) hmem

theorem Reached.rotations_nodup :
    ∀ (calls : List IdentityCall) {s : AuthenticationState}, s.Reached →
      (rotations s calls).Nodup := by
  intro calls
  induction calls with
  | nil => exact fun _ => nodup_nil
  | cons c calls ih =>
    intro s h
    have hnext := (h.call c).1
    unfold rotations
    cases hrotated : rotatedCredential c (authentication.out s c) with
    | none => exact ih hnext
    | some jti =>
      refine nodup_cons.mpr ⟨?_, ih hnext⟩
      exact hnext.not_mem_rotations calls (h.rotated_spent hrotated).2

end AuthenticationState

/-! ## The family row -/

namespace IdentityTables

/-- The current refresh credentials of a family. -/
def currentRefreshJtis (t : IdentityTables) (f : RefreshFamily) : List String :=
  (t.credentialJtis.filter fun c => decide (c.familyKey = f.familyKey) &&
    decide (c.kind = .refresh) && decide (c.state = .current)).map CredentialJti.jti

theorem Sound.currentRefreshJtis_eq {t : IdentityTables} (h : t.Sound) {f : RefreshFamily}
    (hf : f ∈ t.refreshFamilies) (hactive : f.state = .active) :
    t.currentRefreshJtis f = [f.currentRefreshJti] := by
  obtain ⟨c, hc, howner, hjti, hkind, hcurrent⟩ := h.head f hf hactive
  have hmem : f.currentRefreshJti ∈ t.currentRefreshJtis f := by
    refine mem_map.mpr ⟨c, mem_filter.mpr ⟨hc, ?_⟩, hjti⟩
    simp [howner, hkind, hcurrent]
  -- there is no other, and the ids are unique
  have hall : ∀ jti ∈ t.currentRefreshJtis f, jti = f.currentRefreshJti := by
    intro jti hjti
    obtain ⟨d, hd, rfl⟩ := mem_map.mp hjti
    obtain ⟨hd, hfilter⟩ := mem_filter.mp hd
    simp only [Bool.and_eq_true, decide_eq_true_eq] at hfilter
    exact (h.current d hd hfilter.2 f hf hfilter.1.1.symm).symm
  have hnodup : (t.currentRefreshJtis f).Nodup :=
    h.jtis.sublist (filter_sublist.map _)
  have hreplicate := eq_replicate_iff.mpr ⟨rfl, hall⟩
  rw [hreplicate, nodup_replicate] at hnodup
  have hpos : 0 < (t.currentRefreshJtis f).length := length_pos_of_mem hmem
  rw [hreplicate, le_antisymm hnodup hpos]
  rfl

end IdentityTables

/-! ## The result -/

namespace AuthenticationState

open IdentityTables

/-- The call presents the credential under a request id that did not rotate it. -/
def Reuses (s : AuthenticationState) (c : CredentialJti) : IdentityCall → Prop
  | .prepareRefresh _ snapshot requestId =>
    snapshot ∈ s.identified ∧ snapshot.presentedRefreshJti = c.jti ∧
      c.rotationRequestId ≠ some requestId
  | .commitRefresh _ p _ =>
    p ∈ s.prepared ∧ p.presentedRefreshJti = c.jti ∧ c.rotationRequestId ≠ some p.requestId
  | _ => False

/-- A preparation comes before the credential expires. -/
def InTime (c : CredentialJti) : IdentityCall → Prop
  | .prepareRefresh now _ _ => now < c.expiresAt
  | _ => True

variable {s : AuthenticationState}

theorem call_prepareRefresh_tables {now : Nat}
    {snapshot : RefreshSnapshot} {requestId : String} (hmem : snapshot ∈ s.identified) :
    (s.call (.prepareRefresh now snapshot requestId)).1.tables =
      (s.settle .preparation (s.tables.prepareRefresh now snapshot requestId)).1.tables := by
  simp only [AuthenticationState.call, if_pos hmem]
  split
  next s' p hready => rw [hready]
  · rfl

theorem Reached.reuse_iff (h : s.Reached) {c : CredentialJti}
    (hc : c ∈ s.tables.credentialJtis) (hstate : c.state = .rotated) {call : IdentityCall}
    (hreuse : s.Reuses c call) :
    (authentication.next s call).tables.FamilyRevoked c.familyKey ↔
      InTime c call ∧ s.tables.Revisable c.accountId := by
  have hlive : ¬ s.tables.FamilyRevoked c.familyKey := by
    intro hrevoked
    have hcrevoked := hrevoked.2 c hc rfl
    rw [hstate] at hcrevoked
    cases hcrevoked
  cases call with
  | prepareRefresh now snapshot requestId =>
    obtain ⟨hmem, hjti, hother⟩ := hreuse
    have hheld := h.identified snapshot hmem
    obtain ⟨d, hd, howner, hdjti, -⟩ := hheld.credential
    obtain rfl : c = d := h.sound.credential_eq hc hd (hjti.symm.trans hdjti.symm)
    have hprepare : s.tables.prepareRefresh now snapshot requestId = _ :=
      h.sound.prepareRefresh_rotated hheld hc hjti.symm hstate hother
    have hnext : (authentication.next s (.prepareRefresh now snapshot requestId)).tables = _ :=
      call_prepareRefresh_tables hmem
    rw [hnext, hprepare]
    by_cases hexpired : c.expiresAt ≤ now
    · rw [if_pos hexpired]
      exact ⟨fun hrevoked => absurd hrevoked hlive,
        fun hintime => absurd hintime.1 (Nat.not_lt_of_le hexpired)⟩
    · rw [if_neg hexpired, h.settle_revoked_iff hc hstate howner, ← howner]
      exact ⟨fun hrevisable => ⟨Nat.lt_of_not_le hexpired, hrevisable⟩, And.right⟩
  | commitRefresh now p next =>
    obtain ⟨hmem, hjti, hother⟩ := hreuse
    have hheld := h.prepared p hmem
    obtain ⟨d, hd, howner, hdjti, -⟩ := hheld.credential
    obtain rfl : c = d := h.sound.credential_eq hc hd (hjti.symm.trans hdjti.symm)
    have hcommit : s.tables.commitRefresh now p next = _ :=
      h.sound.commitRefresh_rotated hheld hc hjti.symm hstate hother
    simp only [authentication, Machine.next, AuthenticationState.call, if_pos hmem, hcommit]
    rw [h.settle_revoked_iff hc hstate howner, ← howner]
    exact ⟨fun hrevisable => ⟨trivial, hrevisable⟩, And.right⟩
  | openSecurityState | issueInitial | identifyRefreshCredential | recoverRefresh
  | advanceSecurityEpoch => exact hreuse.elim

/-- Every run keeps the tables sound. -/
theorem tables_run (calls later : List IdentityCall) :
    let s := authentication.run initial calls
    s.tables.Sound ∧ Evolves s.tables (authentication.run s later).tables := by
  have h := (initial_reached.run calls).1
  exact ⟨h.sound, (h.run later).2⟩

end AuthenticationState

open AuthenticationState IdentityTables in
/-- Refresh rotation in every run. -/
theorem refresh_rotation (calls : List IdentityCall) :
    let s := authentication.run .initial calls
    (rotations .initial calls).Nodup ∧
    (∀ f ∈ s.tables.refreshFamilies, f.state = .active →
      s.tables.currentRefreshJtis f = [f.currentRefreshJti]) ∧
    (∀ c ∈ s.tables.credentialJtis, c.state = .rotated → ∀ call, s.Reuses c call →
      ((authentication.next s call).tables.FamilyRevoked c.familyKey ↔
        InTime c call ∧ s.tables.Revisable c.accountId)) ∧
    (∀ key, s.tables.FamilyRevoked key → ∀ later,
      (authentication.run s later).tables.FamilyRevoked key ∧
      ∀ c ∈ (authentication.run s later).tables.credentialJtis, c.familyKey = key →
        ∃ c₀ ∈ s.tables.credentialJtis, c₀.jti = c.jti) ∧
    (∀ now accountId status epoch,
      authentication.out s (.advanceSecurityEpoch now accountId status) = .epoch epoch →
      ∀ f ∈ s.tables.refreshFamilies, f.accountId = accountId →
        (authentication.next s (.advanceSecurityEpoch now accountId status)).tables.FamilyRevoked
          f.familyKey) := by
  intro s
  have h : s.Reached := (initial_reached.run calls).1
  refine ⟨initial_reached.rotations_nodup calls, ?_, ?_, ?_, ?_⟩
  · exact fun f hf hactive => h.sound.currentRefreshJtis_eq hf hactive
  · exact fun c hc hstate call hreuse => h.reuse_iff hc hstate hreuse
  · intro key hrevoked later
    obtain ⟨hlater, hevolves⟩ := h.run later
    refine ⟨hrevoked.evolves hevolves hlater.sound, fun c hc hkey => ?_⟩
    rcases hevolves.issued c hc with ⟨c₀, hc₀, -, hjti⟩ | hactive
    · exact ⟨c₀, hc₀, hjti⟩
    · -- a new credential is of a family that was active
      obtain ⟨⟨f, hf, hfkey, hstate⟩, -⟩ := hrevoked
      have hfactive := hactive f hf (hfkey.trans hkey.symm)
      exact absurd (hfactive.symm.trans hstate) (by decide)
  · intro now accountId status epoch hreply f hf haccount
    simp only [authentication, Machine.out, Machine.next, AuthenticationState.call] at hreply ⊢
    cases hadvance : s.tables.advanceSecurityEpoch now accountId status with
    | error e =>
      rw [hadvance] at hreply
      cases hreply
    | ok result => exact (h.sound.advanceSecurityEpoch hadvance).2.2 f hf haccount

/-! ### A reuse that is not detected -/

/-- A first login of one device. -/
def firstLogin : InitialIssue where
  accountId := "account"
  familyId := "family"
  sessionId := "session"
  expectedEpoch := 1
  accessJti := "access-0"
  refreshJti := "refresh-0"
  clientKind := .desktop
  deviceId := some "device"
  authMethod := .oauthPkce
  rememberDevice := false
  accessExpiresAt := 900
  refreshExpiresAt := 28800

/-- What a holder of the first refresh credential is handed. -/
def firstSnapshot : RefreshSnapshot where
  toOwner := firstLogin.toOwner
  presentedRefreshJti := "refresh-0"
  accountSecurityEpoch := 1

/-- One holder of the credential rotates it after an hour; the other comes back after its
expiry, eight hours after the login. -/
def lateReuse : List IdentityCall :=
  [.openSecurityState "account",
   .issueInitial 0 firstLogin,
   .identifyRefreshCredential "account" "refresh-0",
   .prepareRefresh 3600 firstSnapshot "thief",
   .commitRefresh 3601 { firstSnapshot with requestId := "thief", expectedGeneration := 0 }
     ⟨"access-1", "refresh-1", 4501, 32401⟩]

open AuthenticationState IdentityTables in
/-- The rotated credential is presented after its expiry under another request id, and its
family stays active with the credential of the other holder. -/
theorem expired_reuse_undetected :
    let s := authentication.run .initial lateReuse
    let reuse := IdentityCall.prepareRefresh 28800 firstSnapshot "victim"
    (∃ c ∈ s.tables.credentialJtis, c.state = .rotated ∧ s.Reuses c reuse ∧
      ¬ (authentication.next s reuse).tables.FamilyRevoked c.familyKey) ∧
    authentication.out s reuse = .preparation .sessionRevoked ∧
    ∃ c ∈ (authentication.next s reuse).tables.credentialJtis,
      c.jti = "refresh-1" ∧ c.state = .current := by
  intro s reuse
  have hrow : (⟨firstLogin.toOwner, "refresh-0", .refresh, .rotated, 1, 28800, some "thief",
      some 1⟩ : CredentialJti) ∈ s.tables.credentialJtis := by decide
  have hheld : firstSnapshot ∈ s.identified := by decide
  have hnext : (⟨firstLogin.toOwner, "refresh-1", .refresh, .current, 1, 32401, none, none⟩ :
      CredentialJti) ∈ (authentication.next s reuse).tables.credentialJtis := by decide
  refine ⟨⟨_, hrow, rfl, ⟨hheld, rfl, by decide⟩, fun hrevoked => ?_⟩, by decide,
    ⟨_, hnext, rfl, rfl⟩⟩
  have hstate := hrevoked.2 _ hnext rfl
  cases hstate

end GoodDealer.Identity
