/-
# `GoodDealer.Identity.Families` — what the identity tables keep

`IdentityTables.Sound` is what holds of the tables between transactions:

* keys are unique, and a session has one family at most;
* an active family has a current refresh credential, the one its row names, and no other
  credential of the family is current;
* the credentials of a revoked family are all revoked;
* an active family is of an account with status `normal`, and its session is live and of the
  account's present epoch.

`IdentityTables.Evolves` is what no transaction takes back: credentials and families stay with
their owners, a credential that is not current never becomes current, a revoked family never
becomes active and is issued no credential, and an epoch only changes together with the
revocation of all of the account's families.  Each group of statements that a transaction makes
keeps the first and is of the second kind; the transactions are put together from these groups in
`Identity.Rotation`.
-/
import GoodDealer.Identity.Authentication
import GoodDealer.Lib.Transaction

namespace GoodDealer.Identity

open Table List

namespace IdentityTables

structure Sound (t : IdentityTables) : Prop where
  accountKeys : (t.securityStates.map AccountSecurityState.accountId).Nodup
  sessionKeys : (t.authSessions.map AuthSession.key).Nodup
  familyKeys : (t.refreshFamilies.map fun f => f.familyKey).Nodup
  familySessions : (t.refreshFamilies.map fun f => f.sessionKey).Nodup
  jtis : (t.credentialJtis.map CredentialJti.jti).Nodup
  owned : ∀ c ∈ t.credentialJtis, ∃ f ∈ t.refreshFamilies, f.toOwner = c.toOwner
  head : ∀ f ∈ t.refreshFamilies, f.state = .active →
    ∃ c ∈ t.credentialJtis, c.toOwner = f.toOwner ∧ c.jti = f.currentRefreshJti ∧
      c.kind = .refresh ∧ c.state = .current
  current : ∀ c ∈ t.credentialJtis, c.state = .current →
    ∀ f ∈ t.refreshFamilies, f.familyKey = c.familyKey → f.currentRefreshJti = c.jti
  revoked : ∀ f ∈ t.refreshFamilies, f.state = .revoked →
    ∀ c ∈ t.credentialJtis, c.familyKey = f.familyKey → c.state = .revoked
  live : ∀ f ∈ t.refreshFamilies, f.state = .active →
    ∃ a ∈ t.securityStates, a.accountId = f.accountId ∧ a.status = .normal ∧
      ∃ s ∈ t.authSessions, s.key = f.sessionKey ∧ s.revokedAt = none ∧
        s.epochAtIssue = a.accountSecurityEpoch
  bounded : ∀ a ∈ t.securityStates, a.accountSecurityEpoch ≤ maxSafeInteger
  desktop : ∀ s ∈ t.authSessions, s.deviceId.isSome → s.expiresAt = none

structure Evolves (t t' : IdentityTables) : Prop where
  credential : ∀ c ∈ t.credentialJtis, ∃ c' ∈ t'.credentialJtis, c'.toOwner = c.toOwner ∧
    c'.jti = c.jti ∧ c'.kind = c.kind ∧ (c'.state = .current → c.state = .current)
  family : ∀ f ∈ t.refreshFamilies, ∃ f' ∈ t'.refreshFamilies, f'.toOwner = f.toOwner ∧
    (f.state = .revoked → f'.state = .revoked)
  session : ∀ s ∈ t.authSessions, ∃ s' ∈ t'.authSessions, s'.key = s.key ∧
    s'.expiresAt = s.expiresAt
  epoch : ∀ a' ∈ t'.securityStates,
    (∃ a ∈ t.securityStates, a.accountId = a'.accountId ∧
      a.accountSecurityEpoch = a'.accountSecurityEpoch) ∨
    ∀ f ∈ t.refreshFamilies, f.accountId = a'.accountId →
      ∃ f' ∈ t'.refreshFamilies, f'.toOwner = f.toOwner ∧ f'.state = .revoked
  issued : ∀ c' ∈ t'.credentialJtis,
    (∃ c ∈ t.credentialJtis, c.toOwner = c'.toOwner ∧ c.jti = c'.jti) ∨
    ∀ f ∈ t.refreshFamilies, f.familyKey = c'.familyKey → f.state = .active

theorem initial_sound : Sound ⟨[], [], [], []⟩ := by
  constructor <;> simp

theorem Evolves.refl (t : IdentityTables) : Evolves t t where
  credential := fun c hc => ⟨c, hc, rfl, rfl, rfl, id⟩
  family := fun f hf => ⟨f, hf, rfl, id⟩
  session := fun s hs => ⟨s, hs, rfl, rfl⟩
  epoch := fun a ha => .inl ⟨a, ha, rfl, rfl⟩
  issued := fun c hc => .inl ⟨c, hc, rfl, rfl⟩

theorem Evolves.trans {t t' t'' : IdentityTables} (h : Evolves t t') (h' : Evolves t' t'') :
    Evolves t t'' where
  credential := by
    intro c hc
    obtain ⟨c', hc', howner, hjti, hkind, hcurrent⟩ := h.credential c hc
    obtain ⟨c'', hc'', howner', hjti', hkind', hcurrent'⟩ := h'.credential c' hc'
    exact ⟨c'', hc'', howner'.trans howner, hjti'.trans hjti, hkind'.trans hkind,
      hcurrent ∘ hcurrent'⟩
  family := by
    intro f hf
    obtain ⟨f', hf', howner, hrevoked⟩ := h.family f hf
    obtain ⟨f'', hf'', howner', hrevoked'⟩ := h'.family f' hf'
    exact ⟨f'', hf'', howner'.trans howner, hrevoked' ∘ hrevoked⟩
  session := by
    intro s hs
    obtain ⟨s', hs', hkey, hexpires⟩ := h.session s hs
    obtain ⟨s'', hs'', hkey', hexpires'⟩ := h'.session s' hs'
    exact ⟨s'', hs'', hkey'.trans hkey, hexpires'.trans hexpires⟩
  epoch := by
    intro a'' ha''
    rcases h'.epoch a'' ha'' with ⟨a', ha', hid', hepoch'⟩ | hall
    · rcases h.epoch a' ha' with ⟨a, ha, hid, hepoch⟩ | hall
      · exact .inl ⟨a, ha, hid.trans hid', hepoch.trans hepoch'⟩
      · -- the first part revoked the families, and they stay so
        refine .inr fun f hf hf' => ?_
        obtain ⟨f', hmem, howner, hrevoked⟩ := hall f hf (hf'.trans hid'.symm)
        obtain ⟨f'', hmem', howner', hkeeps⟩ := h'.family f' hmem
        exact ⟨f'', hmem', howner'.trans howner, hkeeps hrevoked⟩
    · refine .inr fun f hf hf' => ?_
      obtain ⟨f', hmem, howner, -⟩ := h.family f hf
      have haccount : f'.accountId = a''.accountId := by rw [howner, hf']
      obtain ⟨f'', hmem', howner', hrevoked⟩ := hall f' hmem haccount
      exact ⟨f'', hmem', howner'.trans howner, hrevoked⟩
  issued := by
    intro c'' hc''
    rcases h'.issued c'' hc'' with ⟨c', hc', howner', hjti'⟩ | hactive
    · rcases h.issued c' hc' with ⟨c, hc, howner, hjti⟩ | hactive
      · exact .inl ⟨c, hc, howner.trans howner', hjti.trans hjti'⟩
      · exact .inr (howner' ▸ hactive)
    · refine .inr fun f hf hkey => ?_
      obtain ⟨f', hf', howner, hrevoked⟩ := h.family f hf
      have hactive' := hactive f' hf' (by rw [howner, hkey])
      cases hstate : f.state with
      | active => rfl
      | revoked => exact absurd (hactive'.symm.trans (hrevoked hstate)) (by decide)

/-! ## Rows with the same key -/

namespace Sound

variable {t : IdentityTables} (h : t.Sound)

include h

variable {f g : RefreshFamily} {c : CredentialJti}

section

variable (hf : f ∈ t.refreshFamilies) (hg : g ∈ t.refreshFamilies)

include hf hg

theorem family_eq (hkey : f.familyKey = g.familyKey) : f = g :=
  inj_on_of_nodup_map h.familyKeys hf hg hkey

end

theorem credential_eq {d : CredentialJti} (hc : c ∈ t.credentialJtis)
    (hd : d ∈ t.credentialJtis) (hjti : c.jti = d.jti) : c = d :=
  inj_on_of_nodup_map h.jtis hc hd hjti

/-- A credential and a family of one key have one owner. -/
theorem owner_eq (hc : c ∈ t.credentialJtis)
    (hf : f ∈ t.refreshFamilies) (hkey : f.familyKey = c.familyKey) : f.toOwner = c.toOwner := by
  obtain ⟨g, hg, howner⟩ := h.owned c hc
  rw [h.family_eq hf hg (hkey.trans (by rw [howner])), howner]

end Sound

/-! ## The groups of statements -/

section

variable {t : IdentityTables}

/-- The revision of the session list is nothing the families depend on. -/
theorem Sound.bumped (h : t.Sound) (accountId : String) (t' : IdentityTables)
    (ht' : t' = { t with
      securityStates := updateWhere (·.accountId == accountId)
        (fun a => { a with sessionListRevision := a.sessionListRevision + 1 })
        t.securityStates }) : t'.Sound ∧ Evolves t t' := by
  subst ht'
  refine ⟨{ h with accountKeys := ?_, live := ?_, bounded := ?_ },
    { Evolves.refl t with epoch := ?_ }⟩
  · exact nodup_updateWhere h.accountKeys fun _ => rfl
  · exact fun f hf hactive => exists_updateWhere_of (h.live f hf hactive)
  · exact forall_updateWhere_of h.bounded
  · exact forall_updateWhere_of (Evolves.refl t).epoch

/-- An account with no state yet has no active family. -/
theorem Sound.opened (h : t.Sound) (accountId : String) :
    (t.openSecurityState accountId).Sound ∧ Evolves t (t.openSecurityState accountId) := by
  unfold openSecurityState
  split
  · exact ⟨h, Evolves.refl t⟩
  next hnone =>
  have hfresh : ∀ a ∈ t.securityStates, a.accountId ≠ accountId := by
    refine Keyed.lookup_eq_none.mp ?_
    exact Option.not_isSome_iff_eq_none.mp hnone
  refine ⟨{ h with accountKeys := ?_, live := ?_, bounded := ?_ },
    { Evolves.refl t with epoch := ?_ }⟩
  · exact nodup_append_row h.accountKeys hfresh
  · intro f hf hactive
    obtain ⟨a, ha, hrest⟩ := h.live f hf hactive
    exact ⟨a, mem_append_left _ ha, hrest⟩
  · exact forall_mem_append.mpr
      ⟨h.bounded, forall_mem_singleton.mpr (by decide : 1 ≤ maxSafeInteger)⟩
  · intro a ha
    rcases mem_append.mp ha with ha | ha
    · exact .inl ⟨a, ha, rfl, rfl⟩
    · refine .inr fun f hf hid => ⟨f, hf, rfl, ?_⟩
      rw [mem_singleton.mp ha] at hid
      cases hstate : f.state with
      | revoked => rfl
      | active =>
        obtain ⟨b, hb, hb', -⟩ := h.live f hf hstate
        exact absurd (hb'.trans hid) (hfresh b hb)

/-- The rows of `issueInitial`. -/
def issueRows (t : IdentityTables) (input : InitialIssue) : IdentityTables :=
  { t with
    authSessions := t.authSessions ++ [input.session]
    refreshFamilies := t.refreshFamilies ++ [input.family]
    credentialJtis := t.credentialJtis ++
      [input.credential input.expectedEpoch .access input.accessJti input.accessExpiresAt] ++
      [input.credential input.expectedEpoch .refresh input.refreshJti input.refreshExpiresAt] }

/-- What the keys and the checks of the tables leave of an issue. -/
structure Issuable (t : IdentityTables) (input : InitialIssue) : Prop where
  account : ∃ a ∈ t.securityStates, a.accountId = input.accountId ∧ a.status = .normal ∧
    a.accountSecurityEpoch = input.expectedEpoch
  session : ∀ s ∈ t.authSessions, s.key ≠ input.sessionKey
  family : ∀ f ∈ t.refreshFamilies, f.familyKey ≠ input.familyKey
  familySession : ∀ f ∈ t.refreshFamilies, f.sessionKey ≠ input.sessionKey
  access : ∀ c ∈ t.credentialJtis, c.jti ≠ input.accessJti
  refresh : ∀ c ∈ t.credentialJtis, c.jti ≠ input.refreshJti
  apart : input.accessJti ≠ input.refreshJti
  desktop : input.deviceId.isSome = decide (input.clientKind = .desktop)

variable {c : CredentialJti} {p : PreparedPostgresRefresh} {input : InitialIssue}
  {status : SecurityStatus} {next : NextCredentials} {f₀ f : RefreshFamily} {accountId : String}

theorem mem_issueRows_credentialJtis :
    c ∈ (t.issueRows input).credentialJtis ↔ c ∈ t.credentialJtis ∨
      c = input.credential input.expectedEpoch .access input.accessJti input.accessExpiresAt ∨
      c = input.credential input.expectedEpoch .refresh input.refreshJti
        input.refreshExpiresAt := by
  simp [issueRows]

theorem mem_issueRows_refreshFamilies :
    f ∈ (t.issueRows input).refreshFamilies ↔ f ∈ t.refreshFamilies ∨ f = input.family := by
  simp [issueRows]

/-- A new family with its credentials, next to the others. -/
theorem Sound.issued (h : t.Sound) (hi : t.Issuable input) :
    (t.issueRows input).Sound ∧ Evolves t (t.issueRows input) := by
  -- no credential is of the new family's key
  have hforeign : ∀ c ∈ t.credentialJtis, c.familyKey ≠ input.familyKey := by
    intro c hc hkey
    obtain ⟨f, hf, howner⟩ := h.owned c hc
    exact hi.family f hf (by rw [howner, hkey])
  constructor
  · refine { h with
      sessionKeys := ?_, familyKeys := ?_, familySessions := ?_, jtis := ?_, owned := ?_,
      head := ?_, current := ?_, revoked := ?_, live := ?_, desktop := ?_ }
    · exact nodup_append_row h.sessionKeys hi.session
    · exact nodup_append_row h.familyKeys hi.family
    · exact nodup_append_row h.familySessions hi.familySession
    · refine nodup_append_row (nodup_append_row h.jtis hi.access) ?_
      exact forall_mem_append.mpr ⟨hi.refresh, forall_mem_singleton.mpr hi.apart⟩
    · intro c hc
      rcases mem_issueRows_credentialJtis.mp hc with hc | rfl | rfl
      · obtain ⟨f, hf, howner⟩ := h.owned c hc
        exact ⟨f, mem_issueRows_refreshFamilies.mpr (.inl hf), howner⟩
      · exact ⟨_, mem_issueRows_refreshFamilies.mpr (.inr rfl), rfl⟩
      · exact ⟨_, mem_issueRows_refreshFamilies.mpr (.inr rfl), rfl⟩
    · intro f hf hactive
      rcases mem_issueRows_refreshFamilies.mp hf with hf | rfl
      · obtain ⟨c, hc, hrest⟩ := h.head f hf hactive
        exact ⟨c, mem_issueRows_credentialJtis.mpr (.inl hc), hrest⟩
      · exact ⟨_, mem_issueRows_credentialJtis.mpr (.inr (.inr rfl)), rfl, rfl, rfl, rfl⟩
    · intro c hc hcurrent f hf hkey
      rcases mem_issueRows_credentialJtis.mp hc with hc | rfl | rfl
      · rcases mem_issueRows_refreshFamilies.mp hf with hf | rfl
        · exact h.current c hc hcurrent f hf hkey
        · exact absurd hkey.symm (hforeign c hc)
      · cases hcurrent
      · rcases mem_issueRows_refreshFamilies.mp hf with hf | rfl
        · exact absurd hkey (hi.family f hf)
        · rfl
    · intro f hf hrevoked c hc hkey
      rcases mem_issueRows_refreshFamilies.mp hf with hf | rfl
      · rcases mem_issueRows_credentialJtis.mp hc with hc | rfl | rfl
        · exact h.revoked f hf hrevoked c hc hkey
        · exact absurd hkey.symm (hi.family f hf)
        · exact absurd hkey.symm (hi.family f hf)
      · cases hrevoked
    · intro f hf hactive
      rcases mem_issueRows_refreshFamilies.mp hf with hf | rfl
      · obtain ⟨a, ha, hid, hstatus, s, hs, hrest⟩ := h.live f hf hactive
        exact ⟨a, ha, hid, hstatus, s, mem_append_left _ hs, hrest⟩
      · obtain ⟨a, ha, hid, hstatus, hepoch⟩ := hi.account
        exact ⟨a, ha, hid, hstatus, input.session, mem_concat_self, rfl, rfl, hepoch.symm⟩
    · intro s hs hdevice
      rcases mem_append.mp hs with hs | hs
      · exact h.desktop s hs hdevice
      · rw [mem_singleton.mp hs] at hdevice ⊢
        have hkind : input.clientKind = .desktop := by
          have hdevice : input.deviceId.isSome = true := hdevice
          rw [hi.desktop] at hdevice
          exact of_decide_eq_true hdevice
        simp [InitialIssue.session, hkind]
  · refine { credential := ?_, family := ?_, session := ?_, epoch := ?_, issued := ?_ }
    · exact fun c hc => ⟨c, mem_issueRows_credentialJtis.mpr (.inl hc), rfl, rfl, rfl, id⟩
    · exact fun f hf => ⟨f, mem_issueRows_refreshFamilies.mpr (.inl hf), rfl, id⟩
    · exact fun s hs => ⟨s, mem_append_left _ hs, rfl, rfl⟩
    · exact fun a ha => .inl ⟨a, ha, rfl, rfl⟩
    · intro c hc
      rcases mem_issueRows_credentialJtis.mp hc with hc | rfl | rfl
      · exact .inl ⟨c, hc, rfl, rfl⟩
      · exact .inr fun f hf hkey => absurd hkey (hi.family f hf)
      · exact .inr fun f hf hkey => absurd hkey (hi.family f hf)

/-! ### Revocations -/

/-- Families are revoked with their sessions and their credentials, and with nothing that an
active family needs. -/
theorem Sound.revokedWhere (h : t.Sound) {families : RefreshFamily → Bool}
    {sessions : AuthSession → Bool} {credentials : CredentialJti → Bool}
    {at₁ : RefreshFamily → Option Nat} {for₁ : RefreshFamily → Option String}
    {at₂ : AuthSession → Option Nat} {for₂ : AuthSession → Option String}
    (hset : ∀ f ∈ t.refreshFamilies, families f = true → ∀ c ∈ t.credentialJtis,
      c.familyKey = f.familyKey → credentials c = true)
    (hkept : ∀ f ∈ t.refreshFamilies, f.state = .active → families f = false →
      (∀ c ∈ t.credentialJtis, c.familyKey = f.familyKey → credentials c = false) ∧
        ∀ s ∈ t.authSessions, s.key = f.sessionKey → sessions s = false) :
    let t' : IdentityTables := { t with
      refreshFamilies := updateWhere families (fun f => { f with
        state := .revoked
        revokedAt := at₁ f
        revocationReason := for₁ f }) t.refreshFamilies
      authSessions := updateWhere sessions (fun s => { s with
        revokedAt := at₂ s
        revocationReason := for₂ s }) t.authSessions
      credentialJtis := updateWhere credentials (fun c => { c with state := .revoked })
        t.credentialJtis }
    t'.Sound ∧ Evolves t t' := by
  intro t'
  have howned : ∀ c ∈ t.credentialJtis, ∃ f' ∈ t'.refreshFamilies, f'.toOwner = c.toOwner :=
    fun c hc => exists_updateWhere_of (h.owned c hc)
  constructor
  · refine { h with
      sessionKeys := ?_, familyKeys := ?_, familySessions := ?_, jtis := ?_, owned := ?_,
      head := ?_, current := ?_, revoked := ?_, live := ?_, desktop := ?_ }
    · exact nodup_updateWhere h.sessionKeys fun _ => rfl
    · exact nodup_updateWhere h.familyKeys fun _ => rfl
    · exact nodup_updateWhere h.familySessions fun _ => rfl
    · exact nodup_updateWhere h.jtis fun _ => rfl
    · exact forall_updateWhere_of howned
    · intro f' hf' hactive
      rcases mem_updateWhere.mp hf' with ⟨f, -, -, rfl⟩ | ⟨hf, hfree⟩
      · cases hactive
      · obtain ⟨c, hc, hrest⟩ := h.head f' hf hactive
        have hcredential := (hkept f' hf hactive hfree).1 c hc (by rw [hrest.1])
        exact ⟨c, mem_updateWhere.mpr (.inr ⟨hc, hcredential⟩), hrest⟩
    · intro c' hc' hcurrent
      rcases mem_updateWhere.mp hc' with ⟨c, -, -, rfl⟩ | ⟨hc, -⟩
      · cases hcurrent
      · exact forall_updateWhere_of (h.current c' hc hcurrent)
    · intro f' hf' hrevoked c' hc' hkey
      rcases mem_updateWhere.mp hc' with ⟨c, -, -, rfl⟩ | ⟨hc, hfree⟩
      · rfl
      · rcases mem_updateWhere.mp hf' with ⟨f, hf, hrow, rfl⟩ | ⟨hf, -⟩
        · -- a credential of the family would have been revoked with it
          rw [hset f hf hrow c' hc hkey] at hfree
          cases hfree
        · exact h.revoked f' hf hrevoked c' hc hkey
    · intro f' hf' hactive
      rcases mem_updateWhere.mp hf' with ⟨f, -, -, rfl⟩ | ⟨hf, hfree⟩
      · cases hactive
      · obtain ⟨a, ha, hid, hstatus, s, hs, hrest⟩ := h.live f' hf hactive
        have hsession := (hkept f' hf hactive hfree).2 s hs hrest.1
        exact ⟨a, ha, hid, hstatus, s, mem_updateWhere.mpr (.inr ⟨hs, hsession⟩), hrest⟩
    · exact forall_updateWhere_of h.desktop
  · refine { credential := ?_, family := ?_, session := ?_, epoch := ?_, issued := ?_ }
    · intro c hc
      exact exists_updateWhere hc (fun _ => ⟨rfl, rfl, rfl, fun hc => (by cases hc)⟩)
        (fun _ => ⟨rfl, rfl, rfl, id⟩)
    · intro f hf
      exact exists_updateWhere hf (fun _ => ⟨rfl, fun _ => rfl⟩) (fun _ => ⟨rfl, id⟩)
    · exact fun s hs => exists_updateWhere_of ((Evolves.refl t).session s hs)
    · exact fun a ha => .inl ⟨a, ha, rfl, rfl⟩
    · exact forall_updateWhere_of (Evolves.refl t).issued

/-- A family is revoked; the families of the other sessions do not change. -/
theorem Sound.familyRevoked (h : t.Sound) (now : Nat) (reason : String)
    (hf₀ : f₀ ∈ t.refreshFamilies) {owner : Owner} (howner : f₀.toOwner = owner) :
    (t.revokeFamilyRows now owner reason).Sound ∧
      Evolves t (t.revokeFamilyRows now owner reason) := by
  subst howner
  refine h.revokedWhere (fun f _ hrow c _ hkey => ?_) (fun f hf hactive hfree => ?_)
  · have howner : f.toOwner = f₀.toOwner := of_decide_eq_true (Bool.and_eq_true_iff.mp hrow).1
    rw [hkey, howner]
    exact decide_eq_true rfl
  · -- an active family that the update leaves alone is another one
    have hother : f ≠ f₀ := by
      rintro rfl
      simp [hactive] at hfree
    refine ⟨fun c _ hkey => decide_eq_false fun heq => hother ?_,
      fun s _ hkey => decide_eq_false fun heq => hother ?_⟩
    · exact h.family_eq hf hf₀ (hkey.symm.trans heq)
    · exact inj_on_of_nodup_map h.familySessions hf hf₀ (hkey.symm.trans heq)

theorem advanceEpoch_eq_ok {t' : IdentityTables} :
    t.advanceEpoch accountId status = .ok t' →
      (∀ a ∈ t.securityStates, a.accountId = accountId →
        a.accountSecurityEpoch + 1 ≤ maxSafeInteger) ∧
      t' = { t with
        securityStates := updateWhere (·.accountId == accountId)
          (fun a => { a with
            accountSecurityEpoch := a.accountSecurityEpoch + 1
            status
            sessionListRevision := a.sessionListRevision + 1 }) t.securityStates } := by
  intro h
  unfold advanceEpoch at h
  split at h
  next hall =>
    cases h
    refine ⟨fun a ha hid => ?_, rfl⟩
    have := all_eq_true.mp hall a (mem_filter.mpr ⟨ha, by simpa using hid⟩)
    exact of_decide_eq_true (Bool.and_eq_true_iff.mp this).1
  · cases h

/-- All of an account is revoked and its epoch advanced; the other accounts do not change. -/
theorem Sound.accountRevoked (h : t.Sound) (now : Nat) (reason : String) {t₁ : IdentityTables}
    (ht₁ : t.advanceEpoch accountId status = .ok t₁) :
    (t₁.revokeAccount now accountId reason).Sound ∧
      Evolves t (t₁.revokeAccount now accountId reason) := by
  obtain ⟨hbound, rfl⟩ := advanceEpoch_eq_ok ht₁
  obtain ⟨hs, he⟩ : (t.revokeAccount now accountId reason).Sound ∧
      Evolves t (t.revokeAccount now accountId reason) := by
    refine h.revokedWhere (fun f _ hrow c _ hkey => ?_) (fun f _ _ hfree => ⟨fun c _ hkey => ?_,
      fun s _ hkey => ?_⟩)
    · rwa [show c.accountId = f.accountId from congrArg Prod.fst hkey]
    · rwa [show c.accountId = f.accountId from congrArg Prod.fst hkey]
    · rwa [show s.accountId = f.accountId from congrArg Prod.fst hkey]
  refine ⟨{ hs with accountKeys := ?_, live := ?_, bounded := ?_ }, { he with epoch := ?_ }⟩
  · exact nodup_updateWhere h.accountKeys fun _ => rfl
  · intro f' hf' hactive
    obtain ⟨a, ha, hid, hrest⟩ := hs.live f' hf' hactive
    refine exists_updateWhere ha (fun hset => ?_) (fun _ => ⟨hid, hrest⟩)
    -- an active family is of another account
    rcases mem_updateWhere.mp hf' with ⟨f, -, -, rfl⟩ | ⟨-, hfree⟩
    · cases hactive
    · rw [hid, hfree] at hset
      cases hset
  · exact forall_updateWhere (fun a ha hset => hbound a ha (beq_iff_eq.mp hset))
      (fun a ha _ => h.bounded a ha)
  · refine forall_updateWhere (fun a ha hset => ?_) (fun a ha _ => .inl ⟨a, ha, rfl, rfl⟩)
    -- the epoch of this account changes, and its families are revoked
    refine .inr fun f hf hid => exists_updateWhere hf (fun _ => ⟨rfl, rfl⟩) (fun hkept => ?_)
    rw [hid, hset] at hkept
    cases hkept

/-! ### Rotations -/

/-- The rows of a rotation. -/
def rotateRows (t : IdentityTables) (p : PreparedPostgresRefresh) (next : NextCredentials)
    (generation : Nat) : IdentityTables :=
  { t.rotateHead p next.refreshJti generation with
    credentialJtis := (t.rotateHead p next.refreshJti generation).credentialJtis ++
      [p.credential p.accountSecurityEpoch .access next.accessJti next.accessExpiresAt] ++
      [p.credential p.accountSecurityEpoch .refresh next.refreshJti next.refreshExpiresAt] }

theorem isExpectedHead_iff :
    isExpectedHead p f = true ↔ f.toOwner = p.toOwner ∧ f.state = .active ∧
      f.currentRefreshJti = p.presentedRefreshJti ∧ f.generation = p.expectedGeneration := by
  simp [isExpectedHead, and_assoc]

theorem isPresentedCurrent_iff :
    isPresentedCurrent p c = true ↔ c.toOwner = p.toOwner ∧ c.jti = p.presentedRefreshJti ∧
      c.kind = .refresh ∧ c.state = .current := by
  simp [isPresentedCurrent, and_assoc]

/-- What the keys of the tables leave of a rotation. -/
structure Rotatable (t : IdentityTables) (p : PreparedPostgresRefresh) (next : NextCredentials)
    (f : RefreshFamily) : Prop where
  mem : f ∈ t.refreshFamilies
  expected : isExpectedHead p f = true
  access : ∀ c ∈ t.credentialJtis, c.jti ≠ next.accessJti
  refresh : ∀ c ∈ t.credentialJtis, c.jti ≠ next.refreshJti
  apart : next.accessJti ≠ next.refreshJti

theorem mem_rotateRows_credentialJtis {generation : Nat} :
    c ∈ (t.rotateRows p next generation).credentialJtis ↔
      c ∈ (t.rotateHead p next.refreshJti generation).credentialJtis ∨
      c = p.credential p.accountSecurityEpoch .access next.accessJti next.accessExpiresAt ∨
      c = p.credential p.accountSecurityEpoch .refresh next.refreshJti next.refreshExpiresAt := by
  simp [rotateRows]

/-- The compare-and-swap of a rotation hits one row. -/
theorem Rotatable.only (hr : t.Rotatable p next f₀) (h : t.Sound) (hf : f ∈ t.refreshFamilies)
    (hkey : f.familyKey = p.familyKey) : f = f₀ :=
  h.family_eq hf hr.mem (by rw [hkey, (isExpectedHead_iff.mp hr.expected).1])

/-- The current credential of the expected head is the presented one. -/
theorem Sound.presented (h : t.Sound) (hc : c ∈ t.credentialJtis) (hcurrent : c.state = .current)
    (hf : f ∈ t.refreshFamilies) (hkey : f.familyKey = c.familyKey)
    (hset : isExpectedHead p f = true) : isPresentedCurrent p c = true := by
  have hjti := h.current c hc hcurrent f hf hkey
  obtain ⟨howner, hactive, hhead, -⟩ := isExpectedHead_iff.mp hset
  obtain ⟨d, hd, -, hd', hkind, -⟩ := h.head f hf hactive
  have hcd : c = d := h.credential_eq hc hd (hjti.symm.trans hd'.symm)
  exact isPresentedCurrent_iff.mpr
    ⟨(h.owner_eq hc hf hkey).symm.trans howner, hjti.symm.trans hhead, hcd ▸ hkind, hcurrent⟩

theorem mem_rotateRows_of_kept {generation : Nat} (hc : c ∈ t.credentialJtis)
    (hkept : isPresentedCurrent p c = false) :
    c ∈ (t.rotateRows p next generation).credentialJtis :=
  mem_rotateRows_credentialJtis.mpr (.inl (mem_updateWhere.mpr (.inr ⟨hc, hkept⟩)))

theorem Rotatable.evolves (hr : t.Rotatable p next f₀) (h : t.Sound) (generation : Nat) :
    Evolves t (t.rotateRows p next generation) where
  credential := by
    intro c hc
    cases hset : isPresentedCurrent p c with
    | false => exact ⟨c, mem_rotateRows_of_kept hc hset, rfl, rfl, rfl, id⟩
    | true =>
      refine ⟨_, mem_rotateRows_credentialJtis.mpr
        (.inl (mem_updateWhere.mpr (.inl ⟨c, hc, hset, rfl⟩))), rfl, rfl, rfl, ?_⟩
      intro hcurrent
      cases hcurrent
  family f hf := exists_updateWhere_of ((Evolves.refl t).family f hf)
  session s hs := ⟨s, hs, rfl, rfl⟩
  epoch a ha := .inl ⟨a, ha, rfl, rfl⟩
  issued := by
    have hhead : ∀ f ∈ t.refreshFamilies, f.familyKey = p.familyKey → f.state = .active :=
      fun f hf hkey => hr.only h hf hkey ▸ (isExpectedHead_iff.mp hr.expected).2.1
    intro c hc
    rcases mem_rotateRows_credentialJtis.mp hc with hc | rfl | rfl
    · rcases mem_updateWhere.mp hc with ⟨d, hd, -, rfl⟩ | ⟨hc, -⟩
      · exact .inl ⟨d, hd, rfl, rfl⟩
      · exact .inl ⟨c, hc, rfl, rfl⟩
    · exact .inr hhead
    · exact .inr hhead

/-- The rotated credential gives way to the new one at the head of its family. -/
theorem Sound.rotated (h : t.Sound) (hr : t.Rotatable p next f₀)
    (generation : Nat) :
    (t.rotateRows p next generation).Sound ∧ Evolves t (t.rotateRows p next generation) := by
  obtain ⟨howner₀, hactive₀, -⟩ := isExpectedHead_iff.mp hr.expected
  have hfamilies : ∀ o : Owner, (∃ f ∈ t.refreshFamilies, f.toOwner = o) →
      ∃ f' ∈ (t.rotateRows p next generation).refreshFamilies, f'.toOwner = o :=
    fun o ho => exists_updateWhere_of ho
  constructor
  · refine { h with
      familyKeys := ?_, familySessions := ?_, jtis := ?_, owned := ?_, head := ?_, current := ?_,
      revoked := ?_, live := ?_ }
    · exact nodup_updateWhere h.familyKeys fun _ => rfl
    · exact nodup_updateWhere h.familySessions fun _ => rfl
    · have hjtis := nodup_updateWhere (p := isPresentedCurrent p)
        (f := fun c => { c with
          state := .rotated
          rotationRequestId := some p.requestId
          resultingGeneration := some generation }) h.jtis fun _ => rfl
      refine nodup_append_row (nodup_append_row hjtis ?_) ?_
      · exact forall_updateWhere_of hr.access
      · refine forall_mem_append.mpr ⟨?_, forall_mem_singleton.mpr hr.apart⟩
        exact forall_updateWhere_of hr.refresh
    · intro c hc
      rcases mem_rotateRows_credentialJtis.mp hc with hc | rfl | rfl
      · rcases mem_updateWhere.mp hc with ⟨d, hd, -, rfl⟩ | ⟨hc, -⟩
        · exact hfamilies _ (h.owned d hd)
        · exact hfamilies _ (h.owned c hc)
      · exact hfamilies _ ⟨f₀, hr.mem, howner₀⟩
      · exact hfamilies _ ⟨f₀, hr.mem, howner₀⟩
    · intro f' hf' hactive
      rcases mem_updateWhere.mp hf' with ⟨f, hf, hset, rfl⟩ | ⟨hf, hkept⟩
      · refine ⟨_, mem_rotateRows_credentialJtis.mpr (.inr (.inr rfl)), ?_, rfl, rfl, rfl⟩
        exact (isExpectedHead_iff.mp hset).1.symm
      · obtain ⟨c, hc, howner, hrest⟩ := h.head f' hf hactive
        refine ⟨c, mem_rotateRows_of_kept hc ?_, howner, hrest⟩
        -- the head of another family is not the presented credential
        refine Bool.eq_false_iff.mpr fun hset => ?_
        have hkey : f'.familyKey = p.familyKey := by
          rw [← howner, (isPresentedCurrent_iff.mp hset).1]
        rw [hr.only h hf hkey, hr.expected] at hkept
        cases hkept
    · intro c hc hcurrent f' hf' hkey
      rcases mem_rotateRows_credentialJtis.mp hc with hc | rfl | rfl
      · rcases mem_updateWhere.mp hc with ⟨c, -, -, rfl⟩ | ⟨hc, hother⟩
        · cases hcurrent
        · rcases mem_updateWhere.mp hf' with ⟨f, hf, hset, rfl⟩ | ⟨hf, -⟩
          · rw [h.presented hc hcurrent hf hkey hset] at hother
            cases hother
          · exact h.current c hc hcurrent f' hf hkey
      · cases hcurrent
      · rcases mem_updateWhere.mp hf' with ⟨f, hf, -, rfl⟩ | ⟨hf, hkept⟩
        · rfl
        · rw [hr.only h hf hkey, hr.expected] at hkept
          cases hkept
    · intro f' hf' hrevoked c hc hkey
      rcases mem_updateWhere.mp hf' with ⟨f, hf, hset, rfl⟩ | ⟨hf, -⟩
      · have hactive : f.state = .active := (isExpectedHead_iff.mp hset).2.1
        exact absurd (hactive.symm.trans hrevoked) (by decide)
      · have hforeign : f'.familyKey ≠ p.familyKey := by
          intro hsame
          rw [hr.only h hf hsame, hactive₀] at hrevoked
          cases hrevoked
        rcases mem_rotateRows_credentialJtis.mp hc with hc | rfl | rfl
        · rcases mem_updateWhere.mp hc with ⟨c, hc, hset, rfl⟩ | ⟨hc, -⟩
          · refine absurd ?_ hforeign
            rw [← hkey, ← (isPresentedCurrent_iff.mp hset).1]
          · exact h.revoked f' hf hrevoked c hc hkey
        · exact absurd hkey.symm hforeign
        · exact absurd hkey.symm hforeign
    · exact forall_updateWhere_of h.live
  · exact hr.evolves h generation

/-- The session row takes the generation, which nothing here reads. -/
theorem Sound.touched (h : t.Sound) (p : PreparedPostgresRefresh) (generation : Nat) :
    (t.touchSession p generation).Sound ∧ Evolves t (t.touchSession p generation) := by
  refine ⟨{ h with sessionKeys := ?_, live := ?_, desktop := ?_ },
    { Evolves.refl t with session := ?_ }⟩
  · exact nodup_updateWhere h.sessionKeys fun _ => rfl
  · intro f hf hactive
    obtain ⟨a, ha, hid, hstatus, s, hs, hrest⟩ := h.live f hf hactive
    exact ⟨a, ha, hid, hstatus, exists_updateWhere_of ⟨s, hs, hrest⟩⟩
  · exact forall_updateWhere_of h.desktop
  · exact fun s hs => exists_updateWhere_of ((Evolves.refl t).session s hs)

end

end IdentityTables

end GoodDealer.Identity
