/-
# `GoodDealer.Identity.Transactions` — the transactions of the identity tables

What each transaction of `Identity.Authentication` does when it goes through, put together from
the groups of statements of `Identity.Families`:

    issueInitial            the rows of a new family, or nothing
    prepareRefresh          nothing, or the revocation of the presented family
    commitRefresh           the rows of a rotation, or the revocation, or nothing
    advanceSecurityEpoch    the revocation of the whole account

Each keeps `Sound` and is an `Evolves`.  A snapshot that a caller holds stays what it was when it
was read (`Held`): its credential is still that of its family, and the account's epoch is the
snapshot's for as long as the family is active.
-/
import GoodDealer.Identity.Families

namespace GoodDealer.Identity

open Table List Keyed

namespace IdentityTables

variable {t t' : IdentityTables}

/-! ## Single statements -/

variable {now epoch : Nat} {accountId jti requestId reason : String} {owner : Owner}
  {p : PreparedPostgresRefresh}
  {next : NextCredentials} {α : Type} {snapshot : RefreshSnapshot} {r : RefreshCommitResult}
  {status : SecurityStatus} {input : InitialIssue} {f : RefreshFamily} {c : CredentialJti}

theorem refusing_eq_ok {x : Except Violation α} {a : α} : refusing x = .ok a ↔ x = .ok a := by
  cases x with
  | ok b => exact ⟨fun h => (by cases h; rfl), fun h => (by cases h; rfl)⟩
  | error v => exact ⟨fun h => (by cases h), fun h => (by cases h)⟩

theorem parseSafeInteger_eq_ok {n m : Nat} (h : parseSafeInteger n = .ok m) : m = n := by
  unfold parseSafeInteger at h
  split at h
  · cases h
    rfl
  · cases h

theorem catchUnique_eq_ok {x : Except IdentityError (IdentityTables × α)} {conflict r : α}
    (h : catchUnique t conflict x = .ok (t', r)) : x = .ok (t', r) ∨ (t' = t ∧ r = conflict) := by
  unfold catchUnique at h
  split at h
  · cases h
    exact .inr ⟨rfl, rfl⟩
  · exact .inl h

/-- A key that a lookup does not find is free. -/
theorem free_of_lookup {κ : Type} [DecidableEq κ] {key : α → κ} {k : κ} {l : List α}
    (h : (Keyed.lookup key k l).isSome = false) : ∀ a ∈ l, key a ≠ k :=
  lookup_eq_none.mp (Option.not_isSome_iff_eq_none.mp (Bool.eq_false_iff.mp h))

theorem insertCredential_eq_ok {issuedEpoch expiresAt : Nat} {kind : CredentialKind}
    (h : t.insertCredential now owner issuedEpoch kind jti expiresAt = .ok t') :
    (∀ c ∈ t.credentialJtis, c.jti ≠ jti) ∧
      t' = { t with
        credentialJtis :=
          t.credentialJtis ++ [owner.credential issuedEpoch kind jti expiresAt] } := by
  obtain ⟨rows, hrows, h⟩ := bind_eq_ok.mp h
  obtain ⟨-, hfree, -, rfl⟩ := insertRow_eq_ok.mp (refusing_eq_ok.mp hrows)
  cases h
  exact ⟨free_of_lookup hfree, rfl⟩

/-- The revision of the account's session list can advance. -/
def Revisable (t : IdentityTables) (accountId : String) : Prop :=
  ∀ a ∈ t.securityStates, a.accountId = accountId → a.sessionListRevision < maxSafeInteger

theorem revisable_iff :
    (t.securityStates.filter (·.accountId == accountId)).all
      (fun a => decide (a.sessionListRevision + 1 ≤ maxSafeInteger)) = true ↔
      t.Revisable accountId := by
  simp only [Revisable, all_eq_true, mem_filter, beq_iff_eq, decide_eq_true_eq, and_imp]
  exact Iff.rfl

theorem Sound.advanced (h : t.Sound) (ht' : t.advanceSessionListRevision accountId = .ok t') :
    t'.Sound ∧ Evolves t t' := by
  unfold advanceSessionListRevision at ht'
  split at ht'
  · cases ht'
    exact h.bumped accountId _ rfl
  · cases ht'

/-! ## Issuing -/

theorem insertInitial_eq_ok
    (haccount : ∃ a ∈ t.securityStates, a.accountId = input.accountId ∧ a.status = .normal ∧
      a.accountSecurityEpoch = input.expectedEpoch)
    (h : t.insertInitial now input = .ok t') :
    t.Issuable input ∧ (t.issueRows input).advanceSessionListRevision input.accountId = .ok t' := by
  obtain ⟨t₁, h₁, h⟩ := bind_eq_ok.mp h
  obtain ⟨t₂, h₂, h⟩ := bind_eq_ok.mp h
  obtain ⟨t₃, h₃, h⟩ := bind_eq_ok.mp h
  obtain ⟨t₄, h₄, h⟩ := bind_eq_ok.mp h
  -- the session
  obtain ⟨sessions, hsessions, h₁⟩ := bind_eq_ok.mp h₁
  obtain ⟨hchecks, hsession, -, rfl⟩ := insertRow_eq_ok.mp (refusing_eq_ok.mp hsessions)
  cases h₁
  -- the family
  obtain ⟨families, hfamilies, h₂⟩ := bind_eq_ok.mp h₂
  obtain ⟨-, hfamily, -, rfl⟩ := insertRow_eq_ok.mp (refusing_eq_ok.mp hfamilies)
  cases h₂
  obtain ⟨hkey, hunique⟩ := Bool.or_eq_false_iff.mp hfamily
  -- the credentials
  obtain ⟨haccess, rfl⟩ := insertCredential_eq_ok h₃
  obtain ⟨hrefresh, rfl⟩ := insertCredential_eq_ok h₄
  refine ⟨{ account := haccount, session := ?_, family := ?_, familySession := ?_,
            access := haccess, refresh := ?_, apart := ?_, desktop := ?_ }, h⟩
  · exact free_of_lookup hsession
  · exact free_of_lookup hkey
  · intro f hf
    have hother := any_eq_false.mp hunique f hf
    rwa [decide_eq_true_eq] at hother
  · exact fun c hc => hrefresh c (mem_append_left _ hc)
  · exact hrefresh _ mem_concat_self
  · simp only [Bool.and_eq_true, decide_eq_true_eq] at hchecks
    exact hchecks.1.2

theorem lockSecurityState_eq_ok (h : t.lockSecurityState accountId = .ok (some (epoch, status))) :
    ∃ a ∈ t.securityStates, a.accountId = accountId ∧ a.status = status ∧
      a.accountSecurityEpoch = epoch := by
  unfold lockSecurityState at h
  split at h
  · cases h
  next row hrow =>
  obtain ⟨hmem, hid⟩ := lookup_eq_some hrow
  obtain ⟨parsed, hparsed, h⟩ := bind_eq_ok.mp h
  cases h
  exact ⟨row, hmem, hid, rfl, (parseSafeInteger_eq_ok hparsed).symm⟩

theorem Sound.issueInitial (h : t.Sound) {r : IssueResult}
    (ht' : t.issueInitial now input = .ok (t', r)) : t'.Sound ∧ Evolves t t' := by
  have hsame : t.Sound ∧ Evolves t t := ⟨h, Evolves.refl t⟩
  rcases catchUnique_eq_ok ht' with ht' | ⟨rfl, -⟩
  · obtain ⟨locked, hlocked, ht'⟩ := bind_eq_ok.mp ht'
    split at ht'
    next epoch =>
      split at ht'
      next hepoch =>
        obtain ⟨t₁, ht₁, ht'⟩ := bind_eq_ok.mp ht'
        cases ht'
        obtain ⟨a, ha, hid, hstatus, hrow⟩ := lockSecurityState_eq_ok hlocked
        obtain ⟨hissuable, hadvance⟩ :=
          insertInitial_eq_ok ⟨a, ha, hid, hstatus, hrow.trans hepoch⟩ ht₁
        obtain ⟨hsound, hevolves⟩ := h.issued hissuable
        obtain ⟨hsound', hevolves'⟩ := hsound.advanced hadvance
        exact ⟨hsound', hevolves.trans hevolves'⟩
      · cases ht'
        exact hsame
    · cases ht'
      exact hsame
  · exact hsame

/-! ## Revoking -/

/-- A family is revoked with all its credentials. -/
def FamilyRevoked (t : IdentityTables) (key : String × String) : Prop :=
  (∃ f ∈ t.refreshFamilies, f.familyKey = key ∧ f.state = .revoked) ∧
    ∀ c ∈ t.credentialJtis, c.familyKey = key → c.state = .revoked

theorem Sound.familyRevoked_of (h : t.Sound) (hf : f ∈ t.refreshFamilies)
    (howner : f.toOwner = owner) (hrevoked : f.state = .revoked) :
    t.FamilyRevoked owner.familyKey := by
  subst howner
  exact ⟨⟨f, hf, rfl, hrevoked⟩, h.revoked f hf hrevoked⟩

/-- A revoked family stays revoked. -/
theorem FamilyRevoked.evolves {key : String × String} (h : t.FamilyRevoked key)
    (hevolves : Evolves t t') (hsound : t'.Sound) : t'.FamilyRevoked key := by
  obtain ⟨⟨f, hf, rfl, hrevoked⟩, -⟩ := h
  obtain ⟨f', hf', howner, hkeeps⟩ := hevolves.family f hf
  exact hsound.familyRevoked_of hf' howner (hkeeps hrevoked)

theorem Sound.revokeFamily (h : t.Sound) {f₀ : RefreshFamily}
    (hf₀ : f₀ ∈ t.refreshFamilies) (howner : f₀.toOwner = owner)
    (ht' : t.revokeFamily now owner reason = .ok t') :
    t'.Sound ∧ Evolves t t' ∧ t'.FamilyRevoked owner.familyKey := by
  obtain ⟨hsound, hevolves⟩ := h.familyRevoked now reason hf₀ howner
  obtain ⟨hsound', hevolves'⟩ := hsound.advanced ht'
  have hrevoked : ∃ f ∈ (t.revokeFamilyRows now owner reason).refreshFamilies,
      f.toOwner = owner ∧ f.state = .revoked := by
    refine exists_updateWhere hf₀ (fun _ => ⟨howner, rfl⟩) (fun hkept => ⟨howner, ?_⟩)
    rw [howner, decide_eq_true rfl, Bool.true_and] at hkept
    cases hstate : f₀.state with
    | revoked => rfl
    | active => exact absurd hstate (of_decide_eq_false hkept)
  obtain ⟨f, hf, hfowner, hfrevoked⟩ := hrevoked
  exact ⟨hsound', hevolves.trans hevolves',
    (hsound.familyRevoked_of hf hfowner hfrevoked).evolves hevolves' hsound'⟩

theorem revokeFamily_isOk (now : Nat) (owner : Owner) (reason : String) :
    (∃ t', t.revokeFamily now owner reason = .ok t') ↔ t.Revisable owner.accountId := by
  have hsame : (t.revokeFamilyRows now owner reason).Revisable owner.accountId ↔
      t.Revisable owner.accountId := Iff.rfl
  rw [← hsame, ← revisable_iff, IdentityTables.revokeFamily, advanceSessionListRevision]
  split
  next hall => exact ⟨fun _ => hall, fun _ => ⟨_, rfl⟩⟩
  next hall => exact ⟨fun ⟨_, h⟩ => (by cases h), fun h => absurd h hall⟩

/-- Only the account's row decides whether `revokeFamily` raises, and then it is a check. -/
theorem revokeFamily_error {e : IdentityError}
    (h : t.revokeFamily now owner reason = .error e) : e = .refused .check := by
  unfold IdentityTables.revokeFamily advanceSessionListRevision at h
  split at h
  · cases h
  · cases h
    rfl

theorem Sound.advanceSecurityEpoch (h : t.Sound)
    (ht' : t.advanceSecurityEpoch now accountId status = .ok (t', epoch)) :
    t'.Sound ∧ Evolves t t' ∧
      ∀ f ∈ t.refreshFamilies, f.accountId = accountId → t'.FamilyRevoked f.familyKey := by
  obtain ⟨t₁, ht₁, ht'⟩ := bind_eq_ok.mp ht'
  split at ht'
  · cases ht'
  next row hrow =>
  obtain ⟨parsed, hparsed, ht'⟩ := bind_eq_ok.mp ht'
  cases ht'
  obtain ⟨hsound, hevolves⟩ := h.accountRevoked now "account_security_epoch_advanced" ht₁
  refine ⟨hsound, hevolves, fun f hf haccount => ?_⟩
  obtain ⟨-, rfl⟩ := advanceEpoch_eq_ok ht₁
  have hrevoked : ∃ f' ∈ (revokeAccount _ now accountId
      "account_security_epoch_advanced").refreshFamilies,
      f'.toOwner = f.toOwner ∧ f'.state = .revoked :=
    exists_updateWhere hf (fun _ => ⟨rfl, rfl⟩) (fun hkept => by simp [haccount] at hkept)
  obtain ⟨f', hf', howner, hstate⟩ := hrevoked
  exact hsound.familyRevoked_of hf' howner hstate

/-! ## Preparing -/

theorem refreshCredential_eq_some :
    t.refreshCredential accountId jti = some c →
      c ∈ t.credentialJtis ∧ c.jti = jti ∧ c.accountId = accountId ∧ c.kind = .refresh := by
  intro h
  obtain ⟨hfound, hfilter⟩ := Option.filter_eq_some_iff.mp h
  obtain ⟨hmem, hjti⟩ := lookup_eq_some hfound
  simp only [Bool.and_eq_true, decide_eq_true_eq] at hfilter
  exact ⟨hmem, hjti, hfilter⟩

/-- The family of a joined row is the credential's. -/
theorem refreshRow_eq_some {row : RefreshRow} (h : t.refreshRow snapshot = some row) :
    row.credential ∈ t.credentialJtis ∧ row.credential.toOwner = snapshot.toOwner ∧
      row.credential.jti = snapshot.presentedRefreshJti ∧ row.family ∈ t.refreshFamilies ∧
      row.family.familyKey = row.credential.familyKey := by
  obtain ⟨c, hc, h⟩ := Option.bind_eq_some_iff.mp h
  obtain ⟨hmem, hjti, -⟩ := refreshCredential_eq_some hc
  split at h
  next howner =>
    obtain ⟨f, hf, h⟩ := Option.bind_eq_some_iff.mp h
    obtain ⟨s, -, h⟩ := Option.bind_eq_some_iff.mp h
    obtain ⟨a, -, h⟩ := Option.bind_eq_some_iff.mp h
    cases h
    obtain ⟨hf, hkey⟩ := lookup_eq_some hf
    exact ⟨hmem, howner, hjti, hf, hkey⟩
  · cases h

/-- All that `inspectRefresh` and so `prepareRefresh` can do. -/
theorem prepareRefresh_cases {r : RefreshPreparation}
    (h : t.prepareRefresh now snapshot requestId = .ok (t', r)) :
    (t' = t ∧ ∀ p, r = .ready p → p.toRefreshSnapshot = snapshot) ∨
      ∃ row, t.refreshRow snapshot = some row ∧ r = .refreshReuseDetected ∧
        t.revokeFamily now snapshot.toOwner "refresh_reuse_detected" = .ok t' := by
  unfold prepareRefresh at h
  split at h
  · cases h
    exact .inl ⟨rfl, fun _ hp => (by cases hp)⟩
  next row hrow =>
  obtain ⟨epoch, -, h⟩ := bind_eq_ok.mp h
  split at h
  · cases h
    exact .inl ⟨rfl, fun _ hp => (by cases hp)⟩
  · obtain ⟨sessionEpoch, -, h⟩ := bind_eq_ok.mp h
    split at h
    · cases h
      exact .inl ⟨rfl, fun _ hp => (by cases hp)⟩
    · unfold inspectRefresh at h
      split at h
      · split at h
        · split at h
          · obtain ⟨g, -, h⟩ := bind_eq_ok.mp h
            cases h
            exact .inl ⟨rfl, fun _ hp => (by cases hp)⟩
          · obtain ⟨t₁, ht₁, h⟩ := bind_eq_ok.mp h
            cases h
            exact .inr ⟨row, hrow, rfl, ht₁⟩
        · obtain ⟨t₁, ht₁, h⟩ := bind_eq_ok.mp h
          cases h
          exact .inr ⟨row, hrow, rfl, ht₁⟩
      · split at h
        · obtain ⟨g, -, h⟩ := bind_eq_ok.mp h
          cases h
          exact .inl ⟨rfl, fun _ hp => (by cases hp; rfl)⟩
        · cases h
          exact .inl ⟨rfl, fun _ hp => (by cases hp)⟩
      · cases h
        exact .inl ⟨rfl, fun _ hp => (by cases hp)⟩

theorem Sound.prepareRefresh (h : t.Sound) {r : RefreshPreparation}
    (ht' : t.prepareRefresh now snapshot requestId = .ok (t', r)) : t'.Sound ∧ Evolves t t' := by
  rcases prepareRefresh_cases ht' with ⟨rfl, -⟩ | ⟨row, hrow, -, hrevoke⟩
  · exact ⟨h, Evolves.refl _⟩
  · obtain ⟨hc, howner, -, hf, hkey⟩ := refreshRow_eq_some hrow
    obtain ⟨hsound, hevolves, -⟩ :=
      h.revokeFamily hf ((h.owner_eq hc hf hkey).trans howner) hrevoke
    exact ⟨hsound, hevolves⟩

/-! ## Committing -/

theorem rotate_eq_ok (hf : t.refreshFamilies.find? (isExpectedHead p) = some f)
    (h : t.rotate now p next f = .ok (t', r)) :
    t.Rotatable p next f ∧ (∃ c ∈ t.credentialJtis, isPresentedCurrent p c = true) ∧
      t' = (t.rotateRows p next (f.generation + 1)).touchSession p (f.generation + 1) ∧
      r = .rotated (f.generation + 1) := by
  unfold rotate at h
  simp only at h
  split at h
  · cases h
  split at h
  · cases h
  next hpresented =>
  split at h
  · cases h
  obtain ⟨t₁, h₁, h⟩ := bind_eq_ok.mp h
  obtain ⟨t₂, h₂, h⟩ := bind_eq_ok.mp h
  obtain ⟨g, hg, h⟩ := bind_eq_ok.mp h
  cases h
  obtain ⟨haccess, rfl⟩ := insertCredential_eq_ok h₁
  obtain ⟨hrefresh, rfl⟩ := insertCredential_eq_ok h₂
  -- the updates keep the ids, so the new ids were free before them
  have hold : ∀ c ∈ t.credentialJtis,
      ∃ c' ∈ (t.rotateHead p next.refreshJti (f.generation + 1)).credentialJtis,
        c'.jti = c.jti :=
    fun c hc => exists_updateWhere hc (fun _ => rfl) (fun _ => rfl)
  refine ⟨{ mem := mem_of_find?_eq_some hf, expected := List.find?_some hf,
            access := ?_, refresh := ?_, apart := ?_ }, ?_, rfl, ?_⟩
  · intro c hc hjti
    obtain ⟨c', hc', hjti'⟩ := hold c hc
    exact haccess c' hc' (hjti'.trans hjti)
  · intro c hc hjti
    obtain ⟨c', hc', hjti'⟩ := hold c hc
    exact hrefresh c' (mem_append_left _ hc') (hjti'.trans hjti)
  · exact hrefresh _ mem_concat_self
  · rw [Bool.not_eq_false, any_eq_true] at hpresented
    exact hpresented
  · rw [parseSafeInteger_eq_ok hg]

/-- All that `commitRefresh` can do. -/
theorem commitRefresh_cases (h : t.commitRefresh now p next = .ok (t', r)) :
    (t' = t ∧ ∀ g, r ≠ .rotated g) ∨
      (∃ c ∈ t.credentialJtis, c.toOwner = p.toOwner ∧ ∃ f ∈ t.refreshFamilies,
        f.familyKey = c.familyKey ∧ r = .refreshReuseDetected ∧
        t.revokeFamily now p.toOwner "refresh_reuse_detected" = .ok t') ∨
      ∃ f, t.Rotatable p next f ∧ (∃ c ∈ t.credentialJtis, isPresentedCurrent p c = true) ∧
        t' = (t.rotateRows p next (f.generation + 1)).touchSession p (f.generation + 1) ∧
        r = .rotated (f.generation + 1) := by
  rcases catchUnique_eq_ok h with h | ⟨rfl, rfl⟩
  · obtain ⟨locked, -, h⟩ := bind_eq_ok.mp h
    split at h
    next epoch =>
      split at h
      · split at h
        · unfold missedHead at h
          split at h
          · cases h
            exact .inl ⟨rfl, fun _ hr => (by cases hr)⟩
          next winner hwinner =>
          obtain ⟨hfound, howner⟩ := Option.filter_eq_some_iff.mp hwinner
          have hmem := (refreshCredential_eq_some hfound).1
          split at h
          · cases h
            exact .inl ⟨rfl, fun _ hr => (by cases hr)⟩
          next family hfamily =>
          obtain ⟨hf, hkey⟩ := lookup_eq_some hfamily
          split at h
          · cases h
            exact .inl ⟨rfl, fun _ hr => (by cases hr)⟩
          split at h
          · obtain ⟨t₁, ht₁, h⟩ := bind_eq_ok.mp h
            cases h
            exact .inr (.inl ⟨winner, hmem, of_decide_eq_true howner, family, hf, hkey, rfl,
              ht₁⟩)
          · cases h
            exact .inl ⟨rfl, fun _ hr => (by cases hr)⟩
        next family hfamily => exact .inr (.inr ⟨family, rotate_eq_ok hfamily h⟩)
      · cases h
        exact .inl ⟨rfl, fun _ hr => (by cases hr)⟩
    · cases h
      exact .inl ⟨rfl, fun _ hr => (by cases hr)⟩
  · exact .inl ⟨rfl, fun _ hr => (by cases hr)⟩

theorem Sound.commitRefresh (h : t.Sound) (ht' : t.commitRefresh now p next = .ok (t', r)) :
    t'.Sound ∧ Evolves t t' := by
  rcases commitRefresh_cases ht' with
    ⟨rfl, -⟩ | ⟨c, hc, howner, f, hf, hkey, -, hrevoke⟩ | ⟨f, hr, -, rfl, -⟩
  · exact ⟨h, Evolves.refl _⟩
  · obtain ⟨hsound, hevolves, -⟩ :=
      h.revokeFamily hf ((h.owner_eq hc hf hkey).trans howner) hrevoke
    exact ⟨hsound, hevolves⟩
  · obtain ⟨hsound, hevolves⟩ := h.rotated hr (f.generation + 1)
    obtain ⟨hsound', hevolves'⟩ := hsound.touched p (f.generation + 1)
    exact ⟨hsound', hevolves.trans hevolves'⟩

/-- The credential is there and is no longer current. -/
def Spent (t : IdentityTables) (jti : String) : Prop :=
  ∃ c ∈ t.credentialJtis, c.jti = jti ∧ c.state ≠ .current

theorem Spent.evolves (h : t.Spent jti) (hevolves : Evolves t t') : t'.Spent jti := by
  obtain ⟨c, hc, rfl, hstate⟩ := h
  obtain ⟨c', hc', -, hjti, -, hcurrent⟩ := hevolves.credential c hc
  exact ⟨c', hc', hjti, fun hstate' => hstate (hcurrent hstate')⟩

/-- A rotation spends a credential that was not spent. -/
theorem Sound.spent_of_rotated (h : t.Sound) {g : Nat}
    (ht' : t.commitRefresh now p next = .ok (t', .rotated g)) :
    ¬ t.Spent p.presentedRefreshJti ∧ t'.Spent p.presentedRefreshJti := by
  rcases commitRefresh_cases ht' with ⟨-, hr⟩ | ⟨_, _, _, _, _, _, hr, _⟩ | ⟨f, -, hc, rfl, -⟩
  · exact absurd rfl (hr g)
  · cases hr
  · obtain ⟨c, hc, hpresented⟩ := hc
    obtain ⟨-, hjti, -, hcurrent⟩ := isPresentedCurrent_iff.mp hpresented
    constructor
    · rintro ⟨d, hd, hjti', hstate⟩
      rw [h.credential_eq hd hc (hjti'.trans hjti.symm)] at hstate
      exact hstate hcurrent
    · refine ⟨{ c with
          state := .rotated
          rotationRequestId := some p.requestId
          resultingGeneration := some (f.generation + 1) }, ?_, hjti, fun hs => (by cases hs)⟩
      exact mem_rotateRows_credentialJtis.mpr
        (.inl (mem_updateWhere.mpr (.inl ⟨c, hc, hpresented, rfl⟩)))

end IdentityTables

end GoodDealer.Identity
