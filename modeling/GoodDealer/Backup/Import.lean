/-
# `GoodDealer.Backup.Import` — what an import checks

An import goes through if the authority stays current, the artifact is that of a
well-formed container whose key is held, every frame opens, and manifest and trailer
agree with what stands around them (`import_eq_ok`).
-/
import GoodDealer.Backup.Export

namespace GoodDealer.Backup

variable {S : Suite} {decrypt : Decrypt} {authority : Nat → Bool} {v : VerifiedArtifact}

theorem openFrames_eq_ok {c : FrameContext} :
    ∀ {frames : List EncryptedFrame} {asked : Nat} {plaintexts : List Bytes},
      openFrames decrypt c authority asked frames = .ok plaintexts ↔
        (∀ i, asked ≤ i → i < asked + 2 * frames.length → authority i = true) ∧
        List.Forall₂ (fun f plaintext => openFrame decrypt c f = some plaintext) frames
          plaintexts := by
  intro frames
  induction frames with
  | nil =>
    intro asked plaintexts
    rw [List.forall₂_nil_left_iff]
    constructor
    · intro h
      cases h
      exact ⟨fun i h₁ h₂ => absurd h₂ (Nat.not_lt.mpr h₁), rfl⟩
    · rintro ⟨-, rfl⟩
      rfl
  | cons f frames ih =>
    intro asked plaintexts
    simp only [openFrames, bind_eq_ok, rejected_eq_ok, requireAuthority_eq_ok, ih,
      List.forall₂_cons_left_iff, List.length_cons]
    constructor
    · rintro ⟨_, hfirst, plaintext, hopen, _, hsecond, rest, ⟨hauthority, hrest⟩, heq⟩
      cases heq
      refine ⟨fun i hlow hhigh => ?_, plaintext, rest, hopen, hrest, rfl⟩
      rcases Nat.lt_or_ge i (asked + 2) with hi | hi
      · obtain rfl | rfl : i = asked ∨ i = asked + 1 := by omega
        · exact hfirst
        · exact hsecond
      · exact hauthority i hi (by omega)
    · rintro ⟨hauthority, plaintext, rest, hopen, hrest, rfl⟩
      exact ⟨(), hauthority _ (Nat.le_refl _) (by omega), plaintext, hopen, (),
        hauthority _ (by omega) (by omega), rest,
        ⟨fun i hlow hhigh => hauthority i (by omega) (by omega), hrest⟩, rfl⟩

/-- What `verify_plaintext` checks of the opened frames. -/
structure Verified (S : Suite) (p : ParsedContainer) (plaintexts : List Bytes)
    (binding : BindingDigests) (m : BackupManifest) (t : Trailer) (totals : Nat × Nat) : Prop where
  frames : plaintexts.length = p.encryptedFrames.length
  atLeast : 2 ≤ plaintexts.length
  manifest : parseManifest (plaintexts.headD []) = some m
  account : m.accountDigest = binding.account
  device : m.deviceDigest = binding.device
  workspace : m.workspaceDigest = binding.workspace
  binding : m.bindingDigest = binding.binding
  schema : m.workspaceSchemaVersion = p.header.workspaceSchemaVersion
  count : m.dataFrameCount.toNat = plaintexts.length - 2
  bytes : dataBytes (dataOf plaintexts) = some m.dataPlaintextBytes.toNat
  trailer : parseTrailer (plaintexts.getLastD []) = some t
  sums : frameTotals p.encryptedFrames.dropLast = some totals
  prior : t.priorFrameCount.toNat = p.encryptedFrames.dropLast.length
  plaintext : t.totalPlaintext.toNat = totals.1
  ciphertext : t.totalCiphertext.toNat = totals.2
  transcript : t.transcriptDigest =
    S.sha256 (p.encryptedFrames.dropLast.flatMap EncryptedFrame.headerAndCiphertext)

/-- The metadata of a verified artifact. -/
def ParsedContainer.verified (p : ParsedContainer) (m : BackupManifest) : VerifiedArtifact :=
  { backupId := p.header.backupId
    workspaceSchemaVersion := m.workspaceSchemaVersion
    createdAtEpochSeconds := m.createdAtEpochSeconds
    allowlistVersion := m.allowlistVersion
    dataFrameCount := m.dataFrameCount
    dataPlaintextBytes := m.dataPlaintextBytes.toNat }

theorem verifyPlaintext_eq_some {p : ParsedContainer} {plaintexts : List Bytes}
    {binding : BindingDigests} :
    verifyPlaintext S p plaintexts binding = some v ↔
      ∃ m t totals, Verified S p plaintexts binding m t totals ∧ v = p.verified m := by
  unfold verifyPlaintext
  constructor
  · intro h
    split at h
    · cases h
    next hlength =>
    simp only [Bool.or_eq_true, bne_iff_ne, decide_eq_true_eq, not_or, ne_eq, Decidable.not_not,
      Nat.not_lt] at hlength
    obtain ⟨m, hm, h⟩ := Option.bind_eq_some_iff.mp h
    split at h
    · cases h
    next hmanifest =>
    simp only [Bool.or_eq_true, bne_iff_ne, not_or, ne_eq, Decidable.not_not] at hmanifest
    obtain ⟨⟨⟨⟨⟨h₁, h₂⟩, h₃⟩, h₄⟩, h₅⟩, h₆⟩ := hmanifest
    obtain ⟨n, hn, h⟩ := Option.bind_eq_some_iff.mp h
    split at h
    · cases h
    next hbytes =>
    obtain ⟨t, ht, h⟩ := Option.bind_eq_some_iff.mp h
    obtain ⟨totals, htotals, h⟩ := Option.bind_eq_some_iff.mp h
    simp only at h
    split at h
    · cases h
    next htrailer =>
    cases h
    simp only [Bool.or_eq_true, bne_iff_ne, not_or, ne_eq, Decidable.not_not] at htrailer
    obtain ⟨⟨⟨h₇, h₈⟩, h₉⟩, h₁₀⟩ := htrailer
    rw [Decidable.not_not.mp hbytes] at hn ⊢
    exact ⟨m, t, totals, ⟨hlength.1, hlength.2, hm, h₁, h₂, h₃, h₄, h₅, h₆, hn, ht, htotals,
      h₇, h₈, h₉, h₁₀⟩, rfl⟩
  · rintro ⟨m, t, totals, h, rfl⟩
    have hlength : (plaintexts.length != p.encryptedFrames.length ||
        decide (plaintexts.length < 2)) = false := by
      rw [h.frames, bne_self_eq_false, Bool.false_or, decide_eq_false_iff_not, ← h.frames]
      exact Nat.not_lt.mpr h.atLeast
    rw [hlength, h.manifest, h.bytes, h.trailer]
    simp only [h.sums, Bool.false_eq_true, if_false, bind, Option.bind, h.account, h.device,
      h.workspace, h.binding, h.schema, h.count, h.prior, h.plaintext, h.ciphertext, h.transcript,
      bne_self_eq_false, Bool.or_self, ne_eq, not_true_eq_false, ParsedContainer.verified]

/-- When an import goes through, and what it returns. -/
theorem import_eq_ok {R : Type} {host : BackupContainerHost} {artifact : Bytes}
    {consume : Block 16 → Block 32 → List Bytes → Option R} {r : R} :
    importGuarded S decrypt host authority artifact consume = .ok (v, r) ↔
      ∃ p slot contentKey plaintexts m t totals,
        (∀ i ≤ 4 + 2 * p.encryptedFrames.length, authority i = true) ∧
        ParsedContainer.parse S artifact = some p ∧
        host.registry.exact S host.rollbackAnchor p.header.kekReference = .ok slot ∧
        unwrapContentKey S decrypt slot.material p.headerDigest host.binding.binding p.wrappedKey =
          some contentKey ∧
        List.Forall₂ (fun f plaintext => openFrame decrypt ⟨contentKey, p.headerDigest,
          p.header.backupId, host.binding.binding, p.header.noncePrefix⟩ f = some plaintext)
          p.encryptedFrames plaintexts ∧
        Verified S p plaintexts host.binding m t totals ∧ v = p.verified m ∧
        consume p.header.backupId m.sourceProofDigest (dataOf plaintexts) = some r := by
  unfold importGuarded
  simp only [bind_eq_ok, rejected_eq_ok, requireAuthority_eq_ok, openFrames_eq_ok,
    verifyPlaintext_eq_some]
  constructor
  · rintro ⟨_, h0, p, hp, _, h1, slot, hslot, _, h2, key, hkey, _, h3, plaintexts,
      ⟨hauthority, hopen⟩, verified, ⟨m, t, totals, hverified, rfl⟩, _, hend, m', hm', result,
      hconsume, heq⟩
    cases heq
    have hm := hverified.manifest
    rw [hm'] at hm
    cases hm
    refine ⟨p, slot, key, plaintexts, m, t, totals, ?_, hp, hslot, hkey, hopen, hverified, rfl,
      hconsume⟩
    intro i hi
    rcases Nat.lt_or_ge i 4 with hlow | hlow
    · obtain rfl | rfl | rfl | rfl : i = 0 ∨ i = 1 ∨ i = 2 ∨ i = 3 := by omega
      · exact h0
      · exact h1
      · exact h2
      · exact h3
    · rcases Nat.eq_or_lt_of_le hi with rfl | hhigh
      · exact hend
      · exact hauthority i hlow hhigh
  · rintro ⟨p, slot, key, plaintexts, m, t, totals, hauthority, hp, hslot, hkey, hopen, hverified,
      rfl, hconsume⟩
    exact ⟨(), hauthority 0 (by omega), p, hp, (), hauthority 1 (by omega), slot, hslot, (),
      hauthority 2 (by omega), key, hkey, (), hauthority 3 (by omega), plaintexts,
      ⟨fun i _ hi => hauthority i (by omega), hopen⟩, _, ⟨m, t, totals, hverified, rfl⟩, (),
      hauthority _ (Nat.le_refl _), m, hverified.manifest, r, hconsume, rfl⟩

end GoodDealer.Backup
