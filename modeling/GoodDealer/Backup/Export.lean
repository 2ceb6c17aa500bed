/-
# `GoodDealer.Backup.Export` — the artifact of an export

An export that goes through writes the container of its header, its wrapped key and its
sealed frames (`export_eq_ok`): the loop with its accumulators is `sealData`, the trailer
is computed from the frames before it.  Every valid request goes through on a usable host
(`export_of_valid`), and the container is one that the parser accepts
(`exportedContainer_wellFormed`).
-/
import GoodDealer.Backup.Format
import GoodDealer.Lib.Transaction

namespace GoodDealer.Backup

open List

open Bytes (bigEndian length_bigEndian)

variable {S : Suite} {c : FrameContext}

/-! ## Sealed frames -/

def sealFrame (S : Suite) (c : FrameContext) (sequence : Nat) (kind : FrameKind)
    (plaintext : Bytes) : EncryptedFrame :=
  let ciphertext := S.seal (frameSealing c sequence kind plaintext)
  { sequence, kind, plaintextLen := plaintext.length
    ciphertextLen := plaintext.length + aeadTagBytes
    headerAndCiphertext := frameRecord sequence kind plaintext.length
      (plaintext.length + aeadTagBytes) ciphertext
    ciphertext }

/-- The data frames from a sequence number on. -/
def sealData (S : Suite) (c : FrameContext) : Nat → List Bytes → List EncryptedFrame
  | _, [] => []
  | sequence, data :: rest => sealFrame S c sequence .data data :: sealData S c (sequence + 1) rest

@[simp] theorem length_sealData (sequence : Nat) (frames : List Bytes) :
    (sealData S c sequence frames).length = frames.length := by
  induction frames generalizing sequence with
  | nil => rfl
  | cons data rest ih => rw [sealData, length_cons, length_cons, ih]

theorem length_record_sealFrame (sequence : Nat) (kind : FrameKind) (plaintext : Bytes) :
    (sealFrame S c sequence kind plaintext).headerAndCiphertext.length =
      frameHeaderBytes + aeadTagBytes + plaintext.length := by
  simp only [sealFrame, frameRecord, length_append, length_bigEndian, Suite.seal,
    S.length_encrypt, frameSealing, frameHeaderBytes, aeadTagBytes]
  omega

variable {sequence : Nat} {kind : FrameKind} {plaintext : Bytes}

theorem accepted_sealFrame (hlimit : plaintext.length ≤ framePlaintextLimit)
    (hfirst : sequence = 0 ↔ kind = .manifest)
    (hmanifest : kind = .manifest → plaintext.length = manifestPlaintextBytes)
    (htrailer : kind = .trailer → plaintext.length = trailerPlaintextBytes) :
    (sealFrame S c sequence kind plaintext).Accepted sequence :=
  ⟨frameAccepted_iff.mpr ⟨rfl, hlimit, rfl, hfirst, hmanifest, htrailer⟩, S.length_encrypt .., rfl⟩

/-! ## The loop -/

/-- One frame more, with the totals of the frames. -/
theorem appendEncryptedFrame_eq (p : Progress) (sequence : Nat) (kind : FrameKind)
    (plaintext : Bytes) : appendEncryptedFrame S c p sequence kind plaintext =
      let frame := sealFrame S c sequence kind plaintext
      if framePlaintextLimit < plaintext.length then none
      else (addTotals (p.totalPlaintext, p.totalCiphertext) frame).map fun totals =>
        ⟨p.artifact ++ frame.headerAndCiphertext, p.transcript ++ frame.headerAndCiphertext,
          totals.1, totals.2⟩ := by
  unfold appendEncryptedFrame addTotals
  split
  · rfl
  · simp only [sealFrame]
    split <;> rfl

theorem appendEncryptedFrame_eq_some {p p' : Progress} :
    appendEncryptedFrame S c p sequence kind plaintext = some p' ↔
      plaintext.length ≤ framePlaintextLimit ∧
      addTotals (p.totalPlaintext, p.totalCiphertext) (sealFrame S c sequence kind plaintext) =
        some (p'.totalPlaintext, p'.totalCiphertext) ∧
      p'.artifact = p.artifact ++ (sealFrame S c sequence kind plaintext).headerAndCiphertext ∧
      p'.transcript =
        p.transcript ++ (sealFrame S c sequence kind plaintext).headerAndCiphertext := by
  rw [appendEncryptedFrame_eq]
  simp only
  split
  next hlimit => exact ⟨fun h => (by cases h), fun h => absurd h.1 (Nat.not_le.mpr hlimit)⟩
  next hlimit =>
  rw [Option.map_eq_some_iff]
  constructor
  · rintro ⟨totals, htotals, rfl⟩
    exact ⟨Nat.not_lt.mp hlimit, htotals, rfl, rfl⟩
  · rintro ⟨-, htotals, hartifact, htranscript⟩
    refine ⟨_, htotals, ?_⟩
    rw [← hartifact, ← htranscript]

theorem rejected_eq_ok {α : Type} {o : Option α} {a : α} : rejected o = .ok a ↔ o = some a := by
  cases o with
  | none => exact ⟨fun h => (by cases h), fun h => (by cases h)⟩
  | some b => exact ⟨fun h => (by cases h; rfl), fun h => (by cases h; rfl)⟩

variable {authority : Nat → Bool}

theorem requireAuthority_eq_ok {i : Nat} {u : Unit} :
    requireAuthority authority i = .ok u ↔ authority i = true := by
  unfold requireAuthority
  split
  next h => exact ⟨fun _ => h, fun _ => rfl⟩
  next h => exact ⟨fun h => (by cases h), fun h' => absurd h' h⟩

/-- The loop goes through if the authority stays current, no frame is too long and the totals
do not overflow; it has then written the sealed frames. -/
theorem appendDataFrames_eq_ok :
    ∀ {frames : List Bytes} {asked sequence : Nat} {p p' : Progress},
      appendDataFrames S c authority asked sequence p frames = .ok p' ↔
        (∀ i, asked ≤ i → i < asked + 2 * frames.length → authority i = true) ∧
        (∀ data ∈ frames, data.length ≤ framePlaintextLimit) ∧
        (sealData S c sequence frames).foldlM addTotals (p.totalPlaintext, p.totalCiphertext) =
          some (p'.totalPlaintext, p'.totalCiphertext) ∧
        p'.artifact = p.artifact ++
          (sealData S c sequence frames).flatMap EncryptedFrame.headerAndCiphertext ∧
        p'.transcript = p.transcript ++
          (sealData S c sequence frames).flatMap EncryptedFrame.headerAndCiphertext := by
  intro frames
  induction frames with
  | nil =>
    intro asked sequence p p'
    simp only [appendDataFrames, sealData, foldlM_nil, flatMap_nil, append_nil,
      length_nil]
    constructor
    · intro h
      cases h
      exact ⟨fun i h₁ h₂ => absurd h₂ (by omega), fun _ h => absurd h not_mem_nil, rfl, rfl,
        rfl⟩
    · rintro ⟨-, -, htotals, hartifact, htranscript⟩
      cases p
      cases p'
      cases htotals
      cases hartifact
      cases htranscript
      rfl
  | cons data frames ih =>
    intro asked sequence p p'
    simp only [appendDataFrames, bind_eq_ok, rejected_eq_ok, requireAuthority_eq_ok,
      appendEncryptedFrame_eq_some, ih, sealData, foldlM_cons, flatMap_cons,
      length_cons, forall_mem_cons]
    constructor
    · rintro ⟨_, hfirst, q, ⟨hlimit, htotals, hartifact, htranscript⟩, _, hsecond, hrest, hlimits,
        htotals', hartifact', htranscript'⟩
      refine ⟨?_, ⟨hlimit, hlimits⟩, ?_, ?_, ?_⟩
      · intro i hlow hhigh
        rcases Nat.lt_or_ge i (asked + 2) with hi | hi
        · obtain rfl | rfl : i = asked ∨ i = asked + 1 := by omega
          · exact hfirst
          · exact hsecond
        · exact hrest i hi (by omega)
      · rw [htotals]
        exact htotals'
      · rw [hartifact', hartifact, append_assoc]
      · rw [htranscript', htranscript, append_assoc]
    · rintro ⟨hauthority, ⟨hlimit, hlimits⟩, htotals, hartifact, htranscript⟩
      obtain ⟨totals, hframe, hrest⟩ := Option.bind_eq_some_iff.mp htotals
      refine ⟨(), hauthority _ (Nat.le_refl _) (by omega),
        ⟨_, _, totals.1, totals.2⟩, ⟨hlimit, hframe, rfl, rfl⟩, (),
        hauthority _ (by omega) (by omega), ?_, hlimits, hrest, ?_, ?_⟩
      · exact fun i hlow hhigh => hauthority i (by omega) (by omega)
      · rw [hartifact, append_assoc]
      · rw [htranscript, append_assoc]

/-! ## The container of an export -/

def exportHeader (slot : BackupKekSlot) (request : ExportRequest) (entropy : ExportEntropy) :
    Header :=
  { backupId := entropy.backupId, noncePrefix := entropy.noncePrefix
    workspaceSchemaVersion := request.workspaceSchemaVersion, kekReference := slot.reference }

def exportContext (S : Suite) (host : BackupContainerHost) (slot : BackupKekSlot)
    (request : ExportRequest) (entropy : ExportEntropy) : FrameContext :=
  ⟨entropy.contentKey, S.sha256 (exportHeader slot request entropy).head, entropy.backupId,
    host.binding.binding, entropy.noncePrefix⟩

/-- The frames before the trailer. -/
def priorFrames (S : Suite) (c : FrameContext) (request : ExportRequest) : List EncryptedFrame :=
  sealFrame S c 0 .manifest (encodeManifest request.manifest) :: sealData S c 1 request.dataFrames

/-- The plaintext of the trailer after these frames. -/
def trailerText (S : Suite) (prior : List EncryptedFrame) : Bytes :=
  let totals := (frameTotals prior).getD (0, 0)
  encodeTrailer prior.length totals.1 totals.2
    (S.sha256 (prior.flatMap EncryptedFrame.headerAndCiphertext))

theorem length_priorFrames (request : ExportRequest) :
    (priorFrames S c request).length = request.dataFrames.length + 1 := by
  rw [priorFrames, length_cons, length_sealData]

theorem length_trailerText (S : Suite) (prior : List EncryptedFrame) :
    (trailerText S prior).length = trailerPlaintextBytes := length_encodeTrailer ..

theorem length_wrapContentKey (kek headerDigest bindingDigest : Block 32) (nonce : Block 24)
    (contentKey : Block 32) :
    (wrapContentKey S kek headerDigest bindingDigest nonce contentKey).length =
      wrappedKeyBytes := by
  simp only [wrapContentKey, length_append, nonce.property, Suite.seal, S.length_encrypt,
    wrapSealing, contentKey.property, wrappedKeyBytes, aeadTagBytes]

theorem checkedAdd_of_lt {a b : Nat} (h : a + b < 2 ^ 64) : checkedAdd a b = some (a + b) :=
  if_pos h

theorem addTotals_of_lt {totals : Nat × Nat} {frame : EncryptedFrame}
    (hplain : totals.1 + frame.plaintextLen < 2 ^ 64)
    (hcipher : totals.2 + frame.ciphertextLen < 2 ^ 64) :
    addTotals totals frame =
      some (totals.1 + frame.plaintextLen, totals.2 + frame.ciphertextLen) := by
  rw [addTotals, checkedAdd_of_lt hplain, checkedAdd_of_lt hcipher]

/-- A single frame does not overflow the totals. -/
theorem addTotals_zero (h : plaintext.length ≤ framePlaintextLimit) :
    addTotals (0, 0) (sealFrame S c sequence kind plaintext) =
      some (plaintext.length, plaintext.length + aeadTagBytes) := by
  have hlimit : plaintext.length ≤ 1048576 := h
  have hsum : 0 + (plaintext.length + 16) < 2 ^ 64 := by omega
  rw [addTotals_of_lt
    (Nat.lt_of_le_of_lt (Nat.add_le_add_left (Nat.le_add_right _ 16) 0) hsum) hsum,
    Nat.zero_add, Nat.zero_add]
  rfl

/-- All frames of an export. -/
def sealedFrames (S : Suite) (c : FrameContext) (request : ExportRequest) : List EncryptedFrame :=
  let prior := priorFrames S c request
  prior ++ [sealFrame S c prior.length .trailer (trailerText S prior)]

/-- The frames are written if the authority stays current, no frame is too long and the totals
do not overflow. -/
theorem appendFrames_eq_ok {request : ExportRequest}
    {head artifact : Bytes} : appendFrames S c request authority head = .ok artifact ↔
      (∀ i, 3 ≤ i → i ≤ 4 + 2 * request.dataFrames.length → authority i = true) ∧
      (∀ data ∈ request.dataFrames, data.length ≤ framePlaintextLimit) ∧
      (∃ totals, frameTotals (priorFrames S c request) = some totals) ∧
      artifact = head ++ (sealedFrames S c request).flatMap EncryptedFrame.headerAndCiphertext := by
  have hmanifest : (encodeManifest request.manifest).length ≤ framePlaintextLimit := by
    rw [length_encodeManifest]
    decide
  have htrailer : (trailerText S (priorFrames S c request)).length ≤ framePlaintextLimit := by
    rw [length_trailerText]
    decide
  -- the totals of the loop are those of the frames before the trailer
  have htotals : ∀ totals, frameTotals (priorFrames S c request) = some totals ↔
      (sealData S c 1 request.dataFrames).foldlM addTotals
        ((encodeManifest request.manifest).length,
        (encodeManifest request.manifest).length + aeadTagBytes) = some totals := by
    intro totals
    rw [frameTotals, priorFrames, foldlM_cons, addTotals_zero hmanifest]
    rfl
  have htext : ∀ totals, frameTotals (priorFrames S c request) = some totals →
      encodeTrailer (request.dataFrames.length + 1) totals.1 totals.2 (S.sha256
        ((priorFrames S c request).flatMap EncryptedFrame.headerAndCiphertext)) =
      trailerText S (priorFrames S c request) := by
    intro totals h
    rw [trailerText, h, length_priorFrames]
    rfl
  unfold appendFrames
  simp only [bind_eq_ok, rejected_eq_ok, requireAuthority_eq_ok, appendEncryptedFrame_eq_some,
    appendDataFrames_eq_ok]
  constructor
  · rintro ⟨first, ⟨-, hfirst, hartifact, htranscript⟩, _, h3, p,
      ⟨hauthority, hlimits, hp, hartifact', htranscript'⟩, last, ⟨-, -, hlast, -⟩, _, hend, hresult⟩
    cases hresult
    rw [addTotals_zero hmanifest, Option.some.injEq] at hfirst
    rw [← hfirst, ← htotals] at hp
    have hprior : p.transcript =
        (priorFrames S c request).flatMap EncryptedFrame.headerAndCiphertext := by
      rw [htranscript', htranscript, priorFrames, flatMap_cons, nil_append]
    refine ⟨?_, hlimits, ⟨_, hp⟩, ?_⟩
    · intro i hlow hhigh
      rcases Nat.eq_or_lt_of_le hlow with rfl | hlow
      · exact h3
      · rcases Nat.eq_or_lt_of_le hhigh with rfl | hhigh
        · exact hend
        · exact hauthority i hlow hhigh
    · rw [hlast, hprior, htext _ hp, hartifact', hartifact, sealedFrames, length_priorFrames]
      simp only [priorFrames, flatMap_append, flatMap_cons, flatMap_nil,
        append_nil, append_assoc]
  · rintro ⟨hauthority, hlimits, ⟨totals, hprior⟩, rfl⟩
    have hbytes : [] ++ (sealFrame S c 0 .manifest
          (encodeManifest request.manifest)).headerAndCiphertext ++
        (sealData S c 1 request.dataFrames).flatMap EncryptedFrame.headerAndCiphertext =
          (priorFrames S c request).flatMap EncryptedFrame.headerAndCiphertext := by
      rw [priorFrames, flatMap_cons, nil_append]
    have htext := htext totals hprior
    rw [← hbytes] at htext
    refine ⟨⟨_, _, (encodeManifest request.manifest).length, _⟩,
      ⟨hmanifest, addTotals_zero hmanifest, rfl, rfl⟩, (), hauthority 3 (Nat.le_refl _) (by omega),
      ⟨_, _, totals.1, totals.2⟩, ⟨fun i hlow hhigh => hauthority i (by omega) (by omega), hlimits,
        (htotals totals).mp hprior, rfl, rfl⟩, ?_⟩
    simp only [htext]
    refine ⟨⟨_, _, (trailerText S (priorFrames S c request)).length, _⟩,
      ⟨htrailer, addTotals_zero htrailer, rfl, rfl⟩, (),
        hauthority _ (by omega) (Nat.le_refl _), ?_⟩
    simp only [sealedFrames, length_priorFrames, flatMap_append, ← hbytes, flatMap_cons,
      flatMap_nil, append_nil, nil_append, append_assoc, pure, Except.pure]

/-! ## The whole artifact -/

def exportedContainer (S : Suite) (host : BackupContainerHost) (slot : BackupKekSlot)
    (request : ExportRequest) (entropy : ExportEntropy) : ParsedContainer :=
  let c := exportContext S host slot request entropy
  { header := exportHeader slot request entropy
    headerDigest := c.headerDigest
    wrappedKey := wrapContentKey S slot.material c.headerDigest host.binding.binding
      entropy.wrapNonce entropy.contentKey
    encryptedFrames := sealedFrames S c request }

variable {host : BackupContainerHost} {request : ExportRequest} {entropy : ExportEntropy}
  {artifact : Bytes} {frames : List Bytes}

/-- When an export goes through, and what it returns. -/
theorem export_eq_ok : exportWithEntropyGuarded S host request entropy authority = .ok artifact ↔
    (∀ i ≤ 4 + 2 * request.dataFrames.length, authority i = true) ∧
    validateExportRequest request host.binding = .ok () ∧
    ∃ slot, host.registry.active S host.rollbackAnchor = .ok slot ∧
      slot.reference.validate = true ∧
      (∀ data ∈ request.dataFrames, data.length ≤ framePlaintextLimit) ∧
      (∃ totals, frameTotals (priorFrames S (exportContext S host slot request entropy) request) =
        some totals) ∧
      artifact = (exportedContainer S host slot request entropy).bytes ∧
      artifact.length ≤ artifactByteLimit := by
  have hencode : ∀ {h : Header} {body : Bytes}, h.encode = some body ↔
      h.kekReference.validate = true ∧ body = h.body := by
    intro h body
    unfold Header.encode
    split
    next hvalid => exact ⟨fun h => ⟨hvalid, (Option.some.inj h).symm⟩, fun h => h.2 ▸ rfl⟩
    next hvalid => exact ⟨fun h => (by cases h), fun h => absurd h.1 hvalid⟩
  have hfinal : ∀ {bytes : Bytes}, (if artifactByteLimit < bytes.length then
      Except.error BackupContainerError.artifactRejected else .ok bytes) = .ok artifact ↔
        bytes = artifact ∧ artifact.length ≤ artifactByteLimit := by
    intro bytes
    split
    next hlarge =>
      exact ⟨fun h => (by cases h), fun ⟨h, hsize⟩ => absurd (h ▸ hsize) (Nat.not_le.mpr hlarge)⟩
    next hsize =>
      rw [Except.ok.injEq]
      exact ⟨fun h => ⟨h, h ▸ Nat.not_lt.mp hsize⟩, fun h => h.1⟩
  have hbytes : ∀ p : ParsedContainer, p.wrappedKey.length = wrappedKeyBytes →
      p.header.head ++ (p.headerDigest.val ++
        (bigEndian 2 p.wrappedKey.length ++ p.wrappedKey)) ++
          p.encryptedFrames.flatMap EncryptedFrame.headerAndCiphertext = p.bytes := by
    intro p hwrapped
    rw [hwrapped]
    simp only [ParsedContainer.bytes, append_assoc]
  replace hbytes := fun slot =>
    hbytes (exportedContainer S host slot request entropy) (length_wrapContentKey ..)
  unfold exportWithEntropyGuarded
  simp only [bind_eq_ok, rejected_eq_ok, requireAuthority_eq_ok, hencode, appendFrames_eq_ok,
    hfinal]
  constructor
  · rintro ⟨_, h0, _, hvalid, slot, hslot, _, h1, _, ⟨hreference, rfl⟩, _, h2, _,
      ⟨hauthority, hlimits, htotals, rfl⟩, rfl, hsize⟩
    refine ⟨?_, hvalid, slot, hslot, hreference, hlimits, htotals, hbytes slot, hsize⟩
    intro i hi
    rcases Nat.lt_or_ge i 3 with hlow | hlow
    · obtain rfl | rfl | rfl : i = 0 ∨ i = 1 ∨ i = 2 := by omega
      · exact h0
      · exact h1
      · exact h2
    · exact hauthority i hlow hi
  · rintro ⟨hauthority, hvalid, slot, hslot, hreference, hlimits, htotals, rfl, hsize⟩
    exact ⟨(), hauthority 0 (Nat.zero_le _), (), hvalid, slot, hslot, (),
      hauthority 1 (by omega), _, ⟨hreference, rfl⟩, (), hauthority 2 (by omega), _,
      ⟨fun i _ hi => hauthority i hi, hlimits, htotals, rfl⟩, hbytes slot, hsize⟩

/-! ## Valid requests -/

/-- What `validate_export_request` checks. -/
structure ExportRequest.Valid (request : ExportRequest) (binding : BindingDigests) : Prop where
  schema : request.workspaceSchemaVersion ≠ 0
  manifestSchema : request.manifest.workspaceSchemaVersion = request.workspaceSchemaVersion
  account : request.manifest.accountDigest = binding.account
  device : request.manifest.deviceDigest = binding.device
  workspace : request.manifest.workspaceDigest = binding.workspace
  binding : request.manifest.bindingDigest = binding.binding
  allowlist : request.manifest.allowlistVersion ≠ 0
  frames : request.dataFrames.length ≤ frameLimit - 2
  count : request.manifest.dataFrameCount.toNat = request.dataFrames.length
  limits : ∀ data ∈ request.dataFrames, data.length ≤ framePlaintextLimit
  bytes : dataBytes request.dataFrames = some request.manifest.dataPlaintextBytes.toNat
  projected : headerMaxBytes + (magic.length + 4 + 32 + 2 + wrappedKeyBytes) +
      (request.dataFrames.length + 2) * (frameHeaderBytes + aeadTagBytes) +
      (manifestPlaintextBytes + trailerPlaintextBytes) +
      request.manifest.dataPlaintextBytes.toNat ≤ artifactByteLimit

theorem validateExportRequest_eq_ok {binding : BindingDigests} :
    validateExportRequest request binding = .ok () ↔ request.Valid binding := by
  unfold validateExportRequest
  constructor
  · intro h
    split at h
    · cases h
    next hchecks =>
    split at h
    · cases h
    next hbytes =>
    split at h
    · cases h
    next hprojected =>
    simp only [Bool.or_eq_true, beq_iff_eq, bne_iff_ne, decide_eq_true_eq, any_eq_true,
      not_or, ne_eq, Decidable.not_not, Nat.not_lt, not_exists, not_and] at hchecks
    obtain ⟨⟨⟨⟨⟨⟨⟨⟨⟨h₁, h₂⟩, h₃⟩, h₄⟩, h₅⟩, h₆⟩, h₇⟩, h₈⟩, h₉⟩, h₁₀⟩ := hchecks
    exact ⟨h₁, h₂, h₃, h₄, h₅, h₆, h₇, h₈, h₉, h₁₀, Decidable.not_not.mp hbytes,
      Nat.not_lt.mp hprojected⟩
  · intro h
    rw [if_neg, if_neg (not_not_intro h.bytes), if_neg (Nat.not_lt.mpr h.projected)]
    simp only [Bool.or_eq_true, beq_iff_eq, bne_iff_ne, decide_eq_true_eq, any_eq_true,
      not_or, ne_eq, Decidable.not_not, Nat.not_lt, not_exists, not_and]
    exact ⟨⟨⟨⟨⟨⟨⟨⟨⟨h.schema, h.manifestSchema⟩, h.account⟩, h.device⟩, h.workspace⟩, h.binding⟩,
      h.allowlist⟩, h.frames⟩, h.count⟩, h.limits⟩

/-- The data frames as they stand in the artifact. -/
theorem length_sealData_bytes :
    ∀ {start total sequence : Nat},
      frames.foldlM (fun total frame => checkedAdd total frame.length) start = some total →
      ((sealData S c sequence frames).flatMap EncryptedFrame.headerAndCiphertext).length + start =
        frames.length * (frameHeaderBytes + aeadTagBytes) + total := by
  induction frames with
  | nil =>
    intro start total sequence h
    cases h
    rw [sealData, flatMap_nil, length_nil, length_nil, Nat.zero_mul]
  | cons data frames ih =>
    intro start total sequence h
    rw [foldlM_cons] at h
    obtain ⟨mid, hmid, htail⟩ := Option.bind_eq_some_iff.mp h
    have hlength := @ih mid total (sequence + 1) htail
    have hsum : mid = start + data.length := by
      unfold checkedAdd at hmid
      split at hmid
      · exact (Option.some.inj hmid).symm
      · cases hmid
    rw [sealData, flatMap_cons, length_append, length_record_sealFrame,
      length_cons, Nat.succ_mul]
    omega

/-- The totals of frames within the limit do not overflow. -/
theorem foldlM_addTotals :
    ∀ {totals : Nat × Nat} {sequence : Nat},
      (∀ data ∈ frames, data.length ≤ framePlaintextLimit) →
      totals.2 + frames.length * (framePlaintextLimit + aeadTagBytes) < 2 ^ 64 →
        totals.1 ≤ totals.2 →
      ∃ totals', (sealData S c sequence frames).foldlM addTotals totals = some totals' := by
  induction frames with
  | nil => exact fun {totals _} _ _ _ => ⟨totals, rfl⟩
  | cons data frames ih =>
    intro totals sequence hlimits hroom hle
    obtain ⟨hdata, hrest⟩ := forall_mem_cons.mp hlimits
    rw [length_cons, Nat.succ_mul] at hroom
    have hadd : addTotals totals (sealFrame S c sequence .data data) =
        some (totals.1 + data.length, totals.2 + (data.length + aeadTagBytes)) := by
      exact addTotals_of_lt (show totals.1 + data.length < 2 ^ 64 by omega)
        (show totals.2 + (data.length + aeadTagBytes) < 2 ^ 64 by omega)
    obtain ⟨totals', h⟩ := @ih (totals.1 + data.length, totals.2 + (data.length + aeadTagBytes))
      (sequence + 1) hrest (by simp only; omega) (by simp only; omega)
    refine ⟨totals', ?_⟩
    rw [sealData, foldlM_cons, hadd]
    exact h

theorem ExportRequest.Valid.totals (h : request.Valid host.binding) :
    ∃ totals, frameTotals (priorFrames S c request) = some totals := by
  have hmanifest : (encodeManifest request.manifest).length ≤ framePlaintextLimit := by
    rw [length_encodeManifest]
    decide
  have hframes : request.dataFrames.length ≤ 16382 := h.frames
  obtain ⟨totals, htotals⟩ := @foldlM_addTotals S c request.dataFrames
    ((encodeManifest request.manifest).length,
      (encodeManifest request.manifest).length + aeadTagBytes) 1 h.limits
    (by simp only [length_encodeManifest, manifestPlaintextBytes, framePlaintextLimit, aeadTagBytes]
        omega) (Nat.le_add_right _ _)
  refine ⟨totals, ?_⟩
  rw [frameTotals, priorFrames, foldlM_cons, addTotals_zero hmanifest]
  exact htotals

/-- The artifact is no longer than projected. -/
theorem ExportRequest.Valid.length_bytes (h : request.Valid host.binding) {slot : BackupKekSlot}
    (hslot : slot.reference.validate = true) :
    (exportedContainer S host slot request entropy).bytes.length ≤ artifactByteLimit := by
  have hid := (BackupKekRegistry.validate_length hslot).2
  have hdata := @length_sealData_bytes S (exportContext S host slot request entropy)
    request.dataFrames 0 _ 1 h.bytes
  rw [Nat.add_zero] at hdata
  have hprojected : 8192 + (8 + 4 + 32 + 2 + 72) + (request.dataFrames.length + 2) * 33 +
      (226 + 58) + request.manifest.dataPlaintextBytes.toNat ≤ artifactByteLimit := h.projected
  have hhead : (exportHeader slot request entropy).head.length =
      12 + (68 + slot.reference.id.length) := by
    rw [Header.length_head, Header.length_body]
    rfl
  have hframes : ((sealedFrames S (exportContext S host slot request entropy) request).flatMap
      EncryptedFrame.headerAndCiphertext).length =
        (33 + 226) + (request.dataFrames.length * 33 + request.manifest.dataPlaintextBytes.toNat) +
        (33 + 58) := by
    rw [sealedFrames, flatMap_append, length_append, priorFrames, flatMap_cons,
      length_append, length_record_sealFrame, length_encodeManifest, flatMap_cons,
      length_append, length_record_sealFrame, length_trailerText, hdata]
    rfl
  have hdigest := (exportContext S host slot request entropy).headerDigest.property
  refine Nat.le_trans (Nat.le_of_eq ?_) (Nat.le_trans (?_ : 12 + (68 + slot.reference.id.length) +
    (32 + (2 + (72 + ((33 + 226) + (request.dataFrames.length * 33 +
      request.manifest.dataPlaintextBytes.toNat) + (33 + 58))))) ≤ _) hprojected)
  · rw [ParsedContainer.bytes, length_append, length_append, length_append,
      length_append, length_bigEndian]
    simp only [exportedContainer, hhead, hdigest, hframes, length_wrapContentKey]
    rfl
  · omega

/-- A valid request goes through on a host that can be used. -/
theorem export_of_valid (hhost : host.Usable S) (h : request.Valid host.binding)
    (hauthority : ∀ i, authority i = true) :
    ∃ slot, host.registry.active S host.rollbackAnchor = .ok slot ∧
      slot.reference.validate = true ∧
      exportWithEntropyGuarded S host request entropy authority =
        .ok (exportedContainer S host slot request entropy).bytes := by
  obtain ⟨hsound, _⟩ := BackupKekRegistry.validateAnchor_iff.mp hhost
  obtain ⟨slot, hslot⟩ : ∃ slot, host.registry.slots.find? BackupKekSlot.encryptEnabled =
      some slot := by
    rw [← Option.isSome_iff_exists, List.find?_isSome]
    have hsingle := hsound.single
    obtain ⟨s, hs⟩ := exists_mem_of_length_pos (Nat.lt_of_lt_of_eq Nat.one_pos hsingle.symm)
    exact ⟨s, (mem_filter.mp hs).1, (mem_filter.mp hs).2⟩
  have hactive : host.registry.active S host.rollbackAnchor = .ok slot :=
    BackupKekRegistry.lookup_eq_ok.mpr ⟨hhost, hslot⟩
  have hvalid := (hsound.valid slot (mem_of_find?_eq_some hslot)).1
  refine ⟨slot, hactive, hvalid, export_eq_ok.mpr ⟨fun i _ => hauthority i, ?_, slot, hactive,
    hvalid, h.limits, h.totals, rfl, h.length_bytes hvalid⟩⟩
  exact validateExportRequest_eq_ok.mpr h

end GoodDealer.Backup
