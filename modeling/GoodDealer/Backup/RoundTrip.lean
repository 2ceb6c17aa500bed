/-
# `GoodDealer.Backup.RoundTrip` — an exported backup is imported as it was

The calls of the cipher that an export makes are its `exportSealings`.  If decryption
opens them, the artifact is imported with exactly the data frames of the request, its
source proof and its metadata (`import_exported`).  The host that imports may have
rotated and retired keys in between, as long as it holds the key that was used.
-/
import GoodDealer.Backup.Import

namespace GoodDealer.Backup

open List

variable {S : Suite} {decrypt : Decrypt} {c : FrameContext}

/-! ## The calls of the cipher -/

def dataSealings (c : FrameContext) : Nat → List Bytes → List Sealing
  | _, [] => []
  | sequence, data :: rest =>
    frameSealing c sequence .data data :: dataSealings c (sequence + 1) rest

/-- The calls for the frames of an export. -/
def frameSealings (S : Suite) (c : FrameContext) (request : ExportRequest) : List Sealing :=
  let prior := priorFrames S c request
  frameSealing c 0 .manifest (encodeManifest request.manifest) ::
    (dataSealings c 1 request.dataFrames ++
      [frameSealing c prior.length .trailer (trailerText S prior)])

/-- All calls of an export. -/
def exportSealings (S : Suite) (host : BackupContainerHost) (slot : BackupKekSlot)
    (request : ExportRequest) (entropy : ExportEntropy) : List Sealing :=
  let c := exportContext S host slot request entropy
  wrapSealing S slot.material c.headerDigest host.binding.binding entropy.wrapNonce
    entropy.contentKey :: frameSealings S c request

/-- Decryption gives back the message of the call. -/
def Sealing.Opens (S : Suite) (decrypt : Decrypt) (s : Sealing) : Prop :=
  decrypt s.key s.nonce s.aad (S.seal s) = some s.msg

theorem unwrapContentKey_wrap {kek headerDigest bindingDigest contentKey : Block 32}
    {nonce : Block 24}
    (h : (wrapSealing S kek headerDigest bindingDigest nonce contentKey).Opens S decrypt) :
    unwrapContentKey S decrypt kek headerDigest bindingDigest
      (wrapContentKey S kek headerDigest bindingDigest nonce contentKey) = some contentKey := by
  have hread : Reader.block 24 (wrapContentKey S kek headerDigest bindingDigest nonce contentKey) =
      some (nonce, S.seal (wrapSealing S kek headerDigest bindingDigest nonce contentKey)) :=
    (Reader.reads_block 24).read _ _
  rw [unwrapContentKey, if_neg (not_not_intro (length_wrapContentKey ..)), hread]
  unfold Sealing.Opens at h
  simp only [wrapSealing] at h ⊢
  rw [h]
  exact dif_pos contentKey.property

theorem forall₂_sealData : ∀ {frames : List Bytes} {sequence : Nat},
    (∀ s ∈ dataSealings c sequence frames, s.Opens S decrypt) →
    List.Forall₂ (fun f plaintext => openFrame decrypt c f = some plaintext)
      (sealData S c sequence frames) frames := by
  intro frames
  induction frames with
  | nil => exact fun _ => .nil
  | cons data frames ih =>
    intro sequence h
    obtain ⟨hdata, hrest⟩ := forall_mem_cons.mp h
    exact .cons hdata (ih hrest)

/-- The plaintexts of the frames. -/
def plaintextFrames (S : Suite) (c : FrameContext) (request : ExportRequest) : List Bytes :=
  encodeManifest request.manifest ::
    (request.dataFrames ++ [trailerText S (priorFrames S c request)])

theorem forall₂_sealedFrames {request : ExportRequest}
    (h : ∀ s ∈ frameSealings S c request, s.Opens S decrypt) :
    List.Forall₂ (fun f plaintext => openFrame decrypt c f = some plaintext)
      (sealedFrames S c request) (plaintextFrames S c request) := by
  obtain ⟨hmanifest, hrest⟩ := forall_mem_cons.mp h
  obtain ⟨hdata, htrailer⟩ := forall_mem_append.mp hrest
  refine .cons hmanifest (rel_append (forall₂_sealData hdata) (.cons ?_ .nil))
  exact htrailer _ mem_cons_self

/-! ## The container is well formed -/

theorem framesAccepted_sealData {tail : List EncryptedFrame} : ∀ {frames : List Bytes}
    {sequence : Nat}, sequence ≠ 0 → (∀ data ∈ frames, data.length ≤ framePlaintextLimit) →
    FramesAccepted (sequence + frames.length) tail →
    FramesAccepted sequence (sealData S c sequence frames ++ tail) := by
  intro frames
  induction frames with
  | nil => exact fun _ _ h => h
  | cons data frames ih =>
    intro sequence hsequence hlimits htail
    obtain ⟨hdata, hrest⟩ := forall_mem_cons.mp hlimits
    have hfirst : sequence = 0 ↔ FrameKind.data = .manifest :=
      ⟨fun h => absurd h hsequence, fun h => (by cases h)⟩
    refine ⟨accepted_sealFrame hdata hfirst (fun h => (by cases h)) (fun h => (by cases h)),
      fun h => (by cases h), ih (Nat.succ_ne_zero _) hrest ?_⟩
    rwa [Nat.succ_add_eq_add_succ]

variable {host host' : BackupContainerHost} {request : ExportRequest} {entropy : ExportEntropy}
  {slot : BackupKekSlot}

theorem length_sealedFrames :
    (sealedFrames S c request).length = request.dataFrames.length + 2 := by
  rw [sealedFrames, length_append, length_priorFrames]
  rfl

theorem exportedContainer_wellFormed (h : request.Valid host.binding)
    (hslot : slot.reference.validate = true) :
    (exportedContainer S host slot request entropy).WellFormed S := by
  have hframes : request.dataFrames.length ≤ 16382 := h.frames
  constructor
  · exact hslot
  · rfl
  · exact length_wrapContentKey ..
  · have htrailer : ∀ c, FramesAccepted (1 + request.dataFrames.length)
        [sealFrame S c (priorFrames S c request).length .trailer
          (trailerText S (priorFrames S c request))] := by
      intro c
      rw [length_priorFrames, Nat.add_comm 1]
      refine ⟨accepted_sealFrame ?_ ⟨fun h => (by cases h), fun h => (by cases h)⟩
        (fun h => (by cases h)) (fun _ => length_trailerText ..), fun _ => rfl, trivial⟩
      exact Nat.le_trans (Nat.le_of_eq (length_trailerText ..)) (by decide)
    refine ⟨accepted_sealFrame ?_ ⟨fun _ => rfl, fun _ => rfl⟩
      (fun _ => length_encodeManifest _) (fun h => (by cases h)), fun h => (by cases h),
      framesAccepted_sealData (by decide) h.limits (htrailer _)⟩
    exact Nat.le_trans (Nat.le_of_eq (length_encodeManifest _)) (by decide)
  · simp only [trailerSeen, exportedContainer, sealedFrames, List.getLast?_append,
      List.getLast?_singleton, Option.some_or]
    rfl
  · exact Nat.le_trans (Nat.le_add_left 2 _) (Nat.le_of_eq length_sealedFrames.symm)
  · rw [exportedContainer, length_sealedFrames, frameLimit]
    omega

/-! ## Manifest and trailer agree -/

/-- The totals fit into their fields. -/
theorem foldlM_addTotals_lt : ∀ {frames : List EncryptedFrame} {totals totals' : Nat × Nat},
    totals.1 < 2 ^ 64 ∧ totals.2 < 2 ^ 64 → frames.foldlM addTotals totals = some totals' →
    totals'.1 < 2 ^ 64 ∧ totals'.2 < 2 ^ 64 := by
  intro frames
  induction frames with
  | nil =>
    intro totals totals' hlt h
    cases h
    exact hlt
  | cons f frames ih =>
    intro totals totals' _ h
    rw [foldlM_cons] at h
    obtain ⟨mid, hmid, hrest⟩ := Option.bind_eq_some_iff.mp h
    refine ih ?_ hrest
    unfold addTotals checkedAdd at hmid
    split at hmid
    next hplain hcipher =>
      cases hmid
      split at hplain
      next hp =>
        split at hcipher
        next hc =>
          cases hplain
          cases hcipher
          exact ⟨hp, hc⟩
        · cases hcipher
      · cases hplain
    · cases hmid

/-- The trailer of an export. -/
def exportTrailer (S : Suite) (prior : List EncryptedFrame) (totals : Nat × Nat) : Trailer :=
  ⟨UInt64.ofNat prior.length, UInt64.ofNat totals.1, UInt64.ofNat totals.2,
    S.sha256 (prior.flatMap EncryptedFrame.headerAndCiphertext)⟩

theorem verified_exported (h : request.Valid host.binding) :
    let c := exportContext S host slot request entropy
    ∃ totals, Verified S (exportedContainer S host slot request entropy)
      (plaintextFrames S c request) host.binding request.manifest
      (exportTrailer S (priorFrames S c request) totals) totals := by
  intro c
  obtain ⟨totals, htotals⟩ := h.totals (S := S) (c := c)
  have hlt := foldlM_addTotals_lt (by decide) htotals
  have hprior : (exportedContainer S host slot request entropy).encryptedFrames.dropLast =
      priorFrames S c request := dropLast_concat
  have hcount : (UInt64.ofNat (priorFrames S c request).length).toNat =
      (priorFrames S c request).length := by
    have hframes : request.dataFrames.length ≤ 16382 := h.frames
    refine UInt64.toNat_ofNat_of_lt' ?_
    rw [length_priorFrames]
    exact Nat.lt_of_le_of_lt (Nat.add_le_add_right hframes 1) (by decide)
  have hplain : (UInt64.ofNat totals.1).toNat = totals.1 := UInt64.toNat_ofNat_of_lt' hlt.1
  have hcipher : (UInt64.ofNat totals.2).toNat = totals.2 := UInt64.toNat_ofNat_of_lt' hlt.2
  have hdata : dataOf (plaintextFrames S c request) = request.dataFrames := dropLast_concat
  have hlength : (plaintextFrames S c request).length = request.dataFrames.length + 2 := by
    rw [plaintextFrames, length_cons, length_append]
    rfl
  refine ⟨totals, ?_, ?_, ?_, h.account, h.device, h.workspace, h.binding, h.manifestSchema, ?_, ?_,
    ?_, ?_, ?_, hplain, hcipher, ?_⟩
  · rw [hlength]
    exact length_sealedFrames.symm
  · rw [hlength]
    exact Nat.le_add_left 2 _
  · exact parseManifest_eq_some.mpr ⟨rfl, h.manifestSchema ▸ h.schema, h.allowlist⟩
  · rw [hlength]
    exact h.count
  · rw [hdata]
    exact h.bytes
  · rw [parseTrailer_eq_some, plaintextFrames, getLastD_cons, getLastD_concat, trailerText,
      htotals]
    simp only [Trailer.encode, exportTrailer, hcount, hplain, hcipher, Option.getD_some]
  · rw [hprior]
    exact htotals
  · rw [hprior]
    exact hcount
  · rw [hprior]
    rfl

/-! ## The round trip -/

/-- The metadata of the artifact of a request. -/
def ExportRequest.metadata (request : ExportRequest) (entropy : ExportEntropy) : VerifiedArtifact :=
  { backupId := entropy.backupId
    workspaceSchemaVersion := request.workspaceSchemaVersion
    createdAtEpochSeconds := request.manifest.createdAtEpochSeconds
    allowlistVersion := request.manifest.allowlistVersion
    dataFrameCount := request.manifest.dataFrameCount
    dataPlaintextBytes := request.manifest.dataPlaintextBytes.toNat }

/-- A host that holds the key imports the artifact, if decryption opens its ciphertexts. -/
theorem import_exported {R : Type} {authority : Nat → Bool}
    {consume : Block 16 → Block 32 → List Bytes → Option R} {r : R}
    (hopens : ∀ s ∈ exportSealings S host slot request entropy, s.Opens S decrypt)
    (h : request.Valid host.binding) (hslot : slot.reference.validate = true)
    (husable : host'.Usable S) (hbinding : host'.binding = host.binding)
    (hmaterial : host'.registry.material slot.reference = some slot.material)
    (hauthority : ∀ i, authority i = true)
    (hconsume : consume entropy.backupId request.manifest.sourceProofDigest request.dataFrames =
      some r) :
    importGuarded S decrypt host' authority (exportedContainer S host slot request entropy).bytes
      consume = .ok (request.metadata entropy, r) := by
  obtain ⟨hwrap, hframes⟩ := forall_mem_cons.mp hopens
  obtain ⟨slot', hfound, hsame⟩ := Option.map_eq_some_iff.mp hmaterial
  obtain ⟨totals, hverified⟩ := @verified_exported S host request entropy slot h
  have hdata : dataOf (plaintextFrames S (exportContext S host slot request entropy) request) =
      request.dataFrames := dropLast_concat
  refine import_eq_ok.mpr ⟨exportedContainer S host slot request entropy, slot', entropy.contentKey,
    plaintextFrames S (exportContext S host slot request entropy) request, request.manifest, _,
    totals, fun i _ => hauthority i, ?_, ?_, ?_, ?_, hbinding ▸ hverified, ?_, ?_⟩
  · exact ParsedContainer.parse_eq_some.mpr
      ⟨h.length_bytes hslot, rfl, exportedContainer_wellFormed h hslot⟩
  · exact BackupKekRegistry.lookup_eq_ok.mpr ⟨husable, hfound⟩
  · rw [hsame, hbinding]
    exact unwrapContentKey_wrap hwrap
  · rw [hbinding]
    exact forall₂_sealedFrames hframes
  · rw [ParsedContainer.verified, h.manifestSchema]
    rfl
  · rw [hdata]
    exact hconsume

/-- A backup that is exported comes back as it was: for every valid request, whatever is drawn
for it, the export goes through, and after any rotations and retirements that keep the key in
use the import hands out exactly the data frames, with their source proof and metadata. -/
theorem backup_roundTrip (S : Suite) (decrypt : Decrypt)
    (hinverts : ∀ key nonce aad msg, decrypt key nonce aad (S.encrypt key nonce aad msg) = some msg)
    (host : BackupContainerHost) (hhost : host.Usable S) (request : ExportRequest)
    (hrequest : validateExportRequest request host.binding = .ok ()) (entropy : ExportEntropy) :
    ∃ slot artifact, host.registry.active S host.rollbackAnchor = .ok slot ∧
      exportWithEntropyGuarded S host request entropy (fun _ => true) = .ok artifact ∧
      ∀ calls, (kekCustody S).Along (BackupContainerHost.Keeps slot.reference) host calls →
        ∀ (R : Type) (consume : Block 16 → Block 32 → List Bytes → Option R) (r : R),
          consume entropy.backupId request.manifest.sourceProofDigest request.dataFrames = some r →
          importGuarded S decrypt ((kekCustody S).run host calls) (fun _ => true) artifact consume =
            .ok (request.metadata entropy, r) := by
  have hvalid := validateExportRequest_eq_ok.mp hrequest
  obtain ⟨slot, hactive, hslot, hexport⟩ :=
    @export_of_valid S (fun _ => true) host request entropy hhost hvalid (fun _ => rfl)
  refine ⟨slot, _, hactive, hexport, ?_⟩
  intro calls hkeeps R consume r hconsume
  -- the slot that encrypts is the one of its reference
  have hfound := (BackupKekRegistry.lookup_eq_ok.mp hactive).2
  have hsound := (BackupKekRegistry.validateAnchor_iff.mp hhost).1
  have hmaterial := hsound.material_of_mem (mem_of_find?_eq_some hfound)
  have hkept := BackupContainerHost.run_keeps calls hhost hkeeps
  exact import_exported (fun s _ => hinverts s.key s.nonce s.aad s.msg) hvalid hslot hkept.usable
    hkept.binding (hkept.material _ hmaterial) (fun _ => rfl) hconsume

/-! ### A backup of one data frame -/

/-- A digest of the first byte, and a cipher that only appends a tag. -/
def sampleSuite : Suite where
  sha256 bs := ⟨List.replicate 32 (bs.headD 0), rfl⟩
  hkdf _ _ _ := ⟨List.replicate 32 7, rfl⟩
  encrypt _ _ _ msg := msg ++ List.replicate 16 0
  length_encrypt _ _ _ msg := by rw [length_append, length_replicate]

def sampleDecrypt : Decrypt := fun _ _ _ ciphertext =>
  some (ciphertext.take (ciphertext.length - 16))

def sampleBlock (n : Nat) (b : UInt8) : Block n := ⟨List.replicate n b, length_replicate⟩

def sampleRegistry : BackupKekRegistry :=
  { slots := [⟨⟨[1], 1⟩, sampleBlock 32 2, true⟩]
    versionWatermark := 1
    installationProof := sampleBlock 32 3 }

def sampleBinding : BindingDigests :=
  ⟨sampleBlock 32 4, sampleBlock 32 5, sampleBlock 32 6, sampleBlock 32 7⟩

def sampleHost : BackupContainerHost :=
  ⟨sampleRegistry, sampleRegistry.anchor sampleSuite, sampleBinding⟩

def sampleRequest : ExportRequest where
  workspaceSchemaVersion := 1
  manifest :=
    { accountDigest := sampleBinding.account, deviceDigest := sampleBinding.device
      workspaceDigest := sampleBinding.workspace, bindingDigest := sampleBinding.binding
      sourceProofDigest := sampleBlock 32 8, workspaceSchemaVersion := 1
      createdAtEpochSeconds := 0, allowlistVersion := 1, dataFrameCount := 1
      dataPlaintextBytes := 2, authorityFloorDigest := sampleBlock 32 9 }
  dataFrames := [[10, 11]]

def sampleEntropy : ExportEntropy :=
  ⟨sampleBlock 16 1, sampleBlock 16 2, sampleBlock 32 3, sampleBlock 24 4⟩

theorem sampleHost_usable : sampleHost.Usable sampleSuite :=
  BackupKekRegistry.validateAnchor_iff.mpr
    ⟨(BackupKekRegistry.validateStructure_iff _).mp (by decide), rfl⟩

/-- The sample is exported, and imported after a rotation. -/
theorem backup_roundTrip_rotated : ∃ artifact,
    exportWithEntropyGuarded sampleSuite sampleHost sampleRequest sampleEntropy (fun _ => true) =
      .ok artifact ∧
    importGuarded sampleSuite sampleDecrypt ((kekCustody sampleSuite).run sampleHost
      [.rotate (some (sampleBlock 32 5, sampleBlock 16 6))]) (fun _ => true) artifact
      (fun _ _ frames => some frames) = .ok (sampleRequest.metadata sampleEntropy, [[10, 11]]) := by
  have hinverts : ∀ key nonce aad msg,
      sampleDecrypt key nonce aad (sampleSuite.encrypt key nonce aad msg) = some msg := by
    intro key nonce aad msg
    simp only [sampleDecrypt, sampleSuite, length_append, length_replicate,
      Nat.add_sub_cancel, take_left']
  obtain ⟨slot, artifact, hactive, hexport, himport⟩ := backup_roundTrip sampleSuite sampleDecrypt
    hinverts sampleHost sampleHost_usable sampleRequest (by decide +kernel) sampleEntropy
  refine ⟨artifact, hexport, himport _ ?_ _ _ _ rfl⟩
  refine ((kekCustody sampleSuite).along_cons _ _ _ _).mpr ⟨?_, trivial⟩
  intro d hd s hs
  cases hd
  cases mem_singleton.mp hs
  decide

end GoodDealer.Backup
