/-
# `GoodDealer.Backup.Container` — the GDBK container

The artifact of `crates/local-storage/src/backup/container.rs`: magic and header, the
digest of both, the wrapped content key, and the encrypted frames — the manifest, the
data, the trailer with the counts and the digest of all frames before it.  The writer
(`exportWithEntropyGuarded`) carries the artifact, the transcript and two totals through
its loop; the reader (`ParsedContainer.parse`, `importGuarded`) walks through the bytes
once and checks every length, count and digest.

The callback that says whether the authority is current is the function of its answers:
`authority i` is what it answers when it is asked for the `i`-th time.
-/
import GoodDealer.Backup.Registry

namespace GoodDealer.Backup

open Bytes (bigEndian)

/-! ## Constants -/

def magic : Bytes := [0x47, 0x44, 0x42, 0x4b, 0, 0x56, 0x31, 0]

def headerMaxBytes : Nat := 8192

def framePlaintextLimit : Nat := 1048576

def artifactByteLimit : Nat := 536870912

def frameLimit : Nat := 16384

def aeadTagBytes : Nat := 16

def frameHeaderBytes : Nat := 17

def wrappedKeyBytes : Nat := 24 + 32 + aeadTagBytes

def manifestPlaintextBytes : Nat := 2 + 6 * 32 + 8 + 8 + 4 + 4 + 8

def trailerPlaintextBytes : Nat := 2 + 8 + 8 + 8 + 32

/-- The bytes of an ASCII text. -/
def ascii (text : String) : Bytes := text.toList.map fun c => UInt8.ofNat c.toNat

def wrapDomain : Bytes := ascii "GOODDEALER/GDBK-WRAP-V1"

def frameDomain : Bytes := ascii "GOODDEALER/GDBK-FRAME-V1"

def kekPurpose : Bytes := ascii "GOODDEALER/BACKUP-KEK-V1"

/-- `checked_add` of `u64`. -/
def checkedAdd (a b : Nat) : Option Nat := if a + b < 2 ^ 64 then some (a + b) else none

/-! ## Records -/

inductive FrameKind where
  | manifest
  | data
  | trailer
deriving DecidableEq

namespace FrameKind

def toByte : FrameKind → UInt8
  | .manifest => 0
  | .data => 1
  | .trailer => 2

/-- `FrameKind::parse`. -/
def parse (value : Nat) : Option FrameKind :=
  match value with
  | 0 => some .manifest
  | 1 => some .data
  | 2 => some .trailer
  | _ => none

end FrameKind

structure BackupManifest where
  accountDigest : Block 32
  deviceDigest : Block 32
  workspaceDigest : Block 32
  bindingDigest : Block 32
  sourceProofDigest : Block 32
  workspaceSchemaVersion : UInt64
  createdAtEpochSeconds : UInt64
  allowlistVersion : UInt32
  dataFrameCount : UInt32
  dataPlaintextBytes : UInt64
  authorityFloorDigest : Block 32
deriving DecidableEq

/-- `encode_manifest`. -/
def encodeManifest (m : BackupManifest) : Bytes :=
  bigEndian 2 1 ++ (m.accountDigest.val ++ (m.deviceDigest.val ++ (m.workspaceDigest.val ++
    (m.bindingDigest.val ++ (m.sourceProofDigest.val ++
    (bigEndian 8 m.workspaceSchemaVersion.toNat ++ (bigEndian 8 m.createdAtEpochSeconds.toNat ++
    (bigEndian 4 m.allowlistVersion.toNat ++ (bigEndian 4 m.dataFrameCount.toNat ++
    (bigEndian 8 m.dataPlaintextBytes.toNat ++ m.authorityFloorDigest.val))))))))))

/-- The fields of a manifest, in order. -/
def readManifest : Reader BackupManifest := do
  Reader.literal 2 1
  let accountDigest ← Reader.block 32
  let deviceDigest ← Reader.block 32
  let workspaceDigest ← Reader.block 32
  let bindingDigest ← Reader.block 32
  let sourceProofDigest ← Reader.block 32
  let workspaceSchemaVersion ← Reader.uint64
  let createdAtEpochSeconds ← Reader.uint64
  let allowlistVersion ← Reader.uint32
  let dataFrameCount ← Reader.uint32
  let dataPlaintextBytes ← Reader.uint64
  let authorityFloorDigest ← Reader.block 32
  pure { accountDigest, deviceDigest, workspaceDigest, bindingDigest, sourceProofDigest,
         workspaceSchemaVersion, createdAtEpochSeconds, allowlistVersion, dataFrameCount,
         dataPlaintextBytes, authorityFloorDigest }

/-- `parse_manifest`. -/
def parseManifest (bytes : Bytes) : Option BackupManifest :=
  if bytes.length ≠ manifestPlaintextBytes then none
  else
    match Reader.whole readManifest bytes with
    | none => none
    | some m => if m.workspaceSchemaVersion == 0 || m.allowlistVersion == 0 then none else some m

structure Trailer where
  priorFrameCount : UInt64
  totalPlaintext : UInt64
  totalCiphertext : UInt64
  transcriptDigest : Block 32
deriving DecidableEq

/-- `encode_trailer`. -/
def encodeTrailer (priorFrameCount totalPlaintext totalCiphertext : Nat)
    (transcriptDigest : Block 32) : Bytes :=
  bigEndian 2 1 ++ (bigEndian 8 priorFrameCount ++ (bigEndian 8 totalPlaintext ++
    (bigEndian 8 totalCiphertext ++ transcriptDigest.val)))

def readTrailer : Reader Trailer := do
  Reader.literal 2 1
  let priorFrameCount ← Reader.uint64
  let totalPlaintext ← Reader.uint64
  let totalCiphertext ← Reader.uint64
  let transcriptDigest ← Reader.block 32
  pure { priorFrameCount, totalPlaintext, totalCiphertext, transcriptDigest }

/-- `parse_trailer`. -/
def parseTrailer (bytes : Bytes) : Option Trailer :=
  if bytes.length ≠ trailerPlaintextBytes then none else Reader.whole readTrailer bytes

structure Header where
  backupId : Block 16
  noncePrefix : Block 16
  workspaceSchemaVersion : UInt64
  kekReference : KekReference
deriving DecidableEq

namespace Header

/-- The bytes of a header. -/
def body (h : Header) : Bytes :=
  bigEndian 2 1 ++ (bigEndian 2 1 ++ (bigEndian 2 1 ++ (h.backupId.val ++ (h.noncePrefix.val ++
    (bigEndian 4 framePlaintextLimit ++ (bigEndian 8 artifactByteLimit ++
    (bigEndian 8 h.workspaceSchemaVersion.toNat ++ (bigEndian 1 h.kekReference.id.length ++
    (h.kekReference.id ++ (bigEndian 1 8 ++ bigEndian 8 h.kekReference.version.toNat))))))))))

/-- `Header::encode`. -/
def encode (h : Header) : Option Bytes := if h.kekReference.validate then some h.body else none

/-- The fields of a header, in order. -/
def read : Reader Header := do
  -- format version, crypto suite and key-wrap suite
  Reader.literal 2 1
  Reader.literal 2 1
  Reader.literal 2 1
  let backupId ← Reader.block 16
  let noncePrefix ← Reader.block 16
  Reader.literal 4 framePlaintextLimit
  Reader.literal 8 artifactByteLimit
  let workspaceSchemaVersion ← Reader.uint64
  let idLen ← Reader.number 1
  Reader.require (!(idLen == 0 || decide (64 < idLen)))
  let id ← Reader.block idLen
  Reader.literal 1 8
  let version ← Reader.uint64
  pure { backupId, noncePrefix, workspaceSchemaVersion, kekReference := ⟨id.val, version⟩ }

/-- `Header::parse`. -/
def parse (bytes : Bytes) : Option Header :=
  match Reader.whole read bytes with
  | none => none
  | some h => if h.kekReference.validate then some h else none

end Header

/-! ## Frames -/

structure EncryptedFrame where
  sequence : Nat
  kind : FrameKind
  plaintextLen : Nat
  ciphertextLen : Nat
  headerAndCiphertext : Bytes
  ciphertext : Bytes
deriving DecidableEq

/-- A frame as it stands in the artifact. -/
def frameRecord (sequence : Nat) (kind : FrameKind) (plaintextLen ciphertextLen : Nat)
    (ciphertext : Bytes) : Bytes :=
  bigEndian 8 sequence ++ (bigEndian 1 kind.toByte.toNat ++ (bigEndian 4 plaintextLen ++
    (bigEndian 4 ciphertextLen ++ ciphertext)))

/-- The checks on the head of a frame, in the order of the loop of `ParsedContainer::parse`. -/
def frameAccepted (expected : Nat) (sequence : Nat) (kind : FrameKind)
    (plaintextLen ciphertextLen : Nat) : Bool :=
  !(sequence != expected || decide (framePlaintextLimit < plaintextLen) ||
    ciphertextLen != plaintextLen + aeadTagBytes) &&
  (expected == 0) == (kind == .manifest) &&
  !(kind == .manifest && plaintextLen != manifestPlaintextBytes) &&
  !(kind == .trailer && plaintextLen != trailerPlaintextBytes)

/-- One turn of the loop. -/
def readFrame (expected : Nat) : Reader EncryptedFrame := fun bs => do
  let ((sequence, kind, plaintextLen, ciphertextLen, ciphertext), rest) ← (do
    let sequence ← Reader.number 8
    let kindByte ← Reader.number 1
    let kind ← StateT.lift (FrameKind.parse kindByte)
    let plaintextLen ← Reader.number 4
    let ciphertextLen ← Reader.number 4
    Reader.require (frameAccepted expected sequence kind plaintextLen ciphertextLen)
    let ciphertext ← Reader.block ciphertextLen
    pure (sequence, kind, plaintextLen, ciphertextLen, ciphertext.val) :
      Reader (Nat × FrameKind × Nat × Nat × Bytes)) bs
  -- the slice from the start of the record to the position after it
  some ({ sequence, kind, plaintextLen, ciphertextLen,
          headerAndCiphertext := bs.take (bs.length - rest.length), ciphertext }, rest)

/-- The loop: `room` more frames are allowed, and `trailerSeen` says that none may come. -/
def readFrames : (room expected : Nat) → (trailerSeen : Bool) → Bytes →
    Option (List EncryptedFrame × Bool)
  | room, expected, trailerSeen, bs =>
    if bs.isEmpty then some ([], trailerSeen)
    else
      match room with
      | 0 => none
      | room + 1 =>
        if trailerSeen then none
        else
          match readFrame expected bs with
          | none => none
          | some (frame, rest) =>
            (readFrames room (expected + 1) (frame.kind == .trailer) rest).map
              fun (frames, seen) => (frame :: frames, seen)

structure ParsedContainer where
  header : Header
  headerDigest : Block 32
  wrappedKey : Bytes
  encryptedFrames : List EncryptedFrame
deriving DecidableEq

namespace ParsedContainer

/-- Magic, header, header digest and wrapped key. -/
def readHead (S : Suite) (artifact : Bytes) :
    Reader (Header × Block 32 × Block wrappedKeyBytes) := do
  let found ← Reader.block magic.length
  Reader.require (found.val == magic)
  let headerLen ← Reader.number 4
  Reader.require (!(headerLen == 0 || decide (headerMaxBytes < headerLen)))
  let headerBody ← Reader.block headerLen
  let header ← StateT.lift (Header.parse headerBody.val)
  let suppliedDigest ← Reader.block 32
  -- `artifact[..body_end]`
  Reader.require (suppliedDigest == S.sha256 (artifact.take (magic.length + 4 + headerLen)))
  Reader.literal 2 wrappedKeyBytes
  let wrappedKey ← Reader.block wrappedKeyBytes
  pure (header, suppliedDigest, wrappedKey)

/-- `ParsedContainer::parse`; its only error is `ArtifactRejected`. -/
def parse (S : Suite) (artifact : Bytes) : Option ParsedContainer :=
  if artifactByteLimit < artifact.length then none
  else
    match readHead S artifact artifact with
    | none => none
    | some ((header, headerDigest, wrappedKey), rest) =>
      match readFrames frameLimit 0 false rest with
      | none => none
      | some (encryptedFrames, trailerSeen) =>
        if !trailerSeen || decide (encryptedFrames.length < 2) then none
        else some { header, headerDigest, wrappedKey := wrappedKey.val, encryptedFrames }

end ParsedContainer

/-! ## Encryption -/

/-- A call of the cipher. -/
structure Sealing where
  key : Block 32
  nonce : Block 24
  aad : Bytes
  msg : Bytes
deriving DecidableEq

def Suite.seal (S : Suite) (s : Sealing) : Bytes := S.encrypt s.key s.nonce s.aad s.msg

/-- `derive_wrap_key`. -/
def deriveWrapKey (S : Suite) (kek headerDigest bindingDigest : Block 32) : Block 32 :=
  S.hkdf headerDigest.val kek.val [kekPurpose, wrapDomain, bindingDigest.val]

/-- `wrap_aad`. -/
def wrapAad (headerDigest bindingDigest : Block 32) : Bytes :=
  wrapDomain ++ (headerDigest.val ++ bindingDigest.val)

def wrapSealing (S : Suite) (kek headerDigest bindingDigest : Block 32) (nonce : Block 24)
    (contentKey : Block 32) : Sealing :=
  ⟨deriveWrapKey S kek headerDigest bindingDigest, nonce, wrapAad headerDigest bindingDigest,
    contentKey.val⟩

/-- `wrap_content_key`. -/
def wrapContentKey (S : Suite) (kek headerDigest bindingDigest : Block 32) (nonce : Block 24)
    (contentKey : Block 32) : Bytes :=
  nonce.val ++ S.seal (wrapSealing S kek headerDigest bindingDigest nonce contentKey)

/-- `unwrap_content_key`. -/
def unwrapContentKey (S : Suite) (decrypt : Decrypt) (kek headerDigest bindingDigest : Block 32)
    (wrapped : Bytes) : Option (Block 32) :=
  if wrapped.length ≠ wrappedKeyBytes then none
  else
    match Reader.block 24 wrapped with
    | none => none
    | some (nonce, ciphertext) =>
      match decrypt (deriveWrapKey S kek headerDigest bindingDigest) nonce
        (wrapAad headerDigest bindingDigest) ciphertext with
      | none => none
      | some plaintext => if h : plaintext.length = 32 then some ⟨plaintext, h⟩ else none

/-- What all frames of an artifact share. -/
structure FrameContext where
  contentKey : Block 32
  headerDigest : Block 32
  backupId : Block 16
  bindingDigest : Block 32
  noncePrefix : Block 16

/-- `frame_aad`. -/
def frameAad (c : FrameContext) (kind : FrameKind) (sequence plaintextLen ciphertextLen : Nat) :
    Bytes :=
  frameDomain ++ (c.headerDigest.val ++ (c.backupId.val ++ (c.bindingDigest.val ++
    (bigEndian 1 kind.toByte.toNat ++ (bigEndian 8 sequence ++ (bigEndian 4 plaintextLen ++
    bigEndian 4 ciphertextLen))))))

/-- `frame_nonce`. -/
def frameNonce (noncePrefix : Block 16) (sequence : Nat) : Block 24 :=
  ⟨noncePrefix.val ++ bigEndian 8 sequence, by
    rw [List.length_append, noncePrefix.property, Bytes.length_bigEndian]⟩

def frameSealing (c : FrameContext) (sequence : Nat) (kind : FrameKind) (plaintext : Bytes) :
    Sealing :=
  ⟨c.contentKey, frameNonce c.noncePrefix sequence,
    frameAad c kind sequence plaintext.length (plaintext.length + aeadTagBytes), plaintext⟩

/-- What the loop of the export carries along. -/
structure Progress where
  artifact : Bytes
  transcript : Bytes
  totalPlaintext : Nat
  totalCiphertext : Nat

/-- `append_encrypted_frame`. -/
def appendEncryptedFrame (S : Suite) (c : FrameContext) (p : Progress) (sequence : Nat)
    (kind : FrameKind) (plaintext : Bytes) : Option Progress :=
  if framePlaintextLimit < plaintext.length then none
  else
    let plaintextLen := plaintext.length
    let ciphertextLen := plaintextLen + aeadTagBytes
    let record := frameRecord sequence kind plaintextLen ciphertextLen
      (S.seal (frameSealing c sequence kind plaintext))
    match checkedAdd p.totalPlaintext plaintextLen, checkedAdd p.totalCiphertext ciphertextLen with
    | some totalPlaintext, some totalCiphertext =>
      some ⟨p.artifact ++ record, p.transcript ++ record, totalPlaintext, totalCiphertext⟩
    | _, _ => none

/-- `open_frame`. -/
def openFrame (decrypt : Decrypt) (c : FrameContext) (frame : EncryptedFrame) : Option Bytes :=
  decrypt c.contentKey (frameNonce c.noncePrefix frame.sequence)
    (frameAad c frame.kind frame.sequence frame.plaintextLen frame.ciphertextLen) frame.ciphertext

/-! ## Export -/

structure ExportRequest where
  workspaceSchemaVersion : UInt64
  manifest : BackupManifest
  dataFrames : List Bytes

structure ExportEntropy where
  backupId : Block 16
  noncePrefix : Block 16
  contentKey : Block 32
  wrapNonce : Block 24

/-- `require_authority`, asked for the `i`-th time. -/
def requireAuthority (authority : Nat → Bool) (i : Nat) : Except BackupContainerError Unit :=
  if authority i then .ok () else .error .authorityRejected

/-- The errors of the parser and of the cipher are all the same. -/
def rejected {α : Type} : Option α → Except BackupContainerError α
  | some a => .ok a
  | none => .error .artifactRejected

/-- The sum of the lengths, in `u64`. -/
def dataBytes (frames : List Bytes) : Option Nat :=
  frames.foldlM (fun total frame => checkedAdd total frame.length) 0

/-- `validate_export_request`.  The sums for the projected size are checked for overflow in the
source; a sum that overflows is over the limit. -/
def validateExportRequest (request : ExportRequest) (binding : BindingDigests) :
    Except BackupContainerError Unit :=
  if request.workspaceSchemaVersion == 0 ||
      request.manifest.workspaceSchemaVersion != request.workspaceSchemaVersion ||
      request.manifest.accountDigest != binding.account ||
      request.manifest.deviceDigest != binding.device ||
      request.manifest.workspaceDigest != binding.workspace ||
      request.manifest.bindingDigest != binding.binding ||
      request.manifest.allowlistVersion == 0 ||
      decide (frameLimit - 2 < request.dataFrames.length) ||
      request.manifest.dataFrameCount.toNat != request.dataFrames.length ||
      request.dataFrames.any (fun frame => decide (framePlaintextLimit < frame.length)) then
    .error .artifactRejected
  else if dataBytes request.dataFrames ≠ some request.manifest.dataPlaintextBytes.toNat then
    .error .artifactRejected
  else if artifactByteLimit < headerMaxBytes + (magic.length + 4 + 32 + 2 + wrappedKeyBytes) +
      (request.dataFrames.length + 2) * (frameHeaderBytes + aeadTagBytes) +
      (manifestPlaintextBytes + trailerPlaintextBytes) +
      request.manifest.dataPlaintextBytes.toNat then
    .error .artifactRejected
  else .ok ()

/-- The loop over the data frames, each between two questions to the authority. -/
def appendDataFrames (S : Suite) (c : FrameContext) (authority : Nat → Bool) :
    (asked sequence : Nat) → Progress → List Bytes → Except BackupContainerError Progress
  | _, _, p, [] => .ok p
  | asked, sequence, p, data :: rest => do
    requireAuthority authority asked
    let p ← rejected (appendEncryptedFrame S c p sequence .data data)
    requireAuthority authority (asked + 1)
    appendDataFrames S c authority (asked + 2) (sequence + 1) p rest

/-- The frames of `export_with_entropy_guarded`, behind the head of the artifact. -/
def appendFrames (S : Suite) (c : FrameContext) (request : ExportRequest) (authority : Nat → Bool)
    (artifact : Bytes) : Except BackupContainerError Bytes := do
  let p ← rejected (appendEncryptedFrame S c ⟨artifact, [], 0, 0⟩ 0 .manifest
    (encodeManifest request.manifest))
  requireAuthority authority 3
  let p ← appendDataFrames S c authority 4 1 p request.dataFrames
  let sequence := request.dataFrames.length + 1
  let trailer := encodeTrailer sequence p.totalPlaintext p.totalCiphertext (S.sha256 p.transcript)
  -- the trailer goes into the artifact, not into the transcript or the totals
  let last ← rejected (appendEncryptedFrame S c ⟨p.artifact, [], 0, 0⟩ sequence .trailer trailer)
  requireAuthority authority (4 + 2 * request.dataFrames.length)
  return last.artifact

/-- `export_with_entropy_guarded`. -/
def exportWithEntropyGuarded (S : Suite) (host : BackupContainerHost) (request : ExportRequest)
    (entropy : ExportEntropy) (authority : Nat → Bool) : Except BackupContainerError Bytes := do
  requireAuthority authority 0
  validateExportRequest request host.binding
  let slot ← host.registry.active S host.rollbackAnchor
  requireAuthority authority 1
  let header : Header :=
    { backupId := entropy.backupId, noncePrefix := entropy.noncePrefix,
      workspaceSchemaVersion := request.workspaceSchemaVersion, kekReference := slot.reference }
  let headerBody ← rejected header.encode
  let head := magic ++ (bigEndian 4 headerBody.length ++ headerBody)
  let headerDigest := S.sha256 head
  let wrappedKey := wrapContentKey S slot.material headerDigest host.binding.binding
    entropy.wrapNonce entropy.contentKey
  requireAuthority authority 2
  let artifact ← appendFrames S ⟨entropy.contentKey, headerDigest, entropy.backupId,
      host.binding.binding, entropy.noncePrefix⟩ request authority
    (head ++ (headerDigest.val ++ (bigEndian 2 wrappedKey.length ++ wrappedKey)))
  if artifactByteLimit < artifact.length then .error .artifactRejected else .ok artifact

/-! ## Import -/

structure VerifiedArtifact where
  backupId : Block 16
  workspaceSchemaVersion : UInt64
  createdAtEpochSeconds : UInt64
  allowlistVersion : UInt32
  dataFrameCount : UInt32
  dataPlaintextBytes : Nat
deriving DecidableEq

/-- The loop that opens the frames, each between two questions to the authority. -/
def openFrames (decrypt : Decrypt) (c : FrameContext) (authority : Nat → Bool) :
    (asked : Nat) → List EncryptedFrame → Except BackupContainerError (List Bytes)
  | _, [] => .ok []
  | asked, frame :: rest => do
    requireAuthority authority asked
    let plaintext ← rejected (openFrame decrypt c frame)
    requireAuthority authority (asked + 1)
    let plaintexts ← openFrames decrypt c authority (asked + 2) rest
    return plaintext :: plaintexts

/-- The data frames between the manifest and the trailer. -/
def dataOf {α : Type} (frames : List α) : List α := frames.tail.dropLast

/-- The two totals with one frame more, in `u64`. -/
def addTotals (totals : Nat × Nat) (frame : EncryptedFrame) : Option (Nat × Nat) :=
  match checkedAdd totals.1 frame.plaintextLen, checkedAdd totals.2 frame.ciphertextLen with
  | some totalPlaintext, some totalCiphertext => some (totalPlaintext, totalCiphertext)
  | _, _ => none

/-- The two totals over the frames before the trailer. -/
def frameTotals (frames : List EncryptedFrame) : Option (Nat × Nat) :=
  frames.foldlM addTotals (0, 0)

/-- `verify_plaintext`. -/
def verifyPlaintext (S : Suite) (parsed : ParsedContainer) (plaintext : List Bytes)
    (binding : BindingDigests) : Option VerifiedArtifact :=
  if plaintext.length != parsed.encryptedFrames.length || decide (plaintext.length < 2) then none
  else do
    let manifest ← parseManifest (plaintext.headD [])
    if manifest.accountDigest != binding.account || manifest.deviceDigest != binding.device ||
        manifest.workspaceDigest != binding.workspace ||
        manifest.bindingDigest != binding.binding ||
        manifest.workspaceSchemaVersion != parsed.header.workspaceSchemaVersion ||
        manifest.dataFrameCount.toNat != plaintext.length - 2 then none
    else
      let dataPlaintextBytes ← dataBytes (dataOf plaintext)
      if dataPlaintextBytes ≠ manifest.dataPlaintextBytes.toNat then none
      else
        let trailer ← parseTrailer (plaintext.getLastD [])
        let priorFrames := parsed.encryptedFrames.dropLast
        let totals ← frameTotals priorFrames
        let transcriptDigest := S.sha256 (priorFrames.flatMap EncryptedFrame.headerAndCiphertext)
        if trailer.priorFrameCount.toNat != priorFrames.length ||
            trailer.totalPlaintext.toNat != totals.1 || trailer.totalCiphertext.toNat != totals.2 ||
            trailer.transcriptDigest != transcriptDigest then none
        else
          some { backupId := parsed.header.backupId
                 workspaceSchemaVersion := manifest.workspaceSchemaVersion
                 createdAtEpochSeconds := manifest.createdAtEpochSeconds
                 allowlistVersion := manifest.allowlistVersion
                 dataFrameCount := manifest.dataFrameCount
                 dataPlaintextBytes }

/-- `import_guarded`; the consumer gets the backup id, the source proof and the data frames. -/
def importGuarded {R : Type} (S : Suite) (decrypt : Decrypt) (host : BackupContainerHost)
    (authority : Nat → Bool) (artifact : Bytes)
    (consume : Block 16 → Block 32 → List Bytes → Option R) :
    Except BackupContainerError (VerifiedArtifact × R) := do
  requireAuthority authority 0
  let parsed ← rejected (ParsedContainer.parse S artifact)
  requireAuthority authority 1
  let slot ← host.registry.exact S host.rollbackAnchor parsed.header.kekReference
  requireAuthority authority 2
  let contentKey ← rejected (unwrapContentKey S decrypt slot.material parsed.headerDigest
    host.binding.binding parsed.wrappedKey)
  requireAuthority authority 3
  let c : FrameContext := ⟨contentKey, parsed.headerDigest, parsed.header.backupId,
    host.binding.binding, parsed.header.noncePrefix⟩
  let plaintextFrames ← openFrames decrypt c authority 4 parsed.encryptedFrames
  let verified ← rejected (verifyPlaintext S parsed plaintextFrames host.binding)
  requireAuthority authority (4 + 2 * parsed.encryptedFrames.length)
  let manifest ← rejected (parseManifest (plaintextFrames.headD []))
  let result ← rejected (consume parsed.header.backupId manifest.sourceProofDigest
    (dataOf plaintextFrames))
  return (verified, result)

end GoodDealer.Backup
