/-
# `GoodDealer.Backup.Format` — what the parser of the container accepts

Every record of the container is accepted exactly in the bytes that its writer writes:
manifest, trailer, header, frame, and the artifact as a whole (`parse_eq_some`).  No other
module looks into the readers.
-/
import GoodDealer.Backup.Container

namespace GoodDealer.Backup

open List

open Bytes (bigEndian length_bigEndian)

variable {bs rest : Bytes}

/-! ## Manifest, trailer and header -/

variable {m : BackupManifest}

theorem readManifest_eq_some :
    readManifest bs = some (m, rest) ↔ bs = encodeManifest m ++ rest := by
  have hversion : 1 < 256 ^ 2 := by decide
  unfold readManifest
  simp only [Reader.literal_bind_eq_some hversion, (Reader.reads_block 32).bind,
    Reader.reads_uint64.bind, Reader.reads_uint32.bind, Reader.pure_eq_some]
  constructor
  · rintro ⟨_, rfl, _, _, rfl, _, _, rfl, _, _, rfl, _, _, rfl, _, _, rfl, _, _, rfl,
      _, _, rfl, _, _, rfl, _, _, rfl, _, _, rfl, _, _, rfl, rfl, rfl⟩
    simp only [encodeManifest, append_assoc]
  · rintro rfl
    refine ⟨_, append_assoc _ _ _, ?_⟩
    simp only [append_assoc]
    exact ⟨_, _, rfl, _, _, rfl, _, _, rfl, _, _, rfl, _, _, rfl, _, _, rfl, _, _, rfl, _, _, rfl,
      _, _, rfl, _, _, rfl, _, _, rfl, rfl, rfl⟩

theorem length_encodeManifest (m : BackupManifest) :
    (encodeManifest m).length = manifestPlaintextBytes := by
  simp only [encodeManifest, length_append, length_bigEndian, m.accountDigest.property,
    m.deviceDigest.property, m.workspaceDigest.property, m.bindingDigest.property,
    m.sourceProofDigest.property, m.authorityFloorDigest.property, manifestPlaintextBytes]

theorem parseManifest_eq_some :
    parseManifest bs = some m ↔
      bs = encodeManifest m ∧ m.workspaceSchemaVersion ≠ 0 ∧ m.allowlistVersion ≠ 0 := by
  unfold parseManifest
  constructor
  · intro h
    split at h
    · cases h
    next =>
    split at h
    · cases h
    next found hfound =>
    rw [Reader.whole_eq_some, readManifest_eq_some, append_nil] at hfound
    split at h
    · cases h
    next hversions =>
      cases h
      simpa [hfound] using hversions
  · rintro ⟨rfl, hschema, hallowlist⟩
    have hread : Reader.whole readManifest (encodeManifest m) = some m := by
      rw [Reader.whole_eq_some, readManifest_eq_some, append_nil]
    rw [if_neg (not_not_intro (length_encodeManifest m)), hread]
    exact if_neg (by simp [hschema, hallowlist])

/-- The bytes of a trailer. -/
def Trailer.encode (t : Trailer) : Bytes :=
  encodeTrailer t.priorFrameCount.toNat t.totalPlaintext.toNat t.totalCiphertext.toNat
    t.transcriptDigest

theorem length_encodeTrailer (count plaintext ciphertext : Nat) (digest : Block 32) :
    (encodeTrailer count plaintext ciphertext digest).length = trailerPlaintextBytes := by
  simp only [encodeTrailer, length_append, length_bigEndian, digest.property,
    trailerPlaintextBytes]

theorem parseTrailer_eq_some {t : Trailer} : parseTrailer bs = some t ↔ bs = t.encode := by
  have hread : Reader.whole readTrailer bs = some t ↔ bs = t.encode := by
    have hversion : 1 < 256 ^ 2 := by decide
    rw [Reader.whole_eq_some]
    unfold readTrailer
    simp only [Reader.literal_bind_eq_some hversion, (Reader.reads_block 32).bind,
      Reader.reads_uint64.bind, Reader.pure_eq_some]
    constructor
    · rintro ⟨_, rfl, _, _, rfl, _, _, rfl, _, _, rfl, _, _, rfl, rfl, rfl⟩
      simp only [Trailer.encode, encodeTrailer, append_nil]
    · rintro rfl
      exact ⟨_, rfl, _, _, rfl, _, _, rfl, _, _, rfl, t.transcriptDigest, _,
        (append_nil _).symm, rfl, rfl⟩
  unfold parseTrailer
  split
  next hlength =>
    refine ⟨fun h => (by cases h), ?_⟩
    rintro rfl
    exact absurd (length_encodeTrailer _ _ _ _) hlength
  next => exact hread

namespace Header

theorem length_body (h : Header) : h.body.length = 68 + h.kekReference.id.length := by
  simp only [body, length_append, length_bigEndian, h.backupId.property,
    h.noncePrefix.property]
  omega

variable {h : Header}

theorem read_eq_some : read bs = some (h, rest) ↔
    1 ≤ h.kekReference.id.length ∧ h.kekReference.id.length ≤ 64 ∧ bs = h.body ++ rest := by
  have hversion : 1 < 256 ^ 2 := by decide
  have hframe : framePlaintextLimit < 256 ^ 4 := by decide
  have hartifact : artifactByteLimit < 256 ^ 8 := by decide
  have hwidth : 8 < 256 ^ 1 := by decide
  unfold read
  simp only [Reader.literal_bind_eq_some hversion, Reader.literal_bind_eq_some hframe,
    Reader.literal_bind_eq_some hartifact, Reader.literal_bind_eq_some hwidth,
    Reader.number_bind_eq_some, Reader.require_bind_eq_some, (Reader.reads_block _).bind,
    Reader.reads_uint64.bind, Reader.pure_eq_some]
  constructor
  · rintro ⟨_, rfl, _, rfl, _, rfl, _, _, rfl, _, _, rfl, _, rfl, _, rfl, _, _, rfl, idLen, _, -,
      rfl, hidLen, ⟨id, hid⟩, _, rfl, _, rfl, _, _, rfl, rfl, rfl⟩
    subst hid
    simp only [Bool.not_eq_true', Bool.or_eq_false_iff, beq_eq_false_iff_ne, ne_eq,
      decide_eq_false_iff_not, Nat.not_lt] at hidLen
    refine ⟨Nat.one_le_iff_ne_zero.mpr hidLen.1, hidLen.2, ?_⟩
    simp only [body, append_assoc]
  · rintro ⟨hlow, hhigh, rfl⟩
    simp only [body, append_assoc]
    refine ⟨_, rfl, _, rfl, _, rfl, _, _, rfl, _, _, rfl, _, rfl, _, rfl, _, _, rfl,
      _, _, Nat.lt_of_le_of_lt hhigh (by decide), rfl, ?_, ⟨h.kekReference.id, rfl⟩, _, rfl,
      _, rfl, _, _, rfl, rfl, rfl⟩
    simp only [Bool.not_eq_true', Bool.or_eq_false_iff, beq_eq_false_iff_ne, ne_eq,
      decide_eq_false_iff_not, Nat.not_lt]
    exact ⟨Nat.one_le_iff_ne_zero.mp hlow, hhigh⟩

theorem parse_eq_some :
    parse bs = some h ↔ bs = h.body ∧ h.kekReference.validate = true := by
  unfold parse
  constructor
  · intro hparse
    split at hparse
    · cases hparse
    next found hfound =>
    rw [Reader.whole_eq_some, read_eq_some, append_nil] at hfound
    split at hparse
    next hvalid =>
      cases hparse
      exact ⟨hfound.2.2, hvalid⟩
    next => cases hparse
  · rintro ⟨rfl, hvalid⟩
    obtain ⟨hlow, hhigh⟩ := BackupKekRegistry.validate_length hvalid
    have hread : Reader.whole read h.body = some h := by
      rw [Reader.whole_eq_some, read_eq_some, append_nil]
      exact ⟨hlow, hhigh, rfl⟩
    rw [hread]
    exact if_pos hvalid

end Header

/-! ## Frames -/

variable {expected : Nat} {kind : FrameKind} {f : EncryptedFrame}

theorem FrameKind.parse_eq_some {value : Nat} :
    FrameKind.parse value = some kind ↔ value = kind.toByte.toNat := by
  unfold FrameKind.parse
  split
  case h_4 h0 h1 h2 =>
    refine ⟨fun h => (by cases h), fun h => ?_⟩
    cases kind with
    | manifest => exact absurd h h0
    | data => exact absurd h h1
    | trailer => exact absurd h h2
  all_goals cases kind <;> decide

/-- A frame that is accepted at its place. -/
structure EncryptedFrame.Accepted (expected : Nat) (f : EncryptedFrame) : Prop where
  head : frameAccepted expected f.sequence f.kind f.plaintextLen f.ciphertextLen = true
  length : f.ciphertext.length = f.ciphertextLen
  record : f.headerAndCiphertext =
    frameRecord f.sequence f.kind f.plaintextLen f.ciphertextLen f.ciphertext

/-- The conditions on the head of a frame. -/
theorem frameAccepted_iff {sequence plaintextLen ciphertextLen : Nat} :
    frameAccepted expected sequence kind plaintextLen ciphertextLen = true ↔
      sequence = expected ∧ plaintextLen ≤ framePlaintextLimit ∧
      ciphertextLen = plaintextLen + aeadTagBytes ∧ (expected = 0 ↔ kind = .manifest) ∧
      (kind = .manifest → plaintextLen = manifestPlaintextBytes) ∧
      (kind = .trailer → plaintextLen = trailerPlaintextBytes) := by
  simp only [frameAccepted, Bool.and_eq_true, Bool.not_eq_true', Bool.or_eq_false_iff,
    bne_eq_false_iff_eq, decide_eq_false_iff_not, Nat.not_lt, Bool.and_eq_false_imp,
    Bool.beq_eq_decide_eq, decide_eq_decide, and_assoc, decide_eq_true_eq]

theorem readFrame_eq_some (hexpected : expected < 256 ^ 8) :
    readFrame expected bs = some (f, rest) ↔
      f.Accepted expected ∧ bs = f.headerAndCiphertext ++ rest := by
  unfold readFrame
  constructor
  · intro h
    obtain ⟨⟨⟨sequence, kind, plaintextLen, ciphertextLen, ciphertext⟩, mid⟩, hread, heq⟩ :=
      Option.bind_eq_some_iff.mp h
    simp only [Reader.number_bind_eq_some, Reader.require_bind_eq_some,
      Reader.lift_bind_eq_some, FrameKind.parse_eq_some, (Reader.reads_block _).bind,
      Reader.pure_eq_some] at hread
    obtain ⟨_, _, -, rfl, _, _, -, rfl, kind, rfl, _, _, -, rfl, _, _, -, rfl, haccepted, block, _,
      rfl, heq', rfl⟩ := hread
    cases heq'
    cases heq
    have hslice : ∀ record : Bytes,
        (record ++ rest).take ((record ++ rest).length - rest.length) = record := by
      intro record
      rw [length_append, Nat.add_sub_cancel]
      exact take_left
    have hrecord := hslice (frameRecord sequence kind plaintextLen ciphertextLen block.val)
    simp only [frameRecord, append_assoc] at hrecord
    refine ⟨⟨haccepted, block.property, ?_⟩, ?_⟩
    · simp only [hrecord, frameRecord]
    · simp only [hrecord, append_assoc]
  · rintro ⟨⟨haccepted, hlength, hrecord⟩, rfl⟩
    obtain ⟨hsequence, hlimit, hciphertext, -⟩ := frameAccepted_iff.mp haccepted
    have hplain : f.plaintextLen < 256 ^ 4 := Nat.lt_of_le_of_lt hlimit (by decide)
    have hcipher : f.ciphertextLen < 256 ^ 4 := by
      have hlimit : f.plaintextLen ≤ 1048576 := hlimit
      rw [hciphertext, aeadTagBytes]
      omega
    refine Option.bind_eq_some_iff.mpr ⟨((f.sequence, f.kind, f.plaintextLen, f.ciphertextLen,
      f.ciphertext), rest), ?_, ?_⟩
    · simp only [Reader.number_bind_eq_some, Reader.require_bind_eq_some,
        Reader.lift_bind_eq_some, FrameKind.parse_eq_some, (Reader.reads_block _).bind,
        Reader.pure_eq_some, hrecord, frameRecord, append_assoc]
      exact ⟨_, _, hsequence ▸ hexpected, rfl, _, _, UInt8.toNat_lt _, rfl, _, rfl, _, _, hplain,
        rfl, _, _, hcipher, rfl, haccepted, ⟨f.ciphertext, hlength⟩, _, rfl, rfl, rfl⟩
    · simp only [length_append, Nat.add_sub_cancel, take_left]

/-- Frames that are accepted one after the other; nothing comes after a trailer. -/
def FramesAccepted : Nat → List EncryptedFrame → Prop
  | _, [] => True
  | expected, f :: fs =>
    f.Accepted expected ∧ (f.kind = .trailer → fs = []) ∧ FramesAccepted (expected + 1) fs

/-- The last frame is a trailer. -/
def trailerSeen (frames : List EncryptedFrame) : Bool :=
  frames.getLast?.any fun f => f.kind == .trailer

theorem trailerSeen_cons (h : (f.kind == .trailer) = false) (frames : List EncryptedFrame) :
    trailerSeen (f :: frames) = trailerSeen frames := by
  cases frames with
  | nil => simp [trailerSeen, h]
  | cons => simp [trailerSeen, List.getLast?_cons_cons]

theorem headerAndCiphertext_ne_nil (h : f.Accepted expected) : f.headerAndCiphertext ≠ [] := by
  rw [h.record, frameRecord, ne_eq, append_eq_nil_iff]
  rintro ⟨hnil, -⟩
  have hlength := length_bigEndian 8 f.sequence
  rw [hnil] at hlength
  cases hlength

/-- After a trailer only the end is accepted. -/
theorem readFrames_seen {room : Nat} {result : List EncryptedFrame × Bool} :
    readFrames room expected true bs = some result ↔ bs = [] ∧ result = ([], true) := by
  cases bs with
  | nil =>
    cases room <;> exact ⟨fun h => ⟨rfl, (Option.some.inj h).symm⟩, fun h => h.2 ▸ rfl⟩
  | cons b bs =>
    cases room <;> exact ⟨fun h => (by cases h), fun h => (by cases h.1)⟩

theorem readFrames_eq_some : ∀ {room expected : Nat} {bs : Bytes} {frames : List EncryptedFrame}
    {seen : Bool}, expected + room < 256 ^ 8 →
    (readFrames room expected false bs = some (frames, seen) ↔
      frames.length ≤ room ∧ bs = frames.flatMap EncryptedFrame.headerAndCiphertext ∧
      FramesAccepted expected frames ∧ seen = trailerSeen frames) := by
  intro room
  induction room with
  | zero =>
    intro expected bs frames seen _
    cases bs with
    | nil =>
      constructor
      · intro h
        cases h
        exact ⟨Nat.le_refl _, rfl, trivial, rfl⟩
      · rintro ⟨hlength, -, -, rfl⟩
        rw [eq_nil_of_length_eq_zero (Nat.le_zero.mp hlength)]
        rfl
    | cons b bs =>
      refine ⟨fun h => (by cases h), ?_⟩
      rintro ⟨hlength, hbytes, -⟩
      rw [eq_nil_of_length_eq_zero (Nat.le_zero.mp hlength)] at hbytes
      cases hbytes
  | succ room ih =>
    intro expected bs frames seen hroom
    cases frames with
    | nil =>
      constructor
      · intro h
        unfold readFrames at h
        split at h
        next hempty =>
          cases h
          exact ⟨Nat.zero_le _, List.isEmpty_iff.mp hempty, trivial, rfl⟩
        next =>
        simp only [Bool.false_eq_true, if_false] at h
        split at h
        · cases h
        next =>
          obtain ⟨_, _, heq⟩ := Option.map_eq_some_iff.mp h
          cases heq
      · rintro ⟨-, rfl, -, rfl⟩
        rfl
    | cons f frames =>
      constructor
      · intro h
        unfold readFrames at h
        split at h
        · cases h
        simp only [Bool.false_eq_true, if_false] at h
        split at h
        · cases h
        next frame rest hframe =>
        obtain ⟨⟨frames', seen'⟩, htail, heq⟩ := Option.map_eq_some_iff.mp h
        cases heq
        obtain ⟨haccepted, rfl⟩ := (readFrame_eq_some (by omega)).mp hframe
        cases hkind : f.kind == .trailer with
        | true =>
          rw [hkind, readFrames_seen] at htail
          obtain ⟨rfl, heq⟩ := htail
          cases heq
          refine ⟨Nat.succ_le_succ (Nat.zero_le _), ?_, ⟨haccepted, fun _ => rfl, trivial⟩, ?_⟩
          · rw [flatMap_cons, flatMap_nil]
          · simp [trailerSeen, hkind]
        | false =>
          rw [hkind, ih (by omega)] at htail
          obtain ⟨hlength, rfl, htail, rfl⟩ := htail
          refine ⟨Nat.succ_le_succ hlength, (flatMap_cons ..).symm,
            ⟨haccepted, fun htrailer => ?_, htail⟩, ?_⟩
          · rw [htrailer] at hkind
            cases hkind
          · exact (trailerSeen_cons hkind _).symm
      · rintro ⟨hlength, rfl, ⟨haccepted, hlast, htail⟩, rfl⟩
        have hne : (f.headerAndCiphertext ++
            frames.flatMap EncryptedFrame.headerAndCiphertext).isEmpty = false := by
          rw [isEmpty_eq_false_iff, ne_eq, append_eq_nil_iff]
          exact fun h => headerAndCiphertext_ne_nil haccepted h.1
        rw [flatMap_cons]
        unfold readFrames
        rw [hne, (readFrame_eq_some (by omega)).mpr ⟨haccepted, rfl⟩]
        simp only [Bool.false_eq_true, if_false]
        cases hkind : f.kind == .trailer with
        | true =>
          rw [beq_iff_eq] at hkind
          rw [hlast hkind, flatMap_nil, readFrames_seen.mpr ⟨rfl, rfl⟩]
          simp [trailerSeen, hkind]
        | false =>
          rw [(ih (by omega)).mpr ⟨Nat.le_of_succ_le_succ hlength, rfl, htail, rfl⟩,
            trailerSeen_cons hkind]
          rfl

/-! ## The artifact -/

/-- What the header digest covers. -/
def Header.head (h : Header) : Bytes := magic ++ (bigEndian 4 h.body.length ++ h.body)

theorem Header.length_head (h : Header) :
    h.head.length = magic.length + 4 + h.body.length := by
  rw [Header.head, length_append, length_append, length_bigEndian, Nat.add_assoc]

namespace ParsedContainer

/-- The artifact of these parts. -/
def bytes (p : ParsedContainer) : Bytes :=
  p.header.head ++ (p.headerDigest.val ++ (bigEndian 2 wrappedKeyBytes ++
    (p.wrappedKey ++ p.encryptedFrames.flatMap EncryptedFrame.headerAndCiphertext)))

structure WellFormed (S : Suite) (p : ParsedContainer) : Prop where
  reference : p.header.kekReference.validate = true
  digest : p.headerDigest = S.sha256 p.header.head
  wrapped : p.wrappedKey.length = wrappedKeyBytes
  frames : FramesAccepted 0 p.encryptedFrames
  trailer : trailerSeen p.encryptedFrames = true
  atLeast : 2 ≤ p.encryptedFrames.length
  atMost : p.encryptedFrames.length ≤ frameLimit

variable {artifact : Bytes} {S : Suite}

theorem readHead_eq_some {h : Header} {d : Block 32} {w : Block wrappedKeyBytes} :
    readHead S artifact bs = some ((h, d, w), rest) ↔
      h.kekReference.validate = true ∧
      d = S.sha256 (artifact.take (magic.length + 4 + h.body.length)) ∧
      bs = h.head ++ (d.val ++ (bigEndian 2 wrappedKeyBytes ++ (w.val ++ rest))) := by
  have hwidth : wrappedKeyBytes < 256 ^ 2 := by decide
  unfold readHead
  simp only [Reader.literal_bind_eq_some hwidth, Reader.number_bind_eq_some,
    Reader.require_bind_eq_some, Reader.lift_bind_eq_some,
    Header.parse_eq_some, (Reader.reads_block _).bind, Reader.pure_eq_some, beq_iff_eq]
  constructor
  · rintro ⟨found, _, rfl, hmagic, headerLen, _, -, rfl, -, ⟨headerBody, hbody⟩, _, rfl, header,
      ⟨rfl, hvalid⟩, digest, _, rfl, hdigest, _, rfl, wrapped, _, rfl, heq, rfl⟩
    cases heq
    subst hbody
    refine ⟨hvalid, hdigest, ?_⟩
    simp only [hmagic, Header.head, append_assoc]
  · rintro ⟨hvalid, hdigest, rfl⟩
    have hbody := h.length_body
    have hid := (BackupKekRegistry.validate_length hvalid).2
    refine ⟨⟨magic, rfl⟩, _, ?_, rfl, h.body.length, _, ?_, rfl, ?_, ⟨h.body, rfl⟩, _, rfl, h,
      ⟨rfl, hvalid⟩, d, _, rfl, hdigest, _, rfl, w, _, rfl, rfl, rfl⟩
    · simp only [Header.head, append_assoc]
    · rw [hbody]
      omega
    · simp only [Bool.not_eq_true', Bool.or_eq_false_iff, beq_eq_false_iff_ne, ne_eq,
        decide_eq_false_iff_not, headerMaxBytes, hbody]
      omega

/-- The parser accepts the well-formed containers, each in its own bytes. -/
theorem parse_eq_some {p : ParsedContainer} :
    parse S artifact = some p ↔
      artifact.length ≤ artifactByteLimit ∧ artifact = p.bytes ∧ p.WellFormed S := by
  have hroom : 0 + frameLimit < 256 ^ 8 := by decide
  -- the slice in front of the header digest
  have hslice : ∀ (h : Header) (tail : Bytes),
      (h.head ++ tail).take (magic.length + 4 + h.body.length) = h.head := by
    intro h tail
    rw [← h.length_head]
    exact take_left
  unfold parse
  constructor
  · intro h
    split at h
    · cases h
    next hsize =>
    split at h
    · cases h
    next header digest wrapped rest hhead =>
    obtain ⟨hvalid, hdigest, hbytes⟩ := readHead_eq_some.mp hhead
    split at h
    · cases h
    next frames seen hframes =>
    obtain ⟨hlength, rfl, haccepted, rfl⟩ := (readFrames_eq_some hroom).mp hframes
    split at h
    · cases h
    next hchecks =>
    cases h
    simp only [Bool.or_eq_true, Bool.not_eq_true', decide_eq_true_eq, not_or,
      Bool.not_eq_false, Nat.not_lt] at hchecks
    refine ⟨Nat.not_lt.mp hsize, hbytes, hvalid, ?_, wrapped.property, haccepted, hchecks.1,
      hchecks.2, hlength⟩
    rw [hbytes, hslice] at hdigest
    exact hdigest
  · rintro ⟨hsize, rfl, hp⟩
    have hhead : readHead S p.bytes p.bytes = some ((p.header, p.headerDigest,
        ⟨p.wrappedKey, hp.wrapped⟩),
          p.encryptedFrames.flatMap EncryptedFrame.headerAndCiphertext) := by
      refine readHead_eq_some.mpr ⟨hp.reference, ?_, rfl⟩
      rw [bytes, hslice]
      exact hp.digest
    have hframes := (readFrames_eq_some hroom).mpr ⟨hp.atMost, rfl, hp.frames, rfl⟩
    rw [if_neg (Nat.not_lt.mpr hsize), hhead]
    simp only [hframes, hp.trailer, Bool.not_true, Bool.false_or, decide_eq_true_eq]
    rw [if_neg (Nat.not_lt.mpr hp.atLeast)]

/-- A container has one artifact. -/
theorem artifact_unique (p : ParsedContainer) :
    Subsingleton { artifact // parse S artifact = some p } := by
  refine ⟨fun a b => Subtype.ext ?_⟩
  rw [(parse_eq_some.mp a.2).2.1, (parse_eq_some.mp b.2).2.1]

end ParsedContainer

end GoodDealer.Backup
