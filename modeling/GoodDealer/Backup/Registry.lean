/-
# `GoodDealer.Backup.Registry` — the backup keys of an installation

`BackupKekRegistry` of `crates/local-storage/src/backup/container.rs`: at most three
key-encryption keys, of which one encrypts.  Every use compares the registry with an
anchor that covers all of its bytes.  A rotation adds a key and stops the others from
encrypting, a retirement drops a key that no longer encrypts.

The checks of `validate_structure` are those of `BackupKekRegistry.Sound`
(`validateStructure_iff`).  A host that can be used stays usable, and keeps the key of a
reference, through every rotation that draws a new id and every retirement of another
key (`BackupContainerHost.call_keeps`).
-/
import GoodDealer.Lib.Cursor
import GoodDealer.Lib.Machine

namespace GoodDealer.Backup

open Bytes (bigEndian length_bigEndian)

inductive BackupContainerError where
  | artifactRejected
  | keyUnavailable
  | authorityRejected
deriving DecidableEq

/-! ## The primitives -/

/-- SHA-256, HKDF-SHA-256 and the encryption of XChaCha20-Poly1305. -/
structure Suite where
  sha256 : Bytes → Block 32
  /-- Salt, key and info, expanded to 32 bytes. -/
  hkdf : Bytes → Bytes → List Bytes → Block 32
  /-- Key, nonce, associated data and message. -/
  encrypt : Block 32 → Block 24 → Bytes → Bytes → Bytes
  length_encrypt : ∀ key nonce aad msg, (encrypt key nonce aad msg).length = msg.length + 16

/-- Key, nonce, associated data and ciphertext. -/
abbrev Decrypt := Block 32 → Block 24 → Bytes → Bytes → Option Bytes

/-! ## The registry -/

structure KekReference where
  id : Bytes
  version : UInt64
deriving DecidableEq

/-- `KekReference::validate`. -/
def KekReference.validate (r : KekReference) : Bool :=
  !(r.id.isEmpty || decide (64 < r.id.length) || r.version == 0)

structure BackupKekSlot where
  reference : KekReference
  material : Block 32
  encryptEnabled : Bool
deriving DecidableEq

/-- One slot of `encode_custody`. -/
def BackupKekSlot.custody (slot : BackupKekSlot) : Bytes :=
  UInt8.ofNat slot.reference.id.length :: (slot.reference.id ++
    bigEndian 8 slot.reference.version.toNat ++ [if slot.encryptEnabled then 1 else 0] ++
    slot.material.val)

structure BackupKekRollbackAnchor where
  highestKekVersion : UInt64
  installationProof : Block 32
  custodyBlobDigest : Block 32
deriving DecidableEq

structure BackupKekRegistry where
  slots : List BackupKekSlot
  versionWatermark : UInt64
  installationProof : Block 32

namespace BackupKekRegistry

def maxRetainedKeks : Nat := 3

/-- The loop of `validate_structure`, after the slots `prior`. -/
def validateSlots (watermark : UInt64) : List BackupKekSlot → List BackupKekSlot → Bool
  | _, [] => true
  | prior, slot :: rest =>
    slot.reference.validate &&
    !(decide (watermark < slot.reference.version) ||
      prior.getLast?.any (fun p => decide (slot.reference.version ≤ p.reference.version)) ||
      prior.any (fun p => p.reference == slot.reference ||
        p.reference.version == slot.reference.version || p.reference.id == slot.reference.id)) &&
    validateSlots watermark (prior ++ [slot]) rest

/-- `validate_structure`. -/
def validateStructure (R : BackupKekRegistry) : Except BackupContainerError Unit :=
  if R.slots.isEmpty || decide (maxRetainedKeks < R.slots.length) || R.versionWatermark == 0 ||
      (R.slots.filter BackupKekSlot.encryptEnabled).length != 1 then .error .keyUnavailable
  else
    match R.slots.find? BackupKekSlot.encryptEnabled with
    | none => .error .keyUnavailable
    | some active =>
      if active.reference.version ≠ R.versionWatermark then .error .keyUnavailable
      else if validateSlots R.versionWatermark [] R.slots then .ok () else .error .keyUnavailable

def kekRegistryMagic : Bytes := [0x47, 0x44, 0x42, 0x4b, 0x4b, 0x45, 0x4b, 0x31]

def kekRegistryMaxBytes : Nat := 512

/-- The bytes of `encode_custody`. -/
def custody (R : BackupKekRegistry) : Bytes :=
  kekRegistryMagic ++ bigEndian 2 1 ++ bigEndian 8 R.versionWatermark.toNat ++
    R.installationProof.val ++ [UInt8.ofNat R.slots.length] ++ R.slots.flatMap BackupKekSlot.custody

/-- `encode_custody`. -/
def encodeCustody (R : BackupKekRegistry) : Except BackupContainerError Bytes := do
  R.validateStructure
  if kekRegistryMaxBytes < R.custody.length then .error .keyUnavailable else .ok R.custody

/-- `current_anchor`. -/
def currentAnchor (S : Suite) (R : BackupKekRegistry) :
    Except BackupContainerError BackupKekRollbackAnchor := do
  let blob ← R.encodeCustody
  return ⟨R.versionWatermark, R.installationProof, S.sha256 blob⟩

/-- `validate_anchor`. -/
def validateAnchor (S : Suite) (R : BackupKekRegistry) (anchor : BackupKekRollbackAnchor) :
    Except BackupContainerError Unit := do
  R.validateStructure
  let current ← R.currentAnchor S
  if current ≠ anchor then .error .keyUnavailable else .ok ()

/-- The slot a use of the registry finds, after the check of the anchor. -/
def lookup (S : Suite) (R : BackupKekRegistry) (anchor : BackupKekRollbackAnchor)
    (wanted : BackupKekSlot → Bool) : Except BackupContainerError BackupKekSlot := do
  R.validateAnchor S anchor
  match R.slots.find? wanted with
  | some slot => .ok slot
  | none => .error .keyUnavailable

/-- `active`. -/
def active (S : Suite) (R : BackupKekRegistry) (anchor : BackupKekRollbackAnchor) :
    Except BackupContainerError BackupKekSlot :=
  R.lookup S anchor BackupKekSlot.encryptEnabled

/-- `exact`. -/
def exact (S : Suite) (R : BackupKekRegistry) (anchor : BackupKekRollbackAnchor)
    (reference : KekReference) : Except BackupContainerError BackupKekSlot :=
  R.lookup S anchor (fun slot => slot.reference == reference)

/-- What a rotation draws: the material and the id of the new slot. -/
abbrev Draw := Block 32 × Block 16

/-- The registry with a new slot that alone encrypts. -/
def rotated (R : BackupKekRegistry) (version : UInt64) (draw : Draw) : BackupKekRegistry :=
  { R with
    slots := R.slots.map (fun slot => { slot with encryptEnabled := false }) ++
      [⟨⟨draw.2.val, version⟩, draw.1, true⟩]
    versionWatermark := version }

/-- `rotate`; `none` for a draw that fails. -/
def rotate (R : BackupKekRegistry) (draw : Option Draw) :
    Except BackupContainerError BackupKekRegistry := do
  R.validateStructure
  if maxRetainedKeks ≤ R.slots.length then .error .keyUnavailable
  -- `checked_add(1)`
  else if R.versionWatermark.toNat + 1 = 2 ^ 64 then .error .keyUnavailable
  else
    match draw with
    | none => .error .keyUnavailable
    | some draw => .ok (R.rotated (R.versionWatermark + 1) draw)

/-- `retire`. -/
def retire (R : BackupKekRegistry) (reference : KekReference) (catalogReferencesSlot : Bool) :
    Except BackupContainerError BackupKekRegistry := do
  R.validateStructure
  if catalogReferencesSlot then .error .keyUnavailable
  else
    match R.slots.find? (fun slot => slot.reference == reference) with
    | none => .error .keyUnavailable
    | some slot =>
      if slot.encryptEnabled then .error .keyUnavailable
      else .ok { R with slots := R.slots.eraseP (fun slot => slot.reference == reference) }

end BackupKekRegistry

/-! ## The host -/

@[ext] structure BindingDigests where
  account : Block 32
  device : Block 32
  workspace : Block 32
  binding : Block 32
deriving DecidableEq

structure BackupContainerHost where
  registry : BackupKekRegistry
  rollbackAnchor : BackupKekRollbackAnchor
  binding : BindingDigests

inductive KekCall where
  | rotate (draw : Option BackupKekRegistry.Draw)
  | retire (reference : KekReference) (catalogReferencesSlot : Bool)

namespace BackupContainerHost

/-- The registry is replaced first; if its anchor cannot be taken, the old one stays. -/
def adopt (S : Suite) (host : BackupContainerHost) (registry : BackupKekRegistry) :
    BackupContainerHost × Except BackupContainerError Unit :=
  match registry.currentAnchor S with
  | .ok anchor => ({ host with registry, rollbackAnchor := anchor }, .ok ())
  | .error e => ({ host with registry }, .error e)

/-- `rotate_kek` and `retire_kek`. -/
def call (S : Suite) (host : BackupContainerHost) (c : KekCall) :
    BackupContainerHost × Except BackupContainerError Unit :=
  match host.registry.validateAnchor S host.rollbackAnchor with
  | .error e => (host, .error e)
  | .ok () =>
    match (match c with
      | .rotate draw => host.registry.rotate draw
      | .retire reference referenced => host.registry.retire reference referenced) with
    | .error e => (host, .error e)
    | .ok registry => host.adopt S registry

end BackupContainerHost

/-- The custody of the keys, call by call. -/
def kekCustody (S : Suite) :
    Machine BackupContainerHost KekCall (Except BackupContainerError Unit) where
  step host c := host.call S c

/-! ## What the checks say -/

namespace BackupKekRegistry

/-- Two slots of a registry, the earlier one first. -/
def Earlier (s t : BackupKekSlot) : Prop :=
  s.reference.version < t.reference.version ∧ s.reference.id ≠ t.reference.id

structure Sound (R : BackupKekRegistry) : Prop where
  few : R.slots.length ≤ maxRetainedKeks
  positive : R.versionWatermark ≠ 0
  single : (R.slots.filter BackupKekSlot.encryptEnabled).length = 1
  newest : ∀ a, R.slots.find? BackupKekSlot.encryptEnabled = some a →
    a.reference.version = R.versionWatermark
  valid : ∀ s ∈ R.slots, s.reference.validate = true ∧ s.reference.version ≤ R.versionWatermark
  apart : R.slots.Pairwise Earlier

/-- Against sorted slots, the last one and the three comparisons decide. -/
theorem earlier_iff {prior : List BackupKekSlot} (hprior : prior.Pairwise Earlier)
    (slot : BackupKekSlot) :
    (prior.getLast?.any (fun p => decide (slot.reference.version ≤ p.reference.version)) ||
      prior.any (fun p => p.reference == slot.reference ||
        p.reference.version == slot.reference.version ||
        p.reference.id == slot.reference.id)) = false ↔ ∀ p ∈ prior, Earlier p slot := by
  rw [Bool.or_eq_false_iff, Bool.eq_false_iff, Bool.eq_false_iff, ne_eq, ne_eq, List.any_eq_true]
  constructor
  · rintro ⟨hlast, hany⟩ p hp
    refine ⟨?_, fun hid => hany ⟨p, hp, by simp [hid]⟩⟩
    obtain ⟨init, last, rfl⟩ : ∃ init last, prior = init ++ [last] :=
      ⟨_, _, (List.dropLast_append_getLast (List.ne_nil_of_mem hp)).symm⟩
    have hlast' : last.reference.version < slot.reference.version := by
      simpa [UInt64.not_le] using hlast
    rcases List.mem_append.mp hp with hinit | hpl
    · have hbefore := (List.pairwise_append.mp hprior).2.2 p hinit last List.mem_cons_self
      exact UInt64.lt_trans hbefore.1 hlast'
    · rw [List.mem_singleton.mp hpl]
      exact hlast'
  · intro h
    constructor
    · intro hlast
      obtain ⟨p, hp, hle⟩ := (Option.any_eq_true _ _).mp hlast
      have hlt := (h p (List.mem_of_getLast? hp)).1
      exact absurd (of_decide_eq_true hle) (UInt64.not_le.mpr hlt)
    · rintro ⟨p, hp, hsame⟩
      obtain ⟨hlt, hid⟩ := h p hp
      simp only [Bool.or_eq_true, beq_iff_eq] at hsame
      rcases hsame with (heq | heq) | heq
      · exact hid (heq ▸ rfl)
      · exact absurd (heq ▸ hlt) (UInt64.lt_irrefl _)
      · exact hid heq

theorem validateSlots_iff (watermark : UInt64) :
    ∀ (rest : List BackupKekSlot) {prior : List BackupKekSlot}, prior.Pairwise Earlier →
      (validateSlots watermark prior rest = true ↔
        (∀ s ∈ rest, s.reference.validate = true ∧ s.reference.version ≤ watermark) ∧
        (prior ++ rest).Pairwise Earlier) := by
  intro rest
  induction rest with
  | nil =>
    intro prior hprior
    simp [validateSlots, hprior]
  | cons slot rest ih =>
    intro prior hprior
    rw [validateSlots, Bool.and_eq_true, Bool.and_eq_true, Bool.not_eq_true', Bool.or_assoc,
      Bool.or_eq_false_iff, earlier_iff hprior, decide_eq_false_iff_not, UInt64.not_lt]
    have hnext : (prior ++ [slot]).Pairwise Earlier ↔ ∀ p ∈ prior, Earlier p slot := by
      simp [List.pairwise_append, hprior]
    constructor
    · rintro ⟨⟨hvalid, hle, hearlier⟩, hrest⟩
      rw [ih (hnext.mpr hearlier), List.append_assoc] at hrest
      exact ⟨List.forall_mem_cons.mpr ⟨⟨hvalid, hle⟩, hrest.1⟩, hrest.2⟩
    · rintro ⟨hvalid, hpair⟩
      obtain ⟨⟨hslot, hle⟩, hrest⟩ := List.forall_mem_cons.mp hvalid
      rw [← List.singleton_append, ← List.append_assoc] at hpair
      have hprior' := (List.pairwise_append.mp hpair).1
      exact ⟨⟨hslot, hle, hnext.mp hprior'⟩, (ih hprior').mpr ⟨hrest, hpair⟩⟩

theorem validateStructure_iff (R : BackupKekRegistry) : R.validateStructure = .ok () ↔ R.Sound := by
  have hslots := validateSlots_iff R.versionWatermark R.slots List.Pairwise.nil
  rw [List.nil_append] at hslots
  unfold validateStructure
  constructor
  · intro h
    split at h
    · cases h
    next hcheck =>
    simp only [Bool.or_eq_true, decide_eq_true_eq, beq_iff_eq, bne_iff_ne, not_or,
      Nat.not_lt, Decidable.not_not] at hcheck
    split at h
    · cases h
    next active hactive =>
    split at h
    · cases h
    next hversion =>
    split at h
    next hvalid =>
      obtain ⟨hvalid, hapart⟩ := hslots.mp hvalid
      refine ⟨hcheck.1.1.2, hcheck.1.2, hcheck.2, ?_, hvalid, hapart⟩
      intro a ha
      rw [hactive] at ha
      cases ha
      exact Decidable.not_not.mp hversion
    next => cases h
  · intro h
    have hne : R.slots ≠ [] := by
      intro hnil
      have := h.single
      simp [hnil] at this
    have hcheck : (R.slots.isEmpty || decide (maxRetainedKeks < R.slots.length) ||
        R.versionWatermark == 0 ||
        (R.slots.filter BackupKekSlot.encryptEnabled).length != 1) = false := by
      simp [hne, h.few, h.positive, h.single]
    rw [if_neg (by rw [hcheck]; exact Bool.false_ne_true)]
    split
    next hnone =>
      have hempty : R.slots.filter BackupKekSlot.encryptEnabled = [] := by
        rw [List.filter_eq_nil_iff]
        exact List.find?_eq_none.mp hnone
      have := h.single
      simp [hempty] at this
    next active hactive =>
      rw [if_neg (fun hne => hne (h.newest active hactive)), if_pos (hslots.mpr ⟨h.valid, h.apart⟩)]

/-! ### The anchor -/

theorem length_flatMap_le {α : Type} {f : α → Bytes} {bound : Nat} :
    ∀ {l : List α}, (∀ a ∈ l, (f a).length ≤ bound) → (l.flatMap f).length ≤ l.length * bound := by
  intro l
  induction l with
  | nil => intro _; exact Nat.zero_le _
  | cons a l ih =>
    intro h
    have ha := h a List.mem_cons_self
    have hl := ih fun b hb => h b (List.mem_cons_of_mem _ hb)
    rw [List.flatMap_cons, List.length_append, List.length_cons, Nat.succ_mul]
    omega

theorem validate_length {r : KekReference} (h : r.validate = true) :
    1 ≤ r.id.length ∧ r.id.length ≤ 64 := by
  simp only [KekReference.validate, Bool.not_eq_true', Bool.or_eq_false_iff,
    decide_eq_false_iff_not, List.isEmpty_eq_false_iff, Nat.not_lt] at h
  exact ⟨List.length_pos_iff.mpr h.1.1, h.1.2⟩

variable {R : BackupKekRegistry} {a : BackupKekRollbackAnchor} {slot : BackupKekSlot} {S : Suite}

theorem Sound.length_custody (h : R.Sound) : R.custody.length ≤ kekRegistryMaxBytes := by
  have hslots : (R.slots.flatMap BackupKekSlot.custody).length ≤ R.slots.length * 106 := by
    refine length_flatMap_le fun s hs => ?_
    have hid := (validate_length (h.valid s hs).1).2
    simp only [BackupKekSlot.custody, List.length_cons, List.length_append, length_bigEndian,
      s.material.property, List.length_nil]
    omega
  have hfew : R.slots.length ≤ 3 := h.few
  have hmagic : kekRegistryMagic.length = 8 := rfl
  simp only [custody, kekRegistryMaxBytes, List.length_append, length_bigEndian, hmagic,
    R.installationProof.property, List.length_cons, List.length_nil]
  omega

/-- The anchor of the registry as it stands. -/
def anchor (S : Suite) (R : BackupKekRegistry) : BackupKekRollbackAnchor :=
  ⟨R.versionWatermark, R.installationProof, S.sha256 R.custody⟩

theorem currentAnchor_of_sound (S : Suite) (h : R.Sound) :
    R.currentAnchor S = .ok (R.anchor S) := by
  have hlength : ¬ kekRegistryMaxBytes < R.custody.length := Nat.not_lt.mpr h.length_custody
  rw [currentAnchor, encodeCustody, (validateStructure_iff R).mpr h]
  simp only [bind, Except.bind, if_neg hlength]
  rfl

theorem validateAnchor_iff :
    R.validateAnchor S a = .ok () ↔ R.Sound ∧ a = R.anchor S := by
  unfold validateAnchor
  cases hvalid : R.validateStructure with
  | error e =>
    constructor
    · intro h
      cases h
    · rintro ⟨h, _⟩
      rw [(validateStructure_iff R).mpr h] at hvalid
      cases hvalid
  | ok =>
    have hsound := (validateStructure_iff R).mp hvalid
    simp only [bind, Except.bind, currentAnchor_of_sound S hsound]
    split
    next hne => exact ⟨fun h => (by cases h), fun h => absurd h.2.symm hne⟩
    next heq => exact ⟨fun _ => ⟨hsound, (Decidable.not_not.mp heq).symm⟩, fun _ => rfl⟩

theorem lookup_eq_ok {wanted : BackupKekSlot → Bool} :
    R.lookup S a wanted = .ok slot ↔
      R.validateAnchor S a = .ok () ∧ R.slots.find? wanted = some slot := by
  unfold lookup
  cases R.validateAnchor S a with
  | error e => exact ⟨fun h => (by cases h), fun h => (by cases h.1)⟩
  | ok =>
    simp only [bind, Except.bind]
    cases R.slots.find? wanted with
    | none => exact ⟨fun h => (by cases h), fun h => (by cases h.2)⟩
    | some found =>
      simp only [Except.ok.injEq, Option.some.injEq, true_and]

/-! ### Rotation and retirement -/

/-- The key of a reference. -/
def material (R : BackupKekRegistry) (reference : KekReference) : Option (Block 32) :=
  (R.slots.find? (fun slot => slot.reference == reference)).map BackupKekSlot.material

/-- The references of a sound registry are apart. -/
theorem Sound.material_of_mem (h : R.Sound) (hmem : slot ∈ R.slots) :
    R.material slot.reference = some slot.material := by
  have hfound : (R.slots.find? (fun s => s.reference == slot.reference)).isSome = true :=
    List.find?_isSome.mpr ⟨slot, hmem, beq_self_eq_true _⟩
  obtain ⟨found, hfound⟩ := Option.isSome_iff_exists.mp hfound
  have hreference : found.reference = slot.reference := by
    have hfound := List.find?_some hfound
    rwa [beq_iff_eq] at hfound
  have hids : (R.slots.map fun s => s.reference.id).Nodup :=
    List.pairwise_map.mpr (h.apart.imp fun hst => hst.2)
  have hsame : found = slot :=
    List.inj_on_of_nodup_map hids (List.mem_of_find?_eq_some hfound) hmem (hreference ▸ rfl)
  rw [material, hfound, hsame]
  rfl

theorem Sound.rotated (h : R.Sound) {draw : Draw}
    (hroom : R.slots.length < maxRetainedKeks) (hversion : R.versionWatermark.toNat + 1 ≠ 2 ^ 64)
    (hid : ∀ s ∈ R.slots, s.reference.id ≠ draw.2.val) :
    (R.rotated (R.versionWatermark + 1) draw).Sound := by
  have hsucc : (R.versionWatermark + 1).toNat = R.versionWatermark.toNat + 1 := by
    have hlt := R.versionWatermark.toNat_lt
    rw [UInt64.toNat_add, UInt64.toNat_one]
    exact Nat.mod_eq_of_lt (by omega)
  have hwatermark : R.versionWatermark < R.versionWatermark + 1 := by
    rw [UInt64.lt_iff_toNat_lt, hsucc]
    exact Nat.lt_succ_self _
  have hnonzero : R.versionWatermark + 1 ≠ 0 := by
    intro hzero
    rw [hzero] at hsucc
    cases hsucc
  have hnone : (R.slots.map fun s => { s with encryptEnabled := false }).filter
      BackupKekSlot.encryptEnabled = [] := by
    rw [List.filter_map]
    exact List.map_eq_nil_iff.mpr (List.filter_eq_nil_iff.mpr fun _ _ => Bool.false_ne_true)
  have hfind : (R.slots.map fun s => { s with encryptEnabled := false }).find?
      BackupKekSlot.encryptEnabled = none :=
    List.find?_eq_none.mpr (List.filter_eq_nil_iff.mp hnone)
  have hlength : draw.2.val.length = 16 := draw.2.property
  constructor
  · simp only [BackupKekRegistry.rotated, List.length_append, List.length_map, List.length_cons,
      List.length_nil]
    exact hroom
  · exact hnonzero
  · rw [BackupKekRegistry.rotated, List.filter_append, hnone]
    rfl
  · intro a ha
    rw [BackupKekRegistry.rotated, List.find?_append, hfind] at ha
    cases ha
    rfl
  · intro s hs
    rcases List.mem_append.mp hs with hs | hs
    · obtain ⟨t, ht, rfl⟩ := List.mem_map.mp hs
      obtain ⟨hvalid, hle⟩ := h.valid t ht
      exact ⟨hvalid, UInt64.le_of_lt (UInt64.lt_of_le_of_lt hle hwatermark)⟩
    · cases List.mem_singleton.mp hs
      refine ⟨?_, UInt64.le_refl _⟩
      have hne : draw.2.val.isEmpty = false := by
        rw [List.isEmpty_eq_false_iff]
        exact List.ne_nil_of_length_pos (by omega)
      simp [KekReference.validate, hne, hlength, hnonzero]
  · rw [BackupKekRegistry.rotated, List.pairwise_append]
    refine ⟨List.pairwise_map.mpr h.apart, List.pairwise_singleton _ _, ?_⟩
    intro s hs t ht
    obtain ⟨slot, hslot, rfl⟩ := List.mem_map.mp hs
    cases List.mem_singleton.mp ht
    exact ⟨UInt64.lt_of_le_of_lt (h.valid slot hslot).2 hwatermark, hid slot hslot⟩

/-- Dropping a slot that does not encrypt leaves the slots that do. -/
theorem find?_eraseP {p q : BackupKekSlot → Bool} :
    ∀ {l : List BackupKekSlot}, (∀ s, l.find? p = some s → q s = false) →
      (l.eraseP p).find? q = l.find? q ∧ (l.eraseP p).filter q = l.filter q := by
  intro l
  induction l with
  | nil => intro _; exact ⟨rfl, rfl⟩
  | cons s l ih =>
    intro h
    cases hp : p s with
    | true =>
      have hq := h s (by rw [List.find?_cons, hp])
      rw [List.eraseP_cons_of_pos hp, List.find?_cons, List.filter_cons, hq]
      exact ⟨rfl, rfl⟩
    | false =>
      obtain ⟨hfind, hfilter⟩ := ih fun t ht => h t (by rw [List.find?_cons, hp]; exact ht)
      rw [List.eraseP_cons_of_neg (by simp [hp]), List.find?_cons, List.find?_cons,
        List.filter_cons, List.filter_cons, hfind, hfilter]
      exact ⟨rfl, rfl⟩

theorem Sound.retired (h : R.Sound) {p : BackupKekSlot → Bool}
    (hidle : ∀ s, R.slots.find? p = some s → s.encryptEnabled = false) :
    BackupKekRegistry.Sound { R with slots := R.slots.eraseP p } := by
  have hsub : (R.slots.eraseP p).Sublist R.slots := List.eraseP_sublist
  obtain ⟨hfind, hfilter⟩ := find?_eraseP hidle
  constructor
  · exact Nat.le_trans hsub.length_le h.few
  · exact h.positive
  · rw [hfilter]
    exact h.single
  · intro a ha
    rw [hfind] at ha
    exact h.newest a ha
  · exact fun s hs => h.valid s (hsub.subset hs)
  · exact h.apart.sublist hsub

end BackupKekRegistry

/-! ### The calls of a host -/

namespace BackupContainerHost

open BackupKekRegistry

/-- The anchor is that of a sound registry: what `new` checks. -/
def Usable (S : Suite) (host : BackupContainerHost) : Prop :=
  host.registry.validateAnchor S host.rollbackAnchor = .ok ()

/-- The call keeps the key of the reference: a rotation draws an id that is not in use, and a
retirement is of another key. -/
def Keeps (reference : KekReference) (host : BackupContainerHost) : KekCall → Prop
  | .rotate draw => ∀ d ∈ draw, ∀ s ∈ host.registry.slots, s.reference.id ≠ d.2.val
  | .retire other _ => other ≠ reference

/-- A host that can still open what the reference wrapped. -/
structure Holds (S : Suite) (reference : KekReference) (host host' : BackupContainerHost) :
    Prop where
  usable : host'.Usable S
  binding : host'.binding = host.binding
  material : ∀ m, host.registry.material reference = some m →
    host'.registry.material reference = some m

variable {host : BackupContainerHost} {S : Suite} {r : KekReference}

/-- A sound registry that holds the key is adopted with its own anchor. -/
theorem adopt_holds {registry : BackupKekRegistry} (h : registry.Sound)
    (hkeeps : ∀ m, host.registry.material r = some m → registry.material r = some m) :
    Holds S r host (host.adopt S registry).1 := by
  rw [adopt, currentAnchor_of_sound S h]
  exact ⟨validateAnchor_iff.mpr ⟨h, rfl⟩, rfl, hkeeps⟩

/-- What a call on a usable host leaves. -/
theorem call_keeps {c : KekCall} (h : host.Usable S) (hc : Keeps r host c) :
    Holds S r host (host.call S c).1 := by
  have hsound := (validateAnchor_iff.mp h).1
  have hvalid := (validateStructure_iff _).mpr hsound
  have hsame : Holds S r host host := ⟨h, rfl, fun _ hm => hm⟩
  unfold call
  rw [show host.registry.validateAnchor S host.rollbackAnchor = .ok () from h]
  cases c with
  | rotate draw =>
    simp only [rotate, hvalid, bind, Except.bind]
    split
    · exact hsame
    next registry hrotate =>
    split at hrotate
    · cases hrotate
    next hroom =>
    split at hrotate
    · cases hrotate
    next hversion =>
    cases draw with
    | none => cases hrotate
    | some d =>
      cases hrotate
      refine adopt_holds (hsound.rotated (Nat.lt_of_not_le hroom) hversion (hc d rfl)) ?_
      intro m hm
      -- the slot is still in front of the new one
      obtain ⟨s, hs, rfl⟩ := Option.map_eq_some_iff.mp hm
      rw [material, rotated, List.find?_append, List.find?_map]
      have hs' : host.registry.slots.find? ((fun slot => slot.reference == r) ∘
          fun s => { s with encryptEnabled := false }) = some s := hs
      rw [hs']
      rfl
  | retire other referenced =>
    simp only [retire, hvalid, bind, Except.bind]
    split
    · exact hsame
    next registry hretire =>
    split at hretire
    · cases hretire
    next =>
    split at hretire
    · cases hretire
    next slot hslot =>
    split at hretire
    · cases hretire
    next hidle =>
    cases hretire
    have hother : ∀ s, host.registry.slots.find? (fun s => s.reference == other) = some s →
        (s.reference == r) = false := by
      intro s hs
      have hs := List.find?_some hs
      rw [beq_iff_eq] at hs
      rw [hs, beq_eq_false_iff_ne]
      exact hc
    refine adopt_holds (hsound.retired fun s hs => ?_) fun m hm => ?_
    · rw [hslot] at hs
      cases hs
      exact Bool.eq_false_iff.mpr hidle
    · rw [material, (find?_eraseP hother).1]
      exact hm

/-- What a run of such calls leaves. -/
theorem run_keeps (calls : List KekCall) (h : host.Usable S)
    (hkeeps : (kekCustody S).Along (Keeps r) host calls) :
    Holds S r host ((kekCustody S).run host calls) := by
  induction calls generalizing host with
  | nil => exact ⟨h, rfl, fun _ hm => hm⟩
  | cons c calls ih =>
    have hnext := call_keeps h hkeeps.1
    have hend := ih hnext.usable hkeeps.2
    exact ⟨hend.usable, hend.binding.trans hnext.binding,
      fun m hm => hend.material m (hnext.material m hm)⟩

end BackupContainerHost

end GoodDealer.Backup
