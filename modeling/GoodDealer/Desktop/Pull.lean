/-
# `GoodDealer.Desktop.Pull` — what the desktop checks of a pulled page

A pulled page is checked twice before it is applied: by the native cloud client when the
response arrives (`desktop_native_cloud.rs`, from `validate_pull_response` on) and by the
storage when the page is applied (`apply_sync_page_v2`, up to the first database read).
Both copies of the grammar were written by hand.

| value | `mutationPageSchema` | native client | storage |
| :-- | :-- | :-- | :-- |
| note, tag | no `\p{Cf}` | no `\p{Cf}`, no U+13440 | any text |
| note | `max(10000)` | 10000 UTF-16 units | any text |
| tags | 128, of `max(64)` | 128, of 64 UTF-16 units | 64, of 64 bytes |
| page | 256 mutations | 256 mutations | 1 MiB of text |

In every other place the two accept what the schema accepts, if zod's `max` counts code
points (`CountsCodePoints`).
-/
import GoodDealer.Desktop.Wire
import GoodDealer.Lib.JsonText

namespace GoodDealer.Desktop

open Unicode Schema Schemas Canonical List

/-! ## Tokens and digests -/

/-- `byte.is_ascii_alphanumeric() || matches!(byte, b'-' | b'_')`. -/
def isTokenByte (b : UInt8) : Bool :=
  isAsciiUppercase b || isAsciiLowercase b || isAsciiDigit b || b.toNat == '_'.toNat ||
    b.toNat == '-'.toNat

/-- `validate_cursor`, and `validate_cursor_token` of a token. -/
def validateCursor (value : String) : Bool :=
  let bytes := asBytes value
  !(bytes.isEmpty || decide (512 < bytes.length) || !bytes.all isTokenByte)

/-- `validate_digest43`, and `validate_digest`. -/
def validateDigest43 (value : String) : Bool :=
  let bytes := asBytes value
  bytes.length == 43 && bytes.all isTokenByte

/-- `token_digest`. -/
def tokenDigest (sha256 : Bytes → Bytes) (value : String) : String :=
  (sha256 (asBytes value)).base64Url

/-- The class of `base64UrlClass`. -/
def tokenClass (n : Nat) : Bool :=
  ('A'.toNat ≤ n && n ≤ 'Z'.toNat) || ('a'.toNat ≤ n && n ≤ 'z'.toNat) ||
    ('0'.toNat ≤ n && n ≤ '9'.toNat) || n == '_'.toNat || n == '-'.toNat

theorem tokenClass_lt (n : Nat) (h : tokenClass n = true) : n < 0x80 := by
  simp only [tokenClass, Bool.or_eq_true, Bool.and_eq_true, decide_eq_true_eq, beq_iff_eq,
    Char.reduceToNat] at h
  omega

theorem tokenClass_lt_surrogates (n : Nat) (h : tokenClass n = true) : n < 0xd800 :=
  Nat.lt_trans (tokenClass_lt n h) (by decide)

variable {value : String}

theorem validateCursor_of_schema (h : mutationCursorSchema (js value) = true) :
    validateCursor value = true := by
  simp only [mutationCursorSchema, Bool.and_eq_true, decide_eq_true_eq] at h
  have hchars := (class_js tokenClass_lt_surrogates value 1 512 (Nat.le_refl 1)).mp h
  rw [validateCursor, Bool.not_or, Bool.not_or, Bool.not_not, isEmpty_eq, not_decide_lt]
  refine (class_bytes tokenClass_lt 1 512 value.toList).trans ?_
  simpa only [Bool.and_eq_true, decide_eq_true_eq, all_eq_true] using hchars

theorem validateDigest43_of_schema (h : sha256DigestSchema (js value) = true) :
    validateDigest43 value = true := by
  simp only [sha256DigestSchema, Bool.and_eq_true, decide_eq_true_eq] at h
  have hchars := (class_exactly_js tokenClass_lt_surrogates value 43).mp h
  have hall : value.toList.all (fun c => tokenClass c.toNat) = true := all_eq_true.mpr hchars.2
  rw [validateDigest43, Bool.and_eq_true, beq_iff_eq, asBytes, length_bytes tokenClass_lt hall]
  exact ⟨hchars.1, (all_bytes tokenClass_lt value.toList).trans hall⟩

/-! ## The native client -/

end GoodDealer.Desktop

namespace GoodDealer.NativeCloud

open Unicode Schema Schemas Desktop

structure DesktopSyncPullExchange where
  expectedWorkspaceId : String
  expectedAfterRevision : Nat

structure PendingDeliveryWire where
  generation : Nat
  fromServerRevisionExclusive : Nat
  throughServerRevisionInclusive : Nat
  targetServerRevision : Nat
  pageDigest : String
  nextCursorDigest : Option String
  predecessorConfirmationDigest : Option String
  expiresAt : String

/-- `SyncPullAcceptedWire`; its page and mutations have the properties of the storage's
records. -/
structure SyncPullAcceptedWire where
  schemaVersion : Nat
  accepted : Bool
  page : SyncPageV2
  confirmedThrough : Nat
  pendingDelivery : PendingDeliveryWire
  confirmToken : String

def readBool : Json String → Option Bool
  | .bool b => some b
  | _ => none

/-- `deserialize_nullable`: the property has to be there. -/
def readNullable : Option (Json String) → Option (Option String)
  | some .null => some none
  | some (.string s) => some (some s)
  | _ => none

/-- `deserialize_optional_non_null`: the property may be missing, not `null`. -/
def readNonNull : Option (Json String) → Option (Option String)
  | none => some none
  | some (.string s) => some (some s)
  | some _ => none

def PendingDeliveryWire.names : List String :=
  ["generation", "fromServerRevisionExclusive", "throughServerRevisionInclusive",
   "targetServerRevision", "pageDigest", "nextCursorDigest", "predecessorConfirmationDigest",
   "expiresAt"]

def PendingDeliveryWire.deserialize (v : Json String) : Option PendingDeliveryWire :=
  if knownFields names v = true then do
    let generation ← readField readU64 "generation" v
    let fromServerRevisionExclusive ← readField readU64 "fromServerRevisionExclusive" v
    let throughServerRevisionInclusive ← readField readU64 "throughServerRevisionInclusive" v
    let targetServerRevision ← readField readU64 "targetServerRevision" v
    let pageDigest ← readField Json.text? "pageDigest" v
    let nextCursorDigest ← readNullable (v.field "nextCursorDigest")
    let predecessorConfirmationDigest ← readNullable (v.field "predecessorConfirmationDigest")
    let expiresAt ← readField Json.text? "expiresAt" v
    pure { generation, fromServerRevisionExclusive, throughServerRevisionInclusive,
           targetServerRevision, pageDigest, nextCursorDigest, predecessorConfirmationDigest,
           expiresAt }
  else none

def SyncPullAcceptedWire.names : List String :=
  ["schemaVersion", "accepted", "page", "confirmedThrough", "pendingDelivery", "confirmToken"]

def SyncPullAcceptedWire.deserialize (v : Json String) : Option SyncPullAcceptedWire :=
  if knownFields names v = true then do
    let schemaVersion ← readField readU8 "schemaVersion" v
    let accepted ← readField readBool "accepted" v
    let page ← readField (readPage readNonNull readNullable) "page" v
    let confirmedThrough ← readField readU64 "confirmedThrough" v
    let pendingDelivery ← readField PendingDeliveryWire.deserialize "pendingDelivery" v
    let confirmToken ← readField Json.text? "confirmToken" v
    pure { schemaVersion, accepted, page, confirmedThrough, pendingDelivery, confirmToken }
  else none

/-! ### Field values -/

/-- The ranges of `is_format_character`. -/
def nativeFormatRanges : List (Nat × Nat) :=
  [(0xad, 0xad), (0x600, 0x605), (0x61c, 0x61c), (0x6dd, 0x6dd), (0x70f, 0x70f),
   (0x890, 0x891), (0x8e2, 0x8e2), (0x180e, 0x180e), (0x200b, 0x200f), (0x202a, 0x202e),
   (0x2060, 0x2064), (0x2066, 0x206f), (0xfeff, 0xfeff), (0xfff9, 0xfffb), (0x110bd, 0x110bd),
   (0x110cd, 0x110cd), (0x13430, 0x13440), (0x1bca0, 0x1bca3), (0x1d173, 0x1d17a),
   (0xe0001, 0xe0001), (0xe0020, 0xe007f)]

/-- `is_format_character`. -/
def isFormatCharacter (c : Char) : Bool :=
  nativeFormatRanges.any (fun r => r.1 ≤ c.toNat && c.toNat ≤ r.2)

/-- `valid_note`. -/
def validNote (value : String) : Bool :=
  decide ((utf16 value.toList).length ≤ 10000) &&
    !value.toList.any (fun c => isNoteControl c.toNat || isFormatCharacter c)

/-- `valid_tag`. -/
def validTag (value : String) : Bool :=
  !value.toList.isEmpty && decide ((utf16 value.toList).length ≤ 64) &&
    trimEnds isWhitespace value.toList == value.toList &&
    !value.toList.any (fun c => isControl c || isFormatCharacter c)

def moneyNames : List String := ["currency", "amount"]

/-- `serde_json::from_value::<Money>`. -/
def readMoney (v : Json String) : Option Money :=
  if knownFields moneyNames v = true then do
    let currency ← readField Json.text? "currency" v
    let amount ← readField Json.text? "amount" v
    pure { currency, amount }
  else none

/-- `values.iter().try_fold(..)` over the tags. -/
def validTagValues (values : List (Json String)) : Bool :=
  checkAscending (fun v => v.text?.getD "") (fun v => v.text?.any validTag) none values

/-- `validate_sync_changed_field`. -/
def validateSyncChangedField (field : SyncChangedFieldV2) : Bool :=
  match field.fieldPath, field.value with
  | "note", .null => true
  | "note", value => value.text?.any validNote
  | "portfolioId", .null => true
  | "portfolioId", value => value.text?.any validateIdentifier
  | "tags", .array values => decide (values.length ≤ 128) && validTagValues values
  | "targetPrice", .null => true
  | "targetPrice", value => (readMoney value).any fun money =>
    validCurrency money.currency && Desktop.validAmount money.amount
  | _, _ => false

/-! ### Mutations and pages -/

/-- What `validate_timestamp` checks of one byte. -/
def timestampByte (b index : Nat) : Bool :=
  ([4, 7].contains index && b == '-'.toNat) || (index == 10 && b == 'T'.toNat) ||
    ([13, 16].contains index && b == ':'.toNat) || (index == 19 && b == 'Z'.toNat) ||
    (!isSeparator index && (48 ≤ b && b ≤ 57))

/-- `validate_timestamp` of this file; the numbers are checked as in the other one. -/
def validateTimestamp (value : String) : Bool :=
  let bytes := byteNumbers value
  bytes.length == 20 && bytes.zipIdx.all (fun (b, index) => timestampByte b index) && realTime bytes

/-- The first test of `validate_sync_mutation`. -/
def rejectsMutation (mutation : SyncMutationV2) (workspaceId : String) (expectedRevision : Nat) :
    Bool :=
  mutation.schemaVersion != 2 || mutation.workspaceId != workspaceId ||
    mutation.workspaceSchemaVersion == 0 ||
      decide (maxSafeInteger < mutation.workspaceSchemaVersion) ||
    mutation.entityType != "domain_asset" ||
    mutation.operationKind != "upsert" && mutation.operationKind != "delete" ||
    decide (maxSafeInteger < mutation.baseServerRevision) || mutation.activeLeaseEpoch == 0 ||
    decide (maxSafeInteger < mutation.activeLeaseEpoch) || mutation.deviceMutationSequence == 0 ||
    decide (maxSafeInteger < mutation.deviceMutationSequence) ||
    mutation.serverRevision != expectedRevision || mutation.serverRevision == 0 ||
    decide (maxSafeInteger < mutation.serverRevision) ||
    decide (mutation.serverRevision ≤ mutation.baseServerRevision) ||
    decide (4 < mutation.changedFields.length) ||
    mutation.operationKind == "delete" &&
      (mutation.deletedAt.isNone || !mutation.changedFields.isEmpty) ||
    mutation.operationKind == "upsert" &&
      (mutation.deletedAt.isSome || mutation.changedFields.isEmpty)

/-- `validate_sync_mutation`. -/
def validateSyncMutation (mutation : SyncMutationV2) (workspaceId : String)
    (expectedRevision : Nat) : Bool :=
  !rejectsMutation mutation workspaceId expectedRevision &&
    validateIdentifier mutation.mutationId && validateIdentifier mutation.workspaceId &&
    validateIdentifier mutation.sourceDeviceId && validateDomainAssetId mutation.entityId &&
    mutation.deletedAt.all validateTimestamp &&
    checkAscending SyncChangedFieldV2.fieldPath validateSyncChangedField none mutation.changedFields

/-- The loop over the mutations of a page. -/
def validateMutations (workspaceId : String) : Nat → List SyncMutationV2 → Bool
  | _, [] => true
  | expectedRevision, mutation :: rest =>
    validateSyncMutation mutation workspaceId expectedRevision &&
      -- `checked_add`
      decide (expectedRevision + 1 < 2 ^ 64) &&
      validateMutations workspaceId (expectedRevision + 1) rest

/-- The revision that the mutations of a page reach. -/
def expectedReturned (page : SyncPageV2) : Nat :=
  (page.mutations.getLast?.map SyncMutationV2.serverRevision).getD page.fromServerRevisionExclusive

/-- What both validators check of the end of a page. -/
def validReturned (page : SyncPageV2) : Bool :=
  !(page.returnedThroughServerRevision != expectedReturned page ||
    page.nextCursor.isNone &&
      page.returnedThroughServerRevision != page.throughServerRevisionInclusive ||
    page.nextCursor.isSome &&
      decide (page.throughServerRevisionInclusive ≤ page.returnedThroughServerRevision))

/-- The cursor and the digest of it. -/
def validNextCursor (sha256 : Bytes → Bytes) : Option String → Option String → Bool
  | none, none => true
  | some cursor, some digest =>
    validateCursor cursor && validateDigest43 digest && tokenDigest sha256 cursor == digest
  | _, _ => false

/-- The first test of `validate_pull_response`. -/
def rejectsResponse (response : SyncPullAcceptedWire) (exchange : DesktopSyncPullExchange) : Bool :=
  let page := response.page
  let delivery := response.pendingDelivery
  response.schemaVersion != 2 || !response.accepted ||
    response.confirmedThrough != exchange.expectedAfterRevision ||
    decide (maxSafeInteger < response.confirmedThrough) || page.schemaVersion != 2 ||
    page.workspaceId != exchange.expectedWorkspaceId ||
    page.fromServerRevisionExclusive != exchange.expectedAfterRevision ||
    decide (maxSafeInteger < page.fromServerRevisionExclusive) ||
    decide (page.throughServerRevisionInclusive < page.fromServerRevisionExclusive) ||
    decide (maxSafeInteger < page.throughServerRevisionInclusive) ||
    decide (page.returnedThroughServerRevision < page.fromServerRevisionExclusive) ||
    decide (page.throughServerRevisionInclusive < page.returnedThroughServerRevision) ||
    decide (maxSafeInteger < page.returnedThroughServerRevision) ||
    decide (256 < page.mutations.length) || delivery.generation == 0 ||
    decide (maxSafeInteger < delivery.generation) ||
    delivery.fromServerRevisionExclusive != exchange.expectedAfterRevision ||
    delivery.throughServerRevisionInclusive != page.returnedThroughServerRevision ||
    decide (delivery.targetServerRevision < delivery.throughServerRevisionInclusive) ||
    decide (maxSafeInteger < delivery.targetServerRevision) ||
    delivery.pageDigest != page.pageDigest

/-- `validate_pull_response`; every refusal is `CloudProtocolRejected`. -/
def validatePullResponse (sha256 : Bytes → Bytes) (response : SyncPullAcceptedWire)
    (exchange : DesktopSyncPullExchange) : Bool :=
  let page := response.page
  let delivery := response.pendingDelivery
  !rejectsResponse response exchange &&
    validateIdentifier page.workspaceId && validateDigest43 page.pageDigest &&
    validateCursor response.confirmToken && validateTimestamp delivery.expiresAt &&
    delivery.predecessorConfirmationDigest.all validateDigest43 &&
    validNextCursor sha256 page.nextCursor delivery.nextCursorDigest &&
    decide (page.fromServerRevisionExclusive + 1 < 2 ^ 64) &&
    validateMutations page.workspaceId (page.fromServerRevisionExclusive + 1) page.mutations &&
    validReturned page

end GoodDealer.NativeCloud

namespace GoodDealer.Desktop

open Unicode Schema Schemas Canonical

/-! ## The storage -/

/-- A value that `serde_json::from_value::<Vec<String>>` accepts. -/
def readTexts : Json String → Option (List String) := readVec Json.text?

/-- One field of `validate_sync_mutation_fields`. -/
def storesField (field : SyncChangedFieldV2) : Bool :=
  match field.fieldPath, field.value with
  | "note", value | "portfolioId", value => match value with
    | .null | .string _ => true
    | _ => false
  | "tags", value => (readTexts value).any fun tags =>
    !(decide (64 < tags.length) ||
      tags.any fun tag => tag.toList.isEmpty || decide (64 < (asBytes tag).length))
  | "targetPrice", .null => true
  | "targetPrice", .object es => es.length == 2 &&
      ((Json.object es).textOf "currency").isSome && ((Json.object es).textOf "amount").isSome
  | _, _ => false

/-- `validate_sync_mutation_fields`. -/
def SyncMutationV2.validateSyncMutationFields (mutation : SyncMutationV2) : Bool :=
  checkAscending SyncChangedFieldV2.fieldPath storesField none mutation.changedFields

/-- What `apply_sync_page_v2` checks of one mutation. -/
def storesMutation (page : SyncPageV2) (expectedRevision : Nat) (mutation : SyncMutationV2) :
    Bool :=
  !(mutation.schemaVersion != 2 || mutation.serverRevision != expectedRevision ||
    mutation.entityType != "domain_asset" || mutation.workspaceId != page.workspaceId ||
    mutation.operationKind != "upsert" && mutation.operationKind != "delete" ||
    mutation.mutationId.toList.isEmpty || mutation.entityId.toList.isEmpty) &&
  (if mutation.operationKind = "delete" then
    !(mutation.deletedAt.isNone || !mutation.changedFields.isEmpty)
  else !(mutation.deletedAt.isSome || mutation.changedFields.isEmpty)) &&
  SyncMutationV2.validateSyncMutationFields mutation

/-- The loop over the mutations. -/
def storesMutations (page : SyncPageV2) : Nat → List SyncMutationV2 →
    Except BusinessDatabaseError Unit
  | _, [] => .ok ()
  | expectedRevision, mutation :: rest =>
    if !storesMutation page expectedRevision mutation then .error .invalidInput
    else if ¬ expectedRevision + 1 < 2 ^ 64 then .error .sequenceExhausted
    else storesMutations page (expectedRevision + 1) rest

/-- The checks of `apply_sync_page_v2` before it reads the database, of the JSON text of a page
and a confirmation token; the page if they pass. -/
def checkSyncPage (sha256 : Bytes → Bytes) (workspaceId : String) (pageJson : Json String)
    (confirmationToken : String) : Except BusinessDatabaseError SyncPageV2 :=
  if 1048576 < (JsonText.bytes pageJson).length then .error .invalidInput
  else match SyncPageV2.deserialize pageJson with
  | none => .error .invalidInput
  | some page =>
    if page.schemaVersion ≠ 2 ∨ page.workspaceId ≠ workspaceId ∨ 256 < page.mutations.length ∨
        page.throughServerRevisionInclusive < page.fromServerRevisionExclusive ∨
        page.throughServerRevisionInclusive < page.returnedThroughServerRevision then
      .error .invalidInput
    else if !(page.nextCursor.all validateCursor) then .error .invalidInput
    else if !validateCursor confirmationToken then .error .invalidInput
    else if !validateDigest43 page.pageDigest then .error .invalidInput
    else match expectedPageDigest sha256 page with
    | .error e => .error e
    | .ok expected =>
      if expected ≠ page.pageDigest then .error .mutationConflict
      -- `saturating_add`
      else match storesMutations page (min (page.fromServerRevisionExclusive + 1) (2 ^ 64 - 1))
          page.mutations with
      | .error e => .error e
      | .ok () =>
        if !NativeCloud.validReturned page then .error .invalidInput
        else .ok page

end GoodDealer.Desktop

namespace GoodDealer.NativeCloud

open Unicode Schema Schemas Desktop

inductive DesktopLocalHostError where
  | cloudProtocolRejected
  | storage (error : BusinessDatabaseError)
deriving DecidableEq

/-- `complete_native_sync_pull` of an accepted response, up to the storage's checks; the storage
is bound to the workspace of the exchange. -/
def completeNativeSyncPull (sha256 : Bytes → Bytes) (exchange : DesktopSyncPullExchange)
    (response : Json String) : Except DesktopLocalHostError SyncPageV2 :=
  match SyncPullAcceptedWire.deserialize response with
  | none => .error .cloudProtocolRejected
  | some wire =>
    if !validatePullResponse sha256 wire exchange then .error .cloudProtocolRejected
    else match checkSyncPage sha256 exchange.expectedWorkspaceId wire.page.serialize
      wire.confirmToken with
    | .error e => .error (.storage e)
    | .ok page => .ok page

end GoodDealer.NativeCloud

namespace GoodDealer.Desktop

open Unicode Schema Schemas Canonical List

variable {v : Json String} {value : String} {c : SyncChangedFieldV2} {α : Type}
  {vs : List (Json String)} {es : List (String × Json String)} {cs : List SyncChangedFieldV2}
  {R : α → Json String → Prop} {names : List String} {m : SyncMutationV2} {as : List α}
  {p : SyncPageV2}

/-! ## Field values -/

/-- U+13440, which only the native client takes for a format character. -/
def mirror : Char := Char.ofNat 0x13440

theorem isFormatCharacter_eq (c : Char) :
    NativeCloud.isFormatCharacter c = (isFormat c || c == mirror) := by
  have hmirror : (c == mirror) = decide (c.toNat = 0x13440) := by
    rw [← beq_toNat]
    rfl
  have hrange : (decide (0x13430 ≤ c.toNat) && decide (c.toNat ≤ 0x13440)) =
      ((decide (0x13430 ≤ c.toNat) && decide (c.toNat ≤ 0x1343f)) || c == mirror) := by
    rw [Bool.eq_iff_iff, hmirror]
    simp only [Bool.or_eq_true, Bool.and_eq_true, decide_eq_true_eq]
    omega
  simp only [NativeCloud.isFormatCharacter, NativeCloud.nativeFormatRanges, isFormat, formatRanges,
    any_cons, any_nil, hrange]
  ac_rfl

theorem not_any_mirror {l : List Char} {p : Char → Bool} (h : ∀ c ∈ l, p c = (c == mirror)) :
    (!l.any p) = true ↔ mirror ∉ l := by
  rw [Bool.not_eq_true', Bool.eq_false_iff, ne_eq, any_eq_true]
  refine not_congr ⟨?_, fun hmem => ⟨mirror, hmem, by rw [h _ hmem, beq_self_eq_true]⟩⟩
  rintro ⟨c, hc, hclass⟩
  rw [h c hc] at hclass
  exact beq_iff_eq.mp hclass ▸ hc

theorem nativeNote_iff (h : validNote value = true) :
    NativeCloud.validNote value = true ↔ (js value).length ≤ 10000 ∧ mirror ∉ value.toList := by
  have hchars : ∀ c ∈ value.toList,
      (isNoteControl c.toNat || NativeCloud.isFormatCharacter c) = (c == mirror) := by
    intro c hc
    rw [validNote, Bool.and_eq_true, all_eq_true] at h
    have hclass := h.2 c hc
    rw [Bool.and_eq_true, Bool.not_eq_true'] at hclass
    rw [noteControl_eq, hclass.2, isFormatCharacter_eq, hclass.1]
    rfl
  rw [NativeCloud.validNote, Bool.and_eq_true, decide_eq_true_eq, not_any_mirror hchars]
  exact Iff.rfl

/-- White space of Rust that is not white space of JavaScript is a control character. -/
theorem isWhitespace_of_not_trimmed {c : Char} (hcontrol : isControl c = false)
    (htrim : isTrimmed c = false) : isWhitespace c = false := by
  rw [Bool.eq_false_iff] at *
  simp only [isWhitespace, isTrimmed, isControl, ne_eq, Bool.or_eq_true, Bool.and_eq_true,
    beq_iff_eq, decide_eq_true_eq] at *
  omega

theorem nativeTag_iff (h : validTag value = true) :
    NativeCloud.validTag value = true ↔ (js value).length ≤ 64 ∧ mirror ∉ value.toList := by
  simp only [validTag, Bool.and_eq_true, decide_eq_true_eq, all_eq_true, Bool.not_eq_true'] at h
  obtain ⟨⟨⟨⟨hlow, -⟩, hclass⟩, hhead⟩, hlast⟩ := h
  have hends : ∀ o : Option Char, (∀ c ∈ o, c ∈ value.toList) → o.any isTrimmed = false →
      o.any isWhitespace = false := by
    intro o ho hany
    cases o with
    | none => rfl
    | some c => exact isWhitespace_of_not_trimmed (hclass c (ho c rfl)).1 hany
  have htrim : trimEnds isWhitespace value.toList = value.toList :=
    trimEnds_eq_self.mpr ⟨hends _ (fun c hc => mem_of_mem_head? hc) hhead,
      hends _ (fun c hc => mem_of_getLast? hc) hlast⟩
  have hchars : ∀ c ∈ value.toList,
      (isControl c || NativeCloud.isFormatCharacter c) = (c == mirror) := by
    intro c hc
    rw [(hclass c hc).1, isFormatCharacter_eq, (hclass c hc).2]
    rfl
  have hempty : value.toList.isEmpty = false := isEmpty_eq_false_iff.mpr (ne_nil_of_length_pos hlow)
  rw [NativeCloud.validTag, hempty, beq_iff_eq.mpr htrim, Bool.not_false, Bool.true_and,
    Bool.and_true, Bool.and_eq_true, decide_eq_true_eq, not_any_mirror hchars]
  exact Iff.rfl

section

variable {value : Json String}

/-- A tag list that the schema accepts, as texts. -/
theorem texts_of_tagsSchema [Zod] (hzod : CountsCodePoints)
    (h : domainAssetTagsSchema (value.map js) = true) :
    ∃ tags : List String, value = .array (tags.map Json.string) ∧ validTags tags = true := by
  have hitems : arrayOf (stringOf domainAssetTagSchema) (value.map js) = true := by
    rw [domainAssetTagsSchema, Schema.refine, Bool.and_eq_true] at h
    exact h.1
  obtain ⟨vs, rfl, hvs⟩ := array_of_image hitems
  obtain ⟨tags, rfl⟩ : ∃ tags : List String, vs = tags.map Json.string := by
    clear h hitems
    induction vs with
    | nil => exact ⟨[], rfl⟩
    | cons w vs ih =>
      obtain ⟨tags, rfl⟩ := ih (forall_mem_cons.mp hvs).2
      obtain ⟨s, rfl, -⟩ := string_of_image (hvs w mem_cons_self)
      exact ⟨s :: tags, rfl⟩
  refine ⟨tags, rfl, ?_⟩
  rw [← domainAssetTagsSchema_js hzod]
  rw [Json.map, Json.mapItems_eq, List.map_map] at h
  exact h

/-- What the two validators ask of a value beyond the schema. -/
def portableValue (path : String) (value : Json String) : Prop :=
  match path, value with
  | "note", .string s => (js s).length ≤ 10000 ∧ mirror ∉ s.toList
  | "tags", .array values => values.length ≤ 64 ∧
      ∀ v ∈ values, ∀ s ∈ v.text?, (asBytes s).length ≤ 64 ∧ mirror ∉ s.toList
  | _, _ => True

theorem portable_note [Zod] (hzod : CountsCodePoints)
    (h : valueSchema .note (value.map js) = true) :
    NativeCloud.validateSyncChangedField ⟨"note", value⟩ = true ∧
      storesField ⟨"note", value⟩ = true ↔ portableValue "note" value := by
  rcases null_of_image h with rfl | h
  · exact iff_of_true ⟨rfl, rfl⟩ trivial
  · obtain ⟨s, rfl, hs⟩ := string_of_image h
    rw [domainAssetNoteSchema_js hzod] at hs
    exact (and_iff_left rfl).trans (nativeNote_iff hs)

theorem portable_portfolioId [Zod] (h : valueSchema .portfolioId (value.map js) = true) :
    NativeCloud.validateSyncChangedField ⟨"portfolioId", value⟩ = true ∧
      storesField ⟨"portfolioId", value⟩ = true ↔ portableValue "portfolioId" value := by
  rcases null_of_image h with rfl | h
  · exact iff_of_true ⟨rfl, rfl⟩ trivial
  · obtain ⟨s, rfl, hs⟩ := string_of_image h
    rw [identifier_js, ← validateIdentifier_eq] at hs
    exact iff_of_true ⟨hs, rfl⟩ trivial

theorem validTagValues_iff {tags : List String} (h : validTags tags = true) :
    NativeCloud.validTagValues (tags.map Json.string) = true ↔
      ∀ s ∈ tags, (js s).length ≤ 64 ∧ mirror ∉ s.toList := by
  simp only [validTags, Bool.and_eq_true, decide_eq_true_eq, all_eq_true] at h
  obtain ⟨⟨-, hvalid⟩, hsorted⟩ := h
  have htexts : (tags.map Json.string).map (fun v => (Json.text? v).getD "") = tags := by
    rw [List.map_map]
    exact map_id tags
  rw [NativeCloud.validTagValues, checkAscending_iff, htexts, Option.toList_none, nil_append,
    isChain_iff_pairwise, and_iff_left hsorted, forall_mem_map]
  exact forall₂_congr fun s hs => nativeTag_iff (hvalid s hs)

theorem forall₂_map_right {write : α → Json String}
    (h : ∀ a, R a (write a)) (as : List α) : List.Forall₂ R as (as.map write) := by
  rw [forall₂_map_right_iff]
  exact forall₂_same.mpr fun a _ => h a

theorem readTexts_map (tags : List String) :
    readTexts (.array (tags.map Json.string)) = some tags :=
  readVec_of_forall₂ (forall₂_map_right (fun t => Eq.refl (Json.string t)) tags)
    fun t _ w hw => by rw [← hw]; rfl

theorem portable_tags [Zod] (hzod : CountsCodePoints)
    (h : valueSchema .tags (value.map js) = true) :
    NativeCloud.validateSyncChangedField ⟨"tags", value⟩ = true ∧
      storesField ⟨"tags", value⟩ = true ↔ portableValue "tags" value := by
  obtain ⟨tags, rfl, htags⟩ := texts_of_tagsSchema hzod h
  have hnative :
      NativeCloud.validateSyncChangedField ⟨"tags", .array (tags.map Json.string)⟩ = true ↔
      ∀ s ∈ tags, (js s).length ≤ 64 ∧ mirror ∉ s.toList := by
    have hcount : (tags.map Json.string).length ≤ 128 := by
      simp only [validTags, Bool.and_eq_true, decide_eq_true_eq] at htags
      rw [length_map]
      exact htags.1.1
    rw [← validTagValues_iff htags]
    show (decide _ && _) = true ↔ _
    rw [decide_eq_true hcount, Bool.true_and]
  have hstores : storesField ⟨"tags", .array (tags.map Json.string)⟩ = true ↔
      tags.length ≤ 64 ∧ ∀ s ∈ tags, (asBytes s).length ≤ 64 := by
    have hnonempty : ∀ s ∈ tags, s.toList.isEmpty = false := by
      intro s hs
      simp only [validTags, Bool.and_eq_true, all_eq_true] at htags
      have htag := htags.1.2 s hs
      simp only [validTag, Bool.and_eq_true, decide_eq_true_eq] at htag
      exact isEmpty_eq_false_iff.mpr (ne_nil_of_length_pos htag.1.1.1.1)
    show (Option.any _ (readTexts _)) = true ↔ _
    rw [readTexts_map, Option.any_some, Bool.not_eq_true', Bool.or_eq_false_iff,
      decide_eq_false_iff_not, Nat.not_lt, any_eq_false]
    refine and_congr_right fun _ => forall₂_congr fun s hs => ?_
    rw [hnonempty s hs, Bool.false_or, decide_eq_true_eq, Nat.not_lt]
  rw [hnative, hstores]
  show _ ↔ (tags.map Json.string).length ≤ 64 ∧ _
  rw [length_map, forall_mem_map]
  constructor
  · rintro ⟨hnative, hcount, hbytes⟩
    refine ⟨hcount, fun s hs t ht => ?_⟩
    cases ht
    exact ⟨hbytes s hs, (hnative s hs).2⟩
  · rintro ⟨hcount, hall⟩
    refine ⟨fun s hs => ?_, hcount, fun s hs => (hall s hs s rfl).1⟩
    obtain ⟨hbytes, hmirror⟩ := hall s hs s rfl
    exact ⟨(length_utf16_le s.toList).trans hbytes, hmirror⟩

/-- An object with all the names and no other has as many properties. -/
theorem length_of_known (hnames : names.Nodup) (h : knownFields names (.object es) = true)
    (hall : ∀ k ∈ names, ((Json.object es).field k).isSome = true) : es.length = names.length := by
  simp only [knownFields, Bool.and_eq_true, decide_eq_true_eq, all_eq_true,
    contains_iff_mem] at h
  rw [← length_map (f := Prod.fst)]
  refine ((perm_ext_iff_of_nodup h.1 hnames).mpr fun k => ⟨fun hk => ?_, fun hk => ?_⟩).length_eq
  · obtain ⟨e, he, rfl⟩ := mem_map.mp hk
    exact h.2 e he
  · obtain ⟨w, hw⟩ := Option.isSome_iff_exists.mp (hall k hk)
    exact mem_map_of_mem (Json.mem_of_lookup hw)

theorem portable_targetPrice [Zod] (h : valueSchema .targetPrice (value.map js) = true) :
    NativeCloud.validateSyncChangedField ⟨"targetPrice", value⟩ = true ∧
      storesField ⟨"targetPrice", value⟩ = true ↔ portableValue "targetPrice" value := by
  rcases null_of_image h with rfl | h
  · exact iff_of_true ⟨rfl, rfl⟩ trivial
  · have hknown := knownFields_of_image NativeCloud.moneyNames h rfl
    obtain ⟨currency, hcurrency, hvalidCurrency⟩ := text_of_property h mem_cons_self
    obtain ⟨amount, hamount, hvalidAmount⟩ := text_of_property h
      (mem_cons_of_mem _ mem_cons_self)
    obtain ⟨es, rfl⟩ := object_of_known hknown
    have hmoney : NativeCloud.readMoney (.object es) = some ⟨currency, amount⟩ := by
      rw [NativeCloud.readMoney, if_pos hknown, readField_text hcurrency, readField_text hamount]
      rfl
    rw [currencySchema_js, ← validCurrency_eq] at hvalidCurrency
    rw [amountSchema_js, ← validAmount_eq] at hvalidAmount
    refine iff_of_true ⟨?_, ?_⟩ trivial
    · show (NativeCloud.readMoney _).any _ = true
      rw [hmoney, Option.any_some, hvalidCurrency, hvalidAmount]
      rfl
    · have hlength : es.length = 2 := by
        refine length_of_known (show NativeCloud.moneyNames.Nodup by decide) hknown ?_
        simp only [NativeCloud.moneyNames, forall_mem_cons, hcurrency, hamount]
        exact ⟨rfl, rfl, forall_mem_nil _⟩
      show (_ && _) = true
      rw [Json.textOf, Json.textOf, hcurrency, hamount, hlength]
      rfl

end

theorem SyncChangedFieldV2.Accepted.portable_iff [Zod] (hzod : CountsCodePoints) (h : c.Accepted) :
    NativeCloud.validateSyncChangedField c = true ∧ storesField c = true ↔
      portableValue c.fieldPath c.value := by
  obtain ⟨fieldPath, value⟩ := c
  obtain ⟨path, hpath, hvalue⟩ := h
  cases path with
  | note => cases hpath; exact portable_note hzod hvalue
  | portfolioId => cases hpath; exact portable_portfolioId hvalue
  | tags => cases hpath; exact portable_tags hzod hvalue
  | targetPrice => cases hpath; exact portable_targetPrice hvalue

/-! ## Mutations -/

/-- The two forms of the timestamp test agree. -/
theorem validateTimestamp_of_schema (h : canonicalUtcTimestamp (js value) = true) :
    NativeCloud.validateTimestamp value = true := by
  obtain ⟨t, ht, hvalue⟩ := canonicalUtcTimestamp_iff.mp h
  have htext : value = timestampText t :=
    js_inj ((List.map_inj_right fun _ _ => UInt16.toNat.inj).mp
      (hvalue.trans (units_timestampText t).symm))
  have hother : validateTimestamp value = true := validateTimestamp_iff.mpr ⟨t, ht, htext⟩
  simp only [validateTimestamp, timestampShape, Bool.and_eq_true, beq_iff_eq, all_eq_true] at hother
  obtain ⟨⟨⟨⟨⟨⟨⟨⟨hlength, h4⟩, h7⟩, h10⟩, h13⟩, h16⟩, h19⟩, hdigits⟩, hreal⟩ := hother
  simp only [NativeCloud.validateTimestamp, Bool.and_eq_true, beq_iff_eq, all_eq_true]
  refine ⟨⟨hlength, ?_⟩, hreal⟩
  rintro ⟨b, index⟩ hmem
  have hget : (byteNumbers value)[index]? = some b := mem_zipIdx_iff_getElem?.mp hmem
  have hdigit := hdigits _ hmem
  by_cases hseparator : isSeparator index = true
  · simp only [isSeparator, contains_iff_mem, mem_cons, not_mem_nil, or_false] at hseparator
    rcases hseparator with rfl | rfl | rfl | rfl | rfl | rfl
    all_goals
      simp only [hget, Option.some.injEq] at h4 h7 h10 h13 h16 h19
      subst b
      decide
  · rw [Bool.not_eq_true] at hseparator
    rw [hseparator, Bool.false_or] at hdigit
    rw [NativeCloud.timestampByte, hseparator, hdigit, Bool.not_false, Bool.and_self, Bool.or_true]

theorem nonempty_of_identifier (h : validIdentifier value = true) :
    value.toList.isEmpty = false := by
  simp only [validIdentifier, Bool.and_eq_true, decide_eq_true_eq] at h
  exact isEmpty_eq_false_iff.mpr (ne_nil_of_length_pos h.1.1)

theorem nonempty_of_domainAssetId (h : validDomainAssetId value = true) :
    value.toList.isEmpty = false := by
  simp only [validDomainAssetId, Bool.and_eq_true, decide_eq_true_eq] at h
  exact isEmpty_eq_false_iff.mpr (ne_nil_of_length_pos (by omega))

namespace SyncMutationV2.Accepted

variable [Zod] (h : m.Accepted)

include h

theorem not_rejected : NativeCloud.rejectsMutation m m.workspaceId m.serverRevision = false := by
  have hbase := h.baseServerRevision
  have hrevision := h.serverRevision
  have hschema := h.workspaceSchemaVersion
  have hepoch := h.activeLeaseEpoch
  have hsequence := h.deviceMutationSequence
  have hcount := h.fieldCount
  rcases h.kind with ⟨hkind, hdeleted, hfields⟩ | ⟨hkind, hdeleted, hfields⟩
  · simp only [NativeCloud.rejectsMutation, h.schemaVersion, h.entityType, hkind, hdeleted,
      isEmpty_eq_false_iff.mpr hfields, bne_self_eq_false, Bool.false_or, Bool.or_false,
      Bool.false_and, Bool.and_false, Option.isSome_none, Option.isNone_none, Bool.or_eq_false_iff,
      beq_eq_false_iff_ne, decide_eq_false_iff_not, Bool.not_false, Bool.or_true, Bool.and_true]
    refine ⟨?_, by decide⟩
    omega
  · simp only [NativeCloud.rejectsMutation, h.schemaVersion, h.entityType, hkind, hfields,
      Option.isNone_eq_false_iff.mpr (Option.isSome_iff_ne_none.mpr hdeleted), isEmpty_nil,
      bne_self_eq_false, Bool.false_or, Bool.or_false,
      Bool.and_false, Bool.or_eq_false_iff, beq_eq_false_iff_ne, decide_eq_false_iff_not,
      Bool.not_true, Bool.or_true, Bool.and_true, length_nil]
    refine ⟨?_, by decide⟩
    omega

theorem validateSyncMutation_iff :
    NativeCloud.validateSyncMutation m m.workspaceId m.serverRevision = true ↔
      ∀ c ∈ m.changedFields, NativeCloud.validateSyncChangedField c = true := by
  have hdeleted : m.deletedAt.all NativeCloud.validateTimestamp = true := by
    cases ht : m.deletedAt with
    | none => rfl
    | some t => exact validateTimestamp_of_schema (h.deletedAt t ht)
  rw [NativeCloud.validateSyncMutation, h.not_rejected, hdeleted, validateIdentifier_eq,
    validateIdentifier_eq, validateIdentifier_eq, validateDomainAssetId_eq, h.mutationId,
    h.workspaceId, h.sourceDeviceId, h.entityId]
  refine Iff.trans checkAscending_iff ?_
  rw [Option.toList_none, nil_append, and_iff_left h.fieldOrder]

theorem storesMutation_iff {page : SyncPageV2} (hpage : m.workspaceId = page.workspaceId) :
    storesMutation page m.serverRevision m = true ↔
      ∀ c ∈ m.changedFields, storesField c = true := by
  have hmutationId : m.mutationId.toList.isEmpty = false := nonempty_of_identifier h.mutationId
  have hentityId : m.entityId.toList.isEmpty = false := nonempty_of_domainAssetId h.entityId
  have hfields :
      SyncMutationV2.validateSyncMutationFields m = true ↔
        ∀ c ∈ m.changedFields, storesField c = true := by
    rw [SyncMutationV2.validateSyncMutationFields, checkAscending_iff, Option.toList_none,
      nil_append, and_iff_left h.fieldOrder]
  rw [← hfields, storesMutation, hmutationId, hentityId, h.schemaVersion, h.entityType, hpage]
  rcases h.kind with ⟨hkind, hdeleted, hnonempty⟩ | ⟨hkind, hdeleted, hnil⟩
  · rw [hkind, hdeleted, isEmpty_eq_false_iff.mpr hnonempty, if_neg (by decide)]
    simp
  · rw [hkind, Option.isNone_eq_false_iff.mpr (Option.isSome_iff_ne_none.mpr hdeleted), hnil,
      if_pos rfl]
    simp

end SyncMutationV2.Accepted

/-! ## Pages -/

theorem known_of_sublist (h : (es.map Prod.fst).Sublist names) (hnames : names.Nodup) :
    knownFields names (.object es) = true := by
  simp only [knownFields, Bool.and_eq_true, decide_eq_true_eq, all_eq_true, contains_iff_mem]
  exact ⟨hnames.sublist h, fun e he => h.subset (mem_map_of_mem he)⟩

theorem SyncChangedFieldV2.reads_serialize (c : SyncChangedFieldV2) : c.Reads c.serialize :=
  ⟨known_of_sublist (List.Sublist.refl _) (by decide), rfl, rfl⟩

theorem SyncMutationV2.reads_serialize (m : SyncMutationV2) : m.Reads m.serialize := by
  have hknown : knownFields names m.serialize = true := known_of_sublist m.keys_entries (by decide)
  have hfields := forall₂_map_right SyncChangedFieldV2.reads_serialize m.changedFields
  rcases m with ⟨_, _, _, _, _, _, _, _ | t⟩
  all_goals
    exact ⟨hknown, rfl, rfl, rfl, rfl, rfl, rfl, rfl, rfl, rfl, ⟨_, rfl, hfields⟩, rfl, rfl,
      rfl, rfl⟩

theorem SyncPageV2.reads_serialize (p : SyncPageV2) : p.Reads p.serialize :=
  ⟨known_of_sublist (List.Sublist.refl _) (by decide), rfl, rfl, rfl, rfl,
    ⟨_, rfl, forall₂_map_right SyncMutationV2.reads_serialize p.mutations⟩, rfl, rfl, rfl⟩

section

variable {workspaceId : String} {ms : List SyncMutationV2} {revision : Nat}

theorem successor_lt (h : revision ≤ maxSafeInteger) : revision + 1 < 2 ^ 64 :=
  Nat.lt_of_le_of_lt (Nat.succ_le_succ h) (by decide)

theorem validateMutations_iff [Zod] (hms : ∀ m ∈ ms, m.Accepted)
    (h : Consecutive workspaceId revision ms) :
    NativeCloud.validateMutations workspaceId revision ms = true ↔
      ∀ m ∈ ms, ∀ c ∈ m.changedFields, NativeCloud.validateSyncChangedField c = true := by
  induction ms generalizing revision with
  | nil => exact iff_of_true rfl (forall_mem_nil _)
  | cons m ms ih =>
    obtain ⟨rfl, rfl, hrest⟩ := h
    have hm := hms m mem_cons_self
    rw [NativeCloud.validateMutations, decide_eq_true (successor_lt hm.serverRevision),
      Bool.and_true, Bool.and_eq_true, hm.validateSyncMutation_iff,
      ih (forall_mem_cons.mp hms).2 hrest, forall_mem_cons]

theorem storesMutations_iff [Zod] {page : SyncPageV2} (hms : ∀ m ∈ ms, m.Accepted)
    (h : Consecutive page.workspaceId revision ms) :
    storesMutations page revision ms = .ok () ↔
      ∀ m ∈ ms, ∀ c ∈ m.changedFields, storesField c = true := by
  induction ms generalizing revision with
  | nil => exact iff_of_true rfl (forall_mem_nil _)
  | cons m ms ih =>
    obtain ⟨hworkspace, rfl, hrest⟩ := h
    have hm := hms m mem_cons_self
    rw [storesMutations, forall_mem_cons, ← hm.storesMutation_iff hworkspace,
      ← ih (forall_mem_cons.mp hms).2 hrest,
      if_neg (not_not_intro (successor_lt hm.serverRevision))]
    cases hstores : storesMutation page m.serverRevision m with
    | true => exact (and_iff_right rfl).symm
    | false =>
      rw [Bool.not_false, if_pos rfl]
      exact iff_of_false (fun hok => by cases hok) fun hboth => Bool.false_ne_true hboth.1

/-- Consecutive revisions do not fall below the one they start from. -/
theorem le_last_of_consecutive (h : Consecutive workspaceId (revision + 1) ms) :
    revision ≤ (ms.getLast?.map SyncMutationV2.serverRevision).getD revision := by
  induction ms generalizing revision with
  | nil => exact Nat.le_refl revision
  | cons m ms ih =>
    obtain ⟨-, hrevision, hrest⟩ := h
    have hle := ih hrest
    cases ms with
    | nil => exact Nat.le_trans (Nat.le_succ revision) (Nat.le_of_eq hrevision.symm)
    | cons next ms =>
      rw [List.getLast?_cons_cons, List.getLast?_eq_some_getLast (cons_ne_nil _ _)] at *
      exact Nat.le_trans (Nat.le_succ revision) hle

end

namespace SyncPageV2.Accepted

variable [Zod] (h : p.Accepted)

include h

theorem from_le_returned : p.fromServerRevisionExclusive ≤ p.returnedThroughServerRevision := by
  rw [h.returned]
  exact le_last_of_consecutive h.consecutive

theorem validReturned : NativeCloud.validReturned p = true := by
  rw [NativeCloud.validReturned, NativeCloud.expectedReturned, ← h.returned]
  rcases h.cursor with ⟨hnone, hequal⟩ | ⟨c, hsome, -, hlt⟩
  · rw [hnone, hequal]
    simp
  · rw [hsome, decide_eq_false (Nat.not_le.mpr hlt)]
    simp

theorem cursor_valid : p.nextCursor.all validateCursor = true := by
  rcases h.cursor with ⟨hnone, -⟩ | ⟨c, hsome, hc, -⟩
  · rw [hnone]
    rfl
  · rw [hsome]
    exact validateCursor_of_schema hc

/-- What the storage asks of a page that the schema accepts. -/
theorem checkSyncPage_iff {sha256 : Bytes → Bytes} {token : String}
    (hp : p.Reads v) (hdigest : expectedPageDigest sha256 p = .ok p.pageDigest)
    (htoken : validateCursor token = true) :
    (∃ q, checkSyncPage sha256 p.workspaceId p.serialize token = .ok q) ↔
      (JsonText.bytes v).length ≤ 1048576 ∧
        ∀ m ∈ p.mutations, ∀ c ∈ m.changedFields, storesField c = true := by
  have hlength : (JsonText.bytes p.serialize).length = (JsonText.bytes v).length := by
    obtain ⟨es, rfl⟩ := object_of_known hp.known
    rw [← JsonText.length_bytes_sortKeys asBytes, SyncPageV2.serialize, hp.sameFields.sortKeys,
      JsonText.length_bytes_sortKeys]
  have hcount := Nat.not_lt.mpr h.count
  have hreturned := Nat.not_lt.mpr h.returned_le
  have hfrom := Nat.not_lt.mpr (h.from_le_returned.trans h.returned_le)
  have hstart :
      min (p.fromServerRevisionExclusive + 1) (2 ^ 64 - 1) = p.fromServerRevisionExclusive + 1 := by
    have := successor_lt (h.from_le_returned.trans (h.returned_le.trans h.through))
    omega
  rw [checkSyncPage, hlength, h.deserialize_eq p.reads_serialize,
    ← storesMutations_iff h.mutations h.consecutive]
  simp only [h.schemaVersion, hcount, hreturned, hfrom, h.cursor_valid, htoken,
    validateDigest43_of_schema h.pageDigest, hdigest, hstart, h.validReturned, Bool.not_true,
    Bool.false_eq_true, if_false, ne_eq, not_true_eq_false, or_false]
  split
  next hlong => exact iff_of_false (by rintro ⟨q, ⟨⟩⟩) fun hgood => by omega
  next hshort =>
  rw [and_iff_right (by omega)]
  cases hstores : storesMutations p (p.fromServerRevisionExclusive + 1) p.mutations with
  | error e => exact iff_of_false (by rintro ⟨q, ⟨⟩⟩) fun hok => by cases hok
  | ok _ => exact iff_of_true ⟨p, rfl⟩ rfl

end SyncPageV2.Accepted

end GoodDealer.Desktop

namespace GoodDealer.NativeCloud

open Unicode Schema Schemas Desktop List

/-! ## Responses -/

theorem readNonNull_map (t : Option String) : readNonNull (t.map Json.string) = some t := by
  cases t <;> rfl

theorem readNullable_null (t : Option String) :
    readNullable (some ((t.map Json.string).getD .null)) = some t := by
  cases t <;> rfl

/-- What the record of a delivery has from the object it was read from. -/
structure PendingDeliveryWire.Reads (d : PendingDeliveryWire) (v : Json String) : Prop where
  generation : 0 < d.generation ∧ d.generation ≤ maxSafeInteger
  fromServerRevisionExclusive :
    v.field "fromServerRevisionExclusive" = some (unsigned d.fromServerRevisionExclusive)
  throughServerRevisionInclusive :
    v.field "throughServerRevisionInclusive" = some (unsigned d.throughServerRevisionInclusive)
  target : d.throughServerRevisionInclusive ≤ d.targetServerRevision ∧
    d.targetServerRevision ≤ maxSafeInteger
  pageDigest : v.field "pageDigest" = some (.string d.pageDigest)
  nextCursorDigest : v.field "nextCursorDigest" =
    some ((d.nextCursorDigest.map Json.string).getD .null)
  nextCursor : ∀ s ∈ d.nextCursorDigest, sha256DigestSchema (js s) = true
  predecessor : ∀ s ∈ d.predecessorConfirmationDigest, sha256DigestSchema (js s) = true
  expiresAt : canonicalUtcTimestamp (js d.expiresAt) = true

variable {v : Json String}

theorem PendingDeliveryWire.deserialize_of_schema
    (h : pendingDeliverySchema (v.map js) = true) : ∃ d, deserialize v = some d ∧ d.Reads v := by
  simp only [pendingDeliverySchema, Schema.refine, Bool.and_eq_true, decide_eq_true_eq] at h
  obtain ⟨hv, -, htarget⟩ := h
  have hmem : ∀ {P} (i : Nat), pendingDeliveryFields[i]? = some P → P ∈ pendingDeliveryFields :=
    fun _ hP => mem_of_getElem? hP
  have hknown := knownFields_of_image PendingDeliveryWire.names hv rfl
  obtain ⟨generation, hgeneration, hbounds⟩ := positive_of_property hv (hmem 0 rfl)
  obtain ⟨fromRevision, hfrom, hfromBound⟩ := natural_of_property hv (hmem 1 rfl)
  obtain ⟨through, hthrough, hthroughBound⟩ := natural_of_property hv (hmem 2 rfl)
  obtain ⟨target, htargetField, hmax⟩ := natural_of_property hv (hmem 3 rfl)
  obtain ⟨pageDigest, hpageDigest, -⟩ := text_of_property hv (hmem 4 rfl)
  obtain ⟨nextCursorDigest, hnext, hnextValid⟩ := nullable_of_property hv (hmem 5 rfl)
  obtain ⟨predecessor, hpredecessor, hpredecessorValid⟩ := nullable_of_property hv (hmem 6 rfl)
  obtain ⟨expiresAt, hexpiresAt, htime⟩ := text_of_property hv (hmem 7 rfl)
  rw [integerAt_of_read hthrough, integerAt_of_read htargetField] at htarget
  refine ⟨⟨generation, fromRevision, through, target, pageDigest, nextCursorDigest, predecessor,
    expiresAt⟩, ?_, hbounds, hfrom, hthrough, ⟨by exact_mod_cast htarget, hmax⟩, hpageDigest, hnext,
    hnextValid, hpredecessorValid, htime⟩
  rw [deserialize, if_pos hknown, readField_eq hgeneration (readU64_unsigned hbounds.2),
    readField_eq hfrom (readU64_unsigned hfromBound),
    readField_eq hthrough (readU64_unsigned hthroughBound),
    readField_eq htargetField (readU64_unsigned hmax), readField_text hpageDigest, hnext,
    readNullable_null, hpredecessor, readNullable_null, readField_text hexpiresAt]
  rfl

/-- What the record of a response has from the object it was read from. -/
structure SyncPullAcceptedWire.Reads [Zod] (r : SyncPullAcceptedWire)
    (v page delivery : Json String) : Prop where
  schemaVersion : r.schemaVersion = 2
  accepted : r.accepted = true
  page : v.field "page" = some page ∧ mutationPageSchema (page.map js) = true ∧ r.page.Accepted ∧
    r.page.Reads page
  confirmedThrough : v.field "confirmedThrough" = some (unsigned r.confirmedThrough) ∧
    r.confirmedThrough ≤ maxSafeInteger
  pendingDelivery : v.field "pendingDelivery" = some delivery ∧ r.pendingDelivery.Reads delivery
  confirmToken : mutationCursorSchema (js r.confirmToken) = true

theorem SyncPullAcceptedWire.deserialize_of_schema [Zod]
    (h : workspaceMutationPullAcceptedSchema (v.map js) = true) :
    ∃ r page delivery, deserialize v = some r ∧ r.Reads v page delivery := by
  have hv : strictObject pullAcceptedFields (v.map js) = true := h
  have hmem : ∀ {P} (i : Nat), pullAcceptedFields[i]? = some P → P ∈ pullAcceptedFields :=
    fun _ hP => mem_of_getElem? hP
  have hknown := knownFields_of_image SyncPullAcceptedWire.names hv rfl
  have hversion : v.field "schemaVersion" = some (unsigned 2) := literal_of_property hv (hmem 0 rfl)
  have haccepted : v.field "accepted" = some (.bool true) := by
    obtain ⟨w, hw, hS⟩ := required_of_image hv (hmem 1 rfl)
    cases w with
    | bool b => rw [hw]; exact congrArg (some ∘ Json.bool) hS
    | null | number | string | array | object => cases hS
  obtain ⟨page, hpage, hpageSchema⟩ := required_of_image hv (hmem 2 rfl)
  obtain ⟨p, haccept, hp⟩ := SyncPageV2.exists_reads hpageSchema
  have hreadPage := haccept.readPage_eq readNonNull_map readNullable_null hp
  obtain ⟨confirmed, hconfirmed, hmax⟩ := natural_of_property hv (hmem 3 rfl)
  obtain ⟨delivery, hdelivery, hdeliverySchema⟩ := required_of_image hv (hmem 4 rfl)
  obtain ⟨d, hreadDelivery, hd⟩ := PendingDeliveryWire.deserialize_of_schema hdeliverySchema
  obtain ⟨token, htoken, htokenSchema⟩ := text_of_property hv (hmem 5 rfl)
  have hreadVersion : readU8 (unsigned 2) = some 2 := rfl
  have hreadAccepted : readBool (.bool true) = some true := rfl
  refine ⟨⟨2, true, p, confirmed, d, token⟩, page, delivery, ?_, rfl, rfl,
    ⟨hpage, hpageSchema, haccept, hp⟩, ⟨hconfirmed, hmax⟩, ⟨hdelivery, hd⟩, htokenSchema⟩
  rw [deserialize, if_pos hknown, readField_eq hversion hreadVersion,
    readField_eq haccepted hreadAccepted, readField_eq hpage hreadPage,
    readField_eq hconfirmed (readU64_unsigned hmax), readField_eq hdelivery hreadDelivery,
    readField_text htoken]
  rfl

/-- A response that the cloud issues for this exchange: it has the schema, its page continues the
revision that the device has applied and has the right digest, and its delivery describes the
page. -/
structure Issued [Zod] (sha256 : Bytes → Bytes) (exchange : DesktopSyncPullExchange)
    (response page delivery : Json String) : Prop where
  schema : workspaceMutationPullAcceptedSchema (response.map js) = true
  hasPage : response.field "page" = some page
  hasDelivery : response.field "pendingDelivery" = some delivery
  confirmedThrough : response.field "confirmedThrough" =
    some (unsigned exchange.expectedAfterRevision)
  workspaceId : page.field "workspaceId" = some (.string exchange.expectedWorkspaceId)
  continues : page.field "fromServerRevisionExclusive" =
    some (unsigned exchange.expectedAfterRevision)
  digest : Canonical.pageDigest sha256 (page.map js) = page.textOf "pageDigest"
  deliveryFrom :
    delivery.field "fromServerRevisionExclusive" = some (unsigned exchange.expectedAfterRevision)
  deliveryThrough :
    delivery.field "throughServerRevisionInclusive" = page.field "returnedThroughServerRevision"
  deliveryDigest : delivery.field "pageDigest" = page.field "pageDigest"
  deliveryCursor :
    delivery.textOf "nextCursorDigest" = (page.textOf "nextCursor").map (tokenDigest sha256)

theorem unsigned_inj {n m : Nat} (h : some (unsigned n) = some (unsigned m)) : n = m :=
  Int.ofNat.inj (Json.number.inj (Option.some.inj h))

theorem text?_nullable (t : Option String) : ((t.map Json.string).getD .null).text? = t := by
  cases t <;> rfl

section

variable {sha256 : Bytes → Bytes} {exchange : DesktopSyncPullExchange} {r : SyncPullAcceptedWire}
  {response page delivery : Json String}

/-- What an issued response says about the records read from it. -/
structure SyncPullAcceptedWire.Agrees (sha256 : Bytes → Bytes) (exchange : DesktopSyncPullExchange)
    (r : SyncPullAcceptedWire) : Prop where
  confirmedThrough : r.confirmedThrough = exchange.expectedAfterRevision
  workspaceId : r.page.workspaceId = exchange.expectedWorkspaceId
  continues : r.page.fromServerRevisionExclusive = exchange.expectedAfterRevision
  deliveryFrom : r.pendingDelivery.fromServerRevisionExclusive = exchange.expectedAfterRevision
  deliveryThrough :
    r.pendingDelivery.throughServerRevisionInclusive = r.page.returnedThroughServerRevision
  deliveryDigest : r.pendingDelivery.pageDigest = r.page.pageDigest
  deliveryCursor : r.pendingDelivery.nextCursorDigest = r.page.nextCursor.map (tokenDigest sha256)
  digest : expectedPageDigest sha256 r.page = .ok r.page.pageDigest

theorem Issued.agrees [Zod] (h : Issued sha256 exchange response page delivery)
    (hr : r.Reads response page delivery) : r.Agrees sha256 exchange := by
  obtain ⟨-, hschema, -, hp⟩ := hr.page
  obtain ⟨-, hd⟩ := hr.pendingDelivery
  refine
    { confirmedThrough := unsigned_inj (hr.confirmedThrough.1.symm.trans h.confirmedThrough)
      workspaceId := Json.string.inj (Option.some.inj (hp.workspaceId.symm.trans h.workspaceId))
      continues := unsigned_inj (hp.fromServerRevisionExclusive.symm.trans h.continues)
      deliveryFrom := unsigned_inj (hd.fromServerRevisionExclusive.symm.trans h.deliveryFrom)
      deliveryThrough := unsigned_inj (hd.throughServerRevisionInclusive.symm.trans
        (h.deliveryThrough.trans hp.returnedThroughServerRevision))
      deliveryDigest := Json.string.inj (Option.some.inj (hd.pageDigest.symm.trans
        (h.deliveryDigest.trans hp.pageDigest)))
      deliveryCursor := ?_
      digest := ?_ }
  · have hcursor := h.deliveryCursor
    rw [Json.textOf, Json.textOf, hd.nextCursorDigest, hp.nextCursor, Option.bind_some,
      Option.bind_some, text?_nullable, text?_nullable] at hcursor
    exact hcursor
  · obtain ⟨d, hcloud, hdesktop⟩ := canonicalPageDigest_of_schema sha256 hschema
    have htext : page.textOf "pageDigest" = some r.page.pageDigest := by
      rw [Json.textOf, hp.pageDigest]
      rfl
    rw [expectedPageDigest_of_reads sha256 hp, hdesktop, ← Option.some.inj
      (hcloud.symm.trans (h.digest.trans htext))]

section

variable [Zod] (h : r.Agrees sha256 exchange) (hr : r.Reads response page delivery)
  (hp : r.page.Accepted)

include h hr hp

theorem SyncPullAcceptedWire.Agrees.not_rejected :
    rejectsResponse r exchange = false := by
  obtain ⟨-, hd⟩ := hr.pendingDelivery
  have hfrom := hp.from_le_returned
  have hreturned := hp.returned_le
  have hthrough := hp.through
  have hcount := hp.count
  have hgeneration := hd.generation
  have htarget := hd.target
  have hconfirmed := hr.confirmedThrough.2
  have hdeliveryThrough := h.deliveryThrough
  simp only [rejectsResponse, hr.schemaVersion, hr.accepted, h.confirmedThrough, hp.schemaVersion,
    h.workspaceId, h.continues, h.deliveryFrom, h.deliveryDigest, h.deliveryThrough,
    bne_self_eq_false, Bool.false_or, Bool.or_false, Bool.not_true, Bool.or_eq_false_iff,
    beq_eq_false_iff_ne, decide_eq_false_iff_not] at *
  omega

theorem validatePullResponse_iff
    : validatePullResponse sha256 r exchange = true ↔
      ∀ m ∈ r.page.mutations, ∀ c ∈ m.changedFields, validateSyncChangedField c = true := by
  obtain ⟨-, hd⟩ := hr.pendingDelivery
  have hpredecessor :
      r.pendingDelivery.predecessorConfirmationDigest.all validateDigest43 = true := by
    cases hcase : r.pendingDelivery.predecessorConfirmationDigest with
    | none => rfl
    | some t => exact validateDigest43_of_schema (hd.predecessor t hcase)
  have hcursor :
      validNextCursor sha256 r.page.nextCursor r.pendingDelivery.nextCursorDigest = true := by
    have hvalid := hp.cursor_valid
    have hdigest := hd.nextCursor
    rw [h.deliveryCursor] at hdigest ⊢
    cases hcase : r.page.nextCursor with
    | none => rfl
    | some c =>
      rw [hcase] at hvalid hdigest
      rw [Option.map_some, validNextCursor, show validateCursor c = true from hvalid,
        validateDigest43_of_schema (hdigest _ rfl), beq_self_eq_true]
      rfl
  have hfrom : r.page.fromServerRevisionExclusive ≤ maxSafeInteger :=
    hp.from_le_returned.trans (hp.returned_le.trans hp.through)
  rw [validatePullResponse, h.not_rejected hr hp, hpredecessor, hcursor, hp.validReturned,
    validateIdentifier_eq, hp.workspaceId, validateDigest43_of_schema hp.pageDigest,
    validateCursor_of_schema hr.confirmToken, validateTimestamp_of_schema hd.expiresAt,
    decide_eq_true (successor_lt hfrom), ← validateMutations_iff hp.mutations hp.consecutive]
  simp only [Bool.not_false, Bool.true_and, Bool.and_true]

end

/-- A page that the desktop can take: its text has at most a mebibyte, a tag list at most 64 tags
of at most 64 bytes, a note at most 10000 UTF-16 units, and no note or tag has the character
U+13440. -/
def Receivable (page : Json String) : Prop :=
  (JsonText.bytes page).length ≤ 1048576 ∧
    ∀ mutation ∈ page.itemsOf "mutations", ∀ field ∈ mutation.itemsOf "changedFields",
      ∀ path ∈ field.textOf "fieldPath", ∀ value ∈ field.field "value", portableValue path value

theorem forall_mem_of_forall₂ {α β : Type} {R : α → β → Prop} {P : α → Prop} {Q : β → Prop}
    {as : List α} {bs : List β} (h : List.Forall₂ R as bs)
    (hiff : ∀ a ∈ as, ∀ b, R a b → (P a ↔ Q b)) :
    (∀ a ∈ as, P a) ↔ ∀ b ∈ bs, Q b := by
  induction h with
  | nil => exact iff_of_true (forall_mem_nil _) (forall_mem_nil _)
  | @cons a b as bs hab _ ih =>
    rw [forall_mem_cons, forall_mem_cons, hiff a mem_cons_self b hab,
      ih (forall_mem_cons.mp hiff).2]

theorem itemsOf_of_field {k : String} {vs : List (Json String)}
    (h : v.field k = some (.array vs)) : v.itemsOf k = vs := by
  rw [Json.itemsOf, h]
  rfl

/-- The condition on the value is the one on its record. -/
theorem receivable_iff [Zod] (hzod : CountsCodePoints) {p : SyncPageV2} (hp : p.Reads page)
    (h : p.Accepted) :
    (∀ m ∈ p.mutations, ∀ c ∈ m.changedFields,
        validateSyncChangedField c = true ∧ storesField c = true) ↔
      ∀ mutation ∈ page.itemsOf "mutations", ∀ field ∈ mutation.itemsOf "changedFields",
        ∀ path ∈ field.textOf "fieldPath", ∀ value ∈ field.field "value",
          portableValue path value := by
  obtain ⟨ms, hms, hall⟩ := hp.mutations
  rw [itemsOf_of_field hms]
  refine forall_mem_of_forall₂ hall fun m hm w hreads => ?_
  obtain ⟨cs, hcs, hfields⟩ := hreads.changedFields
  rw [itemsOf_of_field hcs]
  refine forall_mem_of_forall₂ hfields fun c hc u hu => ?_
  rw [((h.mutations m hm).fields c hc).portable_iff hzod, Json.textOf, hu.fieldPath, hu.value]
  refine ⟨fun hgood path hpath value hvalue => ?_, fun hgood => hgood _ rfl _ rfl⟩
  cases hpath
  cases hvalue
  exact hgood

/-- If zod counts code points, the desktop takes an issued response exactly when it can take its
page. -/
theorem completeNativeSyncPull_iff_receivable [Zod] (hzod : CountsCodePoints)
    (h : Issued sha256 exchange response page delivery) :
    (∃ record, completeNativeSyncPull sha256 exchange response = .ok record) ↔ Receivable page := by
  obtain ⟨r, page', delivery', hdeserialize, hr⟩ :=
    SyncPullAcceptedWire.deserialize_of_schema h.schema
  obtain rfl : page' = page := Option.some.inj (hr.page.1.symm.trans h.hasPage)
  obtain rfl : delivery' = delivery :=
    Option.some.inj (hr.pendingDelivery.1.symm.trans h.hasDelivery)
  obtain ⟨-, -, haccepted, hp⟩ := hr.page
  have hagrees := h.agrees hr
  have hclient := validatePullResponse_iff hagrees hr haccepted
  have hstorage :=
    haccepted.checkSyncPage_iff hp hagrees.digest (validateCursor_of_schema hr.confirmToken)
  rw [Receivable, ← receivable_iff hzod hp haccepted]
  simp only [completeNativeSyncPull, hdeserialize, ← hagrees.workspaceId, forall_and]
  rw [← hclient, and_left_comm, ← hstorage]
  cases validatePullResponse sha256 r exchange with
  | false => exact iff_of_false (by rintro ⟨q, ⟨⟩⟩) fun hgood => Bool.false_ne_true hgood.1
  | true =>
    rw [and_iff_right rfl]
    refine exists_congr fun q => ?_
    cases checkSyncPage sha256 r.page.workspaceId r.page.serialize r.confirmToken with
    | error e => exact iff_of_false (fun hq => by cases hq) fun hq => by cases hq
    | ok q' => exact ⟨fun hq => by cases hq; rfl, fun hq => by cases hq; rfl⟩

end

/-- A page in which the tags of `a.com` become this one tag. -/
def tagPage (tag : String) : Json String :=
  .object [("schemaVersion", .number 2), ("workspaceId", .string "w1"),
    ("fromServerRevisionExclusive", .number 0), ("throughServerRevisionInclusive", .number 1),
    ("mutations", .array [.object [("schemaVersion", .number 2), ("mutationId", .string "m1"),
      ("workspaceId", .string "w1"), ("workspaceSchemaVersion", .number 1),
      ("entityType", .string "domain_asset"), ("entityId", .string "a.com"),
      ("operationKind", .string "upsert"), ("baseServerRevision", .number 0),
      ("changedFields", .array [.object [("fieldPath", .string "tags"),
        ("value", .array [.string tag])]]),
      ("sourceDeviceId", .string "d1"), ("activeLeaseEpoch", .number 1),
      ("deviceMutationSequence", .number 1), ("serverRevision", .number 1)]]),
    ("returnedThroughServerRevision", .number 1), ("nextCursor", .null),
    ("pageDigest", .string "AAAAAAAAAAAAAAAAAAAAAAAAAAAAAAAAAAAAAAAAAAA")]

/-- The delivery of this page. -/
def tagDelivery : Json String :=
  .object [("generation", .number 1), ("fromServerRevisionExclusive", .number 0),
    ("throughServerRevisionInclusive", .number 1), ("targetServerRevision", .number 1),
    ("pageDigest", .string "AAAAAAAAAAAAAAAAAAAAAAAAAAAAAAAAAAAAAAAAAAA"),
    ("nextCursorDigest", .null), ("predecessorConfirmationDigest", .null),
    ("expiresAt", .string "2026-08-20T00:00:00Z")]

def tagResponse (tag : String) : Json String :=
  .object [("schemaVersion", .number 2), ("accepted", .bool true), ("page", tagPage tag),
    ("confirmedThrough", .number 0), ("pendingDelivery", tagDelivery),
    ("confirmToken", .string "t1")]

/-- A digest of 32 zeros, for the samples. -/
def zeroDigest (_ : Bytes) : Bytes := List.replicate 32 0

def firstExchange : DesktopSyncPullExchange := ⟨"w1", 0⟩

/-- A tag of 22 characters and 66 bytes. -/
def longTag : String := String.ofList (List.replicate 22 (Char.ofNat 0x57df))

attribute [local instance] codePointZod

theorem completeNativeSyncPull_iff_receivable_sample :
    Issued zeroDigest firstExchange (tagResponse "x") (tagPage "x") tagDelivery ∧
      ∃ record, completeNativeSyncPull zeroDigest firstExchange (tagResponse "x") = .ok record := by
  have hissued : Issued zeroDigest firstExchange (tagResponse "x") (tagPage "x") tagDelivery :=
    ⟨by decide +kernel, rfl, rfl, rfl, rfl, rfl, by decide +kernel, rfl, rfl, rfl, rfl⟩
  have hreceivable : Receivable (tagPage "x") := by
    refine ⟨by decide +kernel, fun mutation hmutation field hfield path hpath value hvalue => ?_⟩
    cases mem_singleton.mp hmutation
    cases mem_singleton.mp hfield
    cases hpath
    cases hvalue
    refine ⟨by decide, fun v hv s hs => ?_⟩
    cases mem_singleton.mp hv
    cases hs
    exact ⟨by decide +kernel, by decide +kernel⟩
  exact ⟨hissued, (completeNativeSyncPull_iff_receivable (fun _ _ => rfl) hissued).mpr hreceivable⟩

theorem completeNativeSyncPull_refuses_longTag :
    Issued zeroDigest firstExchange (tagResponse longTag) (tagPage longTag) tagDelivery ∧
      ∀ record, completeNativeSyncPull zeroDigest firstExchange (tagResponse longTag) ≠
        .ok record := by
  refine ⟨⟨by decide +kernel, rfl, rfl, rfl, rfl, rfl, by decide +kernel, rfl, rfl, rfl, rfl⟩, ?_⟩
  intro record hrecord
  have hrefused :
      (completeNativeSyncPull zeroDigest firstExchange (tagResponse longTag)).toOption.isNone =
      true := by decide +kernel
  rw [hrecord] at hrefused
  cases hrefused

end GoodDealer.NativeCloud
