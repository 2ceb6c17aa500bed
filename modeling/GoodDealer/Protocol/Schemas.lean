/-
# `GoodDealer.Protocol.Schemas` — the sync schemas on JSON values

The schemas of `packages/protocol/src/workspace` that a push, a pull and a
checkpoint go through, on values as JavaScript holds them: texts are lists of code
units, and a note or a tag may contain a surrogate without its partner.

| schema | here |
| :-- | :-- |
| `domainAssetNoteSchema`, `domainAssetTagSchema`, `domainAssetTagsSchema` | the same names |
| `canonicalMoneySchema`, `changedFieldsSchema` | the same names |
| `tenantNeutralSubmittedSyncMutationSchema` | the same name |
| `submittedSyncMutationSchema`, `syncMutationSchema` | the same names |
| `mutationPageSchema` | the same name |
| `domainAssetProjectionSchema` | the same name |

Zod is not part of the repository, and the unit in which `min` and `max` count a text is
its own: `Zod.length` may be any function of the number of code units and of code
points.  Only notes and tags depend on it; every other text is tested against a pattern
of ASCII characters, for which the two numbers are equal.  If zod counts code points
(`CountsCodePoints`), then on well-formed text the value schemas are the predicates of
`Protocol.Fields`.
-/
import GoodDealer.Lib.Json
import GoodDealer.Protocol.Page
import GoodDealer.Protocol.Timestamps

namespace GoodDealer.Schemas

open Unicode Schema List

/-! ## Notes and tags -/

/-- The length that `min` and `max` of zod compare. -/
class Zod where
  length : (units points : Nat) → Nat

/-- Zod counts code points. -/
def CountsCodePoints [Zod] : Prop := ∀ units points, Zod.length units points = points

/-- The zod of the samples. -/
@[reducible] def codePointZod : Zod := ⟨fun _ points => points⟩

def textLength [Zod] (us : JsString) : Nat := Zod.length us.length (codePoints us).length

/-- `\p{Cc}`, of a code point. -/
def isControlPoint (n : Nat) : Bool := n ≤ 0x1f || (0x7f ≤ n && n ≤ 0x9f)

/-- `\p{Cf}`, of a code point. -/
def isFormatPoint (n : Nat) : Bool := formatRanges.any (fun r => r.1 ≤ n && n ≤ r.2)

/-- `[\u0000-\u0008\u000B\u000C\u000E-\u001F\u007F-\u009F]`. -/
def isNoteControl (n : Nat) : Bool :=
  n ≤ 8 || n == 0xb || n == 0xc || (0xe ≤ n && n ≤ 0x1f) || (0x7f ≤ n && n ≤ 0x9f)

/-- `domainAssetNoteSchema`. -/
def domainAssetNoteSchema [Zod] (us : JsString) : Bool :=
  decide (textLength us ≤ 10000) &&
    !(codePoints us).any (fun n => isFormatPoint n || isNoteControl n)

/-- A unit that `String.prototype.trim` removes. -/
def isTrimmedUnit (u : UInt16) : Bool :=
  let n := u.toNat
  (9 ≤ n && n ≤ 13) || n == 0x20 || n == 0xa0 || n == 0x1680 || (0x2000 ≤ n && n ≤ 0x200a) ||
    n == 0x2028 || n == 0x2029 || n == 0x202f || n == 0x205f || n == 0x3000 || n == 0xfeff

/-- `String.prototype.trim`. -/
def trim (us : JsString) : JsString := trimEnds isTrimmedUnit us

/-- `domainAssetTagSchema`. -/
def domainAssetTagSchema [Zod] (us : JsString) : Bool :=
  decide (1 ≤ textLength us) && decide (textLength us ≤ 64) &&
    !(codePoints us).any (fun n => isControlPoint n || isFormatPoint n) && trim us == us

/-- The loop of `compareUtf8` on the bytes. -/
def compareBytes : Bytes → Bytes → Int
  | a :: left, b :: right => if a ≠ b then (a.toNat : Int) - b.toNat else compareBytes left right
  | left, right => (left.length : Int) - right.length

/-- `compareUtf8`. -/
def compareUtf8 (left right : JsString) : Int := compareBytes (textEncode left) (textEncode right)

/-- The loop over neighbours that the array schemas run. -/
def adjacent {α : Type} (before : α → α → Bool) : List α → Bool
  | a :: b :: rest => before a b && adjacent before (b :: rest)
  | [_] | [] => true

/-- `domainAssetTagsSchema`. -/
def domainAssetTagsSchema [Zod] : Schema JsString :=
  refine (arrayOf (stringOf domainAssetTagSchema)) fun v =>
    decide (v.items.length ≤ 128) &&
      adjacent (fun a b => decide (compareUtf8 a b < 0)) (v.items.filterMap Json.text?)

/-! ## Records -/

/-- `safeUnsignedInteger`. -/
def safeUnsignedInteger : Schema JsString :=
  integerOf fun n => decide (0 ≤ n) && decide (n ≤ maxSafeInteger)

/-- `safePositiveInteger`. -/
def safePositiveInteger : Schema JsString :=
  integerOf fun n => decide (0 < n) && decide (n ≤ maxSafeInteger)

/-- `z.literal` of a text. -/
def literalText (t : String) : Schema JsString := stringOf fun us => us == js t

/-- `z.literal` of a number. -/
def literalNumber (n : Int) : Schema JsString := integerOf fun m => m == n

/-- `canonicalMoneySchema`. -/
def canonicalMoneySchema : Schema JsString :=
  strictObject
    [required "currency" (stringOf currencySchema), required "amount" (stringOf amountSchema)]

/-- One option of `domainAssetChangedFieldSchema`. -/
def changedFieldOption (path : FieldPath) (value : Schema JsString) : Schema JsString :=
  strictObject [required "fieldPath" (literalText path.wire), required "value" value]

/-- `domainAssetChangedFieldSchema`. -/
def domainAssetChangedFieldSchema [Zod] : Schema JsString :=
  union [changedFieldOption .note (nullable (stringOf domainAssetNoteSchema)),
    changedFieldOption .portfolioId (nullable (stringOf identifier)),
    changedFieldOption .tags domainAssetTagsSchema,
    changedFieldOption .targetPrice (nullable canonicalMoneySchema)]

/-- `changedFieldsSchema`: field paths ascend in the order of their code units. -/
def changedFieldsSchema [Zod] : Schema JsString :=
  refine (arrayOf domainAssetChangedFieldSchema) fun v =>
    decide (v.items.length ≤ 4) &&
      adjacent (fun a b => decide (a < b)) (v.items.filterMap (Json.textOf "fieldPath"))

def submittedSyncMutationPrefixFields : List (Property JsString) :=
  [required "schemaVersion" (literalNumber 2), required "mutationId" (stringOf identifier)]

def submittedSyncMutationSuffixFields [Zod] : List (Property JsString) :=
  [required "workspaceSchemaVersion" safePositiveInteger,
   required "entityType" (literalText "domain_asset"),
   required "entityId" (stringOf domainAssetIdSchema),
   required "operationKind" (union [literalText "upsert", literalText "delete"]),
   optional "deletedAt" (stringOf canonicalUtcTimestamp),
   required "baseServerRevision" safeUnsignedInteger,
   required "changedFields" changedFieldsSchema,
   required "sourceDeviceId" (stringOf identifier),
   required "activeLeaseEpoch" safePositiveInteger,
   required "deviceMutationSequence" safePositiveInteger]

/-- `validateSubmittedSyncMutation`. -/
def validateSubmittedSyncMutation (v : Json JsString) : Bool :=
  if v.textOf "operationKind" = some (js "upsert") then
    !(v.itemsOf "changedFields").isEmpty && (v.field "deletedAt").isNone
  else (v.itemsOf "changedFields").isEmpty && (v.field "deletedAt").isSome

/-- `tenantNeutralSubmittedSyncMutationSchema`. -/
def tenantNeutralSubmittedSyncMutationSchema [Zod] : Schema JsString :=
  refine (strictObject (submittedSyncMutationPrefixFields ++ submittedSyncMutationSuffixFields))
    validateSubmittedSyncMutation

/-- `submittedSyncMutationSchema`. -/
def submittedSyncMutationSchema [Zod] : Schema JsString :=
  refine (strictObject (submittedSyncMutationPrefixFields ++
    required "workspaceId" (stringOf identifier) :: submittedSyncMutationSuffixFields))
    validateSubmittedSyncMutation

/-- The number of a property that a schema has checked. -/
def integerAt (k : String) (v : Json JsString) : Int := (v.numberOf k).getD 0

/-- The properties of `syncMutationSchema`. -/
def syncMutationFields [Zod] : List (Property JsString) :=
  submittedSyncMutationPrefixFields ++
    required "workspaceId" (stringOf identifier) :: submittedSyncMutationSuffixFields ++
    [required "serverRevision" safePositiveInteger]

/-- `syncMutationSchema`. -/
def syncMutationSchema [Zod] : Schema JsString :=
  refine (refine (strictObject syncMutationFields) validateSubmittedSyncMutation)
    fun v => decide (integerAt "baseServerRevision" v < integerAt "serverRevision" v)

/-- The loop of `mutationPageSchema` over the mutations. -/
def contiguous (workspaceId : Option JsString) : Int → List (Json JsString) → Bool
  | _, [] => true
  | expectedRevision, m :: ms => decide (m.textOf "workspaceId" = workspaceId) &&
      decide (integerAt "serverRevision" m = expectedRevision) &&
      contiguous workspaceId (expectedRevision + 1) ms

/-- The revision the mutations of a page reach. -/
def returnedRevision (v : Json JsString) : Int :=
  match (v.itemsOf "mutations").getLast? with
  | none => integerAt "fromServerRevisionExclusive" v
  | some m => integerAt "serverRevision" m

/-- What `mutationPageSchema` checks across the properties. -/
def validateMutationPage (v : Json JsString) : Bool :=
  let fromRevision := integerAt "fromServerRevisionExclusive" v
  let through := integerAt "throughServerRevisionInclusive" v
  let returned := integerAt "returnedThroughServerRevision" v
  decide (fromRevision ≤ through) &&
    contiguous (v.textOf "workspaceId") (fromRevision + 1) (v.itemsOf "mutations") &&
    decide (returned = returnedRevision v) && decide (returned ≤ through) &&
    match v.textOf "nextCursor" with
    | none => decide (returned = through)
    | some _ => decide (returned < through)

/-- The properties of `mutationPageSchema`. -/
def mutationPageFields [Zod] : List (Property JsString) :=
  [required "schemaVersion" (literalNumber 2),
   required "workspaceId" (stringOf identifier),
   required "fromServerRevisionExclusive" safeUnsignedInteger,
   required "throughServerRevisionInclusive" safeUnsignedInteger,
   required "mutations" (refine (arrayOf syncMutationSchema)
     fun v => decide (v.items.length ≤ maxMutationsPerPage)),
   required "returnedThroughServerRevision" safeUnsignedInteger,
   required "nextCursor" (nullable (stringOf mutationCursorSchema)),
   required "pageDigest" (stringOf sha256DigestSchema)]

/-- `mutationPageSchema`. -/
def mutationPageSchema [Zod] : Schema JsString :=
  refine (strictObject mutationPageFields) validateMutationPage

/-- The properties of `pendingDeliverySchema`. -/
def pendingDeliveryFields : List (Property JsString) :=
  [required "generation" safePositiveInteger,
   required "fromServerRevisionExclusive" safeUnsignedInteger,
   required "throughServerRevisionInclusive" safeUnsignedInteger,
   required "targetServerRevision" safeUnsignedInteger,
   required "pageDigest" (stringOf sha256DigestSchema),
   required "nextCursorDigest" (nullable (stringOf sha256DigestSchema)),
   required "predecessorConfirmationDigest" (nullable (stringOf sha256DigestSchema)),
   required "expiresAt" (stringOf canonicalUtcTimestamp)]

/-- `pendingDeliverySchema`. -/
def pendingDeliverySchema : Schema JsString :=
  refine (strictObject pendingDeliveryFields)
    fun v => decide (integerAt "fromServerRevisionExclusive" v ≤
        integerAt "throughServerRevisionInclusive" v) &&
      decide (integerAt "throughServerRevisionInclusive" v ≤ integerAt "targetServerRevision" v)

/-- `z.literal(true)`. -/
def literalTrue : Schema JsString
  | .bool b => b
  | _ => false

/-- The properties of a response that accepts a pull. -/
def pullAcceptedFields [Zod] : List (Property JsString) :=
  [required "schemaVersion" (literalNumber 2),
   required "accepted" literalTrue,
   required "page" mutationPageSchema,
   required "confirmedThrough" safeUnsignedInteger,
   required "pendingDelivery" pendingDeliverySchema,
   required "confirmToken" (stringOf mutationCursorSchema)]

/-- The accepted option of `workspaceMutationPullResponseSchema`. -/
def workspaceMutationPullAcceptedSchema [Zod] : Schema JsString := strictObject pullAcceptedFields

/-- `domainAssetProjectionRowSchema`. -/
def domainAssetProjectionRowSchema [Zod] : Schema JsString :=
  strictObject
    [required "entityId" (stringOf domainAssetIdSchema),
     required "note" (nullable (stringOf domainAssetNoteSchema)),
     required "portfolioId" (nullable (stringOf identifier)),
     required "tags" domainAssetTagsSchema,
     required "targetPrice" (nullable canonicalMoneySchema)]

/-- `domainAssetProjectionSchema`. -/
def domainAssetProjectionSchema [Zod] : Schema JsString :=
  refine (arrayOf domainAssetProjectionRowSchema) fun v =>
    adjacent (fun a b => decide (compareUtf8 a b < 0)) (v.items.filterMap (Json.textOf "entityId"))

/-! ## On well-formed text -/

theorem any_codePoints_js (p : Nat → Bool) (s : String) :
    (codePoints (js s)).any p = s.toList.any (fun c => p c.toNat) := by
  rw [codePoints_js, any_map]
  rfl

theorem noteControl_eq (c : Char) : isNoteControl c.toNat =
    !(!isControl c || c == '\t' || c == '\n' || c == '\r') := by
  have h9 : (c == '\t') = decide (c.toNat = 9) := by rw [← beq_toNat]; rfl
  have h10 : (c == '\n') = decide (c.toNat = 10) := by rw [← beq_toNat]; rfl
  have h13 : (c == '\r') = decide (c.toNat = 13) := by rw [← beq_toNat]; rfl
  rw [Bool.eq_iff_iff, h9, h10, h13]
  simp only [isNoteControl, isControl, Bool.or_eq_true, Bool.and_eq_true, beq_iff_eq,
    decide_eq_true_eq, Bool.not_eq_true', Bool.or_eq_false_iff, decide_eq_false_iff_not,
    Bool.not_eq_false']
  omega

theorem textLength_js [Zod] (hzod : CountsCodePoints) (s : String) :
    textLength (js s) = s.toList.length := by
  rw [textLength, hzod, codePoints_js, length_map]

theorem domainAssetNoteSchema_js [Zod] (hzod : CountsCodePoints) (s : String) :
    domainAssetNoteSchema (js s) = validNote s := by
  rw [domainAssetNoteSchema, validNote, textLength_js hzod, any_codePoints_js, not_any_eq_all_not]
  congr 2
  funext c
  rw [noteControl_eq, Bool.not_or, Bool.not_not]
  rfl

theorem isTrimmed_eq (c : Char) (h : c.toNat < 0x10000) :
    isTrimmedUnit (UInt16.ofNat c.toNat) = isTrimmed c := by
  simp only [isTrimmedUnit, isTrimmed, toNat_ofNat h]

/-- Neither a surrogate nor a character that needs two is white space. -/
theorem isTrimmed_units (c : Char) : (units c.toNat).head?.any isTrimmedUnit = isTrimmed c ∧
    (units c.toNat).getLast?.any isTrimmedUnit = isTrimmed c := by
  have hc := toNat_isValidChar c
  by_cases h : c.toNat < 0x10000
  · rw [units, if_pos h]
    exact ⟨isTrimmed_eq c h, isTrimmed_eq c h⟩
  · have hfalse : isTrimmed c = false := by
      rw [Bool.eq_false_iff]
      simp only [isTrimmed, ne_eq, Bool.or_eq_true, Bool.and_eq_true, beq_iff_eq, decide_eq_true_eq]
      omega
    have hsurrogate : ∀ n, 0xd800 ≤ n → n < 0xe000 → isTrimmedUnit (UInt16.ofNat n) = false := by
      intro n hlow hhigh
      rw [Bool.eq_false_iff]
      simp only [isTrimmedUnit, toNat_ofNat (show n < 0x10000 by omega), ne_eq, Bool.or_eq_true,
        Bool.and_eq_true, beq_iff_eq, decide_eq_true_eq]
      omega
    simp only [Nat.isValidChar] at hc
    rw [units, if_neg h, hfalse]
    rw [List.head?_cons, List.getLast?_cons_cons, List.getLast?_singleton, Option.any_some,
      Option.any_some]
    exact ⟨hsurrogate (0xd800 + (c.toNat - 0x10000) / 0x400) (by omega) (by omega),
      hsurrogate (0xdc00 + (c.toNat - 0x10000) % 0x400) (by omega) (by omega)⟩

theorem trim_js {s : String} : trim (js s) = js s ↔
    s.toList.head?.any isTrimmed = false ∧ s.toList.getLast?.any isTrimmed = false := by
  have hhead : (js s).head?.any isTrimmedUnit = s.toList.head?.any isTrimmed := by
    rw [js, utf16]
    cases s.toList with
    | nil => rfl
    | cons c l =>
      rw [map_cons, flatMap_cons, List.head?_append_of_ne_nil _ (units_ne_nil _)]
      exact (isTrimmed_units c).1
  have hlast : (js s).getLast?.any isTrimmedUnit = s.toList.getLast?.any isTrimmed := by
    rw [js, utf16]
    rcases eq_nil_or_concat s.toList with h | ⟨l, c, h⟩
    · rw [h]; rfl
    · rw [h, concat_eq_append, map_append, flatMap_append, map_singleton,
        flatMap_singleton, List.getLast?_append_of_ne_nil _ (units_ne_nil _),
        List.getLast?_concat]
      exact (isTrimmed_units c).2
  rw [trim, trimEnds_eq_self, hhead, hlast]

theorem domainAssetTagSchema_js [Zod] (hzod : CountsCodePoints) (s : String) :
    domainAssetTagSchema (js s) = validTag s := by
  rw [Bool.eq_iff_iff]
  simp only [domainAssetTagSchema, validTag, Bool.and_eq_true, decide_eq_true_eq,
    textLength_js hzod,
    any_codePoints_js, not_any_eq_all_not, beq_iff_eq, trim_js, Bool.not_eq_true', Bool.not_or]
  constructor
  · rintro ⟨⟨hlen, hall⟩, hhead, hlast⟩
    exact ⟨⟨⟨hlen, hall⟩, hhead⟩, hlast⟩
  · rintro ⟨⟨⟨hlen, hall⟩, hhead⟩, hlast⟩
    exact ⟨⟨hlen, hall⟩, hhead, hlast⟩

theorem compareBytes_lt {left right : Bytes} : compareBytes left right < 0 ↔ left < right := by
  induction left generalizing right with
  | nil =>
    cases right with
    | nil => exact iff_of_false (by decide) (List.lt_irrefl _)
    | cons b right =>
      refine iff_of_true ?_ (nil_lt_cons _ _)
      simp only [compareBytes, length_nil, length_cons]
      omega
  | cons a left ih =>
    cases right with
    | nil =>
      refine iff_of_false ?_ (not_lt_nil _)
      simp only [compareBytes, length_nil, length_cons]
      omega
    | cons b right =>
      rw [compareBytes, cons_lt_cons_iff]
      split
      next hab =>
        rw [UInt8.lt_iff_toNat_lt, or_iff_left fun h => hab h.1]
        omega
      next hab =>
        rw [not_not.mp hab, ih, or_iff_right (UInt8.lt_irrefl b), and_iff_right rfl]

theorem compareUtf8_js {a b : String} : compareUtf8 (js a) (js b) < 0 ↔ a < b := by
  rw [compareUtf8, compareBytes_lt, js, js, textEncode_utf16, textEncode_utf16, utf8_lt_iff]
  exact String.lt_iff_toList_lt.symm

theorem adjacent_iff {α : Type} {before : α → α → Bool} {l : List α} :
    adjacent before l = true ↔ l.IsChain (fun a b => before a b = true) := by
  induction l with
  | nil => exact iff_of_true rfl isChain_nil
  | cons a l ih =>
    cases l with
    | nil => exact iff_of_true rfl (isChain_singleton a)
    | cons b l => rw [isChain_cons_cons, ← ih, adjacent, Bool.and_eq_true]

theorem adjacent_tags_js (tags : List String) :
    adjacent (fun a b => decide (compareUtf8 a b < 0)) (tags.map js) = true ↔
      tags.Pairwise (· < ·) := by
  rw [adjacent_iff, isChain_map, ← isChain_iff_pairwise]
  simp only [decide_eq_true_eq, compareUtf8_js]

/-- A list of texts as a JSON array. -/
theorem domainAssetTagsSchema_js [Zod] (hzod : CountsCodePoints) (tags : List String) :
    domainAssetTagsSchema (.array (tags.map fun t => .string (js t))) = validTags tags := by
  have htexts : (tags.map fun t => Json.string (js t)).filterMap Json.text? = tags.map js := by
    rw [filterMap_map]
    exact congrFun filterMap_eq_map' tags
  rw [Bool.eq_iff_iff]
  simp only [domainAssetTagsSchema, refine, arrayOf, Json.items, htexts, validTags,
    Bool.and_eq_true, decide_eq_true_eq, length_map, adjacent_tags_js, all_map,
    all_eq_true, Function.comp_apply, stringOf, domainAssetTagSchema_js hzod]
  tauto

end GoodDealer.Schemas
