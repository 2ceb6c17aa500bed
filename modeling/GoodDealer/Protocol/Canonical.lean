/-
# `GoodDealer.Protocol.Canonical` — the canonical wire codec

`encodeCanonicalWireValue` writes a wire value as nested frames with its keys in
order, `encodeDomainSeparatedWireValue` puts the name of a domain in front, and the
digests of mutations, pages and projections are taken of the result.

No encoding is a proper initial part of another.  Whether one value can be read back
from its bytes turns on its texts: `TextEncoder` writes a surrogate without its partner
as U+FFFD, so a text that contains either has the same bytes as another one
(`exchange`), and every schema that accepts the one accepts the other, since neither
character is a control, a format character or white space.  A value has bytes of its
own exactly when each of its texts is `Exact`.
-/
import GoodDealer.Lib.Framing
import GoodDealer.Protocol.Schemas

namespace GoodDealer.Canonical

open Unicode Schemas Schema Framing List
open Bool (and_eq_true or_eq_true)

/-! ## The codec -/

/-- `Number.isSafeInteger`. -/
def isSafeInteger (n : Int) : Bool :=
  decide (-(maxSafeInteger : Int) ≤ n) && decide (n ≤ maxSafeInteger)

/-- `encoder.encode` of a literal. -/
def literal (s : String) : Bytes := textEncode (js s)

mutual

/-- `encodeCanonicalWireValue`; `none` is the `TypeError`. -/
def encodeCanonicalWireValue : Json JsString → Option Bytes
  | .null => some (literal "z0:")
  | .bool value => some (literal (if value then "b1:1" else "b1:0"))
  | .number value =>
    if isSafeInteger value then some (frame 'n' (utf8 (integerText value))) else none
  | .string value => some (frame 's' (textEncode value))
  | .array value => (encodeArray value).map (frame 'a')
  | .object record => (encodeRecord record).map fun entries =>
    -- `Object.keys(record).sort()` compares code units
    frame 'o' ((Keyed.sortByKey (fun e => js e.1) entries).flatMap fun e =>
      frame 'e' (frame 'k' (textEncode (js e.1)) ++ frame 'v' e.2))

/-- The entries of an array, one after the other. -/
def encodeArray : List (Json JsString) → Option Bytes
  | [] => some []
  | entry :: entries => (encodeCanonicalWireValue entry).bind fun first =>
    (encodeArray entries).map fun rest => frame 'e' first ++ rest

/-- The keys of a record with the bytes of their values. -/
def encodeRecord : List (String × Json JsString) → Option (List (String × Bytes))
  | [] => some []
  | (key, value) :: entries => (encodeCanonicalWireValue value).bind fun first =>
    (encodeRecord entries).map fun rest => (key, first) :: rest

end

/-- `encodeDomainSeparatedWireValue`. -/
def encodeDomainSeparatedWireValue (domain : String) (value : Json JsString) : Option Bytes :=
  (encodeCanonicalWireValue value).map fun bytes =>
    frame 'd' (textEncode (js domain)) ++ frame 'v' bytes

/-- Every number of the value is safe. -/
def safeNumbers (v : Json JsString) : Bool := v.allOf (fun _ => true) isSafeInteger

/-- The bytes of a value, where the codec does not throw. -/
def canonicalBytes (v : Json JsString) : Bytes := encode js textEncode v

mutual

theorem encodeCanonicalWireValue_eq : ∀ v : Json JsString, encodeCanonicalWireValue v =
    if safeNumbers v = true then some (canonicalBytes v) else none := by
  intro v
  cases v with
  | null => rfl
  | bool b => cases b <;> decide
  | number n | string s => rfl
  | array vs =>
    rw [encodeCanonicalWireValue, encodeArray_eq vs, safeNumbers, Json.allOf, canonicalBytes,
      encode]
    split <;> rfl
  | object es =>
    rw [encodeCanonicalWireValue, encodeRecord_eq es, safeNumbers, Json.allOf, canonicalBytes,
      encode]
    split
    · simp only [Option.map_some, js, textEncode_utf16]
    · rfl

theorem encodeArray_eq : ∀ vs : List (Json JsString), encodeArray vs =
    if Json.allOfItems (fun _ => true) isSafeInteger vs = true then
      some (encodeItems js textEncode vs) else none := by
  intro vs
  match vs with
  | [] => rfl
  | v :: vs =>
    rw [encodeArray, encodeCanonicalWireValue_eq v, encodeArray_eq vs, Json.allOfItems, encodeItems,
      safeNumbers]
    cases v.allOf (fun _ => true) isSafeInteger <;>
      cases Json.allOfItems (fun _ => true) isSafeInteger vs <;> rfl

theorem encodeRecord_eq : ∀ es : List (String × Json JsString), encodeRecord es =
    if Json.allOfEntries (fun _ => true) isSafeInteger es = true then
      some (encodeEntries js textEncode es) else none := by
  intro es
  match es with
  | [] => rfl
  | (k, v) :: es =>
    rw [encodeRecord, encodeCanonicalWireValue_eq v, encodeRecord_eq es, Json.allOfEntries,
      encodeEntries, safeNumbers]
    cases v.allOf (fun _ => true) isSafeInteger <;>
      cases Json.allOfEntries (fun _ => true) isSafeInteger es <;> rfl

end

/-! ## Digest inputs -/

/-- What the digest functions share: parse, drop what the digest does not cover
(`const { pageDigest: _pageDigest, ...digestInput } = parsed`), encode. -/
def parsedDigestInput (schema : Schema JsString) (domain : String)
    (content : Json JsString → Json JsString) (value : Json JsString) : Option Bytes :=
  if schema value = true then encodeDomainSeparatedWireValue domain (content value) else none

/-- `encodeSubmittedSyncMutationDigestInput`. -/
def encodeSubmittedSyncMutationDigestInput [Zod] : Json JsString → Option Bytes :=
  parsedDigestInput tenantNeutralSubmittedSyncMutationSchema "GOODDEALER-WORKSPACE-MUTATION-V2" id

/-- `encodeMutationPageDigestInput`. -/
def encodeMutationPageDigestInput [Zod] : Json JsString → Option Bytes :=
  parsedDigestInput mutationPageSchema "GOODDEALER-WORKSPACE-MUTATION-PAGE-V2"
    (Json.without "pageDigest")

/-- `encodeDomainAssetProjectionDigestInput`. -/
def encodeDomainAssetProjectionDigestInput [Zod] : Json JsString → Option Bytes :=
  parsedDigestInput domainAssetProjectionSchema "GOODDEALER-WORKSPACE-DOMAIN-ASSET-V1" id

/-- `wireDigest` of a submitted mutation, as the text that `parseDigest` reads from its row. -/
def wireDigest [Zod] (sha256 : Bytes → Bytes) (mutation : Json JsString) : Option String :=
  (encodeSubmittedSyncMutationDigestInput (mutation.without "workspaceId")).map
    fun input => (sha256 input).base64Url

/-- `createHash("sha256").update(encodeMutationPageDigestInput(page)).digest("base64url")`. -/
def pageDigest [Zod] (sha256 : Bytes → Bytes) (page : Json JsString) : Option String :=
  (encodeMutationPageDigestInput page).map fun input => (sha256 input).base64Url

/-! ## Numbers of accepted values -/

theorem isSafeInteger_of_natural {n : Int} (h : 0 ≤ n ∧ n ≤ maxSafeInteger) :
    isSafeInteger n = true := by
  rw [isSafeInteger, and_eq_true, decide_eq_true_eq, decide_eq_true_eq]
  omega

/-- Keys of the schemas are ASCII. -/
def isAsciiKey (k : String) : Bool := k.toList.all fun c => decide (c.toNat < 0x80)

section

theorem safeUnsignedInteger_plain : Plain isAsciiKey isSafeInteger safeUnsignedInteger := by
  refine Plain.integerOf fun n hn => isSafeInteger_of_natural ?_
  simpa only [and_eq_true, decide_eq_true_eq] using hn

theorem safePositiveInteger_plain : Plain isAsciiKey isSafeInteger safePositiveInteger := by
  refine Plain.integerOf fun n hn => isSafeInteger_of_natural ?_
  rw [and_eq_true, decide_eq_true_eq, decide_eq_true_eq] at hn
  omega

theorem literalNumber_plain {n : Int} (h : isSafeInteger n = true) :
    Plain isAsciiKey isSafeInteger (literalNumber n) :=
  Plain.integerOf fun _ hm => beq_iff_eq.mp hm ▸ h

theorem canonicalMoneySchema_plain : Plain isAsciiKey isSafeInteger canonicalMoneySchema := by
  refine Plain.strictObject ?_
  simp only [forall_mem_cons, required]
  exact ⟨⟨by decide, .stringOf _⟩, ⟨by decide, .stringOf _⟩, forall_mem_nil _⟩

theorem domainAssetTagsSchema_plain [Zod] : Plain isAsciiKey isSafeInteger domainAssetTagsSchema :=
  .refine (.arrayOf (.stringOf _)) _

theorem changedFieldOption_plain {path : FieldPath} {value : Schema JsString}
    (h : Plain isAsciiKey isSafeInteger value) :
    Plain isAsciiKey isSafeInteger (changedFieldOption path value) := by
  refine Plain.strictObject ?_
  simp only [forall_mem_cons, required]
  exact ⟨⟨by decide, .stringOf _⟩, ⟨by decide, h⟩, forall_mem_nil _⟩

theorem changedFieldsSchema_plain [Zod] : Plain isAsciiKey isSafeInteger changedFieldsSchema := by
  refine .refine (.arrayOf (.union ?_)) _
  simp only [forall_mem_cons]
  exact ⟨changedFieldOption_plain (.nullable (.stringOf _)),
    changedFieldOption_plain (.nullable (.stringOf _)),
    changedFieldOption_plain domainAssetTagsSchema_plain,
    changedFieldOption_plain (.nullable canonicalMoneySchema_plain), forall_mem_nil _⟩

theorem operationKind_plain : Plain isAsciiKey isSafeInteger
    (union [literalText "upsert", literalText "delete"]) := by
  refine .union ?_
  simp only [forall_mem_cons]
  exact ⟨.stringOf _, .stringOf _, forall_mem_nil _⟩

theorem prefixFields_plain : ∀ p ∈ submittedSyncMutationPrefixFields,
    isAsciiKey p.name = true ∧ Plain isAsciiKey isSafeInteger p.schema := by
  simp only [submittedSyncMutationPrefixFields, forall_mem_cons, required]
  exact ⟨⟨by decide, literalNumber_plain (by decide)⟩, ⟨by decide, .stringOf _⟩, forall_mem_nil _⟩

theorem suffixFields_plain [Zod] : ∀ p ∈ submittedSyncMutationSuffixFields,
    isAsciiKey p.name = true ∧ Plain isAsciiKey isSafeInteger p.schema := by
  simp only [submittedSyncMutationSuffixFields, forall_mem_cons, required, Schema.optional]
  exact ⟨⟨by decide, safePositiveInteger_plain⟩, ⟨by decide, .stringOf _⟩, ⟨by decide, .stringOf _⟩,
    ⟨by decide, operationKind_plain⟩, ⟨by decide, .stringOf _⟩,
      ⟨by decide, safeUnsignedInteger_plain⟩,
    ⟨by decide, changedFieldsSchema_plain⟩, ⟨by decide, .stringOf _⟩,
      ⟨by decide, safePositiveInteger_plain⟩,
    ⟨by decide, safePositiveInteger_plain⟩, forall_mem_nil _⟩

theorem tenantNeutralSubmittedSyncMutationSchema_plain [Zod] :
    Plain isAsciiKey isSafeInteger tenantNeutralSubmittedSyncMutationSchema := by
  refine .refine (.strictObject ?_) _
  simp only [forall_mem_append]
  exact ⟨prefixFields_plain, suffixFields_plain⟩

theorem submittedSyncMutationSchema_plain [Zod] :
    Plain isAsciiKey isSafeInteger submittedSyncMutationSchema := by
  refine .refine (.strictObject ?_) _
  simp only [forall_mem_append, forall_mem_cons, required]
  exact ⟨prefixFields_plain, ⟨by decide, .stringOf _⟩, suffixFields_plain⟩

theorem syncMutationSchema_plain [Zod] : Plain isAsciiKey isSafeInteger syncMutationSchema := by
  refine .refine (.refine (.strictObject ?_) _) _
  simp only [syncMutationFields, forall_mem_append, forall_mem_cons, required]
  exact ⟨⟨prefixFields_plain, ⟨by decide, .stringOf _⟩, suffixFields_plain⟩,
    ⟨by decide, safePositiveInteger_plain⟩, forall_mem_nil _⟩

theorem mutationPageSchema_plain [Zod] : Plain isAsciiKey isSafeInteger mutationPageSchema := by
  refine .refine (.strictObject ?_) _
  simp only [mutationPageFields, forall_mem_cons, required]
  exact ⟨⟨by decide, literalNumber_plain (by decide)⟩, ⟨by decide, .stringOf _⟩,
    ⟨by decide, safeUnsignedInteger_plain⟩, ⟨by decide, safeUnsignedInteger_plain⟩,
    ⟨by decide, .refine (.arrayOf syncMutationSchema_plain) _⟩,
      ⟨by decide, safeUnsignedInteger_plain⟩,
    ⟨by decide, .nullable (.stringOf _)⟩, ⟨by decide, .stringOf _⟩, forall_mem_nil _⟩

theorem domainAssetProjectionSchema_plain [Zod] :
    Plain isAsciiKey isSafeInteger domainAssetProjectionSchema := by
  refine .refine (.arrayOf (.strictObject ?_)) _
  simp only [forall_mem_cons, required]
  exact ⟨⟨by decide, .stringOf _⟩, ⟨by decide, .nullable (.stringOf _)⟩,
    ⟨by decide, .nullable (.stringOf _)⟩, ⟨by decide, domainAssetTagsSchema_plain⟩,
    ⟨by decide, .nullable canonicalMoneySchema_plain⟩, forall_mem_nil _⟩

end

/-! ## Texts that are their own partner -/

section

variable {us : JsString}

theorem range_within {a b : Char} (h : b.toNat < 0xd800) : (range a b).Within (· < 0xd800) :=
  range_lt h

theorem char_within {c : Char} (h : c.toNat < 0xd800) : (char c).Within (· < 0xd800) := by
  intro n hn
  rw [beq_iff_eq.mp hn]
  exact h

theorem base64UrlClass_within : base64UrlClass.Within (· < 0xd800) := by
  intro n hn
  simp only [or_eq_true, and_eq_true, decide_eq_true_eq, beq_iff_eq] at hn
  have hbound : 'Z'.toNat < 0xd800 ∧ 'z'.toNat < 0xd800 ∧ '9'.toNat < 0xd800 ∧ '_'.toNat < 0xd800 ∧
      '-'.toNat < 0xd800 := by decide
  omega

theorem alnum_lt {n : Nat} (h : alnum n = true) : n < 0xd800 := by
  have hbound : 'z'.toNat < 0xd800 ∧ '9'.toNat < 0xd800 := by decide
  simp only [alnum, or_eq_true, and_eq_true, decide_eq_true_eq] at h
  omega

theorem domainLabel_within : domainLabel.Within (· < 0xd800) := by
  have hinner : (Regex.cls fun n => alnum n || n == '-'.toNat).Within (· < 0xd800) := by
    intro n hn
    rcases Bool.or_eq_true_iff.mp hn with hn | hn
    · exact alnum_lt hn
    · exact char_within (by decide) n hn
  have halnum : (Regex.cls alnum).Within (· < 0xd800) := fun _ => alnum_lt
  exact ⟨halnum, ⟨hinner.upTo 61, halnum⟩, trivial⟩

theorem digit_within : digit.Within (· < 0xd800) := range_within (by decide)

theorem timestampPattern_within : timestampPattern.Within (· < 0xd800) := by
  have hc : ∀ {c : Char}, c.toNat < 0xd800 → (char c).Within (· < 0xd800) := fun h => char_within h
  have hr : ∀ {a b : Char}, b.toNat < 0xd800 → (range a b).Within (· < 0xd800) :=
    fun h => range_within h
  have hmonth : monthPattern.Within (· < 0xd800) :=
    ⟨⟨hc (by decide), hr (by decide)⟩, hc (by decide), hr (by decide)⟩
  have hday : dayPattern.Within (· < 0xd800) :=
    ⟨⟨hc (by decide), hr (by decide)⟩, ⟨hr (by decide), digit_within⟩, hc (by decide),
      hr (by decide)⟩
  have hhour : hourPattern.Within (· < 0xd800) :=
    ⟨⟨hr (by decide), digit_within⟩, hc (by decide), hr (by decide)⟩
  have hsixty : sixtyPattern.Within (· < 0xd800) := ⟨hr (by decide), digit_within⟩
  exact ⟨digit_within.exactly 4, hc (by decide), hmonth, hc (by decide), hday, hc (by decide),
    hhour, hc (by decide), hsixty, hc (by decide), hsixty, hc (by decide)⟩

theorem exact_identifier (h : identifier us = true) : Exact us := by
  rw [identifier, and_eq_true] at h
  have hclass : (range '!' '~').Within (· < 0xd800) := range_within (by decide)
  refine exact_of_test ?_ h.2
  exact ⟨hclass, hclass⟩

theorem exact_sha256DigestSchema (h : sha256DigestSchema us = true) : Exact us := by
  rw [sha256DigestSchema, and_eq_true] at h
  exact exact_of_test (base64UrlClass_within.exactly 43) h.2

theorem exact_mutationCursorSchema (h : mutationCursorSchema us = true) : Exact us := by
  rw [mutationCursorSchema, and_eq_true] at h
  refine exact_of_test ?_ h.2
  exact ⟨base64UrlClass_within, base64UrlClass_within⟩

theorem exact_domainAssetIdSchema (h : domainAssetIdSchema us = true) : Exact us := by
  rw [domainAssetIdSchema, and_eq_true] at h
  have hdot : (char '.').Within (· < 0xd800) := char_within (by decide)
  have hlabel := domainLabel_within
  have hwithin : (Regex.seq (Regex.plus (Regex.seq domainLabel (char '.'))) domainLabel).Within
      (· < 0xd800) := ⟨⟨⟨hlabel, hdot⟩, hlabel, hdot⟩, hlabel⟩
  exact exact_of_test hwithin (by rw [test_eq_testUnicode hwithin]; exact h.2)

theorem exact_amountSchema (h : amountSchema us = true) : Exact us := by
  have hnonzero : (range '1' '9').Within (· < 0xd800) := range_within (by decide)
  refine exact_of_test ?_ h
  exact ⟨⟨char_within (by decide), hnonzero, digit_within.upTo 15⟩,
    ⟨char_within (by decide), digit_within.upTo 7, hnonzero⟩, trivial⟩

/-- ASCII text. -/
theorem exact_js {s : String} (h : isAsciiKey s = true) : Exact (js s) := by
  refine exact_of_lt fun n hn => ?_
  rw [codePoints_js] at hn
  obtain ⟨c, hc, rfl⟩ := mem_map.mp hn
  have hlt := of_decide_eq_true (all_eq_true.mp h c hc)
  omega

end

/-! ## The partner of an accepted value is accepted -/

section

theorem stringOf_fixes {p : JsString → Bool} (h : ∀ us, p us = true → Exact us) :
    Fixes exchange (stringOf p) :=
  .stringOf fun us hus => exchange_eq_self.mpr (h us hus)

theorem literalText_fixes {t : String} (h : isAsciiKey t = true) :
    Fixes exchange (literalText t) :=
  stringOf_fixes fun _ hus => beq_iff_eq.mp hus ▸ exact_js h

theorem canonicalMoneySchema_keeps : Keeps exchange canonicalMoneySchema := by
  refine .strictObject ?_
  simp only [forall_mem_cons, required]
  exact ⟨(stringOf_fixes fun _ => exact_of_test ((range_within (by decide)).exactly 3)).keeps,
    (stringOf_fixes fun _ => exact_amountSchema).keeps, forall_mem_nil _⟩

/-- No format character is a surrogate or U+FFFD. -/
theorem isFormatPoint_valid {n : Nat} (h : isFormatPoint n = true) :
    n.isValidChar ∧ n ≠ replacement := by
  have hranges : ∀ r ∈ formatRanges, r.2 < 0xd800 ∨ 0xdfff < r.1 ∧ r.2 < 0xfffd ∨
      0xfffd < r.1 ∧ r.2 < 0x110000 := by decide
  rw [isFormatPoint, any_eq_true] at h
  obtain ⟨r, hr, hn⟩ := h
  have hrange := hranges r hr
  simp only [and_eq_true, decide_eq_true_eq] at hn
  simp only [Nat.isValidChar, replacement]
  omega

theorem control_valid {n : Nat} (h : n ≤ 0x9f) : n.isValidChar ∧ n ≠ replacement := by
  simp only [Nat.isValidChar, replacement]
  omega

theorem textLength_exchange [Zod] (us : JsString) :
    textLength (exchange us) = textLength us := by
  rw [textLength, textLength, length_exchange, codePoints_exchange,
    ← (exchangePoints_forall₂ _).length_eq]

theorem domainAssetNoteSchema_keeps [Zod] : Keeps exchange (stringOf domainAssetNoteSchema) := by
  refine .stringOf fun us hus => ?_
  have hclass :
      ∀ n, (isFormatPoint n || isNoteControl n) = true → n.isValidChar ∧ n ≠ replacement := by
    intro n hn
    rcases Bool.or_eq_true_iff.mp hn with hn | hn
    · exact isFormatPoint_valid hn
    · simp only [isNoteControl, or_eq_true, and_eq_true, decide_eq_true_eq, beq_iff_eq] at hn
      exact control_valid (by omega)
  rw [domainAssetNoteSchema] at hus ⊢
  rwa [textLength_exchange, any_exchange hclass]

/-- White space at the ends stays where it is. -/
theorem trim_exchange (us : JsString) : trim (exchange us) = exchange us ↔ trim us = us := by
  refine trimEnds_congr (map_exchange (fun u hu => ?_) us)
  simp only [isTrimmedUnit, or_eq_true, and_eq_true, decide_eq_true_eq, beq_iff_eq] at hu
  simp only [Nat.isValidChar, replacement]
  omega

theorem domainAssetTagSchema_keeps [Zod] : Keeps exchange (stringOf domainAssetTagSchema) := by
  refine .stringOf fun us hus => ?_
  have hclass :
      ∀ n, (isControlPoint n || isFormatPoint n) = true → n.isValidChar ∧ n ≠ replacement := by
    intro n hn
    rcases Bool.or_eq_true_iff.mp hn with hn | hn
    · simp only [isControlPoint, or_eq_true, and_eq_true, decide_eq_true_eq] at hn
      exact control_valid (by omega)
    · exact isFormatPoint_valid hn
  simp only [domainAssetTagSchema, and_eq_true, beq_iff_eq] at hus ⊢
  rwa [textLength_exchange, any_exchange hclass, trim_exchange]

/-- Lists in byte order stay in order. -/
theorem adjacent_exchange (l : List JsString) :
    adjacent (fun a b => decide (compareUtf8 a b < 0)) (l.map exchange) =
      adjacent (fun a b => decide (compareUtf8 a b < 0)) l := by
  rw [Bool.eq_iff_iff, adjacent_iff, adjacent_iff, isChain_map]
  simp only [compareUtf8, textEncode_exchange]
  exact Iff.rfl

variable (f : JsString → JsString)

theorem filterMap_text?_map (vs : List (Json JsString)) :
    (vs.map (Json.map f)).filterMap Json.text? = (vs.filterMap Json.text?).map f := by
  rw [filterMap_map, map_filterMap]
  refine filterMap_congr fun v _ => ?_
  cases v <;> rfl

theorem filterMap_textOf_map (k : String) (vs : List (Json JsString)) :
    (vs.map (Json.map f)).filterMap (Json.textOf k) = (vs.filterMap (Json.textOf k)).map f := by
  rw [filterMap_map, map_filterMap]
  refine filterMap_congr fun v _ => ?_
  rw [Function.comp_apply, Json.textOf_map]

theorem domainAssetTagsSchema_keeps [Zod] : Keeps exchange domainAssetTagsSchema := by
  refine .refine (.arrayOf domainAssetTagSchema_keeps) fun v _ hp => ?_
  rwa [Json.items_map, length_map, filterMap_text?_map, adjacent_exchange]

theorem changedFieldOption_keeps {path : FieldPath} {value : Schema JsString}
    (h : Keeps exchange value) : Keeps exchange (changedFieldOption path value) := by
  refine .strictObject ?_
  simp only [forall_mem_cons, required]
  exact ⟨(literalText_fixes (by cases path <;> decide)).keeps, h, forall_mem_nil _⟩

variable {v : Json JsString}

/-- The path of a changed field is one of four literals. -/
theorem textOf_fieldPath [Zod] (h : domainAssetChangedFieldSchema v = true) :
    ∃ path : FieldPath, v.textOf "fieldPath" = some (js path.wire) := by
  have hoption : ∀ {path : FieldPath} {value : Schema JsString},
      changedFieldOption path value v = true → v.textOf "fieldPath" = some (js path.wire) := by
    intro path value hv
    obtain ⟨w, hw, hliteral⟩ := field_of_required hv mem_cons_self
    cases w with
    | string s => rw [Json.textOf, hw, Option.bind_some, Json.text?, beq_iff_eq.mp hliteral]
    | _ => cases hliteral
  rw [domainAssetChangedFieldSchema, union, any_eq_true] at h
  obtain ⟨S, hS, hv⟩ := h
  simp only [mem_cons, not_mem_nil, or_false] at hS
  rcases hS with rfl | rfl | rfl | rfl
  · exact ⟨_, hoption hv⟩
  · exact ⟨_, hoption hv⟩
  · exact ⟨_, hoption hv⟩
  · exact ⟨_, hoption hv⟩

theorem changedFieldsSchema_keeps [Zod] : Keeps exchange changedFieldsSchema := by
  have hfield : Keeps exchange domainAssetChangedFieldSchema := by
    refine .union ?_
    simp only [forall_mem_cons]
    exact ⟨changedFieldOption_keeps (.nullable domainAssetNoteSchema_keeps),
      changedFieldOption_keeps (.nullable (stringOf_fixes fun _ => exact_identifier).keeps),
      changedFieldOption_keeps domainAssetTagsSchema_keeps,
      changedFieldOption_keeps (.nullable canonicalMoneySchema_keeps), forall_mem_nil _⟩
  refine .refine (.arrayOf hfield) fun v hv hp => ?_
  -- the paths are literals, which are left alone
  have hpaths : (v.items.filterMap (Json.textOf "fieldPath")).map exchange =
      v.items.filterMap (Json.textOf "fieldPath") := by
    rw [map_filterMap]
    refine filterMap_congr fun w hw => ?_
    have haccepted : domainAssetChangedFieldSchema w = true := by
      cases v with
      | array vs => exact all_eq_true.mp hv w hw
      | _ => cases hw
    obtain ⟨path, hpath⟩ := textOf_fieldPath haccepted
    rw [hpath, Option.map_some, exchange_eq_self.mpr (exact_js (by cases path <;> decide))]
  rwa [Json.items_map, length_map, filterMap_textOf_map, hpaths]

theorem prefixFields_keeps : ∀ p ∈ submittedSyncMutationPrefixFields, Keeps exchange p.schema := by
  simp only [submittedSyncMutationPrefixFields, forall_mem_cons, required]
  exact ⟨.integerOf _, (stringOf_fixes fun _ => exact_identifier).keeps, forall_mem_nil _⟩

theorem operationKind_fixes :
    Fixes exchange (union [literalText "upsert", literalText "delete"]) := by
  intro v hv
  simp only [union, any_cons, any_nil, Bool.or_false, or_eq_true] at hv
  rcases hv with hv | hv
  · exact literalText_fixes (by decide) v hv
  · exact literalText_fixes (by decide) v hv

theorem suffixFields_keeps [Zod] :
    ∀ p ∈ submittedSyncMutationSuffixFields, Keeps exchange p.schema := by
  simp only [submittedSyncMutationSuffixFields, forall_mem_cons, required, Schema.optional]
  exact ⟨.integerOf _, (literalText_fixes (by decide)).keeps,
    (stringOf_fixes fun _ => exact_domainAssetIdSchema).keeps, operationKind_fixes.keeps,
    (stringOf_fixes fun _ h => exact_of_test timestampPattern_within
      (Bool.and_eq_true_iff.mp h).1).keeps, .integerOf _,
    changedFieldsSchema_keeps, (stringOf_fixes fun _ => exact_identifier).keeps, .integerOf _,
    .integerOf _, forall_mem_nil _⟩

/-- The kind of an accepted mutation is a literal, and the other tests do not look at texts. -/
theorem validateSubmittedSyncMutation_exchange {ps : List (Property JsString)}
    (hkind : required "operationKind" (union [literalText "upsert", literalText "delete"]) ∈ ps)
    (hv : strictObject ps v = true) :
    validateSubmittedSyncMutation (v.map exchange) = validateSubmittedSyncMutation v := by
  obtain ⟨w, hw, haccepted⟩ := field_of_required hv hkind
  have htext : (v.map exchange).textOf "operationKind" = v.textOf "operationKind" := by
    rw [Json.textOf, Json.field_map, hw, Option.map_some, operationKind_fixes w haccepted, ← hw]
    rfl
  rw [validateSubmittedSyncMutation, validateSubmittedSyncMutation, htext, Json.itemsOf_map,
    Json.field_map, isEmpty_map, Option.isNone_map, Option.isSome_map]

theorem operationKind_mem [Zod] : required "operationKind"
    (union [literalText "upsert", literalText "delete"]) ∈ submittedSyncMutationSuffixFields := by
  simp only [submittedSyncMutationSuffixFields, mem_cons, true_or, or_true]

theorem tenantNeutralSubmittedSyncMutationSchema_keeps [Zod] :
    Keeps exchange tenantNeutralSubmittedSyncMutationSchema := by
  refine .refine (.strictObject ?_) fun v hv hp => ?_
  · simp only [forall_mem_append]
    exact ⟨prefixFields_keeps, suffixFields_keeps⟩
  · rwa [validateSubmittedSyncMutation_exchange (mem_append_right _ operationKind_mem) hv]

theorem submittedSyncMutationSchema_keeps [Zod] : Keeps exchange submittedSyncMutationSchema := by
  refine .refine (.strictObject ?_) fun v hv hp => ?_
  · simp only [forall_mem_append, forall_mem_cons, required]
    exact ⟨prefixFields_keeps, (stringOf_fixes fun _ => exact_identifier).keeps, suffixFields_keeps⟩
  · rwa [validateSubmittedSyncMutation_exchange
      (mem_append_right _ (mem_cons_of_mem _ operationKind_mem)) hv]

theorem integerAt_map (k : String) (v : Json JsString) : integerAt k (v.map f) = integerAt k v := by
  rw [integerAt, integerAt, Json.numberOf_map]

theorem syncMutationSchema_keeps [Zod] : Keeps exchange syncMutationSchema := by
  refine .refine (.refine (.strictObject ?_) fun v hv hp => ?_) fun v _ hp => ?_
  · simp only [syncMutationFields, forall_mem_append, forall_mem_cons, required]
    exact ⟨⟨prefixFields_keeps, (stringOf_fixes fun _ => exact_identifier).keeps,
      suffixFields_keeps⟩, .integerOf _, forall_mem_nil _⟩
  · rwa [validateSubmittedSyncMutation_exchange (mem_append_left _ (mem_append_right _
      (mem_cons_of_mem _ operationKind_mem))) hv]
  · rwa [integerAt_map, integerAt_map]

/-- Workspaces that are equal stay equal, and the revisions are numbers. -/
theorem contiguous_map {workspaceId : Option JsString} {expected : Int}
    {ms : List (Json JsString)} (h : contiguous workspaceId expected ms = true) :
    contiguous (workspaceId.map f) expected (ms.map (Json.map f)) = true := by
  induction ms generalizing expected with
  | nil => rfl
  | cons m ms ih =>
    simp only [contiguous, and_eq_true, decide_eq_true_eq] at h
    obtain ⟨⟨hworkspace, hrevision⟩, hrest⟩ := h
    simp only [map_cons, contiguous, and_eq_true, decide_eq_true_eq]
    exact ⟨⟨by rw [Json.textOf_map, hworkspace], by rw [integerAt_map, hrevision]⟩, ih hrest⟩

theorem returnedRevision_map (v : Json JsString) :
    returnedRevision (v.map f) = returnedRevision v := by
  rw [returnedRevision, returnedRevision, Json.itemsOf_map, List.getLast?_map]
  cases (v.itemsOf "mutations").getLast? with
  | none => exact integerAt_map f _ v
  | some m => exact integerAt_map f _ m

theorem validateMutationPage_map
    (h : validateMutationPage v = true) : validateMutationPage (v.map f) = true := by
  simp only [validateMutationPage, and_eq_true] at h ⊢
  obtain ⟨⟨⟨⟨hfrom, hcontiguous⟩, hreturned⟩, hthrough⟩, hcursor⟩ := h
  rw [integerAt_map, integerAt_map, integerAt_map, Json.textOf_map, Json.textOf_map,
    Json.itemsOf_map, returnedRevision_map]
  refine ⟨⟨⟨⟨hfrom, contiguous_map f hcontiguous⟩, hreturned⟩, hthrough⟩, ?_⟩
  cases hnext : v.textOf "nextCursor" with
  | none | some c => rw [hnext] at hcursor; exact hcursor

theorem mutationPageSchema_keeps [Zod] : Keeps exchange mutationPageSchema := by
  refine .refine (.strictObject ?_) fun v _ hp => validateMutationPage_map exchange hp
  simp only [mutationPageFields, forall_mem_cons, required]
  refine ⟨.integerOf _, (stringOf_fixes fun _ => exact_identifier).keeps, .integerOf _,
    .integerOf _, .refine (.arrayOf syncMutationSchema_keeps) fun v _ hp => ?_, .integerOf _,
    .nullable (stringOf_fixes fun _ => exact_mutationCursorSchema).keeps,
    (stringOf_fixes fun _ => exact_sha256DigestSchema).keeps, forall_mem_nil _⟩
  rwa [Json.items_map, length_map]

theorem domainAssetProjectionSchema_keeps [Zod] : Keeps exchange domainAssetProjectionSchema := by
  refine .refine (.arrayOf (.strictObject ?_)) fun v _ hp => ?_
  · simp only [forall_mem_cons, required]
    exact ⟨(stringOf_fixes fun _ => exact_domainAssetIdSchema).keeps,
      .nullable domainAssetNoteSchema_keeps,
        .nullable (stringOf_fixes fun _ => exact_identifier).keeps,
      domainAssetTagsSchema_keeps, .nullable canonicalMoneySchema_keeps, forall_mem_nil _⟩
  · rwa [Json.items_map, filterMap_textOf_map, adjacent_exchange]

end

/-! ## Injectivity -/

/-- The schemas of mutations, pages and projections. -/
def syncSchemas [Zod] : List (Schema JsString) :=
  [tenantNeutralSubmittedSyncMutationSchema, submittedSyncMutationSchema, syncMutationSchema,
   mutationPageSchema, domainAssetProjectionSchema]

/-- A mutation, a page or a projection that its schema accepts. -/
def Accepted [Zod] (v : Json JsString) : Prop := ∃ S ∈ syncSchemas, S v = true

/-- Equal up to the order of keys. -/
def SameContent (w v : Json JsString) : Prop := w.sortKeys js = v.sortKeys js

variable {v w : Json JsString} {t : Transcript}

theorem Accepted.plain [Zod] (h : Accepted v) : v.allOf isAsciiKey isSafeInteger = true := by
  obtain ⟨S, hS, hv⟩ := h
  simp only [syncSchemas, mem_cons, not_mem_nil, or_false] at hS
  rcases hS with rfl | rfl | rfl | rfl | rfl
  · exact tenantNeutralSubmittedSyncMutationSchema_plain v hv
  · exact submittedSyncMutationSchema_plain v hv
  · exact syncMutationSchema_plain v hv
  · exact mutationPageSchema_plain v hv
  · exact domainAssetProjectionSchema_plain v hv

theorem Accepted.exchange [Zod] (h : Accepted v) : Accepted (v.map exchange) := by
  obtain ⟨S, hS, hv⟩ := h
  refine ⟨S, hS, ?_⟩
  simp only [syncSchemas, mem_cons, not_mem_nil, or_false] at hS
  rcases hS with rfl | rfl | rfl | rfl | rfl
  · exact tenantNeutralSubmittedSyncMutationSchema_keeps v hv
  · exact submittedSyncMutationSchema_keeps v hv
  · exact syncMutationSchema_keeps v hv
  · exact mutationPageSchema_keeps v hv
  · exact domainAssetProjectionSchema_keeps v hv

/-- The codec does not throw on an accepted value. -/
theorem encode_of_plain (h : v.allOf isAsciiKey isSafeInteger = true) :
    encodeCanonicalWireValue v = some (canonicalBytes v) := by
  rw [encodeCanonicalWireValue_eq]
  exact if_pos (Json.allOf_mono (fun _ _ => rfl) (fun _ hn => hn) v h)

theorem canonicalBytes_eq (v : Json JsString) :
    canonicalBytes v = write ((v.map textEncode).sortKeys js) := encode_eq js textEncode v

theorem eq_canonicalBytes {a : Bytes} (h : encodeCanonicalWireValue v = some a) :
    a = canonicalBytes v := by
  rw [encodeCanonicalWireValue_eq] at h
  split at h
  · exact (Option.some.inj h).symm
  · cases h

/-- No encoding is a proper initial part of another one. -/
theorem encode_initial {a b : Bytes}
    (ha : encodeCanonicalWireValue v = some a) (hb : encodeCanonicalWireValue w = some b)
    (h : a <+: b) : a = b := by
  obtain ⟨rest, hrest⟩ := h
  rw [eq_canonicalBytes ha, eq_canonicalBytes hb, canonicalBytes_eq, canonicalBytes_eq] at hrest ⊢
  exact (write_append_inj (by rw [hrest, append_nil])).1

/-- A value with exact texts is determined by its bytes. -/
theorem sameContent_of_canonicalBytes (hv : ∀ s ∈ v.texts, Exact s)
    (h : canonicalBytes w = canonicalBytes v) : SameContent w v := by
  rw [canonicalBytes_eq, canonicalBytes_eq] at h
  have h := write_inj _ _ h
  rw [Json.map_sortKeys, Json.map_sortKeys] at h
  refine Json.map_inj textEncode _ _ (fun s hs s' heq => ?_) h
  exact textEncode_inj (hv s ((Json.mem_texts_sortKeys js s v).mp hs)) heq

/-- The partner has the same bytes. -/
theorem canonicalBytes_exchange (v : Json JsString) :
    canonicalBytes (v.map exchange) = canonicalBytes v := by
  have htext : textEncode ∘ exchange = textEncode := funext textEncode_exchange
  rw [canonicalBytes_eq, canonicalBytes_eq, Json.map_map, htext]

/-- Only a value with exact texts is its own partner. -/
theorem exact_of_sameContent (h : SameContent (v.map exchange) v) : ∀ s ∈ v.texts, Exact s := by
  rw [SameContent, Json.map_sortKeys] at h
  intro s hs
  exact exchange_eq_self.mp
    (Json.texts_of_map_eq exchange _ h s ((Json.mem_texts_sortKeys js s v).mpr hs))

/-- The bytes belong to one accepted value exactly when its texts are exact. -/
theorem encode_inj_iff [Zod] (hv : Accepted v) :
    (∀ w, Accepted w → encodeCanonicalWireValue w = encodeCanonicalWireValue v → SameContent w v) ↔
      ∀ s ∈ v.texts, Exact s := by
  constructor
  · intro h
    refine exact_of_sameContent (h _ hv.exchange ?_)
    rw [encode_of_plain hv.plain, encode_of_plain hv.exchange.plain, canonicalBytes_exchange]
  · intro hexact w hw heq
    rw [encode_of_plain hw.plain, encode_of_plain hv.plain] at heq
    exact sameContent_of_canonicalBytes hexact (Option.some.inj heq)

/-! ## Digests -/

/-- What a sync digest is taken of. -/
inductive Transcript where
  | mutation
  | page
  | projection

namespace Transcript

def schema [Zod] : Transcript → Schema JsString
  | mutation => tenantNeutralSubmittedSyncMutationSchema
  | page => mutationPageSchema
  | projection => domainAssetProjectionSchema

/-- What the digest covers. -/
def content : Transcript → Json JsString → Json JsString
  | mutation => id
  | page => Json.without "pageDigest"
  | projection => id

def domain : Transcript → String
  | mutation => "GOODDEALER-WORKSPACE-MUTATION-V2"
  | page => "GOODDEALER-WORKSPACE-MUTATION-PAGE-V2"
  | projection => "GOODDEALER-WORKSPACE-DOMAIN-ASSET-V1"

def input [Zod] : Transcript → Json JsString → Option Bytes
  | mutation => encodeSubmittedSyncMutationDigestInput
  | page => encodeMutationPageDigestInput
  | projection => encodeDomainAssetProjectionDigestInput

theorem input_eq [Zod] (t : Transcript) (v : Json JsString) :
    t.input v = parsedDigestInput t.schema t.domain t.content v := by
  cases t <;> rfl

theorem accepted [Zod] (h : t.schema v = true) : Accepted v := by
  refine ⟨t.schema, ?_, h⟩
  cases t <;> simp only [schema, syncSchemas, mem_cons, true_or, or_true]

theorem keeps [Zod] (t : Transcript) : Keeps exchange t.schema := by
  cases t with
  | mutation => exact tenantNeutralSubmittedSyncMutationSchema_keeps
  | page => exact mutationPageSchema_keeps
  | projection => exact domainAssetProjectionSchema_keeps

end Transcript

theorem Transcript.content_map (t : Transcript) (f : JsString → JsString) (v : Json JsString) :
    t.content (v.map f) = (t.content v).map f := by
  cases t with
  | mutation => rfl
  | page => exact Json.without_map _ f v
  | projection => rfl

theorem Transcript.content_plain (t : Transcript) (h : v.allOf isAsciiKey isSafeInteger = true) :
    (t.content v).allOf isAsciiKey isSafeInteger = true := by
  cases t with
  | mutation => exact h
  | page => exact Json.allOf_without h
  | projection => exact h

theorem Transcript.input_of_schema [Zod] (h : t.schema v = true) :
    t.input v =
      some (frame 'd' (textEncode (js t.domain)) ++ frame 'v' (canonicalBytes (t.content v))) := by
  rw [input_eq, parsedDigestInput, if_pos h, encodeDomainSeparatedWireValue,
    encode_of_plain (t.content_plain (accepted h).plain), Option.map_some]

/-- A digest belongs to one content exactly when the texts it covers are exact. -/
theorem Transcript.digest_inj_iff [Zod] {sha256 : Bytes → Bytes} (hsha : Function.Injective sha256)
    (hv : t.schema v = true) :
    (∀ w, t.schema w = true → (t.input w).map sha256 = (t.input v).map sha256 →
      SameContent (t.content w) (t.content v)) ↔ ∀ s ∈ (t.content v).texts, Exact s := by
  constructor
  · intro h
    have hpartner := h _ (t.keeps v hv) (by
      rw [input_of_schema hv, input_of_schema (t.keeps v hv), content_map, canonicalBytes_exchange])
    rw [content_map] at hpartner
    exact exact_of_sameContent hpartner
  · intro hexact w hw heq
    rw [input_of_schema hv, input_of_schema hw] at heq
    have hbytes := hsha (Option.some.inj heq)
    obtain ⟨-, -, hvalue⟩ := frame_append_inj hbytes
    exact sameContent_of_canonicalBytes hexact (frame_inj hvalue).2

/-! ## Which values have bytes of their own -/

/-- A mutation that sets the note of `a.com`. -/
def noteMutation (note : JsString) : Json JsString :=
  .object [("schemaVersion", .number 2), ("mutationId", .string (js "m1")),
    ("workspaceSchemaVersion", .number 1), ("entityType", .string (js "domain_asset")),
    ("entityId", .string (js "a.com")), ("operationKind", .string (js "upsert")),
    ("baseServerRevision", .number 0),
    ("changedFields",
      .array [.object [("fieldPath", .string (js "note")), ("value", .string note)]]),
    ("sourceDeviceId", .string (js "d1")), ("activeLeaseEpoch", .number 1),
    ("deviceMutationSequence", .number 1)]

/-- No encoding is an initial part of another one, and a value that a sync schema accepts
is the only one with its bytes, and the only one with its digest, exactly when every text
in it is exact: no surrogate without its partner and no U+FFFD. -/
theorem canonicalWire_injective_iff [Zod] (v : Json JsString) :
    (∀ w a b, encodeCanonicalWireValue v = some a → encodeCanonicalWireValue w = some b →
      a <+: b → a = b) ∧
    (Accepted v →
      ((∀ w, Accepted w → encodeCanonicalWireValue w = encodeCanonicalWireValue v →
        SameContent w v) ↔ ∀ s ∈ v.texts, Exact s)) ∧
    (∀ sha256 : Bytes → Bytes, Function.Injective sha256 → ∀ t : Transcript, t.schema v = true →
      ((∀ w, t.schema w = true → (t.input w).map sha256 = (t.input v).map sha256 →
        SameContent (t.content w) (t.content v)) ↔ ∀ s ∈ (t.content v).texts, Exact s)) := by
  refine ⟨fun w a b => encode_initial, encode_inj_iff, ?_⟩
  intro sha256 hsha t hv
  exact Transcript.digest_inj_iff hsha hv

attribute [local instance] codePointZod

theorem canonicalWire_injective_iff_sample :
    (∀ w, Accepted w →
      encodeCanonicalWireValue w = encodeCanonicalWireValue (noteMutation (js "x")) →
      SameContent w (noteMutation (js "x"))) ∧
    (∀ w, tenantNeutralSubmittedSyncMutationSchema w = true →
      (encodeSubmittedSyncMutationDigestInput w).map id =
        (encodeSubmittedSyncMutationDigestInput (noteMutation (js "x"))).map id →
      SameContent w (noteMutation (js "x"))) := by
  have haccepted : Transcript.mutation.schema (noteMutation (js "x")) = true := by decide +kernel
  have hexact : ∀ s ∈ (noteMutation (js "x")).texts, Exact s := by decide +kernel
  obtain ⟨-, hbytes, hdigest⟩ := canonicalWire_injective_iff (noteMutation (js "x"))
  exact ⟨(hbytes (Transcript.accepted haccepted)).mpr hexact,
    (hdigest id Function.injective_id .mutation haccepted).mpr hexact⟩

/-- The note `"\uD800"` and the note U+FFFD make different mutations with the same bytes and
the same digest input. -/
theorem canonicalWire_not_injective :
    Accepted (noteMutation [0xd800]) ∧ Accepted (noteMutation [0xfffd]) ∧
    encodeCanonicalWireValue (noteMutation [0xfffd]) =
      encodeCanonicalWireValue (noteMutation [0xd800]) ∧
    encodeSubmittedSyncMutationDigestInput (noteMutation [0xfffd]) =
      encodeSubmittedSyncMutationDigestInput (noteMutation [0xd800]) ∧
    ¬ SameContent (noteMutation [0xfffd]) (noteMutation [0xd800]) := by
  have hpartner : (noteMutation [0xd800]).map exchange = noteMutation [0xfffd] := rfl
  have hv : Transcript.mutation.schema (noteMutation [0xd800]) = true := by decide +kernel
  have hw : Transcript.mutation.schema (noteMutation [0xfffd]) = true := by decide +kernel
  have haccepted := Transcript.accepted hv
  have hbytes :
      canonicalBytes (noteMutation [0xfffd]) = canonicalBytes (noteMutation [0xd800]) := by
    rw [← hpartner, canonicalBytes_exchange]
  refine ⟨haccepted, Transcript.accepted hw, ?_, ?_, ?_⟩
  · rw [encode_of_plain haccepted.plain, encode_of_plain (Transcript.accepted hw).plain, hbytes]
  · have heq : Transcript.mutation.input (noteMutation [0xfffd]) =
        Transcript.mutation.input (noteMutation [0xd800]) := by
      rw [Transcript.input_of_schema hv, Transcript.input_of_schema hw]
      simp only [Transcript.content, id, hbytes]
    exact heq
  · intro hsame
    rw [← hpartner] at hsame
    exact absurd (exact_of_sameContent hsame) (by decide +kernel)

end GoodDealer.Canonical
