/-
# `GoodDealer.Protocol.Records` — records as JSON values

A desktop renders a submitted mutation as a JSON value (`json`); in transit its texts
become JavaScript strings (`map js`).  If zod counts code points, the schema of the cloud
says of the value what `SubmittedSyncMutationWire.Valid` says of the record
(`tenantNeutralSubmittedSyncMutationSchema_json`), so what is proved about valid
records holds of what the schema lets through.
-/
import GoodDealer.Protocol.Schemas

namespace GoodDealer

open Unicode Schemas Schema List

/-! ## Rendering -/

/-- The canonical text of a second. -/
def timestampText (t : Timestamp) : String :=
  String.ofList ((isoSeconds t ++ ['Z'.toNat]).map Char.ofNat)

def OperationKind.wire : OperationKind → String
  | .upsert => "upsert"
  | .delete => "delete"

/-- A value or `null`. -/
def orNull {α : Type} (f : α → Json String) : Option α → Json String
  | none => .null
  | some a => f a

def Money.json (m : Money) : Json String :=
  .object [("currency", .string m.currency), ("amount", .string m.amount)]

namespace ChangedField

/-- The text of `field_value_json`. -/
def value : ChangedField → Json String
  | note v => orNull .string v
  | portfolioId v => orNull .string v
  | tags v => .array (v.map .string)
  | targetPrice v => orNull Money.json v

def json (f : ChangedField) : Json String :=
  .object [("fieldPath", .string f.fieldPath.wire), ("value", f.value)]

end ChangedField

/-- The properties every submitted mutation has. -/
def SubmittedSyncMutationWire.properties (m : SubmittedSyncMutationWire) :
    List (String × Json String) :=
  [("schemaVersion", .number 2), ("mutationId", .string m.mutationId),
   ("workspaceSchemaVersion", .number m.workspaceSchemaVersion),
   ("entityType", .string "domain_asset"), ("entityId", .string m.entityId),
   ("operationKind", .string m.operationKind.wire),
   ("baseServerRevision", .number m.baseServerRevision),
   ("changedFields", .array (m.changedFields.map ChangedField.json)),
   ("sourceDeviceId", .string m.sourceDeviceId),
   ("activeLeaseEpoch", .number m.activeLeaseEpoch),
   ("deviceMutationSequence", .number m.deviceMutationSequence)]

def SubmittedSyncMutationWire.json (m : SubmittedSyncMutationWire) : Json String :=
  match m.deletedAt with
  | none => .object m.properties
  | some t => .object (m.properties ++ [("deletedAt", .string (timestampText t))])

/-! ## Timestamps -/

theorem isoSeconds_lt (t : Timestamp) : ∀ n ∈ isoSeconds t ++ ['Z'.toNat], n < 0x80 := by
  intro n hn
  simp only [isoSeconds, printTime, pad2, pad4, mem_append, mem_cons, not_mem_nil,
    or_false, Char.reduceToNat] at hn
  omega

theorem toNat_timestampText (t : Timestamp) :
    (timestampText t).toList.map Char.toNat = isoSeconds t ++ ['Z'.toNat] := by
  rw [timestampText, String.toList_ofList, List.map_map]
  conv_rhs => rw [← map_id (isoSeconds t ++ ['Z'.toNat])]
  refine map_congr_left fun n hn => ?_
  have hlt := isoSeconds_lt t n hn
  have hvalid : n.isValidChar := .inl (by omega)
  have hscalar :
      Char.ofNat n = scalar n := by rw [Char.ofNat, scalar, dif_pos hvalid, dif_pos hvalid]
  rw [Function.comp_apply, hscalar, toNat_scalar hvalid, id_eq]

theorem units_timestampText (t : Timestamp) :
    (js (timestampText t)).map UInt16.toNat = isoSeconds t ++ ['Z'.toNat] := by
  have hpoints : codePoints (js (timestampText t)) = isoSeconds t ++ ['Z'.toNat] := by
    rw [codePoints_js, toNat_timestampText]
  rw [map_toNat_of_lt, hpoints]
  intro n hn
  rw [hpoints] at hn
  have := isoSeconds_lt t n hn
  omega

/-! ## Changed fields -/

theorem canonicalMoneySchema_json (m : Money) :
    canonicalMoneySchema (m.json.map js) = m.valid := by
  have hcurrency := currencySchema_js m.currency
  have hamount := amountSchema_js m.amount
  simp [canonicalMoneySchema, Money.json, Json.map, Json.mapEntries, strictObject, admits, required,
    List.lookup_cons, stringOf, hcurrency, hamount, Money.valid]

theorem wire_beq (a b : FieldPath) : (js a.wire == js b.wire) = decide (a = b) := by
  cases a <;> cases b <;> decide

theorem wire_lt (a b : FieldPath) : decide (js a.wire < js b.wire) = decide (a.wire < b.wire) := by
  cases a <;> cases b <;> decide

theorem changedFieldOption_json (path : FieldPath) (S : Schema JsString) (f : ChangedField) :
    changedFieldOption path S (f.json.map js) =
      (decide (f.fieldPath = path) && S (f.value.map js)) := by
  simp [changedFieldOption, ChangedField.json, Json.map, Json.mapEntries, strictObject, admits,
    required, List.lookup_cons, literalText, stringOf, wire_beq]

theorem nullable_orNull {α : Type} (S : Schema JsString) (render : α → Json String) (p : α → Bool)
    (h : ∀ a, render a ≠ .null ∧ S ((render a).map js) = p a) (o : Option α) :
    nullable S ((orNull render o).map js) = o.all p := by
  cases o with
  | none => rfl
  | some a =>
    obtain ⟨hne, ha⟩ := h a
    rw [orNull, Option.all_some, ← ha]
    cases hr : render a with
    | null => exact absurd hr hne
    | bool | number | string | array | object => rfl

theorem domainAssetChangedFieldSchema_json [Zod] (hzod : CountsCodePoints) (f : ChangedField) :
    domainAssetChangedFieldSchema (f.json.map js) = f.valid := by
  rw [domainAssetChangedFieldSchema]
  simp only [union, any_cons, any_nil, changedFieldOption_json, Bool.or_false]
  cases f with
  | note v =>
    have hvalue := nullable_orNull (stringOf domainAssetNoteSchema) .string validNote
      (fun a => ⟨by rintro ⟨⟩, domainAssetNoteSchema_js hzod a⟩) v
    simp [ChangedField.fieldPath, ChangedField.value, ChangedField.valid, hvalue]
  | portfolioId v =>
    have hvalue := nullable_orNull (stringOf identifier) .string validIdentifier
      (fun a => ⟨by rintro ⟨⟩, identifier_js a⟩) v
    simp [ChangedField.fieldPath, ChangedField.value, ChangedField.valid, hvalue]
  | tags v =>
    have hvalue : domainAssetTagsSchema ((ChangedField.tags v).value.map js) = validTags v := by
      rw [ChangedField.value, Json.map, Json.mapItems_eq, List.map_map]
      exact domainAssetTagsSchema_js hzod v
    simp [ChangedField.fieldPath, ChangedField.valid, hvalue]
  | targetPrice v =>
    have hvalue := nullable_orNull canonicalMoneySchema Money.json Money.valid
      (fun a => ⟨by rintro ⟨⟩, canonicalMoneySchema_json a⟩) v
    simp [ChangedField.fieldPath, ChangedField.value, ChangedField.valid, hvalue]

/-- There are four paths, so ascending fields are at most four. -/
theorem length_le_of_ascending {fs : List ChangedField}
    (h : fs.Pairwise (fun a b => a.fieldPath.wire < b.fieldPath.wire)) : fs.length ≤ 4 := by
  have hnodup : (fs.map ChangedField.fieldPath).Nodup := by
    rw [nodup_iff_pairwise_ne, pairwise_map]
    refine h.imp fun hab heq => ?_
    rw [heq] at hab
    exact absurd hab (String.lt_irrefl _)
  have hsub : fs.map ChangedField.fieldPath ⊆ FieldPath.all := by
    intro p _
    cases p <;> decide
  have hle := (subperm_of_subset hnodup hsub).length_le
  rwa [length_map] at hle

theorem changedFieldsSchema_json [Zod] (hzod : CountsCodePoints) (fs : List ChangedField) :
    changedFieldsSchema ((Json.array (fs.map ChangedField.json)).map js) = true ↔
      fs.all ChangedField.valid = true ∧
        fs.Pairwise (fun a b => a.fieldPath.wire < b.fieldPath.wire) := by
  have hpaths : (fs.map fun f => (f.json.map js)).filterMap (Json.textOf "fieldPath") =
      fs.map fun f => js f.fieldPath.wire := by
    rw [filterMap_map]
    refine Eq.trans (filterMap_congr fun f _ => ?_) (congrFun filterMap_eq_map' fs)
    rfl
  have hchain : adjacent (fun a b => decide (a < b)) (fs.map fun f => js f.fieldPath.wire) = true ↔
      fs.Pairwise (fun a b => a.fieldPath.wire < b.fieldPath.wire) := by
    rw [adjacent_iff, isChain_map]
    simp only [wire_lt, decide_eq_true_eq]
    exact isChain_iff_pairwise
  rw [Json.map, Json.mapItems_eq, List.map_map]
  have hall : (fs.map (Json.map js ∘ ChangedField.json)).all domainAssetChangedFieldSchema =
      fs.all ChangedField.valid := by
    rw [all_map]
    exact congrArg fs.all (funext (domainAssetChangedFieldSchema_json hzod))
  rw [changedFieldsSchema, refine, arrayOf, hall, Bool.and_eq_true, Bool.and_eq_true,
    decide_eq_true_eq]
  change _ ∧ _ ∧ adjacent _ ((fs.map fun f => (f.json.map js)).filterMap _) = true ↔ _
  rw [hpaths, hchain, Json.items, length_map]
  exact ⟨fun h => ⟨h.1, h.2.2⟩, fun h => ⟨h.1, length_le_of_ascending h.2, h.2⟩⟩

/-! ## Mutations -/

open SubmittedSyncMutationWire (safePositive json)

theorem safePositiveInteger_json (n : Nat) : safePositiveInteger (.number n) = true ↔
    safePositive n := by
  simp only [safePositiveInteger, integerOf, safePositive,
    Bool.and_eq_true, decide_eq_true_eq]
  omega

theorem safeUnsignedInteger_json (n : Nat) : safeUnsignedInteger (.number n) = true ↔
    n ≤ maxSafeInteger := by
  simp only [safeUnsignedInteger, integerOf, Bool.and_eq_true, decide_eq_true_eq]
  omega

theorem literalText_js (s t : String) : literalText t (.string (js s)) = decide (s = t) := by
  rw [Bool.eq_iff_iff, literalText, stringOf, beq_iff_eq, decide_eq_true_eq]
  exact ⟨fun h => js_inj h, fun h => by rw [h]⟩

theorem operationKind_json (k : OperationKind) :
    union [literalText "upsert", literalText "delete"] (.string (js k.wire)) = true := by
  cases k <;> rfl

section

variable {m : SubmittedSyncMutationWire}

theorem textOf_operationKind :
    (m.json.map js).textOf "operationKind" = some (js m.operationKind.wire) := by
  rw [Json.textOf, Json.field_map]
  cases h : m.deletedAt with
  | none | some t => simp only [json, h]; rfl

theorem itemsOf_changedFields : (m.json.map js).itemsOf "changedFields" =
    m.changedFields.map (fun f => f.json.map js) := by
  rw [Json.itemsOf_map]
  cases h : m.deletedAt with
  | none | some t => simp only [json, h]; exact List.map_map

theorem field_deletedAt : (m.json.map js).field "deletedAt" =
    m.deletedAt.map (fun t => .string (js (timestampText t))) := by
  rw [Json.field_map]
  cases h : m.deletedAt with
  | none | some t => simp only [json, h]; rfl

theorem validateSubmittedSyncMutation_json :
    validateSubmittedSyncMutation (m.json.map js) = true ↔ m.Shape := by
  rw [validateSubmittedSyncMutation, textOf_operationKind, itemsOf_changedFields, field_deletedAt,
    SubmittedSyncMutationWire.Shape]
  cases m.operationKind with
  | upsert => simp [OperationKind.wire]
  | delete =>
    have hne : js OperationKind.delete.wire ≠ js "upsert" := by decide
    simp [hne, Option.isSome_iff_ne_none]

/-- The properties one by one. -/
theorem strictObject_json [Zod] (ht : ∀ t ∈ m.deletedAt, t < secondLimit) :
    strictObject (submittedSyncMutationPrefixFields ++ submittedSyncMutationSuffixFields)
        (m.json.map js) = true ↔
      validIdentifier m.mutationId = true ∧
        safePositive m.workspaceSchemaVersion ∧
        validDomainAssetId m.entityId = true ∧ m.baseServerRevision ≤ maxSafeInteger ∧
        changedFieldsSchema ((Json.array (m.changedFields.map ChangedField.json)).map js) = true ∧
        validIdentifier m.sourceDeviceId = true ∧
        safePositive m.activeLeaseEpoch ∧
        safePositive m.deviceMutationSequence := by
  have hversion : literalNumber 2 (.number 2) = true := rfl
  have htype := literalText_js "domain_asset" "domain_asset"
  have htime := fun t hdeleted =>
    canonicalUtcTimestamp_iff.mpr ⟨t, ht t hdeleted, units_timestampText t⟩
  cases hdeleted : m.deletedAt
  all_goals
    simp [json, hdeleted, SubmittedSyncMutationWire.properties, Json.map,
      Json.mapEntries, strictObject, admits, required, Schema.optional,
      submittedSyncMutationPrefixFields, submittedSyncMutationSuffixFields, List.lookup_cons,
      hversion, htype, operationKind_json, safePositiveInteger_json, safeUnsignedInteger_json,
      stringOf, identifier_js, domainAssetIdSchema_js, htime]

end

/-- The schema on the value is validity of the record. -/
theorem tenantNeutralSubmittedSyncMutationSchema_json [Zod] (hzod : CountsCodePoints)
    {m : SubmittedSyncMutationWire} (ht : ∀ t ∈ m.deletedAt, t < secondLimit) :
    tenantNeutralSubmittedSyncMutationSchema (m.json.map js) = true ↔ m.Valid := by
  rw [tenantNeutralSubmittedSyncMutationSchema, refine, Bool.and_eq_true, strictObject_json ht,
    validateSubmittedSyncMutation_json, changedFieldsSchema_json hzod]
  constructor
  · rintro ⟨⟨h₁, h₂, h₃, h₄, ⟨h₅, h₆⟩, h₇, h₈, h₉⟩, h₁₀⟩
    exact ⟨h₁, h₂, h₃, h₄, h₅, h₆, h₇, h₈, h₉, h₁₀⟩
  · rintro ⟨h₁, h₂, h₃, h₄, h₅, h₆, h₇, h₈, h₉, h₁₀⟩
    exact ⟨⟨h₁, h₂, h₃, h₄, ⟨h₅, h₆⟩, h₇, h₈, h₉⟩, h₁₀⟩

end GoodDealer
