/-
# `GoodDealer.Desktop.Wire` — the desktop's copy of the wire codec

The records that the desktop reads pages into (`serde`, with `deny_unknown_fields`), the
canonical codec written again in Rust, and the digests the desktop computes with it.

The two codecs differ in three places: the range of the numbers they accept, the order
they sort keys in (bytes here, code units there) and the text they start from.  On safe
integers, ASCII keys and well-formed text none of the three shows
(`canonicalWireValue_eq`).  A page goes through the records before it is digested, which
changes nothing but the order of its keys, since the schema lets neither a missing cursor
nor a null `deletedAt` through.
-/
import GoodDealer.Desktop.Validators
import GoodDealer.Protocol.Canonical
import Mathlib.Algebra.Group.Int.Defs

namespace GoodDealer.Desktop

open Unicode Framing Schema Schemas Canonical List
open Bool (and_eq_true)

/-! ## Records -/

structure SyncChangedFieldV2 where
  fieldPath : String
  value : Json String

structure SyncMutationV2 where
  schemaVersion : Nat
  mutationId : String
  workspaceId : String
  workspaceSchemaVersion : Nat
  entityType : String
  entityId : String
  operationKind : String
  deletedAt : Option String
  baseServerRevision : Nat
  changedFields : List SyncChangedFieldV2
  sourceDeviceId : String
  activeLeaseEpoch : Nat
  deviceMutationSequence : Nat
  serverRevision : Nat

structure SyncPageV2 where
  schemaVersion : Nat
  workspaceId : String
  fromServerRevisionExclusive : Nat
  throughServerRevisionInclusive : Nat
  mutations : List SyncMutationV2
  returnedThroughServerRevision : Nat
  nextCursor : Option String
  pageDigest : String

/-- A `u8` or `u64` below the bound. -/
def readUnsigned (bound : Nat) : Json String → Option Nat
  | .number n => if 0 ≤ n ∧ n < bound then some n.toNat else none
  | _ => none

def readU8 : Json String → Option Nat := readUnsigned 256

def readU64 : Json String → Option Nat := readUnsigned (2 ^ 64)

/-- An `Option<String>`; a missing property is `None`. -/
def readOptional : Option (Json String) → Option (Option String)
  | none | some .null => some none
  | some (.string s) => some (some s)
  | some _ => none

def readVec {α : Type} (read : Json String → Option α) : Json String → Option (List α)
  | .array vs => vs.mapM read
  | _ => none

/-- A property that has to be there. -/
def readField {α : Type} (read : Json String → Option α) (k : String) (v : Json String) :
    Option α :=
  (v.field k).bind read

/-- `deny_unknown_fields`; a property given twice is refused as well. -/
def knownFields (names : List String) : Json String → Bool
  | .object es => decide (es.map Prod.fst).Nodup && es.all (fun e => names.contains e.1)
  | _ => false

def SyncChangedFieldV2.names : List String := ["fieldPath", "value"]

def SyncChangedFieldV2.deserialize (v : Json String) : Option SyncChangedFieldV2 :=
  if knownFields names v = true then do
    let fieldPath ← readField Json.text? "fieldPath" v
    let value ← v.field "value"
    pure { fieldPath, value }
  else none

def SyncMutationV2.names : List String :=
  ["schemaVersion", "mutationId", "workspaceId", "workspaceSchemaVersion", "entityType", "entityId",
   "operationKind", "deletedAt", "baseServerRevision", "changedFields", "sourceDeviceId",
   "activeLeaseEpoch", "deviceMutationSequence", "serverRevision"]

/-- A mutation, with the rule for its optional property. -/
def readMutation (readDeletedAt : Option (Json String) → Option (Option String)) (v : Json String) :
    Option SyncMutationV2 :=
  if knownFields SyncMutationV2.names v = true then do
    let schemaVersion ← readField readU8 "schemaVersion" v
    let mutationId ← readField Json.text? "mutationId" v
    let workspaceId ← readField Json.text? "workspaceId" v
    let workspaceSchemaVersion ← readField readU64 "workspaceSchemaVersion" v
    let entityType ← readField Json.text? "entityType" v
    let entityId ← readField Json.text? "entityId" v
    let operationKind ← readField Json.text? "operationKind" v
    let deletedAt ← readDeletedAt (v.field "deletedAt")
    let baseServerRevision ← readField readU64 "baseServerRevision" v
    let changedFields ← readField (readVec SyncChangedFieldV2.deserialize) "changedFields" v
    let sourceDeviceId ← readField Json.text? "sourceDeviceId" v
    let activeLeaseEpoch ← readField readU64 "activeLeaseEpoch" v
    let deviceMutationSequence ← readField readU64 "deviceMutationSequence" v
    let serverRevision ← readField readU64 "serverRevision" v
    pure { schemaVersion, mutationId, workspaceId, workspaceSchemaVersion, entityType, entityId,
           operationKind, deletedAt, baseServerRevision, changedFields, sourceDeviceId,
           activeLeaseEpoch, deviceMutationSequence, serverRevision }
  else none

def SyncMutationV2.deserialize : Json String → Option SyncMutationV2 := readMutation readOptional

def SyncPageV2.names : List String :=
  ["schemaVersion", "workspaceId", "fromServerRevisionExclusive", "throughServerRevisionInclusive",
   "mutations", "returnedThroughServerRevision", "nextCursor", "pageDigest"]

/-- A page, with the rules for its optional properties. -/
def readPage (readDeletedAt readNextCursor : Option (Json String) → Option (Option String))
    (v : Json String) : Option SyncPageV2 :=
  if knownFields SyncPageV2.names v = true then do
    let schemaVersion ← readField readU8 "schemaVersion" v
    let workspaceId ← readField Json.text? "workspaceId" v
    let fromServerRevisionExclusive ← readField readU64 "fromServerRevisionExclusive" v
    let throughServerRevisionInclusive ← readField readU64 "throughServerRevisionInclusive" v
    let mutations ← readField (readVec (readMutation readDeletedAt)) "mutations" v
    let returnedThroughServerRevision ← readField readU64 "returnedThroughServerRevision" v
    let nextCursor ← readNextCursor (v.field "nextCursor")
    let pageDigest ← readField Json.text? "pageDigest" v
    pure { schemaVersion, workspaceId, fromServerRevisionExclusive, throughServerRevisionInclusive,
           mutations, returnedThroughServerRevision, nextCursor, pageDigest }
  else none

def SyncPageV2.deserialize : Json String → Option SyncPageV2 := readPage readOptional readOptional

/-! ## Back to a value -/

def unsigned (n : Nat) : Json String := .number n

def SyncChangedFieldV2.entries (c : SyncChangedFieldV2) : List (String × Json String) :=
  [("fieldPath", .string c.fieldPath), ("value", c.value)]

def SyncChangedFieldV2.serialize (c : SyncChangedFieldV2) : Json String := .object c.entries

def SyncMutationV2.entries (m : SyncMutationV2) : List (String × Json String) :=
  [("schemaVersion", unsigned m.schemaVersion), ("mutationId", .string m.mutationId),
   ("workspaceId", .string m.workspaceId),
   ("workspaceSchemaVersion", unsigned m.workspaceSchemaVersion),
   ("entityType", .string m.entityType), ("entityId", .string m.entityId),
   ("operationKind", .string m.operationKind)] ++
  -- `skip_serializing_if = "Option::is_none"`
  (m.deletedAt.map fun t => ("deletedAt", Json.string t)).toList ++
  [("baseServerRevision", unsigned m.baseServerRevision),
   ("changedFields", .array (m.changedFields.map SyncChangedFieldV2.serialize)),
   ("sourceDeviceId", .string m.sourceDeviceId), ("activeLeaseEpoch", unsigned m.activeLeaseEpoch),
   ("deviceMutationSequence", unsigned m.deviceMutationSequence),
   ("serverRevision", unsigned m.serverRevision)]

def SyncMutationV2.serialize (m : SyncMutationV2) : Json String := .object m.entries

def SyncPageV2.entries (p : SyncPageV2) : List (String × Json String) :=
  [("schemaVersion", unsigned p.schemaVersion), ("workspaceId", .string p.workspaceId),
   ("fromServerRevisionExclusive", unsigned p.fromServerRevisionExclusive),
   ("throughServerRevisionInclusive", unsigned p.throughServerRevisionInclusive),
   ("mutations", .array (p.mutations.map SyncMutationV2.serialize)),
   ("returnedThroughServerRevision", unsigned p.returnedThroughServerRevision),
   ("nextCursor", (p.nextCursor.map Json.string).getD .null),
   ("pageDigest", .string p.pageDigest)]

def SyncPageV2.serialize (p : SyncPageV2) : Json String := .object p.entries

/-! ## The codec -/

/-- `Number::as_i64`. -/
def isI64 (n : Int) : Bool := decide (-(2 ^ 63 : Int) ≤ n) && decide (n < (2 ^ 63 : Int))

mutual

/-- `canonical_wire_value`. -/
def canonicalWireValue : Json String → Except BusinessDatabaseError Bytes
  | .null => .ok (asBytes "z0:")
  | .bool value => .ok (asBytes (if value then "b1:1" else "b1:0"))
  | .number value =>
    if isI64 value then .ok (frame 'n' (utf8 (integerText value))) else .error .storageRejected
  | .string value => .ok (frame 's' (asBytes value))
  | .array values => (canonicalEntries values).map (frame 'a')
  | .object values => (canonicalProperties values).map fun entries =>
    -- `keys.sort_unstable()` compares bytes; the keys of a map are unique
    frame 'o' ((Keyed.sortByKey (fun e => asBytes e.1) entries).flatMap fun e =>
      frame 'e' (frame 'k' (asBytes e.1) ++ frame 'v' e.2))

def canonicalEntries : List (Json String) → Except BusinessDatabaseError Bytes
  | [] => .ok []
  | value :: values => (canonicalWireValue value).bind fun first =>
    (canonicalEntries values).map fun rest => frame 'e' first ++ rest

def canonicalProperties : List (String × Json String) →
    Except BusinessDatabaseError (List (String × Bytes))
  | [] => .ok []
  | (key, value) :: values => (canonicalWireValue value).bind fun first =>
    (canonicalProperties values).map fun rest => (key, first) :: rest

end

/-- The characters of one chunk of at most three bytes. -/
def base64urlChunk (chunk : Bytes) : List Char :=
  let bits := (chunk.getD 0 0).toNat * 65536 + (chunk.getD 1 0).toNat * 256 + (chunk.getD 2 0).toNat
  [Bytes.symbol (bits / 262144 % 64), Bytes.symbol (bits / 4096 % 64)] ++
    (if 1 < chunk.length then [Bytes.symbol (bits / 64 % 64)] else []) ++
    (if 2 < chunk.length then [Bytes.symbol (bits % 64)] else [])

/-- `value.chunks(3)`. -/
def chunks : Bytes → List Bytes
  | [] => []
  | [a] => [[a]]
  | [a, b] => [[a, b]]
  | a :: b :: c :: rest => [a, b, c] :: chunks rest

/-- `base64url`. -/
def base64url (value : Bytes) : String := String.ofList ((chunks value).flatMap base64urlChunk)

/-! ## Digests -/

/-- The digest of a value under a domain. -/
def domainDigest (sha256 : Bytes → Bytes) (domain : String) (value : Json String) :
    Except BusinessDatabaseError String :=
  (canonicalWireValue value).map fun canonical =>
    base64url (sha256 (frame 'd' (asBytes domain) ++ frame 'v' canonical))

/-- `canonical_sync_digest`. -/
def canonicalSyncDigest (sha256 : Bytes → Bytes) : Json String →
    Except BusinessDatabaseError String :=
  domainDigest sha256 "GOODDEALER-WORKSPACE-MUTATION-V2"

/-- `canonical_mutation_digest`. -/
def SyncMutationV2.canonicalMutationDigest (sha256 : Bytes → Bytes) (mutation : SyncMutationV2) :
    Except BusinessDatabaseError String :=
  canonicalSyncDigest sha256 ((mutation.serialize.without "workspaceId").without "serverRevision")

/-- `canonical_page_digest`. -/
def canonicalPageDigest (sha256 : Bytes → Bytes) (value : Json String) :
    Except BusinessDatabaseError String :=
  match value with
  | .object _ =>
    domainDigest sha256 "GOODDEALER-WORKSPACE-MUTATION-PAGE-V2" (value.without "pageDigest")
  | _ => .error .invalidInput

/-- `Map::insert`. -/
def insertField (k : String) (w : Json String) : Json String → Json String
  | .object es => .object ((k, w) :: es.filter fun e => e.1 != k)
  | v => v

/-- The digest that `apply_sync_page_v2` expects of a page. -/
def expectedPageDigest (sha256 : Bytes → Bytes) (page : SyncPageV2) :
    Except BusinessDatabaseError String :=
  canonicalPageDigest sha256
    (insertField "pageDigest" (.string (String.ofList (List.replicate 43 'A'))) page.serialize)

/-! ## The two codecs -/

section

mutual

theorem canonicalWireValue_eq_encode : ∀ v : Json String, canonicalWireValue v =
    if v.allOf (fun _ => true) isI64 = true then .ok (encode asBytes asBytes v)
    else .error .storageRejected := by
  intro v
  cases v with
  | null => rfl
  | bool b => cases b <;> rfl
  | number n | string s => rfl
  | array vs =>
    rw [canonicalWireValue, canonicalEntries_eq vs, Json.allOf, encode]
    split <;> rfl
  | object es =>
    rw [canonicalWireValue, canonicalProperties_eq es, Json.allOf, encode]
    split <;> rfl

theorem canonicalEntries_eq : ∀ vs : List (Json String), canonicalEntries vs =
    if Json.allOfItems (fun _ => true) isI64 vs = true then .ok (encodeItems asBytes asBytes vs)
    else .error .storageRejected := by
  intro vs
  match vs with
  | [] => rfl
  | v :: vs =>
    rw [canonicalEntries, canonicalWireValue_eq_encode v, canonicalEntries_eq vs, Json.allOfItems,
      encodeItems]
    cases v.allOf (fun _ => true) isI64 <;>
      cases Json.allOfItems (fun _ => true) isI64 vs <;> rfl

theorem canonicalProperties_eq : ∀ es : List (String × Json String), canonicalProperties es =
    if Json.allOfEntries (fun _ => true) isI64 es = true then
      .ok (encodeEntries asBytes asBytes es)
    else .error .storageRejected := by
  intro es
  match es with
  | [] => rfl
  | (k, v) :: es =>
    rw [canonicalProperties, canonicalWireValue_eq_encode v, canonicalProperties_eq es,
      Json.allOfEntries, encodeEntries]
    cases v.allOf (fun _ => true) isI64 <;>
      cases Json.allOfEntries (fun _ => true) isI64 es <;> rfl

end

/-- The codec does not see the order of keys. -/
theorem canonicalWireValue_congr {v w : Json String}
    (h : v.sortKeys asBytes = w.sortKeys asBytes) :
    canonicalWireValue v = canonicalWireValue w := by
  have hnumbers : v.allOf (fun _ => true) isI64 = w.allOf (fun _ => true) isI64 := by
    rw [← Json.allOf_sortKeys asBytes, h, Json.allOf_sortKeys]
  have hbytes : encode asBytes asBytes v = encode asBytes asBytes w := by
    rw [encode_eq, encode_eq, Json.map_sortKeys, Json.map_sortKeys, h]
  rw [canonicalWireValue_eq_encode, canonicalWireValue_eq_encode, hnumbers, hbytes]

theorem isI64_of_safe {n : Int} (h : isSafeInteger n = true) : isI64 n = true := by
  have hmax : (maxSafeInteger : Int) < 2 ^ 63 := by decide
  simp only [isSafeInteger, isI64, and_eq_true, decide_eq_true_eq] at h ⊢
  omega

theorem ascii_of_isAsciiKey {k : String} (h : isAsciiKey k = true) :
    ∀ c ∈ k.toList, c.toNat < 0x80 :=
  fun c hc => of_decide_eq_true (all_eq_true.mp h c hc)

/-- On safe integers and ASCII keys the two codecs give the same bytes. -/
theorem canonicalWireValue_eq {v : Json String} (h : v.allOf isAsciiKey isSafeInteger = true) :
    canonicalWireValue v = .ok (canonicalBytes (v.map js)) := by
  have hnumbers : v.allOf (fun _ => true) isI64 = true :=
    Json.allOf_mono (fun _ _ => rfl) (fun _ => isI64_of_safe) v h
  have htext : textEncode ∘ js = asBytes := funext fun s => textEncode_utf16 s.toList
  have horder : (v.map asBytes).sortKeys asBytes = (v.map asBytes).sortKeys js := by
    refine (Json.sortKeys_congr (p := isAsciiKey) (fun k k' hk hk' => ?_) _
      (by rw [Json.allOf_map]; exact h)).symm
    exact utf16_le_iff (ascii_of_isAsciiKey hk) (ascii_of_isAsciiKey hk')
  rw [canonicalWireValue_eq_encode, if_pos hnumbers, canonicalBytes_eq, Json.map_map, htext,
    encode_eq, horder]

end

/-- The six-bit groups of three bytes. -/
theorem groups_of_bytes {a b c : Nat} (ha : a < 256) (hb : b < 256) (hc : c < 256) :
    (a * 65536 + b * 256 + c) / 262144 % 64 = a / 4 ∧
    (a * 65536 + b * 256 + c) / 4096 % 64 = a % 4 * 16 + b / 16 ∧
    (a * 65536 + b * 256 + c) / 64 % 64 = b % 16 * 4 + c / 64 ∧
    (a * 65536 + b * 256 + c) % 64 = c % 64 := by
  refine ⟨?_, ?_, ?_, ?_⟩ <;> omega

theorem base64url_eq (bytes : Bytes) : base64url bytes = bytes.base64Url := by
  rw [base64url, Bytes.base64Url]
  congr 1
  induction bytes using chunks.induct with
  | case1 => rfl
  | case2 a =>
    obtain ⟨h₁, h₂, -, -⟩ := groups_of_bytes a.toNat_lt (b := 0) (c := 0) (by decide) (by decide)
    show [Bytes.symbol _, Bytes.symbol _] = _
    rw [Bytes.base64Chars]
    exact congrArg₂ (fun x y => [Bytes.symbol x, Bytes.symbol y]) h₁ h₂
  | case3 a b =>
    obtain ⟨h₁, h₂, h₃, -⟩ := groups_of_bytes a.toNat_lt b.toNat_lt (c := 0) (by decide)
    show [Bytes.symbol _, Bytes.symbol _, Bytes.symbol _] = _
    rw [Bytes.base64Chars, ← h₁, ← h₂]
    exact congrArg (fun x => [_, _, Bytes.symbol x]) h₃
  | case4 a b c rest ih =>
    obtain ⟨h₁, h₂, h₃, h₄⟩ := groups_of_bytes a.toNat_lt b.toNat_lt c.toNat_lt
    rw [chunks, flatMap_cons, ih, Bytes.base64Chars, ← h₁, ← h₂, ← h₃, ← h₄]
    rfl

/-! ## Through the records and back -/

/-- The same properties, up to the order of keys inside them. -/
structure SameFields (es es' : List (String × Json String)) : Prop where
  unique : (es.map Prod.fst).Nodup
  unique' : (es'.map Prod.fst).Nodup
  lookup : ∀ k, (es.lookup k).map (Json.sortKeys asBytes) =
    (es'.lookup k).map (Json.sortKeys asBytes)

namespace SameFields

variable {es es' : List (String × Json String)}

theorem sortKeys (h : SameFields es es') :
    (Json.object es).sortKeys asBytes = (Json.object es').sortKeys asBytes :=
  Json.sortKeys_object_eq (fun _ _ h => String.toList_inj.mp (utf8_inj h)) h.unique h.unique'
    h.lookup

theorem without (h : SameFields es es') (k : String) :
    SameFields (es.filter fun e => e.1 != k) (es'.filter fun e => e.1 != k) := by
  have hsub : ∀ es : List (String × Json String), (es.map Prod.fst).Nodup →
      ((es.filter fun e => e.1 != k).map Prod.fst).Nodup := by
    intro es hes
    exact hes.sublist (filter_sublist.map Prod.fst)
  refine ⟨hsub es h.unique, hsub es' h.unique', fun k' => ?_⟩
  rw [Json.lookup_without, Json.lookup_without]
  split
  · rfl
  · exact h.lookup k'

/-- A record and the object it was read from are compared name by name. -/
theorem of_names (names : List String) (hnames : names.Nodup)
    (hkeys : (es.map Prod.fst).Sublist names) (hknown : knownFields names (.object es') = true)
    (h : ∀ k ∈ names, (es.lookup k).map (Json.sortKeys asBytes) =
      ((Json.object es').field k).map (Json.sortKeys asBytes)) : SameFields es es' := by
  simp only [knownFields, and_eq_true, decide_eq_true_eq, all_eq_true,
    contains_iff_mem] at hknown
  refine ⟨hnames.sublist hkeys, hknown.1, fun k => ?_⟩
  by_cases hk : k ∈ names
  · exact h k hk
  · -- neither has a property of another name
    have hl : es.lookup k = none := by
      cases hl : es.lookup k with
      | none => rfl
      | some w => exact absurd (hkeys.subset (mem_map_of_mem (Json.mem_of_lookup hl))) hk
    have hr : es'.lookup k = none := by
      cases hr : es'.lookup k with
      | none => rfl
      | some w => exact absurd (hknown.2 _ (Json.mem_of_lookup hr)) hk
    rw [hl, hr]

end SameFields

variable {v : Json String} {es : List (String × Json String)} {c : SyncChangedFieldV2}
  {p : Property JsString} {m : SyncMutationV2}

/-- The names of a closed object are known. -/
theorem knownFields_of_image (names : List String) {ps : List (Property JsString)}
    (h : strictObject ps (v.map js) = true)
    (hnames : (ps.map Property.name).all (fun n => names.contains n) = true) :
    knownFields names v = true := by
  obtain ⟨es, rfl, hnodup, hmem⟩ := object_of_image h
  simp only [knownFields, and_eq_true, decide_eq_true_eq, all_eq_true]
  refine ⟨hnodup, fun e he => ?_⟩
  obtain ⟨p, hp, hname, -⟩ := hmem e he
  exact hname ▸ all_eq_true.mp hnames _ (mem_map_of_mem hp)

section

variable {ps : List (Property JsString)} {k : String}

theorem readField_eq {α : Type} {read : Json String → Option α} {w : Json String} {a : α}
    (hw : v.field k = some w) (ha : read w = some a) : readField read k v = some a := by
  rw [readField, hw, Option.bind_some, ha]

theorem readField_text {t : String} (hw : v.field k = some (.string t)) :
    readField Json.text? k v = some t := readField_eq hw rfl

theorem readUnsigned_unsigned {bound n : Nat} (h : n < bound) :
    readUnsigned bound (unsigned n) = some n := by
  rw [unsigned, readUnsigned, if_pos ⟨Int.natCast_nonneg n, by exact_mod_cast h⟩, Int.toNat_natCast]

theorem readU64_unsigned {n : Nat} (h : n ≤ maxSafeInteger) : readU64 (unsigned n) = some n :=
  readUnsigned_unsigned (Nat.lt_of_le_of_lt h (by decide))

variable (h : strictObject ps (v.map js) = true)

include h

/-- The integers of a schema that fit the records. -/
theorem safe_of_property {p : Int → Bool} (hp : required k (integerOf p) ∈ ps)
    (hsafe : ∀ n, p n = true → 0 ≤ n ∧ n ≤ maxSafeInteger) :
    ∃ n : Nat, v.field k = some (unsigned n) ∧ p n = true ∧ n ≤ maxSafeInteger := by
  obtain ⟨w, hw, hS⟩ := required_of_image h hp
  obtain ⟨n, rfl, hn⟩ := number_of_image hS
  obtain ⟨n, rfl⟩ := Int.eq_ofNat_of_zero_le (hsafe n hn).1
  exact ⟨n, hw, hn, by exact_mod_cast (hsafe n hn).2⟩

theorem natural_of_property (hp : required k safeUnsignedInteger ∈ ps) :
    ∃ n : Nat, v.field k = some (unsigned n) ∧ n ≤ maxSafeInteger := by
  obtain ⟨n, hw, -, hle⟩ := safe_of_property h hp fun n hn => by simpa using hn
  exact ⟨n, hw, hle⟩

theorem positive_of_property (hp : required k safePositiveInteger ∈ ps) :
    ∃ n : Nat, v.field k = some (unsigned n) ∧ 0 < n ∧ n ≤ maxSafeInteger := by
  obtain ⟨n, hw, hn, hle⟩ := safe_of_property h hp fun n hn => by
    rw [and_eq_true, decide_eq_true_eq, decide_eq_true_eq] at hn
    omega
  rw [and_eq_true, decide_eq_true_eq] at hn
  exact ⟨n, hw, by exact_mod_cast hn.1, hle⟩

theorem literal_of_property {n : Nat} (hp : required k (literalNumber n) ∈ ps) :
    v.field k = some (unsigned n) := by
  obtain ⟨w, hw, hS⟩ := required_of_image h hp
  obtain ⟨m, rfl, hm⟩ := number_of_image hS
  rw [hw, unsigned, beq_iff_eq.mp hm]

theorem text_of_property {p : JsString → Bool} (hp : required k (stringOf p) ∈ ps) :
    ∃ s, v.field k = some (.string s) ∧ p (js s) = true := by
  obtain ⟨w, hw, hS⟩ := required_of_image h hp
  obtain ⟨s, rfl, hs⟩ := string_of_image hS
  exact ⟨s, hw, hs⟩

theorem identifier_of_property (hp : required k (stringOf identifier) ∈ ps) :
    ∃ s, v.field k = some (.string s) ∧ validIdentifier s = true := by
  simpa only [identifier_js] using text_of_property h hp

theorem nullable_of_property {p : JsString → Bool} (hp : required k (nullable (stringOf p)) ∈ ps) :
    ∃ t : Option String, v.field k = some ((t.map Json.string).getD .null) ∧
      ∀ s ∈ t, p (js s) = true := by
  obtain ⟨w, hw, hS⟩ := required_of_image h hp
  rcases null_of_image hS with rfl | hS
  · exact ⟨none, hw, fun s hs => by cases hs⟩
  · obtain ⟨s, rfl, hs⟩ := string_of_image hS
    exact ⟨some s, hw, fun t ht => Option.some.inj ht ▸ hs⟩

end

/-- What a record has in common with the object it was read from. -/
structure SyncChangedFieldV2.Reads (c : SyncChangedFieldV2) (v : Json String) : Prop where
  known : knownFields names v = true
  fieldPath : v.field "fieldPath" = some (.string c.fieldPath)
  value : v.field "value" = some c.value

@[inherit_doc SyncChangedFieldV2.Reads]
structure SyncMutationV2.Reads (m : SyncMutationV2) (v : Json String) : Prop where
  known : knownFields names v = true
  schemaVersion : v.field "schemaVersion" = some (unsigned m.schemaVersion)
  mutationId : v.field "mutationId" = some (.string m.mutationId)
  workspaceId : v.field "workspaceId" = some (.string m.workspaceId)
  workspaceSchemaVersion :
    v.field "workspaceSchemaVersion" = some (unsigned m.workspaceSchemaVersion)
  entityType : v.field "entityType" = some (.string m.entityType)
  entityId : v.field "entityId" = some (.string m.entityId)
  operationKind : v.field "operationKind" = some (.string m.operationKind)
  deletedAt : v.field "deletedAt" = m.deletedAt.map Json.string
  baseServerRevision : v.field "baseServerRevision" = some (unsigned m.baseServerRevision)
  changedFields : ∃ vs, v.field "changedFields" = some (.array vs) ∧
    List.Forall₂ SyncChangedFieldV2.Reads m.changedFields vs
  sourceDeviceId : v.field "sourceDeviceId" = some (.string m.sourceDeviceId)
  activeLeaseEpoch : v.field "activeLeaseEpoch" = some (unsigned m.activeLeaseEpoch)
  deviceMutationSequence :
    v.field "deviceMutationSequence" = some (unsigned m.deviceMutationSequence)
  serverRevision : v.field "serverRevision" = some (unsigned m.serverRevision)

@[inherit_doc SyncChangedFieldV2.Reads]
structure SyncPageV2.Reads (p : SyncPageV2) (v : Json String) : Prop where
  known : knownFields names v = true
  schemaVersion : v.field "schemaVersion" = some (unsigned p.schemaVersion)
  workspaceId : v.field "workspaceId" = some (.string p.workspaceId)
  fromServerRevisionExclusive :
    v.field "fromServerRevisionExclusive" = some (unsigned p.fromServerRevisionExclusive)
  throughServerRevisionInclusive :
    v.field "throughServerRevisionInclusive" = some (unsigned p.throughServerRevisionInclusive)
  mutations : ∃ vs, v.field "mutations" = some (.array vs) ∧
    List.Forall₂ SyncMutationV2.Reads p.mutations vs
  returnedThroughServerRevision :
    v.field "returnedThroughServerRevision" = some (unsigned p.returnedThroughServerRevision)
  nextCursor : v.field "nextCursor" = some ((p.nextCursor.map Json.string).getD .null)
  pageDigest : v.field "pageDigest" = some (.string p.pageDigest)

/-- The schema of a field's value. -/
def valueSchema [Zod] : FieldPath → Schema JsString
  | .note => nullable (stringOf domainAssetNoteSchema)
  | .portfolioId => nullable (stringOf identifier)
  | .tags => domainAssetTagsSchema
  | .targetPrice => nullable canonicalMoneySchema

/-- What the schema says about a record. -/
def SyncChangedFieldV2.Accepted [Zod] (c : SyncChangedFieldV2) : Prop :=
  ∃ path : FieldPath, c.fieldPath = path.wire ∧ valueSchema path (c.value.map js) = true

@[inherit_doc SyncChangedFieldV2.Accepted]
structure SyncMutationV2.Accepted [Zod] (m : SyncMutationV2) : Prop where
  schemaVersion : m.schemaVersion = 2
  mutationId : validIdentifier m.mutationId = true
  workspaceId : validIdentifier m.workspaceId = true
  workspaceSchemaVersion : 0 < m.workspaceSchemaVersion ∧ m.workspaceSchemaVersion ≤ maxSafeInteger
  entityType : m.entityType = "domain_asset"
  entityId : validDomainAssetId m.entityId = true
  kind : m.operationKind = "upsert" ∧ m.deletedAt = none ∧ m.changedFields ≠ [] ∨
    m.operationKind = "delete" ∧ m.deletedAt ≠ none ∧ m.changedFields = []
  deletedAt : ∀ t ∈ m.deletedAt, canonicalUtcTimestamp (js t) = true
  baseServerRevision : m.baseServerRevision < m.serverRevision
  fields : ∀ c ∈ m.changedFields, c.Accepted
  fieldCount : m.changedFields.length ≤ 4
  fieldOrder : (m.changedFields.map SyncChangedFieldV2.fieldPath).IsChain (· < ·)
  sourceDeviceId : validIdentifier m.sourceDeviceId = true
  activeLeaseEpoch : 0 < m.activeLeaseEpoch ∧ m.activeLeaseEpoch ≤ maxSafeInteger
  deviceMutationSequence : 0 < m.deviceMutationSequence ∧ m.deviceMutationSequence ≤ maxSafeInteger
  serverRevision : m.serverRevision ≤ maxSafeInteger

/-- Mutations of one workspace with consecutive revisions. -/
def Consecutive (workspaceId : String) : Nat → List SyncMutationV2 → Prop
  | _, [] => True
  | revision, m :: rest =>
    m.workspaceId = workspaceId ∧ m.serverRevision = revision ∧
      Consecutive workspaceId (revision + 1) rest

@[inherit_doc SyncChangedFieldV2.Accepted]
structure SyncPageV2.Accepted [Zod] (p : SyncPageV2) : Prop where
  schemaVersion : p.schemaVersion = 2
  workspaceId : validIdentifier p.workspaceId = true
  start : p.fromServerRevisionExclusive ≤ maxSafeInteger
  through : p.throughServerRevisionInclusive ≤ maxSafeInteger
  mutations : ∀ m ∈ p.mutations, m.Accepted
  count : p.mutations.length ≤ 256
  consecutive : Consecutive p.workspaceId (p.fromServerRevisionExclusive + 1) p.mutations
  returned : p.returnedThroughServerRevision =
    (p.mutations.getLast?.map SyncMutationV2.serverRevision).getD p.fromServerRevisionExclusive
  returned_le : p.returnedThroughServerRevision ≤ p.throughServerRevisionInclusive
  cursor : p.nextCursor = none ∧
    p.returnedThroughServerRevision = p.throughServerRevisionInclusive ∨
    ∃ c, p.nextCursor = some c ∧ mutationCursorSchema (js c) = true ∧
      p.returnedThroughServerRevision < p.throughServerRevisionInclusive
  pageDigest : sha256DigestSchema (js p.pageDigest) = true

/-! ### The records of an accepted object -/

/-- The items of a list are read one by one. -/
theorem forall₂_of_image {α : Type} {R : α → Json String → Prop} {S : Schema JsString}
    (h : arrayOf S (v.map js) = true) (hread : ∀ w, S (w.map js) = true → ∃ a, R a w) :
    ∃ as vs, v = .array vs ∧ List.Forall₂ R as vs := by
  obtain ⟨vs, rfl, hvs⟩ := array_of_image h
  clear h
  suffices hall : ∃ as, List.Forall₂ R as vs from ⟨hall.choose, vs, rfl, hall.choose_spec⟩
  induction vs with
  | nil => exact ⟨[], .nil⟩
  | cons w vs ih =>
    obtain ⟨a, ha⟩ := hread w (hvs w mem_cons_self)
    obtain ⟨as, hall⟩ := ih (forall_mem_cons.mp hvs).2
    exact ⟨a :: as, .cons ha hall⟩

/-- A list is read when each item is. -/
theorem readVec_of_forall₂ {α : Type} {R : α → Json String → Prop} {as : List α}
    {vs : List (Json String)} {read : Json String → Option α} (h : List.Forall₂ R as vs)
    (hread : ∀ a ∈ as, ∀ w, R a w → read w = some a) :
    readVec read (.array vs) = some as := by
  show vs.mapM read = some as
  induction h with
  | nil => rfl
  | @cons a w as vs hab _ ih =>
    rw [mapM_cons, hread a mem_cons_self w hab,
      ih (forall_mem_cons.mp hread).2]
    rfl

theorem integerAt_of_read {k : String} {n : Nat} (h : v.field k = some (unsigned n)) :
    integerAt k (v.map js) = n := by
  rw [integerAt, Json.numberOf_map, Json.numberOf, h]
  rfl

theorem textOf_of_read {k s : String} (h : v.field k = some (.string s)) :
    (v.map js).textOf k = some (js s) := by
  rw [Json.textOf_map, Json.textOf, h]
  rfl

theorem itemsOf_of_read {k : String} {vs : List (Json String)} (h : v.field k = some (.array vs)) :
    (v.map js).itemsOf k = vs.map (Json.map js) := by
  rw [Json.itemsOf_map, Json.itemsOf, h]
  rfl

theorem SyncChangedFieldV2.exists_reads [Zod]
    (h : domainAssetChangedFieldSchema (v.map js) = true) :
    ∃ c : SyncChangedFieldV2, c.Accepted ∧ c.Reads v := by
  rw [domainAssetChangedFieldSchema, union, any_eq_true] at h
  obtain ⟨S, hS, hv⟩ := h
  obtain ⟨path, rfl⟩ : ∃ path, S = changedFieldOption path (valueSchema path) := by
    simp only [mem_cons, not_mem_nil, or_false] at hS
    rcases hS with rfl | rfl | rfl | rfl
    exacts [⟨.note, rfl⟩, ⟨.portfolioId, rfl⟩, ⟨.tags, rfl⟩, ⟨.targetPrice, rfl⟩]
  have hknown := knownFields_of_image SyncChangedFieldV2.names hv rfl
  obtain ⟨fieldPath, hpath, hwire⟩ := text_of_property hv mem_cons_self
  obtain ⟨w, hw, hvalue⟩ := required_of_image hv (mem_cons_of_mem _ mem_cons_self)
  exact ⟨⟨fieldPath, w⟩, ⟨path, js_inj (beq_iff_eq.mp hwire), hvalue⟩, hknown, hpath, hw⟩

/-- The paths as texts of the cloud. -/
theorem fieldPaths_of_reads {cs : List SyncChangedFieldV2} {vs : List (Json String)}
    (h : List.Forall₂ SyncChangedFieldV2.Reads cs vs) :
    (vs.map (Json.map js)).filterMap (Json.textOf "fieldPath") =
      (cs.map SyncChangedFieldV2.fieldPath).map js := by
  induction h with
  | nil => rfl
  | cons hc _ ih =>
    rw [map_cons, filterMap_cons_some (textOf_of_read hc.fieldPath), ih, map_cons, map_cons]

/-- Paths that ascend by code units ascend as texts. -/
theorem fieldOrder_of_chain [Zod] {cs : List SyncChangedFieldV2} (hcs : ∀ c ∈ cs, c.Accepted)
    (h : ((cs.map SyncChangedFieldV2.fieldPath).map js).IsChain (· < ·)) :
    (cs.map SyncChangedFieldV2.fieldPath).IsChain (· < ·) := by
  obtain ⟨paths, hpaths⟩ : ∃ paths : List FieldPath,
      cs.map SyncChangedFieldV2.fieldPath = paths.map FieldPath.wire := by
    clear h
    induction cs with
    | nil => exact ⟨[], rfl⟩
    | cons c cs ih =>
      obtain ⟨paths, hpaths⟩ := ih (forall_mem_cons.mp hcs).2
      obtain ⟨path, hpath, -⟩ := hcs c mem_cons_self
      exact ⟨path :: paths, by rw [map_cons, map_cons, hpaths, hpath]⟩
  rw [hpaths, isChain_map, isChain_map] at h
  rw [hpaths, isChain_map]
  refine h.imp fun a b hab => ?_
  have hwire := wire_lt a b
  rw [decide_eq_true hab] at hwire
  exact of_decide_eq_true hwire.symm

theorem changedFields_of_image [Zod] (h : changedFieldsSchema (v.map js) = true) :
    ∃ cs vs, v = .array vs ∧ List.Forall₂ SyncChangedFieldV2.Reads cs vs ∧
      (∀ c ∈ cs, c.Accepted) ∧ cs.length ≤ 4 ∧
      (cs.map SyncChangedFieldV2.fieldPath).IsChain (· < ·) := by
  rw [changedFieldsSchema, Schema.refine, and_eq_true] at h
  obtain ⟨cs, vs, rfl, hall⟩ := forall₂_of_image h.1 fun w => SyncChangedFieldV2.exists_reads
  obtain ⟨haccepted, hall⟩ := (forall₂_and_left _ _).mp hall
  simp only [Json.map, Json.mapItems_eq, Json.items, length_map, and_eq_true, decide_eq_true_eq,
    fieldPaths_of_reads hall, adjacent_iff] at h
  exact ⟨cs, vs, rfl, hall, haccepted, hall.length_eq ▸ h.2.1, fieldOrder_of_chain haccepted h.2.2⟩

/-- An upsert changes fields, a deletion has its time. -/
theorem kind_of_validate {kind : String} {deletedAt : Option String}
    {cs : List SyncChangedFieldV2} {vs : List (Json String)}
    (hkind : kind = "upsert" ∨ kind = "delete")
    (hfield : v.field "operationKind" = some (.string kind))
    (hdeleted : v.field "deletedAt" = deletedAt.map Json.string)
    (hvs : v.field "changedFields" = some (.array vs)) (hlength : cs.length = vs.length)
    (h : validateSubmittedSyncMutation (v.map js) = true) :
    kind = "upsert" ∧ deletedAt = none ∧ cs ≠ [] ∨ kind = "delete" ∧ deletedAt ≠ none ∧
      cs = [] := by
  have hempty : (vs.map (Json.map js)).isEmpty = true ↔ cs = [] := by
    rw [isEmpty_map, List.isEmpty_iff, ← length_eq_zero_iff, ← length_eq_zero_iff, hlength]
  rw [validateSubmittedSyncMutation, textOf_of_read hfield, itemsOf_of_read hvs, Json.field_map,
    hdeleted, Option.isNone_map, Option.isNone_map, Option.isSome_map, Option.isSome_map] at h
  rcases hkind with rfl | rfl
  · rw [if_pos rfl, and_eq_true, Bool.not_eq_true', Bool.eq_false_iff, ne_eq, hempty,
      Option.isNone_iff_eq_none] at h
    exact .inl ⟨rfl, h.2, h.1⟩
  · rw [if_neg (by decide), and_eq_true, hempty, Option.isSome_iff_ne_none] at h
    exact .inr ⟨rfl, h.2, h.1⟩

theorem leading_mem [Zod] (i : Nat)
    (hp : submittedSyncMutationPrefixFields[i]? = some p) : p ∈ syncMutationFields :=
  mem_append_left _ (mem_append_left _ (mem_of_getElem? hp))

theorem suffix_mem [Zod] (i : Nat)
    (hp : submittedSyncMutationSuffixFields[i]? = some p) : p ∈ syncMutationFields :=
  mem_append_left _ (mem_append_right _ (mem_cons_of_mem _ (mem_of_getElem? hp)))

theorem SyncMutationV2.exists_reads [Zod] (h : syncMutationSchema (v.map js) = true) :
    ∃ m : SyncMutationV2, m.Accepted ∧ m.Reads v := by
  simp only [syncMutationSchema, Schema.refine, and_eq_true, decide_eq_true_eq] at h
  obtain ⟨⟨hv, hvalidate⟩, hbefore⟩ := h
  have hversion := literal_of_property hv (leading_mem 0 rfl)
  obtain ⟨mutationId, hmutationId, hvalidId⟩ := identifier_of_property hv (leading_mem 1 rfl)
  obtain ⟨workspaceId, hworkspaceId, hvalidWorkspace⟩ := identifier_of_property hv
    (mem_append_left _ (mem_append_right _ mem_cons_self))
  obtain ⟨workspaceSchemaVersion, hschema, hschemaBounds⟩ :=
    positive_of_property hv (suffix_mem 0 rfl)
  obtain ⟨entityType, hentityType, hasset⟩ := text_of_property hv (suffix_mem 1 rfl)
  obtain ⟨entityId, hentityId, hassetId⟩ := text_of_property hv (suffix_mem 2 rfl)
  rw [domainAssetIdSchema_js] at hassetId
  obtain ⟨operationKind, hoperationKind, hkind⟩ : ∃ s, v.field "operationKind" = some (.string s) ∧
      (s = "upsert" ∨ s = "delete") := by
    obtain ⟨w, hw, hS⟩ := required_of_image hv (suffix_mem 3 rfl)
    simp only [union, any_cons, any_nil, Bool.or_false, Bool.or_eq_true] at hS
    refine hS.elim (fun hS => ?_) fun hS => ?_
    all_goals obtain ⟨s, rfl, hs⟩ := string_of_image hS
    · exact ⟨s, hw, .inl (js_inj (beq_iff_eq.mp hs))⟩
    · exact ⟨s, hw, .inr (js_inj (beq_iff_eq.mp hs))⟩
  obtain ⟨deletedAt, hdeletedAt, htime⟩ : ∃ t : Option String,
      v.field "deletedAt" = t.map Json.string ∧ ∀ s ∈ t, canonicalUtcTimestamp (js s) = true := by
    rcases optional_of_image hv (suffix_mem 4 rfl) with hw | ⟨w, hw, hS⟩
    · exact ⟨none, hw, fun s hs => by cases hs⟩
    · obtain ⟨s, rfl, hs⟩ := string_of_image hS
      exact ⟨some s, hw, fun t ht => Option.some.inj ht ▸ hs⟩
  obtain ⟨baseServerRevision, hbase, -⟩ := natural_of_property hv (suffix_mem 5 rfl)
  obtain ⟨_, hfields, hS⟩ := required_of_image hv (suffix_mem 6 rfl)
  obtain ⟨cs, vs, rfl, hall, haccepted, hcount, horder⟩ := changedFields_of_image hS
  obtain ⟨sourceDeviceId, hsourceDeviceId, hdevice⟩ := identifier_of_property hv (suffix_mem 7 rfl)
  obtain ⟨activeLeaseEpoch, hepoch, hepochBounds⟩ := positive_of_property hv (suffix_mem 8 rfl)
  obtain ⟨sequence, hsequence, hsequenceBounds⟩ := positive_of_property hv (suffix_mem 9 rfl)
  obtain ⟨serverRevision, hrevision, -, hrevisionBound⟩ := positive_of_property hv
    (mem_append_right _ mem_cons_self)
  rw [integerAt_of_read hbase, integerAt_of_read hrevision, Int.ofNat_lt] at hbefore
  exact ⟨⟨2, mutationId, workspaceId, workspaceSchemaVersion, entityType, entityId, operationKind,
      deletedAt, baseServerRevision, cs, sourceDeviceId, activeLeaseEpoch, sequence,
      serverRevision⟩,
    ⟨rfl, hvalidId, hvalidWorkspace, hschemaBounds, js_inj (beq_iff_eq.mp hasset), hassetId,
      kind_of_validate hkind hoperationKind hdeletedAt hfields hall.length_eq hvalidate, htime,
      hbefore, haccepted, hcount, horder, hdevice, hepochBounds, hsequenceBounds, hrevisionBound⟩,
    ⟨knownFields_of_image names hv rfl, hversion, hmutationId, hworkspaceId, hschema, hentityType,
      hentityId, hoperationKind, hdeletedAt, hbase, ⟨vs, hfields, hall⟩, hsourceDeviceId, hepoch,
      hsequence, hrevision⟩⟩

theorem consecutive_of_contiguous {workspaceId : String} {ms : List SyncMutationV2}
    {vs : List (Json String)} (hall : List.Forall₂ SyncMutationV2.Reads ms vs) {revision : Nat}
    (h : contiguous (some (js workspaceId)) revision (vs.map (Json.map js)) = true) :
    Consecutive workspaceId revision ms := by
  induction hall generalizing revision with
  | nil => trivial
  | @cons m w ms vs hm _ ih =>
    simp only [map_cons, contiguous, and_eq_true, decide_eq_true_eq] at h
    obtain ⟨⟨hworkspace, hrevision⟩, hrest⟩ := h
    rw [textOf_of_read hm.workspaceId] at hworkspace
    rw [integerAt_of_read hm.serverRevision] at hrevision
    exact ⟨js_inj (Option.some.inj hworkspace), by omega, ih hrest⟩

/-- The last mutation of the page is the last one read. -/
theorem returnedRevision_of_reads {ms : List SyncMutationV2} {vs : List (Json String)} {start : Nat}
    (hstart : v.field "fromServerRevisionExclusive" = some (unsigned start))
    (hvs : v.field "mutations" = some (.array vs))
    (hall : List.Forall₂ SyncMutationV2.Reads ms vs) :
    returnedRevision (v.map js) = (ms.getLast?.map SyncMutationV2.serverRevision).getD start := by
  have hlast := forall₂_reverse_iff.mpr hall
  rw [returnedRevision, itemsOf_of_read hvs, List.getLast?_map, ← List.head?_reverse,
    ← List.head?_reverse]
  generalize ms.reverse = ms at hlast
  generalize vs.reverse = ws at hlast
  cases hlast with
  | nil => exact integerAt_of_read hstart
  | cons hm _ => exact integerAt_of_read hm.serverRevision

theorem SyncPageV2.exists_reads [Zod] (h : mutationPageSchema (v.map js) = true) :
    ∃ p : SyncPageV2, p.Accepted ∧ p.Reads v := by
  rw [mutationPageSchema, Schema.refine, and_eq_true] at h
  obtain ⟨hv, hvalidate⟩ := h
  have hmem : ∀ {p} (i : Nat), mutationPageFields[i]? = some p → p ∈ mutationPageFields :=
    fun _ hp => mem_of_getElem? hp
  have hversion := literal_of_property hv (hmem 0 rfl)
  obtain ⟨workspaceId, hworkspaceId, hvalidId⟩ := identifier_of_property hv (hmem 1 rfl)
  obtain ⟨start, hstart, hstartBound⟩ := natural_of_property hv (hmem 2 rfl)
  obtain ⟨through, hthrough, hthroughBound⟩ := natural_of_property hv (hmem 3 rfl)
  obtain ⟨_, hmutations, hS⟩ := required_of_image hv (hmem 4 rfl)
  rw [Schema.refine, and_eq_true, decide_eq_true_eq] at hS
  obtain ⟨ms, vs, rfl, hall⟩ := forall₂_of_image hS.1 fun w => SyncMutationV2.exists_reads
  obtain ⟨haccepted, hall⟩ := (forall₂_and_left _ _).mp hall
  have hcount : ms.length ≤ maxMutationsPerPage := by
    rw [hall.length_eq]
    simpa only [Json.map, Json.mapItems_eq, Json.items, length_map] using hS.2
  obtain ⟨returned, hreturned, -⟩ := natural_of_property hv (hmem 5 rfl)
  obtain ⟨nextCursor, hnextCursor, hcursorSchema⟩ := nullable_of_property hv (hmem 6 rfl)
  obtain ⟨pageDigest, hpageDigest, hdigest⟩ := text_of_property hv (hmem 7 rfl)
  simp only [validateMutationPage, and_eq_true, decide_eq_true_eq, integerAt_of_read hstart,
    integerAt_of_read hthrough, integerAt_of_read hreturned, textOf_of_read hworkspaceId,
    itemsOf_of_read hmutations, returnedRevision_of_reads hstart hmutations hall,
    Int.ofNat_le, Int.ofNat_inj] at hvalidate
  obtain ⟨⟨⟨⟨-, hcontiguous⟩, hreached⟩, hreturned_le⟩, hcursor⟩ := hvalidate
  have hnext : nextCursor = none ∧ returned = through ∨
      ∃ c, nextCursor = some c ∧ mutationCursorSchema (js c) = true ∧ returned < through := by
    cases nextCursor with
    | none =>
      have htext : (v.map js).textOf "nextCursor" = none := by
        rw [Json.textOf_map, Json.textOf, hnextCursor]
        rfl
      rw [htext, decide_eq_true_eq] at hcursor
      exact .inl ⟨rfl, hcursor⟩
    | some c =>
      rw [textOf_of_read hnextCursor, decide_eq_true_eq, Int.ofNat_lt] at hcursor
      exact .inr ⟨c, rfl, hcursorSchema c rfl, hcursor⟩
  exact ⟨⟨2, workspaceId, start, through, ms, returned, nextCursor, pageDigest⟩,
    ⟨rfl, hvalidId, hstartBound, hthroughBound, haccepted, hcount,
      consecutive_of_contiguous hall hcontiguous, hreached, hreturned_le, hnext, hdigest⟩,
    ⟨knownFields_of_image names hv rfl, hversion, hworkspaceId, hstart, hthrough,
      ⟨vs, hmutations, hall⟩, hreturned, hnextCursor, hpageDigest⟩⟩

theorem SyncChangedFieldV2.Reads.deserialize_eq (h : c.Reads v) : deserialize v = some c := by
  rw [deserialize, if_pos h.known, readField_text h.fieldPath, h.value]
  rfl

section

variable {readDeletedAt readNextCursor : Option (Json String) → Option (Option String)}
  (hdeleted : ∀ t : Option String, readDeletedAt (t.map Json.string) = some t)

include hdeleted

theorem SyncMutationV2.Accepted.readMutation_eq [Zod] (h : m.Accepted) (hm : m.Reads v) :
    readMutation readDeletedAt v = some m := by
  obtain ⟨vs, hfields, hall⟩ := hm.changedFields
  have hbase : m.baseServerRevision ≤ maxSafeInteger :=
    Nat.le_trans (Nat.le_of_lt h.baseServerRevision) h.serverRevision
  have hversion : readU8 (unsigned m.schemaVersion) = some m.schemaVersion :=
    readUnsigned_unsigned (by rw [h.schemaVersion]; decide)
  rw [readMutation, if_pos hm.known, readField_eq hm.schemaVersion hversion,
    readField_text hm.mutationId, readField_text hm.workspaceId,
    readField_eq hm.workspaceSchemaVersion (readU64_unsigned h.workspaceSchemaVersion.2),
    readField_text hm.entityType, readField_text hm.entityId, readField_text hm.operationKind,
    hm.deletedAt, hdeleted, readField_eq hm.baseServerRevision (readU64_unsigned hbase),
    readField_eq hfields (readVec_of_forall₂ hall fun c _ w hc => hc.deserialize_eq),
    readField_text hm.sourceDeviceId,
    readField_eq hm.activeLeaseEpoch (readU64_unsigned h.activeLeaseEpoch.2),
    readField_eq hm.deviceMutationSequence (readU64_unsigned h.deviceMutationSequence.2),
    readField_eq hm.serverRevision (readU64_unsigned h.serverRevision)]
  rfl

theorem SyncPageV2.Accepted.readPage_eq [Zod] {p : SyncPageV2}
    (hcursor : ∀ t : Option String, readNextCursor (some ((t.map Json.string).getD .null)) = some t)
    (h : p.Accepted) (hp : p.Reads v) : readPage readDeletedAt readNextCursor v = some p := by
  obtain ⟨vs, hmutations, hall⟩ := hp.mutations
  have hversion : readU8 (unsigned p.schemaVersion) = some p.schemaVersion :=
    readUnsigned_unsigned (by rw [h.schemaVersion]; decide)
  have hread : readVec (readMutation readDeletedAt) (.array vs) = some p.mutations :=
    readVec_of_forall₂ hall fun m hm w hw => (h.mutations m hm).readMutation_eq hdeleted hw
  rw [readPage, if_pos hp.known, readField_eq hp.schemaVersion hversion,
    readField_text hp.workspaceId,
    readField_eq hp.fromServerRevisionExclusive (readU64_unsigned h.start),
    readField_eq hp.throughServerRevisionInclusive (readU64_unsigned h.through),
    readField_eq hmutations hread, readField_eq hp.returnedThroughServerRevision
      (readU64_unsigned (h.returned_le.trans h.through)), hp.nextCursor, hcursor,
    readField_text hp.pageDigest]
  rfl

end

theorem readOptional_map (t : Option String) : readOptional (t.map Json.string) = some t := by
  cases t <;> rfl

theorem readOptional_null (t : Option String) :
    readOptional (some ((t.map Json.string).getD .null)) = some t := by
  cases t <;> rfl

theorem SyncMutationV2.Accepted.deserialize_eq [Zod] (h : m.Accepted) (hm : m.Reads v) :
    deserialize v = some m :=
  h.readMutation_eq readOptional_map hm

theorem SyncPageV2.Accepted.deserialize_eq [Zod] {p : SyncPageV2} (h : p.Accepted)
    (hp : p.Reads v) : deserialize v = some p :=
  h.readPage_eq readOptional_map readOptional_null hp

/-! ## What is written back -/

theorem sortKeys_array {α : Type} {serialize : α → Json String} {R : α → Json String → Prop}
    {as : List α} {vs : List (Json String)} (hall : List.Forall₂ R as vs)
    (h : ∀ a v, R a v → (serialize a).sortKeys asBytes = v.sortKeys asBytes) :
    (Json.array (as.map serialize)).sortKeys asBytes = (Json.array vs).sortKeys asBytes := by
  rw [Json.sortKeys, Json.sortKeys]
  congr 1
  induction hall with
  | nil => rfl
  | cons ha _ ih => rw [map_cons, Json.sortItems, Json.sortItems, h _ _ ha, ih]

theorem SyncChangedFieldV2.Reads.sameFields (h : c.Reads (.object es)) :
    SameFields c.entries es := by
  refine SameFields.of_names SyncChangedFieldV2.names (by decide) (List.Sublist.refl _) h.known ?_
  simp only [SyncChangedFieldV2.names, forall_mem_cons, h.fieldPath, h.value]
  exact ⟨rfl, rfl, forall_mem_nil _⟩

theorem object_of_known {names : List String} (h : knownFields names v = true) :
    ∃ es, v = .object es := by
  cases v with
  | object es => exact ⟨es, rfl⟩
  | _ => cases h

theorem SyncChangedFieldV2.Reads.sortKeys
    (h : c.Reads v) : c.serialize.sortKeys asBytes = v.sortKeys asBytes := by
  obtain ⟨es, rfl⟩ := object_of_known h.known
  exact h.sameFields.sortKeys

theorem SyncMutationV2.keys_entries (m : SyncMutationV2) :
    (m.entries.map Prod.fst).Sublist SyncMutationV2.names := by
  rcases m with ⟨_, _, _, _, _, _, _, _ | t⟩
  · show List.Sublist (SyncMutationV2.names.erase "deletedAt") SyncMutationV2.names
    exact erase_sublist
  · exact List.Sublist.refl _

theorem SyncMutationV2.Reads.sameFields (h : m.Reads (.object es)) :
    SameFields m.entries es := by
  obtain ⟨vs, hfields, hall⟩ := h.changedFields
  have hchanged := sortKeys_array hall fun _ _ hc => hc.sortKeys
  refine SameFields.of_names SyncMutationV2.names (by decide) m.keys_entries h.known ?_
  simp only [SyncMutationV2.names, forall_mem_cons, h.schemaVersion, h.mutationId,
    h.workspaceId, h.workspaceSchemaVersion, h.entityType, h.entityId, h.operationKind, h.deletedAt,
    h.baseServerRevision, hfields, h.sourceDeviceId, h.activeLeaseEpoch, h.deviceMutationSequence,
    h.serverRevision]
  rcases m with ⟨_, _, _, _, _, _, _, _ | t⟩
  all_goals
    exact ⟨rfl, rfl, rfl, rfl, rfl, rfl, rfl, rfl, rfl, congrArg some hchanged, rfl, rfl, rfl, rfl,
      forall_mem_nil _⟩

theorem SyncMutationV2.Reads.sortKeys (h : m.Reads v) :
    m.serialize.sortKeys asBytes = v.sortKeys asBytes := by
  obtain ⟨es, rfl⟩ := object_of_known h.known
  exact h.sameFields.sortKeys

theorem SyncPageV2.Reads.sameFields {p : SyncPageV2} (h : p.Reads (.object es)) :
    SameFields p.entries es := by
  obtain ⟨vs, hmutations, hall⟩ := h.mutations
  have hitems := sortKeys_array hall fun _ _ hm => hm.sortKeys
  refine SameFields.of_names SyncPageV2.names (by decide) (List.Sublist.refl _) h.known ?_
  simp only [SyncPageV2.names, forall_mem_cons, h.schemaVersion, h.workspaceId,
    h.fromServerRevisionExclusive, h.throughServerRevisionInclusive, hmutations,
    h.returnedThroughServerRevision, h.nextCursor, h.pageDigest]
  exact ⟨rfl, rfl, rfl, rfl, congrArg some hitems, rfl, rfl, rfl, forall_mem_nil _⟩

/-! ## The digests agree -/

section

variable (sha256 : Bytes → Bytes)

/-- The text of the digest that both sides take of a value. -/
def digestText (domain : String) (v : Json JsString) : String :=
  (sha256 (frame 'd' (textEncode (js domain)) ++ frame 'v' (canonicalBytes v))).base64Url

theorem domainDigest_eq (domain : String) (h : v.allOf isAsciiKey isSafeInteger = true) :
    domainDigest sha256 domain v = .ok (digestText sha256 domain (v.map js)) := by
  rw [domainDigest, canonicalWireValue_eq h, digestText, js, textEncode_utf16]
  exact congrArg Except.ok (base64url_eq _)

theorem plain_of_image (h : (v.map js).allOf isAsciiKey isSafeInteger = true) :
    v.allOf isAsciiKey isSafeInteger = true := by
  rwa [Json.allOf_map] at h

/-- The page as it is: the cloud's digest and `canonical_page_digest`. -/
theorem canonicalPageDigest_of_schema [Zod] (h : mutationPageSchema (v.map js) = true) :
    ∃ d, Canonical.pageDigest sha256 (v.map js) = some d ∧
      canonicalPageDigest sha256 v = .ok d := by
  have hplain := plain_of_image (mutationPageSchema_plain _ h)
  have hcloud : Canonical.pageDigest sha256 (v.map js) = some (digestText sha256
      "GOODDEALER-WORKSPACE-MUTATION-PAGE-V2" ((v.without "pageDigest").map js)) := by
    have hinput := Transcript.input_of_schema (t := .page) h
    rw [Transcript.content, Json.without_map] at hinput
    exact congrArg (Option.map fun input => (sha256 input).base64Url) hinput
  obtain ⟨p, -, hreads⟩ := SyncPageV2.exists_reads h
  obtain ⟨es, rfl⟩ := object_of_known hreads.known
  exact ⟨_, hcloud, domainDigest_eq sha256 _ (Json.allOf_without hplain)⟩

theorem without_insertField (k : String) (w : Json String) (es : List (String × Json String)) :
    (insertField k w (.object es)).without k = (Json.object es).without k := by
  simp only [insertField, Json.without, filter_cons, bne_self_eq_false, filter_filter,
    Bool.and_self, Bool.false_eq_true, if_false]

/-- The page read into records: the digest that `apply_sync_page_v2` expects. -/
theorem expectedPageDigest_of_reads {p : SyncPageV2} (h : p.Reads v) :
    expectedPageDigest sha256 p = canonicalPageDigest sha256 v := by
  obtain ⟨es, rfl⟩ := object_of_known h.known
  have hunfold : ∀ w, canonicalPageDigest sha256 (insertField "pageDigest" w (.object p.entries)) =
      domainDigest sha256 "GOODDEALER-WORKSPACE-MUTATION-PAGE-V2"
        ((insertField "pageDigest" w (.object p.entries)).without "pageDigest") := fun _ => rfl
  rw [expectedPageDigest, SyncPageV2.serialize, hunfold, without_insertField]
  exact congrArg (Except.map _)
    (canonicalWireValue_congr (h.sameFields.without "pageDigest").sortKeys)

theorem validateSubmittedSyncMutation_without {v : Json JsString} {k : String}
    (h₁ : "operationKind" ≠ k) (h₂ : "changedFields" ≠ k) (h₃ : "deletedAt" ≠ k) :
    validateSubmittedSyncMutation (v.without k) = validateSubmittedSyncMutation v := by
  have hkind : (v.without k).textOf "operationKind" = v.textOf "operationKind" := by
    rw [Json.textOf, Json.textOf, Json.field_without, if_neg h₁]
  have hfields : (v.without k).itemsOf "changedFields" = v.itemsOf "changedFields" := by
    rw [Json.itemsOf, Json.itemsOf, Json.field_without, if_neg h₂]
  rw [validateSubmittedSyncMutation, validateSubmittedSyncMutation, hkind, hfields,
    Json.field_without, if_neg h₃]

/-- What the cloud logged of an accepted mutation is an accepted submission. -/
theorem submitted_of_syncMutation [Zod] {v : Json JsString} (h : syncMutationSchema v = true) :
    tenantNeutralSubmittedSyncMutationSchema
      ((v.without "serverRevision").without "workspaceId") = true := by
  simp only [syncMutationSchema, Schema.refine, and_eq_true] at h
  obtain ⟨⟨hobject, hvalidate⟩, -⟩ := h
  rw [tenantNeutralSubmittedSyncMutationSchema, Schema.refine, and_eq_true]
  constructor
  · exact strictObject_without (strictObject_without hobject "serverRevision") "workspaceId"
  · rwa [validateSubmittedSyncMutation_without (by decide) (by decide) (by decide),
      validateSubmittedSyncMutation_without (by decide) (by decide) (by decide)]

theorem canonicalMutationDigest_of_schema [Zod] (h : syncMutationSchema (v.map js) = true)
    (hm : m.Reads v) :
    ∃ d, wireDigest sha256 ((v.map js).without "serverRevision") = some d ∧
      SyncMutationV2.canonicalMutationDigest sha256 m = .ok d := by
  have hplain := plain_of_image (syncMutationSchema_plain _ h)
  have hcontent : ((v.map js).without "serverRevision").without "workspaceId" =
      ((v.without "workspaceId").without "serverRevision").map js := by
    rw [Json.without_map, Json.without_map, Json.without_comm]
  have hcloud : wireDigest sha256 ((v.map js).without "serverRevision") = some (digestText sha256
      "GOODDEALER-WORKSPACE-MUTATION-V2"
      (((v.without "workspaceId").without "serverRevision").map js)) := by
    have hinput := Transcript.input_of_schema (t := .mutation) (submitted_of_syncMutation h)
    rw [Transcript.content, id, hcontent] at hinput
    rw [wireDigest, hcontent]
    exact congrArg (Option.map fun input => (sha256 input).base64Url) hinput
  refine ⟨_, hcloud, ?_⟩
  obtain ⟨es, rfl⟩ := object_of_known hm.known
  have hsame : ((m.serialize.without "workspaceId").without "serverRevision").sortKeys asBytes =
      (((Json.object es).without "workspaceId").without "serverRevision").sortKeys asBytes :=
    ((hm.sameFields.without "workspaceId").without "serverRevision").sortKeys
  rw [SyncMutationV2.canonicalMutationDigest, canonicalSyncDigest, domainDigest,
    canonicalWireValue_congr hsame, ← domainDigest]
  exact domainDigest_eq sha256 _ (Json.allOf_without (Json.allOf_without hplain))

end

/-- A submission loses its workspace. -/
theorem tenantNeutral_of_submitted [Zod] {v : Json JsString}
    (h : submittedSyncMutationSchema v = true) :
    tenantNeutralSubmittedSyncMutationSchema (v.without "workspaceId") = true := by
  simp only [submittedSyncMutationSchema, Schema.refine, and_eq_true] at h
  rw [tenantNeutralSubmittedSyncMutationSchema, Schema.refine, and_eq_true]
  constructor
  · exact strictObject_without h.1 "workspaceId"
  · rw [validateSubmittedSyncMutation_without (by decide) (by decide) (by decide)]
    exact h.2

theorem canonicalSyncDigest_of_schema [Zod] (sha256 : Bytes → Bytes)
    (h : submittedSyncMutationSchema (v.map js) = true) :
    ∃ d, wireDigest sha256 (v.map js) = some d ∧
      canonicalSyncDigest sha256 (v.without "workspaceId") = .ok d := by
  have hplain := plain_of_image (submittedSyncMutationSchema_plain _ h)
  have hinput := Transcript.input_of_schema (t := .mutation) (tenantNeutral_of_submitted h)
  rw [Transcript.content, id, Json.without_map] at hinput
  refine ⟨_, ?_, domainDigest_eq sha256 _ (Json.allOf_without hplain)⟩
  rw [wireDigest, Json.without_map]
  exact congrArg (Option.map fun input => (sha256 input).base64Url) hinput

/-- The two codecs give the same bytes, and the digest the cloud stores of a mutation or a
page is the text the desktop computes. -/
theorem canonicalDigests_agree [Zod] (sha256 : Bytes → Bytes) :
    (∀ v : Json String, v.allOf isAsciiKey isSafeInteger = true → ∃ bytes,
      encodeCanonicalWireValue (v.map js) = some bytes ∧ canonicalWireValue v = .ok bytes) ∧
    (∀ v : Json String, submittedSyncMutationSchema (v.map js) = true → ∃ digest,
      wireDigest sha256 (v.map js) = some digest ∧
      canonicalSyncDigest sha256 (v.without "workspaceId") = .ok digest) ∧
    (∀ v : Json String, syncMutationSchema (v.map js) = true → ∃ mutation digest,
      SyncMutationV2.deserialize v = some mutation ∧
      wireDigest sha256 ((v.map js).without "serverRevision") = some digest ∧
      SyncMutationV2.canonicalMutationDigest sha256 mutation = .ok digest) ∧
    (∀ v : Json String, mutationPageSchema (v.map js) = true → ∃ page digest,
      SyncPageV2.deserialize v = some page ∧
      Canonical.pageDigest sha256 (v.map js) = some digest ∧
      canonicalPageDigest sha256 v = .ok digest ∧ expectedPageDigest sha256 page = .ok digest) := by
  refine ⟨fun v hv => ?_, fun v hv => canonicalSyncDigest_of_schema sha256 hv, fun v hv => ?_,
    fun v hv => ?_⟩
  · exact ⟨_, encode_of_plain (by rw [Json.allOf_map]; exact hv), canonicalWireValue_eq hv⟩
  · obtain ⟨m, hm, hreads⟩ := SyncMutationV2.exists_reads hv
    obtain ⟨d, hcloud, hdesktop⟩ := canonicalMutationDigest_of_schema sha256 hv hreads
    exact ⟨m, d, hm.deserialize_eq hreads, hcloud, hdesktop⟩
  · obtain ⟨p, hp, hreads⟩ := SyncPageV2.exists_reads hv
    obtain ⟨d, hcloud, hdesktop⟩ := canonicalPageDigest_of_schema sha256 hv
    exact ⟨p, d, hp.deserialize_eq hreads, hcloud,
      hdesktop, by rw [expectedPageDigest_of_reads sha256 hreads, hdesktop]⟩

/-- A mutation that deletes `a.com`. -/
def deletionMutation : Json String :=
  .object [("schemaVersion", .number 2), ("mutationId", .string "m1"),
    ("workspaceId", .string "w1"),
    ("workspaceSchemaVersion", .number 1), ("entityType", .string "domain_asset"),
    ("entityId", .string "a.com"), ("operationKind", .string "delete"),
    ("deletedAt", .string "2026-08-20T00:00:00Z"), ("baseServerRevision", .number 0),
    ("changedFields", .array []), ("sourceDeviceId", .string "d1"), ("activeLeaseEpoch", .number 1),
    ("deviceMutationSequence", .number 1), ("serverRevision", .number 1)]

/-- The page with this mutation, and no cursor. -/
def deletionPage : Json String :=
  .object [("schemaVersion", .number 2), ("workspaceId", .string "w1"),
    ("fromServerRevisionExclusive", .number 0), ("throughServerRevisionInclusive", .number 1),
    ("mutations", .array [deletionMutation]), ("returnedThroughServerRevision", .number 1),
    ("nextCursor", .null), ("pageDigest", .string "AAAAAAAAAAAAAAAAAAAAAAAAAAAAAAAAAAAAAAAAAAA")]

attribute [local instance] codePointZod

theorem canonicalDigests_agree_sample :
    (∃ bytes, encodeCanonicalWireValue (deletionPage.map js) = some bytes ∧
      canonicalWireValue deletionPage = .ok bytes) ∧
    (∃ digest, wireDigest id ((deletionMutation.without "serverRevision").map js) = some digest ∧
      canonicalSyncDigest id ((deletionMutation.without "serverRevision").without "workspaceId") =
        .ok digest) ∧
    (∃ mutation digest, SyncMutationV2.deserialize deletionMutation = some mutation ∧
      wireDigest id ((deletionMutation.map js).without "serverRevision") = some digest ∧
      SyncMutationV2.canonicalMutationDigest id mutation = .ok digest) ∧
    (∃ page digest, SyncPageV2.deserialize deletionPage = some page ∧
      Canonical.pageDigest id (deletionPage.map js) = some digest ∧
      canonicalPageDigest id deletionPage = .ok digest ∧
        expectedPageDigest id page = .ok digest) := by
  obtain ⟨hbytes, hsubmitted, hmutation, hpage⟩ := canonicalDigests_agree id
  exact ⟨hbytes _ (by decide +kernel), hsubmitted _ (by decide +kernel),
    hmutation _ (by decide +kernel), hpage _ (by decide +kernel)⟩

end GoodDealer.Desktop
