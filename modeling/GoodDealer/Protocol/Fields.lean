/-
# `GoodDealer.Protocol.Fields` — the value schemas of a domain asset

The wire schemas for identifiers, domain names, notes, tags and prices, as
decidable predicates on strings.  A string is a sequence of Unicode scalar
values here, and byte order on UTF-8 is the order of `String`.  The length of a note
or a tag is counted in characters; that zod does so is the assumption
`CountsCodePoints` of `Protocol.Schemas`.

| schema | predicate |
| :-- | :-- |
| `identifier` | `validIdentifier` |
| `domainAssetIdSchema` | `validDomainAssetId` |
| `domainAssetNoteSchema` | `validNote` |
| `domainAssetTagSchema`, `domainAssetTagsSchema` | `validTag`, `validTags` |
| `canonicalMoneySchema` | `Money.valid` |
-/
import Mathlib.Data.List.Basic
import Mathlib.Data.String.Basic
import Mathlib.Tactic.MkIffOfInductiveProp

namespace GoodDealer

/-- `Number.MAX_SAFE_INTEGER`, the bound of every integer on the wire. -/
def maxSafeInteger : Nat := 9007199254740991

/-- The length of a JavaScript string. -/
def utf16Length (s : String) : Nat :=
  s.toList.foldl (fun n c => n + if c.toNat < 0x10000 then 1 else 2) 0

/-! ## Character classes -/

/-- `\p{Cc}`. -/
def isControl (c : Char) : Bool := c.toNat ≤ 0x1f || (0x7f ≤ c.toNat && c.toNat ≤ 0x9f)

/-- The code points of `\p{Cf}`, as closed ranges. -/
def formatRanges : List (Nat × Nat) :=
  [(0xad, 0xad), (0x600, 0x605), (0x61c, 0x61c), (0x6dd, 0x6dd), (0x70f, 0x70f),
   (0x890, 0x891), (0x8e2, 0x8e2), (0x180e, 0x180e), (0x200b, 0x200f), (0x202a, 0x202e),
   (0x2060, 0x2064), (0x2066, 0x206f), (0xfeff, 0xfeff), (0xfff9, 0xfffb), (0x110bd, 0x110bd),
   (0x110cd, 0x110cd), (0x13430, 0x1343f), (0x1bca0, 0x1bca3), (0x1d173, 0x1d17a),
   (0xe0001, 0xe0001), (0xe0020, 0xe007f)]

/-- `\p{Cf}`. -/
def isFormat (c : Char) : Bool := formatRanges.any (fun r => r.1 ≤ c.toNat && c.toNat ≤ r.2)

/-- The characters `String.prototype.trim` removes. -/
def isTrimmed (c : Char) : Bool :=
  (9 ≤ c.toNat && c.toNat ≤ 13) || c.toNat == 0x20 || c.toNat == 0xa0 || c.toNat == 0x1680 ||
    (0x2000 ≤ c.toNat && c.toNat ≤ 0x200a) || c.toNat == 0x2028 || c.toNat == 0x2029 ||
    c.toNat == 0x202f || c.toNat == 0x205f || c.toNat == 0x3000 || c.toNat == 0xfeff

def isLowerAlnum (c : Char) : Bool := ('a' ≤ c && c ≤ 'z') || ('0' ≤ c && c ≤ '9')

/-! ## Schemas -/

/-- `identifier`: 1 to 160 characters of `!` to `~`. -/
def validIdentifier (s : String) : Bool :=
  1 ≤ s.toList.length && s.toList.length ≤ 160 && s.toList.all (fun c => '!' ≤ c && c ≤ '~')

/-- One label of a domain name: 1 to 63 characters, no hyphen at either end. -/
def validDomainLabel (l : List Char) : Bool :=
  1 ≤ l.length && l.length ≤ 63 && l.all (fun c => isLowerAlnum c || c == '-') &&
    l.head? != some '-' && l.getLast? != some '-'

/-- `domainAssetIdSchema`: 3 to 253 characters, two labels or more. -/
def validDomainAssetId (s : String) : Bool :=
  3 ≤ s.toList.length && s.toList.length ≤ 253 &&
    2 ≤ (s.toList.splitOn '.').length && (s.toList.splitOn '.').all validDomainLabel

/-- `domainAssetNoteSchema`: tab, line feed and carriage return are the only controls. -/
def validNote (s : String) : Bool :=
  s.toList.length ≤ 10000 &&
    s.toList.all (fun c => !isFormat c && (!isControl c || c == '\t' || c == '\n' || c == '\r'))

/-- `domainAssetTagSchema`. -/
def validTag (s : String) : Bool :=
  1 ≤ s.toList.length && s.toList.length ≤ 64 &&
    s.toList.all (fun c => !isControl c && !isFormat c) &&
    !(s.toList.head?.any isTrimmed) && !(s.toList.getLast?.any isTrimmed)

/-- `domainAssetTagsSchema`: at most 128 tags, unique and strictly ascending. -/
def validTags (tags : List String) : Bool :=
  tags.length ≤ 128 && tags.all validTag && decide (tags.Pairwise (· < ·))

/-- `canonicalMoneySchema`. -/
structure Money where
  currency : String
  amount : String
deriving DecidableEq

def isDigit (c : Char) : Bool := '0' ≤ c && c ≤ '9'

/-- `^(0|[1-9]\d{0,15})(\.\d{0,7}[1-9])?$`. -/
def validAmount (s : String) : Bool :=
  let whole (w : List Char) : Bool :=
    1 ≤ w.length && w.length ≤ 16 && w.all isDigit && (w.length == 1 || w.head? != some '0')
  match s.toList.splitOn '.' with
  | [w] => whole w
  | [w, f] => whole w && 1 ≤ f.length && f.length ≤ 8 && f.all isDigit && f.getLast? != some '0'
  | _ => false

def Money.valid (m : Money) : Bool :=
  m.currency.toList.length == 3 && m.currency.toList.all (fun c => 'A' ≤ c && c ≤ 'Z') &&
    validAmount m.amount

end GoodDealer
