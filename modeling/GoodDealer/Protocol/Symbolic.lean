/-
# `GoodDealer.Protocol.Symbolic` — a platform without collisions

The free model of the primitives: a digest or token is the term that was hashed
or signed.  It satisfies `Platform.Injective`, so that assumption is consistent,
and its equality is decidable, so concrete runs can be evaluated.
-/
import GoodDealer.Protocol.Page

namespace GoodDealer

/-- The part of a hashed or signed value that holds no opaque text. -/
inductive SymbolicLabel where
  | literal (s : String)
  | mutation (m : SubmittedSyncMutationWire)
  | page (workspaceId : String) (fromRevision through : Nat) (mutations : List SyncMutation)
      (returnedThrough : Nat)
  | token
  | domainAssets (rows : List DomainAssetProjectionRow)
  | entityDigests
  | entityDigest (partitionId : Option String)
  | cursor (reader : ReaderBinding) (fromRevision through target : Nat) (expiresAt : Timestamp)
  | confirm (reader : ReaderBinding) (fromRevision through target : Nat) (expiresAt : Timestamp)
  | present
deriving DecidableEq

/-- Terms. -/
inductive Symbolic where
  | absent
  | node (label : SymbolicLabel) (first second third : Symbolic)
deriving DecidableEq

namespace Symbolic

def ofOption : Option Symbolic → Symbolic
  | none => absent
  | some s => node .present s absent absent

def ofDigests : List (WorkspaceEntityDigest Symbolic) → Symbolic
  | [] => absent
  | d :: ds => node (.entityDigest d.partitionId) d.digest (ofDigests ds) absent

def sha256 : HashInput Symbolic → Symbolic
  | .mutation m => node (.mutation m) absent absent absent
  | .page ws a t ms r c => node (.page ws a t ms r) (ofOption c) absent absent
  | .token t => node .token t absent absent
  | .domainAssets rows => node (.domainAssets rows) absent absent absent
  | .entityDigests ds => node .entityDigests (ofDigests ds) absent absent

def hmacSha256 : PullTokenInput Symbolic → Symbolic
  | .cursor r a b t e => node (.cursor r a b t e) absent absent absent
  | .confirm r a b t d n p e => node (.confirm r a b t e) d (ofOption n) (ofOption p)

/-- The free platform. -/
def platform : Platform Symbolic where
  sha256 := sha256
  hmacSha256 := hmacSha256
  literal s := node (.literal s) absent absent absent

theorem ofOption_injective : Function.Injective ofOption := by
  intro a b h
  cases a <;> cases b <;> cases h <;> rfl

theorem ofDigests_injective : Function.Injective ofDigests := by
  intro a
  induction a with
  | nil =>
    intro b h
    cases b with
    | nil => rfl
    | cons d ds => cases h
  | cons d ds ih =>
    intro b h
    cases b with
    | nil => cases h
    | cons e es =>
      simp only [ofDigests, node.injEq, SymbolicLabel.entityDigest.injEq, and_true] at h
      obtain ⟨hp, hd, hs⟩ := h
      rw [ih hs]
      cases d
      cases e
      cases hp
      cases hd
      rfl

theorem sha256_injective : Function.Injective sha256 := by
  intro a b h
  cases a <;> cases b <;>
    simp only [sha256, node.injEq, reduceCtorEq, false_and, and_true, true_and] at h
  case mutation.mutation => cases h; rfl
  case page.page =>
    obtain ⟨hl, hc⟩ := h
    cases hl
    rw [ofOption_injective hc]
  case token.token => rw [h]
  case domainAssets.domainAssets => cases h; rfl
  case entityDigests.entityDigests => rw [ofDigests_injective h]

theorem hmacSha256_injective : Function.Injective hmacSha256 := by
  intro a b h
  cases a <;> cases b <;>
    simp only [hmacSha256, node.injEq, reduceCtorEq, false_and, and_true] at h
  case cursor.cursor => cases h; rfl
  case confirm.confirm =>
    obtain ⟨hl, hd, hn, hp⟩ := h
    cases hl
    rw [hd, ofOption_injective hn, ofOption_injective hp]

theorem platform_injective : platform.Injective :=
  ⟨sha256_injective, hmacSha256_injective⟩

end Symbolic

end GoodDealer
