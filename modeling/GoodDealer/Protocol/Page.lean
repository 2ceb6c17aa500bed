/-
# `GoodDealer.Protocol.Page` — mutation pages, and the primitives outside the repository

A page is a run of consecutive log entries `(from, returnedThrough]` on the way
to a pinned target `through`; it ends in a continuation cursor exactly when it
stops short of the target.

`H` is the type of opaque texts: SHA-256 digests and HMAC-SHA-256 tokens in
base64url, and the cursor literals.  `Platform H` is what both programs take
from outside the repository.  A digest input is the domain-separated value that
is hashed, one constructor for each domain; a token input is the binding that
is signed.  `Platform.Injective` is the assumption that neither primitive
collides on those inputs.
-/
import GoodDealer.Protocol.Projection
import GoodDealer.Lib.Dense

namespace GoodDealer

/-- `workspaceEntityDigestSchema`; the entity type is fixed. -/
structure WorkspaceEntityDigest (H : Type) where
  partitionId : Option String
  digest : H
deriving DecidableEq

/-- The values SHA-256 is applied to. -/
inductive HashInput (H : Type) where
  /-- `encodeSubmittedSyncMutationDigestInput`. -/
  | mutation (m : SubmittedSyncMutationWire)
  /-- `encodeMutationPageDigestInput`: a page without its digest. -/
  | page (workspaceId : String) (fromServerRevisionExclusive throughServerRevisionInclusive : Nat)
      (mutations : List SyncMutation) (returnedThroughServerRevision : Nat) (nextCursor : Option H)
  /-- `digestToken`. -/
  | token (t : H)
  /-- `encodeDomainAssetProjectionDigestInput`. -/
  | domainAssets (rows : List DomainAssetProjectionRow)
  /-- `encodeWorkspaceEntityDigestsInput`. -/
  | entityDigests (digests : List (WorkspaceEntityDigest H))
deriving DecidableEq

/-- Whose reader cursor a token is bound to. -/
structure ReaderBinding where
  accountId : String
  workspaceId : String
  deviceId : String
  generation : Nat
deriving DecidableEq

/-- The values HMAC-SHA-256 is applied to, by `opaqueToken`. -/
inductive PullTokenInput (H : Type) where
  | cursor (reader : ReaderBinding) (fromRevision through target : Nat) (expiresAt : Timestamp)
  | confirm (reader : ReaderBinding) (fromRevision through target : Nat) (pageDigest : H)
      (nextCursorDigest predecessorConfirmationDigest : Option H) (expiresAt : Timestamp)
deriving DecidableEq

/-- What the programs take from outside the repository. -/
structure Platform (H : Type) where
  sha256 : HashInput H → H
  hmacSha256 : PullTokenInput H → H
  /-- A text of the source, as an opaque text. -/
  literal : String → H

/-- Neither primitive collides on the inputs used. -/
structure Platform.Injective {H : Type} (P : Platform H) : Prop where
  sha256 : Function.Injective P.sha256
  hmacSha256 : Function.Injective P.hmacSha256

def maxMutationsPerPage : Nat := 256

structure MutationPage (H : Type) where
  workspaceId : String
  fromServerRevisionExclusive : Nat
  throughServerRevisionInclusive : Nat
  mutations : List SyncMutation
  returnedThroughServerRevision : Nat
  nextCursor : Option H
  pageDigest : H
deriving DecidableEq

namespace MutationPage

variable {H : Type}

/-- The page without its digest, as it is hashed. -/
def digestInput (p : MutationPage H) : HashInput H :=
  .page p.workspaceId p.fromServerRevisionExclusive p.throughServerRevisionInclusive p.mutations
    p.returnedThroughServerRevision p.nextCursor

/-- The revision the mutations of a page reach. -/
def expectedReturnedRevision (p : MutationPage H) : Nat :=
  match p.mutations.getLast? with
  | none => p.fromServerRevisionExclusive
  | some m => m.serverRevision

/-- `mutationPageSchema`. -/
@[mk_iff] structure Valid (p : MutationPage H) : Prop where
  length : p.mutations.length ≤ maxMutationsPerPage
  mutations : ∀ m ∈ p.mutations, m.Valid
  bounds : p.fromServerRevisionExclusive ≤ p.throughServerRevisionInclusive
  workspace : ∀ m ∈ p.mutations, m.workspaceId = p.workspaceId
  dense : DenseFrom SyncMutation.serverRevision p.fromServerRevisionExclusive p.mutations
  returned : p.returnedThroughServerRevision = p.expectedReturnedRevision
  target : p.returnedThroughServerRevision ≤ p.throughServerRevisionInclusive
  terminal : p.nextCursor = none →
    p.returnedThroughServerRevision = p.throughServerRevisionInclusive
  continued : p.nextCursor ≠ none →
    p.returnedThroughServerRevision < p.throughServerRevisionInclusive

instance decValid [DecidableEq H] (p : MutationPage H) : Decidable p.Valid :=
  decidable_of_iff _ (valid_iff p).symm

end MutationPage

/-- The last number of a dense list. -/
theorem denseFrom_getLast? {α : Type} {rev : α → Nat} {n : Nat} {l : List α}
    (h : DenseFrom rev n l) {x : α} (hx : l.getLast? = some x) : rev x = n + l.length := by
  induction l generalizing n with
  | nil => cases hx
  | cons y ys ih =>
    cases ys with
    | nil =>
      cases hx
      exact h.1
    | cons z zs =>
      rw [List.getLast?_cons_cons] at hx
      rw [ih h.2 hx]
      simp only [List.length_cons]
      omega

namespace MutationPage

variable {H : Type} {p : MutationPage H}

/-- On a dense page the reached revision is `from` plus the number of entries. -/
theorem expectedReturnedRevision_eq
    (h : DenseFrom SyncMutation.serverRevision p.fromServerRevisionExclusive p.mutations) :
    p.expectedReturnedRevision = p.fromServerRevisionExclusive + p.mutations.length := by
  rw [expectedReturnedRevision]
  cases hl : p.mutations.getLast? with
  | none => rw [List.getLast?_eq_none_iff.mp hl]; rfl
  | some m => exact denseFrom_getLast? h hl

end MutationPage

end GoodDealer
