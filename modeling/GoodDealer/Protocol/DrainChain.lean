/-
# `GoodDealer.Protocol.DrainChain` — the rolling digest of a drain stream

A device numbers the envelopes of a stream from 1 on.  The digest after an
envelope is SHA-256 of the digest before it and the envelope behind its length,
beginning with the digest of a fixed text.  SHA-256 is a parameter: all that is
assumed of it, where it matters, is that it does not collide on the inputs of
the chains at hand (`chainInputs`).

`chainDigest_inj`: two chains of one length that end in the same digest are the
same chain.
-/
import GoodDealer.Lib.Bytes
import Mathlib.Data.Set.Function

namespace GoodDealer

open List

/-- 32 bytes. -/
structure Digest where
  bytes : Bytes
  length : bytes.length = 32
deriving DecidableEq

namespace Digest

theorem ext_bytes {d d' : Digest} (h : d.bytes = d'.bytes) : d = d' := by
  cases d
  cases d'
  cases h
  rfl

/-- `encodeSha256Digest`. -/
def encode (d : Digest) : String := Bytes.base64Url d.bytes

theorem encode_inj {d d' : Digest} (h : d.encode = d'.encode) : d = d' := by
  refine ext_bytes (Bytes.base64Chars_inj (d.length.trans d'.length.symm) ?_)
  simpa [encode, Bytes.base64Url] using congrArg String.toList h

end Digest

/-- `DRAIN_STREAM_GENESIS_DIGEST`: SHA-256 of `DRAIN_STREAM_GENESIS_DOMAIN`. -/
def drainStreamGenesisDigest : Digest where
  bytes := [0xe7, 0xc2, 0x2d, 0xea, 0x8e, 0xb6, 0x19, 0x91, 0xa6, 0x5e, 0x0c, 0xba, 0xf8,
    0x44, 0x75,
    0xad, 0xec, 0xf0, 0x61, 0x7f, 0x8b, 0x09, 0x95, 0x49, 0xce, 0x56, 0x6e, 0x64, 0xe1, 0x9c, 0x59,
    0x4b]
  length := rfl

/-- The text of the constant in the source. -/
theorem encode_drainStreamGenesisDigest :
    drainStreamGenesisDigest.encode = "58It6o62GZGmXgy6-ER1rezwYX-LCZVJzlZuZOGcWUs" := by
  decide +kernel

/-- `encodeUint32`; a longer envelope throws. -/
def encodeUint32 (n : Nat) : Option Bytes := if n ≤ 0xffffffff then some (Bytes.uint32 n) else none

/-- `encodeLengthPrefixedDrainBytes`. -/
def encodeLengthPrefixedDrainBytes (value : Bytes) : Option Bytes :=
  (encodeUint32 value.length).map (· ++ value)

/-- `encodeDrainChainStepInput`. -/
def encodeDrainChainStepInput (previousDigest : Digest) (envelope : Bytes) : Option Bytes :=
  (encodeLengthPrefixedDrainBytes envelope).map (previousDigest.bytes ++ ·)

theorem encodeDrainChainStepInput_eq_some {d : Digest} {e input : Bytes} :
    encodeDrainChainStepInput d e = some input ↔
      e.length ≤ 0xffffffff ∧ input = d.bytes ++ Bytes.lengthPrefixed e := by
  unfold encodeDrainChainStepInput encodeLengthPrefixedDrainBytes encodeUint32
  split
  next h => simp [h, Bytes.lengthPrefixed, eq_comm]
  next h => simp [h]

/-- The encoding of a step is unambiguous. -/
theorem encodeDrainChainStepInput_inj {d d' : Digest} {e e' input : Bytes}
    (h : encodeDrainChainStepInput d e = some input)
    (h' : encodeDrainChainStepInput d' e' = some input) : d = d' ∧ e = e' := by
  obtain ⟨hlen, rfl⟩ := encodeDrainChainStepInput_eq_some.mp h
  obtain ⟨hlen', heq⟩ := encodeDrainChainStepInput_eq_some.mp h'
  obtain ⟨hd, hrest⟩ := append_inj heq (d.length.trans d'.length.symm)
  have he : e = e' ∧ ([] : Bytes) = [] := by
    apply Bytes.lengthPrefixed_append_inj (by omega) (by omega)
    simpa using hrest
  exact ⟨Digest.ext_bytes hd, he.1⟩

variable (sha256 : Bytes → Digest)

/-- The digest after one more envelope. -/
def chainStep (d : Digest) (envelope : Bytes) : Option Digest :=
  (encodeDrainChainStepInput d envelope).map sha256

/-- The digest after a list of envelopes. -/
def chainDigest (d : Digest) (envelopes : List Bytes) : Option Digest :=
  envelopes.foldlM (chainStep sha256) d

/-- What SHA-256 is applied to along a chain. -/
def chainInputs : Digest → List Bytes → List Bytes
  | _, [] => []
  | d, e :: es =>
    match encodeDrainChainStepInput d e with
    | none => []
    | some input => input :: chainInputs (sha256 input) es

variable {sha256}

@[simp] theorem chainDigest_nil (d : Digest) : chainDigest sha256 d [] = some d := rfl

@[simp] theorem chainDigest_cons (d : Digest) (e : Bytes) (es : List Bytes) :
    chainDigest sha256 d (e :: es) = (chainStep sha256 d e).bind (chainDigest sha256 · es) := rfl

theorem chainDigest_concat (d : Digest) (es : List Bytes) (e : Bytes) :
    chainDigest sha256 d (es ++ [e]) = (chainDigest sha256 d es).bind (chainStep sha256 · e) := by
  induction es generalizing d with
  | nil =>
    simp only [nil_append, chainDigest_cons, chainDigest_nil, Option.bind_some]
    exact Option.bind_fun_some _
  | cons a es ih =>
    simp only [cons_append, chainDigest_cons]
    cases chainStep sha256 d a with
    | none => rfl
    | some d' => exact ih d'

theorem chainStep_eq_some {d h : Digest} {e : Bytes} :
    chainStep sha256 d e = some h ↔
      ∃ input, encodeDrainChainStepInput d e = some input ∧ sha256 input = h :=
  Option.map_eq_some_iff

/-- Two chains of one length that end in the same digest began with the same digest and
hold the same envelopes. -/
theorem chainDigest_inj : ∀ {es fs : List Bytes} {d d' h : Digest},
    Set.InjOn sha256 {x | x ∈ chainInputs sha256 d es ∨ x ∈ chainInputs sha256 d' fs} →
    es.length = fs.length → chainDigest sha256 d es = some h → chainDigest sha256 d' fs = some h →
    d = d' ∧ es = fs := by
  intro es
  induction es with
  | nil =>
    intro fs d d' h _ hlen hes hfs
    obtain rfl := length_eq_zero_iff.mp hlen.symm
    cases hes
    cases hfs
    exact ⟨rfl, rfl⟩
  | cons a es ih =>
    intro fs d d' h hinj hlen hes hfs
    obtain ⟨b, fs, rfl⟩ := exists_cons_of_length_eq_add_one hlen.symm
    rw [chainDigest_cons] at hes hfs
    obtain ⟨d₁, ha, hes⟩ := Option.bind_eq_some_iff.mp hes
    obtain ⟨d₁', hb, hfs⟩ := Option.bind_eq_some_iff.mp hfs
    obtain ⟨x, hx, rfl⟩ := chainStep_eq_some.mp ha
    obtain ⟨y, hy, rfl⟩ := chainStep_eq_some.mp hb
    simp only [chainInputs, hx, hy, mem_cons] at hinj
    -- the digests after the first envelopes agree by induction, so their inputs do
    obtain ⟨hxy, rfl⟩ := ih (hinj.mono (by rintro z (hz | hz) <;> simp [hz]))
      (by simpa using hlen) hes hfs
    obtain rfl := hinj (by simp) (by simp) hxy
    obtain ⟨rfl, rfl⟩ := encodeDrainChainStepInput_inj hx hy
    exact ⟨rfl, rfl⟩

/-- A digest to run examples with: 32 copies of the sum of the bytes. -/
def checksum (bytes : Bytes) : Digest :=
  ⟨List.replicate 32 (bytes.foldl (· + ·) 0), length_replicate⟩

end GoodDealer
