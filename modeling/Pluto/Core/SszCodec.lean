import Pluto.Core.SignedData
import Pluto.Eth2Api.Ssz

/-!
# The SSZ codec of signed data

`crates/core/src/ssz_codec.rs`, as far as partial signatures need it.  A versioned container is
written behind a header with its version and the offset of the container.  The header of a versioned
attestation comes in two lengths, with and without a validator index; the decoder tells them apart
by the offset of the longer one, at the bytes 16 to 20.

Blocks are `Σ kind, Block kind` for a family `Block` with a codec for each kind.
-/

namespace Pluto.Core

open Except (ok_bind pure_eq_ok)
open Eth2Api Ssz SszContainer

inductive SszCodecError
  | tooShort (need got : ℕ)
  | invalidOffset (expected got : ℕ)
  | unknownVersion (raw : UInt64)
  /-- With a text of this codec. -/
  | decode (message : String)
  /-- With the text of an error of a container. -/
  | decodeContainer (error : DecodeError)
  deriving DecidableEq, Repr

namespace SszCodec

def fromSsz {α : Type} (codec : Codec α) (bytes : Bytes) : Except SszCodecError α :=
  (codec.decode bytes).mapError .decodeContainer

def require (bytes : Bytes) (need : ℕ) : Except SszCodecError Unit :=
  if bytes.length < need then .error (.tooShort need bytes.length) else .ok ()

/-! ## Versions -/

def encodeVersion (version : DataVersion) : Except SszCodecError Bytes :=
  match version.toLegacyU64 with
  | .ok raw => .ok (leBytes 8 raw.toNat)
  | .error _ => .error (.decode ("unsupported data version: " ++ version.asStr))

/-- The eight bytes of a version. -/
def decodeVersion (bytes : Bytes) : Except SszCodecError DataVersion :=
  let raw := UInt64.ofNat (readLe bytes)
  (DataVersion.fromLegacyU64 raw).mapError fun _ => .unknownVersion raw

def checkOffset (bytes : Bytes) (expected : ℕ) : Except SszCodecError Unit :=
  if readLe bytes = expected then .ok () else .error (.invalidOffset expected (readLe bytes))

/-! ## Versioned attestations -/

def versionedAttestationValIdxHeader : ℕ := 20

def versionedSignedAggregateHeader : ℕ := 12

def encodeAttestationPayload : Option AttestationPayload → Except SszCodecError Bytes
  | some (.phase0 att) | some (.altair att) | some (.bellatrix att) | some (.capella att)
  | some (.deneb att) => .ok (Phase0.attestation.encode att)
  | some (.electra att) | some (.fulu att) => .ok (Electra.attestation.encode att)
  | none => .error (.decode "missing attestation payload")

def decodeAttestationPayload (version : DataVersion) (inner : Bytes) :
    Except SszCodecError AttestationPayload :=
  match version with
  | .phase0 => .phase0 <$> fromSsz Phase0.attestation inner
  | .altair => .altair <$> fromSsz Phase0.attestation inner
  | .bellatrix => .bellatrix <$> fromSsz Phase0.attestation inner
  | .capella => .capella <$> fromSsz Phase0.attestation inner
  | .deneb => .deneb <$> fromSsz Phase0.attestation inner
  | .electra => .electra <$> fromSsz Electra.attestation inner
  | .fulu => .fulu <$> fromSsz Electra.attestation inner
  | .unknown => .error (.unknownVersion 0xffffffffffffffff)

/-- Uses the 20-byte header when `validator_index` is set, otherwise falls back to the legacy
12-byte header. -/
def encodeVersionedAttestation (va : VersionedAttestation) : Except SszCodecError Bytes := do
  let version ← encodeVersion va.version
  let inner ← encodeAttestationPayload va.attestation
  match va.validatorIndex with
  | some valIdx =>
    return version ++ leBytes 8 valIdx.toNat ++ leBytes 4 versionedAttestationValIdxHeader ++ inner
  | none => return version ++ leBytes 4 versionedSignedAggregateHeader ++ inner

def tryDecodeVersionedAttestationWithValIdx (bytes : Bytes) :
    Except SszCodecError VersionedAttestation := do
  require bytes versionedAttestationValIdxHeader
  let version ← decodeVersion (bytes.take 8)
  let valIdx := UInt64.ofNat (readLe ((bytes.drop 8).take 8))
  checkOffset ((bytes.drop 16).take 4) versionedAttestationValIdxHeader
  let attestation ←
    decodeAttestationPayload version (bytes.drop versionedAttestationValIdxHeader)
  return ⟨version, some valIdx, some attestation⟩

def decodeVersionedAttestationNoValIdx (bytes : Bytes) :
    Except SszCodecError VersionedAttestation := do
  require bytes versionedSignedAggregateHeader
  let version ← decodeVersion (bytes.take 8)
  checkOffset ((bytes.drop 8).take 4) versionedSignedAggregateHeader
  let attestation ← decodeAttestationPayload version (bytes.drop versionedSignedAggregateHeader)
  return ⟨version, none, some attestation⟩

/-- Tries the 20-byte validator_index format first, falling back to the legacy 12-byte format when
the offset field doesn't match. -/
def decodeVersionedAttestation (bytes : Bytes) : Except SszCodecError VersionedAttestation :=
  match tryDecodeVersionedAttestationWithValIdx bytes with
  | .ok result => .ok result
  | .error (.invalidOffset _ _) => decodeVersionedAttestationNoValIdx bytes
  | .error e => .error e

/-! ## Versioned aggregates -/

def encodeAggregatePayload : SignedAggregateAndProofPayload → Bytes
  | .phase0 p | .altair p | .bellatrix p | .capella p | .deneb p =>
    Phase0.signedAggregateAndProof.encode p
  | .electra p | .fulu p => Electra.signedAggregateAndProof.encode p

def decodeAggregatePayload (version : DataVersion) (inner : Bytes) :
    Except SszCodecError SignedAggregateAndProofPayload :=
  match version with
  | .phase0 => .phase0 <$> fromSsz Phase0.signedAggregateAndProof inner
  | .altair => .altair <$> fromSsz Phase0.signedAggregateAndProof inner
  | .bellatrix => .bellatrix <$> fromSsz Phase0.signedAggregateAndProof inner
  | .capella => .capella <$> fromSsz Phase0.signedAggregateAndProof inner
  | .deneb => .deneb <$> fromSsz Phase0.signedAggregateAndProof inner
  | .electra => .electra <$> fromSsz Electra.signedAggregateAndProof inner
  | .fulu => .fulu <$> fromSsz Electra.signedAggregateAndProof inner
  | .unknown => .error (.unknownVersion 0xffffffffffffffff)

def encodeVersionedSignedAggregateAndProof (va : VersionedSignedAggregateAndProof) :
    Except SszCodecError Bytes := do
  let version ← encodeVersion va.version
  return version ++ leBytes 4 versionedSignedAggregateHeader ++
    encodeAggregatePayload va.aggregateAndProof

def decodeVersionedSignedAggregateAndProof (bytes : Bytes) :
    Except SszCodecError VersionedSignedAggregateAndProof := do
  require bytes versionedSignedAggregateHeader
  let version ← decodeVersion (bytes.take 8)
  checkOffset ((bytes.drop 8).take 4) versionedSignedAggregateHeader
  let payload ← decodeAggregatePayload version (bytes.drop versionedSignedAggregateHeader)
  return ⟨version, payload⟩

/-! ## Versioned proposals -/

/-- The variants of `SignedProposalBlock`. -/
inductive BlockKind
  | phase0
  | altair
  | bellatrix
  | bellatrixBlinded
  | capella
  | capellaBlinded
  | deneb
  | denebBlinded
  | electra
  | electraBlinded
  | fulu
  | fuluBlinded
  deriving DecidableEq, Repr

/-- The variant that `decode_proposal_block` selects. -/
def BlockKind.select : DataVersion → Bool → Option BlockKind
  | .phase0, _ => some phase0
  | .altair, _ => some altair
  | .bellatrix, false => some bellatrix
  | .bellatrix, true => some bellatrixBlinded
  | .capella, false => some capella
  | .capella, true => some capellaBlinded
  | .deneb, false => some deneb
  | .deneb, true => some denebBlinded
  | .electra, false => some electra
  | .electra, true => some electraBlinded
  | .fulu, false => some fulu
  | .fulu, true => some fuluBlinded
  | .unknown, _ => none

section Proposals

variable {Block : BlockKind → Type} (codecs : ∀ kind, Codec (Block kind))

def versionedSignedProposalHeader : ℕ := 13

def encodeProposalBlock (block : Sigma Block) : Bytes := (codecs block.1).encode block.2

def decodeProposalBlock (version : DataVersion) (blinded : Bool) (bytes : Bytes) :
    Except SszCodecError (Sigma Block) :=
  match BlockKind.select version blinded with
  | some kind => (fun block => ⟨kind, block⟩) <$> fromSsz (codecs kind) bytes
  | none => .error (.unknownVersion 0xffffffffffffffff)

def encodeVersionedSignedProposal (vp : VersionedSignedProposal (Sigma Block)) :
    Except SszCodecError Bytes := do
  let version ← encodeVersion vp.version
  return version ++ (if vp.blinded then 1 else 0) ::
    (leBytes 4 versionedSignedProposalHeader ++ encodeProposalBlock codecs vp.block)

def decodeVersionedSignedProposal (bytes : Bytes) :
    Except SszCodecError (VersionedSignedProposal (Sigma Block)) := do
  require bytes versionedSignedProposalHeader
  let version ← decodeVersion (bytes.take 8)
  let blinded := bytes.getD 8 0 ≠ 0
  checkOffset ((bytes.drop 9).take 4) versionedSignedProposalHeader
  let block ←
    decodeProposalBlock codecs version blinded (bytes.drop versionedSignedProposalHeader)
  return ⟨version, blinded, block⟩

end Proposals

/-! ## Payloads -/

/-- The version a payload belongs to. -/
def attestationVersion : AttestationPayload → DataVersion
  | .phase0 _ => .phase0
  | .altair _ => .altair
  | .bellatrix _ => .bellatrix
  | .capella _ => .capella
  | .deneb _ => .deneb
  | .electra _ => .electra
  | .fulu _ => .fulu

def aggregateVersion : SignedAggregateAndProofPayload → DataVersion
  | .phase0 _ => .phase0
  | .altair _ => .altair
  | .bellatrix _ => .bellatrix
  | .capella _ => .capella
  | .deneb _ => .deneb
  | .electra _ => .electra
  | .fulu _ => .fulu

/-- The bits are within their maximum length. -/
def AttestationInBounds : AttestationPayload → Prop
  | .phase0 a | .altair a | .bellatrix a | .capella a | .deneb a =>
    a.aggregationBits.bits.length ≤ 2048
  | .electra a | .fulu a => a.aggregationBits.bits.length ≤ 131072

def AggregateInBounds : SignedAggregateAndProofPayload → Prop
  | .phase0 p | .altair p | .bellatrix p | .capella p | .deneb p =>
    p.message.aggregate.aggregationBits.bits.length ≤ 2048
  | .electra p | .fulu p => p.message.aggregate.aggregationBits.bits.length ≤ 131072

lemma fromSsz_encode {α : Type} {codec : Codec α} {a : α} (h : codec.Valid a) :
    fromSsz codec (codec.encode a) = .ok a := by
  rw [fromSsz, codec.decode_encode a h]
  rfl

lemma map_fromSsz_encode {α β : Type} {codec : Codec α} {a : α} (h : codec.Valid a) (f : α → β) :
    f <$> fromSsz codec (codec.encode a) = .ok (f a) := by
  rw [fromSsz_encode h]
  rfl

lemma decodeAttestationPayload_encode {payload : AttestationPayload}
    (h : AttestationInBounds payload) : ∃ inner, encodeAttestationPayload (some payload) = .ok inner ∧
      decodeAttestationPayload (attestationVersion payload) inner = .ok payload := by
  cases payload with
  | phase0 a | altair a | bellatrix a | capella a | deneb a =>
    exact ⟨_, rfl, map_fromSsz_encode (Phase0.valid_attestation h) _⟩
  | electra a | fulu a =>
    exact ⟨_, rfl, map_fromSsz_encode (Electra.valid_attestation h) _⟩

lemma decodeAggregatePayload_encode {payload : SignedAggregateAndProofPayload}
    (h : AggregateInBounds payload) :
    decodeAggregatePayload (aggregateVersion payload) (encodeAggregatePayload payload) =
      .ok payload := by
  cases payload with
  | phase0 a | altair a | bellatrix a | capella a | deneb a =>
    exact map_fromSsz_encode (Phase0.valid_signedAggregateAndProof h) _
  | electra a | fulu a =>
    exact map_fromSsz_encode (Electra.valid_signedAggregateAndProof h) _

/-- The slot is at the same place in all attestations. -/
lemma encodeAttestationPayload_eq {payload : AttestationPayload} (h : AttestationInBounds payload)
    {inner : Bytes} (hinner : encodeAttestationPayload (some payload) = .ok inner) :
    ∃ offset rest, inner = leBytes 4 offset ++ (leBytes 8 payload.data.slot.toNat ++ rest) := by
  cases payload with
  | phase0 a | altair a | bellatrix a | capella a | deneb a =>
    cases hinner
    exact ⟨228, Phase0.encode_attestation (Phase0.valid_attestation h)⟩
  | electra a | fulu a =>
    cases hinner
    exact ⟨236, Electra.encode_attestation (Electra.valid_attestation h)⟩

/-- A payload that does not decode is not an invalid offset of the header. -/
lemma decodeAttestationPayload_ne_invalidOffset (version : DataVersion) (inner : Bytes)
    (expected got : ℕ) :
    decodeAttestationPayload version inner ≠ .error (.invalidOffset expected got) := by
  have hssz : ∀ {α : Type} (codec : Codec α) (f : α → AttestationPayload),
      f <$> fromSsz codec inner ≠ .error (.invalidOffset expected got) := by
    intro α codec f
    unfold fromSsz
    cases codec.decode inner <;> simp [Except.mapError]
  cases version with
  | unknown => simp [decodeAttestationPayload]
  | phase0 | altair | bellatrix | capella | deneb | electra | fulu => exact hssz _ _

/-! ## Headers -/

variable {version : DataVersion}

lemma toLegacyU64_ok (h : version ≠ .unknown) :
    ∃ raw, version.toLegacyU64 = .ok raw := by
  cases version with
  | unknown => exact absurd rfl h
  | phase0 | altair | bellatrix | capella | deneb | electra | fulu => exact ⟨_, rfl⟩

variable {raw : UInt64}

lemma decodeVersion_leBytes
    (h : version.toLegacyU64 = .ok raw) : decodeVersion (leBytes 8 raw.toNat) = .ok version := by
  have hread : readLe (leBytes 8 raw.toNat) = raw.toNat := readLe_leBytes_of_lt raw.toNat_lt
  rw [decodeVersion, hread, UInt64.ofNat_toNat, DataVersion.fromLegacyU64_toLegacyU64 h]
  rfl

lemma require_ok {bytes : Bytes} {need : ℕ} (h : need ≤ bytes.length) :
    require bytes need = .ok () := if_neg (Nat.not_lt.mpr h)

lemma checkOffset_ok {bytes : Bytes} {expected : ℕ} (h : readLe bytes = expected) :
    checkOffset bytes expected = .ok () := if_pos h

/-- Slices of four fields one after the other. -/
lemma drop_fields {first second third : Bytes} (rest : Bytes) {n m k : ℕ}
    (hfirst : first.length = n) (hsecond : second.length = m) (hthird : third.length = k) :
    (first ++ (second ++ (third ++ rest))).drop (n + m) = third ++ rest ∧
      (first ++ (second ++ (third ++ rest))).drop (n + m + k) = rest := by
  have hskip : (first ++ (second ++ (third ++ rest))).drop (n + m) = third ++ rest := by
    rw [← List.drop_drop, List.drop_left' hfirst, List.drop_left' hsecond]
  exact ⟨hskip, by rw [← List.drop_drop, hskip, List.drop_left' hthird]⟩

/-- The header of the longer format. -/
lemma tryDecode_header (h : version.toLegacyU64 = .ok raw) {index offset : Bytes} (inner : Bytes)
    (hindex : index.length = 8) (hoffset : offset.length = 4) :
    tryDecodeVersionedAttestationWithValIdx (leBytes 8 raw.toNat ++ (index ++ (offset ++ inner))) =
      if readLe offset = 20 then do
        let attestation ← decodeAttestationPayload version inner
        return ⟨version, some (UInt64.ofNat (readLe index)), some attestation⟩
      else .error (.invalidOffset 20 (readLe offset)) := by
  have hversion := length_leBytes 8 raw.toNat
  obtain ⟨hskip, hinner⟩ := drop_fields inner hversion hindex hoffset
  have hlen : 20 ≤ (leBytes 8 raw.toNat ++ (index ++ (offset ++ inner))).length := by
    simp only [List.length_append, hversion, hindex, hoffset]
    omega
  simp only [tryDecodeVersionedAttestationWithValIdx, versionedAttestationValIdxHeader,
    require_ok hlen, List.take_left' hversion, List.drop_left' hversion, List.take_left' hindex,
    hskip, hinner, List.take_left' hoffset, decodeVersion_leBytes h, ok_bind]
  split
  · rename_i hread
    rw [checkOffset_ok hread, ok_bind]
  · rename_i hread
    rw [checkOffset, if_neg hread]
    rfl

/-- The header of the shorter format. -/
lemma decodeNoValIdx_header (h : version.toLegacyU64 = .ok raw) (inner : Bytes) :
    decodeVersionedAttestationNoValIdx (leBytes 8 raw.toNat ++ (leBytes 4 12 ++ inner)) = do
      let attestation ← decodeAttestationPayload version inner
      return ⟨version, none, some attestation⟩ := by
  have hversion := length_leBytes 8 raw.toNat
  have hoffset := length_leBytes 4 12
  have hinner : (leBytes 8 raw.toNat ++ (leBytes 4 12 ++ inner)).drop 12 = inner := by
    rw [← List.drop_drop (i := 4) (j := 8), List.drop_left' hversion, List.drop_left' hoffset]
  have hlen : 12 ≤ (leBytes 8 raw.toNat ++ (leBytes 4 12 ++ inner)).length := by
    simp only [List.length_append, hversion, hoffset]
    omega
  have hread : readLe (leBytes 4 12) = 12 := readLe_leBytes_of_lt (by decide)
  simp only [decodeVersionedAttestationNoValIdx, versionedSignedAggregateHeader,
    require_ok hlen, List.take_left' hversion, List.drop_left' hversion, List.take_left' hoffset,
    hinner, decodeVersion_leBytes h, checkOffset_ok hread, ok_bind]

/-! ## Round trips -/

/-- A versioned attestation that `VersionedAttestation::new` accepts, with a payload of its
version. -/
structure AttestationOk (va : VersionedAttestation) (payload : AttestationPayload) : Prop where
  attestation : va.attestation = some payload
  version : va.version = attestationVersion payload
  inBounds : AttestationInBounds payload

lemma attestationVersion_ne_unknown (payload : AttestationPayload) :
    attestationVersion payload ≠ .unknown := by
  cases payload <;> exact nofun

lemma aggregateVersion_ne_unknown (payload : SignedAggregateAndProofPayload) :
    aggregateVersion payload ≠ .unknown := by
  cases payload <;> exact nofun

section Attestations

variable {va : VersionedAttestation} {payload : AttestationPayload}

/-- The bytes of an attestation. -/
lemma encodeVersionedAttestation_eq (h : AttestationOk va payload) :
    ∃ raw inner, va.version.toLegacyU64 = .ok raw ∧
      encodeAttestationPayload (some payload) = .ok inner ∧
      decodeAttestationPayload va.version inner = .ok payload ∧
      encodeVersionedAttestation va = .ok (leBytes 8 raw.toNat ++
        match va.validatorIndex with
        | some valIdx => leBytes 8 valIdx.toNat ++ (leBytes 4 20 ++ inner)
        | none => leBytes 4 12 ++ inner) := by
  obtain ⟨raw, hraw⟩ := toLegacyU64_ok (h.version ▸ attestationVersion_ne_unknown payload)
  obtain ⟨inner, hinner, hdecode⟩ := decodeAttestationPayload_encode h.inBounds
  refine ⟨raw, inner, hraw, hinner, h.version ▸ hdecode, ?_⟩
  unfold encodeVersionedAttestation
  rw [h.attestation, hinner, encodeVersion, hraw]
  cases va.validatorIndex <;>
    simp [ok_bind, pure_eq_ok, versionedAttestationValIdxHeader,
      versionedSignedAggregateHeader]

/-- With a validator index an attestation comes back. -/
lemma decode_valIdx {raw valIdx : UInt64} {inner : Bytes} (h : va.version.toLegacyU64 = .ok raw)
    (hdecode : decodeAttestationPayload va.version inner = .ok payload) :
    decodeVersionedAttestation
        (leBytes 8 raw.toNat ++ (leBytes 8 valIdx.toNat ++ (leBytes 4 20 ++ inner))) =
      .ok ⟨va.version, some valIdx, some payload⟩ := by
  have hread : readLe (leBytes 4 20) = 20 := readLe_leBytes_of_lt (by decide)
  have hvalIdx : UInt64.ofNat (readLe (leBytes 8 valIdx.toNat)) = valIdx := by
    rw [readLe_leBytes_of_lt valIdx.toNat_lt, UInt64.ofNat_toNat]
  rw [decodeVersionedAttestation,
    tryDecode_header h inner (length_leBytes 8 _) (length_leBytes 4 _), if_pos hread, hdecode,
    ok_bind, hvalIdx]
  rfl

/-- The longer format, read off bytes of the shorter one: the offset is in the place of the slot. -/
lemma tryDecode_legacy {version : DataVersion} {raw : UInt64}
    (h : version.toLegacyU64 = .ok raw) (offset slot : ℕ) (rest : Bytes) :
    ∃ valIdx inner, tryDecodeVersionedAttestationWithValIdx
        (leBytes 8 raw.toNat ++ (leBytes 4 12 ++ (leBytes 4 offset ++ (leBytes 8 slot ++ rest)))) =
      if slot % 2 ^ 32 = 20 then do
        let attestation ← decodeAttestationPayload version inner
        return ⟨version, some valIdx, some attestation⟩
      else .error (.invalidOffset 20 (slot % 2 ^ 32)) := by
  have hsplit : leBytes 8 slot = leBytes 4 slot ++ (leBytes 8 slot).drop 4 := by
    rw [← take_leBytes (show 4 ≤ 8 by decide), List.take_append_drop]
  have hbytes : leBytes 4 12 ++ (leBytes 4 offset ++ (leBytes 8 slot ++ rest)) =
      (leBytes 4 12 ++ leBytes 4 offset) ++
        (leBytes 4 slot ++ ((leBytes 8 slot).drop 4 ++ rest)) := by
    rw [← List.append_assoc (leBytes 4 slot), ← hsplit, List.append_assoc]
  have hread : readLe (leBytes 4 slot) = slot % 2 ^ 32 := readLe_leBytes 4 slot
  rw [hbytes, tryDecode_header h _ (by simp) (length_leBytes 4 slot), hread]
  exact ⟨_, _, rfl⟩

/-- Without a validator index the decoder may take a slot for the offset of the longer header; then
it does not return what was encoded. -/
lemma decode_noValIdx {raw : UInt64} {offset slot : ℕ} {rest : Bytes}
    (h : va.version.toLegacyU64 = .ok raw)
    (hdecode : decodeAttestationPayload va.version (leBytes 4 offset ++ (leBytes 8 slot ++ rest)) =
      .ok payload) :
    decodeVersionedAttestation
        (leBytes 8 raw.toNat ++ (leBytes 4 12 ++ (leBytes 4 offset ++ (leBytes 8 slot ++ rest)))) =
      .ok ⟨va.version, none, some payload⟩ ↔ slot % 2 ^ 32 ≠ 20 := by
  obtain ⟨valIdx, shifted, htry⟩ := tryDecode_legacy h offset slot rest
  rw [decodeVersionedAttestation, htry]
  by_cases hslot : slot % 2 ^ 32 = 20
  · rw [if_pos hslot]
    refine iff_of_false (fun hok => ?_) (not_not.mpr hslot)
    cases hpayload : decodeAttestationPayload va.version shifted with
    | ok attestation =>
      rw [hpayload] at hok
      cases hok
    | error e =>
      rw [hpayload] at hok
      cases e with
      | invalidOffset expected got =>
        exact decodeAttestationPayload_ne_invalidOffset _ _ _ _ hpayload
      | tooShort need got => cases hok
      | unknownVersion raw => cases hok
      | decode message => cases hok
      | decodeContainer error => cases hok
  · rw [if_neg hslot]
    refine iff_of_true ?_ hslot
    have hdecoded := decodeNoValIdx_header h (leBytes 4 offset ++ (leBytes 8 slot ++ rest))
    rw [hdecode, ok_bind] at hdecoded
    exact hdecoded

/-- When a versioned attestation comes back. -/
lemma decodeVersionedAttestation_encode (h : AttestationOk va payload) : ∃ raw rest,
    va.version.toLegacyU64 = .ok raw ∧
    encodeVersionedAttestation va = .ok (leBytes 8 raw.toNat ++ rest) ∧
    (decodeVersionedAttestation (leBytes 8 raw.toNat ++ rest) = .ok va ↔
      ¬(va.validatorIndex = none ∧ payload.data.slot.toNat % 2 ^ 32 = 20)) := by
  obtain ⟨raw, inner, hraw, hinner, hdecode, hencode⟩ := encodeVersionedAttestation_eq h
  refine ⟨raw, _, hraw, hencode, ?_⟩
  obtain ⟨version, validatorIndex, attestation⟩ := va
  cases h.attestation
  cases validatorIndex with
  | some valIdx => exact iff_of_true (decode_valIdx hraw hdecode) (by simp)
  | none =>
    obtain ⟨offset, rest, rfl⟩ := encodeAttestationPayload_eq h.inBounds hinner
    simpa using decode_noValIdx hraw hdecode

end Attestations

/-- A versioned aggregate comes back. -/
lemma decodeVersionedSignedAggregateAndProof_encode {va : VersionedSignedAggregateAndProof}
    (hversion : va.version = aggregateVersion va.aggregateAndProof)
    (hbounds : AggregateInBounds va.aggregateAndProof) : ∃ raw rest,
      va.version.toLegacyU64 = .ok raw ∧
      encodeVersionedSignedAggregateAndProof va = .ok (leBytes 8 raw.toNat ++ rest) ∧
      decodeVersionedSignedAggregateAndProof (leBytes 8 raw.toNat ++ rest) = .ok va := by
  obtain ⟨raw, hraw⟩ := toLegacyU64_ok (hversion ▸ aggregateVersion_ne_unknown _)
  set inner := encodeAggregatePayload va.aggregateAndProof with hinner
  refine ⟨raw, leBytes 4 12 ++ inner, hraw, ?_, ?_⟩
  · simp [encodeVersionedSignedAggregateAndProof, encodeVersion, hraw, ok_bind,
      pure_eq_ok, versionedSignedAggregateHeader, ← hinner]
  · have hlen := length_leBytes 8 raw.toNat
    have hoffset := length_leBytes 4 12
    have hread : readLe (leBytes 4 12) = 12 := readLe_leBytes_of_lt (by decide)
    have hdrop : (leBytes 8 raw.toNat ++ (leBytes 4 12 ++ inner)).drop 12 = inner := by
      rw [← List.drop_drop (i := 4) (j := 8), List.drop_left' hlen, List.drop_left' hoffset]
    have hrequire : 12 ≤ (leBytes 8 raw.toNat ++ (leBytes 4 12 ++ inner)).length := by
      simp only [List.length_append, hlen, hoffset]
      omega
    have hpayload : decodeAggregatePayload va.version inner = .ok va.aggregateAndProof := by
      rw [hversion, hinner, decodeAggregatePayload_encode hbounds]
    simp only [decodeVersionedSignedAggregateAndProof, versionedSignedAggregateHeader,
      require_ok hrequire, List.take_left' hlen, List.drop_left' hlen, List.take_left' hoffset,
      hdrop, decodeVersion_leBytes hraw, checkOffset_ok hread, hpayload, ok_bind,
      pure_eq_ok]

/-- A versioned proposal comes back. -/
lemma decodeVersionedSignedProposal_encode {Block : BlockKind → Type}
    (codecs : ∀ kind, Codec (Block kind)) (vp : VersionedSignedProposal (Sigma Block))
    (hkind : BlockKind.select vp.version vp.blinded = some vp.block.1)
    (hread : fromSsz (codecs vp.block.1) (encodeProposalBlock codecs vp.block) =
      .ok vp.block.2) : ∃ bytes,
      encodeVersionedSignedProposal codecs vp = .ok bytes ∧
      decodeVersionedSignedProposal codecs bytes = .ok vp := by
  have hknown : vp.version ≠ .unknown := by
    intro hunknown
    rw [hunknown] at hkind
    cases hkind
  obtain ⟨raw, hraw⟩ := toLegacyU64_ok hknown
  set inner := encodeProposalBlock codecs vp.block with hinner
  set flag : UInt8 := if vp.blinded then 1 else 0 with hflag
  refine ⟨leBytes 8 raw.toNat ++ ([flag] ++ (leBytes 4 13 ++ inner)), ?_, ?_⟩
  · simp [encodeVersionedSignedProposal, encodeVersion, hraw, ok_bind, pure_eq_ok,
      versionedSignedProposalHeader, ← hinner, hflag]
  · have hlen := length_leBytes 8 raw.toNat
    have hoffset := length_leBytes 4 13
    have hheader : readLe (leBytes 4 13) = 13 := readLe_leBytes_of_lt (by decide)
    obtain ⟨hskip, hdrop⟩ :=
      drop_fields inner hlen (show [flag].length = 1 from rfl) hoffset
    have hrequire : 13 ≤ (leBytes 8 raw.toNat ++ ([flag] ++ (leBytes 4 13 ++ inner))).length := by
      simp only [List.length_append, hlen, hoffset, List.length_singleton]
      omega
    have hblinded : (leBytes 8 raw.toNat ++ ([flag] ++ (leBytes 4 13 ++ inner))).getD 8 0 = flag := by
      rw [List.getD_eq_getElem?_getD, List.getElem?_append_right hlen.le, hlen]
      rfl
    have hdecided : decide (flag ≠ 0) = vp.blinded := by
      cases hb : vp.blinded <;> simp [hflag, hb]
    have hblock : decodeProposalBlock codecs vp.version vp.blinded inner = .ok vp.block := by
      rw [decodeProposalBlock, hkind]
      simp only [hread]
      rfl
    simp only [decodeVersionedSignedProposal, versionedSignedProposalHeader, require_ok hrequire,
      List.take_left' hlen, hskip, hdrop, List.take_left' hoffset, decodeVersion_leBytes hraw,
      checkOffset_ok hheader, hblinded, hdecided, hblock, ok_bind, pure_eq_ok]

/-! ## Telling the formats apart -/

lemma readLe_version (h : version.toLegacyU64 = .ok raw)
    (rest : Bytes) : readLe ((leBytes 8 raw.toNat ++ rest).take 4) < 7 := by
  have hlt := DataVersion.toLegacyU64_lt h
  rw [List.take_append_of_le_length (by simp), take_leBytes (by decide),
    readLe_leBytes_of_lt (by omega)]
  exact hlt

/-- A versioned container is not a plain attestation. -/
lemma decode_attestation_ne_ok
    (h : version.toLegacyU64 = .ok raw) (rest : Bytes) (a : Phase0.Attestation) :
    fromSsz Phase0.attestation (leBytes 8 raw.toNat ++ rest) ≠ .ok a := by
  intro hok
  have hread := Phase0.readLe_of_decode_attestation (Except.mapError_ok_iff.mp hok)
  have hlt := readLe_version h rest
  omega

lemma decode_signedAggregateAndProof_ne_ok
    (h : version.toLegacyU64 = .ok raw) (rest : Bytes) (a : Phase0.SignedAggregateAndProof) :
    fromSsz Phase0.signedAggregateAndProof (leBytes 8 raw.toNat ++ rest) ≠ .ok a := by
  intro hok
  have hread := Phase0.readLe_of_decode_signedAggregateAndProof (Except.mapError_ok_iff.mp hok)
  have hlt := readLe_version h rest
  omega

end SszCodec

end Pluto.Core
