import Pluto.Core.ParSigExCodec
import Pluto.Lib.Hex

/-!
# The codec of unsigned data sets

`crates/core/src/unsigneddata.rs`, and the part of `crates/core/src/ssz_codec.rs` it uses.  A set of
unsigned data is written for consensus as a map from the text of a public key to SSZ bytes, one
layout for each duty type.  Reading tries SSZ first, then JSON.

The blocks of a proposal are a family with a codec for each kind, as for signed data; the codec of
an unsigned block with blobs is the one of its contents.  The JSON readers are parameters.

## The round trip

The SSZ bytes of a value are read by the first reader that is tried, so no other is reached:
`marshal_roundTrip`, one case for each duty type.  The map is sorted by the texts of the keys, which
are different for different keys, so the proto does not depend on the order the set is iterated in
(`lookup_toProto`).  Together they give `unsigned_survives_wire`.
-/

namespace Pluto.Core.UnsignedData

open Eth2Api SszContainer SszCodec
open ParSigExCodec (looksLikeJson)

/-! ## Data -/

/-- Attester duty metadata associated with an attestation. -/
structure AttesterDuty where
  slot : UInt64
  validatorIndex : UInt64
  committeeIndex : UInt64
  committeeLength : UInt64
  committeesAtSlot : UInt64
  validatorCommitteeIndex : UInt64
  deriving DecidableEq

/-- Unsigned attestation data paired with its duty. -/
structure AttestationData where
  data : DutyDb.AttestationData
  duty : AttesterDuty
  deriving DecidableEq

/-- The fork version of a block. -/
def version : BlockKind → DataVersion
  | .phase0 => .phase0
  | .altair => .altair
  | .bellatrix | .bellatrixBlinded => .bellatrix
  | .capella | .capellaBlinded => .capella
  | .deneb | .denebBlinded => .deneb
  | .electra | .electraBlinded => .electra
  | .fulu | .fuluBlinded => .fulu

def isBlinded : BlockKind → Bool
  | .bellatrixBlinded | .capellaBlinded | .denebBlinded | .electraBlinded | .fuluBlinded => true
  | _ => false

/-- The decoder selects the variant that was encoded. -/
lemma select_version (kind : BlockKind) :
    BlockKind.select (version kind) (isBlinded kind) = some kind := by
  cases kind <;> rfl

/-- Unsigned versioned proposal, with the block rewards in Wei. -/
structure VersionedProposal (Block : BlockKind → Type) where
  block : Sigma Block
  consensusBlockValue : BitVec 256
  executionPayloadValue : BitVec 256

/-- What comes from libraries: the SSZ codecs of unsigned blocks and the readers of JSON. -/
structure Codecs where
  Block : BlockKind → Type
  block : ∀ kind, Codec (Block kind)
  readVersionedProposal : Bytes → Option (VersionedProposal Block)
  readVersionedAttestation : Bytes → Option VersionedAttestation
  readAttestation : Bytes → Option Phase0.Attestation
  readSyncContribution : Bytes → Option Altair.SyncCommitteeContribution
  readAttestationData : Bytes → Option AttestationData

inductive UnsignedDutyData (Block : BlockKind → Type)
  | proposal (proposal : VersionedProposal Block)
  | attestation (attestation : AttestationData)
  | aggAttestation (attestation : VersionedAttestation)
  | syncContribution (contribution : Altair.SyncCommitteeContribution)

/-- The errors of `ParSigExCodecError` that these functions return. -/
inductive Error
  | unsupportedDutyType
  | invalidUnsignedDataSetFields
  | invalidPubKey (pubkey : String)
  | unsignedData (message : String)
  /-- With the text of an error of a container. -/
  | unsignedContainer (error : DecodeError)
  | sszCodec (error : SszCodecError)
  /-- An error of `serde_json`. -/
  | serialize

variable {Block : BlockKind → Type}

/-! ## SSZ -/

section Proposals

variable (codecs : ∀ kind, Codec (Block kind))

def encodeUnsignedProposalBlock (block : Sigma Block) : Bytes := encodeProposalBlock codecs block

def decodeUnsignedProposalBlock (version : DataVersion) (blinded : Bool) (bytes : Bytes) :
    Except SszCodecError (Sigma Block) :=
  decodeProposalBlock codecs version blinded bytes

def encodeVersionedProposal (vp : VersionedProposal Block) : Except SszCodecError Bytes := do
  let version ← encodeVersion (version vp.block.1)
  return version ++ (if isBlinded vp.block.1 then 1 else 0) ::
    (leBytes 4 versionedSignedProposalHeader ++ encodeUnsignedProposalBlock codecs vp.block)

/-- Block values are not carried in the SSZ wire format. -/
def decodeVersionedProposal (bytes : Bytes) : Except SszCodecError (VersionedProposal Block) := do
  require bytes versionedSignedProposalHeader
  let version ← decodeVersion (bytes.take 8)
  let blinded := bytes.getD 8 0 ≠ 0
  checkOffset ((bytes.drop 9).take 4) versionedSignedProposalHeader
  let block ←
    decodeUnsignedProposalBlock codecs version blinded (bytes.drop versionedSignedProposalHeader)
  return ⟨block, 0, 0⟩

end Proposals

def encodeVersionedAggregatedAttestation (va : VersionedAttestation) :
    Except SszCodecError Bytes := do
  let version ← encodeVersion va.version
  let inner ← encodeAttestationPayload va.attestation
  return version ++ leBytes 4 versionedSignedAggregateHeader ++ inner

def decodeVersionedAggregatedAttestation (bytes : Bytes) :
    Except SszCodecError VersionedAttestation := do
  require bytes versionedSignedAggregateHeader
  let version ← decodeVersion (bytes.take 8)
  checkOffset ((bytes.drop 8).take 4) versionedSignedAggregateHeader
  let attestation ← decodeAttestationPayload version (bytes.drop versionedSignedAggregateHeader)
  return ⟨version, none, some attestation⟩

def attestationDataSszOffset : ℕ := 8

def attesterDutySszSize : ℕ := 96

/-- Numbers, eight bytes each. -/
def words (values : List UInt64) : Bytes := values.flatMap fun v => leBytes 8 v.toNat

/-- The public key of the duty is zero. -/
def encodeAttesterDuty (duty : AttesterDuty) : Bytes :=
  List.replicate 48 0 ++ words [duty.slot, duty.validatorIndex, duty.committeeIndex,
    duty.committeeLength, duty.committeesAtSlot, duty.validatorCommitteeIndex]

/-- Two offsets, although both parts are of fixed size. -/
def encodeAttestationDataSsz (att : AttestationData) : Except Error Bytes :=
  let attestation := attestationData.encode att.data
  let dutyOffset := attestationDataSszOffset + attestation.length
  if dutyOffset < 2 ^ 32 then
    .ok (leBytes 4 attestationDataSszOffset ++ (leBytes 4 dutyOffset ++
      (attestation ++ encodeAttesterDuty att.duty)))
  else .error (.unsignedData "attestation data too large")

def decodeAttesterDutySsz (data : Bytes) : Except Error AttesterDuty :=
  if data.length < attesterDutySszSize then .error (.unsignedData "attester duty too short")
  else
    let field (start : ℕ) := UInt64.ofNat (readLe ((data.drop start).take 8))
    .ok ⟨field 48, field 56, field 64, field 72, field 80, field 88⟩

def decodeAttestationDataSsz (data : Bytes) : Except Error AttestationData :=
  if data.length < attestationDataSszOffset then
    .error (.unsignedData "attestation data too short")
  else do
    let dataOffset := readLe (data.take 4)
    let dutyOffset := readLe ((data.drop 4).take 4)
    if dataOffset ≠ attestationDataSszOffset ∨ dutyOffset < dataOffset ∨
        data.length < dutyOffset ∨ data.length - dutyOffset < attesterDutySszSize then
      throw (.unsignedData "attestation data offset")
    let attestation ← (attestationData.decode
      ((data.drop dataOffset).take (dutyOffset - dataOffset))).mapError .unsignedContainer
    let duty ← decodeAttesterDutySsz (data.drop dutyOffset)
    return ⟨attestation, duty⟩

/-! ## Reading and writing one value -/

section Codec

variable (C : Codecs)

def marshalUnsignedDutyData : UnsignedDutyData C.Block → Except Error Bytes
  | .attestation att => encodeAttestationDataSsz att
  | .proposal proposal => (encodeVersionedProposal C.block proposal).mapError .sszCodec
  | .aggAttestation agg => (encodeVersionedAggregatedAttestation agg).mapError .sszCodec
  | .syncContribution contribution => .ok (Altair.syncCommitteeContribution.encode contribution)

/-- JSON is read if it looks so, after SSZ has failed. -/
def orJson {α : Type} (data : Bytes) (json : Option α) (message : String) : Except Error α :=
  if looksLikeJson data then
    match json with
    | some value => .ok value
    | none => .error .serialize
  else .error (.unsignedData message)

def decodeVersionedProposalData (data : Bytes) : Except Error (VersionedProposal C.Block) :=
  match decodeVersionedProposal C.block data with
  | .ok proposal => .ok proposal
  | .error _ => orJson data (C.readVersionedProposal data) "unmarshal proposal"

def wrapPhase0AggregatedAttestation (att : Phase0.Attestation) : VersionedAttestation :=
  ⟨.phase0, none, some (.phase0 att)⟩

def decodeAggregatedAttestation (data : Bytes) : Except Error VersionedAttestation :=
  match decodeVersionedAggregatedAttestation data with
  | .ok agg => .ok agg
  | .error _ =>
    match Phase0.attestation.decode data with
    | .ok att => .ok (wrapPhase0AggregatedAttestation att)
    | .error _ =>
      orJson data ((C.readVersionedAttestation data).or
        ((C.readAttestation data).map wrapPhase0AggregatedAttestation))
        "unmarshal aggregated attestation"

def decodeSyncContribution (data : Bytes) : Except Error Altair.SyncCommitteeContribution :=
  match Altair.syncCommitteeContribution.decode data with
  | .ok contribution => .ok contribution
  | .error _ => orJson data (C.readSyncContribution data) "unmarshal sync contribution"

def decodeAttestationData (data : Bytes) : Except Error AttestationData :=
  match decodeAttestationDataSsz data with
  | .ok att => .ok att
  | .error _ => orJson data (C.readAttestationData data) "unmarshal attestation data"

def unsignedDutyDataFromProto (dutyType : DutyType) (data : Bytes) :
    Except Error (UnsignedDutyData C.Block) :=
  match dutyType with
  | .attester => .attestation <$> decodeAttestationData C data
  | .proposer => .proposal <$> decodeVersionedProposalData C data
  | .aggregator => .aggAttestation <$> decodeAggregatedAttestation C data
  | .syncContribution => .syncContribution <$> decodeSyncContribution C data
  | _ => .error .unsupportedDutyType

end Codec

/-! ## Public keys -/

def pubKeyToString (pubkey : PubKey) : String :=
  String.ofList ('0' :: 'x' :: Hex.encode pubkey.bytes)

/-- `strip_prefix("0x")` -/
def strip0x : List Char → List Char
  | '0' :: 'x' :: rest => rest
  | text => text

/-- `PubKey::try_from` -/
def pubKeyOfString (text : String) : Except Error PubKey :=
  match Hex.decode (strip0x text.toList) with
  | none => .error (.invalidPubKey text)
  | some bytes => if h : bytes.length = 48 then .ok ⟨bytes, h⟩ else .error (.invalidPubKey text)

lemma pubKeyOfString_toString (pubkey : PubKey) :
    pubKeyOfString (pubKeyToString pubkey) = .ok pubkey := by
  rw [pubKeyOfString, pubKeyToString, String.toList_ofList]
  simp only [strip0x, Hex.decode_encode, pubkey.length_eq, dite_true]

lemma pubKeyToString_injective : Function.Injective pubKeyToString := by
  intro pubkey pubkey' h
  have hread := pubKeyOfString_toString pubkey
  rw [h, pubKeyOfString_toString pubkey'] at hread
  exact (Except.ok.inj hread).symm

/-! ## Sets -/

section Sets

variable (C : Codecs)

abbrev UnsignedDataSet (C : Codecs) : Type := HashMap PubKey (UnsignedDutyData C.Block)

/-- The entry of the proto map for an entry of a set. -/
def entryToProto (e : Sigma fun _ : PubKey => UnsignedDutyData C.Block) :
    Except Error (String × Bytes) := do
  let bytes ← marshalUnsignedDutyData C e.2
  return (pubKeyToString e.1, bytes)

def unsignedDataSetToProto (order : IterOrder (Sigma fun _ : PubKey => UnsignedDutyData C.Block))
    (set : UnsignedDataSet C) : Except Error Corepb.UnsignedDataSet := do
  let entries ← (order.order set.entries).mapM (entryToProto C)
  return ⟨.insertAll .empty entries⟩

def entryFromProto (dutyType : DutyType) (e : String × Bytes) :
    Except Error (PubKey × UnsignedDutyData C.Block) := do
  let pubkey ← pubKeyOfString e.1
  let data ← unsignedDutyDataFromProto C dutyType e.2
  return (pubkey, data)

def unsignedDataSetFromProto (dutyType : DutyType) (set : Corepb.UnsignedDataSet) :
    Except Error (UnsignedDataSet C) := do
  if set.set.entries = [] then throw .invalidUnsignedDataSetFields
  let entries ← set.set.entries.mapM (entryFromProto C dutyType)
  return HashMap.insertAll ∅ entries

end Sets

/-! ## Round trips -/

/-- The values of a duty type. -/
inductive OfDuty : DutyType → UnsignedDutyData Block → Prop
  | attestation (att) : OfDuty .attester (.attestation att)
  | proposal (vp) : OfDuty .proposer (.proposal vp)
  | aggAttestation (va) : OfDuty .aggregator (.aggAttestation va)
  | syncContribution (c) : OfDuty .syncContribution (.syncContribution c)

/-- The SSZ codec of an attestation returns it. -/
def PayloadRoundTrips : AttestationPayload → Prop
  | .phase0 a | .altair a | .bellatrix a | .capella a | .deneb a =>
    Phase0.attestation.decode (Phase0.attestation.encode a) = .ok a
  | .electra a | .fulu a => Electra.attestation.decode (Electra.attestation.encode a) = .ok a

/-- The payload of an aggregate is of its version, and the SSZ codecs return what is in a value. -/
def WellFormed (C : Codecs) : UnsignedDutyData C.Block → Prop
  | .proposal vp =>
    (C.block vp.block.1).decode ((C.block vp.block.1).encode vp.block.2) = .ok vp.block.2
  | .aggAttestation va => ∃ payload, va.attestation = some payload ∧
      va.version = attestationVersion payload ∧ PayloadRoundTrips payload
  | .attestation _ | .syncContribution _ => True

/-- What is not carried: the block values of a proposal, and the validator index of an aggregate. -/
def carried : UnsignedDutyData Block → UnsignedDutyData Block
  | .proposal vp => .proposal ⟨vp.block, 0, 0⟩
  | .aggAttestation va => .aggAttestation { va with validatorIndex := none }
  | .attestation att => .attestation att
  | .syncContribution c => .syncContribution c

section RoundTrip

variable {C : Codecs}

lemma decodeVersionedProposal_eq (codecs : ∀ kind, Codec (Block kind)) (bytes : Bytes) :
    decodeVersionedProposal codecs bytes =
      (fun vp : VersionedSignedProposal (Sigma Block) => ⟨vp.block, 0, 0⟩) <$>
        decodeVersionedSignedProposal codecs bytes := by
  simp only [decodeVersionedProposal, decodeVersionedSignedProposal, decodeUnsignedProposalBlock,
    map_bind, map_pure]

lemma proposal_roundTrip {vp : VersionedProposal C.Block} (h : WellFormed C (.proposal vp)) :
    ∃ bytes, encodeVersionedProposal C.block vp = .ok bytes ∧
      decodeVersionedProposalData C bytes = .ok ⟨vp.block, 0, 0⟩ := by
  have hread : fromSsz (C.block vp.block.1) (encodeProposalBlock C.block vp.block) =
      .ok vp.block.2 :=
    Except.mapError_ok_iff.mpr h
  obtain ⟨bytes, hencode, hdecode⟩ := decodeVersionedSignedProposal_encode C.block
    ⟨version vp.block.1, isBlinded vp.block.1, vp.block⟩ (select_version vp.block.1) hread
  refine ⟨bytes, hencode, ?_⟩
  rw [decodeVersionedProposalData, decodeVersionedProposal_eq, hdecode]
  rfl

lemma payload_roundTrip {payload : AttestationPayload} (h : PayloadRoundTrips payload) :
    ∃ inner, encodeAttestationPayload (some payload) = .ok inner ∧
      decodeAttestationPayload (attestationVersion payload) inner = .ok payload := by
  cases payload with
  | phase0 a | altair a | bellatrix a | capella a | deneb a | electra a | fulu a =>
    refine ⟨_, rfl, ?_⟩
    simp only [decodeAttestationPayload, attestationVersion, fromSsz, show _ = Except.ok a from h]
    rfl

lemma aggAttestation_roundTrip {va : VersionedAttestation} (h : WellFormed C (.aggAttestation va)) :
    ∃ bytes, encodeVersionedAggregatedAttestation va = .ok bytes ∧
      decodeAggregatedAttestation C bytes = .ok { va with validatorIndex := none } := by
  obtain ⟨payload, hpayload, hversion, hround⟩ := h
  obtain ⟨raw, hraw⟩ := toLegacyU64_ok (hversion ▸ attestationVersion_ne_unknown payload)
  obtain ⟨inner, hinner, hdecode⟩ := payload_roundTrip hround
  refine ⟨leBytes 8 raw.toNat ++ (leBytes 4 12 ++ inner), ?_, ?_⟩
  · simp [encodeVersionedAggregatedAttestation, encodeVersion, hraw, hpayload, hinner,
      Except.ok_bind, Except.pure_eq_ok, versionedSignedAggregateHeader]
  · have hread : decodeVersionedAggregatedAttestation
        (leBytes 8 raw.toNat ++ (leBytes 4 12 ++ inner)) = .ok ⟨va.version, none, some payload⟩ := by
      refine (decodeNoValIdx_header hraw inner).trans ?_
      rw [hversion, hdecode]
      rfl
    rw [decodeAggregatedAttestation, hread, hpayload]

lemma syncContribution_roundTrip (c : Altair.SyncCommitteeContribution) :
    decodeSyncContribution C (Altair.syncCommitteeContribution.encode c) = .ok c := by
  rw [decodeSyncContribution, Altair.syncCommitteeContribution.decode_encode c
    ⟨trivial, trivial, trivial, trivial, trivial, trivial⟩]

lemma length_words (values : List UInt64) : (words values).length = 8 * values.length := by
  induction values with
  | nil => rfl
  | cons v values ih =>
    rw [words, List.flatMap_cons, List.length_append, length_leBytes, ← words, ih, List.length_cons]
    omega

lemma readLe_words {values : List UInt64} {i : ℕ} {v : UInt64} (h : values[i]? = some v) :
    UInt64.ofNat (readLe (((words values).drop (8 * i)).take 8)) = v := by
  induction values generalizing i with
  | nil => cases h
  | cons w values ih =>
    have hwords : words (w :: values) = leBytes 8 w.toNat ++ words values := rfl
    cases i with
    | zero =>
      obtain rfl : w = v := Option.some.inj h
      rw [hwords, Nat.mul_zero, List.drop_zero, List.take_left' (length_leBytes 8 _),
        readLe_leBytes_of_lt w.toNat_lt, UInt64.ofNat_toNat]
    | succ i =>
      rw [hwords, Nat.mul_succ, Nat.add_comm, ← List.drop_drop,
        List.drop_left' (length_leBytes 8 _)]
      exact ih h

lemma length_encodeAttesterDuty (duty : AttesterDuty) :
    (encodeAttesterDuty duty).length = attesterDutySszSize := by
  rw [encodeAttesterDuty, List.length_append, length_words, List.length_replicate]
  rfl

lemma decodeAttesterDutySsz_encode (duty : AttesterDuty) :
    decodeAttesterDutySsz (encodeAttesterDuty duty) = .ok duty := by
  have hlength := length_encodeAttesterDuty duty
  have hfield : ∀ i v, [duty.slot, duty.validatorIndex, duty.committeeIndex, duty.committeeLength,
      duty.committeesAtSlot, duty.validatorCommitteeIndex][i]? = some v →
      UInt64.ofNat (readLe (((encodeAttesterDuty duty).drop (48 + 8 * i)).take 8)) = v := by
    intro i v hv
    rw [encodeAttesterDuty, ← List.drop_drop, List.drop_left' List.length_replicate]
    exact readLe_words hv
  rw [decodeAttesterDutySsz, if_neg (by rw [hlength]; exact lt_irrefl _)]
  exact congrArg Except.ok ((AttesterDuty.mk.injEq ..).mpr ⟨hfield 0 _ rfl, hfield 1 _ rfl,
    hfield 2 _ rfl, hfield 3 _ rfl, hfield 4 _ rfl, hfield 5 _ rfl⟩)

lemma attestation_roundTrip (att : AttestationData) : ∃ bytes,
    encodeAttestationDataSsz att = .ok bytes ∧ decodeAttestationData C bytes = .ok att := by
  set inner := attestationData.encode att.data with hinner
  have hlength : inner.length = 128 :=
    attestationData.length_fixed att.data 128 (valid_attestationData _) rfl
  set bytes := leBytes 4 8 ++ (leBytes 4 136 ++ (inner ++ encodeAttesterDuty att.duty)) with hbytes
  have hencode : encodeAttestationDataSsz att = .ok bytes := by
    simp only [encodeAttestationDataSsz, attestationDataSszOffset, ← hinner, hlength]
    rfl
  refine ⟨bytes, hencode, ?_⟩
  have hduty := length_encodeAttesterDuty att.duty
  have htotal : bytes.length = 232 := by
    simp only [hbytes, List.length_append, length_leBytes, hlength, hduty, attesterDutySszSize]
  have hskip : bytes.drop 4 = leBytes 4 136 ++ (inner ++ encodeAttesterDuty att.duty) :=
    List.drop_left' (length_leBytes 4 8)
  have hskip' : bytes.drop 8 = inner ++ encodeAttesterDuty att.duty := by
    rw [show (8 : ℕ) = 4 + 4 from rfl, ← List.drop_drop, hskip, List.drop_left' (length_leBytes 4 _)]
  have hrest : bytes.drop 136 = encodeAttesterDuty att.duty := by
    rw [show (136 : ℕ) = 8 + 128 from rfl, ← List.drop_drop, hskip', List.drop_left' hlength]
  have hread : decodeAttestationDataSsz bytes = .ok att := by
    have hfirst : readLe (bytes.take 4) = 8 := by
      rw [hbytes, List.take_left' (length_leBytes 4 8), readLe_leBytes_of_lt (by decide)]
    have hsecond : readLe ((bytes.drop 4).take 4) = 136 := by
      rw [hskip, List.take_left' (length_leBytes 4 136), readLe_leBytes_of_lt (by decide)]
    simp only [decodeAttestationDataSsz, attestationDataSszOffset, attesterDutySszSize, htotal,
      hfirst, hsecond, hskip', hrest]
    rw [if_neg (by decide), if_neg (by decide), show 136 - 8 = 128 from rfl,
      List.take_left' hlength, hinner,
      attestationData.decode_encode _ (valid_attestationData _), decodeAttesterDutySsz_encode]
    rfl
  rw [decodeAttestationData, hread]

/-- A value is written, and read for its duty type as what it carries. -/
lemma marshal_roundTrip {dutyType : DutyType} {data : UnsignedDutyData C.Block}
    (hduty : OfDuty dutyType data) (hdata : WellFormed C data) :
    ∃ bytes, marshalUnsignedDutyData C data = .ok bytes ∧
      unsignedDutyDataFromProto C dutyType bytes = .ok (carried data) := by
  cases hduty with
  | attestation att =>
    obtain ⟨bytes, hencode, hread⟩ := attestation_roundTrip (C := C) att
    exact ⟨bytes, hencode, by rw [unsignedDutyDataFromProto, hread]; rfl⟩
  | proposal vp =>
    obtain ⟨bytes, hencode, hread⟩ := proposal_roundTrip hdata
    refine ⟨bytes, by rw [marshalUnsignedDutyData, hencode]; rfl, ?_⟩
    rw [unsignedDutyDataFromProto, hread]
    rfl
  | aggAttestation va =>
    obtain ⟨bytes, hencode, hread⟩ := aggAttestation_roundTrip hdata
    refine ⟨bytes, by rw [marshalUnsignedDutyData, hencode]; rfl, ?_⟩
    rw [unsignedDutyDataFromProto, hread]
    rfl
  | syncContribution c =>
    refine ⟨_, rfl, ?_⟩
    rw [unsignedDutyDataFromProto, syncContribution_roundTrip]
    rfl

/-! ## Sets survive -/

lemma entryToProto_ok {e : Sigma fun _ : PubKey => UnsignedDutyData C.Block} {b : String × Bytes}
    (h : entryToProto C e = .ok b) :
    b.1 = pubKeyToString e.1 ∧ marshalUnsignedDutyData C e.2 = .ok b.2 := by
  simp only [entryToProto, Except.bind_ok_iff, Except.pure_ok_iff] at h
  obtain ⟨bytes, hbytes, rfl⟩ := h
  exact ⟨rfl, hbytes⟩

/-- The proto map has the bytes of each value under the text of its key, whatever the order. -/
lemma lookup_toProto (order : IterOrder (Sigma fun _ : PubKey => UnsignedDutyData C.Block))
    {set : UnsignedDataSet C}
    (hset : ∀ pubkey data, set.lookup pubkey = some data →
      ∃ bytes, marshalUnsignedDutyData C data = .ok bytes) :
    ∃ proto, unsignedDataSetToProto C order set = .ok proto ∧ ∀ text bytes,
      proto.set.lookup text = some bytes ↔ ∃ pubkey data, set.lookup pubkey = some data ∧
        pubKeyToString pubkey = text ∧ marshalUnsignedDutyData C data = .ok bytes := by
  have hentries : ∀ e ∈ order.order set.entries, ∃ b, entryToProto C e = .ok b := by
    intro e he
    obtain ⟨bytes, hbytes⟩ := hset e.1 e.2 (HashMap.mem_order_iff.mp he)
    exact ⟨(pubKeyToString e.1, bytes), by rw [entryToProto, hbytes]; rfl⟩
  obtain ⟨es, hes⟩ := Except.exists_mapM_ok hentries
  have hkeys : es.map Prod.fst = (order.order set.entries).map fun e => pubKeyToString e.1 :=
    Except.map_eq_of_mapM_ok hes _ _ fun e _ b h => (entryToProto_ok h).1
  have hnodup : (es.map Prod.fst).Nodup := by
    rw [hkeys, ← Function.comp_def pubKeyToString, ← List.map_map]
    exact (HashMap.nodup_keysIn order set).map pubKeyToString_injective
  obtain ⟨hfrom, hto⟩ := Except.mapM_ok_mem hes
  refine ⟨⟨.insertAll .empty es⟩, by rw [unsignedDataSetToProto, hes]; rfl, fun text bytes => ?_⟩
  rw [SortedMap.lookup_insertAll_empty hnodup]
  constructor
  · intro hmem
    obtain ⟨e, he, hok⟩ := hfrom _ hmem
    obtain ⟨htext, hbytes⟩ := entryToProto_ok hok
    exact ⟨e.1, e.2, HashMap.mem_order_iff.mp he, htext.symm, hbytes⟩
  · rintro ⟨pubkey, data, hlook, rfl, hbytes⟩
    obtain ⟨b, hb, hok⟩ := hto ⟨pubkey, data⟩ (HashMap.mem_order_iff.mpr hlook)
    obtain ⟨htext, hbytes'⟩ := entryToProto_ok hok
    obtain rfl : bytes = b.2 := Except.ok.inj (hbytes.symm.trans hbytes')
    rwa [← htext]

lemma entryFromProto_ok {dutyType : DutyType} {e : String × Bytes}
    {b : PubKey × UnsignedDutyData C.Block} (hkey : ∃ pubkey, pubKeyToString pubkey = e.1)
    (h : entryFromProto C dutyType e = .ok b) :
    pubKeyToString b.1 = e.1 ∧ unsignedDutyDataFromProto C dutyType e.2 = .ok b.2 := by
  obtain ⟨pubkey, hpubkey⟩ := hkey
  simp only [entryFromProto, ← hpubkey, pubKeyOfString_toString, Except.ok_bind,
    Except.bind_ok_iff, Except.pure_ok_iff] at h
  obtain ⟨data, hdata, rfl⟩ := h
  exact ⟨hpubkey, hdata⟩

/-- What is read of a proto map with texts of public keys. -/
lemma lookup_fromProto {dutyType : DutyType} {proto : Corepb.UnsignedDataSet}
    (hne : proto.set.entries ≠ [])
    (hentries : ∀ text bytes, proto.set.lookup text = some bytes →
      (∃ pubkey, pubKeyToString pubkey = text) ∧
        ∃ data, unsignedDutyDataFromProto C dutyType bytes = .ok data) :
    ∃ out, unsignedDataSetFromProto C dutyType proto = .ok out ∧ ∀ pubkey data,
      out.lookup pubkey = some data ↔ ∃ bytes,
        proto.set.lookup (pubKeyToString pubkey) = some bytes ∧
          unsignedDutyDataFromProto C dutyType bytes = .ok data := by
  have hentry : ∀ e ∈ proto.set.entries, (∃ pubkey, pubKeyToString pubkey = e.1) ∧
      ∃ b, entryFromProto C dutyType e = .ok b := by
    intro e he
    obtain ⟨⟨pubkey, hpubkey⟩, data, hdata⟩ :=
      hentries e.1 e.2 (SortedMap.lookup_eq_some_iff.mpr he)
    refine ⟨⟨pubkey, hpubkey⟩, (pubkey, data), ?_⟩
    rw [entryFromProto, ← hpubkey, pubKeyOfString_toString, hdata]
    rfl
  obtain ⟨es, hes⟩ := Except.exists_mapM_ok fun e he => (hentry e he).2
  obtain ⟨hfrom, hto⟩ := Except.mapM_ok_mem hes
  have hnodup : (es.map Prod.fst).Nodup := by
    have hkeys : es.map (fun b => pubKeyToString b.1) = proto.set.keys := by
      exact Except.map_eq_of_mapM_ok hes _ _ fun e he b hb =>
        (entryFromProto_ok (hentry e he).1 hb).1
    refine List.Nodup.of_map pubKeyToString ?_
    rw [List.map_map]
    exact hkeys ▸ proto.set.nodup_keys
  refine ⟨HashMap.insertAll ∅ es, ?_, fun pubkey data => ?_⟩
  · rw [unsignedDataSetFromProto, if_neg hne, hes]
    rfl
  rw [HashMap.lookup_insertAll_empty hnodup]
  constructor
  · intro hmem
    obtain ⟨e, he, hok⟩ := hfrom _ hmem
    obtain ⟨htext, hdata⟩ := entryFromProto_ok (hentry e he).1 hok
    exact ⟨e.2, SortedMap.lookup_eq_some_iff.mpr (htext ▸ he), hdata⟩
  · rintro ⟨bytes, hlook, hdata⟩
    have he := SortedMap.lookup_eq_some_iff.mp hlook
    obtain ⟨b, hb, hok⟩ := hto _ he
    obtain ⟨htext, hdata'⟩ := entryFromProto_ok ⟨pubkey, rfl⟩ hok
    obtain rfl : b.1 = pubkey := pubKeyToString_injective htext
    obtain rfl : data = b.2 := Except.ok.inj (hdata.symm.trans hdata')
    exact hb

/-- **Unsigned data sets survive the wire.**  A non-empty set of well-formed values of a duty type is
written, equal sets as the same proto whatever order they are iterated in, and what is read has the
same public keys, each with what its value carries. -/
theorem unsigned_survives_wire (C : Codecs) {dutyType : DutyType} {set : UnsignedDataSet C}
    (order : IterOrder (Sigma fun _ : PubKey => UnsignedDutyData C.Block))
    (hne : ∃ pubkey data, set.lookup pubkey = some data)
    (hset : ∀ pubkey data, set.lookup pubkey = some data →
      OfDuty dutyType data ∧ WellFormed C data) :
    ∃ proto, unsignedDataSetToProto C order set = .ok proto ∧
      (∀ order' (set' : UnsignedDataSet C), (∀ pubkey, set'.lookup pubkey = set.lookup pubkey) →
        unsignedDataSetToProto C order' set' = .ok proto) ∧
      ∃ out, unsignedDataSetFromProto C dutyType proto = .ok out ∧
        ∀ pubkey, out.lookup pubkey = (set.lookup pubkey).map carried := by
  have hmarshal : ∀ pubkey data, set.lookup pubkey = some data →
      ∃ bytes, marshalUnsignedDutyData C data = .ok bytes ∧
        unsignedDutyDataFromProto C dutyType bytes = .ok (carried data) := by
    intro pubkey data hlook
    exact marshal_roundTrip (hset pubkey data hlook).1 (hset pubkey data hlook).2
  obtain ⟨proto, hproto, hlookup⟩ := lookup_toProto order
    fun pubkey data hlook => (hmarshal pubkey data hlook).imp fun _ h => h.1
  refine ⟨proto, hproto, fun order' set' hsame => ?_, ?_⟩
  · have hmarshal' : ∀ pubkey data, set'.lookup pubkey = some data →
        ∃ bytes, marshalUnsignedDutyData C data = .ok bytes := by
      intro pubkey data hlook
      obtain ⟨bytes, hbytes, -⟩ := hmarshal pubkey data (hsame pubkey ▸ hlook)
      exact ⟨bytes, hbytes⟩
    obtain ⟨proto', hproto', hlookup'⟩ := lookup_toProto order' hmarshal'
    have hmaps : proto'.set = proto.set := by
      refine SortedMap.ext_lookup fun text bytes => ?_
      rw [hlookup', hlookup]
      simp only [hsame]
    obtain ⟨map⟩ := proto
    obtain ⟨map'⟩ := proto'
    obtain rfl : map' = map := hmaps
    exact hproto'
  · have hentries : ∀ text bytes, proto.set.lookup text = some bytes →
        (∃ pubkey, pubKeyToString pubkey = text) ∧
          ∃ data, unsignedDutyDataFromProto C dutyType bytes = .ok data := by
      intro text bytes hlook
      obtain ⟨pubkey, data, hdata, htext, hbytes⟩ := (hlookup text bytes).mp hlook
      obtain ⟨bytes', hbytes', hread⟩ := hmarshal pubkey data hdata
      obtain rfl : bytes = bytes' := Except.ok.inj (hbytes.symm.trans hbytes')
      exact ⟨⟨pubkey, htext⟩, carried data, hread⟩
    have hentriesNe : proto.set.entries ≠ [] := by
      obtain ⟨pubkey, data, hdata⟩ := hne
      obtain ⟨bytes, hbytes, -⟩ := hmarshal pubkey data hdata
      have hmem := SortedMap.lookup_eq_some_iff.mp
        ((hlookup _ bytes).mpr ⟨pubkey, data, hdata, rfl, hbytes⟩)
      exact List.ne_nil_of_mem hmem
    obtain ⟨out, hout, hread⟩ := lookup_fromProto hentriesNe hentries
    refine ⟨out, hout, fun pubkey => Option.ext fun data' => ?_⟩
    rw [hread, Option.map_eq_some_iff]
    constructor
    · rintro ⟨bytes, hlook, hdata'⟩
      obtain ⟨pubkey', data, hdata, htext, hbytes⟩ := (hlookup _ bytes).mp hlook
      obtain rfl : pubkey' = pubkey := pubKeyToString_injective htext
      obtain ⟨bytes', hbytes', hread'⟩ := hmarshal pubkey' data hdata
      obtain rfl : bytes = bytes' := Except.ok.inj (hbytes.symm.trans hbytes')
      exact ⟨data, hdata, Except.ok.inj (hread'.symm.trans hdata')⟩
    · rintro ⟨data, hdata, rfl⟩
      obtain ⟨bytes, hbytes, hread'⟩ := hmarshal pubkey data hdata
      exact ⟨bytes, (hlookup _ bytes).mpr ⟨pubkey, data, hdata, rfl, hbytes⟩, hread'⟩

end RoundTrip

/-! ## A set with one aggregate -/

/-- Nothing in the blocks, and no JSON. -/
def unitCodecs : Codecs where
  Block _ := Unit
  block _ := Fields.nil.container Fields.maxLen_nil_lt
  readVersionedProposal _ := none
  readVersionedAttestation _ := none
  readAttestation _ := none
  readSyncContribution _ := none
  readAttestationData _ := none

def denebAggregate (validatorIndex : Option UInt64) : VersionedAttestation :=
  ⟨.deneb, validatorIndex,
    some (.deneb ⟨⟨[]⟩, ⟨20, 0, .zero, ⟨0, .zero⟩, ⟨0, .zero⟩⟩, default⟩)⟩

def firstKey : PubKey := ⟨List.replicate 48 1, by simp⟩

def oneAggregate : UnsignedDataSet unitCodecs :=
  HashMap.insertAll ∅ [(firstKey, .aggAttestation (denebAggregate (some 7)))]

/-- An aggregate comes back without its validator index. -/
theorem unsigned_survives_wire_aggregate : ∃ proto out,
    unsignedDataSetToProto unitCodecs (IterOrder.stored _) oneAggregate = .ok proto ∧
      unsignedDataSetFromProto unitCodecs .aggregator proto = .ok out ∧
      out.lookup firstKey = some (.aggAttestation (denebAggregate none)) := by
  have hlook : oneAggregate.lookup firstKey = some (.aggAttestation (denebAggregate (some 7))) :=
    AList.lookup_insert _
  have hset : ∀ pubkey data, oneAggregate.lookup pubkey = some data →
      OfDuty .aggregator data ∧ WellFormed unitCodecs data := by
    intro pubkey data hdata
    rcases HashMap.lookup_insertAll_eq_some hdata with hmem | hnone
    · obtain ⟨rfl, rfl⟩ := Prod.mk.inj (List.mem_singleton.mp hmem)
      exact ⟨.aggAttestation _, _, rfl, rfl,
        Phase0.attestation.decode_encode _ (Phase0.valid_attestation (Nat.zero_le _))⟩
    · simp at hnone
  obtain ⟨proto, hproto, -, out, hout, hread⟩ :=
    unsigned_survives_wire unitCodecs (IterOrder.stored _) ⟨firstKey, _, hlook⟩ hset
  exact ⟨proto, out, hproto, hout, by rw [hread, hlook]; rfl⟩

end Pluto.Core.UnsignedData
