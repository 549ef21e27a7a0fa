import Pluto.Core.SszCodec
import Pluto.Lib.Base64

/-!
# The codec of partial signatures

`serialize_signed_data` and `deserialize_signed_data` of `crates/core/src/parsigex_codec.rs`.
Containers with SSZ are written that way, the others as JSON.  Reading knows the duty type only, so
it tries one format after the other.

JSON is not modelled: `Codecs` has what `serde_json` does with the types that need it, and that they
come back from it.  The same goes for the SSZ codecs of blocks.

`survives_wire_iff` is the result: every value of a duty type is written, and it comes back unless it
is a versioned attestation without a validator index whose slot is 20 modulo `2 ^ 32`.  The low
bytes of such a slot stand where the longer header has its offset, which is 20.
-/

namespace Pluto.Core

open Eth2Api Ssz SszContainer SszCodec

/-- A JSON encoder with its decoder. -/
structure JsonCodec (α : Type) where
  encode : α → Bytes
  decode : Bytes → Option α
  decode_encode : ∀ a, decode (encode a) = some a

namespace ParSigExCodec

/-- The codecs that come from libraries, for the containers that are not spelled out. -/
structure Codecs where
  Block : BlockKind → Type
  graffiti : Sigma Block → HashRoot
  block : ∀ kind, Codec (Block kind)
  Registration : Type
  /-- `VersionedRawValidatorRegistrationJson` with version 1. -/
  encodeRegistration : Registration → Bytes
  decodeRegistration : Bytes → Option (BuilderVersion × Registration)
  decode_encodeRegistration : ∀ r, decodeRegistration (encodeRegistration r) = some (.v1, r)
  VoluntaryExit : Type
  voluntaryExit : JsonCodec VoluntaryExit
  SignedEpoch : Type
  signedEpoch : JsonCodec SignedEpoch
  BeaconSelection : Type
  beaconSelection : JsonCodec BeaconSelection
  SyncSelection : Type
  syncSelection : JsonCodec SyncSelection
  string : JsonCodec (List Char)
  /-- JSON readers of containers that are written in SSZ. -/
  readAttestation : Bytes → Option Phase0.Attestation
  readVersionedAttestation : Bytes → Option VersionedAttestation
  readSignedAggregateAndProof : Bytes → Option Phase0.SignedAggregateAndProof
  readVersionedSignedAggregateAndProof : Bytes → Option VersionedSignedAggregateAndProof
  readVersionedSignedProposal : Bytes → Option (VersionedSignedProposal (Sigma Block))
  readSignedSyncMessage : Bytes → Option Altair.SyncCommitteeMessage
  readSignedSyncContributionAndProof : Bytes → Option Altair.SignedContributionAndProof

abbrev Codecs.payloads (C : Codecs) : SignedData.Payloads :=
  ⟨Sigma C.Block, C.graffiti, C.Registration, C.VoluntaryExit, C.SignedEpoch, C.BeaconSelection,
    C.SyncSelection⟩

/-- The errors of `ParSigExCodecError` that these functions return. -/
inductive Error
  | unsupportedDutyType
  | deprecatedBuilderProposer
  /-- An error of `serde_json`. -/
  | serialize
  | sszCodec (error : SszCodecError)
  | signedData (error : SignedDataError)
  | invalidBase64
  | invalidSignature
  deriving DecidableEq, Repr

section Codec

variable (C : Codecs)

def serializeSignature (signature : BLSSignature) : Bytes :=
  C.string.encode (Base64.encode signature.bytes)

def deserializeSignature (bytes : Bytes) : Except Error (SignedData C.payloads) :=
  match C.string.decode bytes with
  | none => .error .serialize
  | some encoded =>
    match Base64.decode encoded with
    | none => .error .invalidBase64
    | some raw =>
      if h : raw.length = 96 then .ok (.signature ⟨raw, h⟩) else .error .invalidSignature

/-- `Serialize for VersionedSignedValidatorRegistration` -/
def serializeRegistration (version : BuilderVersion) (v1 : Option C.Registration) :
    Except Error Bytes :=
  match version, v1 with
  | .v1, some registration => .ok (C.encodeRegistration registration)
  | .v1, none => .error .serialize
  | .unknown, _ => .error .serialize

def deserializeRegistration (bytes : Bytes) : Except Error (SignedData C.payloads) :=
  match C.decodeRegistration bytes with
  | some (.v1, registration) => .ok (.versionedSignedValidatorRegistration .v1 (some registration))
  | some (.unknown, _) => .error .serialize
  | none => .error .serialize

def serializeSignedData : SignedData C.payloads → Except Error Bytes
  | .attestation a => .ok (Phase0.attestation.encode a)
  | .versionedAttestation va => (encodeVersionedAttestation va).mapError .sszCodec
  | .signedAggregateAndProof a => .ok (Phase0.signedAggregateAndProof.encode a)
  | .versionedSignedAggregateAndProof va =>
    (encodeVersionedSignedAggregateAndProof va).mapError .sszCodec
  | .signedSyncMessage m => .ok (Altair.syncCommitteeMessage.encode m)
  | .signedSyncContributionAndProof c => .ok (Altair.signedContributionAndProof.encode c)
  | .versionedSignedProposal vp =>
    (encodeVersionedSignedProposal C.block vp).mapError .sszCodec
  | .versionedSignedValidatorRegistration version v1 => serializeRegistration C version v1
  | .signedVoluntaryExit e => .ok (C.voluntaryExit.encode e)
  | .signedRandao r => .ok (C.signedEpoch.encode r)
  | .signature s => .ok (serializeSignature C s)
  | .beaconCommitteeSelection s => .ok (C.beaconSelection.encode s)
  | .syncCommitteeSelection s => .ok (C.syncSelection.encode s)
  | .syncContributionAndProof _ => .error .unsupportedDutyType

def isAsciiWhitespace (b : UInt8) : Bool := b = 9 || b = 10 || b = 12 || b = 13 || b = 32

/-- Returns `true` when the first non-whitespace byte is an opening brace. -/
def looksLikeJson (bytes : Bytes) : Bool :=
  bytes.find? (fun b => !isAsciiWhitespace b) = some 123

/-- `serde_json::from_slice` -/
def fromJson {α : Type} (decoded : Option α) (wrap : α → SignedData C.payloads) :
    Except Error (SignedData C.payloads) :=
  match decoded with
  | some value => .ok (wrap value)
  | none => .error .serialize

/-- The JSON that may follow when no SSZ decoder has accepted the bytes. -/
def orJson (bytes : Bytes) (json : Except Error (SignedData C.payloads)) :
    Except Error (SignedData C.payloads) :=
  if looksLikeJson bytes then json else .error .unsupportedDutyType

/-- The second reader is used if the first one fails. -/
def orElse (json other : Except Error (SignedData C.payloads)) :
    Except Error (SignedData C.payloads) :=
  match json with
  | .ok value => .ok value
  | .error _ => other

def deserializeAttester (bytes : Bytes) : Except Error (SignedData C.payloads) :=
  match fromSsz Phase0.attestation bytes with
  | .ok att => .ok (.attestation att)
  | .error _ =>
    match decodeVersionedAttestation bytes with
    | .ok va => (SignedData.newVersionedAttestation va).mapError .signedData
    | .error _ =>
      orJson C bytes (orElse C (fromJson C (C.readAttestation bytes) .attestation)
        (fromJson C (C.readVersionedAttestation bytes) .versionedAttestation))

def deserializeProposer (bytes : Bytes) : Except Error (SignedData C.payloads) :=
  match decodeVersionedSignedProposal C.block bytes with
  | .ok vp => (SignedData.newVersionedSignedProposal vp).mapError .signedData
  | .error _ =>
    orJson C bytes
      (fromJson C (C.readVersionedSignedProposal bytes) fun vp => .versionedSignedProposal vp)

def deserializeAggregator (bytes : Bytes) : Except Error (SignedData C.payloads) :=
  match fromSsz Phase0.signedAggregateAndProof bytes with
  | .ok sap => .ok (.signedAggregateAndProof sap)
  | .error _ =>
    match decodeVersionedSignedAggregateAndProof bytes with
    | .ok va => .ok (.versionedSignedAggregateAndProof va)
    | .error _ =>
      orJson C bytes
        (orElse C (fromJson C (C.readSignedAggregateAndProof bytes) .signedAggregateAndProof)
          (fromJson C (C.readVersionedSignedAggregateAndProof bytes)
            .versionedSignedAggregateAndProof))

def deserializeSignedData (dutyType : DutyType) (bytes : Bytes) :
    Except Error (SignedData C.payloads) :=
  match dutyType with
  | .attester => deserializeAttester C bytes
  | .proposer => deserializeProposer C bytes
  | .builderProposer => .error .deprecatedBuilderProposer
  | .builderRegistration => deserializeRegistration C bytes
  | .exit => fromJson C (C.voluntaryExit.decode bytes) fun e => .signedVoluntaryExit e
  | .randao => fromJson C (C.signedEpoch.decode bytes) fun r => .signedRandao r
  | .signature => deserializeSignature C bytes
  | .prepareAggregator =>
    fromJson C (C.beaconSelection.decode bytes) fun s => .beaconCommitteeSelection s
  | .aggregator => deserializeAggregator C bytes
  | .syncMessage =>
    match fromSsz Altair.syncCommitteeMessage bytes with
    | .ok msg => .ok (.signedSyncMessage msg)
    | .error _ => orJson C bytes (fromJson C (C.readSignedSyncMessage bytes) .signedSyncMessage)
  | .prepareSyncContribution =>
    fromJson C (C.syncSelection.decode bytes) fun s => .syncCommitteeSelection s
  | .syncContribution =>
    match fromSsz Altair.signedContributionAndProof bytes with
    | .ok scp => .ok (.signedSyncContributionAndProof scp)
    | .error _ =>
      orJson C bytes
        (fromJson C (C.readSignedSyncContributionAndProof bytes) .signedSyncContributionAndProof)
  | .unknown | .infoSync | .dutySentinel _ => .error .unsupportedDutyType

end Codec

/-! ## What is written and read -/

/-- The values of a duty type. -/
inductive OfDuty {P : SignedData.Payloads} : DutyType → SignedData P → Prop
  | attestation (a) : OfDuty .attester (.attestation a)
  | versionedAttestation (va) : OfDuty .attester (.versionedAttestation va)
  | versionedSignedProposal (vp) : OfDuty .proposer (.versionedSignedProposal vp)
  | registration (version v1) :
      OfDuty .builderRegistration (.versionedSignedValidatorRegistration version v1)
  | signedVoluntaryExit (e) : OfDuty .exit (.signedVoluntaryExit e)
  | signedRandao (r) : OfDuty .randao (.signedRandao r)
  | signature (s) : OfDuty .signature (.signature s)
  | beaconCommitteeSelection (s) : OfDuty .prepareAggregator (.beaconCommitteeSelection s)
  | signedAggregateAndProof (a) : OfDuty .aggregator (.signedAggregateAndProof a)
  | versionedSignedAggregateAndProof (va) :
      OfDuty .aggregator (.versionedSignedAggregateAndProof va)
  | signedSyncMessage (m) : OfDuty .syncMessage (.signedSyncMessage m)
  | syncCommitteeSelection (s) : OfDuty .prepareSyncContribution (.syncCommitteeSelection s)
  | signedSyncContributionAndProof (c) :
      OfDuty .syncContribution (.signedSyncContributionAndProof c)

/-- The constructor accepts the value, its payload is of its version, and its bit lists are within
their maximum. -/
def WellFormed (C : Codecs) : SignedData C.payloads → Prop
  | .attestation a => a.aggregationBits.bits.length ≤ 2048
  | .versionedAttestation va =>
    SignedData.newVersionedAttestation va = .ok (.versionedAttestation va : SignedData C.payloads) ∧
      ∀ payload ∈ va.attestation,
        va.version = attestationVersion payload ∧ AttestationInBounds payload
  | .signedAggregateAndProof a => a.message.aggregate.aggregationBits.bits.length ≤ 2048
  | .versionedSignedAggregateAndProof va =>
    va.version = aggregateVersion va.aggregateAndProof ∧ AggregateInBounds va.aggregateAndProof
  | .versionedSignedProposal vp =>
    SignedData.newVersionedSignedProposal vp =
        .ok (.versionedSignedProposal vp : SignedData C.payloads) ∧
      BlockKind.select vp.version vp.blinded = some vp.block.1 ∧
      (C.block vp.block.1).Valid vp.block.2
  | .versionedSignedValidatorRegistration version v1 =>
    SignedData.newVersionedSignedValidatorRegistration version v1 =
      .ok (.versionedSignedValidatorRegistration version v1 : SignedData C.payloads)
  | _ => True

/-- The slot of a versioned attestation is taken for the offset of the longer header. -/
def Collides {P : SignedData.Payloads} : SignedData P → Prop
  | .versionedAttestation va =>
    va.validatorIndex = none ∧ ∃ payload ∈ va.attestation, payload.data.slot.toNat % 2 ^ 32 = 20
  | _ => False

section RoundTrip

variable {C : Codecs}

lemma attestationOk {va : VersionedAttestation}
    (h : WellFormed C (.versionedAttestation va)) : ∃ payload, AttestationOk va payload := by
  obtain ⟨hnew, hpayload⟩ := h
  unfold SignedData.newVersionedAttestation at hnew
  split at hnew
  · cases hnew
  · split at hnew
    · cases hnew
    · rename_i payload hsome
      obtain ⟨hversion, hbounds⟩ := hpayload payload hsome
      exact ⟨payload, hsome, hversion, hbounds⟩

lemma eq_of_newVersionedAttestation {va va' : VersionedAttestation}
    (h : SignedData.newVersionedAttestation va' =
      .ok (.versionedAttestation va : SignedData C.payloads)) : va' = va := by
  unfold SignedData.newVersionedAttestation at h
  split at h
  · cases h
  · split at h <;> cases h
    rfl

/-- The bytes of a versioned container do not look like JSON: they start with the version. -/
lemma looksLikeJson_version {version : DataVersion} {raw : UInt64}
    (h : version.toLegacyU64 = .ok raw) (rest : Bytes) :
    looksLikeJson (leBytes 8 raw.toNat ++ rest) = false := by
  cases version <;> cases h <;> rfl

lemma attestation_roundTrip {a : Phase0.Attestation}
    (h : a.aggregationBits.bits.length ≤ 2048) :
    deserializeAttester C (Phase0.attestation.encode a) = .ok (.attestation a) := by
  rw [deserializeAttester, fromSsz_encode (Phase0.valid_attestation h)]

lemma versionedAttestation_roundTrip {va : VersionedAttestation}
    (h : WellFormed C (.versionedAttestation va)) : ∃ bytes,
      serializeSignedData C (.versionedAttestation va) = .ok bytes ∧
      (deserializeAttester C bytes = .ok (.versionedAttestation va) ↔
        ¬Collides (.versionedAttestation va : SignedData C.payloads)) := by
  obtain ⟨payload, hok⟩ := attestationOk h
  obtain ⟨raw, rest, hraw, hencode, hdecode⟩ := decodeVersionedAttestation_encode hok
  refine ⟨leBytes 8 raw.toNat ++ rest, by rw [serializeSignedData, hencode]; rfl, ?_⟩
  have hcollides : Collides (.versionedAttestation va : SignedData C.payloads) ↔
      va.validatorIndex = none ∧ payload.data.slot.toNat % 2 ^ 32 = 20 := by
    simp [Collides, hok.attestation]
  rw [hcollides, ← hdecode, deserializeAttester]
  have hplain := decode_attestation_ne_ok hraw rest
  cases hssz : fromSsz Phase0.attestation (leBytes 8 raw.toNat ++ rest) with
  | ok a => exact absurd hssz (hplain a)
  | error e =>
    cases hva : decodeVersionedAttestation (leBytes 8 raw.toNat ++ rest) with
    | error e' =>
      simp only [orJson, looksLikeJson_version hraw]
      exact ⟨nofun, nofun⟩
    | ok va' =>
      simp only [Except.mapError_ok_iff, Except.ok.injEq]
      constructor
      · exact eq_of_newVersionedAttestation
      · rintro rfl
        exact h.1

lemma versionedSignedAggregateAndProof_roundTrip {va : VersionedSignedAggregateAndProof}
    (h : WellFormed C (.versionedSignedAggregateAndProof va)) : ∃ bytes,
      serializeSignedData C (.versionedSignedAggregateAndProof va) = .ok bytes ∧
      deserializeAggregator C bytes = .ok (.versionedSignedAggregateAndProof va) := by
  obtain ⟨raw, rest, hraw, hencode, hdecode⟩ :=
    decodeVersionedSignedAggregateAndProof_encode h.1 h.2
  refine ⟨leBytes 8 raw.toNat ++ rest, by rw [serializeSignedData, hencode]; rfl, ?_⟩
  rw [deserializeAggregator]
  have hplain := decode_signedAggregateAndProof_ne_ok hraw rest
  cases hssz : fromSsz Phase0.signedAggregateAndProof (leBytes 8 raw.toNat ++ rest) with
  | ok a => exact absurd hssz (hplain a)
  | error e => simp only [hdecode]

lemma versionedSignedProposal_roundTrip {vp : VersionedSignedProposal (Sigma C.Block)}
    (h : WellFormed C (.versionedSignedProposal vp)) : ∃ bytes,
      serializeSignedData C (.versionedSignedProposal vp) = .ok bytes ∧
      deserializeProposer C bytes = .ok (.versionedSignedProposal vp) := by
  obtain ⟨hnew, hkind, hvalid⟩ := h
  obtain ⟨bytes, hencode, hdecode⟩ := decodeVersionedSignedProposal_encode C.block vp hkind
    (fromSsz_encode hvalid)
  refine ⟨bytes, by rw [serializeSignedData, hencode]; rfl, ?_⟩
  rw [deserializeProposer, hdecode]
  exact Except.mapError_ok_iff.mpr hnew

lemma registration_roundTrip {version : BuilderVersion} {v1 : Option C.Registration}
    (h : WellFormed C (.versionedSignedValidatorRegistration version v1)) : ∃ bytes,
      serializeSignedData C (.versionedSignedValidatorRegistration version v1) = .ok bytes ∧
      deserializeRegistration C bytes = .ok (.versionedSignedValidatorRegistration version v1) := by
  cases version with
  | unknown => cases h
  | v1 =>
    cases v1 with
    | none => cases h
    | some registration =>
      refine ⟨C.encodeRegistration registration, rfl, ?_⟩
      rw [deserializeRegistration, C.decode_encodeRegistration]

lemma signature_roundTrip (s : BLSSignature) :
    deserializeSignature C (serializeSignature C s) = .ok (.signature s) := by
  rw [deserializeSignature, serializeSignature, C.string.decode_encode]
  simp only [Base64.decode_encode, s.length_eq, dite_true]

/-- **Signed data survives the wire.**  A well-formed value of a duty type is serialized, and the
bytes are read as that value, unless it is a versioned attestation without a validator index and
with a slot of 20 modulo `2 ^ 32`; then they are not. -/
theorem survives_wire_iff (C : Codecs) {dutyType : DutyType} {data : SignedData C.payloads}
    (hduty : OfDuty dutyType data) (hdata : WellFormed C data) :
    ∃ bytes, serializeSignedData C data = .ok bytes ∧
      (deserializeSignedData C dutyType bytes = .ok data ↔ ¬Collides data) := by
  have survives : ∀ bytes, serializeSignedData C data = .ok bytes → ¬Collides data →
      deserializeSignedData C dutyType bytes = .ok data →
      ∃ bytes, serializeSignedData C data = .ok bytes ∧
        (deserializeSignedData C dutyType bytes = .ok data ↔ ¬Collides data) :=
    fun bytes hbytes hne hread => ⟨bytes, hbytes, iff_of_true hread hne⟩
  cases hduty with
  | attestation a =>
    refine survives (Phase0.attestation.encode a) (by rw [serializeSignedData]) not_false ?_
    rw [deserializeSignedData, attestation_roundTrip hdata]
  | versionedAttestation va => exact versionedAttestation_roundTrip hdata
  | versionedSignedProposal vp =>
    obtain ⟨bytes, hbytes, hread⟩ := versionedSignedProposal_roundTrip hdata
    exact survives bytes hbytes not_false hread
  | registration version v1 =>
    obtain ⟨bytes, hbytes, hread⟩ := registration_roundTrip hdata
    exact survives bytes hbytes not_false hread
  | signedVoluntaryExit e =>
    refine survives (C.voluntaryExit.encode e) (by rw [serializeSignedData]) not_false ?_
    rw [deserializeSignedData, C.voluntaryExit.decode_encode, fromJson]
  | signedRandao r =>
    refine survives (C.signedEpoch.encode r) (by rw [serializeSignedData]) not_false ?_
    rw [deserializeSignedData, C.signedEpoch.decode_encode, fromJson]
  | signature s =>
    refine survives (serializeSignature C s) (by rw [serializeSignedData]) not_false ?_
    rw [deserializeSignedData, signature_roundTrip s]
  | beaconCommitteeSelection s =>
    refine survives (C.beaconSelection.encode s) (by rw [serializeSignedData]) not_false ?_
    rw [deserializeSignedData, C.beaconSelection.decode_encode, fromJson]
  | signedAggregateAndProof a =>
    refine survives (Phase0.signedAggregateAndProof.encode a) (by rw [serializeSignedData])
      not_false ?_
    rw [deserializeSignedData, deserializeAggregator,
      fromSsz_encode (Phase0.valid_signedAggregateAndProof hdata)]
  | versionedSignedAggregateAndProof va =>
    obtain ⟨bytes, hbytes, hread⟩ := versionedSignedAggregateAndProof_roundTrip hdata
    exact survives bytes hbytes not_false hread
  | signedSyncMessage m =>
    refine survives (Altair.syncCommitteeMessage.encode m) (by rw [serializeSignedData])
      not_false ?_
    rw [deserializeSignedData, fromSsz_encode (Altair.valid_syncCommitteeMessage m)]
  | syncCommitteeSelection s =>
    refine survives (C.syncSelection.encode s) (by rw [serializeSignedData]) not_false ?_
    rw [deserializeSignedData, C.syncSelection.decode_encode, fromJson]
  | signedSyncContributionAndProof c =>
    refine survives (Altair.signedContributionAndProof.encode c) (by rw [serializeSignedData])
      not_false ?_
    rw [deserializeSignedData, fromSsz_encode (Altair.valid_signedContributionAndProof c)]

end RoundTrip

/-! ## Slot 20 -/

namespace Slot20

/-- Four bytes a character. -/
def writeChars (cs : List Char) : Bytes := cs.flatMap fun c => leBytes 4 c.toNat

def readChars : Bytes → Option (List Char)
  | [] => some []
  | a :: b :: c :: d :: rest =>
    (readChars rest).map fun cs => Char.ofNat (readLe [a, b, c, d]) :: cs
  | _ => none

lemma readChars_writeChars (cs : List Char) : readChars (writeChars cs) = some cs := by
  induction cs with
  | nil => rfl
  | cons c cs ih =>
    have hread : readLe (leBytes 4 c.toNat) = c.toNat := readLe_leBytes_of_lt c.val.toNat_lt
    have hstep : readChars (writeChars (c :: cs)) = (readChars (writeChars cs)).map fun cs =>
        Char.ofNat (readLe (leBytes 4 c.toNat)) :: cs := rfl
    rw [hstep, ih, hread, Char.ofNat_toNat, Option.map_some]

def unit : JsonCodec Unit := ⟨fun _ => [], fun _ => some (), fun _ => rfl⟩

/-- Nothing but a unit in each container that is not spelled out, and no JSON for the others. -/
def codecs : Codecs where
  Block _ := Unit
  graffiti _ := .zero
  block _ := Fields.nil.container Fields.maxLen_nil_lt
  Registration := Unit
  encodeRegistration _ := []
  decodeRegistration _ := some (.v1, ())
  decode_encodeRegistration _ := rfl
  VoluntaryExit := Unit
  voluntaryExit := unit
  SignedEpoch := Unit
  signedEpoch := unit
  BeaconSelection := Unit
  beaconSelection := unit
  SyncSelection := Unit
  syncSelection := unit
  string := ⟨writeChars, readChars, readChars_writeChars⟩
  readAttestation _ := none
  readVersionedAttestation _ := none
  readSignedAggregateAndProof _ := none
  readVersionedSignedAggregateAndProof _ := none
  readVersionedSignedProposal _ := none
  readSignedSyncMessage _ := none
  readSignedSyncContributionAndProof _ := none

def attestation (slot : UInt64) : VersionedAttestation :=
  ⟨.deneb, none, some (.deneb ⟨⟨[]⟩, ⟨slot, 0, .zero, ⟨0, .zero⟩, ⟨0, .zero⟩⟩, default⟩)⟩

lemma wellFormed (slot : UInt64) :
    WellFormed codecs (.versionedAttestation (attestation slot)) := by
  refine ⟨rfl, ?_⟩
  rintro payload ⟨⟩
  exact ⟨rfl, Nat.zero_le _⟩

end Slot20

/-- An attestation of slot 42. -/
theorem survives_wire_slot42 : ∃ bytes,
    serializeSignedData Slot20.codecs (.versionedAttestation (Slot20.attestation 42)) = .ok bytes ∧
    deserializeSignedData Slot20.codecs .attester bytes =
      .ok (.versionedAttestation (Slot20.attestation 42)) := by
  obtain ⟨bytes, hbytes, hread⟩ :=
    survives_wire_iff Slot20.codecs (.versionedAttestation _) (Slot20.wellFormed 42)
  refine ⟨bytes, hbytes, hread.mpr ?_⟩
  rintro ⟨-, payload, ⟨⟩, hslot⟩
  revert hslot
  decide

set_option maxRecDepth 8000 in
/-- **An attestation of slot 20 is lost.**  It is well formed and it is serialized, but its bytes are
rejected. -/
theorem slot20_lost :
    WellFormed Slot20.codecs (.versionedAttestation (Slot20.attestation 20)) ∧
    ∃ bytes, serializeSignedData Slot20.codecs
        (.versionedAttestation (Slot20.attestation 20)) = .ok bytes ∧
      deserializeSignedData Slot20.codecs .attester bytes = .error .unsupportedDutyType :=
  ⟨Slot20.wellFormed 20, _, rfl, rfl⟩

end ParSigExCodec

end Pluto.Core
