import Pluto.Consensus.Msg
import Pluto.Core.Deadline.Deadliner

/-!
# Admission of inbound messages

`Consensus::handle` of `crates/consensus/src/qbft/component.rs` with everything it calls: the field
and signature checks of `verify_msg`, the decoding and hashing of the values, the wrapping, and the
hand-over to the receive buffer of the duty's instance.  What the environment decides comes as an
argument: whether the caller cancelled, what the deadliner answers, and what became of the send.
The last function is the decide callback of `definition.rs`, up to the value it dispatches.

The public keys are held in process-index order, as `Consensus::new` registers them.  Labels, the
sniffer and the metrics have no influence and are left out.
-/

namespace Pluto.Consensus

open Except (bind_ok_iff mapError_ok_iff pure_ok_iff)
open Corepb Ssz

/-- Inbound admission errors. -/
inductive ComponentError
  | invalidConsensusMessage
  | invalidConsensusMessageType
  | invalidConsensusMessageDutyType
  | invalidConsensusMessageRound
  | invalidConsensusMessagePreparedRound
  | invalidPeerIndex
  | verifyConsensusMessageSignature (source : MsgError)
  | invalidConsensusMessageSignature
  | invalidDuty
  | invalidJustification (source : ComponentError)
  | justificationDutyDiffers
  | tooManyJustifications (count max : ℕ)
  | unmarshalAny
  | msg (source : MsgError)
  | dutyExpired
  | timeoutEnqueuingReceiveBuffer
  | receiveCancelledDuringVerification
  deriving DecidableEq, Repr

/-! ## Values -/

/-- Decoded consensus value supported by the component. -/
inductive DecodedValue
  | unsignedDataSet (inner : UnsignedDataSet)
  | priorityResult (inner : PriorityResult)
  deriving DecidableEq

/-- The hash of the inner message. -/
def DecodedValue.hash (sha256 : Bytes → HashRoot) : DecodedValue → Except MsgError HashRoot
  | .unsignedDataSet inner => hashProto sha256 UnsignedDataSet.named inner
  | .priorityResult inner => hashProto sha256 PriorityResult.named inner

/-- Decodes the payload types accepted by this consensus layer. -/
def decodeSupportedAny (dec : Decoder) (value : Any) : Except ComponentError DecodedValue :=
  if value.typeUrl = UnsignedDataSet.named.typeUrl then
    match dec.unsignedDataSet value.value with
    | some decoded => .ok (.unsignedDataSet decoded)
    | none => .error .unmarshalAny
  else if value.typeUrl = PriorityResult.named.typeUrl then
    match dec.priorityResult value.value with
    | some decoded => .ok (.priorityResult decoded)
    | none => .error .unmarshalAny
  else .error .unmarshalAny

section Values

variable (sha256 : Bytes → HashRoot) (dec : Decoder)

/-- The loop of `values_by_hash`. -/
def insertValues : ValueMap → List Any → Except ComponentError ValueMap
  | out, [] => .ok out
  | out, value :: values => do
    let decoded ← decodeSupportedAny dec value
    let hash ← (decoded.hash sha256).mapError .msg
    insertValues (out.insert hash value) values

/-- Canonicalizes inbound values into the map used by QBFT messages. -/
def valuesByHash (values : List Any) : Except ComponentError ValueMap :=
  insertValues sha256 dec ∅ values

/-- The payload decodes to a message with this hash. -/
def Binds (hash : HashRoot) (value : Any) : Prop :=
  ∃ decoded, decodeSupportedAny dec value = .ok decoded ∧ decoded.hash sha256 = .ok hash

/-- Every entry of the map stands under the hash of its inner message. -/
def Bound (values : ValueMap) : Prop :=
  ∀ hash value, values.lookup hash = some value → Binds sha256 dec hash value

variable {sha256 dec}

lemma bound_empty : Bound sha256 dec ∅ := by
  intro hash value h
  simp at h

lemma Bound.insert {values : ValueMap} (hv : Bound sha256 dec values) {hash : HashRoot}
    {value : Any} (hb : Binds sha256 dec hash value) :
    Bound sha256 dec (values.insert hash value) := by
  intro hash' value' hlookup
  rcases HashMap.lookup_insert_eq_some hlookup with ⟨rfl, rfl⟩ | hold
  · exact hb
  · exact hv hash' value' hold

lemma insertValues_bound {values : List Any} {out out' : ValueMap} (hout : Bound sha256 dec out)
    (h : insertValues sha256 dec out values = .ok out') : Bound sha256 dec out' := by
  induction values generalizing out with
  | nil =>
    rw [insertValues] at h
    rwa [← Except.ok.inj h]
  | cons value values ih =>
    rw [insertValues] at h
    obtain ⟨decoded, hdecoded, h⟩ := bind_ok_iff.mp h
    obtain ⟨hash, hhash, h⟩ := bind_ok_iff.mp h
    exact ih (hout.insert ⟨decoded, hdecoded, mapError_ok_iff.mp hhash⟩) h

/-- **Inbound values stand under their own hashes.** -/
theorem valuesByHash_bound {values : List Any} {out : ValueMap}
    (h : valuesByHash sha256 dec values = .ok out) : Bound sha256 dec out :=
  insertValues_bound bound_empty h

end Values

/-! ## Admission -/

section Admission

variable {SK PK : Type} [DecidableEq PK]

/-- The component, as far as admission reads it. -/
structure Component (PK : Type) where
  /-- The public keys in process-index order. -/
  peers : List PK
  dutyGater : Core.Duty → Bool

/-- The public key registered for a peer index. -/
def Component.pubkey (c : Component PK) (peerIdx : Int64) : Option PK :=
  if 0 ≤ peerIdx.toInt then c.peers[peerIdx.toInt.toNat]? else none

def Component.nodeCount (c : Component PK) : ℕ := c.peers.length

variable (k : Crypto SK PK) (dec : Decoder) (c : Component PK)

/-- Verifies fields and signature for one raw QBFT message. -/
def verifyMsg (msg : QbftMsg) : Except ComponentError Unit :=
  match msg.duty with
  | none => .error .invalidConsensusMessage
  | some duty =>
    if (Qbft.MessageType.fromWire msg.type.toInt).valid = false then
      .error .invalidConsensusMessageType
    else
      match Core.DutyType.ofWire duty.type with
      | .error _ => .error .invalidConsensusMessageDutyType
      | .ok dutyType =>
        if dutyType.isValid = false then .error .invalidConsensusMessageDutyType
        else if msg.round.toInt ≤ 0 then .error .invalidConsensusMessageRound
        else if msg.preparedRound.toInt < 0 then .error .invalidConsensusMessagePreparedRound
        else
          match c.pubkey msg.peerIdx with
          | none => .error .invalidPeerIndex
          | some pubkey =>
            match verifyMsgSig k msg pubkey with
            | .error e => .error (.verifyConsensusMessageSignature e)
            | .ok false => .error .invalidConsensusMessageSignature
            | .ok true => .ok ()

/-- The domain duty of a validated raw QBFT message. -/
def dutyFromMsg (msg : QbftMsg) : Except ComponentError Core.Duty :=
  match msg.duty with
  | none => .error .invalidConsensusMessage
  | some duty => (Core.Duty.tryFrom duty).mapError fun _ => .invalidConsensusMessageDutyType

/-- The check of one justification. -/
def verifyJustification (duty : Core.Duty) (justification : QbftMsg) :
    Except ComponentError Unit := do
  (verifyMsg k c justification).mapError .invalidJustification
  let justDuty ← (dutyFromMsg justification).mapError .invalidJustification
  if justDuty = duty then .ok () else .error .justificationDutyDiffers

/-- `handle`, up to the wrapped message. -/
def validate (pbMsg : QbftConsensusMsg) : Except ComponentError (Core.Duty × Msg) :=
  match pbMsg.msg with
  | none => .error .invalidConsensusMessage
  | some inner => do
    verifyMsg k c inner
    let duty ← dutyFromMsg inner
    if c.dutyGater duty = false then .error .invalidDuty
    else if Qbft.maxJustificationsPerNode * c.nodeCount < pbMsg.justification.length then
      .error (.tooManyJustifications pbMsg.justification.length
        (Qbft.maxJustificationsPerNode * c.nodeCount))
    else do
      pbMsg.justification.forM (verifyJustification k c duty)
      let values ← valuesByHash k.sha256 dec pbMsg.values
      let wrapped ← (Msg.new inner pbMsg.justification values).mapError .msg
      return (duty, wrapped)

/-- What became of the send to the receive buffer. -/
inductive SendOutcome
  | accepted
  | closed (hasStarted : Bool)
  | cancelled
  deriving DecidableEq, Repr

/-- What the environment decides during a call of `handle`. -/
structure HandleEnv where
  isCancelled : Bool
  addDeadline : Core.Deadline.AddOutcome
  send : SendOutcome

/-- Validates, wraps, and queues an inbound message: the duty of the instance it is queued on, or
`none` if the instance is over. -/
def handle (env : HandleEnv) (pbMsg : QbftConsensusMsg) :
    Except ComponentError (Option (Core.Duty × Msg)) := do
  let admitted ← validate k dec c pbMsg
  if env.isCancelled then .error .receiveCancelledDuringVerification
  else if env.addDeadline ≠ .scheduled then .error .dutyExpired
  else
    match env.send with
    | .accepted => .ok (some admitted)
    | .closed true => .ok none
    | .closed false => .error .timeoutEnqueuingReceiveBuffer
    | .cancelled => .error .timeoutEnqueuingReceiveBuffer

/-! ### What passes -/

/-- What `verify_msg` establishes. -/
structure Verified (msg : QbftMsg) : Prop where
  typeValid : (Qbft.MessageType.fromWire msg.type.toInt).valid = true
  round_pos : 0 < msg.round.toInt
  preparedRound_nonneg : 0 ≤ msg.preparedRound.toInt
  signed : ∃ pubkey hash, c.pubkey msg.peerIdx = some pubkey ∧
    hashProto k.sha256 QbftMsg.named (clearSignature msg) = .ok hash ∧
    k.recover hash msg.signature = .ok pubkey

/-- What `handle` establishes of a message it wraps. -/
structure Admitted (duty : Core.Duty) (m : Msg) : Prop where
  verified : ∀ q ∈ m.msg :: m.justificationProtos, Verified k c q ∧ dutyFromMsg q = .ok duty
  bound : Bound k.sha256 dec m.values
  wrapped : Msg.new m.msg m.justificationProtos m.values = .ok m

variable {k dec c}

lemma verifyMsgSig_ok {msg : QbftMsg} {pubkey : PK} (h : verifyMsgSig k msg pubkey = .ok true) :
    ∃ hash, hashProto k.sha256 QbftMsg.named (clearSignature msg) = .ok hash ∧
      k.recover hash msg.signature = .ok pubkey := by
  unfold verifyMsgSig at h
  split_ifs at h
  obtain ⟨hash, hhash, h⟩ := bind_ok_iff.mp h
  obtain ⟨recovered, hrecovered, h⟩ := bind_ok_iff.mp h
  have heq : recovered = pubkey := of_decide_eq_true (pure_ok_iff.mp h)
  refine ⟨hash, hhash, ?_⟩
  rw [mapError_ok_iff.mp hrecovered, heq]

lemma verifyMsg_ok {msg : QbftMsg} (h : verifyMsg k c msg = .ok ()) : Verified k c msg := by
  unfold verifyMsg at h
  split at h
  · cases h
  split at h
  · cases h
  rename_i htype
  split at h
  · cases h
  split at h
  · cases h
  split at h
  · cases h
  rename_i hround
  split at h
  · cases h
  rename_i hprepared
  split at h
  · cases h
  rename_i pubkey hpubkey
  split at h
  · cases h
  · cases h
  rename_i hsig
  obtain ⟨hash, hhash, hrecover⟩ := verifyMsgSig_ok hsig
  exact ⟨by simpa using htype, by omega, by omega, pubkey, hash, hpubkey, hhash, hrecover⟩

lemma verifyJustification_ok {duty : Core.Duty} {msg : QbftMsg}
    (h : verifyJustification k c duty msg = .ok ()) :
    Verified k c msg ∧ dutyFromMsg msg = .ok duty := by
  unfold verifyJustification at h
  obtain ⟨_, hverify, h⟩ := bind_ok_iff.mp h
  obtain ⟨justDuty, hduty, h⟩ := bind_ok_iff.mp h
  split_ifs at h with heq
  refine ⟨verifyMsg_ok (mapError_ok_iff.mp hverify), ?_⟩
  rw [mapError_ok_iff.mp hduty, heq]

/-- **What admission establishes.** -/
theorem validate_ok {pbMsg : QbftConsensusMsg} {duty : Core.Duty} {m : Msg}
    (h : validate k dec c pbMsg = .ok (duty, m)) :
    Admitted k dec c duty m ∧ pbMsg.msg = some m.msg ∧
      pbMsg.justification = m.justificationProtos := by
  unfold validate at h
  split at h
  · cases h
  rename_i inner hinner
  obtain ⟨_, hverify, h⟩ := bind_ok_iff.mp h
  obtain ⟨duty', hduty, h⟩ := bind_ok_iff.mp h
  split_ifs at h
  obtain ⟨_, hjust, h⟩ := bind_ok_iff.mp h
  obtain ⟨values, hvalues, h⟩ := bind_ok_iff.mp h
  obtain ⟨wrapped, hwrapped, h⟩ := bind_ok_iff.mp h
  obtain ⟨rfl, rfl⟩ := Prod.mk.inj (pure_ok_iff.mp h)
  have hnew := mapError_ok_iff.mp hwrapped
  obtain ⟨rfl, -⟩ := Msg.new_eq_ok.mp hnew
  refine ⟨⟨?_, valuesByHash_bound hvalues, hnew⟩, hinner, rfl⟩
  refine List.forall_mem_cons.mpr ⟨⟨verifyMsg_ok hverify, hduty⟩, fun j hj => ?_⟩
  exact verifyJustification_ok (Except.forM_ok_iff.mp hjust j hj)

/-- A message that is queued was admitted. -/
lemma handle_ok {env : HandleEnv} {pbMsg : QbftConsensusMsg} {duty : Core.Duty} {m : Msg}
    (h : handle k dec c env pbMsg = .ok (some (duty, m))) :
    Admitted k dec c duty m ∧ pbMsg.msg = some m.msg ∧
      pbMsg.justification = m.justificationProtos := by
  unfold handle at h
  obtain ⟨admitted, hadmit, h⟩ := bind_ok_iff.mp h
  split_ifs at h
  split at h <;> cases h
  exact validate_ok hadmit

/-- The duty a wrapper shows to the core is the one it was admitted for. -/
lemma dutyFromProto_eq {msg : QbftMsg} {duty : Core.Duty} (h : dutyFromMsg msg = .ok duty) :
    dutyFromProto msg.duty = duty := by
  unfold dutyFromMsg at h
  cases hduty : msg.duty with
  | none => simp [hduty] at h
  | some pbDuty =>
    rw [hduty] at h
    have htry := mapError_ok_iff.mp h
    unfold Core.Duty.tryFrom at htry
    cases htype : Core.DutyType.ofWire pbDuty.type with
    | error e => simp [htype, Except.bind] at htry
    | ok dutyType =>
      rw [htype] at htry
      dsimp only [Except.bind] at htry
      split_ifs at htry
      rw [← Except.ok.inj htry]
      simp [dutyFromProto, htype]

end Admission

/-! ## Decisions -/

/-- The decide callback: the value dispatched to the subscribers, if there is one. -/
def Definition.decide (dec : Decoder) (qcommit : List MsgHead) (value : HashRoot) :
    Option DecodedValue :=
  match qcommit.head? with
  | none => none
  | some msg =>
    match msg.values.lookup value with
    | none => none
    | some anyValue =>
      match decodeSupportedAny dec anyValue with
      | .error _ => none
      | .ok decoded => some decoded

end Pluto.Consensus
