import Pluto.Consensus.Component

/-!
# The transport of one instance

The value store of `crates/consensus/src/qbft/transport.rs` and the message it makes of a broadcast
request.  Values get into the store by two ways: `set_values` caches the map of an inbound message,
and `get_value` drains the channel of the local proposal, at most one value a call, before it looks
a hash up.

`Available` says that a lookup will succeed: the hash is in the map, or it is the hash of the value
waiting in the channel.  No operation of the store takes availability away.
-/

namespace Pluto.Consensus

open Corepb Ssz

/-- Errors returned by the transport. -/
inductive TransportError
  | unknownValue
  | invalidJustification
  | invalidDuty (source : Core.DutyTypeError)
  | receiveBufferClosed
  | broadcast (message : String)
  | msg (source : MsgError)
  deriving DecidableEq, Repr

/-! ## The value store -/

/-- The channel of the local value, which has capacity one, and the map. -/
structure ValueStore where
  valueRx : Option Any
  values : ValueMap

/-- Caches values carried by a consensus message. -/
def ValueStore.setValues (store : ValueStore) (msg : MsgHead) : ValueStore :=
  { store with values := msg.values ∪ store.values }

/-- The lookup at the end of `get_value`. -/
def ValueStore.lookup (store : ValueStore) (hash : HashRoot) : Except TransportError Any :=
  match store.values.lookup hash with
  | none => .error .unknownValue
  | some value => .ok value

/-- Returns a cached value by hash, after draining at most one local value. -/
def ValueStore.getValue (sha256 : Bytes → HashRoot) (store : ValueStore) (hash : HashRoot) :
    ValueStore × Except TransportError Any :=
  match store.valueRx with
  | none => (store, store.lookup hash)
  | some value =>
    match hashProtoBytes sha256 value.value with
    | .error e => ({ store with valueRx := none }, .error (.msg e))
    | .ok localHash =>
      let store : ValueStore := ⟨none, store.values.insert localHash value⟩
      (store, store.lookup hash)

/-! ## Broadcasting -/

/-- The hashes `broadcast` resolves, in order. -/
def broadcastHashes (request : Qbft.BroadcastRequest HashRoot) (justification : List MsgHead) :
    List HashRoot :=
  request.value :: request.preparedValue ::
    justification.flatMap fun msg => [msg.valueHash, msg.preparedValueHash]

/-- Creates a signed wrapper. -/
def createMsg {SK PK : Type} (k : Crypto SK PK) (duty : Core.Duty) (privkey : SK)
    (request : Qbft.BroadcastRequest HashRoot) (justification : List MsgHead) (values : ValueMap) :
    Except TransportError Msg := do
  let pbDuty ← duty.toProto.mapError .invalidDuty
  let pbMsg : QbftMsg := {
    type := Int64.ofInt request.type.toWire
    duty := some pbDuty
    peerIdx := Int64.ofInt request.source
    round := Int64.ofInt request.round
    preparedRound := Int64.ofInt request.preparedRound
    signature := []
    valueHash := request.value.bytes
    preparedValueHash := request.preparedValue.bytes }
  let pbMsg ← (signMsg k pbMsg privkey).mapError .msg
  (Msg.new pbMsg (justification.map MsgHead.msg) values).mapError .msg

/-! ## Availability -/

section Available

variable (sha256 : Bytes → HashRoot) (dec : Decoder)

/-- The envelope of a proposal. -/
def DecodedValue.toAny : DecodedValue → Any
  | .unsignedDataSet inner => Any.fromMsg UnsignedDataSet.named inner
  | .priorityResult inner => Any.fromMsg PriorityResult.named inner

/-- The envelope and the hash of a proposal, as `propose` computes them. -/
def Proposal (value : Any) (hash : HashRoot) : Prop :=
  ∃ decoded : DecodedValue, value = decoded.toAny ∧ decoded.hash sha256 = .ok hash

/-- A lookup of the hash will succeed; the null hash is never looked up. -/
def Available (store : ValueStore) (hash : HashRoot) : Prop :=
  hash = .zero ∨ (store.values.lookup hash).isSome ∨
    ∃ value, store.valueRx = some value ∧ Proposal sha256 value hash

/-- The invariant of a store: every entry stands under its own hash, and the channel holds nothing
but a proposal. -/
structure ValueStore.Ok (store : ValueStore) : Prop where
  bound : Bound sha256 dec store.values
  proposal : ∀ value, store.valueRx = some value → ∃ hash, Proposal sha256 value hash

variable {sha256 dec} {store : ValueStore} {hash : HashRoot}

lemma decodeSupportedAny_toAny (dec : Decoder) (decoded : DecodedValue) :
    decodeSupportedAny dec decoded.toAny = .ok decoded := by
  cases decoded with
  | unsignedDataSet inner =>
    simp [decodeSupportedAny, DecodedValue.toAny, Any.fromMsg, dec.unsignedDataSet_encode]
  | priorityResult inner =>
    simp [decodeSupportedAny, DecodedValue.toAny, Any.fromMsg, dec.priorityResult_encode,
      typeUrl_ne]

/-- The inner message of a proposal has its hash. -/
lemma Proposal.binds {value : Any} (h : Proposal sha256 value hash) :
    Binds sha256 dec hash value := by
  obtain ⟨decoded, rfl, hhash⟩ := h
  exact ⟨decoded, decodeSupportedAny_toAny dec decoded, hhash⟩

/-- The transport recomputes the hash of the proposal from the bytes in its envelope. -/
lemma Proposal.hashProtoBytes {value : Any} (h : Proposal sha256 value hash) :
    hashProtoBytes sha256 value.value = .ok hash := by
  obtain ⟨decoded, rfl, hhash⟩ := h
  cases decoded with
  | unsignedDataSet inner => exact hashProto_ok hhash
  | priorityResult inner => exact hashProto_ok hhash

lemma lookup_union_isSome {a b : ValueMap} (h : (b.lookup hash).isSome) :
    ((a ∪ b).lookup hash).isSome := by
  rw [AList.lookup_isSome] at h ⊢
  exact AList.mem_union.mpr (.inr h)

lemma lookup_insert_isSome {values : ValueMap} (hash' : HashRoot) (value : Any)
    (h : (values.lookup hash).isSome) : ((values.insert hash' value).lookup hash).isSome := by
  rw [AList.lookup_isSome] at h ⊢
  exact (AList.mem_insert _).mpr (.inr h)

/-! ### `set_values` -/

lemma ValueStore.Ok.setValues (hs : store.Ok sha256 dec) {msg : MsgHead}
    (hmsg : Bound sha256 dec msg.values) : (store.setValues msg).Ok sha256 dec where
  bound := by
    intro hash value hlookup
    by_cases hmem : hash ∈ msg.values
    · rw [ValueStore.setValues, AList.lookup_union_left hmem] at hlookup
      exact hmsg hash value hlookup
    · rw [ValueStore.setValues, AList.lookup_union_right hmem] at hlookup
      exact hs.bound hash value hlookup
  proposal := hs.proposal

lemma Available.setValues (h : Available sha256 store hash) (msg : MsgHead) :
    Available sha256 (store.setValues msg) hash := by
  rcases h with hzero | hfound | hlocal
  · exact .inl hzero
  · exact .inr (.inl (lookup_union_isSome hfound))
  · exact .inr (.inr hlocal)

/-- What the map of a message resolves is available once the map is cached. -/
lemma Available.of_resolves {msg : MsgHead} (h : Resolves msg.values hash) :
    Available sha256 (store.setValues msg) hash := by
  rcases h with hzero | hfound
  · exact .inl hzero
  · refine .inr (.inl ?_)
    rw [AList.lookup_isSome] at hfound
    rw [ValueStore.setValues, AList.lookup_isSome]
    exact AList.mem_union.mpr (.inl hfound)

/-! ### `get_value` -/

/-- The store after a lookup: the local value, if there is one, has moved into the map. -/
lemma ValueStore.Ok.getValue_cases (hs : store.Ok sha256 dec) (hash : HashRoot) :
    (store.valueRx = none ∧ store.getValue sha256 hash = (store, store.lookup hash)) ∨
      ∃ value localHash, store.valueRx = some value ∧ Proposal sha256 value localHash ∧
        store.getValue sha256 hash = (⟨none, store.values.insert localHash value⟩,
          ValueStore.lookup ⟨none, store.values.insert localHash value⟩ hash) := by
  unfold ValueStore.getValue
  cases hrx : store.valueRx with
  | none => exact .inl ⟨rfl, rfl⟩
  | some value =>
    obtain ⟨localHash, hproposal⟩ := hs.proposal value hrx
    refine .inr ⟨value, localHash, rfl, hproposal, ?_⟩
    simp only [hproposal.hashProtoBytes]

lemma ValueStore.Ok.getValue (hs : store.Ok sha256 dec) (hash : HashRoot) :
    (store.getValue sha256 hash).1.Ok sha256 dec := by
  rcases hs.getValue_cases hash with ⟨-, heq⟩ | ⟨value, localHash, -, hproposal, heq⟩
  · rw [heq]
    exact hs
  · rw [heq]
    exact ⟨hs.bound.insert hproposal.binds, nofun⟩

lemma ValueStore.Ok.available_getValue (hs : store.Ok sha256 dec) (hash : HashRoot)
    {hash' : HashRoot} (h : Available sha256 store hash') :
    Available sha256 (store.getValue sha256 hash).1 hash' := by
  rcases hs.getValue_cases hash with ⟨-, heq⟩ | ⟨value, localHash, hrx, hproposal, heq⟩
  · rw [heq]
    exact h
  · rw [heq]
    rcases h with hzero | hfound | ⟨value', hrx', hproposal'⟩
    · exact .inl hzero
    · exact .inr (.inl (lookup_insert_isSome localHash value hfound))
    · obtain rfl : value = value' := Option.some.inj (hrx.symm.trans hrx')
      obtain rfl : localHash = hash' :=
        Except.ok.inj (hproposal.hashProtoBytes.symm.trans hproposal'.hashProtoBytes)
      exact .inr (.inl (by simp))

lemma ValueStore.lookup_ok (hfound : (store.values.lookup hash).isSome) :
    ∃ value, store.values.lookup hash = some value ∧ store.lookup hash = .ok value := by
  obtain ⟨value, hvalue⟩ := Option.isSome_iff_exists.mp hfound
  exact ⟨value, hvalue, by simp [ValueStore.lookup, hvalue]⟩

/-- **An available hash resolves**, to a value whose inner message has that hash. -/
theorem ValueStore.Ok.getValue_ok (hs : store.Ok sha256 dec) (h : Available sha256 store hash)
    (hne : hash ≠ .zero) :
    ∃ value, (store.getValue sha256 hash).2 = .ok value ∧ Binds sha256 dec hash value := by
  have hfound : ((store.getValue sha256 hash).1.values.lookup hash).isSome := by
    rcases hs.available_getValue hash h with hzero | hfound | ⟨value, hrx, -⟩
    · exact absurd hzero hne
    · exact hfound
    · rcases hs.getValue_cases hash with ⟨hnone, heq⟩ | ⟨_, _, -, -, heq⟩
      · rw [heq, hnone] at hrx
        cases hrx
      · rw [heq] at hrx
        cases hrx
  obtain ⟨value, hvalue, hok⟩ := ValueStore.lookup_ok hfound
  refine ⟨value, ?_, (hs.getValue hash).bound hash value hvalue⟩
  rcases hs.getValue_cases hash with ⟨-, heq⟩ | ⟨_, _, -, -, heq⟩
  · rw [heq] at hok ⊢
    exact hok
  · rw [heq] at hok ⊢
    exact hok

end Available

/-! ## The messages of an instance -/

/-- The wrappers of a message: its own and those of its justification. -/
def Msg.heads (m : Msg) : List MsgHead := m.toMsgHead :: m.justification

/-- Both hashes of a wrapper satisfy `P`. -/
def MsgHead.Hashes (P : HashRoot → Prop) (h : MsgHead) : Prop :=
  P h.valueHash ∧ P h.preparedValueHash

/-- All hashes of a message, those of its justification included, satisfy `P`. -/
def Msg.Hashes (P : HashRoot → Prop) (m : Msg) : Prop := ∀ head ∈ m.heads, head.Hashes P

lemma Msg.Hashes.mono {P Q : HashRoot → Prop} {m : Msg} (h : ∀ hash, P hash → Q hash)
    (hm : m.Hashes P) : m.Hashes Q :=
  fun head hhead => ⟨h _ (hm head hhead).1, h _ (hm head hhead).2⟩

/-- What holds of every message of an instance, admitted or its own: the wrappers share one map,
which has a value for every hash in the message, under its own hash. -/
structure Msg.Ok (sha256 : Bytes → HashRoot) (dec : Decoder) (m : Msg) : Prop where
  bound : Bound sha256 dec m.values
  shared : ∀ head ∈ m.heads, head.values = m.values
  resolves : m.Hashes (Resolves m.values)

lemma Msg.ok_of_new {sha256 : Bytes → HashRoot} {dec : Decoder} {msg : QbftMsg}
    {justification : List QbftMsg} {values : ValueMap} {m : Msg}
    (h : Msg.new msg justification values = .ok m) (hbound : Bound sha256 dec values) :
    m.values = values ∧ m.Ok sha256 dec := by
  obtain ⟨rfl, hrefers⟩ := Msg.new_eq_ok.mp h
  obtain ⟨hmsg, hjust⟩ := List.forall_mem_cons.mp hrefers
  refine ⟨rfl, hbound, ?_, ?_⟩
  · refine List.forall_mem_cons.mpr ⟨rfl, fun head hhead => ?_⟩
    obtain ⟨q, -, rfl⟩ := List.mem_map.mp hhead
    rfl
  · refine List.forall_mem_cons.mpr ⟨hmsg, fun head hhead => ?_⟩
    obtain ⟨q, hq, rfl⟩ := List.mem_map.mp hhead
    exact hjust q hq

lemma createMsg_ok {SK PK : Type} {k : Crypto SK PK} {dec : Decoder} {duty : Core.Duty}
    {privkey : SK}
    {request : Qbft.BroadcastRequest HashRoot} {justification : List MsgHead} {values : ValueMap}
    {m : Msg} (h : createMsg k duty privkey request justification values = .ok m)
    (hbound : Bound k.sha256 dec values) : m.values = values ∧ m.Ok k.sha256 dec := by
  obtain ⟨pbDuty, -, h⟩ := Except.bind_ok_iff.mp h
  obtain ⟨pbMsg, -, h⟩ := Except.bind_ok_iff.mp h
  exact Msg.ok_of_new (Except.mapError_ok_iff.mp h) hbound

lemma createMsg_ne_unknownValue {SK PK : Type} {k : Crypto SK PK} {duty : Core.Duty} {privkey : SK}
    {request : Qbft.BroadcastRequest HashRoot} {justification : List MsgHead} {values : ValueMap} :
    createMsg k duty privkey request justification values ≠ .error .unknownValue := by
  intro h
  rcases Except.bind_error_iff.mp h with h | ⟨pbDuty, -, h⟩
  · obtain ⟨e, -, he⟩ := Except.mapError_error_iff.mp h
    cases he
  rcases Except.bind_error_iff.mp h with h | ⟨pbMsg, -, h⟩
  · obtain ⟨e, -, he⟩ := Except.mapError_error_iff.mp h
    cases he
  · obtain ⟨e, -, he⟩ := Except.mapError_error_iff.mp h
    cases he

end Pluto.Consensus
