import Pluto.Dkg.Bcast
import Pluto.Frost.Kryptology

/-!
# The transport of the key generation

The model of `crates/dkg/src/frostp2p`: what a message of a round has to look like (`transport.rs`),
how it is decoded (`codec.rs`), and how a node collects the messages of a round.

In both rounds a node broadcasts a message with one cast per validator, and in round 1 it also sends
every other node a message with one share per validator.  A message that comes in is checked: it has
as many entries as there are validators, each of a different validator, and all with the sender as
their source.  The values are not looked at until they are decoded.  One message per sender is put
into the queue of its kind, and the message of the node itself is put there too.  A round ends when
there is a message of everyone.

Streams, events and what the node sends are left out, apart from whether sending fails.
-/

namespace Pluto.Dkg

open Except (bind_ok_iff pure_ok_iff okOr_ok_iff mapM_ok_mem)
open Crypto Frost

def round1CastId : String := "/charon/dkg/frost/2.0.0/round1/cast"

def round2CastId : String := "/charon/dkg/frost/2.0.0/round2/cast"

structure FrostRound1ShamirShare where
  key : Option MsgKey
  id : UInt32
  value : Bytes
  deriving DecidableEq, Repr

structure FrostRound1P2p where
  /-- One per validator. -/
  shares : List FrostRound1ShamirShare
  deriving DecidableEq, Repr

inductive FrostError
  | configError (text : String)
  | newParticipant (e : KryptologyError)
  | execRound1 (e : KryptologyError)
  | execRound2 (e : KryptologyError)
  | bcast
  | frostP2P
  | tooManyRound1CastsMessages
  | tooManyRound1P2PMessages
  | tooManyRound2CastsMessages
  | missingMsgKey
  | invalidRound1P2PSourceId
  | invalidRound1P2PTargetId
  | invalidRound1P2PValidatorIndex
  | invalidRound1P2PSharesCount
  | duplicateRound1P2PValidatorIndex
  | decodeWiScalar
  | decodeC1Scalar
  | decodeCommitment
  | decodeShamirScalar
  | decodeVerificationKeyScalar
  | decodeVkShare
  | invalidPublicKeyPoint
  | missingRoundState
  | invalidRound (expected current : UInt8)
  | intConversion
  | cancelled
  deriving DecidableEq, Repr

/-! ## Validation -/

/-- What a check of a message says about the first entry that fails it. -/
structure KeyErrors (ε : Type) where
  sender : ε
  count : ℕ → ℕ → ε
  missing : ε
  source : ε
  target : ε
  validator : ε
  duplicate : ε

section Validation

variable {PeerId ε C : Type} [DecidableEq PeerId]

/-- One turn of the loop over the entries of a message, on the validators seen. -/
def validateEntry (errors : KeyErrors ε) (sourceId targetId : UInt32) (numValidators : ℕ)
    (seen : List UInt32) (key : Option MsgKey) : Except ε (List UInt32) :=
  match key with
  | none => .error errors.missing
  | some key =>
    if key.sourceId ≠ sourceId then .error errors.source
    else if key.targetId ≠ targetId then .error errors.target
    else if numValidators ≤ key.valIdx.toNat then .error errors.validator
    else if key.valIdx ∈ seen then .error errors.duplicate
    else .ok (key.valIdx :: seen)

/-- The check of a message from a peer, with what else is checked of each entry. -/
def validateEntries (errors : KeyErrors ε) (shareIdxByPeer : HashMap PeerId UInt32)
    (targetId : UInt32) (numValidators : ℕ) (key : C → Option MsgKey) (check : C → Except ε Unit)
    (peer : PeerId) (entries : List C) : Except ε Unit := do
  let sourceId ← Except.okOr (shareIdxByPeer.lookup peer) errors.sender
  if entries.length ≠ numValidators then .error (errors.count numValidators entries.length)
  else
    let _ ← entries.foldlM (fun seen entry => do
      let seen ← validateEntry errors sourceId targetId numValidators seen (key entry)
      check entry
      return seen) []
    return ()

/-- The errors of the checks of a broadcast. -/
def castErrors (peer : PeerId) : KeyErrors (Bcast.Error PeerId) where
  sender := .invalidPeerIndex peer
  count := .invalidSignatureCount
  missing := .missingField "key"
  source := .invalidPeerIndex peer
  target := .invalidPeerIndex peer
  validator := .invalidPeerIndex peer
  duplicate := .invalidPeerIndex peer

def validateRound1Casts (shareIdxByPeer : HashMap PeerId UInt32) (threshold numValidators : ℕ)
    (peer : PeerId) (msg : FrostRound1Casts) : Except (Bcast.Error PeerId) Unit :=
  validateEntries (castErrors peer) shareIdxByPeer 0 numValidators FrostRound1Cast.key
    (fun cast =>
      if cast.commitments.length ≠ threshold then
        .error (.invalidSignatureCount threshold cast.commitments.length)
      else .ok ())
    peer msg.casts

def validateRound2Casts (shareIdxByPeer : HashMap PeerId UInt32) (numValidators : ℕ)
    (peer : PeerId) (msg : FrostRound2Casts) : Except (Bcast.Error PeerId) Unit :=
  validateEntries (castErrors peer) shareIdxByPeer 0 numValidators FrostRound2Cast.key
    (fun _ => .ok ()) peer msg.casts

def shareErrors : KeyErrors FrostError where
  sender := .invalidRound1P2PSourceId
  count _ _ := .invalidRound1P2PSharesCount
  missing := .missingMsgKey
  source := .invalidRound1P2PSourceId
  target := .invalidRound1P2PTargetId
  validator := .invalidRound1P2PValidatorIndex
  duplicate := .duplicateRound1P2PValidatorIndex

def validateRound1P2p (shareIdxByPeer : HashMap PeerId UInt32) (localShareIdx : UInt32)
    (numValidators : ℕ) (peer : PeerId) (msg : FrostRound1P2p) : Except FrostError Unit :=
  validateEntries shareErrors shareIdxByPeer localShareIdx numValidators FrostRound1ShamirShare.key
    (fun _ => .ok ()) peer msg.shares

lemma validateEntry_ok {errors : KeyErrors ε} {sourceId targetId : UInt32} {numValidators : ℕ}
    {seen seen' : List UInt32} {key : Option MsgKey}
    (h : validateEntry errors sourceId targetId numValidators seen key = .ok seen') :
    ∃ v, key = some ⟨v, sourceId, targetId⟩ ∧ v.toNat < numValidators ∧ v ∉ seen ∧
      seen' = v :: seen := by
  cases key with
  | none => cases h
  | some key =>
    rw [validateEntry] at h
    split_ifs at h with hsource htarget hlt hseen
    refine ⟨key.valIdx, ?_, not_le.mp hlt, hseen, (Except.ok.inj h).symm⟩
    rw [← not_not.mp hsource, ← not_not.mp htarget]

/-- What has been checked when the loop over the entries of a message has ended. -/
lemma validateLoop_ok {errors : KeyErrors ε} {sourceId targetId : UInt32} {numValidators : ℕ}
    {key : C → Option MsgKey} {check : C → Except ε Unit} {entries : List C}
    {seen seen' : List UInt32}
    (h : entries.foldlM (fun seen entry => do
      let seen ← validateEntry errors sourceId targetId numValidators seen (key entry)
      check entry
      return seen) seen = .ok seen') :
    entries.Pairwise (fun entry entry' => key entry ≠ key entry') ∧
      ∀ entry ∈ entries, check entry = .ok () ∧
        ∃ v : UInt32, v.toNat < numValidators ∧ v ∉ seen ∧
          key entry = some ⟨v, sourceId, targetId⟩ := by
  induction entries generalizing seen with
  | nil => exact ⟨List.Pairwise.nil, nofun⟩
  | cons entry entries ih =>
    simp only [List.foldlM_cons, bind_ok_iff, pure_ok_iff] at h
    obtain ⟨_, ⟨_, hentry, _, hcheck, rfl⟩, hrest⟩ := h
    obtain ⟨v, hkey, hlt, hseen, rfl⟩ := validateEntry_ok hentry
    obtain ⟨hpairwise, hentries⟩ := ih hrest
    refine ⟨List.pairwise_cons.mpr ⟨fun entry' hmem heq => ?_, hpairwise⟩,
      List.forall_mem_cons.mpr ⟨⟨hcheck, v, hlt, hseen, hkey⟩, fun entry' hmem => ?_⟩⟩
    · obtain ⟨-, v', -, hnew, hkey'⟩ := hentries entry' hmem
      obtain rfl : v = v' := by simpa using hkey.symm.trans (heq.trans hkey')
      exact hnew List.mem_cons_self
    · obtain ⟨hcheck', v', hlt', hnew, hkey'⟩ := hentries entry' hmem
      exact ⟨hcheck', v', hlt', fun hmem => hnew (List.mem_cons_of_mem _ hmem), hkey'⟩

/-- There is an entry for every validator, and no other one. -/
structure OnePerValidator (key : C → Option MsgKey) (sourceId targetId : UInt32)
    (numValidators : ℕ) (entries : List C) : Prop where
  keyed : ∀ entry ∈ entries, ∃ v : UInt32, v.toNat < numValidators ∧
    key entry = some ⟨v, sourceId, targetId⟩
  complete : ∀ v : UInt32, v.toNat < numValidators → ∃ entry ∈ entries,
    key entry = some ⟨v, sourceId, targetId⟩

/-- There is one entry for every validator. -/
structure OneEach (key : C → Option MsgKey) (sourceId targetId : UInt32) (numValidators : ℕ)
    (entries : List C) : Prop extends OnePerValidator key sourceId targetId numValidators entries where
  unique : ∀ entry ∈ entries, ∀ entry' ∈ entries, key entry = key entry' → entry = entry'

/-- A message has one entry for every validator, with the index of the sender as its source. -/
def Proper (shareIdxByPeer : HashMap PeerId UInt32) (key : C → Option MsgKey) (targetId : UInt32)
    (numValidators : ℕ) (peer : PeerId) (entries : List C) : Prop :=
  ∃ sourceId, shareIdxByPeer.lookup peer = some sourceId ∧
    OneEach key sourceId targetId numValidators entries

lemma validateEntries_ok {errors : KeyErrors ε} {shareIdxByPeer : HashMap PeerId UInt32}
    {targetId : UInt32} {numValidators : ℕ} {key : C → Option MsgKey} {check : C → Except ε Unit}
    {peer : PeerId} {entries : List C}
    (h : validateEntries errors shareIdxByPeer targetId numValidators key check peer entries =
      .ok ()) :
    Proper shareIdxByPeer key targetId numValidators peer entries ∧
      ∀ entry ∈ entries, check entry = .ok () := by
  simp only [validateEntries, bind_ok_iff, okOr_ok_iff] at h
  obtain ⟨sourceId, hsource, h⟩ := h
  split_ifs at h with hlength
  obtain ⟨seen, hloop, -⟩ := bind_ok_iff.mp h
  obtain ⟨hpairwise, hentries⟩ := validateLoop_ok hloop
  have hnodup : (entries.map key).Nodup := List.pairwise_map.mpr hpairwise
  refine ⟨⟨sourceId, hsource, ⟨fun entry hentry => ?_, fun v hv => ?_⟩, ?_⟩,
    fun entry hentry => (hentries entry hentry).1⟩
  · obtain ⟨-, v, hlt, -, hkey⟩ := hentries entry hentry
    exact ⟨v, hlt, hkey⟩
  · -- as many different keys as there are validators, so all of them
    have hsub : entries.map key ⊆ (List.range numValidators).map fun i =>
        some (⟨UInt32.ofNat i, sourceId, targetId⟩ : MsgKey) := by
      intro k hk
      obtain ⟨entry, hentry, rfl⟩ := List.mem_map.mp hk
      obtain ⟨-, v, hlt, -, hkey⟩ := hentries entry hentry
      exact List.mem_map.mpr ⟨v.toNat, List.mem_range.mpr hlt, by rw [UInt32.ofNat_toNat, hkey]⟩
    have hperm := (List.subperm_of_subset hnodup hsub).perm_of_length_le (by
      rw [List.length_map, List.length_map, List.length_range, not_not.mp hlength])
    refine List.mem_map.mp (hperm.mem_iff.mpr (List.mem_map.mpr ⟨v.toNat, List.mem_range.mpr hv, ?_⟩))
    rw [UInt32.ofNat_toNat]
  · exact fun entry hentry entry' hentry' => List.inj_on_of_nodup_map hnodup hentry hentry'

end Validation

/-! ## Decoding -/

section Codec

variable {F G₁ G₂ : Type} [Field F] [AddCommGroup G₁] [Module F G₁] [DecidableEq G₁]
  [AddCommGroup G₂] [Module F G₂] (curve : Curve F G₁ G₂)

def bytesToScalar (context : FrostError) (bytes : Bytes) : Except FrostError Bytes := do
  let _ ← Except.okOr (curve.scalarFromBytes bytes) context
  return bytes

def bytesToG1 (context : FrostError) (bytes : Bytes) : Except FrostError Bytes := do
  let _ ← Except.okOr (fromCompressed curve bytes) context
  return bytes

def keyFromProto (key : Option MsgKey) : Except FrostError MsgKey := Except.okOr key .missingMsgKey

def round1CastToProto (key : MsgKey) (cast : Round1Bcast) : FrostRound1Cast where
  key := some key
  wi := cast.wi
  ci := cast.ci
  commitments := cast.commitments

def round1CastFromProto (cast : FrostRound1Cast) : Except FrostError (MsgKey × Round1Bcast) := do
  let wi ← bytesToScalar curve .decodeWiScalar cast.wi
  let ci ← bytesToScalar curve .decodeC1Scalar cast.ci
  let commitments ← cast.commitments.mapM (bytesToG1 curve .decodeCommitment)
  let key ← keyFromProto cast.key
  return (key, { commitments, wi, ci })

def shamirShareFromProto (share : FrostRound1ShamirShare) :
    Except FrostError (MsgKey × ShamirShare) := do
  let key ← keyFromProto share.key
  let value ← bytesToScalar curve .decodeShamirScalar share.value
  return (key, { id := share.id, value })

def round2CastToProto (key : MsgKey) (cast : Round2Bcast) : FrostRound2Cast where
  key := some key
  verificationKey := cast.verificationKey
  vkShare := cast.vkShare

def round2CastFromProto (cast : FrostRound2Cast) : Except FrostError (MsgKey × Round2Bcast) := do
  let verificationKey ← bytesToG1 curve .decodeVerificationKeyScalar cast.verificationKey
  let vkShare ← bytesToG1 curve .decodeVkShare cast.vkShare
  let key ← keyFromProto cast.key
  return (key, { verificationKey, vkShare })

/-- A map from what the entries of all messages decode to, where a later one replaces an earlier one
with the same key. -/
def collectEntries {C D : Type} (fromProto : C → Except FrostError (MsgKey × D)) (entries : List C) :
    Except FrostError (HashMap MsgKey D) := do
  let decoded ← entries.mapM fromProto
  return HashMap.insertAll ∅ decoded

def makeRound1Response (casts : List FrostRound1Casts) (p2ps : List FrostRound1P2p) :
    Except FrostError (HashMap MsgKey Round1Bcast × HashMap MsgKey ShamirShare) := do
  let castMap ← collectEntries (round1CastFromProto curve) (casts.flatMap (·.casts))
  let p2pMap ← collectEntries (shamirShareFromProto curve) (p2ps.flatMap (·.shares))
  return (castMap, p2pMap)

def makeRound2Response (msgs : List FrostRound2Casts) :
    Except FrostError (HashMap MsgKey Round2Bcast) :=
  collectEntries (round2CastFromProto curve) (msgs.flatMap (·.casts))

variable {curve}

omit [DecidableEq G₁] in
lemma bytesToScalar_ok {context : FrostError} {bytes bytes' : Bytes}
    (h : bytesToScalar curve context bytes = .ok bytes') : bytes' = bytes := by
  simp only [bytesToScalar, bind_ok_iff, pure_ok_iff] at h
  obtain ⟨_, -, rfl⟩ := h
  rfl

lemma bytesToG1_ok {context : FrostError} {bytes bytes' : Bytes}
    (h : bytesToG1 curve context bytes = .ok bytes') :
    bytes' = bytes ∧ ∃ p, fromCompressed curve bytes = some p := by
  simp only [bytesToG1, bind_ok_iff, pure_ok_iff, okOr_ok_iff] at h
  obtain ⟨p, hp, rfl⟩ := h
  exact ⟨rfl, p, hp⟩

/-- Decoding checks the values and keeps them. -/
lemma round1CastFromProto_ok {cast : FrostRound1Cast} {key : MsgKey} {bcast : Round1Bcast}
    (h : round1CastFromProto curve cast = .ok (key, bcast)) :
    cast = round1CastToProto key bcast ∧
      ∀ bytes ∈ bcast.commitments, ∃ p, fromCompressed curve bytes = some p := by
  simp only [round1CastFromProto, keyFromProto, bind_ok_iff, pure_ok_iff,
    okOr_ok_iff, Prod.mk.injEq] at h
  obtain ⟨wi, hwi, ci, hci, commitments, hcommitments, key, hkey, rfl, rfl⟩ := h
  obtain rfl := bytesToScalar_ok hwi
  obtain rfl := bytesToScalar_ok hci
  have heq := Except.map_eq_of_mapM_ok hcommitments id id
    fun bytes _ bytes' hbytes => (bytesToG1_ok hbytes).1
  rw [List.map_id, List.map_id] at heq
  subst heq
  refine ⟨by rw [round1CastToProto, ← hkey], fun bytes hbytes => ?_⟩
  obtain ⟨_, -, hok⟩ := (mapM_ok_mem hcommitments).2 bytes hbytes
  exact (bytesToG1_ok hok).2

lemma round2CastFromProto_ok {cast : FrostRound2Cast} {key : MsgKey} {bcast : Round2Bcast}
    (h : round2CastFromProto curve cast = .ok (key, bcast)) : cast = round2CastToProto key bcast := by
  simp only [round2CastFromProto, keyFromProto, bind_ok_iff, pure_ok_iff,
    okOr_ok_iff, Prod.mk.injEq] at h
  obtain ⟨_, hvk, _, hshare, key, hkey, rfl, rfl⟩ := h
  obtain ⟨rfl, -⟩ := bytesToG1_ok hvk
  obtain ⟨rfl, -⟩ := bytesToG1_ok hshare
  rw [round2CastToProto, ← hkey]

/-- The map has the values of the entries, and a value for the key of each. -/
lemma collectEntries_ok {C D : Type} {fromProto : C → Except FrostError (MsgKey × D)}
    {entries : List C} {m : HashMap MsgKey D} (h : collectEntries fromProto entries = .ok m) :
    (∀ key d, m.lookup key = some d → ∃ entry ∈ entries, fromProto entry = .ok (key, d)) ∧
      ∀ entry ∈ entries, ∃ key d, fromProto entry = .ok (key, d) ∧
        ∃ d', m.lookup key = some d' := by
  simp only [collectEntries, bind_ok_iff, pure_ok_iff] at h
  obtain ⟨decoded, hdecoded, rfl⟩ := h
  obtain ⟨hfrom, hto⟩ := mapM_ok_mem hdecoded
  constructor
  · intro key d hlook
    exact hfrom _ ((HashMap.lookup_insertAll_eq_some hlook).resolve_right (by simp))
  · intro entry hentry
    obtain ⟨⟨key, d⟩, hmem, hdecode⟩ := hto entry hentry
    exact ⟨key, d, hdecode, HashMap.exists_lookup_insertAll (.inl (List.mem_map_of_mem hmem))⟩

end Codec

/-! ## Collecting the messages of a round -/

/-- The peers of a key generation and their share indices, as `dkg.rs` gives them to the transport
and `validate_peer_share_indices` has checked them: one of `1..n` for each of `n` peers. -/
structure PeerShareIndices (PeerId : Type) [DecidableEq PeerId] where
  shareIdxByPeer : HashMap PeerId UInt32
  localPeer : PeerId
  localShareIdx : UInt32
  numNodes : UInt32
  lookup_local : shareIdxByPeer.lookup localPeer = some localShareIdx
  lookup_injective : ∀ peer peer' shareIdx, shareIdxByPeer.lookup peer = some shareIdx →
    shareIdxByPeer.lookup peer' = some shareIdx → peer = peer'
  lookup_range : ∀ peer shareIdx, shareIdxByPeer.lookup peer = some shareIdx →
    1 ≤ shareIdx.toNat ∧ shareIdx.toNat ≤ numNodes.toNat
  size_eq : shareIdxByPeer.size = numNodes.toNat

section Collecting

variable {PeerId M ε : Type} [DecidableEq PeerId]

/-- What is done with a message that comes in: a valid one is queued, once per sender. -/
def acceptMsg (validate : PeerId → M → Except ε Unit) (queue : List (PeerId × M))
    (call : PeerId × M) : List (PeerId × M) :=
  match validate call.1 call.2 with
  | .error _ => queue
  | .ok () => if call.1 ∈ queue.map Prod.fst then queue else queue ++ [call]

def accepted (validate : PeerId → M → Except ε Unit) (calls : List (PeerId × M)) :
    List (PeerId × M) :=
  calls.foldl (acceptMsg validate) []

/-- The queue with the message of the node itself, which may come before any other. -/
def withOwn (queue : List M) (position : ℕ) (own : M) : List M :=
  queue.take position ++ own :: queue.drop position

/-- The loop of round 1.  The schedule says which of the two queues is read next, and the round is
cancelled if nothing comes any more. -/
def collectRound1 {A B : Type} (numPeers : ℕ) :
    List Bool → List A → List B → List A → List B → Except FrostError (List A × List B)
  | [], _, _, castMsgs, p2pMsgs =>
    if castMsgs.length = numPeers ∧ p2pMsgs.length = numPeers - 1 then .ok (castMsgs, p2pMsgs)
    else .error .cancelled
  | readsCast :: schedule, casts, p2ps, castMsgs, p2pMsgs =>
    if castMsgs.length = numPeers ∧ p2pMsgs.length = numPeers - 1 then .ok (castMsgs, p2pMsgs)
    else
      match readsCast with
      | true =>
        match casts with
        | [] => .error .cancelled
        | msg :: casts =>
          if numPeers < castMsgs.length + 1 then .error .tooManyRound1CastsMessages
          else collectRound1 numPeers schedule casts p2ps (castMsgs ++ [msg]) p2pMsgs
      | false =>
        match p2ps with
        | [] => .error .cancelled
        | msg :: p2ps =>
          if numPeers - 1 < p2pMsgs.length + 1 then .error .tooManyRound1P2PMessages
          else collectRound1 numPeers schedule casts p2ps castMsgs (p2pMsgs ++ [msg])

/-- The loop of round 2. -/
def collectRound2 {A : Type} (numPeers : ℕ) : List A → List A → Except FrostError (List A)
  | [], castMsgs =>
    if castMsgs.length = numPeers then .ok castMsgs else .error .cancelled
  | msg :: casts, castMsgs =>
    if castMsgs.length = numPeers then .ok castMsgs
    else if numPeers < castMsgs.length + 1 then .error .tooManyRound2CastsMessages
    else collectRound2 numPeers casts (castMsgs ++ [msg])

lemma collectRound1_ok {A B : Type} {numPeers : ℕ} {schedule : List Bool} {casts castMsgs : List A}
    {p2ps p2pMsgs : List B} {result : List A × List B}
    (h : collectRound1 numPeers schedule casts p2ps castMsgs p2pMsgs = .ok result) :
    (result.1.length = numPeers ∧ ∃ rest, castMsgs ++ casts = result.1 ++ rest) ∧
      result.2.length = numPeers - 1 ∧ ∃ rest, p2pMsgs ++ p2ps = result.2 ++ rest := by
  induction schedule generalizing casts p2ps castMsgs p2pMsgs with
  | nil =>
    rw [collectRound1] at h
    split_ifs at h with hdone
    obtain rfl := Except.ok.inj h
    exact ⟨⟨hdone.1, casts, rfl⟩, hdone.2, p2ps, rfl⟩
  | cons readsCast schedule ih =>
    unfold collectRound1 at h
    by_cases hdone : castMsgs.length = numPeers ∧ p2pMsgs.length = numPeers - 1
    · rw [if_pos hdone] at h
      obtain rfl := Except.ok.inj h
      exact ⟨⟨hdone.1, casts, rfl⟩, hdone.2, p2ps, rfl⟩
    · rw [if_neg hdone] at h
      cases readsCast with
      | true =>
        cases casts with
        | nil => cases h
        | cons msg casts =>
          dsimp only at h
          split_ifs at h
          simpa using ih h
      | false =>
        cases p2ps with
        | nil => cases h
        | cons msg p2ps =>
          dsimp only at h
          split_ifs at h
          simpa using ih h

lemma collectRound2_ok {A : Type} {numPeers : ℕ} {casts castMsgs result : List A}
    (h : collectRound2 numPeers casts castMsgs = .ok result) :
    result.length = numPeers ∧ ∃ rest, castMsgs ++ casts = result ++ rest := by
  induction casts generalizing castMsgs with
  | nil =>
    rw [collectRound2] at h
    split_ifs at h with hdone
    obtain rfl := Except.ok.inj h
    exact ⟨hdone, [], rfl⟩
  | cons msg casts ih =>
    rw [collectRound2] at h
    split_ifs at h with hdone
    · obtain rfl := Except.ok.inj h
      exact ⟨hdone, msg :: casts, rfl⟩
    · simpa using ih h

lemma accepted_ok (validate : PeerId → M → Except ε Unit) (calls : List (PeerId × M)) :
    ((accepted validate calls).map Prod.fst).Nodup ∧
      ∀ call ∈ accepted validate calls, call ∈ calls ∧ validate call.1 call.2 = .ok () := by
  refine List.foldlRecOn calls (acceptMsg validate)
    (motive := fun queue => (queue.map Prod.fst).Nodup ∧
      ∀ call ∈ queue, call ∈ calls ∧ validate call.1 call.2 = .ok ())
    (b := []) ⟨List.nodup_nil, nofun⟩ ?_
  intro queue hqueue call hcall
  rw [acceptMsg]
  split
  · exact hqueue
  · rename_i hvalid
    split_ifs with hseen
    · exact hqueue
    · refine ⟨?_, fun call' hcall' => ?_⟩
      · rw [List.map_append, List.map_singleton, List.nodup_append_comm, List.singleton_append,
          List.nodup_cons]
        exact ⟨hseen, hqueue.1⟩
      · rcases List.mem_append.mp hcall' with hold | hnew
        · exact hqueue.2 call' hold
        · rw [List.mem_singleton.mp hnew]
          exact ⟨hcall, hvalid⟩

/-- `1..=num_nodes` -/
def nodeIds (numNodes : UInt32) : List UInt32 :=
  (List.range numNodes.toNat).map fun i => UInt32.ofNat (i + 1)

@[simp] lemma length_nodeIds (numNodes : UInt32) :
    (nodeIds numNodes).length = numNodes.toNat := by
  simp [nodeIds]

lemma mem_nodeIds {numNodes id : UInt32} :
    id ∈ nodeIds numNodes ↔ 1 ≤ id.toNat ∧ id.toNat ≤ numNodes.toNat := by
  simp only [nodeIds, List.mem_map, List.mem_range]
  constructor
  · rintro ⟨i, hi, rfl⟩
    have hlt := numNodes.toNat_lt
    rw [UInt32.toNat_ofNat_of_lt' (by simp [UInt32.size]; omega)]
    omega
  · rintro ⟨hpos, hle⟩
    exact ⟨id.toNat - 1, by omega, by rw [Nat.sub_add_cancel hpos, UInt32.ofNat_toNat]⟩

lemma nodup_nodeIds (numNodes : UInt32) : (nodeIds numNodes).Nodup := by
  refine List.nodup_range.map_on fun i hi j hj heq => ?_
  have hlt := numNodes.toNat_lt
  rw [List.mem_range] at hi hj
  have hnat := congrArg UInt32.toNat heq
  rw [UInt32.toNat_ofNat_of_lt' (by simp [UInt32.size]; omega),
    UInt32.toNat_ofNat_of_lt' (by simp [UInt32.size]; omega)] at hnat
  omega

variable {C D : Type} {shareIdxByPeer : HashMap PeerId UInt32} {targetId : UInt32}
  {numValidators : ℕ} {entries : M → List C} {key : C → Option MsgKey}
  {fromProto : C → Except FrostError (MsgKey × D)} {result : HashMap MsgKey D}

/-- No two peers have the same share index. -/
def IndexedOnce (shareIdxByPeer : HashMap PeerId UInt32) : Prop :=
  ∀ peer peer' shareIdx, shareIdxByPeer.lookup peer = some shareIdx →
    shareIdxByPeer.lookup peer' = some shareIdx → peer = peer'

omit [DecidableEq PeerId] in
/-- If as many messages of different peers have been read as there are peers, all of them are. -/
lemma all_heard {peers : List PeerId} {senders : List (PeerId × M)}
    (hnodup : (senders.map Prod.fst).Nodup) (hsub : senders.map Prod.fst ⊆ peers) {msgs rest : List M}
    (hmsgs : (msgs ++ rest).Perm (senders.map Prod.snd)) (hlength : msgs.length = peers.length) :
    msgs.Perm (senders.map Prod.snd) ∧ peers ⊆ senders.map Prod.fst := by
  have hsubperm := List.subperm_of_subset hnodup hsub
  have hle := hsubperm.length_le
  have hcount := hmsgs.length_eq
  simp only [List.length_append, List.length_map] at hle hcount
  obtain rfl : rest = [] := List.eq_nil_of_length_eq_zero (by omega)
  rw [List.append_nil] at hmsgs
  have hperm := hsubperm.perm_of_length_le (by simp only [List.length_map]; omega)
  exact ⟨hmsgs, fun peer hpeer => hperm.mem_iff.mpr hpeer⟩

/-- What is made of the messages of a round: one entry for every validator and every peer that is to
be heard, and those of a peer are the entries of one message that it has sent. -/
structure Coverage (shareIdxByPeer : HashMap PeerId UInt32) (heard : PeerId → Prop)
    (targetId : UInt32) (numValidators : ℕ) (entries : M → List C)
    (fromProto : C → Except FrostError (MsgKey × D)) (senders : List (PeerId × M))
    (result : HashMap MsgKey D) : Prop where
  mem_iff : ∀ key, (∃ d, result.lookup key = some d) ↔ key.valIdx.toNat < numValidators ∧
    (∃ peer, heard peer ∧ shareIdxByPeer.lookup peer = some key.sourceId) ∧ key.targetId = targetId
  one_message : ∀ peer sourceId, heard peer → shareIdxByPeer.lookup peer = some sourceId →
    ∃ msg, (peer, msg) ∈ senders ∧ ∀ v d, result.lookup ⟨v, sourceId, targetId⟩ = some d ↔
      ∃ entry ∈ entries msg, fromProto entry = .ok (⟨v, sourceId, targetId⟩, d)

lemma coverage {heard : PeerId → Prop} {senders : List (PeerId × M)}
    (hinj : IndexedOnce shareIdxByPeer)
    (hkey : ∀ entry k d, fromProto entry = .ok (k, d) → key entry = some k)
    (hnodup : (senders.map Prod.fst).Nodup)
    (hvalid : ∀ call ∈ senders, heard call.1 ∧
      Proper shareIdxByPeer key targetId numValidators call.1 (entries call.2))
    (hall : ∀ peer sourceId, heard peer → shareIdxByPeer.lookup peer = some sourceId →
      peer ∈ senders.map Prod.fst)
    {msgs : List M} (hmsgs : msgs.Perm (senders.map Prod.snd))
    (hresult : collectEntries fromProto (msgs.flatMap entries) = .ok result) :
    Coverage shareIdxByPeer heard targetId numValidators entries fromProto senders result := by
  obtain ⟨hfrom, hto⟩ := collectEntries_ok hresult
  have hmem : ∀ entry, entry ∈ msgs.flatMap entries ↔ ∃ call ∈ senders, entry ∈ entries call.2 := by
    intro entry
    simp only [List.mem_flatMap, hmsgs.mem_iff, List.mem_map, exists_exists_and_eq_and]
  -- the key of an entry says who has sent it
  have hsource : ∀ call ∈ senders, ∀ entry ∈ entries call.2, ∀ k d, fromProto entry = .ok (k, d) →
      k.valIdx.toNat < numValidators ∧ shareIdxByPeer.lookup call.1 = some k.sourceId ∧
        k.targetId = targetId := by
    intro call hcall entry hentry k d hdecode
    obtain ⟨-, sourceId, hlook, hone⟩ := hvalid call hcall
    obtain ⟨v, hv, hk⟩ := hone.keyed entry hentry
    obtain rfl := Option.some.inj ((hkey _ _ _ hdecode).symm.trans hk)
    exact ⟨hv, hlook, rfl⟩
  have hlookup : ∀ call ∈ senders, ∀ k d, shareIdxByPeer.lookup call.1 = some k.sourceId →
      (result.lookup k = some d ↔ ∃ entry ∈ entries call.2, fromProto entry = .ok (k, d)) := by
    intro call hcall k d hlook
    have hof : ∀ d', result.lookup k = some d' →
        ∃ entry ∈ entries call.2, fromProto entry = .ok (k, d') := by
      intro d' hk
      obtain ⟨entry, hentry, hdecode⟩ := hfrom k d' hk
      obtain ⟨call', hcall', hentry⟩ := (hmem entry).mp hentry
      have hpeer := hinj _ _ _ (hsource call' hcall' entry hentry k d' hdecode).2.1 hlook
      obtain rfl := List.inj_on_of_nodup_map hnodup hcall' hcall hpeer
      exact ⟨entry, hentry, hdecode⟩
    refine ⟨hof d, fun ⟨entry, hentry, hdecode⟩ => ?_⟩
    obtain ⟨k', d', hdecode', d'', hk⟩ := hto entry ((hmem entry).mpr ⟨call, hcall, hentry⟩)
    cases hdecode.symm.trans hdecode'
    -- the entry that is found under the key is this one
    obtain ⟨entry', hentry', hdecode'⟩ := hof d'' hk
    obtain ⟨-, sourceId, -, hone⟩ := hvalid call hcall
    obtain rfl := hone.unique entry hentry entry' hentry'
      ((hkey _ _ _ hdecode).trans (hkey _ _ _ hdecode').symm)
    cases hdecode.symm.trans hdecode'
    exact hk
  refine ⟨fun k => ⟨fun ⟨d, hk⟩ => ?_, fun ⟨hv, ⟨peer, hheard, hlook⟩, htarget⟩ => ?_⟩,
    fun peer sourceId hheard hlook => ?_⟩
  · obtain ⟨entry, hentry, hdecode⟩ := hfrom k d hk
    obtain ⟨call, hcall, hentry⟩ := (hmem entry).mp hentry
    obtain ⟨hv, hlook, htarget⟩ := hsource call hcall entry hentry k d hdecode
    exact ⟨hv, ⟨call.1, (hvalid call hcall).1, hlook⟩, htarget⟩
  · obtain ⟨call, hcall, rfl⟩ := List.mem_map.mp (hall peer _ hheard hlook)
    obtain ⟨-, sourceId, hlook', hone⟩ := hvalid call hcall
    obtain rfl := Option.some.inj (hlook.symm.trans hlook')
    obtain ⟨entry, hentry, hk⟩ := hone.complete k.valIdx hv
    obtain ⟨k', d, hdecode, hfound⟩ := hto entry ((hmem entry).mpr ⟨call, hcall, hentry⟩)
    obtain rfl := Option.some.inj ((hkey _ _ _ hdecode).symm.trans hk)
    rwa [← htarget] at hfound
  · obtain ⟨⟨_, msg⟩, hcall, rfl⟩ := List.mem_map.mp (hall peer _ hheard hlook)
    exact ⟨msg, hcall, fun v d => hlookup _ hcall ⟨v, sourceId, targetId⟩ d hlook⟩

/-- The end of a round of broadcasts: with a message of every peer, the own one and those of the
others. -/
lemma broadcastCoverage {self : PeerId} {localShareIdx : UInt32}
    {validate : PeerId → M → Except ε Unit} {calls : List (PeerId × M)} {own : M}
    (hinj : IndexedOnce shareIdxByPeer)
    (hself : shareIdxByPeer.lookup self = some localShareIdx)
    (hremote : ∀ call ∈ calls, call.1 ≠ self)
    (hkey : ∀ entry k d, fromProto entry = .ok (k, d) → key entry = some k)
    (hvalid : ∀ peer msg, validate peer msg = .ok () →
      Proper shareIdxByPeer key targetId numValidators peer (entries msg))
    (hown : OneEach key localShareIdx targetId numValidators (entries own))
    {position : ℕ} {msgs rest : List M}
    (hmsgs : withOwn ((accepted validate calls).map Prod.snd) position own = msgs ++ rest)
    (hlength : msgs.length = shareIdxByPeer.size)
    (hresult : collectEntries fromProto (msgs.flatMap entries) = .ok result) :
    Coverage shareIdxByPeer (fun _ => True) targetId numValidators entries fromProto
      ((self, own) :: accepted validate calls) result := by
  obtain ⟨hnodup, hcalls⟩ := accepted_ok validate calls
  have hsenders : ∀ call ∈ (self, own) :: accepted validate calls,
      Proper shareIdxByPeer key targetId numValidators call.1 (entries call.2) :=
    List.forall_mem_cons.mpr
      ⟨⟨_, hself, hown⟩, fun call hcall => hvalid _ _ (hcalls call hcall).2⟩
  have hfst : (((self, own) :: accepted validate calls).map Prod.fst).Nodup := by
    refine List.nodup_cons.mpr ⟨fun hmem => ?_, hnodup⟩
    obtain ⟨call, hcall, heq⟩ := List.mem_map.mp hmem
    exact hremote call (hcalls call hcall).1 heq
  have hsub : ((self, own) :: accepted validate calls).map Prod.fst ⊆
      HashMap.keysIn (IterOrder.stored _) shareIdxByPeer := by
    intro peer hpeer
    obtain ⟨call, hcall, rfl⟩ := List.mem_map.mp hpeer
    exact HashMap.mem_keysIn.mpr ((hsenders call hcall).imp fun _ => And.left)
  have hperm : (msgs ++ rest).Perm (((self, own) :: accepted validate calls).map Prod.snd) := by
    rw [← hmsgs, withOwn]
    exact List.perm_middle.trans (by rw [List.take_append_drop, List.map_cons])
  obtain ⟨hperm, hall⟩ := all_heard hfst hsub hperm (by rw [hlength, HashMap.length_keysIn])
  exact coverage hinj hkey hfst (fun call hcall => ⟨trivial, hsenders call hcall⟩)
    (fun peer sourceId _ hlook => hall (HashMap.mem_keysIn.mpr ⟨sourceId, hlook⟩)) hperm hresult

/-- The indices of `n` peers are all of `1..n`. -/
lemma PeerShareIndices.exists_peer (peers : PeerShareIndices PeerId) {id : UInt32}
    (hid : id ∈ nodeIds peers.numNodes) : ∃ peer, peers.shareIdxByPeer.lookup peer = some id := by
  have hvalues := HashMap.valuesIn_eq_map (o := IterOrder.stored _) (m := peers.shareIdxByPeer)
    (f := fun peer => (peers.shareIdxByPeer.lookup peer).getD 0) fun peer _ h => by
      simp only [h, Option.getD_some]
  have hnodup : (HashMap.valuesIn (IterOrder.stored _) peers.shareIdxByPeer).Nodup := by
    rw [hvalues]
    refine (HashMap.nodup_keysIn _ _).map_on fun peer hpeer peer' hpeer' heq => ?_
    obtain ⟨shareIdx, h⟩ := HashMap.mem_keysIn.mp hpeer
    obtain ⟨shareIdx', h'⟩ := HashMap.mem_keysIn.mp hpeer'
    simp only [h, h', Option.getD_some] at heq
    exact peers.lookup_injective _ _ _ h (heq ▸ h')
  have hperm := (List.subperm_of_subset hnodup fun shareIdx hmem => by
    obtain ⟨peer, h⟩ := HashMap.mem_valuesIn.mp hmem
    exact mem_nodeIds.mpr (peers.lookup_range peer shareIdx h)).perm_of_length_le
      (by simp [peers.size_eq])
  exact HashMap.mem_valuesIn.mp (hperm.mem_iff.mpr hid)

/-- The broadcasts that come in during a round. -/
structure Inbox (peers : PeerShareIndices PeerId) (M : Type) where
  /-- The calls of the callback, in their order. -/
  calls : List (PeerId × M)
  /-- How many messages are queued before the own one. -/
  position : ℕ
  /-- What the node's own sending returns. -/
  sent : Except FrostError Unit
  remote : ∀ call ∈ calls, call.1 ≠ peers.localPeer

/-- The queue of a round. -/
def Inbox.queue {peers : PeerShareIndices PeerId} (inbox : Inbox peers M)
    (validate : PeerId → M → Except ε Unit) (own : M) : List M :=
  withOwn ((accepted validate inbox.calls).map Prod.snd) inbox.position own

/-- What a round returns: a cast of every node for every validator, the own ones from the message of
the node itself, and the other ones those of the messages that were accepted. -/
structure RoundResult {C D : Type} (peers : PeerShareIndices PeerId) (numValidators : ℕ)
    (casts : M → List C) (fromProto : C → Except FrostError (MsgKey × D))
    (validate : PeerId → M → Except ε Unit) (inbox : Inbox peers M) (own : M)
    (result : HashMap MsgKey D) : Prop where
  keyed : ∀ key d, result.lookup key = some d →
    key.valIdx.toNat < numValidators ∧ key.sourceId ∈ nodeIds peers.numNodes ∧ key.targetId = 0
  complete : ∀ v id : UInt32, v.toNat < numValidators → id ∈ nodeIds peers.numNodes →
    ∃ d, result.lookup ⟨v, id, 0⟩ = some d
  own : ∀ key d, result.lookup key = some d → key.sourceId = peers.localShareIdx →
    ∃ cast ∈ casts own, fromProto cast = .ok (key, d)
  remote : ∀ key d, result.lookup key = some d → key.sourceId ≠ peers.localShareIdx →
    ∃ call ∈ accepted validate inbox.calls, ∃ cast ∈ casts call.2, fromProto cast = .ok (key, d)
  kept : ∀ call ∈ accepted validate inbox.calls, ∀ cast ∈ casts call.2, ∃ key d,
    fromProto cast = .ok (key, d) ∧ result.lookup key = some d

lemma roundResult {peers : PeerShareIndices PeerId} {validate : PeerId → M → Except ε Unit}
    {inbox : Inbox peers M} {own : M}
    (hkey : ∀ cast k d, fromProto cast = .ok (k, d) → key cast = some k)
    (hvalid : ∀ peer msg, validate peer msg = .ok () →
      Proper peers.shareIdxByPeer key 0 numValidators peer (entries msg))
    (hown : OneEach key peers.localShareIdx 0 numValidators (entries own))
    {msgs rest : List M} (hmsgs : inbox.queue validate own = msgs ++ rest)
    (hlength : msgs.length = peers.shareIdxByPeer.size)
    (hresult : collectEntries fromProto (msgs.flatMap entries) = .ok result) :
    RoundResult peers numValidators entries fromProto validate inbox own result := by
  have hcoverage := broadcastCoverage peers.lookup_injective peers.lookup_local inbox.remote hkey
    hvalid hown hmsgs hlength hresult
  obtain ⟨hnodup, hcalls⟩ := accepted_ok validate inbox.calls
  have horigin : ∀ k d, result.lookup k = some d → ∃ peer msg,
      peers.shareIdxByPeer.lookup peer = some k.sourceId ∧
        (peer, msg) ∈ (peers.localPeer, own) :: accepted validate inbox.calls ∧
        ∃ cast ∈ entries msg, fromProto cast = .ok (k, d) := by
    intro k d hk
    obtain ⟨-, ⟨peer, -, hlook⟩, htarget⟩ := (hcoverage.mem_iff k).mp ⟨d, hk⟩
    obtain ⟨msg, hmsg, hentries⟩ := hcoverage.one_message peer _ trivial hlook
    rw [← htarget] at hentries
    exact ⟨peer, msg, hlook, hmsg, (hentries k.valIdx d).mp hk⟩
  refine ⟨fun k d hk => ?_, fun v id hv hid => ?_, fun k d hk hlocal => ?_, fun k d hk hlocal => ?_,
    fun call hcall cast hcast => ?_⟩
  · obtain ⟨hv, ⟨peer, -, hlook⟩, htarget⟩ := (hcoverage.mem_iff k).mp ⟨d, hk⟩
    exact ⟨hv, mem_nodeIds.mpr (peers.lookup_range _ _ hlook), htarget⟩
  · obtain ⟨peer, hlook⟩ := peers.exists_peer hid
    exact (hcoverage.mem_iff ⟨v, id, 0⟩).mpr ⟨hv, ⟨peer, trivial, hlook⟩, rfl⟩
  · obtain ⟨peer, msg, hlook, hmsg, hcast⟩ := horigin k d hk
    rcases List.mem_cons.mp hmsg with heq | hcall
    · cases heq
      exact hcast
    · rw [hlocal] at hlook
      exact absurd (peers.lookup_injective _ _ _ hlook peers.lookup_local)
        (inbox.remote _ (hcalls _ hcall).1)
  · obtain ⟨peer, msg, hlook, hmsg, hcast⟩ := horigin k d hk
    rcases List.mem_cons.mp hmsg with heq | hcall
    · cases heq
      exact absurd (Option.some.inj (hlook.symm.trans peers.lookup_local)) hlocal
    · exact ⟨_, hcall, hcast⟩
  · obtain ⟨sourceId, hlook, hone⟩ := hvalid _ _ (hcalls call hcall).2
    obtain ⟨v, hv, hk⟩ := hone.keyed cast hcast
    obtain ⟨d, hd⟩ := (hcoverage.mem_iff ⟨v, sourceId, 0⟩).mpr ⟨hv, ⟨call.1, trivial, hlook⟩, rfl⟩
    -- the message that the entries of this peer come from is the accepted one
    obtain ⟨msg, hmsg, hentries⟩ := hcoverage.one_message call.1 sourceId trivial hlook
    have hsame : (call.1, msg) = call := by
      rcases List.mem_cons.mp hmsg with heq | hmem
      · exact absurd (congrArg Prod.fst heq) (inbox.remote call (hcalls call hcall).1)
      · exact List.inj_on_of_nodup_map hnodup hmem hcall rfl
    obtain ⟨cast', hcast', hdecode⟩ := (hentries v d).mp hd
    rw [show msg = call.2 from congrArg Prod.snd hsame] at hcast'
    obtain rfl := hone.unique cast' hcast' cast hcast ((hkey _ _ _ hdecode).trans hk.symm)
    exact ⟨_, d, hdecode, hd⟩

end Collecting

/-! ## The transport -/

/-- The transport of a key generation, from what the node has to say in a round to what it gets. -/
structure FTransport where
  round1 : HashMap MsgKey Round1Bcast → HashMap MsgKey ShamirShare →
    Except FrostError (HashMap MsgKey Round1Bcast × HashMap MsgKey ShamirShare)
  round2 : HashMap MsgKey Round2Bcast → Except FrostError (HashMap MsgKey Round2Bcast)

/-- A message with an entry for each of a map, in iteration order. -/
def buildEntries {C D : Type} (toProto : MsgKey → D → C) (order : IterOrder (Sigma fun _ : MsgKey => D))
    (m : HashMap MsgKey D) : List C :=
  (order.order m.entries).map fun entry => toProto entry.1 entry.2

def buildRound1Casts (order : IterOrder (Sigma fun _ : MsgKey => Round1Bcast))
    (castR1 : HashMap MsgKey Round1Bcast) : FrostRound1Casts where
  casts := buildEntries round1CastToProto order castR1

def buildRound2Casts (order : IterOrder (Sigma fun _ : MsgKey => Round2Bcast))
    (castR2 : HashMap MsgKey Round2Bcast) : FrostRound2Casts where
  casts := buildEntries round2CastToProto order castR2

/-- A node's transport, with everything that comes in. -/
structure FrostP2P (PeerId : Type) [DecidableEq PeerId] where
  peers : PeerShareIndices PeerId
  threshold : UInt32
  numValidators : UInt32
  round1Inbox : Inbox peers FrostRound1Casts
  p2pCalls : List (PeerId × FrostRound1P2p)
  schedule : List Bool
  round2Inbox : Inbox peers FrostRound2Casts
  round1Order : IterOrder (Sigma fun _ : MsgKey => Round1Bcast)
  round2Order : IterOrder (Sigma fun _ : MsgKey => Round2Bcast)

namespace FrostP2P

variable {PeerId : Type} [DecidableEq PeerId] {F G₁ G₂ : Type} [Field F] [AddCommGroup G₁]
  [Module F G₁] [DecidableEq G₁] [AddCommGroup G₂] [Module F G₂] (tp : FrostP2P PeerId)

def validateRound1 (peer : PeerId) (msg : FrostRound1Casts) : Except (Bcast.Error PeerId) Unit :=
  validateRound1Casts tp.peers.shareIdxByPeer tp.threshold.toNat tp.numValidators.toNat peer msg

def validateRound2 (peer : PeerId) (msg : FrostRound2Casts) : Except (Bcast.Error PeerId) Unit :=
  validateRound2Casts tp.peers.shareIdxByPeer tp.numValidators.toNat peer msg

def round1 (curve : Curve F G₁ G₂) (bcast : HashMap MsgKey Round1Bcast) :
    Except FrostError (HashMap MsgKey Round1Bcast × HashMap MsgKey ShamirShare) := do
  tp.round1Inbox.sent
  let casts := tp.round1Inbox.queue tp.validateRound1 (buildRound1Casts tp.round1Order bcast)
  let p2ps := (accepted (validateRound1P2p tp.peers.shareIdxByPeer tp.peers.localShareIdx
    tp.numValidators.toNat) tp.p2pCalls).map Prod.snd
  let (castMsgs, p2pMsgs) ←
    collectRound1 tp.peers.shareIdxByPeer.size tp.schedule casts p2ps [] []
  makeRound1Response curve castMsgs p2pMsgs

def round2 (curve : Curve F G₁ G₂) (bcast : HashMap MsgKey Round2Bcast) :
    Except FrostError (HashMap MsgKey Round2Bcast) := do
  tp.round2Inbox.sent
  let casts := tp.round2Inbox.queue tp.validateRound2 (buildRound2Casts tp.round2Order bcast)
  let castMsgs ← collectRound2 tp.peers.shareIdxByPeer.size casts []
  makeRound2Response curve castMsgs

def transport (curve : Curve F G₁ G₂) : FTransport where
  round1 bcast _ := tp.round1 curve bcast
  round2 bcast := tp.round2 curve bcast

end FrostP2P

/-- What a node has to say in a round: a cast for every validator. -/
structure OwnCasts {D : Type} (numValidators : ℕ) (sourceId : UInt32) (m : HashMap MsgKey D) :
    Prop where
  keyed : ∀ key d, m.lookup key = some d →
    ∃ v : UInt32, v.toNat < numValidators ∧ key = ⟨v, sourceId, 0⟩
  complete : ∀ v : UInt32, v.toNat < numValidators → ∃ d, m.lookup ⟨v, sourceId, 0⟩ = some d

lemma mem_buildEntries {C D : Type} {toProto : MsgKey → D → C}
    {order : IterOrder (Sigma fun _ : MsgKey => D)} {m : HashMap MsgKey D} {entry : C} :
    entry ∈ buildEntries toProto order m ↔ ∃ key d, m.lookup key = some d ∧ toProto key d = entry := by
  rw [buildEntries, List.mem_map]
  constructor
  · rintro ⟨⟨key, d⟩, hmem, rfl⟩
    exact ⟨key, d, HashMap.mem_order_iff.mp hmem, rfl⟩
  · rintro ⟨key, d, hlook, rfl⟩
    exact ⟨⟨key, d⟩, HashMap.mem_order_iff.mpr hlook, rfl⟩

lemma OwnCasts.oneEach {C D : Type} {numValidators : ℕ} {sourceId : UInt32}
    {m : HashMap MsgKey D} (h : OwnCasts numValidators sourceId m) (toProto : MsgKey → D → C)
    (key : C → Option MsgKey) (hkey : ∀ k d, key (toProto k d) = some k)
    (order : IterOrder (Sigma fun _ : MsgKey => D)) :
    OneEach key sourceId 0 numValidators (buildEntries toProto order m) where
  keyed entry hentry := by
    obtain ⟨k, d, hlook, rfl⟩ := mem_buildEntries.mp hentry
    obtain ⟨v, hv, rfl⟩ := h.keyed k d hlook
    exact ⟨v, hv, hkey _ _⟩
  complete v hv := by
    obtain ⟨d, hlook⟩ := h.complete v hv
    exact ⟨_, mem_buildEntries.mpr ⟨_, d, hlook, rfl⟩, hkey _ _⟩
  unique entry hentry entry' hentry' heq := by
    obtain ⟨k, d, hlook, rfl⟩ := mem_buildEntries.mp hentry
    obtain ⟨k', d', hlook', rfl⟩ := mem_buildEntries.mp hentry'
    rw [hkey, hkey] at heq
    obtain rfl := Option.some.inj heq
    rw [Option.some.inj (hlook.symm.trans hlook')]

namespace FrostP2P

variable {PeerId : Type} [DecidableEq PeerId] {F G₁ G₂ : Type} [Field F] [AddCommGroup G₁]
  [Module F G₁] [DecidableEq G₁] [AddCommGroup G₂] [Module F G₂] {tp : FrostP2P PeerId}
  {curve : Curve F G₁ G₂}

lemma round1_ok {bcast castR1 : HashMap MsgKey Round1Bcast} {p2pR1 : HashMap MsgKey ShamirShare}
    (hown : OwnCasts tp.numValidators.toNat tp.peers.localShareIdx bcast)
    (h : tp.round1 curve bcast = .ok (castR1, p2pR1)) :
    RoundResult tp.peers tp.numValidators.toNat FrostRound1Casts.casts (round1CastFromProto curve)
      tp.validateRound1 tp.round1Inbox (buildRound1Casts tp.round1Order bcast) castR1 := by
  simp only [round1, makeRound1Response, bind_ok_iff, pure_ok_iff,
    Prod.mk.injEq] at h
  obtain ⟨_, -, ⟨castMsgs, p2pMsgs⟩, hcollect, _, hresult, _, -, rfl, -⟩ := h
  obtain ⟨⟨hlength, rest, hmsgs⟩, -⟩ := collectRound1_ok hcollect
  have hkey : ∀ cast key d, round1CastFromProto curve cast = .ok (key, d) →
      cast.key = some key := fun cast key d hdecode => by
    rw [(round1CastFromProto_ok hdecode).1, round1CastToProto]
  exact roundResult hkey (fun peer msg hvalid => (validateEntries_ok hvalid).1)
    (hown.oneEach round1CastToProto FrostRound1Cast.key (fun _ _ => rfl) _) hmsgs hlength hresult

/-- The own casts that come back are those that were sent, and their commitments are points. -/
lemma round1_own {bcast castR1 : HashMap MsgKey Round1Bcast} (h : RoundResult tp.peers
      tp.numValidators.toNat FrostRound1Casts.casts (round1CastFromProto curve) tp.validateRound1
      tp.round1Inbox (buildRound1Casts tp.round1Order bcast) castR1)
    {key : MsgKey} {cast : Round1Bcast} (hlook : castR1.lookup key = some cast)
    (hlocal : key.sourceId = tp.peers.localShareIdx) :
    bcast.lookup key = some cast ∧
      ∀ bytes ∈ cast.commitments, ∃ p, fromCompressed curve bytes = some p := by
  obtain ⟨proto, hproto, hdecode⟩ := h.own key cast hlook hlocal
  obtain ⟨key', cast', hown, rfl⟩ := mem_buildEntries.mp hproto
  obtain ⟨heq, hpoints⟩ := round1CastFromProto_ok hdecode
  cases cast
  cases cast'
  simp only [round1CastToProto, FrostRound1Cast.mk.injEq, Option.some.injEq] at heq
  obtain ⟨rfl, rfl, rfl, rfl⟩ := heq
  exact ⟨hown, hpoints⟩

lemma round2_ok {bcast castR2 : HashMap MsgKey Round2Bcast}
    (hown : OwnCasts tp.numValidators.toNat tp.peers.localShareIdx bcast)
    (h : tp.round2 curve bcast = .ok castR2) :
    RoundResult tp.peers tp.numValidators.toNat FrostRound2Casts.casts (round2CastFromProto curve)
      tp.validateRound2 tp.round2Inbox (buildRound2Casts tp.round2Order bcast) castR2 := by
  simp only [round2, makeRound2Response, bind_ok_iff] at h
  obtain ⟨_, -, castMsgs, hcollect, hresult⟩ := h
  obtain ⟨hlength, rest, hmsgs⟩ := collectRound2_ok hcollect
  have hkey : ∀ cast key d, round2CastFromProto curve cast = .ok (key, d) →
      cast.key = some key := fun cast key d hdecode => by
    rw [round2CastFromProto_ok hdecode, round2CastToProto]
  exact roundResult hkey (fun peer msg hvalid => (validateEntries_ok hvalid).1)
    (hown.oneEach round2CastToProto FrostRound2Cast.key (fun _ _ => rfl) _) hmsgs hlength hresult

lemma round2_own {bcast castR2 : HashMap MsgKey Round2Bcast} (h : RoundResult tp.peers
      tp.numValidators.toNat FrostRound2Casts.casts (round2CastFromProto curve) tp.validateRound2
      tp.round2Inbox (buildRound2Casts tp.round2Order bcast) castR2)
    {key : MsgKey} {cast : Round2Bcast} (hlook : castR2.lookup key = some cast)
    (hlocal : key.sourceId = tp.peers.localShareIdx) : bcast.lookup key = some cast := by
  obtain ⟨proto, hproto, hdecode⟩ := h.own key cast hlook hlocal
  obtain ⟨key', cast', hown, rfl⟩ := mem_buildEntries.mp hproto
  have heq := round2CastFromProto_ok hdecode
  cases cast
  cases cast'
  simp only [round2CastToProto, FrostRound2Cast.mk.injEq, Option.some.injEq] at heq
  obtain ⟨rfl, rfl, rfl⟩ := heq
  exact hown

end FrostP2P

end Pluto.Dkg
