import Pluto.Cluster.Definition

/-!
# Peers of a cluster

The peers of a cluster are the nodes of its operators.  A node is known by its public key, which is
one of the entries of the operator's node record.  `peers` rejects two operators with the same text of
a record; whether this makes the peers distinct depends on the keys in the records
(`peers_distinct_iff`).
-/

namespace Pluto.Cluster

/-! ## Model -/

/-- `Peer` of `p2p/src/peer.rs`, without its name and addresses. -/
structure Peer (PeerId : Type) where
  id : PeerId
  index : UInt64
  deriving DecidableEq, Repr

/-- The share index of a peer, which starts at one. -/
def Peer.shareIdx {PeerId : Type} (peer : Peer PeerId) : UInt64 := peer.index + 1

structure NodeIdx where
  peerIdx : UInt64
  shareIdx : UInt64
  deriving DecidableEq, Repr

/-- What peers need of other crates: node records, and the peer ids of `libp2p`.  A peer id of a
secp256k1 key holds the key itself. -/
structure PeerPrimitives (SK PK PeerId : Type) where
  enr : Enr.Primitives SK PK
  peerIdFromKey : PK → Option PeerId
  peerIdFromKey_inj : ∀ {key key' : PK} {id : PeerId},
    peerIdFromKey key = some id → peerIdFromKey key' = some id → key = key'

section Peers

variable {SK PK PeerId : Type} (lib : PeerPrimitives SK PK PeerId)

def Peer.fromEnr (record : Enr.Record PK) (index : UInt64) : Except PeerError (Peer PeerId) := do
  let key ← Except.okOr record.publicKey .missingPublicKeyInEnr
  let id ← Except.okOr (lib.peerIdFromKey key) .failedToParsePublicKey
  return ⟨id, index⟩

/-- The loop of `peers` from the operator `i` on; `dedup` has the ENRs before it. -/
def peersFrom (dedup : List String) (i : ℕ) :
    List Operator → Except DefinitionError (List (Peer PeerId))
  | [] => .ok []
  | operator :: rest => do
    if operator.enr ∈ dedup then throw (.duplicatePeerENRs operator.enr)
    let record ← (Enr.tryFrom lib.enr operator.enr).mapError .failedToParseENR
    let peer ← (Peer.fromEnr lib record (.ofNat i)).mapError .failedToCreatePeer
    let peers ← peersFrom (operator.enr :: dedup) (i + 1) rest
    return peer :: peers

namespace Definition

/-- Returns the peers in the cluster. -/
def peers (d : Definition) : Except DefinitionError (List (Peer PeerId)) :=
  peersFrom lib [] 0 d.operators

/-- Returns the node index for a given peer id. -/
def nodeIdx [DecidableEq PeerId] (d : Definition) (pid : PeerId) :
    Except DefinitionError NodeIdx := do
  let peers ← d.peers lib
  match peers.findIdx? (·.id = pid) with
  | some i => return ⟨.ofNat i, (peers.map Peer.shareIdx).getD i 0⟩
  | none => throw .peerNotFound

end Definition

/-! ## Peers and keys -/

variable {lib}

/-- The public key in the record of an operator. -/
def operatorKey (lib : PeerPrimitives SK PK PeerId) (operator : Operator) : Option PK :=
  (Enr.tryFrom lib.enr operator.enr).toOption.bind Enr.Record.publicKey

lemma Peer.fromEnr_ok {record : Enr.Record PK} {index : UInt64} {peer : Peer PeerId}
    (h : Peer.fromEnr lib record index = .ok peer) :
    peer.index = index ∧
      ∃ key, record.publicKey = some key ∧ lib.peerIdFromKey key = some peer.id := by
  obtain ⟨key, hkey, hrest⟩ := Except.bind_ok_iff.mp h
  obtain ⟨id, hid, hpeer⟩ := Except.bind_ok_iff.mp hrest
  obtain rfl := Except.pure_ok_iff.mp hpeer
  exact ⟨rfl, key, Except.okOr_ok_iff.mp hkey, Except.okOr_ok_iff.mp hid⟩

/-- One round of the loop. -/
lemma peersFrom_cons_ok {dedup : List String} {i : ℕ} {operator : Operator} {rest : List Operator}
    {peers : List (Peer PeerId)} (h : peersFrom lib dedup i (operator :: rest) = .ok peers) :
    ∃ peer tail, peers = peer :: tail ∧ peer.index = .ofNat i ∧
      (∃ key, operatorKey lib operator = some key ∧ lib.peerIdFromKey key = some peer.id) ∧
      peersFrom lib (operator.enr :: dedup) (i + 1) rest = .ok tail := by
  rw [peersFrom] at h
  split_ifs at h with hdup
  · cases h
  obtain ⟨-, -, h⟩ := Except.bind_ok_iff.mp h
  obtain ⟨record, hrecord, h⟩ := Except.bind_ok_iff.mp h
  obtain ⟨peer, hpeer, h⟩ := Except.bind_ok_iff.mp h
  obtain ⟨tail, htail, h⟩ := Except.bind_ok_iff.mp h
  obtain rfl := Except.pure_ok_iff.mp h
  rw [Except.mapError_ok_iff] at hrecord hpeer
  obtain ⟨hindex, key, hkey, hid⟩ := Peer.fromEnr_ok hpeer
  refine ⟨peer, tail, rfl, hindex, ⟨key, ?_, hid⟩, htail⟩
  rw [operatorKey, hrecord]
  exact hkey

/-- The peers have the ids of the operators' keys, and are numbered. -/
lemma peersFrom_ok {dedup : List String} {i : ℕ} {operators : List Operator}
    {peers : List (Peer PeerId)} (h : peersFrom lib dedup i operators = .ok peers) :
    (operators.map (operatorKey lib)).map (·.bind lib.peerIdFromKey) =
      (peers.map Peer.id).map some ∧
    peers.map Peer.index = (List.range' i operators.length).map UInt64.ofNat := by
  induction operators generalizing dedup i peers with
  | nil =>
    obtain rfl := Except.ok.inj h
    exact ⟨rfl, rfl⟩
  | cons operator rest ih =>
    obtain ⟨peer, tail, rfl, hindex, ⟨key, hkey, hid⟩, htail⟩ := peersFrom_cons_ok h
    obtain ⟨hids, hindexes⟩ := ih htail
    constructor
    · rw [List.map_cons, List.map_cons, List.map_cons, List.map_cons, hids, hkey,
        Option.bind_some, hid]
    · rw [List.map_cons, List.length_cons, List.range'_succ, List.map_cons, hindex, hindexes]

/-- The ids are distinct exactly if the keys are. -/
lemma nodup_ids_iff {keys : List (Option PK)} {ids : List PeerId}
    (h : keys.map (·.bind lib.peerIdFromKey) = ids.map some) : ids.Nodup ↔ keys.Nodup := by
  rw [← List.nodup_map_iff (Option.some_injective PeerId), ← h]
  refine ⟨List.Nodup.of_map _, fun hnodup => hnodup.map_on ?_⟩
  intro key hkey key' _ heq
  have hmem : key.bind lib.peerIdFromKey ∈ ids.map some := h ▸ List.mem_map_of_mem hkey
  obtain ⟨id, -, hid⟩ := List.mem_map.mp hmem
  obtain ⟨k, rfl, hk⟩ := Option.bind_eq_some_iff.mp hid.symm
  obtain ⟨k', rfl, hk'⟩ := Option.bind_eq_some_iff.mp (heq ▸ hid.symm)
  rw [lib.peerIdFromKey_inj hk hk']

/-- A peer is found under its id if no peer before it has the id. -/
lemma nodeIdx_of_nodup [DecidableEq PeerId] {d : Definition} {peers : List (Peer PeerId)}
    (h : d.peers lib = .ok peers) (hnodup : (peers.map Peer.id).Nodup) {i : ℕ}
    (hi : i < peers.length) : d.nodeIdx lib peers[i].id = .ok ⟨.ofNat i, .ofNat i + 1⟩ := by
  have hfind : peers.findIdx? (fun peer => decide (peer.id = peers[i].id)) = some i := by
    rw [List.findIdx?_eq_some_iff_getElem]
    refine ⟨hi, decide_eq_true rfl, fun j hj => ?_⟩
    have hne := List.pairwise_iff_getElem.mp hnodup j i (by simpa using hj.trans hi)
      (by simpa using hi) hj
    simpa using hne
  have hindex : peers[i].index = .ofNat i := by
    have hindexes := (peersFrom_ok h).2
    have hlen := congrArg List.length hindexes
    have hat := congrArg (fun l => l[i]?) hindexes
    simp only [List.length_map, List.length_range'] at hlen
    simpa [hi, hlen ▸ hi] using hat
  have hshare : (peers.map Peer.shareIdx).getD i 0 = .ofNat i + 1 := by
    rw [List.getD_eq_getElem _ _ (by simpa using hi), List.getElem_map, Peer.shareIdx, hindex]
  rw [Definition.nodeIdx, h, Except.ok_bind, hfind, ← hshare]
  rfl

/-- **The peers of a cluster are distinct, and every node finds its own share index, exactly if no
two operators have the same key in their records.** -/
theorem peers_distinct_iff [DecidableEq PeerId] {d : Definition} {peers : List (Peer PeerId)}
    (h : d.peers lib = .ok peers) :
    ((peers.map Peer.id).Nodup ∧ ∀ (i : ℕ) (hi : i < peers.length),
        d.nodeIdx lib peers[i].id = .ok ⟨.ofNat i, .ofNat i + 1⟩) ↔
      (d.operators.map (operatorKey lib)).Nodup := by
  rw [← nodup_ids_iff (peersFrom_ok h).1]
  exact ⟨fun hboth => hboth.1, fun hnodup => ⟨hnodup, fun i hi => nodeIdx_of_nodup h hnodup hi⟩⟩

end Peers

/-! ### Two records

The records are those of the tests of `enr.rs` and of `cluster-definition-000.json`. -/

def firstEnr : String :=
  "enr:-Iu4QJyserRukhG0Vgi2csu7GjpHYUGufNEbZ8Q7ZBrcZUb0KqpL5QzHonkh1xxHlxatTxrIcX_IS5J3SEWR_sa0ptGA" ++
  "gmlkgnY0gmlwhH8AAAGJc2VjcDI1NmsxoQMAUgEqczOjevyculnUIofhCj0DkgJudErM7qCYIvIkzIN0Y3CCDhqDdWRwgg4u"

def secondEnr : String :=
  "enr:-Iu4QCdreXm-iHrd2Y-QgLAHeGAkQSrZNvfPL-l6IuGEuKoMHnZsg93EgIWWOtcBzKs_-skexEKvY3CmcJ8SOzMIGMiA" ++
  "gmlkgnY0gmlwhH8AAAGJc2VjcDI1NmsxoQL4r6dX8heIruf3OW_hfcctLtsaX8roj8E-8s0-IpH9rYN0Y3CCDhqDdWRwgg4u"

def ofHex (digits : String) : Bytes := (Hex.decode digits.toList).getD []

def firstKey : Bytes := ofHex "030052012a7333a37afc9cba59d42287e10a3d0392026e744acceea09822f224cc"

def secondKey : Bytes := ofHex "02f8afa757f21788aee7f7396fe17dc72d2edb1a5fcae88fc13ef2cd3e2291fdad"

/-- The keys of the two records, each with the signature of its record. -/
def shownSignatures : List (Bytes × Bytes) :=
  [(firstKey, ofHex ("9cac7ab46e9211b45608b672cbbb1a3a476141ae7cd11b67c43b641adc6546f4" ++
      "2aaa4be50cc7a27921d71c479716ad4f1ac8717fc84b9277484591fec6b4a6d1")),
    (secondKey, ofHex ("276b7979be887addd98f9080b007786024412ad936f7cf2fe97a22e184b8aa0c" ++
      "1e766c83ddc48085963ad701ccab3ffac91ec442af6370a6709f123b330818c8"))]

/-- A curve that accepts the two signatures and no other; keys and peer ids are their bytes. -/
def shownPrimitives : PeerPrimitives Unit Bytes Bytes where
  enr :=
    { k1 :=
        { publicKey := fun _ => []
          toSec1Bytes := id
          fromSec1Bytes := some
          signPrehash := fun _ _ => none
          verifyPrehashed := fun key _ signature => some (decide ((key, signature) ∈ shownSignatures))
          recoverFromPrehash := fun _ _ _ => none }
      keccak256 := fun _ => List.replicate 32 0
      fromUtf8Lossy := fun b => String.ofList (b.map fun c => Char.ofNat c.toNat) }
  peerIdFromKey := some
  peerIdFromKey_inj h h' := Option.some.inj (h.trans h'.symm)

/-- A definition of operators with the given records. -/
def recordDefinition (enrs : List String) : Definition :=
  { uuid := "", name := "", version := "v1.10.0", timestamp := "", numValidators := 0,
    threshold := 0, dkgAlgorithm := "", forkVersion := [],
    operators := enrs.map fun enr => ⟨"", enr, [], []⟩, creator := default,
    validatorAddresses := [], depositAmounts := [], consensusProtocol := "", targetGasLimit := 0,
    compounding := false, configHash := [], definitionHash := [] }

lemma peers_of_toOption {enrs : List String} {peers : List (Peer Bytes)}
    (h : ((recordDefinition enrs).peers shownPrimitives).toOption = some peers) :
    (recordDefinition enrs).peers shownPrimitives = .ok peers := by
  obtain ⟨peers', hpeers⟩ := Except.exists_ok_of_isSome (Option.isSome_of_eq_some h)
  rw [hpeers] at h ⊢
  exact congrArg Except.ok (Option.some.inj h)

/-- One record with and without padding: two peers with one id, and the second one is told the share
index of the first. -/
theorem padded_record_is_second_peer :
    ∃ peers, (recordDefinition [firstEnr, firstEnr ++ "="]).peers shownPrimitives = .ok peers ∧
      peers.map Peer.id = [firstKey, firstKey] ∧ ¬ (peers.map Peer.id).Nodup ∧
      (recordDefinition [firstEnr, firstEnr ++ "="]).nodeIdx shownPrimitives firstKey =
        .ok ⟨0, 1⟩ := by
  have hpeers : (recordDefinition [firstEnr, firstEnr ++ "="]).peers shownPrimitives =
      .ok [⟨firstKey, 0⟩, ⟨firstKey, 1⟩] := peers_of_toOption (by decide +kernel)
  refine ⟨_, hpeers, rfl, by simp, ?_⟩
  rw [Definition.nodeIdx, hpeers]
  simp [Except.ok_bind, List.findIdx?_cons, Peer.shareIdx]
  rfl

/-- Two records with different keys: each node finds its own share index. -/
theorem peers_distinct_iff_two :
    (recordDefinition [firstEnr, secondEnr]).peers shownPrimitives =
      .ok [⟨firstKey, 0⟩, ⟨secondKey, 1⟩] ∧
    (recordDefinition [firstEnr, secondEnr]).nodeIdx shownPrimitives secondKey = .ok ⟨1, 2⟩ := by
  have hpeers : (recordDefinition [firstEnr, secondEnr]).peers shownPrimitives =
      .ok [⟨firstKey, 0⟩, ⟨secondKey, 1⟩] := peers_of_toOption (by decide +kernel)
  have hkeys : ((recordDefinition [firstEnr, secondEnr]).operators.map
      (operatorKey shownPrimitives)).Nodup := by
    refine (nodup_ids_iff (peersFrom_ok hpeers).1).mp ?_
    decide +kernel
  exact ⟨hpeers, ((peers_distinct_iff hpeers).mpr hkeys).2 1 (by decide)⟩

end Pluto.Cluster
