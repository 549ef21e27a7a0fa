import Pluto.Dkg.PublicShares

/-!
# What round 1 brings in

`new_frost_p2p` accepts a peer map whose share indices are different, not zero, and with the own one
among them; they need not be `1..n`.  `round1_coverage` is about every such map, and about whatever
the other peers send and whenever it arrives: if `round1` succeeds, it has a cast of every node for
every validator and a share of every other node, and all that it has of a node is from one message of
the peer with that share index.

The node sends what `run_frost_parallel` gives to it, and its peer is the one with the own index, as
`node.rs` takes it from the same definition.
-/

namespace Pluto.Dkg

open Crypto
open scoped Numerals
open Frost (Round1Bcast ShamirShare Randomness)

section Peers

variable {PeerId : Type} [DecidableEq PeerId]

/-- `peers_by_share_idx`; the map from peers to share indices that is made with it is a copy. -/
def validatePeerShareIndices (order : IterOrder (Sigma fun _ : PeerId => UInt32))
    (peers : HashMap PeerId UInt32) (localShareIdx : UInt32) :
    Except FrostError (HashMap UInt32 PeerId) := do
  let peersByShareIdx ← (order.order peers.entries).foldlM (fun peersByShareIdx entry =>
    if entry.2 = 0 then .error (.configError "frost peer share index cannot be zero")
    else if (peersByShareIdx.lookup entry.2).isSome then
      .error (.configError "duplicate frost peer share index")
    else .ok (peersByShareIdx.insert entry.2 entry.1)) (∅ : HashMap UInt32 PeerId)
  if (peersByShareIdx.lookup localShareIdx).isNone then
    .error (.configError "local frost share index missing from peer map")
  else .ok peersByShareIdx

/-- An accepted map has no share index twice. -/
lemma validatePeerShareIndices_ok {order : IterOrder (Sigma fun _ : PeerId => UInt32)}
    {peers : HashMap PeerId UInt32} {localShareIdx : UInt32}
    {peersByShareIdx : HashMap UInt32 PeerId}
    (h : validatePeerShareIndices order peers localShareIdx = .ok peersByShareIdx) :
    IndexedOnce peers := by
  intro peer peer' shareIdx hpeer hpeer'
  obtain ⟨byShareIdx, hloop, -⟩ := Except.bind_ok_iff.mp h
  -- the entries that have been visited are found under their index
  have hfound : ∀ entry ∈ order.order peers.entries,
      entry ∈ ([] : List (Sigma fun _ : PeerId => UInt32)) ∨
        byShareIdx.lookup entry.2 = some entry.1 := by
    refine Except.foldlM_invariant (I := fun rest (m : HashMap UInt32 PeerId) =>
      ∀ entry ∈ order.order peers.entries, entry ∈ rest ∨ m.lookup entry.2 = some entry.1)
      (fun new rest m m' hpast hstep entry hentry => ?_) (fun _ => .inl) hloop
    split_ifs at hstep with hzero hsome
    obtain rfl := Except.ok.inj hstep
    rcases hpast entry hentry with hmem | hlook
    · rcases List.mem_cons.mp hmem with rfl | hrest
      · exact .inr (AList.lookup_insert _)
      · exact .inl hrest
    · refine .inr ((AList.lookup_insert_ne fun heq => ?_).trans hlook)
      rw [← heq, hlook] at hsome
      exact hsome rfl
  have hown := (hfound _ (HashMap.mem_order_iff.mpr hpeer)).resolve_left List.not_mem_nil
  have hown' := (hfound _ (HashMap.mem_order_iff.mpr hpeer')).resolve_left List.not_mem_nil
  exact Option.some.inj (hown.symm.trans hown')

lemma Coverage.mono {M C D : Type} {shareIdxByPeer : HashMap PeerId UInt32} {heard : PeerId → Prop}
    {targetId : UInt32} {numValidators : ℕ} {entries : M → List C}
    {fromProto : C → Except FrostError (MsgKey × D)} {senders senders' : List (PeerId × M)}
    {result : HashMap MsgKey D} (hsub : senders ⊆ senders')
    (h : Coverage shareIdxByPeer heard targetId numValidators entries fromProto senders result) :
    Coverage shareIdxByPeer heard targetId numValidators entries fromProto senders' result where
  mem_iff := h.mem_iff
  one_message peer sourceId hheard hlook :=
    (h.one_message peer sourceId hheard hlook).imp fun _ => And.imp_left fun hmem => hsub hmem

/-- What comes in for round 1, and how it is read. -/
structure Arrivals (PeerId : Type) where
  castCalls : List (PeerId × FrostRound1Casts)
  position : ℕ
  p2pCalls : List (PeerId × FrostRound1P2p)
  schedule : List Bool
  sent : Except FrostError Unit

variable {F G₁ G₂ : Type} [Field F] [AddCommGroup G₁] [Module F G₁] [DecidableEq G₁]
  [AddCommGroup G₂] [Module F G₂] {curve : Curve F G₁ G₂} {peers : HashMap PeerId UInt32}
  {self : PeerId} {localShareIdx : UInt32}

/-- `FrostP2P::round1`, for any peer map. -/
def round1With (curve : Curve F G₁ G₂) (peers : HashMap PeerId UInt32) (localShareIdx : UInt32)
    (threshold numValidators : ℕ) (arrivals : Arrivals PeerId) (own : FrostRound1Casts) :
    Except FrostError (HashMap MsgKey Round1Bcast × HashMap MsgKey ShamirShare) := do
  arrivals.sent
  let casts := withOwn ((accepted (validateRound1Casts peers threshold numValidators)
    arrivals.castCalls).map Prod.snd) arrivals.position own
  let p2ps := (accepted (validateRound1P2p peers localShareIdx numValidators)
    arrivals.p2pCalls).map Prod.snd
  let (castMsgs, p2pMsgs) ← collectRound1 peers.size arrivals.schedule casts p2ps [] []
  makeRound1Response curve castMsgs p2pMsgs

lemma FrostP2P.round1_eq (tp : FrostP2P PeerId) (curve : Curve F G₁ G₂)
    (bcast : HashMap MsgKey Round1Bcast) :
    tp.round1 curve bcast = round1With curve tp.peers.shareIdxByPeer tp.peers.localShareIdx
      tp.threshold.toNat tp.numValidators.toNat ⟨tp.round1Inbox.calls, tp.round1Inbox.position,
        tp.p2pCalls, tp.schedule, tp.round1Inbox.sent⟩ (buildRound1Casts tp.round1Order bcast) :=
  rfl

omit [DecidableEq G₁] in
/-- The direct messages of round 1: one of every other peer. -/
lemma directCoverage {numValidators : ℕ} {calls : List (PeerId × FrostRound1P2p)}
    (hinj : IndexedOnce peers) (hself : peers.lookup self = some localShareIdx)
    (hremote : ∀ call ∈ calls, call.1 ≠ self)
    {msgs rest : List FrostRound1P2p}
    (hmsgs : (accepted (validateRound1P2p peers localShareIdx numValidators) calls).map Prod.snd =
      msgs ++ rest)
    (hlength : msgs.length = peers.size - 1) {result : HashMap MsgKey ShamirShare}
    (hresult : collectEntries (shamirShareFromProto curve) (msgs.flatMap FrostRound1P2p.shares) =
      .ok result) :
    Coverage peers (· ≠ self) localShareIdx numValidators FrostRound1P2p.shares
      (shamirShareFromProto curve) calls result := by
  obtain ⟨hnodup, hcalls⟩ :=
    accepted_ok (validateRound1P2p peers localShareIdx numValidators) calls
  have hkeys := HashMap.nodup_keysIn (IterOrder.stored _) peers
  have hsub : (accepted (validateRound1P2p peers localShareIdx numValidators) calls).map Prod.fst ⊆
      (HashMap.keysIn (IterOrder.stored _) peers).erase self := by
    intro peer hpeer
    obtain ⟨call, hcall, rfl⟩ := List.mem_map.mp hpeer
    obtain ⟨⟨sourceId, hlook, -⟩, -⟩ := validateEntries_ok (hcalls call hcall).2
    exact hkeys.mem_erase_iff.mpr
      ⟨hremote call (hcalls call hcall).1, HashMap.mem_keysIn.mpr ⟨sourceId, hlook⟩⟩
  have hothers : msgs.length = ((HashMap.keysIn (IterOrder.stored _) peers).erase self).length := by
    rw [List.length_erase_of_mem (HashMap.mem_keysIn.mpr ⟨_, hself⟩), HashMap.length_keysIn, hlength]
  obtain ⟨hperm, hall⟩ := all_heard hnodup hsub (List.Perm.of_eq hmsgs.symm) hothers
  have hkey : ∀ share key d, shamirShareFromProto curve share = .ok (key, d) →
      share.key = some key := by
    intro share key d hdecode
    simp only [shamirShareFromProto, keyFromProto, Except.bind_ok_iff, Except.pure_ok_iff,
      Except.okOr_ok_iff, Prod.mk.injEq] at hdecode
    obtain ⟨_, hkey, _, -, rfl, -⟩ := hdecode
    exact hkey
  exact Coverage.mono (fun call hcall => (hcalls call hcall).1) (coverage hinj hkey hnodup
    (fun call hcall => ⟨hremote call (hcalls call hcall).1,
      (validateEntries_ok (hcalls call hcall).2).1⟩)
    (fun peer sourceId hheard hlook => hall
      (hkeys.mem_erase_iff.mpr ⟨hheard, HashMap.mem_keysIn.mpr ⟨sourceId, hlook⟩⟩)) hperm hresult)

variable [DecidableEq F] {hashToScalar : Bytes → F} {numValidators numNodes threshold : UInt32}
  {ctx : UInt8} {rng : UInt32 → Randomness F} {started validators : List (UInt32 × DkgParticipant F G₁)}
  {bcast castR1 : HashMap MsgKey Round1Bcast} {shares p2pR1 : HashMap MsgKey ShamirShare}

omit [DecidableEq G₁] in
/-- The casts `run_frost_parallel` starts with. -/
lemma ownCasts_of_round1
    (hnew : newFrostParticipants numValidators numNodes threshold localShareIdx ctx = .ok started)
    (hround1 : round1 curve hashToScalar rng started = .ok (validators, bcast, shares)) :
    OwnCasts numValidators.toNat localShareIdx bcast ∧
      ∀ key cast, bcast.lookup key = some cast → cast.commitments.length = threshold.toNat := by
  obtain ⟨hvIdxs, hstarted⟩ := newFrostParticipants_ok hnew
  obtain ⟨results, -, rfl, hkeys, hresults⟩ := round1_ok
    (fun e he => (DkgParticipant.new_ok (hstarted e he)).1) hround1
  refine ⟨ownCasts (hkeys.trans hvIdxs) fun r hr => (hresults r hr).1, fun key cast hlook => ?_⟩
  obtain ⟨r, hr, heq⟩ := List.mem_map.mp
    ((HashMap.lookup_insertAll_eq_some hlook).resolve_right (by simp))
  obtain ⟨-, p, sent, hp, hround⟩ := hresults r hr
  rw [heq] at hround
  obtain ⟨_, secret, hfrost, -⟩ := DkgParticipant.round1_ok hround
  obtain ⟨hsecret, -, hthreshold, hcommitments⟩ := Frost.round1_ok hfrost
  obtain ⟨-, -, hp⟩ := DkgParticipant.new_ok (hstarted _ hp)
  rw [hcommitments, List.length_map, hsecret.commitment, List.length_map, hsecret.length,
    hthreshold, hp]

end Peers

/-! ## Two peers -/

/-- The share indices are `1` and `7`. -/
def sparsePeers : HashMap (Fin 2) UInt32 := HashMap.insertAll ∅ [(0, 1), (1, 7)]

def sparseArrivals : Arrivals (Fin 2) where
  castCalls := [(1, ⟨[round1CastToProto ⟨0, 7, 0⟩ (Frost.lineBcast 5 1)]⟩)]
  position := 0
  p2pCalls := [(1, ⟨[⟨some ⟨0, 7, 1⟩, 1, scalarToBytes 6⟩]⟩)]
  schedule := [true, false, true]
  sent := .ok ()

/-- Round 1 of the first peer, with what it sends. -/
def sparseRound1 : Except FrostError (HashMap MsgKey Round1Bcast × HashMap MsgKey ShamirShare) := do
  let started ← newFrostParticipants 1 2 2 1 0
  let (_, bcast, _) ← round1 (exponents fun _ => 1) (fun _ => 1)
    (fun _ => Frost.lineRandomness 3 2) started
  round1With (exponents fun _ => 1) sparsePeers 1 2 1 sparseArrivals
    (buildRound1Casts (IterOrder.stored _) bcast)

end Pluto.Dkg
