import Pluto.Dkg.FrostP2P
import Pluto.Dkg.NodeSigs

/-!
# Broadcasts of the key generation

The three messages that are broadcast in a key generation, with the checks that come before a
signature: `register_round1_bcast`, `register_round2_bcast` and `NodeSigBcast::new`.

An honest peer signs one hash per sender and id.  But the hash is of the type URL and the value only.
A signature says neither for which sender nor under which id it was given, and the end of the type
URL is not marked in what is hashed.  So a sender may use the signatures another one was given:
`two_callbacks_differ` is a run in which two colluding senders have the honest peers sign one node
signature each, which is not checked, and then one of them sends both.  Where every signature was
given for the message it is used with, there is no equivocation (`called_msg_eq`).
-/

namespace Pluto.Dkg

open Bcast
open Corepb (Any)
open scoped Numerals

/-- The messages of a key generation. -/
inductive DkgMsg
  | round1 (msg : FrostRound1Casts)
  | round2 (msg : FrostRound2Casts)
  | nodeSig (msg : MsgNodeSig)
  deriving DecidableEq, Repr

variable {PeerId : Type} [DecidableEq PeerId]

def round1Registration (shareIdxByPeer : HashMap PeerId UInt32) (threshold numValidators : ℕ) :
    RegisteredMessage PeerId DkgMsg where
  toMsg any := (toMsg FrostRound1Casts.codec FrostRound1Casts.fullName any).map .round1
  check peer
    | .round1 msg => validateRound1Casts shareIdxByPeer threshold numValidators peer msg
    | _ => .error .decode

def round2Registration (shareIdxByPeer : HashMap PeerId UInt32) (numValidators : ℕ) :
    RegisteredMessage PeerId DkgMsg where
  toMsg any := (toMsg FrostRound2Casts.codec FrostRound2Casts.fullName any).map .round2
  check peer
    | .round2 msg => validateRound2Casts shareIdxByPeer numValidators peer msg
    | _ => .error .decode

def nodeSigRegistration : RegisteredMessage PeerId DkgMsg where
  toMsg any := (toMsg MsgNodeSig.codec MsgNodeSig.fullName any).map .nodeSig
  check _ _ := .ok ()

def registry (shareIdxByPeer : HashMap PeerId UInt32) (threshold numValidators : ℕ) (id : String) :
    Option (RegisteredMessage PeerId DkgMsg) :=
  if id = round1CastId then some (round1Registration shareIdxByPeer threshold numValidators)
  else if id = round2CastId then some (round2Registration shareIdxByPeer numValidators)
  else if id = NodeSigs.nodeSigMsgId then some nodeSigRegistration
  else none

/-- A key generation, with an arbitrary set of honest peers. -/
structure KeyGeneration (PeerId : Type) where
  peers : List PeerId
  honest : PeerId → Prop
  sha256 : Bytes → Bytes
  verify65 : PeerId → Bytes → Bytes → Option Bool
  shareIdxByPeer : HashMap PeerId UInt32
  threshold : ℕ
  numValidators : ℕ

/-- Every peer registers the same messages. -/
def KeyGeneration.setting (k : KeyGeneration PeerId) : Setting PeerId DkgMsg where
  peers := k.peers
  honest := k.honest
  sha256 := k.sha256
  verify65 := k.verify65
  registry _ := registry k.shareIdxByPeer k.threshold k.numValidators

/-- **No equivocation, if signatures are attributed.**  The callbacks that two honest peers call for
a sender and an id are called with the same message, if every signature of its bytes was given for
that sender, that id and that message. -/
theorem called_msg_eq {k : KeyGeneration PeerId} {tr : List (Label PeerId DkgMsg)}
    {net : Net PeerId} (run : Trace (Step k.setting) start tr net)
    (hunforged : Unforged k.setting tr) (hcollision : CollisionFree k.setting tr)
    (hattributed : Attributed tr) {receiver receiver' sender : PeerId} {id : String}
    {any any' : Any} {signatures signatures' : List Bytes} {msg msg' : DkgMsg}
    (h : .called receiver sender id any signatures msg ∈ tr)
    (h' : .called receiver' sender id any' signatures' msg' ∈ tr) : msg = msg' := by
  obtain rfl := called_any_eq run hunforged hcollision hattributed h h'
  obtain ⟨-, -, -, hok⟩ := called_ok run h
  obtain ⟨-, -, -, hok'⟩ := called_ok run h'
  obtain ⟨⟨handler, hhandler, hmsg⟩, -⟩ := handleInboundMsg_ok hok
  obtain ⟨⟨handler', hhandler', hmsg'⟩, -⟩ := handleInboundMsg_ok hok'
  obtain rfl := Option.some.inj (hhandler.symm.trans hhandler')
  exact Option.some.inj (hmsg.symm.trans hmsg')

/-! ## Two senders that share their signatures

Of four peers the last two are honest.  A signature is the hash, with the peer before it, cut or
filled up to the length of a signature. -/

def signWith (peer : Fin 4) (hash : Bytes) : Bytes :=
  (peer.val.toUInt8 :: hash ++ List.replicate 65 0).take 65

def fourPeers : KeyGeneration (Fin 4) where
  peers := [0, 1, 2, 3]
  honest peer := peer = 2 ∨ peer = 3
  sha256 := id
  verify65 peer hash signature := some (signature = signWith peer hash)
  shareIdxByPeer := HashMap.insertAll ∅ [(0, 1), (1, 2), (2, 3), (3, 4)]
  threshold := 3
  numValidators := 1

def nodeSigAny (msg : MsgNodeSig) : Any where
  typeUrl := "type.googleapis.com/dkg.dkgpb.v1.MsgNodeSig"
  value := MsgNodeSig.codec.encode msg

/-- The signatures of all peers, of which the honest ones have given theirs. -/
def allSignatures (msg : MsgNodeSig) : List Bytes :=
  fourPeers.peers.map fun peer => signWith peer (hashed (nodeSigAny msg))

/-- No signature is forged in a run whose calls come after the honest peers have signed their
messages. -/
lemma unforged_of_signed (signs calls : List (Label (Fin 4) DkgMsg))
    (hsigns : ∀ label ∈ signs, ∃ signer requester id any, label = .signed signer requester id any)
    (hcalls : ∀ label ∈ calls, ∃ receiver sender msg requester,
      label = .called receiver sender NodeSigs.nodeSigMsgId (nodeSigAny msg) (allSignatures msg)
        (.nodeSig msg) ∧
      ∀ peer, fourPeers.honest peer →
        .signed peer requester NodeSigs.nodeSigMsgId (nodeSigAny msg) ∈ signs) :
    Unforged fourPeers.setting (signs ++ calls) := by
  intro past rest receiver sender id any signatures msg hsplit peer signature honest _ _
  have hpast : signs ⊆ past ∧ .called receiver sender id any signatures msg ∈ calls := by
    rcases List.append_eq_append_iff.mp hsplit with ⟨more, rfl, rfl⟩ | ⟨more, rfl, hmore⟩
    · exact ⟨List.subset_append_left _ _, by simp⟩
    · cases more with
      | nil =>
        rw [List.nil_append] at hmore
        exact ⟨by simp, hmore ▸ List.mem_cons_self⟩
      | cons label more =>
        obtain ⟨_, _, _, _, hlabel⟩ := hsigns label (by simp)
        rw [List.cons_append, List.cons.injEq, hlabel] at hmore
        exact absurd hmore.1 nofun
  obtain ⟨_, _, _, requester, hlabel, hsigned⟩ := hcalls _ hpast.2
  cases hlabel
  exact ⟨requester, _, _, hpast.1 (hsigned peer honest), rfl⟩

lemma collisionFree_fourPeers (tr : List (Label (Fin 4) DkgMsg)) :
    CollisionFree fourPeers.setting tr := fun _ _ _ _ h => h

/-- Both honest peers sign a message for a peer. -/
def signedByBoth (requester : Fin 4) (msg : MsgNodeSig) : List (Label (Fin 4) DkgMsg) :=
  [.signed 2 requester NodeSigs.nodeSigMsgId (nodeSigAny msg),
    .signed 3 requester NodeSigs.nodeSigMsgId (nodeSigAny msg)]

lemma mem_signedByBoth (requester : Fin 4) (msg : MsgNodeSig) {peer : Fin 4}
    (honest : fourPeers.honest peer) :
    .signed peer requester NodeSigs.nodeSigMsgId (nodeSigAny msg) ∈ signedByBoth requester msg := by
  rcases honest with rfl | rfl <;> simp [signedByBoth]

def calledBy (receiver sender : Fin 4) (msg : MsgNodeSig) : Label (Fin 4) DkgMsg :=
  .called receiver sender NodeSigs.nodeSigMsgId (nodeSigAny msg) (allSignatures msg) (.nodeSig msg)

def nodeSigOf (signature : Bytes) : MsgNodeSig where
  signature := signature
  peerIndex := 0

lemma attributed_one_sender (msg : MsgNodeSig) :
    Attributed (signedByBoth 0 msg ++ [calledBy 2 0 msg, calledBy 3 0 msg]) := by
  intro receiver sender id any signatures msg' signer requester id' any' hcalled hsigned _
  simp only [signedByBoth, calledBy, List.cons_append, List.nil_append, List.mem_cons,
    List.not_mem_nil, reduceCtorEq, false_or, or_false] at hcalled hsigned
  have hmsg : sender = 0 ∧ id = NodeSigs.nodeSigMsgId ∧ any = nodeSigAny msg := by
    rcases hcalled with h | h <;> cases h <;> simp
  have hsign : requester = 0 ∧ id' = NodeSigs.nodeSigMsgId ∧ any' = nodeSigAny msg := by
    rcases hsigned with h | h <;> cases h <;> simp
  exact ⟨hsign.1.trans hmsg.1.symm, hsign.2.1.trans hmsg.2.1.symm, hsign.2.2.trans hmsg.2.2.symm⟩

theorem called_msg_eq_one_sender :
    ∃ tr net, Trace (Step fourPeers.setting) start tr net ∧ calledBy 3 0 (nodeSigOf [1]) ∈ tr ∧
      ∀ any signatures msg, .called 2 0 NodeSigs.nodeSigMsgId any signatures msg ∈ tr →
        msg = .nodeSig (nodeSigOf [1]) := by
  obtain ⟨net, run⟩ : ∃ net, Trace (Step fourPeers.setting) start (signedByBoth 0 (nodeSigOf [1]) ++
      [calledBy 2 0 (nodeSigOf [1]), calledBy 3 0 (nodeSigOf [1])]) net :=
    ⟨_, .cons (.sigRequest (by decide) (.inl rfl) (by decide) rfl) <|
      .cons (.sigRequest (by decide) (.inr rfl) (by decide) rfl) <|
      .cons (.inboundMsg (by decide) (.inl rfl) (by decide) rfl) <|
      .single (.inboundMsg (by decide) (.inr rfl) (by decide) rfl)⟩
  have hunforged := unforged_of_signed (signedByBoth 0 (nodeSigOf [1]))
    [calledBy 2 0 (nodeSigOf [1]), calledBy 3 0 (nodeSigOf [1])] (by simp [signedByBoth]) (by
      simp only [List.forall_mem_cons]
      exact ⟨⟨2, 0, nodeSigOf [1], 0, rfl, fun _ => mem_signedByBoth _ _⟩,
        ⟨3, 0, nodeSigOf [1], 0, rfl, fun _ => mem_signedByBoth _ _⟩, by simp⟩)
  have hcalled : calledBy 3 0 (nodeSigOf [1]) ∈ signedByBoth 0 (nodeSigOf [1]) ++
      [calledBy 2 0 (nodeSigOf [1]), calledBy 3 0 (nodeSigOf [1])] := by simp
  exact ⟨_, net, run, hcalled, fun any signatures msg h =>
    called_msg_eq run hunforged (collisionFree_fourPeers _) (attributed_one_sender _) h hcalled⟩

/-- The first sender sends its own node signature to one honest peer, and to the other one that the
second sender has had signed. -/
theorem two_callbacks_differ :
    ∃ tr net, Trace (Step fourPeers.setting) start tr net ∧ Unforged fourPeers.setting tr ∧
      CollisionFree fourPeers.setting tr ∧
      calledBy 2 0 (nodeSigOf [1]) ∈ tr ∧ calledBy 3 0 (nodeSigOf [2]) ∈ tr ∧
      DkgMsg.nodeSig (nodeSigOf [1]) ≠ .nodeSig (nodeSigOf [2]) := by
  obtain ⟨net, run⟩ : ∃ net, Trace (Step fourPeers.setting) start (signedByBoth 0 (nodeSigOf [1]) ++
      signedByBoth 1 (nodeSigOf [2]) ++ [calledBy 2 0 (nodeSigOf [1]), calledBy 3 0 (nodeSigOf [2])])
        net :=
    ⟨_, .cons (.sigRequest (by decide) (.inl rfl) (by decide) rfl) <|
      .cons (.sigRequest (by decide) (.inr rfl) (by decide) rfl) <|
      .cons (.sigRequest (by decide) (.inl rfl) (by decide) rfl) <|
      .cons (.sigRequest (by decide) (.inr rfl) (by decide) rfl) <|
      .cons (.inboundMsg (by decide) (.inl rfl) (by decide) rfl) <|
      .single (.inboundMsg (by decide) (.inr rfl) (by decide) rfl)⟩
  refine ⟨_, net, run, unforged_of_signed _ _ ?_ ?_, collisionFree_fourPeers _, by simp, by simp,
    by decide⟩
  · simp [signedByBoth]
  · simp only [List.forall_mem_cons]
    exact ⟨⟨2, 0, nodeSigOf [1], 0, rfl, fun _ h =>
        List.mem_append_left _ (mem_signedByBoth _ _ h)⟩,
      ⟨3, 0, nodeSigOf [2], 1, rfl, fun _ h => List.mem_append_right _ (mem_signedByBoth _ _ h)⟩,
      by simp⟩

end Pluto.Dkg
