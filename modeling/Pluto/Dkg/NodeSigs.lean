import Pluto.Crypto.K1Util
import Pluto.Dkg.Bcast

/-!
# Node signatures

The model of `nodesigs.rs`: each node signs the lock hash and broadcasts the signature, and waits for
the signatures of all other nodes.

The signatures have a slot per peer.  A broadcast message fills the slot of its sender, once the lock
hash is known to verify it with.  A peer that has nothing to sign sends the sentinel `NONE_DATA`,
which is kept in its slot in place of a signature; and where the result is built, slots with the
sentinel are left out.  So the sentinel of one peer moves the signatures of the peers after it.
-/

namespace Pluto.Dkg.NodeSigs

open Bcast (Error)
open scoped Numerals

def nodeSigMsgId : String := "/charon/dkg/node_sig"

/-- The sentinel in place of a signature. -/
def noneData : Bytes := [0xde, 0xad, 0xbe, 0xef]

variable {PeerId SK PK : Type} [DecidableEq PeerId] [DecidableEq PK]

/-- The peers of the cluster, each with the key that its id is made of, and the place and the key of
this node. -/
structure Config (PeerId SK PK : Type) where
  k1 : K1Util.Secp256k1 SK PK
  peers : List PeerId
  publicKey : PeerId → PK
  nodeIdx : ℕ
  key : SK
  nodeIdx_lt : nodeIdx < peers.length
  /-- The curve recovers the key of this node from its signatures. -/
  recovers : ∀ hash sig recoveryId, k1.signPrehash key hash = some (sig, recoveryId) →
    sig.length = 64 ∧ (recoveryId = 0 ∨ recoveryId = 1) ∧
      k1.recoverFromPrehash hash sig recoveryId =
        some (publicKey (peers.get ⟨nodeIdx, nodeIdx_lt⟩))

variable (cfg : Config PeerId SK PK)

lemma toOption_eq_some_iff {ε α : Type} {x : Except ε α} {a : α} :
    x.toOption = some a ↔ x = .ok a := by
  cases x <;> simp [Except.toOption]

namespace Config

def sign (hash : Bytes) : Option Bytes := (K1Util.sign cfg.k1 cfg.key hash).toOption

def verify65 (peer : PeerId) (hash sig : Bytes) : Option Bool :=
  (K1Util.verify65 cfg.k1 (cfg.publicKey peer) hash sig).toOption

variable {cfg} {peer : PeerId} {hash sig : Bytes}

omit [DecidableEq PeerId] [DecidableEq PK] in
lemma sign_hash (h : cfg.sign hash = some sig) : hash.length = 32 :=
  (K1Util.sign_ok (toOption_eq_some_iff.mp h)).1

omit [DecidableEq PeerId] in
lemma verify65_sign (h : cfg.sign hash = some sig) :
    cfg.verify65 (cfg.peers.get ⟨cfg.nodeIdx, cfg.nodeIdx_lt⟩) hash sig = some true := by
  obtain ⟨hhash, rs, recoveryId, hsign, rfl⟩ := K1Util.sign_ok (toOption_eq_some_iff.mp h)
  obtain ⟨hlength, hid, hrecover⟩ := cfg.recovers _ _ _ hsign
  exact toOption_eq_some_iff.mpr (K1Util.verify65_append hhash hlength hid hrecover)

omit [DecidableEq PeerId] in
lemma verify65_length (h : cfg.verify65 peer hash sig = some true) : sig.length = 65 :=
  K1Util.length_of_verify65 (toOption_eq_some_iff.mp h)

end Config

/-- What `receive` checks before it waits for the lock hash: the index of the slot. -/
def senderIndex (peer : PeerId) (msg : MsgNodeSig) : Except (Error PeerId) ℕ :=
  let peerIdx := msg.peerIndex.toNat
  if peerIdx = cfg.nodeIdx then .error (.invalidPeerIndex peer)
  else
    match cfg.peers[peerIdx]? with
    | none => .error (.invalidPeerIndex peer)
    | some expected =>
      if expected ≠ peer then .error (.invalidSenderPeerIndex peer expected) else .ok peerIdx

/-- What `receive` puts into the slot once the lock hash is known. -/
def verifiedSig (peer : PeerId) (lockHash : Bytes) (msg : MsgNodeSig) :
    Except (Error PeerId) Bytes :=
  if lockHash = noneData then .ok noneData
  else
    match cfg.verify65 peer lockHash msg.signature with
    | none => .error .k1
    | some false => .error (.invalidSignature peer)
    | some true => .ok msg.signature

/-- All signatures, if every slot is filled. -/
def allSigs (sigs : List (Option Bytes)) : Option (List Bytes) :=
  (sigs.filter (· ≠ some noneData)).mapM id

/-! ## The node -/

/-- Where `exchange` is. -/
inductive Phase
  | idle
  | broadcasting (localSig : Bytes)
  | polling
  | finished
  deriving DecidableEq, Repr

structure State (PeerId : Type) where
  sigs : List (Option Bytes)
  lockHash : Option Bytes
  phase : Phase
  /-- The callbacks that wait for the lock hash, with the slot they fill. -/
  waiting : List (PeerId × ℕ × MsgNodeSig)

def start : State PeerId where
  sigs := List.replicate cfg.peers.length none
  lockHash := none
  phase := .idle
  waiting := []

/-- The callback up to where it waits. -/
def receive (s : State PeerId) (peer : PeerId) (msg : MsgNodeSig) : State PeerId :=
  match senderIndex cfg peer msg with
  | .error _ => s
  | .ok idx =>
    if msg.signature = noneData then { s with sigs := s.sigs.set idx (some noneData) }
    else { s with waiting := s.waiting ++ [(peer, idx, msg)] }

/-- The rest of the callback. -/
def resume (s : State PeerId) (lockHash : Bytes) (entry : PeerId × ℕ × MsgNodeSig) : State PeerId :=
  match verifiedSig cfg entry.1 lockHash entry.2.2 with
  | .error _ => s
  | .ok sig => { s with sigs := s.sigs.set entry.2.1 (some sig) }

inductive Label (PeerId : Type)
  /-- The callback is called. -/
  | called (peer : PeerId) (msg : MsgNodeSig)
  | resumed (entry : PeerId × ℕ × MsgNodeSig)
  /-- `exchange` is called, with the key of the node or without one. -/
  | exchange (withKey : Bool) (lockHash : Bytes)
  | broadcastDone
  | returned (sigs : List Bytes)
  | failed
  deriving DecidableEq

inductive Step : State PeerId → Label PeerId → State PeerId → Prop
  | called {s : State PeerId} (peer : PeerId) (msg : MsgNodeSig) :
      Step s (.called peer msg) (receive cfg s peer msg)
  | resumed {s : State PeerId} (front back : List (PeerId × ℕ × MsgNodeSig))
      {entry : PeerId × ℕ × MsgNodeSig} {lockHash : Bytes} (hlock : s.lockHash = some lockHash)
      (hwaiting : s.waiting = front ++ entry :: back) :
      Step s (.resumed entry) (resume cfg { s with waiting := front ++ back } lockHash entry)
  | exchange {s : State PeerId} (lockHash : Bytes) {sig : Bytes} (hphase : s.phase = .idle)
      (hsign : cfg.sign lockHash = some sig) :
      Step s (.exchange true lockHash)
        { s with lockHash := some lockHash, phase := .broadcasting sig }
  | exchangeNone {s : State PeerId} (lockHash : Bytes) (hphase : s.phase = .idle) :
      Step s (.exchange false lockHash)
        { s with lockHash := some noneData, phase := .broadcasting noneData }
  | broadcastDone {s : State PeerId} {sig : Bytes} (hphase : s.phase = .broadcasting sig)
      (hidx : cfg.nodeIdx < 2 ^ 32) :
      Step s .broadcastDone
        { s with sigs := s.sigs.set cfg.nodeIdx (some sig), phase := .polling }
  | returned {s : State PeerId} {sigs : List Bytes} (hphase : s.phase = .polling)
      (hall : allSigs s.sigs = some sigs) :
      Step s (.returned sigs) { s with phase := .finished }
  /-- Signing or broadcasting fails, the node index does not fit, or the exchange is cancelled. -/
  | failed {s : State PeerId} : Step s .failed { s with phase := .finished }

/-! ## Every slot holds a signature of its peer -/

/-- A signature of the lock hash with the key of the `i`-th peer. -/
def ValidAt (lockHash : Bytes) (i : ℕ) (sig : Bytes) : Prop :=
  ∃ peer, cfg.peers[i]? = some peer ∧ cfg.verify65 peer lockHash sig = some true

/-- What holds while no peer sends the sentinel and `exchange` is called with a key. -/
structure Inv (s : State PeerId) : Prop where
  length : s.sigs.length = cfg.peers.length
  idle : s.phase = .idle → s.lockHash = none
  lockHash : ∀ lockHash, s.lockHash = some lockHash → lockHash ≠ noneData
  waiting : ∀ entry ∈ s.waiting, cfg.peers[entry.2.1]? = some entry.1
  broadcasting : ∀ sig, s.phase = .broadcasting sig →
    ∃ lockHash, s.lockHash = some lockHash ∧ ValidAt cfg lockHash cfg.nodeIdx sig
  slots : ∀ i sig, s.sigs[i]? = some (some sig) →
    ∃ lockHash, s.lockHash = some lockHash ∧ ValidAt cfg lockHash i sig

/-- No message carries the sentinel, and there is a key. -/
def Label.Signs : Label PeerId → Prop
  | .called _ msg => msg.signature ≠ noneData
  | .exchange withKey _ => withKey = true
  | _ => True

omit [DecidableEq PeerId] in
lemma inv_start : Inv cfg (start cfg) where
  length := by simp [start]
  idle := fun _ => rfl
  lockHash := nofun
  waiting := nofun
  broadcasting := nofun
  slots i sig h := by simp [start, List.getElem?_replicate] at h

omit [DecidableEq PK] in
lemma senderIndex_ok {peer : PeerId} {msg : MsgNodeSig} {idx : ℕ}
    (h : senderIndex cfg peer msg = .ok idx) : cfg.peers[idx]? = some peer := by
  rw [senderIndex] at h
  split_ifs at h
  split at h
  · cases h
  · rename_i expected hexpected
    split_ifs at h with hpeer
    rw [← Except.ok.inj h, hexpected, not_not.mp hpeer]

omit [DecidableEq PeerId] in
lemma verifiedSig_ok {peer : PeerId} {lockHash sig : Bytes} {msg : MsgNodeSig}
    (hlock : lockHash ≠ noneData) (h : verifiedSig cfg peer lockHash msg = .ok sig) :
    cfg.verify65 peer lockHash sig = some true := by
  rw [verifiedSig, if_neg hlock] at h
  split at h
  · cases h
  · cases h
  · rename_i hverify
    rw [← Except.ok.inj h]
    exact hverify

variable {cfg}

omit [DecidableEq PeerId] in
/-- Filling a slot with a valid signature. -/
lemma Inv.setSlot {s : State PeerId} (h : Inv cfg s) {lockHash sig : Bytes} {idx : ℕ}
    (hlock : s.lockHash = some lockHash) (hvalid : ValidAt cfg lockHash idx sig) :
    Inv cfg { s with sigs := s.sigs.set idx (some sig) } where
  length := by simp [h.length]
  idle := h.idle
  lockHash := h.lockHash
  waiting := h.waiting
  broadcasting := h.broadcasting
  slots i sig' hsig := by
    rw [List.getElem?_set] at hsig
    split_ifs at hsig with hi hlt
    · obtain rfl := Option.some.inj (Option.some.inj hsig)
      exact ⟨lockHash, hlock, hi ▸ hvalid⟩
    · exact h.slots i sig' hsig

lemma Inv.receive {s : State PeerId} (h : Inv cfg s) {peer : PeerId} {msg : MsgNodeSig}
    (hmsg : msg.signature ≠ noneData) : Inv cfg (receive cfg s peer msg) := by
  rw [NodeSigs.receive]
  split
  · exact h
  · rename_i idx hidx
    rw [if_neg hmsg]
    refine ⟨h.length, h.idle, h.lockHash, fun entry hentry => ?_, h.broadcasting, h.slots⟩
    rcases List.mem_append.mp hentry with hold | hnew
    · exact h.waiting entry hold
    · rw [List.mem_singleton.mp hnew]
      exact senderIndex_ok cfg hidx

omit [DecidableEq PeerId] in
lemma Inv.resume {s : State PeerId} (h : Inv cfg s) {lockHash : Bytes}
    {entry : PeerId × ℕ × MsgNodeSig} (hlock : s.lockHash = some lockHash)
    (hentry : cfg.peers[entry.2.1]? = some entry.1) : Inv cfg (resume cfg s lockHash entry) := by
  rw [NodeSigs.resume]
  split
  · exact h
  · rename_i sig hsig
    exact h.setSlot hlock ⟨entry.1, hentry, verifiedSig_ok cfg (h.lockHash _ hlock) hsig⟩

lemma Inv.step {s s' : State PeerId} {label : Label PeerId} (h : Inv cfg s) (hlabel : label.Signs)
    (hstep : Step cfg s label s') : Inv cfg s' := by
  cases hstep with
  | called peer msg => exact h.receive hlabel
  | @resumed front back entry lockHash hlock hwaiting =>
    have hrest : Inv cfg { s with waiting := front ++ back } := by
      refine ⟨h.length, h.idle, h.lockHash, fun e he => h.waiting e ?_, h.broadcasting, h.slots⟩
      rw [hwaiting]
      rcases List.mem_append.mp he with he | he
      · exact List.mem_append_left _ he
      · exact List.mem_append_right _ (List.mem_cons_of_mem _ he)
    refine hrest.resume hlock (h.waiting entry ?_)
    rw [hwaiting]
    exact List.mem_append_right _ List.mem_cons_self
  | @exchange lockHash sig hphase hsign =>
    have hempty := h.idle hphase
    refine ⟨h.length, nofun, fun lockHash' hlock => ?_, h.waiting, fun sig' hsig => ?_,
      fun i sig' hsig => ?_⟩
    · obtain rfl := Option.some.inj hlock
      rintro rfl
      exact absurd (Config.sign_hash hsign) (by decide)
    · cases hsig
      exact ⟨lockHash, rfl, _, List.getElem?_eq_getElem cfg.nodeIdx_lt, Config.verify65_sign hsign⟩
    · obtain ⟨lockHash', hlock, -⟩ := h.slots i sig' hsig
      rw [hempty] at hlock
      cases hlock
  | exchangeNone => cases hlabel
  | broadcastDone hphase =>
    obtain ⟨lockHash, hlock, hvalid⟩ := h.broadcasting _ hphase
    have hset := h.setSlot hlock hvalid
    exact ⟨hset.length, nofun, hset.lockHash, hset.waiting, nofun, hset.slots⟩
  | returned | failed => exact ⟨h.length, nofun, h.lockHash, h.waiting, nofun, h.slots⟩

lemma inv_run {tr : List (Label PeerId)} {s : State PeerId} (run : Trace (Step cfg) (start cfg) tr s)
    (hsigns : ∀ label ∈ tr, label.Signs) : Inv cfg s :=
  Trace.induction (P := fun _ s => Inv cfg s) (E := Label.Signs) (inv_start cfg)
    (fun _ _ _ _ hlabel h hstep => h.step hlabel hstep) run hsigns

/-- The lock hash is set once: only `exchange` sets it, and `exchange` consumes the component. -/
lemma Step.keeps {s s' : State PeerId} {label : Label PeerId} (hstep : Step cfg s label s')
    (hphase : s.phase ≠ .idle) : s'.phase ≠ .idle ∧ s'.lockHash = s.lockHash := by
  cases hstep with
  | called peer msg =>
    rw [receive]
    split
    · exact ⟨hphase, rfl⟩
    · split_ifs
      · exact ⟨hphase, rfl⟩
      · exact ⟨hphase, rfl⟩
  | resumed =>
    rw [resume]
    split
    · exact ⟨hphase, rfl⟩
    · exact ⟨hphase, rfl⟩
  | exchange _ hidle => exact absurd hidle hphase
  | exchangeNone _ hidle => exact absurd hidle hphase
  | broadcastDone | returned | failed => exact ⟨nofun, rfl⟩

lemma lockHash_run {tr : List (Label PeerId)} {s s' : State PeerId} (run : Trace (Step cfg) s tr s')
    (hphase : s.phase ≠ .idle) : s'.phase ≠ .idle ∧ s'.lockHash = s.lockHash :=
  Trace.invariant (I := fun s' => s'.phase ≠ .idle ∧ s'.lockHash = s.lockHash) ⟨hphase, rfl⟩
    (fun _ _ _ h hstep => ⟨(hstep.keeps h.1).1, (hstep.keeps h.1).2.trans h.2⟩) run

lemma lockHash_of_exchange {tr : List (Label PeerId)} {s : State PeerId}
    (run : Trace (Step cfg) (start cfg) tr s) {lockHash : Bytes}
    (h : Label.exchange true lockHash ∈ tr) : s.lockHash = some lockHash := by
  obtain ⟨tr₁, tr₂, rfl⟩ := List.append_of_mem h
  obtain ⟨s₁, s₂, -, hstep, hpost⟩ := run.split_cons
  cases hstep
  exact (lockHash_run hpost nofun).2

omit [DecidableEq PeerId] in
/-- Without the sentinel, the result has the slots in their order. -/
lemma allSigs_eq_some {slots : List (Option Bytes)} {sigs : List Bytes}
    (hslots : some noneData ∉ slots) (h : allSigs slots = some sigs) : slots = sigs.map some := by
  have hfilter : slots.filter (· ≠ some noneData) = slots := by
    rw [List.filter_eq_self]
    intro slot hslot
    exact decide_eq_true fun heq : slot = some noneData => hslots (heq ▸ hslot)
  rw [allSigs, hfilter] at h
  clear hfilter
  induction slots generalizing sigs with
  | nil => cases h; rfl
  | cons slot slots ih =>
    rw [List.mapM_cons] at h
    obtain ⟨sig, hslot, h⟩ := Option.bind_eq_some_iff.mp h
    obtain ⟨rest, hrest, h⟩ := Option.bind_eq_some_iff.mp h
    cases h
    rw [List.map_cons, ← ih (fun hmem => hslots (List.mem_cons_of_mem _ hmem)) hrest]
    exact congrArg (· :: slots) hslot

/-- **Every entry of the result is a signature of the peer at its index**, of the lock hash that
`exchange` was called with.  Here every node has a key, and no peer sends the sentinel (`hsigns`). -/
theorem returned_aligned {tr : List (Label PeerId)} {s : State PeerId}
    (run : Trace (Step cfg) (start cfg) tr s) (hsigns : ∀ label ∈ tr, label.Signs)
    {lockHash : Bytes} (hexchange : Label.exchange true lockHash ∈ tr) {sigs : List Bytes}
    (hreturned : Label.returned sigs ∈ tr) :
    sigs.length = cfg.peers.length ∧
      ∀ i (hi : i < cfg.peers.length), ∃ sig, sigs[i]? = some sig ∧ sig.length = 65 ∧
        cfg.verify65 cfg.peers[i] lockHash sig = some true := by
  obtain ⟨tr₁, tr₂, rfl⟩ := List.append_of_mem hreturned
  obtain ⟨s₁, s₂, hpast, hstep, hpost⟩ := run.split_cons
  have hinv : Inv cfg s₁ := inv_run hpast fun label hlabel => hsigns label (by simp [hlabel])
  have hlock := lockHash_of_exchange run hexchange
  cases hstep with
  | returned hphase hall =>
    rw [(lockHash_run hpost nofun).2] at hlock
    -- The sentinel is no signature, so no slot holds it.
    have hnone : some noneData ∉ s₁.sigs := by
      intro hmem
      obtain ⟨i, hi⟩ := List.mem_iff_getElem?.mp hmem
      obtain ⟨_, _, _, _, hverify⟩ := hinv.slots i _ hi
      exact absurd (Config.verify65_length hverify) (by decide)
    have hslots := allSigs_eq_some hnone hall
    have hlength : sigs.length = cfg.peers.length := by
      rw [← hinv.length, hslots, List.length_map]
    refine ⟨hlength, fun i hi => ⟨sigs[i], List.getElem?_eq_getElem (hlength ▸ hi), ?_⟩⟩
    have hslot : s₁.sigs[i]? = some (some sigs[i]) := by
      rw [hslots, List.getElem?_map, List.getElem?_eq_getElem (hlength ▸ hi)]
      rfl
    obtain ⟨lockHash', hlock', peer, hpeer, hverify⟩ := hinv.slots i _ hslot
    rw [List.getElem?_eq_getElem hi] at hpeer
    obtain rfl := Option.some.inj hpeer
    obtain rfl : lockHash' = lockHash := Option.some.inj (hlock'.symm.trans hlock)
    exact ⟨Config.verify65_length hverify, hverify⟩

/-! ## A sentinel moves the signatures after it -/

/-- Keys are bytes, and a signature is the key 64 times. -/
def byteCurve : K1Util.Secp256k1 UInt8 UInt8 where
  publicKey := id
  toSec1Bytes key := [key]
  fromSec1Bytes bytes := bytes.head?
  signPrehash key _ := some (List.replicate 64 key, 0)
  verifyPrehashed key _ sig := some (sig = List.replicate 64 key)
  recoverFromPrehash _ sig _ := sig.head?

/-- Three peers whose keys are their numbers; this node is the first. -/
def threePeers : Config (Fin 3) UInt8 UInt8 where
  k1 := byteCurve
  peers := [0, 1, 2]
  publicKey peer := peer.val.toUInt8
  nodeIdx := 0
  key := 0
  nodeIdx_lt := by decide
  recovers hash sig recoveryId h := by
    obtain ⟨rfl, rfl⟩ := Prod.mk.inj (Option.some.inj h)
    exact ⟨rfl, .inl rfl, rfl⟩

def sigOf (key : UInt8) : Bytes := List.replicate 64 key ++ [0]

/-- The message of a peer of `threePeers` that signs. -/
def signedBy (peer : Fin 3) : MsgNodeSig where
  signature := sigOf peer.val.toUInt8
  peerIndex := peer.val.toUInt32

theorem returned_aligned_three_peers :
    ([sigOf 0, sigOf 1, sigOf 2] : List Bytes).length = 3 ∧
      ∀ i (hi : i < threePeers.peers.length),
        ∃ sig, [sigOf 0, sigOf 1, sigOf 2][i]? = some sig ∧
          sig.length = 65 ∧
          threePeers.verify65 threePeers.peers[i] (List.replicate 32 7) sig = some true :=
  have run : Trace (Step threePeers) (start threePeers)
      [.called 1 (signedBy 1), .exchange true (List.replicate 32 7), .resumed (1, 1, signedBy 1),
        .called 2 (signedBy 2), .resumed (2, 2, signedBy 2), .broadcastDone,
        .returned [sigOf 0, sigOf 1, sigOf 2]] _ :=
    ((((((Trace.single (.called 1 (signedBy 1))).snoc (.exchange _ rfl rfl)).snoc
      (.resumed [] [] rfl rfl)).snoc (.called 2 (signedBy 2))).snoc
      (.resumed [] [] rfl rfl)).snoc (.broadcastDone rfl (by decide))).snoc (.returned rfl rfl)
  returned_aligned run (by simp [Label.Signs, signedBy, sigOf, noneData]) (by simp) (by simp)

/-- The second peer sends the sentinel, and its index in the result is taken by the third. -/
theorem none_data_shifts :
    ∃ tr s, Trace (Step threePeers) (start threePeers) tr s ∧
      Label.exchange true (List.replicate 32 7) ∈ tr ∧
      Label.returned [sigOf 0, sigOf 2] ∈ tr ∧
      threePeers.verify65 1 (List.replicate 32 7) (sigOf 2) = some false :=
  have run : Trace (Step threePeers) (start threePeers)
      [.exchange true (List.replicate 32 7), .called 1 { signature := noneData, peerIndex := 1 },
        .called 2 (signedBy 2), .resumed (2, 2, signedBy 2), .broadcastDone,
        .returned [sigOf 0, sigOf 2]] _ :=
    (((((Trace.single (.exchange _ rfl rfl)).snoc (.called 1 _)).snoc
      (.called 2 (signedBy 2))).snoc (.resumed [] [] rfl rfl)).snoc
      (.broadcastDone rfl (by decide))).snoc (.returned rfl rfl)
  ⟨_, _, run, by simp, by simp, by decide⟩

end Pluto.Dkg.NodeSigs
