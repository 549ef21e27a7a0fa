import Pluto.Core.Deadline.Deadliner
import Pluto.Priority.Calculate

/-!
# An instance of the priority protocol

`crates/priority/src/prioritiser.rs` and the message verifier of `component.rs`: a node exchanges its
own signed message with its peers, collects theirs, and proposes the result to consensus once it has
all of them or the exchange timeout is over.

The messages of peers come in on two paths, as requests (`Shared::handle_request`) and as responses
to the own request (`exchange`).  Both check who sent a message and its signature; neither looks at
its topics.  `Engine.step` interleaves both paths with the turns of the select loop of
`run_instance`, for one duty and one instance.  Peer ids are given by their text, and a peer that
waits for room in the buffer is one that sends its request later.

`survives` says what holds in every schedule.  The instance proposes at most once and a result that
has its own message, and after the exchange timeout it has proposed, or it ended because the
calculation failed.  The calculation fails only on a collected message that has another duty or is
not well formed.  One such message is enough: `malformed_response_ends_instance`.
-/

namespace Pluto.Priority

open Corepb Ssz
open Core.Deadline (AddOutcome)

abbrev PeerId : Type := String

/-! ## The message verifier -/

abbrev MsgVerifier : Type := PriorityMsg → Except Error Unit

section Verifier

variable {SK PK : Type} [DecidableEq PK] (crypto : Consensus.Crypto SK PK)

def verifyMsgSig (msg : PriorityMsg) (pubkey : PK) : Except Error Bool :=
  if msg.signature = [] then .error .emptySignature
  else do
    let clone := { msg with signature := [] }
    let hash ← (Consensus.hashProto crypto.sha256 PriorityMsg.named clone).mapError .hashProto
    let recovered ← (crypto.recover hash msg.signature).mapError .recover
    pure (decide (recovered = pubkey))

def verifyMsg (keys : HashMap PeerId PK) (msg : PriorityMsg) : Except Error Unit :=
  if msg.duty = none then .error .invalidMsgProtoFields
  else
    match keys.lookup msg.peerId with
    | none => .error .unknownPeerId
    | some key => do
      if ← verifyMsgSig crypto msg key then pure () else throw .invalidSignature

/-- `new_msg_verifier`; `peerKey` is `peer_id_to_public_key`. -/
def newMsgVerifier (peerKey : PeerId → Except Error PK) (peers : List PeerId) :
    Except Error MsgVerifier := do
  let keys ← peers.foldlM (fun keys peer => do
    let pk ← peerKey peer
    pure (keys.insert peer pk)) (∅ : HashMap PeerId PK)
  pure (verifyMsg crypto keys)

end Verifier

/-! ## The instance -/

structure Inner where
  localId : PeerId
  peers : List PeerId
  msgValidator : MsgVerifier
  minRequired : Int64
  sha256 : Bytes → HashRoot
  /-- How the map of topics iterates. -/
  o : IterOrder (Sigma fun _ : HashRoot => List PriorityTopicProposal)

structure Instance where
  msgs : List PriorityMsg
  dedupPeers : Finset PeerId := ∅
  consStarted : Bool := false

/-- The domain duty of a protobuf duty; an unknown type is kept as such. -/
def dutyFromProto (duty : Corepb.Duty) : Core.Duty := Consensus.dutyFromProto (some duty)

/-- Adds the first message seen from each peer. -/
def Instance.addMsg (inst : Instance) (msg : PriorityMsg) : Instance :=
  if msg.peerId ∈ inst.dedupPeers then inst
  else { inst with msgs := inst.msgs ++ [msg], dedupPeers := insert msg.peerId inst.dedupPeers }

namespace Inner

variable (inner : Inner)

/-- `handle_request` up to the buffer of the duty, which is returned; `added` is the answer of the
deadliner. -/
def handleRequest (peer : PeerId) (msg : PriorityMsg) (added : AddOutcome) :
    Except Error Core.Duty := do
  if peer ≠ msg.peerId then throw .invalidPeerId
  inner.msgValidator msg
  let protoDuty ← Except.okOr msg.duty .invalidMsgProtoFields
  match added with
  | .scheduled => pure (dutyFromProto protoDuty)
  | .failedToCompute => throw .deadlineComputeFailed
  | .alreadyExpired => throw .dutyExpired
  | .noDeadline => throw .dutyExpired

/-- Whether a task of `exchange` forwards the response of its peer. -/
def acceptsResponse (peer : PeerId) (response : PriorityMsg) : Bool :=
  decide (peer = response.peerId) && (inner.msgValidator response).isOk

def bufferCapacity : ℕ := max inner.peers.length 1 * 2

/-- `start_consensus`: what is proposed. -/
def startConsensus (inst : Instance) : Except Error PriorityResult :=
  (calculateResult inner.sha256 inner.o inst.msgs inner.minRequired).mapError .calculateResult

/-- The end of a turn of the loop: consensus is started after the timeout, or with all messages. -/
def startsConsensus (inst : Instance) (timedOut : Bool) : Bool :=
  timedOut || (!inst.consStarted && inst.msgs.length == inner.peers.length)

end Inner

/-! ## Schedules -/

inductive Phase
  | idle
  | running (inst : Instance)
  | returned (inst : Instance) (error : Error)

/-- The instance of a duty with the channels it reads. -/
structure Engine where
  phase : Phase := .idle
  /-- The request buffer of the duty. -/
  requests : List PriorityMsg := []
  /-- Whether requests still go to this buffer: it is dropped when the duty expires. -/
  buffered : Bool := true
  /-- The peers whose `exchange` task waits for a response. -/
  awaiting : List PeerId := []
  responses : List PriorityMsg := []
  /-- Whether the exchange timeout has been handled. -/
  timedOut : Bool := false
  /-- The results proposed to consensus. -/
  proposed : List PriorityResult := []

inductive Event
  /-- `run_instance` takes the buffer and sends the own message. -/
  | start
  /-- A peer sends a request. -/
  | request (peer : PeerId) (msg : PriorityMsg) (added : AddOutcome)
  /-- The transport returns the response of a peer, or an error. -/
  | response (peer : PeerId) (msg : Option PriorityMsg)
  /-- The deadliner reports the duty. -/
  | expired
  /-- The arms of the select loop. -/
  | recvRequest
  | recvResponse
  | exchangeTimeout
  | cancelled

/-- A request that the node sends to itself. -/
def Event.FromSelf (localId : PeerId) : Event → Prop
  | .request peer _ _ => peer = localId
  | _ => False

namespace Engine

variable (inner : Inner) (own : PriorityMsg)

def endTurn (inst : Instance) (timedOut : Bool) (s : Engine) : Engine :=
  if inner.startsConsensus inst timedOut then
    let inst := { inst with consStarted := true }
    match inner.startConsensus inst with
    | .ok result => { s with phase := .running inst, proposed := s.proposed ++ [result] }
    | .error e => { s with phase := .returned inst e }
  else { s with phase := .running inst }

/-- The buffer gets a request of the duty while there is room. -/
def handleRequest (peer : PeerId) (msg : PriorityMsg) (added : AddOutcome) (s : Engine) : Engine :=
  match inner.handleRequest peer msg added with
  | .error _ => s
  | .ok duty =>
    if duty = Consensus.dutyFromProto own.duty ∧ s.buffered ∧
        s.requests.length < inner.bufferCapacity then
      { s with requests := s.requests ++ [msg] }
    else s

def handleResponse (peer : PeerId) (msg : Option PriorityMsg) (s : Engine) : Engine :=
  if peer ∈ s.awaiting then
    let s := { s with awaiting := s.awaiting.erase peer }
    match msg with
    | none => s
    | some msg =>
      if inner.acceptsResponse peer msg then { s with responses := s.responses ++ [msg] } else s
  else s

/-- One event; those that cannot happen change nothing. -/
def step (s : Engine) (event : Event) : Engine :=
  match event, s.phase with
  | .start, .idle =>
    { s with
      phase := .running { msgs := [own] }
      awaiting := inner.peers.filter (· ≠ inner.localId) }
  | .request peer msg added, _ => s.handleRequest inner own peer msg added
  | .response peer msg, _ => s.handleResponse inner peer msg
  | .expired, .idle => { s with requests := [] }
  | .expired, _ => { s with buffered := false }
  | .recvRequest, .running inst =>
    match s.requests with
    | [] => s
    | msg :: rest => endTurn inner (inst.addMsg msg) false { s with requests := rest }
  | .recvResponse, .running inst =>
    match s.responses with
    | [] => s
    | msg :: rest => endTurn inner (inst.addMsg msg) false { s with responses := rest }
  | .exchangeTimeout, .running inst =>
    if inst.consStarted then s else endTurn inner inst true { s with timedOut := true }
  | .cancelled, .running inst => { s with phase := .returned inst .cancelled }
  | _, _ => s

/-- A schedule, from the first request for the duty on. -/
def run (events : List Event) : Engine := events.foldl (step inner own) {}

/-! ## What holds in every schedule -/

/-- A message of another peer that passed the verifier. -/
structure FromPeer (msg : PriorityMsg) : Prop where
  ne_local : msg.peerId ≠ inner.localId
  verified : inner.msgValidator msg = .ok ()

/-- The messages an instance has collected: its own, and at most one of each peer. -/
structure Collected (inst : Instance) : Prop where
  msgs : ∃ rest, inst.msgs = own :: rest ∧ (rest.map PriorityMsg.peerId).Nodup ∧
    ∀ msg ∈ rest, FromPeer inner msg ∧ msg.peerId ∈ inst.dedupPeers

def PhaseOk (s : Engine) : Prop :=
  match s.phase with
  | .idle => s.proposed = [] ∧ s.timedOut = false
  | .running inst => Collected inner own inst ∧
      s.proposed.length = (if inst.consStarted then 1 else 0) ∧
      (s.timedOut → inst.consStarted)
  | .returned inst error => Collected inner own inst ∧ s.proposed.length ≤ 1 ∧
      (s.timedOut → s.proposed.length = 1 ∨ ∃ e, error = .calculateResult e) ∧
      ∀ e, error = .calculateResult e → ¬ Valid inner.sha256 inst.msgs

structure Inv (s : Engine) : Prop where
  requests : ∀ msg ∈ s.requests, FromPeer inner msg
  responses : ∀ msg ∈ s.responses, FromPeer inner msg
  awaiting : inner.localId ∉ s.awaiting
  phase : PhaseOk inner own s
  proposed : ∀ result ∈ s.proposed, own ∈ result.msgs

variable {inner own}

variable {inst : Instance} {msg : PriorityMsg}

lemma Collected.addMsg (h : Collected inner own inst)
    (hmsg : FromPeer inner msg) : Collected inner own (inst.addMsg msg) := by
  unfold Instance.addMsg
  split_ifs with hdup
  · exact h
  · obtain ⟨rest, hmsgs, hnodup, hrest⟩ := h.msgs
    refine ⟨rest ++ [msg], by simp [hmsgs], ?_, ?_⟩
    · -- a peer that is in the list is in the set
      have hnew : msg.peerId ∉ rest.map PriorityMsg.peerId := by
        intro hmem
        obtain ⟨msg', hmsg', heq⟩ := List.mem_map.mp hmem
        exact hdup (heq ▸ (hrest msg' hmsg').2)
      rw [List.map_append]
      exact hnodup.append (List.nodup_singleton _) (by simpa using hnew)
    · intro msg' hmsg'
      rcases List.mem_append.mp hmsg' with hmsg' | hmsg'
      · exact ⟨(hrest msg' hmsg').1, Finset.mem_insert_of_mem (hrest msg' hmsg').2⟩
      · rw [List.mem_singleton.mp hmsg']
        exact ⟨hmsg, Finset.mem_insert_self _ _⟩

lemma consStarted_addMsg (inst : Instance) (msg : PriorityMsg) :
    (inst.addMsg msg).consStarted = inst.consStarted := by
  unfold Instance.addMsg
  split_ifs <;> rfl

lemma Collected.own_mem (h : Collected inner own inst) : own ∈ inst.msgs := by
  obtain ⟨rest, hmsgs, -⟩ := h.msgs
  rw [hmsgs]
  exact List.mem_cons_self

/-- If the calculation fails on collected messages, one of them has another duty or is not well
formed. -/
lemma Collected.exists_of_not_valid (h : Collected inner own inst)
    (hown : own.peerId = inner.localId) (hvalid : ¬ Valid inner.sha256 inst.msgs) :
    ∃ msg ∈ inst.msgs, msg.duty ≠ own.duty ∨ ¬ MsgWellFormed inner.sha256 msg := by
  by_contra hall
  push Not at hall
  obtain ⟨rest, hmsgs, hnodup, hrest⟩ := h.msgs
  refine hvalid ⟨by simp [hmsgs], ?_, ?_, fun msg hmsg => (hall msg hmsg).2⟩
  · exact fun msg hmsg msg' hmsg' => (hall msg hmsg).1.trans (hall msg' hmsg').1.symm
  · rw [hmsgs, List.map_cons, List.nodup_cons]
    refine ⟨fun hmem => ?_, hnodup⟩
    obtain ⟨msg, hmsg, heq⟩ := List.mem_map.mp hmem
    exact (hrest msg hmsg).1.ne_local (heq.trans hown)

lemma startConsensus_ok {result : PriorityResult}
    (h : inner.startConsensus inst = .ok result) : result.msgs = inst.msgs := by
  have hresult := Except.mapError_ok_iff.mp h
  rw [((calculateResult_ok_iff inner.sha256).mp hresult).2]

lemma startConsensus_error {error : Error} (h : inner.startConsensus inst = .error error) :
    (∃ e, error = .calculateResult e) ∧ ¬ Valid inner.sha256 inst.msgs := by
  obtain ⟨e, he, rfl⟩ := Except.mapError_error_iff.mp h
  refine ⟨⟨e, rfl⟩, fun hvalid => ?_⟩
  rw [(calculateResult_ok_iff inner.sha256).mpr ⟨hvalid, rfl⟩] at he
  cases he

/-- **The end of a turn keeps the invariant.** -/
lemma Inv.endTurn {timedOut : Bool} {s : Engine}
    (hrequests : ∀ msg ∈ s.requests, FromPeer inner msg)
    (hresponses : ∀ msg ∈ s.responses, FromPeer inner msg) (hawaiting : inner.localId ∉ s.awaiting)
    (hproposed : ∀ result ∈ s.proposed, own ∈ result.msgs) (hcollected : Collected inner own inst)
    (hlength : s.proposed.length = if inst.consStarted then 1 else 0)
    (hold : timedOut = false → s.timedOut → inst.consStarted)
    (hnew : timedOut → inst.consStarted = false) :
    Inv inner own (s.endTurn inner inst timedOut) := by
  have hcollected' : Collected inner own { inst with consStarted := true } := ⟨hcollected.msgs⟩
  unfold Engine.endTurn
  split_ifs with hstarts
  · -- consensus is started for the first time
    have hnot : inst.consStarted = false := by
      rcases Bool.or_eq_true_iff.mp hstarts with h | h
      · exact hnew h
      · simpa using (Bool.and_eq_true_iff.mp h).1
    have hnone : s.proposed = [] := by
      rw [hnot] at hlength
      exact List.length_eq_zero_iff.mp (by simpa using hlength)
    dsimp only
    split
    · rename_i result hresult
      refine ⟨hrequests, hresponses, hawaiting, ?_, ?_⟩
      · exact ⟨hcollected', by simp [hnone], fun _ => rfl⟩
      · intro result' hresult'
        rw [hnone, List.nil_append, List.mem_singleton] at hresult'
        rw [hresult', startConsensus_ok hresult]
        exact hcollected'.own_mem
    · rename_i e he
      obtain ⟨hcalc, hinvalid⟩ := startConsensus_error he
      refine ⟨hrequests, hresponses, hawaiting, ?_, hproposed⟩
      exact ⟨hcollected', by simp [hnone], fun _ => .inr hcalc, fun _ _ => hinvalid⟩
  · have hfalse : timedOut = false := by
      cases timedOut with
      | false => rfl
      | true => exact absurd rfl hstarts
    exact ⟨hrequests, hresponses, hawaiting, ⟨hcollected, hlength, hold hfalse⟩, hproposed⟩

lemma inner_handleRequest_ok {peer : PeerId} {added : AddOutcome}
    {duty : Core.Duty} (h : inner.handleRequest peer msg added = .ok duty) :
    peer = msg.peerId ∧ inner.msgValidator msg = .ok () := by
  unfold Inner.handleRequest at h
  split_ifs at h with hpeer
  · cases h
  · obtain ⟨_, hvalid, -⟩ := Except.bind_ok_iff.mp h
    exact ⟨not_not.mp hpeer, hvalid⟩

lemma acceptsResponse_iff {peer : PeerId} :
    inner.acceptsResponse peer msg ↔ peer = msg.peerId ∧ inner.msgValidator msg = .ok () := by
  unfold Inner.acceptsResponse
  rw [Bool.and_eq_true_iff, decide_eq_true_iff]
  cases inner.msgValidator msg with
  | error e => simp [Except.isOk, Except.toBool]
  | ok u => simp [Except.isOk, Except.toBool]

lemma Inv.handleRequest {s : Engine} (h : Inv inner own s) {peer : PeerId}
    {added : AddOutcome} (hpeer : peer ≠ inner.localId) :
    Inv inner own (s.handleRequest inner own peer msg added) := by
  unfold Engine.handleRequest
  split
  · exact h
  · rename_i duty hduty
    obtain ⟨rfl, hverified⟩ := inner_handleRequest_ok hduty
    split_ifs
    · refine ⟨?_, h.responses, h.awaiting, h.phase, h.proposed⟩
      intro msg' hmsg'
      rcases List.mem_append.mp hmsg' with hmsg' | hmsg'
      · exact h.requests msg' hmsg'
      · rw [List.mem_singleton.mp hmsg']
        exact ⟨hpeer, hverified⟩
    · exact h

lemma Inv.handleResponse {s : Engine} (h : Inv inner own s) {peer : PeerId}
    {msg : Option PriorityMsg} : Inv inner own (s.handleResponse inner peer msg) := by
  unfold Engine.handleResponse
  split_ifs with hpeer
  · have hawaiting : inner.localId ∉ s.awaiting.erase peer := fun hmem =>
      h.awaiting (List.mem_of_mem_erase hmem)
    dsimp only
    split
    · exact ⟨h.requests, h.responses, hawaiting, h.phase, h.proposed⟩
    · split_ifs with haccepts
      · refine ⟨h.requests, ?_, hawaiting, h.phase, h.proposed⟩
        obtain ⟨rfl, hverified⟩ := acceptsResponse_iff.mp haccepts
        intro msg' hmsg'
        rcases List.mem_append.mp hmsg' with hmsg' | hmsg'
        · exact h.responses msg' hmsg'
        · rw [List.mem_singleton.mp hmsg']
          exact ⟨fun heq => h.awaiting (heq ▸ hpeer), hverified⟩
      · exact ⟨h.requests, h.responses, hawaiting, h.phase, h.proposed⟩
  · exact h

lemma Inv.recv {s s' : Engine} (h : Inv inner own s)
    (hs : s.phase = .running inst) (hmsg : FromPeer inner msg)
    (hrequests : ∀ msg ∈ s'.requests, FromPeer inner msg)
    (hresponses : ∀ msg ∈ s'.responses, FromPeer inner msg)
    (hawaiting : s'.awaiting = s.awaiting) (hproposed : s'.proposed = s.proposed)
    (htimedOut : s'.timedOut = s.timedOut) :
    Inv inner own (s'.endTurn inner (inst.addMsg msg) false) := by
  have hphase := h.phase
  unfold PhaseOk at hphase
  rw [hs] at hphase
  obtain ⟨hcollected, hlength, hold⟩ := hphase
  refine Inv.endTurn hrequests hresponses ?_ ?_ (hcollected.addMsg hmsg) ?_ ?_ ?_
  · exact hawaiting ▸ h.awaiting
  · exact hproposed ▸ h.proposed
  · rw [hproposed, consStarted_addMsg]
    exact hlength
  · rw [htimedOut, consStarted_addMsg]
    exact fun _ => hold
  · exact fun hfalse => absurd hfalse Bool.false_ne_true

/-- **Every event keeps the invariant.** -/
lemma Inv.step {s : Engine} (h : Inv inner own s) {event : Event}
    (hself : ¬ event.FromSelf inner.localId) : Inv inner own (s.step inner own event) := by
  have hphase := h.phase
  unfold PhaseOk at hphase
  unfold Engine.step
  split
  · -- `start`
    rename_i hs
    rw [hs] at hphase
    refine ⟨h.requests, h.responses, by simp, ⟨⟨[], rfl, List.nodup_nil, by simp⟩, ?_, ?_⟩, h.proposed⟩
    · simp [hphase.1]
    · simp [hphase.2]
  · exact h.handleRequest hself
  · exact h.handleResponse
  · exact ⟨by simp, h.responses, h.awaiting, h.phase, h.proposed⟩
  · exact ⟨h.requests, h.responses, h.awaiting, h.phase, h.proposed⟩
  · -- `recvRequest`
    rename_i inst hs
    split
    · exact h
    · rename_i msg rest hrequests
      have hall := h.requests
      rw [hrequests, List.forall_mem_cons] at hall
      exact h.recv hs hall.1 hall.2 h.responses rfl rfl rfl
  · -- `recvResponse`
    rename_i inst hs
    split
    · exact h
    · rename_i msg rest hresponses
      have hall := h.responses
      rw [hresponses, List.forall_mem_cons] at hall
      exact h.recv hs hall.1 h.requests hall.2 rfl rfl rfl
  · -- `exchangeTimeout`
    rename_i inst hs
    rw [hs] at hphase
    obtain ⟨hcollected, hlength, hold⟩ := hphase
    split_ifs with hstarted
    · exact h
    · refine Inv.endTurn h.requests h.responses h.awaiting h.proposed hcollected hlength ?_ ?_
      · exact fun hfalse => absurd hfalse.symm Bool.false_ne_true
      · exact fun _ => by simpa using hstarted
  · -- `cancelled`
    rename_i inst hs
    rw [hs] at hphase
    obtain ⟨hcollected, hlength, hold⟩ := hphase
    refine ⟨h.requests, h.responses, h.awaiting, ⟨hcollected, ?_, ?_, ?_⟩, h.proposed⟩
    · rw [hlength]
      split_ifs <;> simp
    · exact fun htimedOut => .inl (by rw [hlength, if_pos (hold htimedOut)])
    · exact fun e he => by cases he
  · exact h

lemma inv_init : Inv inner own {} where
  requests := List.forall_mem_nil _
  responses := List.forall_mem_nil _
  awaiting := List.not_mem_nil
  phase := ⟨rfl, rfl⟩
  proposed := List.forall_mem_nil _

lemma inv_run (events : List Event) (hself : ∀ e ∈ events, ¬ e.FromSelf inner.localId) :
    Inv inner own (run inner own events) := by
  induction events using List.reverseRecOn with
  | nil => exact inv_init
  | append_singleton events event ih =>
    have hpast := ih fun e he => hself e (List.mem_append_left _ he)
    rw [run, List.foldl_append]
    exact hpast.step (hself event (by simp))

variable (inner own) in
/-- **What holds in every schedule**, whatever verified messages the peers send, if the node does not
send requests to itself (`hself`) and its own message carries its id.  An instance fails only because
of a message with another duty or of bad form; it proposes once at most, and after its timeout unless
it has failed; and its own message is in what it proposes. -/
theorem survives (hown : own.peerId = inner.localId) (events : List Event)
    (hself : ∀ e ∈ events, ¬ e.FromSelf inner.localId) :
    let s := run inner own events
    (∀ inst e, s.phase = .returned inst (.calculateResult e) →
      ∃ msg ∈ inst.msgs, (msg = own ∨ inner.msgValidator msg = .ok ()) ∧
        (msg.duty ≠ own.duty ∨ ¬ MsgWellFormed inner.sha256 msg)) ∧
    s.proposed.length ≤ 1 ∧
    (s.timedOut → s.proposed.length = 1 ∨
      ∃ inst e, s.phase = .returned inst (.calculateResult e)) ∧
    ∀ result ∈ s.proposed, own ∈ result.msgs := by
  intro s
  have hinv : Inv inner own s := inv_run events hself
  have hphase := hinv.phase
  unfold PhaseOk at hphase
  refine ⟨?_, ?_, ?_, hinv.proposed⟩
  · intro inst e hs
    rw [hs] at hphase
    obtain ⟨hcollected, -, -, hinvalid⟩ := hphase
    obtain ⟨msg, hmsg, hbad⟩ := hcollected.exists_of_not_valid hown (hinvalid e rfl)
    refine ⟨msg, hmsg, ?_, hbad⟩
    obtain ⟨rest, hmsgs, -, hrest⟩ := hcollected.msgs
    rw [hmsgs] at hmsg
    exact (List.mem_cons.mp hmsg).imp_right fun hmem => (hrest msg hmem).1.verified
  · split at hphase
    · rw [hphase.1]
      exact Nat.zero_le 1
    · rw [hphase.2.1]
      split_ifs <;> simp
    · exact hphase.2.1
  · intro htimedOut
    split at hphase
    · rw [hphase.2] at htimedOut
      cases htimedOut
    · exact .inl (by rw [hphase.2.1, if_pos (hphase.2.2 htimedOut)])
    · rename_i inst error hs
      refine (hphase.2.2.1 htimedOut).imp_right ?_
      rintro ⟨e, rfl⟩
      exact ⟨inst, e, hs⟩

/-! ### Two peers -/

/-- Signatures that are the key of the signer. -/
def plainCrypto : Consensus.Crypto Bytes Bytes where
  sha256 := chunk
  sign key _ := .ok key
  recover _ signature := .ok signature

def plainKey (peer : PeerId) : Except Error Bytes := .ok (Wire.utf8 peer)

def pairKeys : HashMap PeerId Bytes :=
  ((∅ : HashMap PeerId Bytes).insert "a" (Wire.utf8 "a")).insert "b" (Wire.utf8 "b")

def pairInner : Inner where
  localId := "a"
  peers := ["a", "b"]
  msgValidator := verifyMsg plainCrypto pairKeys
  minRequired := 2
  sha256 := chunk
  o := .stored _

/-- A message of a peer that proposes one priority for each of some topics. -/
def plainMsg (peer : PeerId) (topics : List UInt8) : PriorityMsg :=
  ⟨some ⟨1, 12⟩, topics.map fun topic => ⟨some ⟨"", [topic]⟩, [⟨"", [7]⟩]⟩, peer, Wire.utf8 peer⟩

def answered (topics : List UInt8) : List Event :=
  [.start, .response "b" (some (plainMsg "b" topics)), .recvResponse]

/-- The other peer answers with the same topic. -/
theorem survives_answered :
    let s := run pairInner (plainMsg "a" [1]) (answered [1])
    (∀ e ∈ answered [1], ¬ e.FromSelf pairInner.localId) ∧ s.proposed.length = 1 ∧
      ∀ result ∈ s.proposed, plainMsg "a" [1] ∈ result.msgs := by
  have hself : ∀ e ∈ answered [1], ¬ e.FromSelf pairInner.localId := by
    simp [answered, Event.FromSelf]
  obtain ⟨-, -, -, hown⟩ := survives pairInner (plainMsg "a" [1]) rfl (answered [1]) hself
  exact ⟨hself, by decide +kernel, hown⟩

def error? (s : Engine) : Option Error :=
  match s.phase with
  | .returned _ error => some error
  | _ => none

/-- The other peer answers with a signed message that has a topic twice: nothing is proposed and
the instance ends. -/
theorem malformed_response_ends_instance :
    newMsgVerifier plainCrypto plainKey pairInner.peers = .ok pairInner.msgValidator ∧
      pairInner.msgValidator (plainMsg "b" [1, 1]) = .ok () ∧
      (run pairInner (plainMsg "a" [1]) (answered [1, 1])).error? =
        some (.calculateResult .duplicateTopic) := by
  exact ⟨rfl, by decide +kernel, by decide +kernel⟩

end Engine

end Pluto.Priority
