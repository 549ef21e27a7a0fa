import Pluto.Consensus.Transport
import Pluto.Qbft.Values

/-!
# The tasks of one instance

`crates/consensus/src/qbft/runner.rs` starts one blocking task for the QBFT core and lets four
others feed it: `propose` sends the local value and then its hash, `handle` queues inbound messages,
`process_receives` caches the values of a message and forwards it, and a bridge for each channel
moves what arrives into the channel of the core.  `RunState` holds the channels between them and
where each task stands; `Step` is the interleaving, one constructor for each action between two
points at which another task may run.

The core is the machine of `Qbft.Run`.  A turn of its loop that calls `Transport::broadcast` is not
one action: the call resolves its hashes one after the other, and the other tasks go on meanwhile.
So such a turn opens a `Broadcasting` record, and the machine moves on when the call returns.

A message of the core is a shared pointer to the wrapper it was made of, which `broadcast` gets back
by a downcast.  The model's core sees the fields only; `Downcast` recovers the wrapper among the
messages delivered to the core.

The verify channel, the sniffer and the metrics do not touch any of this and are left out.
-/

namespace Pluto.Consensus

open Corepb Ssz

/-- Receive buffer size. -/
def recvBufferSize : ℕ := 100

/-- What `run_instance` is given. -/
structure Instance (SK PK : Type) where
  crypto : Crypto SK PK
  decoder : Decoder
  component : Component PK
  definition : Qbft.Definition
  duty : Core.Duty
  peerIdx : Int64
  privkey : SK

/-- Where `propose` stands. -/
inductive ProposeTask
  | idle
  | sendValue (value : Any) (hash : HashRoot)
  | sendHash (hash : HashRoot)
  | returned

/-- Where `process_receives` stands. -/
inductive ReceiveTask
  | waiting
  | forwarding (msg : Msg)
  | returned

/-- A call of `Transport::broadcast`: the turn of the core that makes it, the downcast
justification, the hashes still to resolve, the values found so far, and whether the message is
made and only the external broadcaster is left. -/
structure Broadcasting where
  event : Qbft.Event HashRoot
  request : Qbft.BroadcastRequest HashRoot
  justification : List MsgHead
  pending : List HashRoot
  values : ValueMap
  created : Bool

/-- The channels of an instance and its tasks. -/
structure RunState where
  /-- Set by `mark_proposed`. -/
  proposed : Bool
  propose : ProposeTask
  hash : Option HashRoot
  hashBridge : Option HashRoot
  coreHash : Option HashRoot
  recv : List Msg
  receive : ReceiveTask
  store : ValueStore
  /-- The detached self-send tasks of earlier broadcasts. -/
  selfSends : List Msg
  innerRecv : List Msg
  recvBridge : Option Msg
  coreRecv : List Msg
  /-- What the core has received. -/
  delivered : List Msg
  core : LoggedMachine.Run (Qbft.State HashRoot) (Qbft.Event HashRoot) (Qbft.Output HashRoot)
    Qbft.Stop
  broadcasting : Option Broadcasting
  transportError : Option TransportError

/-- The wrapper behind a message of the core. -/
def Downcast (delivered : List Msg) (j : Qbft.Msg HashRoot) (head : MsgHead) : Prop :=
  ∃ m ∈ delivered, (j = m.toCore ∧ head = m.toMsgHead) ∨ (head ∈ m.justification ∧ j = head.toCore)

/-- What the core takes out of its channels for a turn of its loop. -/
inductive Arm : RunState → Qbft.Event HashRoot → RunState → Prop
  | input {st : RunState} {hash : HashRoot} (sent : Except Qbft.QbftError Unit)
      (held : st.coreHash = some hash) : Arm st (.input hash sent) { st with coreHash := none }
  | inputClosed {st : RunState} : Arm st .inputClosed st
  | receive {st : RunState} {m : Msg} {rest : List Msg} (order : Qbft.HashOrder HashRoot)
      (compared sent : Except Qbft.QbftError Unit) (queued : st.coreRecv = m :: rest) :
      Arm st (.receive m.toWire order compared sent)
        { st with coreRecv := rest, delivered := m :: st.delivered }
  | receiveClosed {st : RunState} : Arm st .receiveClosed st
  | timer {st : RunState} (sent : Except Qbft.QbftError Unit) : Arm st (.timer sent) st
  | timerClosed {st : RunState} : Arm st .timerClosed st
  | canceled {st : RunState} : Arm st .canceled st

namespace Instance

variable {SK PK : Type} [DecidableEq PK] (r : Instance SK PK)

/-- The core of the instance. -/
def machine : LoggedMachine (Qbft.State HashRoot) (Qbft.Event HashRoot) (Qbft.Output HashRoot)
    Qbft.Stop :=
  Qbft.machine r.definition r.peerIdx.toInt

def init : RunState where
  proposed := false
  propose := .idle
  hash := none
  hashBridge := none
  coreHash := none
  recv := []
  receive := .waiting
  store := ⟨none, ∅⟩
  selfSends := []
  innerRecv := []
  recvBridge := none
  coreRecv := []
  delivered := []
  core := r.machine.start
  broadcasting := none
  transportError := none

/-- The core goes on after a broadcast that returned. -/
def resume (st : RunState) (b : Broadcasting) (sent : Except Qbft.QbftError Unit) : RunState :=
  { st with core := r.machine.act st.core (b.event.withSent sent), broadcasting := none }

/-- The broadcast failed: the runner keeps the error, and the core sees a cancelled context. -/
def fail (st : RunState) (b : Broadcasting) (e : TransportError) : RunState :=
  { r.resume st b (.error .contextCanceled) with transportError := some e }

/-- One action of one task. -/
inductive Step : RunState → RunState → Prop
  | propose {st : RunState} {value : DecodedValue} {hash : HashRoot}
      (hashed : value.hash r.crypto.sha256 = .ok hash) (first : st.proposed = false) :
      Step st { st with proposed := true, propose := .sendValue value.toAny hash }
  | sendValue {st : RunState} {value : Any} {hash : HashRoot}
      (at_send : st.propose = .sendValue value hash) (free : st.store.valueRx = none) :
      Step st
        { st with propose := .sendHash hash, store := { st.store with valueRx := some value } }
  -- A full channel is an error; a closed one is not, and the hash is sent all the same.  The
  -- receiver belongs to the transport, which outlives the core.
  | sendValueFull {st : RunState} {value held : Any} {hash : HashRoot}
      (at_send : st.propose = .sendValue value hash) (full : st.store.valueRx = some held) :
      Step st { st with propose := .returned }
  | sendValueClosed {st : RunState} {value : Any} {hash : HashRoot}
      (at_send : st.propose = .sendValue value hash) (ended : st.core.stop.isSome) :
      Step st { st with propose := .sendHash hash }
  | sendHash {st : RunState} {hash : HashRoot} (at_send : st.propose = .sendHash hash)
      (free : st.hash = none) : Step st { st with propose := .returned, hash := some hash }
  | sendHashFailed {st : RunState} {hash : HashRoot} (at_send : st.propose = .sendHash hash) :
      Step st { st with propose := .returned }
  | takeHash {st : RunState} {hash : HashRoot} (queued : st.hash = some hash)
      (free : st.hashBridge = none) : Step st { st with hash := none, hashBridge := some hash }
  | putHash {st : RunState} {hash : HashRoot} (held : st.hashBridge = some hash)
      (free : st.coreHash = none) : Step st { st with hashBridge := none, coreHash := some hash }
  | handle {st : RunState} {env : HandleEnv} {pbMsg : QbftConsensusMsg} {m : Msg}
      (queued : handle r.crypto r.decoder r.component env pbMsg = .ok (some (r.duty, m)))
      (room : st.recv.length < recvBufferSize) : Step st { st with recv := st.recv ++ [m] }
  | receive {st : RunState} {m : Msg} {rest : List Msg} (waiting : st.receive = .waiting)
      (queued : st.recv = m :: rest) :
      Step st { st with
        recv := rest, receive := .forwarding m, store := st.store.setValues m.toMsgHead }
  | forward {st : RunState} {m : Msg} (held : st.receive = .forwarding m)
      (room : st.innerRecv.length < recvBufferSize) :
      Step st { st with receive := .waiting, innerRecv := st.innerRecv ++ [m] }
  | forwardClosed {st : RunState} {m : Msg} (held : st.receive = .forwarding m) :
      Step st { st with
        receive := .returned, transportError := some .receiveBufferClosed }
  | receiveCanceled {st : RunState} : Step st { st with receive := .returned }
  | selfSend {st : RunState} {m : Msg} {before after : List Msg}
      (pending : st.selfSends = before ++ m :: after)
      (room : st.innerRecv.length < recvBufferSize) :
      Step st { st with selfSends := before ++ after, innerRecv := st.innerRecv ++ [m] }
  | takeMsg {st : RunState} {m : Msg} {rest : List Msg} (queued : st.innerRecv = m :: rest)
      (free : st.recvBridge = none) :
      Step st { st with innerRecv := rest, recvBridge := some m }
  | putMsg {st : RunState} {m : Msg} (held : st.recvBridge = some m)
      (room : st.coreRecv.length < recvBufferSize) :
      Step st { st with recvBridge := none, coreRecv := st.coreRecv ++ [m] }
  | turn {st st' : RunState} {e : Qbft.Event HashRoot} (arm : Arm st e st')
      (running : st.core.stop = none) (free : st.broadcasting = none)
      (silent : ∀ req, (r.machine.step st.core.state e).out ≠ some (.broadcast req)) :
      Step st { st' with core := r.machine.act st.core e }
  | broadcast {st st' : RunState} {e : Qbft.Event HashRoot}
      {req : Qbft.BroadcastRequest HashRoot} {justification : List MsgHead} (arm : Arm st e st')
      (running : st.core.stop = none) (free : st.broadcasting = none)
      (called : (r.machine.step st.core.state e).out = some (.broadcast req))
      (downcast : List.Forall₂ (Downcast st'.delivered) (req.justification.getD []) justification) :
      Step st { st' with
        broadcasting :=
          some ⟨e, req, justification, broadcastHashes req justification, ∅, false⟩ }
  | skip {st : RunState} {b : Broadcasting} {hash : HashRoot} {rest : List HashRoot}
      (call : st.broadcasting = some b) (next : b.pending = hash :: rest)
      (known : hash = .zero ∨ (b.values.lookup hash).isSome) :
      Step st { st with broadcasting := some { b with pending := rest } }
  | lookup {st : RunState} {b : Broadcasting} {hash : HashRoot} {rest : List HashRoot}
      {store : ValueStore} {value : Any}
      (call : st.broadcasting = some b) (next : b.pending = hash :: rest) (nonZero : hash ≠ .zero)
      (unknown : b.values.lookup hash = none)
      (got : st.store.getValue r.crypto.sha256 hash = (store, .ok value)) :
      Step st { st with
        store := store
        broadcasting := some { b with pending := rest, values := b.values.insert hash value } }
  | lookupFailed {st : RunState} {b : Broadcasting} {hash : HashRoot} {rest : List HashRoot}
      {store : ValueStore} {e : TransportError}
      (call : st.broadcasting = some b) (next : b.pending = hash :: rest) (nonZero : hash ≠ .zero)
      (unknown : b.values.lookup hash = none)
      (got : st.store.getValue r.crypto.sha256 hash = (store, .error e)) :
      Step st { r.fail st b e with store := store }
  | create {st : RunState} {b : Broadcasting} {m : Msg}
      (call : st.broadcasting = some b) (resolved : b.pending = []) (first : b.created = false)
      (made : createMsg r.crypto r.duty r.privkey b.request b.justification b.values = .ok m) :
      Step st { st with
        selfSends := st.selfSends ++ [m], broadcasting := some { b with created := true } }
  | createFailed {st : RunState} {b : Broadcasting} {e : TransportError}
      (call : st.broadcasting = some b) (resolved : b.pending = []) (first : b.created = false)
      (made : createMsg r.crypto r.duty r.privkey b.request b.justification b.values = .error e) :
      Step st (r.fail st b e)
  | sent {st : RunState} {b : Broadcasting} (call : st.broadcasting = some b)
      (created : b.created = true) : Step st (r.resume st b (.ok ()))
  | sendFailed {st : RunState} {b : Broadcasting} (message : String)
      (call : st.broadcasting = some b) (created : b.created = true) :
      Step st (r.fail st b (.broadcast message))

/-- The states an instance can get into, over all interleavings. -/
def Reachable (st : RunState) : Prop := Relation.ReflTransGen r.Step r.init st

/-- The wrappers behind the COMMIT quorum of a decision: a DECIDED hands on its own justification, a
COMMIT the messages it completes to a quorum. -/
def QCommitOf (delivered : List Msg) (m : Msg) (qcommit : List (Qbft.Msg HashRoot))
    (heads : List MsgHead) : Prop :=
  if m.type = .decided then heads = m.justification
  else List.Forall₂ (Downcast delivered) qcommit heads

/-- The next message makes the core call `decide` with this value and these wrappers. -/
def Decides (st : RunState) (value : HashRoot) (heads : List MsgHead) : Prop :=
  ∃ m rest order compared sent qcommit,
    st.coreRecv = m :: rest ∧ st.core.stop = none ∧ st.broadcasting = none ∧
    (r.machine.step st.core.state (.receive m.toWire order compared sent)).out =
      some (.decide value qcommit) ∧
    QCommitOf (m :: st.delivered) m qcommit heads

end Instance

end Pluto.Consensus
