import Pluto.Consensus.Component
import Pluto.Lib.Attempt
import Pluto.Lib.Product

/-!
# The lifecycle of consensus instances

An instance is what `propose`, `participate` and `handle` of one duty share
(`crates/consensus/src/instance.rs`): flags that let each entrypoint in once and one of them start
the runner, and channels whose receivers can be taken once.  The component keeps the instances by
duty (`get_instance_io` of `component.rs`), creates them on demand, and drops one when the deadliner
emits its duty.  A caller that has got hold of an instance keeps it, so a duty can have several of
them at the same time, of which the map knows the last one.

`Process` is the state of all of this, with where each call stands, and `Step` is the interleaving:
one constructor for each action on shared state.  The runner asks the deadliner after it has won the
start, and runs the core only if the duty is scheduled.  The core of an instance is the machine of
`Qbft.Run`; what arrives in its channels is left open, so that a turn may have any event.  Whether
the input channels are full or closed, and what a caller waits for at the end, is left open too.

`LifecycleStep` puts the process beside its deadliner.
-/

namespace Pluto.Consensus

open Ssz
open Pluto.Core (Duty)
open Corepb (Decoder QbftConsensusMsg)

/-! ## Instances -/

/-- The channels whose receivers are taken by the runner, and by the proposer for the decision
time. -/
inductive Channel
  | recv
  | hash
  | value
  | verify
  | decidedAt
  deriving DecidableEq, Repr

inductive InstanceError
  | alreadyParticipated
  | alreadyProposed
  | receiverAlreadyTaken (channel : Channel)
  deriving DecidableEq, Repr

/-- The lifecycle flags of an instance, and the receivers that were taken. -/
structure InstanceIo where
  participated : Bool
  proposed : Bool
  running : Bool
  taken : Channel → Bool

namespace InstanceIo

def new : InstanceIo := ⟨false, false, false, fun _ => false⟩

def markParticipated : Attempt InstanceError InstanceIo Unit := do
  let io ← get
  if io.participated then throw .alreadyParticipated
  else set { io with participated := true }

def markProposed : Attempt InstanceError InstanceIo Unit := do
  let io ← get
  if io.proposed then throw .alreadyProposed
  else set { io with proposed := true }

/-- Whether this call owns starting the runner.  The flag is never reset. -/
def maybeStart (io : InstanceIo) : Bool × InstanceIo :=
  if io.running then (false, io) else (true, { io with running := true })

def takeReceiver (channel : Channel) : Attempt InstanceError InstanceIo Unit := do
  let io ← get
  if io.taken channel then throw (.receiverAlreadyTaken channel)
  else set { io with taken := Function.update io.taken channel true }

def takeInputs : Attempt InstanceError InstanceIo Unit := do
  takeReceiver .recv
  takeReceiver .hash
  takeReceiver .value
  takeReceiver .verify

end InstanceIo

/-! ## Calls -/

inductive Entrypoint
  | propose
  | participate
  deriving DecidableEq, Repr

structure Node (SK PK : Type) where
  crypto : Crypto SK PK
  decoder : Decoder
  component : Component PK
  definition : Duty → Qbft.Definition
  peerIdx : Int64
  compareAttestations : Bool
  /-- Whether `Feature::ConsensusParticipate` is enabled. -/
  consensusParticipate : Bool

def Node.machine {SK PK : Type} (node : Node SK PK) (duty : Duty) :
    LoggedMachine (Qbft.State HashRoot) (Qbft.Event HashRoot) (Qbft.Output HashRoot) Qbft.Stop :=
  Qbft.machine (node.definition duty) node.peerIdx.toInt

/-- Whether a call gets as far as the instance of its duty. -/
def Entrypoint.admits {SK PK : Type} (node : Node SK PK) (duty : Duty) : Entrypoint → Bool
  | .propose => true
  | .participate =>
    duty.dutyType ≠ .aggregator && duty.dutyType ≠ .syncContribution && node.consensusParticipate

def Entrypoint.mark : Entrypoint → Attempt InstanceError InstanceIo Unit
  | .propose => InstanceIo.markProposed
  | .participate => InstanceIo.markParticipated

/-- Where a call stands, with the instance it has got hold of. -/
inductive Call
  | idle
  | entered (entry : Entrypoint) (duty : Duty) (id : ℕ)
  /-- `propose` has marked the instance. -/
  | marked (duty : Duty) (id : ℕ)
  /-- The call is about to try to start the runner. -/
  | ready (entry : Entrypoint) (duty : Duty) (id : ℕ)
  /-- The call owns the runner, and asks the deadliner. -/
  | starting (duty : Duty) (id : ℕ)
  /-- The duty was scheduled. -/
  | scheduled (duty : Duty) (id : ℕ)
  /-- The call waits for the core it runs. -/
  | running
  /-- The call waits for the result of an instance that another call runs. -/
  | waiting
  /-- `handle` has admitted a message, and asks the deadliner. -/
  | admitting (duty : Duty)
  /-- `handle` is about to look the instance up. -/
  | queueing (duty : Duty)
  /-- `handle` sends the message to the instance. -/
  | sending
  deriving DecidableEq

inductive TrySend
  | sent
  | full
  | closed
  deriving DecidableEq, Repr

/-- The sends of `propose`: whether a channel was closed, or `none` if one was full. -/
def sendInputs (compareAttestations : Bool) (value hash verify : TrySend) : Option Bool :=
  if value = .full ∨ hash = .full ∨ (compareAttestations ∧ verify = .full) then none
  else some (value = .closed || hash = .closed || (compareAttestations && verify = .closed))

def afterMark : Entrypoint → Duty → ℕ → Except InstanceError Unit → Call
  | _, _, _, .error _ => .idle
  | .propose, duty, id, .ok () => .marked duty id
  | .participate, duty, id, .ok () => .ready .participate duty id

def afterSend (duty : Duty) (id : ℕ) (io : InstanceIo) : Option Bool → Call × InstanceIo
  | none => (.idle, io)
  | some true => (if io.running then .waiting else .idle, io)
  | some false =>
    match Attempt.exec (InstanceIo.takeReceiver .decidedAt) io with
    | (.ok (), io') => (.ready .propose duty id, io')
    | (.error _, io') => (.idle, io')

def afterStart (duty : Duty) (id : ℕ) : Entrypoint → Bool → Call
  | _, true => .starting duty id
  | .propose, false => .waiting
  | .participate, false => .idle

/-- The states in which a call awaits something; there it may return, or its future be dropped.  An
answer of the deadliner may have come and not been looked at. -/
def Call.awaits : Call → Bool
  | .starting _ _ | .scheduled _ _ | .running | .waiting => true
  | .admitting _ | .queueing _ | .sending => true
  | _ => false

/-! ## The process -/

/-- An instance that was created for a duty, and its core, once it is run. -/
structure Slot where
  duty : Duty
  io : InstanceIo
  core : Option (LoggedMachine.Run (Qbft.State HashRoot) (Qbft.Event HashRoot)
    (Qbft.Output HashRoot) Qbft.Stop)

structure Process (ι : Type) where
  /-- The map of the component. -/
  instances : HashMap Duty ℕ
  /-- The instances created so far, with ids below `created`. -/
  slots : ℕ → Slot
  created : ℕ
  calls : ι → Call
  /-- The duty that the cleanup task has received and not yet removed. -/
  cleaner : Option Duty

inductive LifecycleLabel
  | internal
  /-- The deadliner answers a call. -/
  | add (duty : Duty) (outcome : Core.Deadline.AddOutcome)
  /-- `qbft::run` is started. -/
  | launch (duty : Duty)
  /-- A turn of the core of a duty; a decision is dispatched to the subscribers in it. -/
  | turn (duty : Duty) (out : Option (Qbft.Output HashRoot))
  /-- The cleanup task receives an expired duty. -/
  | expired (duty : Duty)

namespace Process

variable {ι : Type}

def start (ι : Type) : Process ι where
  instances := ∅
  slots := fun _ => ⟨Core.Deadline.sentinelDuty, .new, none⟩
  created := 0
  calls := fun _ => .idle
  cleaner := none

def getInstanceIo (duty : Duty) (st : Process ι) : ℕ × Process ι :=
  match st.instances.lookup duty with
  | some id => (id, st)
  | none =>
    (st.created, { st with
      instances := st.instances.insert duty st.created
      slots := Function.update st.slots st.created ⟨duty, .new, none⟩
      created := st.created + 1 })

variable [DecidableEq ι]

def setCall (caller : ι) (call : Call) (st : Process ι) : Process ι :=
  { st with calls := Function.update st.calls caller call }

def setSlot (id : ℕ) (slot : Slot) (st : Process ι) : Process ι :=
  { st with slots := Function.update st.slots id slot }

/-- A caller goes on, and leaves the flags of an instance changed. -/
def work (caller : ι) (call : Call) (id : ℕ) (io : InstanceIo) (st : Process ι) : Process ι :=
  (st.setCall caller call).setSlot id { st.slots id with io := io }

variable {SK PK : Type} [DecidableEq PK]

inductive Step (node : Node SK PK) : Process ι → LifecycleLabel → Process ι → Prop
  | enter {st : Process ι} {caller : ι} {entry : Entrypoint} {duty : Duty}
      (idle : st.calls caller = .idle) (admits : entry.admits node duty = true) :
      Step node st .internal
        ((st.getInstanceIo duty).2.setCall caller (.entered entry duty (st.getInstanceIo duty).1))
  | mark {st : Process ι} {caller : ι} {entry : Entrypoint} {duty : Duty} {id : ℕ}
      (entered : st.calls caller = .entered entry duty id) :
      Step node st .internal
        (st.work caller (afterMark entry duty id (Attempt.exec entry.mark (st.slots id).io).1) id
          (Attempt.exec entry.mark (st.slots id).io).2)
  | send {st : Process ι} {caller : ι} {duty : Duty} {id : ℕ} (value hash verify : TrySend)
      (marked : st.calls caller = .marked duty id) :
      Step node st .internal
        (st.work caller
          (afterSend duty id (st.slots id).io
            (sendInputs node.compareAttestations value hash verify)).1 id
          (afterSend duty id (st.slots id).io
            (sendInputs node.compareAttestations value hash verify)).2)
  | start {st : Process ι} {caller : ι} {entry : Entrypoint} {duty : Duty} {id : ℕ}
      (ready : st.calls caller = .ready entry duty id) :
      Step node st .internal
        (st.work caller (afterStart duty id entry (st.slots id).io.maybeStart.1) id
          (st.slots id).io.maybeStart.2)
  | schedule {st : Process ι} {caller : ι} {duty : Duty} {id : ℕ}
      (outcome : Core.Deadline.AddOutcome) (starting : st.calls caller = .starting duty id) :
      Step node st (.add duty outcome)
        (st.setCall caller (if outcome = .scheduled then .scheduled duty id else .idle))
  | launch {st : Process ι} {caller : ι} {duty : Duty} {id : ℕ} {io : InstanceIo}
      (scheduled : st.calls caller = .scheduled duty id)
      (takes : Attempt.exec InstanceIo.takeInputs (st.slots id).io = (.ok (), io)) :
      Step node st (.launch duty)
        ((st.setCall caller .running).setSlot id
          { st.slots id with io := io, core := some (node.machine duty).start })
  | launchFailed {st : Process ι} {caller : ι} {duty : Duty} {id : ℕ} {io : InstanceIo}
      {e : InstanceError} (scheduled : st.calls caller = .scheduled duty id)
      (takes : Attempt.exec InstanceIo.takeInputs (st.slots id).io = (.error e, io)) :
      Step node st .internal (st.work caller .idle id io)
  | turn {st : Process ι} {id : ℕ} {core} (e : Qbft.Event HashRoot)
      (launched : (st.slots id).core = some core) (runs : core.stop = none) :
      Step node st
        (.turn (st.slots id).duty ((node.machine (st.slots id).duty).step core.state e).out)
        (st.setSlot id
          { st.slots id with core := some ((node.machine (st.slots id).duty).act core e) })
  | handle {st : Process ι} {caller : ι} {pbMsg : QbftConsensusMsg} {duty : Duty} {m : Msg}
      (idle : st.calls caller = .idle)
      (admitted : validate node.crypto node.decoder node.component pbMsg = .ok (duty, m)) :
      Step node st .internal (st.setCall caller (.admitting duty))
  | answer {st : Process ι} {caller : ι} {duty : Duty} (outcome : Core.Deadline.AddOutcome)
      (admitting : st.calls caller = .admitting duty) :
      Step node st (.add duty outcome)
        (st.setCall caller (if outcome = .scheduled then .queueing duty else .idle))
  | queue {st : Process ι} {caller : ι} {duty : Duty}
      (queueing : st.calls caller = .queueing duty) :
      Step node st .internal ((st.getInstanceIo duty).2.setCall caller .sending)
  | leave {st : Process ι} {caller : ι} (awaits : (st.calls caller).awaits = true) :
      Step node st .internal (st.setCall caller .idle)
  | expire {st : Process ι} {duty : Duty} (free : st.cleaner = none) :
      Step node st (.expired duty) { st with cleaner := some duty }
  | remove {st : Process ι} {duty : Duty} (held : st.cleaner = some duty) :
      Step node st .internal
        { st with instances := st.instances.erase duty, cleaner := none }

end Process

/-! ## The process beside its deadliner -/

/-- The step of the deadliner that a step of the process goes with. -/
def LifecycleLabel.sync : LifecycleLabel → Option Core.Deadline.Label
  | .add duty outcome => some (.add duty outcome)
  | .expired duty => some (.recv duty)
  | _ => none

/-- A process, and a deadliner whose timers fire strictly late. -/
abbrev LifecycleStep {SK PK ι : Type} [DecidableEq PK] [DecidableEq ι]
    (calculator : Core.Deadline.DeadlineCalculator) (node : Node SK PK) :
    Core.Deadline.Deadliner × Process ι → Core.Deadline.Label ⊕ LifecycleLabel →
      Core.Deadline.Deadliner × Process ι → Prop :=
  Product (Core.Deadline.Deadliner.Step calculator Core.Deadline.strictlyAfter)
    (Process.Step node) Core.Deadline.takenAlone LifecycleLabel.sync

end Pluto.Consensus
