import Pluto.Lib.LoggedMachine
import Pluto.Qbft.Classify

/-!
# One execution of the core

`qbft::run` as a logged machine.  One event is one arm of the source's `select!` loop firing:
the input value, a received message, the round timer, a closed channel, or the cancellation of
the instance.  What the environment decides while the arm runs comes with the event: the result
of the compare callback, the result of the broadcast, and the iteration orders of the hash maps.
Every arm makes at most one call to `broadcast` or `decide`; that call is the output of the step.
An error of the broadcast ends the execution after the call, as in the source.

An arm whose channel is `never()` does not fire, and the event leaves the state as it is: the
input channel after the first value (`inputOpen`), the timer channel after a decision
(`timerArmed`).
-/

namespace Pluto.Qbft

variable {V : Type} [DecidableEq V] [Inhabited V]

/-! ## State, requests and events -/

/-- The key used to deduplicate upon rules. -/
structure DedupKey where
  uponRule : UponRule
  round : ℤ
  deriving DecidableEq, Repr

/-- The variables of `run`. -/
structure State (V : Type) where
  round : ℤ
  inputValue : V
  inputOpen : Bool
  ppjCache : Option (List (Msg V))
  preparedRound : ℤ
  preparedValue : V
  compareFailureRound : ℤ
  preparedJustification : Option (List (Msg V))
  qCommit : Option (List (Msg V))
  buffer : Buffer V
  dedupRules : List DedupKey
  timerArmed : Bool

/-- The fields `run` passes to `Transport::broadcast`. -/
structure BroadcastRequest (V : Type) where
  type : MessageType
  source : ℤ
  round : ℤ
  value : V
  preparedRound : ℤ
  preparedValue : V
  justification : Option (List (Msg V))

/-- The message the transport makes of a request: the justifications are rebuilt from their own
fields, so they come without justifications. -/
def BroadcastRequest.toMsg (req : BroadcastRequest V) : Msg V where
  type := req.type
  source := req.source
  round := req.round
  value := req.value
  preparedRound := req.preparedRound
  preparedValue := req.preparedValue
  justification := (req.justification.getD []).map Msg.strip

/-- What a step tells the outside. -/
inductive Output (V : Type)
  | broadcast (req : BroadcastRequest V)
  | decide (value : V) (qcommit : List (Msg V))

/-- The integer fields of a message are `i64`. -/
def Msg.IsI64 (m : Msg V) : Prop :=
  (-i64Max - 1 ≤ m.source ∧ m.source ≤ i64Max) ∧ (-i64Max - 1 ≤ m.round ∧ m.round ≤ i64Max) ∧
    (-i64Max - 1 ≤ m.preparedRound ∧ m.preparedRound ≤ i64Max)

/-- `P` holds of a message and of the messages of its justification. -/
def Msg.All (P : Msg V → Prop) (m : Msg V) : Prop := P m ∧ ∀ j ∈ m.justification, P j

instance : DecidablePred (Msg.IsI64 (V := V)) := fun m =>
  inferInstanceAs (Decidable ((-i64Max - 1 ≤ m.source ∧ m.source ≤ i64Max) ∧
    (-i64Max - 1 ≤ m.round ∧ m.round ≤ i64Max) ∧
    (-i64Max - 1 ≤ m.preparedRound ∧ m.preparedRound ≤ i64Max)))

instance (P : Msg V → Prop) [DecidablePred P] : DecidablePred (Msg.All P) := fun m =>
  inferInstanceAs (Decidable (P m ∧ ∀ j ∈ m.justification, P j))

/-- A message as the receive channel can carry it. -/
structure WireMsg (V : Type) where
  msg : Msg V
  isI64 : msg.All Msg.IsI64

/-- One arm of the event loop firing. -/
inductive Event (V : Type)
  | input (value : V) (sent : Except QbftError Unit)
  | inputClosed
  | receive (wire : WireMsg V) (order : HashOrder V) (compared sent : Except QbftError Unit)
  | receiveClosed
  | timer (sent : Except QbftError Unit)
  | timerClosed
  | canceled

/-- The state after a step, what it tells the outside, and whether it ends the execution. -/
abbrev Step (V : Type) : Type := LoggedMachine.Transition (State V) (Output V) Stop

/-! ## Helpers of `run` -/

/-- The step ends without a call. -/
def stay (s : State V) : Step V := ⟨s, none, none⟩

def returnErr (s : State V) (err : QbftError) : Step V := ⟨s, none, some (.returned err)⟩

def panicAt (s : State V) (p : Panic) : Step V := ⟨s, none, some (.panicked p)⟩

/-- A call to `t.broadcast` whose error, if any, is returned. -/
def broadcast (s : State V) (req : BroadcastRequest V) (sent : Except QbftError Unit) : Step V :=
  ⟨s, some (.broadcast req), match sent with | .ok () => none | .error e => some (.returned e)⟩

/-- Broadcasts a non-ROUND-CHANGE message for the current round. -/
def broadcastMsg (process : ℤ) (s : State V) (type : MessageType) (value : V)
    (justification : Option (List (Msg V))) (sent : Except QbftError Unit) : Step V :=
  broadcast s ⟨type, process, s.round, value, 0, default, justification⟩ sent

/-- Broadcasts a ROUND-CHANGE message with current state. -/
def broadcastRoundChange (process : ℤ) (s : State V) (sent : Except QbftError Unit) : Step V :=
  broadcast s ⟨.roundChange, process, s.round, default, s.preparedRound, s.preparedValue,
    s.preparedJustification⟩ sent

/-- Broadcasts a PRE-PREPARE with our own input value if present, otherwise caches the
justification until the input value becomes available. -/
def broadcastOwnPrePrepare (process : ℤ) (s : State V) (justification : List (Msg V))
    (sent : Except QbftError Unit) : Step V :=
  if s.ppjCache.isSome then panicAt s .justificationCache
  else if s.inputValue = default then stay { s with ppjCache := some justification }
  else broadcastMsg process s .prePrepare s.inputValue (some justification) sent

/-- Updates round and clears the rule dedup state. -/
def changeRound (s : State V) (newRound : ℤ) : State V :=
  if s.round = newRound then s
  else { s with round := newRound, dedupRules := [], ppjCache := none }

/-- The round timer expired, in the loop or while comparing. -/
def roundTimeout (process : ℤ) (s : State V) (sent : Except QbftError Unit) : Step V :=
  if i64Max < s.round + 1 then panicAt s .roundIncrement
  else broadcastRoundChange process (changeRound s (s.round + 1)) sent

/-! ## The upon-rules -/

/-- Algorithm 2:1. -/
def uponJustifiedPrePrepare (process : ℤ) (s : State V) (msg : Msg V)
    (compared sent : Except QbftError Unit) : Step V :=
  let s := changeRound s msg.round
  match compared with
  | .ok () => broadcastMsg process s .prepare msg.value none sent
  | .error .compareError => stay { s with compareFailureRound := msg.round }
  | .error .timeoutError => roundTimeout process s sent
  | .error .contextCanceled => returnErr s .contextCanceled
  | .error err => returnErr s (.unexpectedCompareError err)

/-- Algorithm 2:4. -/
def uponQuorumPrepares (process : ℤ) (s : State V) (msg : Msg V)
    (justification : Option (List (Msg V))) (sent : Except QbftError Unit) : Step V :=
  let s := { s with
    preparedRound := s.round
    preparedValue := msg.value
    preparedJustification := justification }
  broadcastMsg process s .commit s.preparedValue none sent

/-- Algorithm 2:8. -/
def uponDecided (s : State V) (msg : Msg V) (justification : Option (List (Msg V))) : Step V :=
  let s := { changeRound s msg.round with qCommit := justification, timerArmed := false }
  match justification with
  | none => panicAt s .missingJustification
  | some qcommit => ⟨s, some (.decide msg.value qcommit), none⟩

/-- Algorithm 3:5. -/
def uponFPlus1RoundChanges (d : Definition) (process : ℤ) (s : State V)
    (justification : Option (List (Msg V))) (sent : Except QbftError Unit) : Step V :=
  match justification with
  | none => panicAt s .missingJustification
  | some frc =>
    match nextMinRound d frc s.round with
    | .error p => panicAt s p
    | .ok newRound => broadcastRoundChange process (changeRound s newRound) sent

/-- Algorithm 3:11. -/
def uponQuorumRoundChanges (d : Definition) (process : ℤ) (s : State V)
    (justification : Option (List (Msg V))) (sent : Except QbftError Unit) : Step V :=
  match justification with
  | none => panicAt s .missingJustification
  | some qrc =>
    match getSingleJustifiedPrPv d qrc with
    | some (pr, pv) =>
      if s.compareFailureRound ≠ pr then broadcastMsg process s .prePrepare pv (some qrc) sent
      else broadcastOwnPrePrepare process s qrc sent
    | none => broadcastOwnPrePrepare process s qrc sent

/-- The handler of a rule. -/
def uponRule (d : Definition) (process : ℤ) (s : State V) (msg : Msg V) (rule : UponRule)
    (justification : Option (List (Msg V))) (compared sent : Except QbftError Unit) : Step V :=
  match rule with
  | .justifiedPrePrepare => uponJustifiedPrePrepare process s msg compared sent
  | .quorumPrepares => uponQuorumPrepares process s msg justification sent
  | .quorumCommits => uponDecided s msg justification
  | .justifiedDecided => uponDecided s msg justification
  | .fPlus1RoundChanges => uponFPlus1RoundChanges d process s justification sent
  | .quorumRoundChanges => uponQuorumRoundChanges d process s justification sent
  -- ignore bug or byzantine
  | .unjustQuorumRoundChanges => stay s
  | .nothing => panicAt s .invalidRule
  | .roundTimeout => panicAt s .invalidRule

/-! ## The arms of the loop -/

/-- The commit quorum of a decision; an empty one does not count as decided. -/
def State.decision (s : State V) : Option (Msg V × List (Msg V)) :=
  match s.qCommit with
  | some (first :: rest) => some (first, first :: rest)
  | _ => none

omit [DecidableEq V] [Inhabited V] in
lemma State.decision_eq_some {s : State V} {first : Msg V} {qCommit : List (Msg V)} :
    s.decision = some (first, qCommit) ↔
      s.qCommit = some qCommit ∧ qCommit.head? = some first := by
  unfold State.decision
  split
  · rename_i first' rest hq
    rw [hq]
    constructor
    · rintro ⟨rfl⟩
      simp
    · rintro ⟨hsome, hhead⟩
      obtain rfl := Option.some.inj hsome
      obtain rfl : first' = first := by simpa using hhead
      rfl
  · rename_i hno
    refine ⟨by simp, ?_⟩
    rintro ⟨hsome, hhead⟩
    cases qCommit with
    | nil => simp at hhead
    | cons a l => exact absurd hsome (hno a l)

/-- A message for an undecided process. -/
def receiveUndecided (d : Definition) (process : ℤ) (s : State V) (msg : Msg V)
    (order : HashOrder V) (compared sent : Except QbftError Unit) : Step V :=
  match isJustified d msg s.compareFailureRound with
  | .error p => panicAt s p
  -- drop unjust messages
  | .ok false => stay s
  | .ok true =>
    match bufferMsg d s.buffer msg with
    | .error p => panicAt s p
    | .ok buffer =>
      let s := { s with buffer := buffer }
      match classify d order s.round process s.buffer msg with
      | .error p => panicAt s p
      | .ok (rule, justification) =>
        if rule = .nothing then stay s
        else if ⟨rule, msg.round⟩ ∈ s.dedupRules then stay s
        else
          let s := { s with dedupRules := ⟨rule, msg.round⟩ :: s.dedupRules }
          uponRule d process s msg rule justification compared sent

/-- The receive arm. -/
def receive (d : Definition) (process : ℤ) (s : State V) (msg : Msg V) (order : HashOrder V)
    (compared sent : Except QbftError Unit) : Step V :=
  match s.decision with
  | some (first, qCommit) =>
    -- Algorithm 3:17
    if msg.source ≠ process ∧ msg.type = .roundChange then
      broadcastMsg process s .decided first.value (some qCommit) sent
    else stay s
  | none => receiveUndecided d process s msg order compared sent

/-- The input arm. -/
def receiveInput (process : ℤ) (s : State V) (value : V) (sent : Except QbftError Unit) : Step V :=
  let s := { s with inputValue := value }
  if value = default then returnErr s .zeroInputValue
  else
    -- don't read from this channel again
    let s := { s with inputOpen := false }
    match s.ppjCache with
    | some ppj => broadcastMsg process s .prePrepare value (some ppj) sent
    | none => stay s

/-- One turn of the event loop. -/
def step (d : Definition) (process : ℤ) (s : State V) : Event V → Step V
  | .input value sent => if s.inputOpen then receiveInput process s value sent else stay s
  | .inputClosed => if s.inputOpen then returnErr s .channelError else stay s
  | .receive wire order compared sent => receive d process s wire.msg order compared sent
  | .receiveClosed => returnErr s .channelError
  | .timer sent => if s.timerArmed then roundTimeout process s sent else stay s
  | .timerClosed => if s.timerArmed then returnErr s .channelError else stay s
  | .canceled => returnErr s .contextCanceled

/-- The variables before Algorithm 1:11. -/
def initialState : State V where
  round := 1
  inputValue := default
  inputOpen := true
  ppjCache := none
  preparedRound := 0
  preparedValue := default
  compareFailureRound := 0
  preparedJustification := none
  qCommit := none
  buffer := ∅
  dedupRules := []
  timerArmed := true

/-- Algorithm 1:11: the leader of the first round proposes with an empty justification. -/
def startInstance (d : Definition) (process : ℤ) : Step V :=
  if d.isLeader 1 process then broadcastOwnPrePrepare process initialState [] (.ok ())
  else stay initialState

/-- `run`, as a machine. -/
def machine (d : Definition) (process : ℤ) : LoggedMachine (State V) (Event V) (Output V) Stop where
  init := (startInstance d process).state
  step := step d process

end Pluto.Qbft
