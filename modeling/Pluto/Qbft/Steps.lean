import Pluto.Qbft.Run

/-!
# What one step can do

`Trans` lists every way a step changes the state and every output it can make, with the guards
under which it happens; `step_trans` says that each step is one of these.  It is the only place
where the step function is unfolded for what it leaves behind: every invariant above is a case
analysis over `Trans`.
-/

namespace Pluto.Qbft

variable {V : Type} [DecidableEq V] [Inhabited V]

/-- The state once a message is buffered and its rule entered in the dedup set. -/
def State.noted (s : State V) (buffer : Buffer V) (rule : UponRule) (round : ℤ) : State V :=
  { s with buffer := buffer, dedupRules := ⟨rule, round⟩ :: s.dedupRules }

/-- A justified message fired a rule that was not a duplicate. -/
structure Accepted (d : Definition) (process : ℤ) (s : State V) (msg : Msg V)
    (buffer : Buffer V) (rule : UponRule) (justification : Option (List (Msg V))) : Prop where
  undecided : s.decision = none
  justified : isJustified d msg s.compareFailureRound = .ok true
  buffered : ∀ m, InBuffer buffer m → m = msg ∨ InBuffer s.buffer m
  classified : Classified d s.round process buffer msg rule justification
  fresh : ⟨rule, msg.round⟩ ∉ s.dedupRules

/-- The PREPARE for an accepted proposal. -/
def prepareRequest (process : ℤ) (msg : Msg V) : BroadcastRequest V :=
  ⟨.prepare, process, msg.round, msg.value, 0, default, none⟩

/-- The COMMIT for a prepared value. -/
def commitRequest (process round : ℤ) (value : V) : BroadcastRequest V :=
  ⟨.commit, process, round, value, 0, default, none⟩

/-- The ROUND-CHANGE a process sends from its state. -/
def roundChangeRequest (process : ℤ) (s : State V) : BroadcastRequest V :=
  ⟨.roundChange, process, s.round, default, s.preparedRound, s.preparedValue,
    s.preparedJustification⟩

/-- A PRE-PREPARE. -/
def prePrepareRequest (process round : ℤ) (value : V) (justification : List (Msg V)) :
    BroadcastRequest V :=
  ⟨.prePrepare, process, round, value, 0, default, some justification⟩

/-- A DECIDED. -/
def decidedRequest (process round : ℤ) (value : V) (qCommit : List (Msg V)) :
    BroadcastRequest V :=
  ⟨.decided, process, round, value, 0, default, some qCommit⟩

/-- The ways a step changes the state and what it tells the outside. -/
inductive Trans (d : Definition) (process : ℤ) (s : State V) :
    Event V → State V → Option (Output V) → Prop
  /-- Nothing fires, or the step ends the execution before it changes anything. -/
  | idle (e : Event V) : Trans d process s e s none
  | input {value : V} {sent : Except QbftError Unit} (inputOpen : Bool) :
      Trans d process s (.input value sent)
        { s with inputValue := value, inputOpen := inputOpen } none
  | inputProposed {value : V} {sent : Except QbftError Unit} {ppj : List (Msg V)}
      (nonNull : value ≠ default) (cached : s.ppjCache = some ppj) :
      Trans d process s (.input value sent) { s with inputValue := value, inputOpen := false }
        (some (.broadcast (prePrepareRequest process s.round value ppj)))
  | answered {wire : WireMsg V} {order : HashOrder V} {compared sent : Except QbftError Unit}
      {first : Msg V} {qCommit : List (Msg V)} (decided : s.decision = some (first, qCommit))
      (source : wire.msg.source ≠ process) (type : wire.msg.type = .roundChange) :
      Trans d process s (.receive wire order compared sent) s
        (some (.broadcast (decidedRequest process s.round first.value qCommit)))
  /-- The message is buffered but fires nothing new. -/
  | buffered {wire : WireMsg V} {order : HashOrder V} {compared sent : Except QbftError Unit}
      {buffer : Buffer V} (undecided : s.decision = none)
      (mem : ∀ m, InBuffer buffer m → m = wire.msg ∨ InBuffer s.buffer m) :
      Trans d process s (.receive wire order compared sent) { s with buffer := buffer } none
  /-- The rule is entered in the dedup set and has no other effect: an unjustified quorum, or the
  cache panic. -/
  | noted {wire : WireMsg V} {order : HashOrder V} {compared sent : Except QbftError Unit}
      {buffer : Buffer V} {rule : UponRule} {justification : Option (List (Msg V))}
      (acc : Accepted d process s wire.msg buffer rule justification)
      (eq : wire.msg.round = s.round) :
      Trans d process s (.receive wire order compared sent)
        (s.noted buffer rule wire.msg.round) none
  | prepared {wire : WireMsg V} {order : HashOrder V} {sent : Except QbftError Unit}
      {buffer : Buffer V}
      (acc : Accepted d process s wire.msg buffer .justifiedPrePrepare none) :
      Trans d process s (.receive wire order (.ok ()) sent)
        (changeRound (s.noted buffer .justifiedPrePrepare wire.msg.round) wire.msg.round)
        (some (.broadcast (prepareRequest process wire.msg)))
  | compareFailed {wire : WireMsg V} {order : HashOrder V} {sent : Except QbftError Unit}
      {buffer : Buffer V}
      (acc : Accepted d process s wire.msg buffer .justifiedPrePrepare none) :
      Trans d process s (.receive wire order (.error .compareError) sent)
        { changeRound (s.noted buffer .justifiedPrePrepare wire.msg.round) wire.msg.round with
          compareFailureRound := wire.msg.round } none
  | compareAborted {wire : WireMsg V} {order : HashOrder V} {err : QbftError}
      {sent : Except QbftError Unit} {buffer : Buffer V}
      (acc : Accepted d process s wire.msg buffer .justifiedPrePrepare none) :
      Trans d process s (.receive wire order (.error err) sent)
        (changeRound (s.noted buffer .justifiedPrePrepare wire.msg.round) wire.msg.round) none
  | compareTimedOut {wire : WireMsg V} {order : HashOrder V} {sent : Except QbftError Unit}
      {buffer : Buffer V}
      (acc : Accepted d process s wire.msg buffer .justifiedPrePrepare none) :
      Trans d process s (.receive wire order (.error .timeoutError) sent)
        (changeRound (changeRound (s.noted buffer .justifiedPrePrepare wire.msg.round)
          wire.msg.round) (wire.msg.round + 1))
        (some (.broadcast (roundChangeRequest process
          (changeRound (changeRound (s.noted buffer .justifiedPrePrepare wire.msg.round)
            wire.msg.round) (wire.msg.round + 1)))))
  | committed {wire : WireMsg V} {order : HashOrder V} {compared sent : Except QbftError Unit}
      {buffer : Buffer V} {prepares : List (Msg V)}
      (acc : Accepted d process s wire.msg buffer .quorumPrepares (some prepares)) :
      Trans d process s (.receive wire order compared sent)
        { s.noted buffer .quorumPrepares wire.msg.round with
          preparedRound := s.round
          preparedValue := wire.msg.value
          preparedJustification := some prepares }
        (some (.broadcast (commitRequest process s.round wire.msg.value)))
  | decided {wire : WireMsg V} {order : HashOrder V} {compared sent : Except QbftError Unit}
      {buffer : Buffer V} {rule : UponRule} {qcommit : List (Msg V)}
      (rules : rule = .quorumCommits ∨ rule = .justifiedDecided)
      (acc : Accepted d process s wire.msg buffer rule (some qcommit)) :
      Trans d process s (.receive wire order compared sent)
        { changeRound (s.noted buffer rule wire.msg.round) wire.msg.round with
          qCommit := some qcommit, timerArmed := false }
        (some (.decide wire.msg.value qcommit))
  | jumped {wire : WireMsg V} {order : HashOrder V} {compared sent : Except QbftError Unit}
      {buffer : Buffer V} {frc : List (Msg V)} {newRound : ℤ}
      (acc : Accepted d process s wire.msg buffer .fPlus1RoundChanges (some frc))
      (next : nextMinRound d frc s.round = .ok newRound) :
      Trans d process s (.receive wire order compared sent)
        (changeRound (s.noted buffer .fPlus1RoundChanges wire.msg.round) newRound)
        (some (.broadcast (roundChangeRequest process
          (changeRound (s.noted buffer .fPlus1RoundChanges wire.msg.round) newRound))))
  | proposedPrepared {wire : WireMsg V} {order : HashOrder V}
      {compared sent : Except QbftError Unit} {buffer : Buffer V} {qrc : List (Msg V)} {pr : ℤ}
      {pv : V} (acc : Accepted d process s wire.msg buffer .quorumRoundChanges (some qrc))
      (single : getSingleJustifiedPrPv d qrc = some (pr, pv)) :
      Trans d process s (.receive wire order compared sent)
        (s.noted buffer .quorumRoundChanges wire.msg.round)
        (some (.broadcast (prePrepareRequest process s.round pv qrc)))
  | proposedOwn {wire : WireMsg V} {order : HashOrder V} {compared sent : Except QbftError Unit}
      {buffer : Buffer V} {qrc : List (Msg V)}
      (acc : Accepted d process s wire.msg buffer .quorumRoundChanges (some qrc))
      (own : ∀ pr pv, getSingleJustifiedPrPv d qrc = some (pr, pv) → s.compareFailureRound = pr)
      (nonNull : s.inputValue ≠ default) :
      Trans d process s (.receive wire order compared sent)
        (s.noted buffer .quorumRoundChanges wire.msg.round)
        (some (.broadcast (prePrepareRequest process s.round s.inputValue qrc)))
  | cached {wire : WireMsg V} {order : HashOrder V} {compared sent : Except QbftError Unit}
      {buffer : Buffer V} {qrc : List (Msg V)}
      (acc : Accepted d process s wire.msg buffer .quorumRoundChanges (some qrc))
      (own : ∀ pr pv, getSingleJustifiedPrPv d qrc = some (pr, pv) → s.compareFailureRound = pr) :
      Trans d process s (.receive wire order compared sent)
        { s.noted buffer .quorumRoundChanges wire.msg.round with ppjCache := some qrc } none
  | timedOut {sent : Except QbftError Unit} (armed : s.timerArmed = true) :
      Trans d process s (.timer sent) (changeRound s (s.round + 1))
        (some (.broadcast (roundChangeRequest process (changeRound s (s.round + 1)))))

section Frame

omit [DecidableEq V] [Inhabited V]

variable (s : State V) (buffer : Buffer V) (rule : UponRule) (r : ℤ)

@[simp] lemma noted_round : (s.noted buffer rule r).round = s.round := rfl
@[simp] lemma noted_inputValue : (s.noted buffer rule r).inputValue = s.inputValue := rfl
@[simp] lemma noted_ppjCache : (s.noted buffer rule r).ppjCache = s.ppjCache := rfl
@[simp] lemma noted_preparedRound : (s.noted buffer rule r).preparedRound = s.preparedRound := rfl
@[simp] lemma noted_preparedValue : (s.noted buffer rule r).preparedValue = s.preparedValue := rfl
@[simp] lemma noted_preparedJustification :
    (s.noted buffer rule r).preparedJustification = s.preparedJustification := rfl
@[simp] lemma noted_compareFailureRound :
    (s.noted buffer rule r).compareFailureRound = s.compareFailureRound := rfl
@[simp] lemma noted_qCommit : (s.noted buffer rule r).qCommit = s.qCommit := rfl
@[simp] lemma noted_decision : (s.noted buffer rule r).decision = s.decision := rfl
@[simp] lemma noted_buffer : (s.noted buffer rule r).buffer = buffer := rfl
@[simp] lemma noted_timerArmed : (s.noted buffer rule r).timerArmed = s.timerArmed := rfl
@[simp] lemma noted_dedupRules :
    (s.noted buffer rule r).dedupRules = ⟨rule, r⟩ :: s.dedupRules := rfl

@[simp] lemma changeRound_round : (changeRound s r).round = r := by
  unfold changeRound
  split_ifs with h
  · exact h
  · rfl

@[simp] lemma changeRound_inputValue : (changeRound s r).inputValue = s.inputValue := by
  unfold changeRound
  split_ifs <;> rfl

@[simp] lemma changeRound_preparedRound : (changeRound s r).preparedRound = s.preparedRound := by
  unfold changeRound
  split_ifs <;> rfl

@[simp] lemma changeRound_preparedValue : (changeRound s r).preparedValue = s.preparedValue := by
  unfold changeRound
  split_ifs <;> rfl

@[simp] lemma changeRound_preparedJustification :
    (changeRound s r).preparedJustification = s.preparedJustification := by
  unfold changeRound
  split_ifs <;> rfl

@[simp] lemma changeRound_compareFailureRound :
    (changeRound s r).compareFailureRound = s.compareFailureRound := by
  unfold changeRound
  split_ifs <;> rfl

@[simp] lemma changeRound_qCommit : (changeRound s r).qCommit = s.qCommit := by
  unfold changeRound
  split_ifs <;> rfl

@[simp] lemma changeRound_decision : (changeRound s r).decision = s.decision := by
  simp [State.decision]

@[simp] lemma changeRound_buffer : (changeRound s r).buffer = s.buffer := by
  unfold changeRound
  split_ifs <;> rfl

variable {s r}

lemma changeRound_self (h : s.round = r) : changeRound s r = s := by
  simp [changeRound, h]

lemma changeRound_dedupRules_of_ne (h : s.round ≠ r) : (changeRound s r).dedupRules = [] := by
  simp [changeRound, h]

lemma changeRound_ppjCache_of_ne (h : s.round ≠ r) : (changeRound s r).ppjCache = none := by
  simp [changeRound, h]

/-- A cache that survives a round change was there before it, in the same round. -/
lemma changeRound_ppjCache_eq_some {ppj : List (Msg V)}
    (h : (changeRound s r).ppjCache = some ppj) : s.round = r ∧ s.ppjCache = some ppj := by
  by_cases hr : s.round = r
  · rw [changeRound_self hr] at h
    exact ⟨hr, h⟩
  · simp [changeRound_ppjCache_of_ne hr] at h

end Frame

/-! ## Every step is one of these -/

section Inversion

variable {d : Definition} {process : ℤ} {s : State V} {wire : WireMsg V} {order : HashOrder V}
  {compared sent : Except QbftError Unit} {buffer : Buffer V}

lemma uponJustifiedPrePrepare_trans
    (acc : Accepted d process s wire.msg buffer .justifiedPrePrepare none) :
    Trans d process s (.receive wire order compared sent)
      (uponJustifiedPrePrepare process (s.noted buffer .justifiedPrePrepare wire.msg.round) wire.msg
        compared sent).state
      (uponJustifiedPrePrepare process (s.noted buffer .justifiedPrePrepare wire.msg.round) wire.msg
        compared sent).out := by
  unfold uponJustifiedPrePrepare
  split
  · simpa [broadcastMsg, broadcast, prepareRequest] using Trans.prepared acc
  · exact .compareFailed acc
  · simp only [roundTimeout]
    split_ifs
    · exact .compareAborted acc
    · simpa [broadcastRoundChange, broadcast, roundChangeRequest] using Trans.compareTimedOut acc
  · exact .compareAborted acc
  · exact .compareAborted acc

lemma broadcastOwnPrePrepare_trans {qrc : List (Msg V)}
    (acc : Accepted d process s wire.msg buffer .quorumRoundChanges (some qrc))
    (own : ∀ pr pv, getSingleJustifiedPrPv d qrc = some (pr, pv) → s.compareFailureRound = pr)
    (eq : wire.msg.round = s.round) :
    Trans d process s (.receive wire order compared sent)
      (broadcastOwnPrePrepare process (s.noted buffer .quorumRoundChanges wire.msg.round) qrc
        sent).state
      (broadcastOwnPrePrepare process (s.noted buffer .quorumRoundChanges wire.msg.round) qrc
        sent).out := by
  unfold broadcastOwnPrePrepare
  split_ifs with hcache hinput
  · exact .noted acc eq
  · exact .cached acc own
  · exact .proposedOwn acc own hinput

lemma uponQuorumRoundChanges_trans {qrc : List (Msg V)}
    (acc : Accepted d process s wire.msg buffer .quorumRoundChanges (some qrc))
    (eq : wire.msg.round = s.round) :
    Trans d process s (.receive wire order compared sent)
      (uponQuorumRoundChanges d process (s.noted buffer .quorumRoundChanges wire.msg.round)
        (some qrc) sent).state
      (uponQuorumRoundChanges d process (s.noted buffer .quorumRoundChanges wire.msg.round)
        (some qrc) sent).out := by
  unfold uponQuorumRoundChanges
  dsimp only
  split
  · rename_i pr pv hsingle
    split_ifs with hne
    · exact .proposedPrepared acc hsingle
    · refine broadcastOwnPrePrepare_trans acc (fun pr' pv' h => ?_) eq
      obtain ⟨rfl, -⟩ : pr = pr' ∧ pv = pv' := by simpa [hsingle] using h
      simpa using hne
  · rename_i hsingle
    exact broadcastOwnPrePrepare_trans acc (by simp [hsingle]) eq

/-- The handler of the rule that fired.  What `classify` knows about the rule excludes missing
justifications and the panics of `next_min_round`. -/
lemma uponRule_trans {rule : UponRule} {justification : Option (List (Msg V))}
    (hrule : rule ≠ .nothing)
    (acc : Accepted d process s wire.msg buffer rule justification) :
    Trans d process s (.receive wire order compared sent)
      (uponRule d process (s.noted buffer rule wire.msg.round) wire.msg rule justification compared
        sent).state
      (uponRule d process (s.noted buffer rule wire.msg.round) wire.msg rule justification compared
        sent).out := by
  cases acc.classified with
  | nothing => exact absurd rfl hrule
  | prePrepare => exact uponJustifiedPrePrepare_trans acc
  | prepares => exact .committed acc
  | commits => exact .decided (.inl rfl) acc
  | decided => exact .decided (.inr rfl) acc
  | fPlus1 _ _ length mem =>
    obtain ⟨newRound, hnext⟩ := nextMinRound_isOk length fun m hm => (mem m hm).2
    simp only [uponRule, uponFPlus1RoundChanges, noted_round, hnext]
    exact .jumped acc hnext
  | unjust _ eq => exact .noted acc eq
  | roundChanges _ eq => exact uponQuorumRoundChanges_trans acc eq

lemma receiveUndecided_trans (hund : s.decision = none) :
    Trans d process s (.receive wire order compared sent)
      (receiveUndecided d process s wire.msg order compared sent).state
      (receiveUndecided d process s wire.msg order compared sent).out := by
  unfold receiveUndecided
  split
  · exact .idle _
  · exact .idle _
  rename_i hjust
  obtain ⟨buffer, hbuf, hmem⟩ := bufferMsg_spec d s.buffer wire.msg
  rw [hbuf]
  dsimp only
  split
  · exact .buffered hund hmem
  rename_i rule justification hcls
  split_ifs with hrule hdup
  · exact .buffered hund hmem
  · exact .buffered hund hmem
  · exact uponRule_trans hrule ⟨hund, hjust, hmem, classify_spec hcls, hdup⟩

lemma receiveInput_trans {value : V} :
    Trans d process s (.input value sent) (receiveInput process s value sent).state
      (receiveInput process s value sent).out := by
  unfold receiveInput
  dsimp only
  split_ifs with hnull
  · exact .input s.inputOpen
  · split
    · rename_i ppj hcache
      exact .inputProposed hnull hcache
    · exact .input false

end Inversion

/-- **Step inversion.** -/
theorem step_trans (d : Definition) (process : ℤ) (s : State V) (e : Event V) :
    Trans d process s e (step d process s e).state (step d process s e).out := by
  cases e with
  | input value sent =>
    simp only [step]
    split_ifs
    · exact receiveInput_trans
    · exact .idle _
  | inputClosed | timerClosed =>
    simp only [step]
    split_ifs <;> exact .idle _
  | receive wire order compared sent =>
    simp only [step, receive]
    split
    · rename_i first qCommit hdec
      split_ifs with hcond
      · exact .answered hdec hcond.1 hcond.2
      · exact .idle _
    · rename_i hund
      exact receiveUndecided_trans hund
  | receiveClosed => exact .idle _
  | timer sent =>
    simp only [step, roundTimeout]
    split_ifs with harmed
    · exact .idle _
    · exact .timedOut harmed
    · exact .idle _
  | canceled => exact .idle _

/-! ## The first state -/

/-- The leader of the first round starts with an empty cached justification, since its input is
not there yet; nothing is sent and nothing fails. -/
lemma startInstance_eq (d : Definition) (process : ℤ) :
    startInstance (V := V) d process =
      stay { initialState with ppjCache := if d.isLeader 1 process then some [] else none } := by
  unfold startInstance broadcastOwnPrePrepare
  split_ifs <;> simp_all [initialState]

lemma machine_init (d : Definition) (process : ℤ) :
    (machine (V := V) d process).init =
      { initialState with ppjCache := if d.isLeader 1 process then some [] else none } := by
  simp [machine, startInstance_eq, stay]

/-- A logged step is one of the transitions. -/
lemma trans_of_mem_log {d : Definition} {process : ℤ} {es : List (Event V)}
    {en : LoggedMachine.Entry (State V) (Event V) (Output V)}
    (h : en ∈ ((machine d process).exec es).log) :
    Trans d process en.before en.event ((machine d process).after en) en.out := by
  rw [LoggedMachine.mem_log_out h]
  exact step_trans d process en.before en.event

end Pluto.Qbft
