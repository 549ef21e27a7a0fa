import Pluto.Qbft.Steps

/-!
# Invariants of one execution

Two invariants hold of every state of every execution, whatever the events.

*Provenance* (`State.Holds P`): if every message delivered satisfies `P`, together with the
messages of its justification, then so does everything the process stores, and everything it puts
into a justification.  The integer bounds of the wire, authenticity in a network and the origin of
values are all instances of it.

*Soundness* (`State.Sound`): the dedup set speaks only of the current round, an undecided process
is in a round of at least one and has prepared nothing above it, and a decided one has no timer.

The rest of the file says how a step moves the variables the voting argument reads: the round,
the dedup set and the prepared round.
-/

namespace Pluto.Qbft

variable {V : Type} [DecidableEq V] [Inhabited V]

/-! ## Provenance -/

/-- If the event is a delivery, then `Q` holds of the message. -/
def Event.Receives (Q : Msg V → Prop) : Event V → Prop
  | .receive wire _ _ _ => Q wire.msg
  | _ => True

instance (Q : Msg V → Prop) [DecidablePred Q] : DecidablePred (Event.Receives Q)
  | .receive wire _ _ _ => inferInstanceAs (Decidable (Q wire.msg))
  | .input _ _ | .inputClosed | .receiveClosed | .timer _ | .timerClosed | .canceled =>
    inferInstanceAs (Decidable True)

omit [DecidableEq V] [Inhabited V] in
lemma Event.Receives.mono {Q Q' : Msg V → Prop} (h : ∀ m, Q m → Q' m) {e : Event V}
    (he : e.Receives Q) : e.Receives Q' := by
  cases e with
  | receive wire order compared sent => exact h _ he
  | _ => trivial

omit [DecidableEq V] [Inhabited V] in
/-- What the receive channel carries has `i64` fields. -/
lemma Event.receives_isI64 (e : Event V) : e.Receives (Msg.All Msg.IsI64) := by
  cases e with
  | receive wire order compared sent => exact wire.isI64
  | _ => trivial

/-- `P` holds of every message the state stores. -/
structure State.Holds (P : Msg V → Prop) (s : State V) : Prop where
  buffer : ∀ m, InBuffer s.buffer m → m.All P
  ppjCache : ∀ m ∈ s.ppjCache.getD [], P m
  preparedJustification : ∀ m ∈ s.preparedJustification.getD [], P m
  qCommit : ∀ m ∈ s.qCommit.getD [], P m

/-- The messages an output hands on. -/
def Output.carried : Output V → List (Msg V)
  | .broadcast req => req.justification.getD []
  | .decide _ qcommit => qcommit

section Provenance

variable {P : Msg V → Prop} {d : Definition} {process : ℤ} {s s' : State V} {msg : Msg V}
  {buffer : Buffer V} {rule : UponRule} {justification : Option (List (Msg V))}

lemma Accepted.of_fromBuffer (acc : Accepted d process s msg buffer rule justification)
    (hs : s.Holds P) (hmsg : msg.All P) {x : Msg V} (hx : FromBuffer buffer x) : P x := by
  obtain ⟨m, hm, hor⟩ := hx
  have hall : m.All P := by
    rcases acc.buffered m hm with rfl | hold
    · exact hmsg
    · exact hs.buffer m hold
  rcases hor with rfl | hj
  · exact hall.1
  · exact hall.2 x hj

/-- The justification of a rule consists of stored and received messages. -/
lemma Accepted.of_mem_justification (acc : Accepted d process s msg buffer rule justification)
    (hs : s.Holds P) (hmsg : msg.All P) : ∀ x ∈ justification.getD [], P x := by
  intro x hx
  cases acc.classified with
  | nothing => simp at hx
  | prePrepare => simp at hx
  | unjust => simp at hx
  | decided => exact hmsg.2 x hx
  | prepares _ _ _ mem | commits _ _ _ mem | fPlus1 _ _ _ mem =>
    exact acc.of_fromBuffer hs hmsg (mem x hx).1
  | roundChanges _ _ _ _ mem => exact acc.of_fromBuffer hs hmsg (mem x hx)

omit [DecidableEq V] [Inhabited V] in
lemma State.Holds.noted (hs : s.Holds P) (hmsg : msg.All P)
    (mem : ∀ m, InBuffer buffer m → m = msg ∨ InBuffer s.buffer m) (rule : UponRule) (r : ℤ) :
    (s.noted buffer rule r).Holds P where
  buffer m hm := by
    rcases mem m hm with rfl | hold
    · exact hmsg
    · exact hs.buffer m hold
  ppjCache := hs.ppjCache
  preparedJustification := hs.preparedJustification
  qCommit := hs.qCommit

omit [DecidableEq V] [Inhabited V] in
lemma State.Holds.changeRound (hs : s.Holds P) (r : ℤ) : (changeRound s r).Holds P where
  buffer := by simpa using hs.buffer
  ppjCache := by
    by_cases hr : s.round = r
    · rw [changeRound_self hr]
      exact hs.ppjCache
    · simp [changeRound_ppjCache_of_ne hr]
  preparedJustification := by simpa using hs.preparedJustification
  qCommit := by simpa using hs.qCommit

/-- **Provenance, one step.** -/
theorem Trans.holds {e : Event V} {out : Option (Output V)} (h : Trans d process s e s' out)
    (he : e.Receives (Msg.All P)) (hs : s.Holds P) :
    s'.Holds P ∧ ∀ o ∈ out, ∀ m ∈ o.carried, P m := by
  cases h with
  | idle => exact ⟨hs, by simp⟩
  | input inputOpen =>
    exact ⟨⟨hs.buffer, hs.ppjCache, hs.preparedJustification, hs.qCommit⟩, by simp⟩
  | inputProposed nonNull cached =>
    refine ⟨⟨hs.buffer, hs.ppjCache, hs.preparedJustification, hs.qCommit⟩, ?_⟩
    have hppj := hs.ppjCache
    rw [cached] at hppj
    rintro o ⟨rfl⟩
    exact hppj
  | answered decided source type =>
    refine ⟨hs, ?_⟩
    have hqc := hs.qCommit
    rw [(State.decision_eq_some.mp decided).1] at hqc
    rintro o ⟨rfl⟩
    exact hqc
  | buffered undecided mem =>
    refine ⟨⟨fun m hm => ?_, hs.ppjCache, hs.preparedJustification, hs.qCommit⟩, by simp⟩
    rcases mem m hm with rfl | hold
    · exact he
    · exact hs.buffer m hold
  | noted acc eq => exact ⟨hs.noted he acc.buffered _ _, by simp⟩
  | prepared acc =>
    refine ⟨(hs.noted he acc.buffered _ _).changeRound _, ?_⟩
    rintro o ⟨rfl⟩
    simp [Output.carried, prepareRequest]
  | @compareFailed wire _ _ _ acc =>
    have hc := (hs.noted he acc.buffered .justifiedPrePrepare wire.msg.round).changeRound
      wire.msg.round
    exact ⟨⟨hc.buffer, hc.ppjCache, hc.preparedJustification, hc.qCommit⟩, by simp⟩
  | compareAborted acc => exact ⟨(hs.noted he acc.buffered _ _).changeRound _, by simp⟩
  | compareTimedOut acc =>
    refine ⟨((hs.noted he acc.buffered _ _).changeRound _).changeRound _, ?_⟩
    rintro o ⟨rfl⟩
    simpa [Output.carried, roundChangeRequest] using hs.preparedJustification
  | @committed wire _ _ _ _ _ acc =>
    have hn := hs.noted he acc.buffered .quorumPrepares wire.msg.round
    refine ⟨⟨hn.buffer, hn.ppjCache, acc.of_mem_justification hs he, hn.qCommit⟩, ?_⟩
    rintro o ⟨rfl⟩
    simp [Output.carried, commitRequest]
  | @decided wire _ _ _ _ rule _ rules acc =>
    have hc := (hs.noted he acc.buffered rule wire.msg.round).changeRound wire.msg.round
    have hq := acc.of_mem_justification hs he
    refine ⟨⟨hc.buffer, hc.ppjCache, hc.preparedJustification, hq⟩, ?_⟩
    rintro o ⟨rfl⟩
    exact hq
  | jumped acc next =>
    refine ⟨(hs.noted he acc.buffered _ _).changeRound _, ?_⟩
    rintro o ⟨rfl⟩
    simpa [Output.carried, roundChangeRequest] using hs.preparedJustification
  | proposedPrepared acc single | proposedOwn acc own nonNull =>
    refine ⟨hs.noted he acc.buffered _ _, ?_⟩
    rintro o ⟨rfl⟩
    exact acc.of_mem_justification hs he
  | @cached wire _ _ _ _ _ acc own =>
    have hn := hs.noted he acc.buffered .quorumRoundChanges wire.msg.round
    exact ⟨⟨hn.buffer, acc.of_mem_justification hs he, hn.preparedJustification, hn.qCommit⟩,
      by simp⟩
  | timedOut armed =>
    refine ⟨hs.changeRound _, ?_⟩
    rintro o ⟨rfl⟩
    simpa [Output.carried, roundChangeRequest] using hs.preparedJustification

lemma machine_init_holds (P : Msg V → Prop) (d : Definition) (process : ℤ) :
    (machine (V := V) d process).init.Holds P := by
  rw [machine_init]
  refine ⟨?_, ?_, by simp [initialState], by simp [initialState]⟩
  · rintro m ⟨source, fifo, hlookup, -⟩
    simp [initialState] at hlookup
  · dsimp only
    split_ifs <;> simp

/-- **Provenance, whole executions.** -/
theorem exec_holds {es : List (Event V)} (hes : ∀ e ∈ es, e.Receives (Msg.All P)) :
    ((machine d process).exec es).state.Holds P ∧
      ∀ en ∈ ((machine d process).exec es).log, en.before.Holds P :=
  LoggedMachine.exec_invariant (machine_init_holds P d process)
    (fun s e he hs => ((step_trans d process s e).holds he hs).1) hes

/-- Every message an execution puts into a justification was delivered to it. -/
theorem exec_carried {es : List (Event V)} (hes : ∀ e ∈ es, e.Receives (Msg.All P))
    {en : LoggedMachine.Entry (State V) (Event V) (Output V)}
    (hen : en ∈ ((machine d process).exec es).log) : ∀ o ∈ en.out, ∀ m ∈ o.carried, P m :=
  ((trans_of_mem_log hen).holds (hes _ (LoggedMachine.mem_log_event hen))
    ((exec_holds hes).2 en hen)).2

end Provenance

/-! ## Soundness -/

/-- What holds of every state of an execution. -/
structure State.Sound (s : State V) : Prop where
  stored : s.Holds Msg.IsI64
  dedup : ∀ k ∈ s.dedupRules, k.round = s.round
  round_pos : s.decision = none → 1 ≤ s.round
  preparedRound_le : s.decision = none → s.preparedRound ≤ s.round
  timer : s.decision ≠ none → s.timerArmed = false

section Soundness

variable {d : Definition} {process : ℤ} {s s' : State V} {msg : Msg V} {buffer : Buffer V}

lemma Accepted.round_le (acc : Accepted d process s msg buffer .justifiedPrePrepare none) :
    s.round ≤ msg.round := by
  cases acc.classified with
  | prePrepare type le => exact le

/-- F+1 ROUND-CHANGEs move the process forward, and not beyond any of them. -/
lemma Accepted.lt_newRound {frc : List (Msg V)} {newRound : ℤ} (hs : s.Holds Msg.IsI64)
    (hmsg : msg.All Msg.IsI64)
    (acc : Accepted d process s msg buffer .fPlus1RoundChanges (some frc))
    (next : nextMinRound d frc s.round = .ok newRound) :
    s.round < newRound ∧ ∀ m ∈ frc, newRound ≤ m.round := by
  have hi64 := acc.of_mem_justification hs hmsg
  cases acc.classified with
  | fPlus1 type nodup length mem =>
    obtain ⟨r, hok, hlt, hle⟩ := nextMinRound_spec length (fun m hm => (mem m hm).2)
      (fun m hm => (hi64 m hm).2.1.2)
    obtain rfl : r = newRound := by simpa [hok] using next
    exact ⟨hlt, hle⟩

variable {rule : UponRule}

/-- A quorum of commits, or the justification of a justified DECIDED, is not empty: the decision
it records counts as one. -/
lemma Accepted.qcommit_ne_nil {qcommit : List (Msg V)}
    (rules : rule = .quorumCommits ∨ rule = .justifiedDecided)
    (acc : Accepted d process s msg buffer rule (some qcommit)) : qcommit ≠ [] := by
  have hpos := d.quorumCount_pos
  have hjust := acc.justified
  intro hnil
  cases acc.classified with
  | commits _ _ quorum _ =>
    have hlen := quorum.length
    simp only [hnil, List.length_nil] at hlen
    omega
  | decided type =>
    rw [isJustified_decided type] at hjust
    have hlen := (isJustifiedDecided_eq_true.mp hjust).2.length
    simp only [hnil, filterByRoundAndValue, filterMsgs, List.filter_nil, firstPerKey,
      List.length_nil] at hlen
    omega
  | _ => simp at rules

lemma machine_init_sound (d : Definition) (process : ℤ) :
    (machine (V := V) d process).init.Sound := by
  refine ⟨machine_init_holds _ d process, ?_, ?_, ?_, ?_⟩ <;>
    simp [machine_init, initialState, State.decision]

omit [DecidableEq V] [Inhabited V] in
lemma State.decision_eq_none_of_qCommit (h : s'.qCommit = s.qCommit) :
    s'.decision = s.decision := by
  simp [State.decision, h]

omit [DecidableEq V] [Inhabited V] in
/-- The dedup set after entering a rule and moving to the message's round. -/
lemma dedup_changeRound_noted (hs : ∀ k ∈ s.dedupRules, k.round = s.round)
    (r : ℤ) : ∀ k ∈ (changeRound (s.noted buffer rule r) r).dedupRules, k.round = r := by
  by_cases hr : s.round = r
  · subst hr
    rw [changeRound_self (by simp)]
    simpa using hs
  · simp [changeRound_dedupRules_of_ne (s := s.noted buffer rule r) (by simpa using hr)]

/-- The round of the rule is the current one, except for proposals, decisions and jumps. -/
lemma Accepted.round_eq {justification : Option (List (Msg V))}
    (acc : Accepted d process s msg buffer rule justification)
    (hrule : rule = .quorumPrepares ∨ rule = .quorumRoundChanges) : msg.round = s.round := by
  cases acc.classified with
  | prepares _ eq => exact eq
  | roundChanges _ eq => exact eq
  | _ => simp at hrule

/-- A decision leaves a commit quorum behind. -/
lemma Accepted.decision_ne_none {qcommit : List (Msg V)}
    (rules : rule = .quorumCommits ∨ rule = .justifiedDecided)
    (acc : Accepted d process s msg buffer rule (some qcommit))
    (hq : s'.qCommit = some qcommit) : s'.decision ≠ none := by
  cases hqc : qcommit with
  | nil => exact absurd hqc (acc.qcommit_ne_nil rules)
  | cons first rest => simp [State.decision, hq, hqc]

omit [DecidableEq V] [Inhabited V] in
/-- Soundness of a state whose decision and timer are those of `s`. -/
lemma State.Sound.of_undecided (hs : s.Sound) (hund : s.decision = none)
    (hdec : s'.qCommit = s.qCommit) (stored : s'.Holds Msg.IsI64)
    (dedup : ∀ k ∈ s'.dedupRules, k.round = s'.round) (hround : s.round ≤ s'.round)
    (hprep : s'.preparedRound ≤ s'.round) : s'.Sound := by
  have hsame := State.decision_eq_none_of_qCommit hdec
  refine ⟨stored, dedup, fun _ => ?_, fun _ => hprep, fun h => absurd (hsame.trans hund) h⟩
  have := hs.round_pos hund
  omega

omit [DecidableEq V] [Inhabited V] in
lemma State.Sound.noted (hs : s.Sound) (hund : s.decision = none) (eq : msg.round = s.round)
    (stored : (s.noted buffer rule msg.round).Holds Msg.IsI64) :
    (s.noted buffer rule msg.round).Sound := by
  refine hs.of_undecided hund rfl stored ?_ le_rfl (hs.preparedRound_le hund)
  simpa [eq] using hs.dedup

lemma State.Sound.proposal (hs : s.Sound)
    (acc : Accepted d process s msg buffer .justifiedPrePrepare none)
    (hmsg : msg.All Msg.IsI64) :
    (changeRound (s.noted buffer .justifiedPrePrepare msg.round) msg.round).Sound := by
  have hle := acc.round_le
  have hprep := hs.preparedRound_le acc.undecided
  refine hs.of_undecided acc.undecided (by simp)
    ((hs.stored.noted hmsg acc.buffered _ _).changeRound _) ?_ (by simpa using hle)
    (by simpa using hprep.trans hle)
  simpa using dedup_changeRound_noted hs.dedup msg.round

omit [DecidableEq V] [Inhabited V] in
/-- Moving an undecided process to a later round keeps it sound. -/
lemma State.Sound.changeRound (hs : s.Sound) (hund : s.decision = none) {r : ℤ}
    (hlt : s.round < r) : (changeRound s r).Sound := by
  have hprep := hs.preparedRound_le hund
  refine hs.of_undecided hund (by simp) (hs.stored.changeRound r) ?_ (by simpa using hlt.le) ?_
  · simp [changeRound_dedupRules_of_ne hlt.ne]
  · simpa using hprep.trans hlt.le

omit [DecidableEq V] [Inhabited V] in
lemma State.Sound.undecided_of_armed (hs : s.Sound) (armed : s.timerArmed = true) :
    s.decision = none := by
  by_contra hdec
  simp [hs.timer hdec] at armed

/-- **Soundness, one step.** -/
theorem Trans.sound {e : Event V} {out : Option (Output V)} (h : Trans d process s e s' out)
    (hs : s.Sound) : s'.Sound := by
  have hstored := (h.holds (Event.receives_isI64 e) hs.stored).1
  cases h with
  | idle => exact hs
  | answered => exact hs
  | input | inputProposed | buffered =>
    exact ⟨hstored, hs.dedup, hs.round_pos, hs.preparedRound_le, hs.timer⟩
  | noted acc eq => exact hs.noted acc.undecided eq hstored
  | @prepared wire _ _ _ acc => exact hs.proposal acc wire.isI64
  | @compareFailed wire _ _ _ acc =>
    have hp := hs.proposal acc wire.isI64
    exact ⟨hstored, hp.dedup, hp.round_pos, hp.preparedRound_le, hp.timer⟩
  | @compareAborted wire _ _ _ _ acc => exact hs.proposal acc wire.isI64
  | @compareTimedOut wire _ _ _ acc =>
    exact (hs.proposal acc wire.isI64).changeRound (by simpa using acc.undecided) (by simp)
  | committed acc =>
    have heq := acc.round_eq (.inl rfl)
    refine hs.of_undecided acc.undecided rfl hstored ?_ le_rfl le_rfl
    simpa [heq] using hs.dedup
  | decided rules acc =>
    refine ⟨hstored, ?_, fun h => absurd h (acc.decision_ne_none rules rfl),
      fun h => absurd h (acc.decision_ne_none rules rfl), fun _ => rfl⟩
    simpa using dedup_changeRound_noted hs.dedup _
  | @jumped wire _ _ _ buffer _ _ acc next =>
    have hlt := (acc.lt_newRound hs.stored wire.isI64 next).1
    have hprep := hs.preparedRound_le acc.undecided
    -- the rule is entered under the future round of the message, and cleared right after
    refine hs.of_undecided acc.undecided (by simp) hstored ?_ (by simpa using hlt.le)
      (by simpa using hprep.trans hlt.le)
    rw [changeRound_dedupRules_of_ne (by simpa using hlt.ne)]
    simp
  | proposedPrepared acc | proposedOwn acc =>
    exact hs.noted acc.undecided (acc.round_eq (.inr rfl)) hstored
  | @cached wire _ _ _ buffer _ acc =>
    have hn := hs.noted acc.undecided (acc.round_eq (.inr rfl))
      (hs.stored.noted wire.isI64 acc.buffered .quorumRoundChanges _)
    exact ⟨hstored, hn.dedup, hn.round_pos, hn.preparedRound_le, hn.timer⟩
  | timedOut armed => exact hs.changeRound (hs.undecided_of_armed armed) (by omega)

/-- **Soundness, whole executions.** -/
theorem exec_sound (d : Definition) (process : ℤ) (es : List (Event V)) :
    ((machine d process).exec es).state.Sound ∧
      ∀ en ∈ ((machine d process).exec es).log, en.before.Sound :=
  LoggedMachine.exec_invariant (machine_init_sound d process)
    (fun s e _ hs => (step_trans d process s e).sound hs) (E := fun _ => True) (fun _ _ => trivial)

/-! ## How a step moves -/

/-- A decided process keeps its decision and its round, and broadcasts nothing but DECIDED and,
if its input arrives late, a PRE-PREPARE. -/
theorem Trans.of_decided {e : Event V} {out : Option (Output V)} (h : Trans d process s e s' out)
    (hs : s.Sound) (hdec : s.decision ≠ none) :
    s'.qCommit = s.qCommit ∧ s'.round = s.round ∧
      ∀ o ∈ out, ∃ req, o = .broadcast req ∧ (req.type = .prePrepare ∨ req.type = .decided) := by
  cases h with
  | idle => exact ⟨rfl, rfl, by simp⟩
  | input => exact ⟨rfl, rfl, by simp⟩
  | inputProposed =>
    refine ⟨rfl, rfl, ?_⟩
    rintro o ⟨rfl⟩
    exact ⟨_, rfl, .inl rfl⟩
  | answered =>
    refine ⟨rfl, rfl, ?_⟩
    rintro o ⟨rfl⟩
    exact ⟨_, rfl, .inr rfl⟩
  | buffered undecided => exact absurd undecided hdec
  | timedOut armed => exact absurd (hs.undecided_of_armed armed) hdec
  | decided rules acc | jumped acc next | proposedPrepared acc | proposedOwn acc =>
    exact absurd acc.undecided hdec
  | noted acc | prepared acc | compareFailed acc | compareAborted acc | compareTimedOut acc
  | committed acc | cached acc => exact absurd acc.undecided hdec

/-- A step that leaves the process undecided never lowers its round, keeps the dedup set unless
it raises the round, and never lowers the prepared round. -/
theorem Trans.of_undecided {e : Event V} {out : Option (Output V)}
    (h : Trans d process s e s' out) (hs : s.Sound) (hund : s'.decision = none) :
    s.decision = none ∧ s.round ≤ s'.round ∧
      (s'.round = s.round → s.dedupRules ⊆ s'.dedupRules) ∧
      s.preparedRound ≤ s'.preparedRound := by
  have hund₀ : s.decision = none := by
    by_contra hdec
    rw [State.decision_eq_none_of_qCommit (h.of_decided hs hdec).1] at hund
    exact hdec hund
  refine ⟨hund₀, ?_⟩
  -- a proposal keeps the set when it is of the current round
  have hprop : ∀ {msg : Msg V} {buffer : Buffer V},
      (changeRound (s.noted buffer .justifiedPrePrepare msg.round) msg.round).round = s.round →
        s.dedupRules ⊆
          (changeRound (s.noted buffer .justifiedPrePrepare msg.round) msg.round).dedupRules := by
    intro msg buffer heq
    rw [changeRound_round] at heq
    rw [changeRound_self (by simp [heq])]
    simp
  cases h with
  | idle | input | inputProposed | answered | buffered | noted acc eq
  | proposedPrepared | proposedOwn | cached => exact ⟨le_rfl, by simp, le_rfl⟩
  | prepared acc | compareFailed acc | compareAborted acc =>
    exact ⟨by simpa using acc.round_le, hprop, by simp⟩
  | compareTimedOut acc =>
    have hle := acc.round_le
    refine ⟨?_, fun heq => ?_, by simp⟩
    · simp only [changeRound_round]
      omega
    · simp only [changeRound_round] at heq
      omega
  | committed acc => exact ⟨le_rfl, by simp, hs.preparedRound_le acc.undecided⟩
  | decided rules acc => exact absurd hund (acc.decision_ne_none rules rfl)
  | @jumped wire _ _ _ _ _ _ acc next =>
    have hlt := (acc.lt_newRound hs.stored wire.isI64 next).1
    refine ⟨by simpa using hlt.le, fun heq => ?_, by simp⟩
    simp only [changeRound_round] at heq
    omega
  | timedOut armed =>
    refine ⟨?_, fun heq => ?_, by simp⟩
    · simp only [changeRound_round]
      omega
    · simp only [changeRound_round] at heq
      omega

end Soundness

end Pluto.Qbft
