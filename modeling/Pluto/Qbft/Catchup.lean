import Pluto.Qbft.Votes

/-!
# Answers of a decided process

A decided process answers every ROUND-CHANGE of another process with a DECIDED message
(Algorithm 3:17).  Its justification is the list that led to the decision, and its value is the
value of the *first* message of that list.  For a decision over received COMMITs the list is the
filtered quorum.  For a decision over a DECIDED message it is the sender's list as it came, and
`is_justified_decided` looks only for a quorum of COMMITs somewhere in it.

`answer_valid` is the guarantee under the condition that the list's first message carries the
decided value, and `answer_with_foreign_value` shows an answer without it.
-/

namespace Pluto.Qbft

variable {V : Type} [DecidableEq V] [Inhabited V]

/-- A justified DECIDED that reaches the process while it is undecided starts its justification
with a message of the decided value. -/
def DecidedHeadAgrees (d : Definition) (en : Entry V) : Prop :=
  en.before.decision = none → en.event.Receives fun m =>
    m.type = .decided → isJustifiedDecided d m = .ok true →
      ∀ j ∈ m.justification.head?, j.value = m.value

/-- The list is a valid justification of a decision for `value` in `round`. -/
structure CommitProof (d : Definition) (round : ℤ) (value : V) (qcommit : List (Msg V)) : Prop where
  quorum : MsgQuorum d (filterByRoundAndValue qcommit .commit round value)
  head : ∀ j ∈ qcommit.head?, j.value = value

section Answers

variable {d : Definition} {process : ℤ} {s s' : State V} {e : Event V} {es : List (Event V)}

lemma Trans.answer_inv {req : BroadcastRequest V}
    (h : Trans d process s e s' (some (.broadcast req))) (ht : req.type = .decided) :
    ∃ first qCommit, s.decision = some (first, qCommit) ∧
      req = decidedRequest process s.round first.value qCommit := by
  cases h with
  | answered decided => exact ⟨_, _, decided, rfl⟩
  | _ => simp [prepareRequest, commitRequest, roundChangeRequest, prePrepareRequest] at ht

/-- What a decision stands on. -/
lemma commitProof_of_decide {en : Entry V} (hen : en ∈ logOf d process es)
    (hhead : DecidedHeadAgrees d en) {v : V} {qcommit : List (Msg V)}
    (hout : en.out = some (.decide v qcommit)) :
    CommitProof d ((machine d process).after en).round v qcommit := by
  have htrans := trans_of_mem_log hen
  rw [hout] at htrans
  obtain ⟨wire, order, compared, sent, buffer, rule, hev, rules, acc, rfl, -, hround⟩ :=
    htrans.decide_inv
  rw [hround]
  have hund := hhead acc.undecided
  rw [hev] at hund
  have hjust := acc.justified
  cases acc.classified with
  | commits type eq quorum mem =>
    -- the filtered quorum passes the filter again
    have hself : filterByRoundAndValue qcommit .commit wire.msg.round wire.msg.value = qcommit := by
      refine filterMsgs_eq_self quorum.nodup fun m hm => ?_
      obtain ⟨-, h1, h2, h3⟩ := mem m hm
      simp [matchesFilter, h1, h2, h3, eq]
    refine ⟨by rwa [hself], ?_⟩
    intro j hj
    exact (mem j (List.mem_of_mem_head? hj)).2.2.2
  | decided type =>
    rw [isJustified_decided type] at hjust
    exact ⟨(isJustifiedDecided_eq_true.mp hjust).2, hund type hjust⟩
  | _ => simp at rules

/-- The decision of the step `a` is the one the state `s` holds. -/
def Settled (d : Definition) (process : ℤ) (a : Entry V) (s : State V) : Prop :=
  ∀ v qcommit, a.out = some (.decide v qcommit) →
    s.decision ≠ none ∧ s.qCommit = some qcommit ∧ s.round = ((machine d process).after a).round

/-- A decided process keeps its commit quorum and its round. -/
lemma exec_settled (d : Definition) (process : ℤ) (es : List (Event V)) :
    (logOf d process es).Pairwise fun a b => Settled d process a b.before := by
  refine (LoggedMachine.exec_past (I := State.Sound) (E := fun _ => True)
    (machine_init_sound d process) (fun s e _ hs => (step_trans d process s e).sound hs)
    ?_ ?_ (fun _ _ => trivial)).2
  · intro s e _ hs v qcommit hout
    have htrans := step_trans d process s e
    rw [show (step d process s e).out = some (.decide v qcommit) from hout] at htrans
    obtain ⟨wire, order, compared, sent, buffer, rule, -, rules, acc, -, hq, -⟩ :=
      htrans.decide_inv
    exact ⟨acc.decision_ne_none rules hq, hq, rfl⟩
  · intro a s e _ hs ha v qcommit hout
    obtain ⟨hdec, hq, hround⟩ := ha v qcommit hout
    obtain ⟨hq', hround', -⟩ := (step_trans d process s e).of_decided hs hdec
    refine ⟨?_, hq'.trans hq, hround'.trans hround⟩
    rw [show ((machine d process).step s e).state.decision = s.decision from
      State.decision_eq_none_of_qCommit hq']
    exact hdec

/-- The transport's copy of a valid commit proof passes the receiver's check. -/
lemma CommitProof.isJustifiedDecided {round : ℤ} {value : V} {qcommit : List (Msg V)}
    (h : CommitProof d round value qcommit) :
    isJustifiedDecided d (decidedRequest process round value qcommit).toMsg = .ok true := by
  refine isJustifiedDecided_eq_true.mpr ⟨rfl, ?_⟩
  have hstrip := h.quorum.map_strip
  rw [filterByRoundAndValue, ← filterMsgs_map_strip] at hstrip
  exact hstrip

/-- **Catch-up.**  If every justified DECIDED that reaches an undecided process starts its
justification with a message of the decided value, then every DECIDED a decided process
broadcasts carries the value and the round of its decision and is justified at every receiver. -/
theorem answer_valid (hhead : ∀ en ∈ logOf d process es, DecidedHeadAgrees d en) :
    (logOf d process es).Pairwise fun a b => ∀ v, Decides a v → ∀ req,
      b.out = some (.broadcast req) → req.type = .decided →
        req.value = v ∧ req.round = ((machine d process).after a).round ∧
          ∀ c, isJustified d req.toMsg c = .ok true := by
  refine (exec_settled d process es).imp_of_mem ?_
  rintro a b ha hb hkeep v ⟨qcommit, hout⟩ req hreq ht
  obtain ⟨-, hq, hround⟩ := hkeep v qcommit hout
  have hproof := commitProof_of_decide ha (hhead a ha) hout
  have htrans := trans_of_mem_log hb
  rw [hreq] at htrans
  obtain ⟨first, qCommit, hdec, rfl⟩ := htrans.answer_inv ht
  obtain ⟨hq', hfirst⟩ := State.decision_eq_some.mp hdec
  obtain rfl : qcommit = qCommit := by simpa [hq] using hq'
  obtain rfl : first.value = v := hproof.head first hfirst
  refine ⟨rfl, hround, fun c => ?_⟩
  rw [← hround] at hproof
  rw [isJustified_decided rfl]
  exact hproof.isJustifiedDecided

end Answers

/-! ### A DECIDED with and without a foreign first message -/

/-- Three COMMITs for value 1 in the first round. -/
def firstRoundCommits : List (Msg ℕ) :=
  [⟨.commit, 1, 1, 1, 0, 0, []⟩, ⟨.commit, 2, 1, 1, 0, 0, []⟩, ⟨.commit, 3, 1, 1, 0, 0, []⟩]

/-- Process 0 learns the decision for value 1 from a DECIDED message, and then process 1 asks. -/
def catchup (decided : Msg ℕ) (h : decided.All Msg.IsI64) : List (Event ℕ) :=
  [deliver decided h, deliver (nullRoundChange 1 2) (by decide)]

/-- A DECIDED that carries the commit quorum and nothing else. -/
def plainDecided : Msg ℕ := ⟨.decided, 3, 1, 1, 0, 0, firstRoundCommits⟩

/-- The same with a PREPARE of the sender for another value in front. -/
def paddedDecided : Msg ℕ :=
  ⟨.decided, 3, 1, 1, 0, 0, ⟨.prepare, 3, 1, 2, 0, 0, []⟩ :: firstRoundCommits⟩

/-- The answer to process 1 after the plain DECIDED. -/
theorem answer_valid_plainDecided :
    ∃ req : BroadcastRequest ℕ,
      (logOf fourNodes 0 (catchup plainDecided (by decide))).map LoggedMachine.Entry.out =
        [some (.decide 1 firstRoundCommits), some (.broadcast req)] ∧
      req.type = .decided ∧ req.value = 1 ∧ req.round = 1 ∧
      ∀ c, isJustified fourNodes req.toMsg c = .ok true := by
  have hhead : ∀ en ∈ logOf fourNodes 0 (catchup plainDecided (by decide)),
      DecidedHeadAgrees fourNodes en := by
    intro en hen _
    have hev := LoggedMachine.mem_log_event hen
    simp only [catchup, List.mem_cons, List.not_mem_nil, or_false] at hev
    rcases hev with hev | hev <;> rw [hev]
    · intro _ _ j hj
      obtain rfl : _ = j := Option.some.inj hj
      rfl
    · intro ht
      cases ht
  have hvalid := (List.pairwise_cons.mp (answer_valid hhead)).1 _ (List.mem_cons_self ..) 1
    ⟨firstRoundCommits, rfl⟩ (decidedRequest 0 1 1 firstRoundCommits) rfl rfl
  exact ⟨_, rfl, rfl, hvalid⟩

/-- The padded DECIDED is justified and leads to the decision of value 1, and the answer to
process 1 carries value 2. -/
theorem answer_with_foreign_value :
    ¬ (logOf fourNodes 0 (catchup paddedDecided (by decide))).Pairwise fun a b =>
      ∀ v, Decides a v → ∀ req, b.out = some (.broadcast req) → req.type = .decided →
        req.value = v ∧ req.round = ((machine fourNodes 0).after a).round ∧
          ∀ c, isJustified fourNodes req.toMsg c = .ok true := by
  intro h
  have hvalid := (List.pairwise_cons.mp h).1 _ (List.mem_cons_self ..) 1
    ⟨paddedDecided.justification, rfl⟩ (decidedRequest 0 1 2 paddedDecided.justification) rfl rfl
  exact absurd hvalid.1 (by decide)

end Pluto.Qbft
