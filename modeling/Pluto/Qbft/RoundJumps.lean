import Pluto.Qbft.PanicFree

/-!
# Rounds are entered after real expiries

Five rules move a process to a new round, and four of them are fed by messages of others.  Each of
them still leads back to an honest process whose own timer expired, or whose comparison failed, in
the round before: a proposal of a later round needs a quorum of ROUND-CHANGEs for it, a DECIDED
needs a quorum of COMMITs of it, and F+1 future ROUND-CHANGEs contain an honest one of a round no
lower than the one that is entered.  The induction is over the run: the honest message that is
found was sent earlier, from a round that its sender had entered before.
-/

namespace Pluto.Qbft

variable {V : Type} [DecidableEq V] [Inhabited V]

/-- The step is an expiry in round `k`: the round timer fires there, or a proposal of round `k` is
accepted and its comparison times out or fails. -/
def Expires (d : Definition) (process : ℤ) (en : Entry V) (k : ℤ) : Prop :=
  (∃ sent, en.event = .timer sent ∧ en.before.timerArmed = true ∧ en.before.round = k) ∨
    ∃ wire order err sent buffer, en.event = .receive wire order (.error err) sent ∧
      (err = .timeoutError ∨ err = .compareError) ∧
      Accepted d process en.before wire.msg buffer .justifiedPrePrepare none ∧
      wire.msg.round = k

namespace System

variable {S : System} {net net' : Net V}

/-- An honest process had an expiry in round `k`. -/
def Expired (S : System) (net : Net V) (k : ℤ) : Prop :=
  ∃ p, S.Honest p ∧ ∃ en ∈ logOf S.d p (net p), Expires S.d p en k

lemma Expired.mono (hle : MachineNetwork.Extends net net') {k : ℤ} (h : S.Expired net k) :
    S.Expired net' k := by
  obtain ⟨p, hp, en, hen, hexp⟩ := h
  exact ⟨p, hp, en, MachineNetwork.Logged.mono (N := S.network V) hle hen, hexp⟩

/-- There was an expiry in every round from the first to below `r`. -/
def ExpiredBelow (S : System) (net : Net V) (r : ℤ) : Prop :=
  ∀ k, 1 ≤ k → k < r → S.Expired net k

lemma ExpiredBelow.mono (hle : MachineNetwork.Extends net net') {r r' : ℤ}
    (h : S.ExpiredBelow net r) (hr : r' ≤ r) : S.ExpiredBelow net' r' :=
  fun k h1 h2 => (h k h1 (by omega)).mono hle

lemma ExpiredBelow.succ {r : ℤ} (h : S.ExpiredBelow net r) (hr : S.Expired net r) :
    S.ExpiredBelow net (r + 1) := by
  intro k h1 h2
  rcases (by omega : k < r ∨ k = r) with hlt | rfl
  · exact h k h1 hlt
  · exact hr

/-- The rounds a state knows of are accounted for by expiries: its own round, and the round of its
last compare failure. -/
structure Accounted (S : System) (net : Net V) (s : State V) : Prop where
  round : S.ExpiredBelow net s.round
  compareFailureRound : S.ExpiredBelow net (s.compareFailureRound + 1)

lemma Accounted.mono (hle : MachineNetwork.Extends net net') {s : State V}
    (h : S.Accounted net s) : S.Accounted net' s :=
  ⟨h.round.mono hle le_rfl, h.compareFailureRound.mono hle le_rfl⟩

lemma accounted_init (S : System) (net : Net V) (p : ℤ) :
    S.Accounted net (machine (V := V) S.d p).init := by
  rw [machine_init]
  refine ⟨fun k h1 h2 => ?_, fun k h1 h2 => ?_⟩ <;> simp only [initialState] at h2 <;> omega

/-! ## Honest messages of a round -/

section Sent

variable (hlog : ∀ q en, (S.network V).Logged net q en →
  S.Accounted net ((machine S.d q).after en))

include hlog

/-- The sender of an honest ROUND-CHANGE or COMMIT has been in its round. -/
lemma Authentic.expiredBelow {m : Msg V} (h : S.Authentic net m)
    (hc : S.committee.Correct m.source) (ht : m.type = .roundChange ∨ m.type = .commit) :
    S.ExpiredBelow net m.round := by
  obtain ⟨en, hen, req, hout, h1, h2, -⟩ := h.exists_req hc
  have hacc := (hlog m.source en hen).round
  have htrans := trans_of_mem_log hen
  rw [hout] at htrans
  rw [← h2]
  rcases ht with ht | ht
  · have hs := (exec_sound S.d m.source (net m.source)).2 en hen
    obtain ⟨rfl, -⟩ := htrans.roundChange_inv hs (h1.trans ht)
    exact hacc
  · obtain ⟨wire, order, compared, sent, buffer, prepares, -, -, rfl, hafter⟩ :=
      htrans.commit_inv (h1.trans ht)
    rw [hafter] at hacc
    exact hacc

/-- A message quorum of ROUND-CHANGEs or COMMITs of a round has an honest sender. -/
lemma expiredBelow_of_quorum {msgs : List (Msg V)} {r : ℤ} (hq : MsgQuorum S.d msgs)
    (hauth : ∀ m ∈ msgs, S.Authentic net m)
    (hmem : ∀ m ∈ msgs, (m.type = .roundChange ∨ m.type = .commit) ∧ m.round = r) :
    S.ExpiredBelow net r := by
  obtain ⟨p, hp, hc⟩ := Committee.exists_correct_of_quorum (isQuorum_of_authentic hq hauth)
  obtain ⟨m, hm, rfl⟩ := List.mem_map.mp (List.mem_toFinset.mp hp)
  obtain ⟨ht, rfl⟩ := hmem m hm
  exact (hauth m hm).expiredBelow hlog hc ht

variable {p : ℤ} {s : State V} {msg : Msg V} {buffer : Buffer V} (hs : s.Sound)
  (hauth : msg.All (S.Authentic net)) (hholds : s.Holds (S.Authentic net))
  (hacc : S.Accounted net s)

include hs hauth hacc

/-- The rounds below an accepted proposal are accounted for. -/
lemma expiredBelow_of_proposal
    (acc : Accepted S.d p s msg buffer .justifiedPrePrepare none) :
    S.ExpiredBelow net msg.round := by
  have hjust := acc.justified
  have hpos := hs.round_pos acc.undecided
  have hle := acc.round_le
  cases acc.classified with
  | prePrepare type _ =>
    rw [isJustified_prePrepare type] at hjust
    obtain ⟨-, -, h1 | h1 | ⟨pv, hqrc, -⟩⟩ :=
      (isJustifiedPrePrepare_eq_true (le_of_isJustifiedPrePrepare hjust)).mp hjust
    · intro k hk hlt
      omega
    · rw [h1]
      exact hacc.compareFailureRound
    · obtain ⟨qrc, hq⟩ := containsJustifiedQrc_sound hqrc
      refine expiredBelow_of_quorum hlog hq.quorum (fun m hm => hauth.2 m (hq.mem m hm).1) ?_
      intro m hm
      obtain ⟨-, ht, hround, -⟩ := hq.mem m hm
      exact ⟨.inl ht, hround⟩

omit hs in
/-- The rounds below a decision are accounted for. -/
lemma expiredBelow_of_decision {rule : UponRule} {qcommit : List (Msg V)}
    (rules : rule = .quorumCommits ∨ rule = .justifiedDecided)
    (acc : Accepted S.d p s msg buffer rule (some qcommit)) : S.ExpiredBelow net msg.round := by
  have hjust := acc.justified
  cases acc.classified with
  | commits _ eq _ _ =>
    rw [eq]
    exact hacc.round
  | decided type =>
    rw [isJustified_decided type] at hjust
    refine expiredBelow_of_quorum hlog (isJustifiedDecided_eq_true.mp hjust).2 ?_ ?_
    · exact fun m hm => hauth.2 m (mem_filterByRoundAndValue hm).1
    · intro m hm
      obtain ⟨-, ht, hround, -⟩ := mem_filterByRoundAndValue hm
      exact ⟨.inr ht, hround⟩
  | _ => simp at rules

omit hacc in
include hholds in
/-- The rounds below a jump are accounted for. -/
lemma expiredBelow_of_jump {frc : List (Msg V)} {newRound : ℤ} (hi64 : msg.All Msg.IsI64)
    (acc : Accepted S.d p s msg buffer .fPlus1RoundChanges (some frc))
    (next : nextMinRound S.d frc s.round = .ok newRound) : S.ExpiredBelow net newRound := by
  have hle := (acc.lt_newRound hs.stored hi64 next).2
  have hfrc := acc.of_mem_justification hholds hauth
  cases acc.classified with
  | fPlus1 _ nodup length mem =>
    obtain ⟨rc, hrc, hc⟩ := exists_honest_of_length nodup length hfrc
    have hbelow := (hfrc rc hrc).expiredBelow hlog hc (.inl (mem rc hrc).2.1)
    exact fun k h1 h2 => hbelow k h1 (h2.trans_le (hle rc hrc))

end Sent

/-! ## The run -/

/-- **One step.**  The state after a step is accounted for by the expiries before it and its
own. -/
theorem Accounted.step {p : ℤ} {s s' : State V} {e : Event V} {out : Option (Output V)}
    (h : Trans S.d p s e s' out) (hle : MachineNetwork.Extends net net') (hp : S.Honest p)
    (hnew : ⟨s, e, out⟩ ∈ logOf S.d p (net' p))
    (hlog : ∀ q en, (S.network V).Logged net q en → S.Accounted net ((machine S.d q).after en))
    (hs : s.Sound) (hrec : e.Receives (Msg.All (S.Authentic net)))
    (hholds : s.Holds (S.Authentic net)) (hacc : S.Accounted net s) : S.Accounted net' s' := by
  have hold := hacc.mono hle
  have hexp : ∀ {k : ℤ}, Expires S.d p ⟨s, e, out⟩ k → S.Expired net' k := fun hk =>
    ⟨p, hp, _, hnew, hk⟩
  cases h with
  | idle | input | inputProposed | answered | buffered => exact ⟨hold.1, hold.2⟩
  | noted | committed | proposedPrepared | proposedOwn | cached => exact ⟨hold.1, hold.2⟩
  | prepared acc | compareAborted acc =>
    have hbelow := expiredBelow_of_proposal hlog hs hrec hacc acc
    exact ⟨by simpa using hbelow.mono hle le_rfl, by simpa using hold.2⟩
  | compareFailed acc =>
    have hbelow := expiredBelow_of_proposal hlog hs hrec hacc acc
    refine ⟨by simpa using hbelow.mono hle le_rfl, (hbelow.mono hle le_rfl).succ (hexp ?_)⟩
    exact .inr ⟨_, _, _, _, _, rfl, .inr rfl, acc, rfl⟩
  | compareTimedOut acc =>
    have hbelow := expiredBelow_of_proposal hlog hs hrec hacc acc
    refine ⟨?_, by simpa using hold.2⟩
    rw [changeRound_round]
    refine (hbelow.mono hle le_rfl).succ (hexp ?_)
    exact .inr ⟨_, _, _, _, _, rfl, .inl rfl, acc, rfl⟩
  | decided rules acc =>
    have hbelow := expiredBelow_of_decision hlog hrec hacc rules acc
    exact ⟨by simpa using hbelow.mono hle le_rfl, by simpa using hold.2⟩
  | @jumped wire _ _ _ _ _ _ acc next =>
    have hbelow := expiredBelow_of_jump hlog hs hrec hholds wire.isI64 acc next
    exact ⟨by simpa using hbelow.mono hle le_rfl, by simpa using hold.2⟩
  | timedOut armed =>
    refine ⟨?_, by simpa using hold.2⟩
    rw [changeRound_round]
    exact hold.round.succ (hexp (.inl ⟨_, rfl, armed, rfl⟩))

/-- A state of an execution is the first one or was left behind by a step. -/
lemma accounted_of_after {p : ℤ} {s : State V}
    (hlog : ∀ en ∈ logOf S.d p (net p), S.Accounted net ((machine S.d p).after en))
    (h : s = (machine S.d p).init ∨
      ∃ en ∈ logOf S.d p (net p), s = (machine S.d p).after en) : S.Accounted net s := by
  rcases h with rfl | ⟨en, hen, rfl⟩
  · exact accounted_init S net p
  · exact hlog en hen

/-- **Whole runs.** -/
theorem Reachable.accounted (hr : S.Reachable net) :
    ∀ q en, (S.network V).Logged net q en → S.Accounted net ((machine S.d q).after en) := by
  refine MachineNetwork.Reachable.logged_induction
    (Q := fun net q en => S.Accounted net ((machine S.d q).after en))
    (fun hle h => h.mono hle) ?_ hr
  intro net p e hreach hp hen hrun hlog
  have hstate := (LoggedMachine.exec_states (M := machine S.d p) (net p)).1
  refine Accounted.step (step_trans S.d p _ e) (MachineNetwork.extends_extend net p e) hp
    (MachineNetwork.logged_extend hrun) hlog (exec_sound S.d p (net p)).1
    (Event.Receives.mono (fun m hm => hm.all) hen)
    (exec_holds (Reachable.receives_authentic hreach p)).1
    (accounted_of_after (fun en hen => hlog p en hen) hstate)

/-- **Round jumps.**  Whenever a process of a history has entered a round, honest processes have
had an expiry in every round from the first to the one before it; and while there is a round below
the largest `i64` without one, no checked increment of a round overflows. -/
theorem round_entered_after_expiries (hr : S.Reachable net) (p : ℤ) :
    (∀ en ∈ logOf S.d p (net p), ∀ k, 1 ≤ k → k < ((machine S.d p).after en).round →
      S.Expired net k) ∧
    ∀ k, 1 ≤ k → k < i64Max → ¬ S.Expired net k →
      ((machine S.d p).exec (net p)).stop ≠ some (.panicked .roundIncrement) ∧
        ((machine S.d p).exec (net p)).stop ≠ some (.panicked .compareFailureIncrement) := by
  have hlog := hr.accounted
  refine ⟨fun en hen => (hlog p en hen).round, ?_⟩
  intro k h1 hmax hno
  refine ⟨fun hstop => ?_, fun hstop => ?_⟩
  · obtain ⟨en, hen, hpanic⟩ := LoggedMachine.exec_stop hstop
    cases step_panics hpanic with
    | roundIncrement h => exact hno ((hlog p en hen).round k h1 (hmax.trans_le h))
  · obtain ⟨en, hen, hpanic⟩ := LoggedMachine.exec_stop hstop
    have hbefore := accounted_of_after (fun en hen => hlog p en hen)
      ((LoggedMachine.exec_states (M := machine S.d p) (net p)).2 en hen)
    cases step_panics hpanic with
    | compareFailureIncrement h =>
      exact hno (hbefore.compareFailureRound k h1 (by omega))

end System

/-- Node 1 of the split run reaches round 3, after expiries in rounds 1 and 2. -/
theorem round_entered_splitNet :
    byzantineLeader.Expired splitNet 1 ∧ byzantineLeader.Expired splitNet 2 := by
  obtain ⟨en, hen, hround⟩ : ∃ en ∈ logOf fourNodes 1 (splitNet 1),
      ((machine fourNodes 1).after en).round = 3 := by
    decide +kernel
  have hexp := (System.round_entered_after_expiries splitNet_reachable 1).1 en hen
  have hafter : ((machine byzantineLeader.d 1).after en).round = 3 := hround
  exact ⟨hexp 1 (by decide) (by omega), hexp 2 (by decide) (by omega)⟩

end Pluto.Qbft
