import Pluto.Qbft.Invariant

/-!
# The votes of one execution

What one execution of `run` broadcasts over its whole life, for every sequence of events.

`Remembers a s` is the fact that carries the arguments: what a state still knows of an earlier
step `a`.  Each step establishes it for itself and no later step destroys it, so it holds between
any two steps of a log.  An undecided state remembers a COMMIT through its prepared round and
through the dedup set of the round, and it remembers an accepted PRE-PREPARE through the dedup set
*unless the step that accepted it also raised the round*: `is_duplicated_rule` enters the rule
before `change_round` clears the set.  That exception is the whole difference between
`commit_pairwise` and `prepare_unique_iff`.
-/

namespace Pluto.Qbft

variable {V : Type} [DecidableEq V] [Inhabited V]

/-- One step of an execution. -/
abbrev Entry (V : Type) : Type := LoggedMachine.Entry (State V) (Event V) (Output V)

/-- The steps of the execution of `process` over a sequence of events. -/
abbrev logOf (d : Definition) (process : ℤ) (es : List (Event V)) : List (Entry V) :=
  ((machine d process).exec es).log

/-- The step broadcasts a message of type `t` with this round and value. -/
def Votes (t : MessageType) (en : Entry V) (round : ℤ) (value : V) : Prop :=
  ∃ req, en.out = some (.broadcast req) ∧ req.type = t ∧ req.round = round ∧ req.value = value

omit [DecidableEq V] [Inhabited V] in
lemma Votes.value_unique {t t' : MessageType} {en : Entry V} {r r' : ℤ} {v w : V}
    (hv : Votes t en r v) (hw : Votes t' en r' w) : v = w := by
  obtain ⟨req, hout, -, -, rfl⟩ := hv
  obtain ⟨req', hout', -, -, rfl⟩ := hw
  obtain rfl : req = req' := by simpa [hout] using hout'
  rfl

/-- The step calls `decide` with this value. -/
def Decides (en : Entry V) (value : V) : Prop := ∃ qcommit, en.out = some (.decide value qcommit)

instance (en : Entry V) (value : V) : Decidable (Decides en value) :=
  decidable_of_iff (en.out.any fun
    | .decide v _ => v = value
    | .broadcast _ => false) <| by
  cases hout : en.out with
  | none => simp [Decides, hout]
  | some o => cases o <;> simp [Decides, hout, eq_comm]

/-- The step accepts a PRE-PREPARE: the message is justified, not of a past round, its rule is
not in the dedup set, and the comparison succeeds. -/
structure Accepts (d : Definition) (en : Entry V) (m : Msg V) : Prop where
  event : ∃ wire order sent, en.event = .receive wire order (.ok ()) sent ∧ wire.msg = m
  undecided : en.before.decision = none
  type : m.type = .prePrepare
  justified : isJustified d m en.before.compareFailureRound = .ok true
  le : en.before.round ≤ m.round
  fresh : ⟨.justifiedPrePrepare, m.round⟩ ∉ en.before.dedupRules

/-! ## Reading a vote off a step -/

section Inversion

variable {d : Definition} {process : ℤ} {s s' : State V} {e : Event V} {req : BroadcastRequest V}

lemma Trans.prepare_inv (h : Trans d process s e s' (some (.broadcast req)))
    (ht : req.type = .prepare) :
    ∃ wire order sent buffer, e = .receive wire order (.ok ()) sent ∧
      Accepted d process s wire.msg buffer .justifiedPrePrepare none ∧
      req = prepareRequest process wire.msg ∧
      s' = changeRound (s.noted buffer .justifiedPrePrepare wire.msg.round) wire.msg.round := by
  cases h with
  | prepared acc => exact ⟨_, _, _, _, rfl, acc, rfl, rfl⟩
  | _ => simp [commitRequest, roundChangeRequest, prePrepareRequest, decidedRequest] at ht

lemma Trans.commit_inv (h : Trans d process s e s' (some (.broadcast req)))
    (ht : req.type = .commit) :
    ∃ wire order compared sent buffer prepares, e = .receive wire order compared sent ∧
      Accepted d process s wire.msg buffer .quorumPrepares (some prepares) ∧
      req = commitRequest process s.round wire.msg.value ∧
      s' = { s.noted buffer .quorumPrepares wire.msg.round with
        preparedRound := s.round
        preparedValue := wire.msg.value
        preparedJustification := some prepares } := by
  cases h with
  | committed acc => exact ⟨_, _, _, _, _, _, rfl, acc, rfl, rfl⟩
  | _ => simp [prepareRequest, roundChangeRequest, prePrepareRequest, decidedRequest] at ht

/-- A ROUND-CHANGE tells the state after the step, which raised the round and nothing else. -/
lemma Trans.roundChange_inv (h : Trans d process s e s' (some (.broadcast req)))
    (hs : s.Sound) (ht : req.type = .roundChange) :
    req = roundChangeRequest process s' ∧ s.decision = none ∧ s'.decision = none ∧
      s.round < s'.round ∧ s'.preparedRound = s.preparedRound ∧
      s'.preparedValue = s.preparedValue ∧
      s'.preparedJustification = s.preparedJustification := by
  cases h with
  | compareTimedOut acc =>
    have hle := acc.round_le
    refine ⟨rfl, acc.undecided, by simpa using acc.undecided, ?_, by simp, by simp, by simp⟩
    simp only [changeRound_round]
    omega
  | @jumped wire _ _ _ _ _ _ acc next =>
    have hlt := (acc.lt_newRound hs.stored wire.isI64 next).1
    exact ⟨rfl, acc.undecided, by simpa using acc.undecided, by simpa using hlt, by simp, by simp,
      by simp⟩
  | timedOut armed =>
    have hund := hs.undecided_of_armed armed
    refine ⟨rfl, hund, by simpa using hund, ?_, by simp, by simp, by simp⟩
    simp only [changeRound_round]
    omega
  | _ => simp [prepareRequest, commitRequest, prePrepareRequest, decidedRequest] at ht

lemma Trans.decide_inv {value : V} {qcommit : List (Msg V)}
    (h : Trans d process s e s' (some (.decide value qcommit))) :
    ∃ wire order compared sent buffer rule, e = .receive wire order compared sent ∧
      (rule = .quorumCommits ∨ rule = .justifiedDecided) ∧
      Accepted d process s wire.msg buffer rule (some qcommit) ∧ value = wire.msg.value ∧
      s'.qCommit = some qcommit ∧ s'.round = wire.msg.round := by
  cases h with
  | decided rules acc => exact ⟨_, _, _, _, _, _, rfl, rules, acc, rfl, rfl, by simp⟩

/-- A PREPARE is the answer to an accepted PRE-PREPARE. -/
lemma Trans.accepts (h : Trans d process s e s' (some (.broadcast req)))
    (ht : req.type = .prepare) :
    ∃ m, Accepts d ⟨s, e, some (.broadcast req)⟩ m ∧ req = prepareRequest process m := by
  obtain ⟨wire, order, sent, buffer, rfl, acc, rfl, -⟩ := h.prepare_inv ht
  cases acc.classified with
  | prePrepare type le =>
    exact ⟨wire.msg, ⟨⟨wire, order, sent, rfl, rfl⟩, acc.undecided, type, acc.justified, le,
      acc.fresh⟩, rfl⟩

end Inversion

/-- An accepted PRE-PREPARE is answered by a PREPARE, in the round of the message. -/
lemma Accepts.step {d : Definition} {en : Entry V} {m : Msg V} (h : Accepts d en m)
    (process : ℤ) :
    ∃ buffer, (step d process en.before en.event).state =
        changeRound (en.before.noted buffer .justifiedPrePrepare m.round) m.round ∧
      (step d process en.before en.event).out =
        some (.broadcast (prepareRequest process m)) := by
  obtain ⟨wire, order, sent, hev, rfl⟩ := h.event
  obtain ⟨buffer, hbuf, -⟩ := bufferMsg_spec d en.before.buffer wire.msg
  have hcls : classify d order en.before.round process buffer wire.msg =
      .ok (.justifiedPrePrepare, none) := by
    simp [classify, h.type, not_lt.mpr h.le]
  refine ⟨buffer, ?_⟩
  simp [hev, Qbft.step, receive, h.undecided, receiveUndecided, h.justified, hbuf, hcls, h.fresh,
    uponRule, uponJustifiedPrePrepare, broadcastMsg, broadcast, prepareRequest, State.noted]

/-! ## What a state remembers -/

/-- What the state `s` still knows of an earlier step `a`. -/
structure Remembers (d : Definition) (a : Entry V) (s : State V) : Prop where
  decided : ∀ v, Decides a v → s.decision ≠ none
  round_le : s.decision = none → a.before.round ≤ s.round
  commit : s.decision = none → ∀ r v, Votes .commit a r v →
    r ≤ s.preparedRound ∧ r ≤ s.round ∧ (r = s.round → ⟨.quorumPrepares, r⟩ ∈ s.dedupRules)
  -- a step that raised the round has cleared the set it entered its rule in
  accept : s.decision = none → ∀ m, Accepts d a m → m.round ≤ s.round ∧
    (m.round = s.round → ⟨.justifiedPrePrepare, m.round⟩ ∈ s.dedupRules ∨ a.before.round < m.round)
  roundChange : s.decision = none → ∀ req, a.out = some (.broadcast req) →
    req.type = .roundChange → req.round ≤ s.round

section History

variable {d : Definition} {process : ℤ} {s s' : State V} {e : Event V} {out : Option (Output V)}

/-- A step remembers itself. -/
lemma remembers_self (d : Definition) (process : ℤ) (e : Event V) (hs : s.Sound) :
    Remembers d ⟨s, e, (step d process s e).out⟩ (step d process s e).state := by
  have h := step_trans d process s e
  refine ⟨?_, fun hund => (h.of_undecided hs hund).2.1, ?_, ?_, ?_⟩
  · rintro v ⟨qcommit, hout⟩
    dsimp only at hout
    rw [hout] at h
    obtain ⟨wire, order, compared, sent, buffer, rule, -, rules, acc, -, hq, -⟩ := h.decide_inv
    exact acc.decision_ne_none rules hq
  · rintro - r v ⟨req, hout, ht, rfl, -⟩
    dsimp only at hout
    rw [hout] at h
    obtain ⟨wire, order, compared, sent, buffer, prepares, -, acc, rfl, hs'⟩ := h.commit_inv ht
    have heq := acc.round_eq (.inl rfl)
    simp [hs', commitRequest, heq]
  · rintro - m hacc
    obtain ⟨buffer, hstate, -⟩ := hacc.step process
    dsimp only at hstate
    refine ⟨by simp [hstate], fun _ => ?_⟩
    by_cases hr : s.round = m.round
    · left
      rw [hstate, changeRound_self (by simpa using hr)]
      simp
    · right
      have := hacc.le
      dsimp only at this ⊢
      omega
  · rintro - req hout ht
    dsimp only at hout
    rw [hout] at h
    rw [(h.roundChange_inv hs ht).1]
    exact le_rfl

/-- No later step makes the state forget. -/
lemma Remembers.step {a : Entry V} (ha : Remembers d a s) (h : Trans d process s e s' out)
    (hs : s.Sound) : Remembers d a s' := by
  have hkeep : s'.decision = none → s.decision = none ∧ s.round ≤ s'.round ∧
      (s'.round = s.round → s.dedupRules ⊆ s'.dedupRules) ∧ s.preparedRound ≤ s'.preparedRound :=
    h.of_undecided hs
  refine ⟨?_, ?_, ?_, ?_, ?_⟩
  · intro v hv
    rw [State.decision_eq_none_of_qCommit (h.of_decided hs (ha.decided v hv)).1]
    exact ha.decided v hv
  · intro hund
    obtain ⟨hund₀, hle, -⟩ := hkeep hund
    exact (ha.round_le hund₀).trans hle
  · intro hund r v hv
    obtain ⟨hund₀, hle, hsub, hprep⟩ := hkeep hund
    obtain ⟨h1, h2, h3⟩ := ha.commit hund₀ r v hv
    exact ⟨h1.trans hprep, h2.trans hle, fun heq => hsub (by omega) (h3 (by omega))⟩
  · intro hund m hm
    obtain ⟨hund₀, hle, hsub, -⟩ := hkeep hund
    obtain ⟨h1, h2⟩ := ha.accept hund₀ m hm
    exact ⟨h1.trans hle, fun heq => (h2 (by omega)).imp_left fun hin => hsub (by omega) hin⟩
  · intro hund req hout ht
    obtain ⟨hund₀, hle, -⟩ := hkeep hund
    exact (ha.roundChange hund₀ req hout ht).trans hle

/-- Every state of an execution remembers every step before it. -/
theorem exec_remembers (d : Definition) (process : ℤ) (es : List (Event V)) :
    (∀ a ∈ logOf d process es, Remembers d a ((machine d process).exec es).state) ∧
      (logOf d process es).Pairwise fun a b => Remembers d a b.before :=
  LoggedMachine.exec_past (I := State.Sound) (E := fun _ => True) (machine_init_sound d process)
    (fun s e _ hs => (step_trans d process s e).sound hs)
    (fun _ e _ hs => remembers_self d process e hs)
    (fun _ s e _ hs ha => ha.step (step_trans d process s e) hs) (fun _ _ => trivial)

/-- Only `decide` makes a process decided. -/
lemma Trans.decides (h : Trans d process s e s' out) (hund : s.decision = none)
    (hdec : s'.decision ≠ none) : ∃ value qcommit, out = some (.decide value qcommit) := by
  cases h with
  | decided rules acc => exact ⟨_, _, rfl⟩
  | _ => exact absurd (by simpa [State.decision] using hund) hdec

/-- An execution that has not called `decide` is undecided in every state. -/
lemma exec_undecided {es : List (Event V)} (hno : ∀ a ∈ logOf d process es, ∀ v, ¬ Decides a v) :
    ((machine d process).exec es).state.decision = none ∧
      ∀ b ∈ logOf d process es, b.before.decision = none := by
  refine LoggedMachine.exec_induction (M := machine d process) (E := fun _ => True)
    (P := fun r => (∀ a ∈ r.log, ∀ v, ¬ Decides a v) →
      r.state.decision = none ∧ ∀ b ∈ r.log, b.before.decision = none)
    ?_ ?_ es (fun _ _ => trivial) hno
  · intro _
    simp [LoggedMachine.start, machine_init, initialState, State.decision]
  · intro r e hrun _ ih hnone
    rw [LoggedMachine.act_of_running hrun] at hnone ⊢
    obtain ⟨hund, hbefore⟩ := ih fun a ha => hnone a (List.mem_append_left _ ha)
    refine ⟨?_, ?_⟩
    · by_contra hdec
      obtain ⟨v, qcommit, hout⟩ := (step_trans d process r.state e).decides hund hdec
      exact hnone ⟨r.state, e, ((machine d process).step r.state e).out⟩ (by simp) v ⟨qcommit, hout⟩
    · intro b hb
      rcases List.mem_append.mp hb with hold | hnew
      · exact hbefore b hold
      · rw [List.mem_singleton.mp hnew]
        exact hund

end History

/-! ## COMMITs, rounds and decisions -/

section Results

variable {d : Definition} {process : ℤ} {es : List (Event V)}

/-- The COMMIT of a step is for the round it is in. -/
lemma commit_round {en : Entry V} (hen : en ∈ logOf d process es) {r : ℤ} {v : V}
    (h : Votes .commit en r v) : en.before.decision = none ∧ r = en.before.round ∧
      ⟨.quorumPrepares, r⟩ ∉ en.before.dedupRules := by
  obtain ⟨req, hout, ht, rfl, -⟩ := h
  have htrans := trans_of_mem_log hen
  rw [hout] at htrans
  obtain ⟨wire, order, compared, sent, buffer, prepares, -, acc, rfl, -⟩ := htrans.commit_inv ht
  refine ⟨acc.undecided, rfl, ?_⟩
  have hfresh := acc.fresh
  rw [acc.round_eq (.inl rfl)] at hfresh
  exact hfresh

/-- Two steps of an execution, in either order, do not both COMMIT in one round. -/
lemma commit_pairwise (d : Definition) (process : ℤ) (es : List (Event V)) :
    (logOf d process es).Pairwise fun a b =>
      ∀ r v w, Votes .commit a r v → ¬ Votes .commit b r w := by
  refine (exec_remembers d process es).2.imp_of_mem ?_
  intro a b _ hb hab r v w hv hw
  obtain ⟨hund, rfl, hfresh⟩ := commit_round hb hw
  exact hfresh ((hab.commit hund _ v hv).2.2 rfl)

/-- A COMMIT below the round of a ROUND-CHANGE is not above the prepared round it tells. -/
lemma commit_le_preparedRound {a b : Entry V} (ha : a ∈ logOf d process es)
    (hb : b ∈ logOf d process es) {r : ℤ} {v : V} (hv : Votes .commit a r v)
    {req : BroadcastRequest V} (hout : b.out = some (.broadcast req))
    (ht : req.type = .roundChange) (hlt : r < req.round) : r ≤ req.preparedRound := by
  have htrans := trans_of_mem_log hb
  rw [hout] at htrans
  obtain ⟨hreq, hund, -, -, hprep, -⟩ :=
    htrans.roundChange_inv ((exec_sound d process es).2 b hb) ht
  -- whichever step comes second remembers the other
  rcases LoggedMachine.eq_or_rel_of_pairwise (exec_remembers d process es).2 ha hb with rfl | h | h
  · obtain ⟨req', hout', ht', -⟩ := hv
    rw [hout] at hout'
    obtain rfl : req = req' := by simpa using hout'
    simp [ht] at ht'
  · rw [hreq]
    exact ((h.commit hund r v hv).1).trans hprep.ge
  · obtain ⟨hund', rfl, -⟩ := commit_round ha hv
    have := h.roundChange hund' req hout ht
    omega

/-- **COMMITs and decisions.**  Over a whole execution there is at most one COMMIT per round;
until `decide` is called the round never decreases; and `decide` is called at most once, with no
PREPARE, COMMIT or ROUND-CHANGE afterwards. -/
theorem commit_and_decision_unique (d : Definition) (process : ℤ) (es : List (Event V)) :
    ((logOf d process es).Pairwise fun a b =>
      ∀ r v w, Votes .commit a r v → ¬ Votes .commit b r w) ∧
    ((∀ a ∈ logOf d process es, ∀ v, ¬ Decides a v) →
      ((logOf d process es).Pairwise fun a b => a.before.round ≤ b.before.round) ∧
        ∀ a ∈ logOf d process es,
          a.before.round ≤ ((machine d process).exec es).state.round) ∧
    ((logOf d process es).Pairwise fun a b => ∀ v, Decides a v →
      (∀ w, ¬ Decides b w) ∧ ∀ req, b.out = some (.broadcast req) →
        req.type ≠ .prepare ∧ req.type ≠ .commit ∧ req.type ≠ .roundChange) := by
  obtain ⟨hstate, hpair⟩ := exec_remembers d process es
  refine ⟨commit_pairwise d process es, ?_, ?_⟩
  · intro hno
    obtain ⟨hund, hbefore⟩ := exec_undecided hno
    refine ⟨hpair.imp_of_mem fun _ hb hab => hab.round_le (hbefore _ hb), ?_⟩
    exact fun a ha => (hstate a ha).round_le hund
  · refine hpair.imp_of_mem ?_
    intro a b _ hb hab v hv
    obtain ⟨-, -, hout⟩ := (trans_of_mem_log hb).of_decided ((exec_sound d process es).2 b hb)
      (hab.decided v hv)
    refine ⟨?_, ?_⟩
    · rintro w ⟨qcommit, hw⟩
      obtain ⟨req, hreq, -⟩ := hout _ hw
      cases hreq
    · intro req hreq
      obtain ⟨req', heq, htype⟩ := hout _ hreq
      obtain rfl : req = req' := by simpa using heq
      rcases htype with h | h <;> simp [h]

/-! ## PREPAREs -/

/-- No PRE-PREPARE is accepted in a round that the process entered by accepting another one with
a different value. -/
def ProposalsAgree (d : Definition) (log : List (Entry V)) : Prop :=
  log.Pairwise fun a b => ∀ m₁ m₂, Accepts d a m₁ → a.before.round < m₁.round →
    Accepts d b m₂ → m₂.round = m₁.round → m₂.value = m₁.value

lemma prepare_accepts {en : Entry V} (hen : en ∈ logOf d process es) {r : ℤ} {v : V}
    (h : Votes .prepare en r v) : ∃ m, Accepts d en m ∧ m.round = r ∧ m.value = v := by
  obtain ⟨req, hout, ht, rfl, rfl⟩ := h
  have htrans := trans_of_mem_log hen
  rw [hout] at htrans
  obtain ⟨m, hm, rfl⟩ := htrans.accepts ht
  refine ⟨m, ?_, rfl, rfl⟩
  rw [← hout] at hm
  exact hm

lemma Accepts.votes {en : Entry V} (hen : en ∈ logOf d process es) {m : Msg V}
    (h : Accepts d en m) : Votes .prepare en m.round m.value := by
  obtain ⟨buffer, -, hout⟩ := h.step process
  exact ⟨prepareRequest process m, (LoggedMachine.mem_log_out hen).trans hout, rfl, rfl, rfl⟩

/-- If proposals agree, the PREPAREs of one round carry one value. -/
lemma prepare_unique (hagree : ProposalsAgree d (logOf d process es)) :
    ∀ a ∈ logOf d process es, ∀ b ∈ logOf d process es, ∀ r v w,
      Votes .prepare a r v → Votes .prepare b r w → v = w := by
  -- the second of two accepted proposals of one round finds the first in the dedup set, or the
  -- first raised the round
  have hlater : ∀ {a b : Entry V}, a ∈ logOf d process es → b ∈ logOf d process es →
      Remembers d a b.before ∧ (∀ m₁ m₂, Accepts d a m₁ → a.before.round < m₁.round →
        Accepts d b m₂ → m₂.round = m₁.round → m₂.value = m₁.value) →
      ∀ r v w, Votes .prepare a r v → Votes .prepare b r w → v = w := by
    rintro a b ha hb ⟨hab, hsame⟩ r v w hv hw
    obtain ⟨m₁, hm₁, rfl, rfl⟩ := prepare_accepts ha hv
    obtain ⟨m₂, hm₂, hr, rfl⟩ := prepare_accepts hb hw
    obtain ⟨hle, hmem⟩ := hab.accept hm₂.undecided m₁ hm₁
    have hle₂ := hm₂.le
    rcases hmem (by omega) with hin | hjump
    · rw [← hr] at hin
      exact absurd hin hm₂.fresh
    · exact (hsame m₁ m₂ hm₁ hjump hm₂ hr).symm
  intro a ha b hb r v w hv hw
  rcases LoggedMachine.eq_or_rel_of_pairwise ((exec_remembers d process es).2.and hagree) ha hb
    with rfl | h | h
  · exact hv.value_unique hw
  · exact hlater ha hb h r v w hv hw
  · exact (hlater hb ha h r w v hw hv).symm

/-- **When PREPARE votes are unique.**  An execution broadcasts no two PREPAREs of one round with
different values exactly if no PRE-PREPARE is accepted in a round that was entered by accepting
another one with a different value. -/
theorem prepare_unique_iff (d : Definition) (process : ℤ) (es : List (Event V)) :
    (∀ a ∈ logOf d process es, ∀ b ∈ logOf d process es, ∀ r v w,
      Votes .prepare a r v → Votes .prepare b r w → v = w) ↔
    ProposalsAgree d (logOf d process es) := by
  refine ⟨fun h => ?_, prepare_unique⟩
  refine List.pairwise_of_forall_mem_list fun a ha b hb m₁ m₂ hm₁ _ hm₂ hr => ?_
  exact h b hb a ha m₁.round _ _ (hr ▸ hm₂.votes hb) (hm₁.votes ha)

end Results

/-! ### A leader that proposes twice -/

/-- Four nodes, of which the last leads every round. -/
def fourNodes : Definition where
  isLeader _ process := process = 3
  nodes := 4
  fifoLimit := 100
  valid := by decide
  quorum_isSome := quorum_four

/-- The message arrives, the comparison succeeds and so does every broadcast. -/
def deliver (m : Msg ℕ) (h : m.All Msg.IsI64) : Event ℕ :=
  .receive ⟨m, h⟩ (HashOrder.stored ℕ) (.ok ()) (.ok ())

/-- A ROUND-CHANGE of a process that has prepared nothing. -/
def nullRoundChange (source round : ℤ) : Msg ℕ := ⟨.roundChange, source, round, 0, 0, 0, []⟩

/-- The leader's proposal for round 2, over a quorum that has prepared nothing. -/
def secondRoundProposal (value : ℕ) : Msg ℕ :=
  ⟨.prePrepare, 3, 2, value, 0, 0,
    [nullRoundChange 0 2, nullRoundChange 1 2, nullRoundChange 3 2]⟩

/-- Process 2 is still in round 1 when the two proposals of round 2 arrive.  The first one moves
it to round 2 and so clears the dedup set, and the second one is accepted as well. -/
theorem prepare_twice : ¬ ∀ a ∈ logOf fourNodes 2 [deliver (secondRoundProposal 1) (by decide),
      deliver (secondRoundProposal 2) (by decide)],
    ∀ b ∈ logOf fourNodes 2 [deliver (secondRoundProposal 1) (by decide),
      deliver (secondRoundProposal 2) (by decide)],
    ∀ r v w, Votes .prepare a r v → Votes .prepare b r w → v = w := by
  intro h
  refine absurd (h _ (List.mem_cons_self ..) _
    (List.mem_cons_of_mem _ (List.mem_cons_self ..)) 2 1 2
    ⟨prepareRequest 2 (secondRoundProposal 1), rfl, rfl, rfl, rfl⟩
    ⟨prepareRequest 2 (secondRoundProposal 2), rfl, rfl, rfl, rfl⟩) (by decide)

end Pluto.Qbft
