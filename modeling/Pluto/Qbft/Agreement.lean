import Pluto.Qbft.Network
import Mathlib.Tactic.IntervalCases

/-!
# Agreement, and decisions that are not null

The votes of the honest processes of a reachable history form a `LockedVoting`, so two decisions
carry one value.  Of the three facts the abstract protocol needs, two hold in every history: a
COMMIT stands on a quorum of PREPAREs, and a ROUND-CHANGE tells a prepared round no lower than any
earlier COMMIT (the lock).  The third, one PREPARE value per process and round, holds of an
execution exactly when its proposals agree (`prepare_unique_iff`), and is an assumption here.

The null value doubles as "nothing prepared": a quorum of PREPAREs for null in a justification
lets the leader propose anything.  Agreement assumes that no null proposal is accepted, and
`null_free` shows that the same assumption keeps null from being decided.
-/

namespace Pluto.Qbft

variable {V : Type} [DecidableEq V] [Inhabited V]

/-! ## Executions without compare failures -/

/-- The event reports a failed comparison. -/
def Event.compareFails : Event V → Bool
  | .receive _ _ (.error .compareError) _ => true
  | _ => false

/-- The event does not report a failed comparison. -/
abbrev Event.NoCompareError (e : Event V) : Prop := e.compareFails = false

lemma Trans.compareFailureRound_eq {d : Definition} {process : ℤ} {s s' : State V} {e : Event V}
    {out : Option (Output V)} (h : Trans d process s e s' out) (he : e.NoCompareError) :
    s'.compareFailureRound = s.compareFailureRound := by
  cases h with
  | compareFailed => exact absurd he (by simp [Event.compareFails])
  | _ => simp

lemma exec_compareFailureRound {d : Definition} {process : ℤ} {es : List (Event V)}
    (hes : ∀ e ∈ es, e.NoCompareError) :
    ((machine d process).exec es).state.compareFailureRound = 0 ∧
      ∀ en ∈ logOf d process es, en.before.compareFailureRound = 0 :=
  LoggedMachine.exec_invariant (I := fun s : State V => s.compareFailureRound = 0)
    (by simp [machine_init, initialState])
    (fun s e he hs => ((step_trans d process s e).compareFailureRound_eq he).trans hs) hes

namespace System

variable {S : System} {net : Net V}

/-! ## Votes of a history -/

/-- The process has broadcast a message of this type, round and value. -/
def VotedBy (S : System) (net : Net V) (t : MessageType) (p r : ℤ) (v : V) : Prop :=
  ∃ en ∈ logOf S.d p (net p), Votes t en r v

/-- A quorum whose honest members all broadcast such a message. -/
def VoteQuorum (S : System) (net : Net V) (t : MessageType) (r : ℤ) (v : V) : Prop :=
  ∃ Q, S.committee.IsQuorum Q ∧ ∀ q ∈ Q, S.committee.Correct q → S.VotedBy net t q r v

/-- An authentic message quorum of one type, round and value is a quorum of votes. -/
lemma voteQuorum_of_msgQuorum {msgs : List (Msg V)} {t : MessageType} {r : ℤ} {v : V}
    (hq : MsgQuorum S.d msgs) (h : ∀ m ∈ msgs, S.Authentic net m ∧ m.type = t ∧ m.round = r ∧
      m.value = v) : S.VoteQuorum net t r v := by
  refine ⟨_, isQuorum_of_authentic hq fun m hm => (h m hm).1, ?_⟩
  intro q hqmem hc
  obtain ⟨m, hm, rfl⟩ := List.mem_map.mp (List.mem_toFinset.mp hqmem)
  obtain ⟨hauth, rfl, rfl, rfl⟩ := h m hm
  exact hauth.exists_votes hc

/-- The PREPAREs of an authentic justification that agree are a quorum of votes. -/
lemma voteQuorum_of_single {l : List (Msg V)} {pr : ℤ} {pv : V}
    (hauth : ∀ m ∈ l, S.Authentic net m) (h : getSingleJustifiedPrPv S.d l = some (pr, pv)) :
    S.VoteQuorum net .prepare pr pv := by
  obtain ⟨hq, hprep⟩ := getSingleJustifiedPrPv_eq_some.mp h
  refine voteQuorum_of_msgQuorum hq fun m hm => ?_
  obtain ⟨hmem, ht⟩ := mem_preparesOf.mp hm
  exact ⟨hauth m hmem, ht, hprep m hm⟩

lemma VoteQuorum.exists_voted {t : MessageType} {r : ℤ} {v : V} (h : S.VoteQuorum net t r v) :
    ∃ q, S.committee.Correct q ∧ S.VotedBy net t q r v := by
  obtain ⟨Q, hQ, hvote⟩ := h
  obtain ⟨q, hq, hc⟩ := Committee.exists_correct_of_quorum hQ
  exact ⟨q, hc, hvote q hq hc⟩

/-- A COMMIT is of a round of at least one and stands on a quorum of PREPAREs. -/
lemma VotedBy.commit_prepared (hr : S.Reachable net) {p r : ℤ} {v : V}
    (h : S.VotedBy net .commit p r v) : 1 ≤ r ∧ S.VoteQuorum net .prepare r v := by
  obtain ⟨en, hen, req, hout, ht, rfl, rfl⟩ := h
  have htrans := trans_of_mem_log hen
  rw [hout] at htrans
  obtain ⟨wire, order, compared, sent, buffer, prepares, hev, acc, rfl, -⟩ := htrans.commit_inv ht
  have hauth := acc.of_mem_justification (hr.holds hen) (hr.msg_authentic hen hev)
  refine ⟨((exec_sound S.d p (net p)).2 en hen).round_pos acc.undecided, ?_⟩
  cases acc.classified with
  | prepares _ _ quorum mem =>
    exact voteQuorum_of_msgQuorum quorum fun m hm => ⟨hauth m hm, (mem m hm).2⟩

/-- A decision stands on a quorum of COMMITs. -/
lemma commitQuorum_of_decides (hr : S.Reachable net) {p : ℤ} {en : Entry V}
    (hen : en ∈ logOf S.d p (net p)) {v : V} (h : Decides en v) :
    ∃ r, S.VoteQuorum net .commit r v := by
  obtain ⟨qcommit, hout⟩ := h
  have htrans := trans_of_mem_log hen
  rw [hout] at htrans
  obtain ⟨wire, order, compared, sent, buffer, rule, hev, rules, acc, rfl, -⟩ := htrans.decide_inv
  have hauth := acc.of_mem_justification (hr.holds hen) (hr.msg_authentic hen hev)
  have hjust := acc.justified
  cases acc.classified with
  | commits _ _ quorum mem =>
    exact ⟨_, voteQuorum_of_msgQuorum quorum fun m hm => ⟨hauth m hm, (mem m hm).2⟩⟩
  | decided type =>
    rw [isJustified_decided type] at hjust
    refine ⟨wire.msg.round,
      voteQuorum_of_msgQuorum (isJustifiedDecided_eq_true.mp hjust).2 fun m hm => ?_⟩
    obtain ⟨hmem, hfields⟩ := mem_filterByRoundAndValue hm
    exact ⟨hauth m hmem, hfields⟩
  | _ => simp at rules

/-- **The lock.**  An honest ROUND-CHANGE tells a prepared round no lower than any COMMIT of its
sender below its round. -/
lemma Authentic.commit_le {rc : Msg V} (hauth : S.Authentic net rc) (ht : rc.type = .roundChange)
    (hc : S.committee.Correct rc.source) {s : ℤ} {w : V}
    (hcom : S.VotedBy net .commit rc.source s w) (hlt : s < rc.round) : s ≤ rc.preparedRound := by
  obtain ⟨en, hen, req, hout, h1, h2, -, h4, -⟩ := hauth.exists_req hc
  obtain ⟨a, ha, hv⟩ := hcom
  rw [← h4]
  exact commit_le_preparedRound ha hen hv hout (h1.trans ht) (by omega)

/-! ## Proposals past the first round -/

/-- No null proposal is accepted. -/
def NonNullProposals (S : System) (net : Net V) : Prop :=
  ∀ p, S.Honest p → ∀ en ∈ logOf S.d p (net p), ∀ m, Accepts S.d en m → m.value ≠ default

lemma VotedBy.prepare_ne_default (hnn : S.NonNullProposals net) {p r : ℤ} {v : V}
    (hc : S.committee.Correct p) (h : S.VotedBy net .prepare p r v) : v ≠ default := by
  obtain ⟨en, hen, hv⟩ := h
  obtain ⟨m, hm, -, rfl⟩ := prepare_accepts hen hv
  exact hnn p (correct_committee.mp hc) en hen m hm

/-- What a justified quorum of ROUND-CHANGEs says about the COMMITs below its round: there are
none, or none above the prepared round of the value that a PREPARE quorum carries. -/
lemma locked_of_justifiedQrc (hr : S.Reachable net) {justification qrc : List (Msg V)} {round : ℤ}
    {pv : V} (hauth : ∀ m ∈ justification, S.Authentic net m)
    (h : JustifiedQrc S.d justification round pv qrc) :
    ∃ Q, S.committee.IsQuorum Q ∧
      ((∀ q ∈ Q, S.committee.Correct q → ∀ s w, S.VotedBy net .commit q s w → ¬ s < round) ∨
        ∃ pr, pr < round ∧ getSingleJustifiedPrPv S.d justification = some (pr, pv) ∧
          S.VoteQuorum net .prepare pr pv ∧
          ∀ q ∈ Q, S.committee.Correct q → ∀ s w, S.VotedBy net .commit q s w → s < round →
            s ≤ pr) := by
  have hauthq : ∀ rc ∈ qrc, S.Authentic net rc := fun rc hrc => hauth rc (h.mem rc hrc).1
  refine ⟨_, isQuorum_of_authentic h.quorum hauthq, ?_⟩
  -- the ROUND-CHANGE of an honest member of the quorum bounds its COMMITs
  have hbound : ∀ q ∈ (qrc.map Msg.source).toFinset, S.committee.Correct q →
      ∃ rc ∈ qrc, ∀ s w, S.VotedBy net .commit q s w → s < round → s ≤ rc.preparedRound := by
    intro q hq hc
    obtain ⟨rc, hrc, rfl⟩ := List.mem_map.mp (List.mem_toFinset.mp hq)
    obtain ⟨-, ht, hround, -⟩ := h.mem rc hrc
    exact ⟨rc, hrc, fun s w hcom hlt => (hauthq rc hrc).commit_le ht hc hcom (hround ▸ hlt)⟩
  rcases h.prepared with ⟨-, hnull⟩ | ⟨pr, hsingle, hle, rc₀, hrc₀, hpr, -⟩
  · left
    intro q hq hc s w hcom hlt
    obtain ⟨rc, hrc, hs⟩ := hbound q hq hc
    have h1 := hs s w hcom hlt
    have h2 := (hnull rc hrc).1
    have h3 := (hcom.commit_prepared hr).1
    omega
  · right
    refine ⟨pr, ?_, hsingle, voteQuorum_of_single hauth hsingle, ?_⟩
    · have := (h.mem rc₀ hrc₀).2.2.2.2
      omega
    · intro q hq hc s w hcom hlt
      obtain ⟨rc, hrc, hs⟩ := hbound q hq hc
      exact (hs s w hcom hlt).trans (hle rc hrc)

/-- A proposal that is justified without a compare failure is of the first round, or stands on a
justified quorum of ROUND-CHANGEs. -/
lemma justifiedQrc_of_isJustified {d : Definition} {m : Msg V}
    (h : isJustifiedPrePrepare d m 0 = .ok true) : m.round = 1 ∨
      ∃ pv qrc, JustifiedQrc d m.justification m.round pv qrc ∧ (pv = default ∨ m.value = pv) := by
  obtain ⟨-, -, hor⟩ := (isJustifiedPrePrepare_eq_true (by decide)).mp h
  rcases hor with h1 | h1 | ⟨pv, hqrc, hpv⟩
  · exact .inl h1
  · exact .inl (by omega)
  · obtain ⟨qrc, hq⟩ := containsJustifiedQrc_sound hqrc
    exact .inr ⟨pv, qrc, hq, hpv⟩

/-! ## Agreement -/

/-- The votes of a history whose accepted proposals are not null, whose comparisons do not fail
and whose processes accept agreeing proposals. -/
def voting (hr : S.Reachable net) (hnn : S.NonNullProposals net)
    (hcmp : ∀ p, S.Honest p → ∀ e ∈ net p, e.NoCompareError)
    (hagree : ∀ p, S.Honest p → ProposalsAgree S.d (logOf S.d p (net p))) :
    LockedVoting S.committee V where
  prepared p r v := S.VotedBy net .prepare p r v
  committed p r v := S.VotedBy net .commit p r v
  first := 1
  prepared_unique := by
    rintro p r v w hc ⟨a, ha, hv⟩ ⟨b, hb, hw⟩
    exact prepare_unique (hagree p (correct_committee.mp hc)) a ha b hb r v w hv hw
  committed_unique := by
    rintro p r v w - ⟨a, ha, hv⟩ ⟨b, hb, hw⟩
    rcases LoggedMachine.eq_or_rel_of_pairwise (commit_pairwise S.d p (net p)) ha hb
      with rfl | h | h
    · exact hv.value_unique hw
    · exact absurd hw (h r v w hv)
    · exact absurd hv (h r w v hw)
  first_le := fun _ hcom => (hcom.commit_prepared hr).1
  committed_prepared := fun _ hcom => (hcom.commit_prepared hr).2
  prepared_locked := by
    rintro p r v hc ⟨en, hen, hv⟩
    have hp := correct_committee.mp hc
    obtain ⟨m, hm, rfl, rfl⟩ := prepare_accepts hen hv
    have hjust := hm.justified
    rw [isJustified_prePrepare hm.type, (exec_compareFailureRound (hcmp p hp)).2 en hen] at hjust
    rcases justifiedQrc_of_isJustified hjust with h1 | ⟨pv, qrc, hqrc, hpv⟩
    · exact .inl h1.le
    right
    obtain ⟨wire, order, sent, hev, rfl⟩ := hm.event
    obtain ⟨Q, hQ, hlock⟩ := locked_of_justifiedQrc hr (hr.msg_authentic hen hev).2 hqrc
    refine ⟨Q, hQ, hlock.imp_right ?_⟩
    rintro ⟨pr, hlt, -, hprep, hle⟩
    -- the PREPAREs that are followed are not for null, so the proposal is theirs
    obtain ⟨q, hq, hvoted⟩ := hprep.exists_voted
    have hval : wire.msg.value = pv := hpv.resolve_left (hvoted.prepare_ne_default hnn hq)
    exact ⟨pr, hlt, hval ▸ hprep, hle⟩

/-- **Agreement.**  In every history in which no null proposal is accepted and no comparison
fails, and in which no honest process accepts a PRE-PREPARE in a round that it entered by
accepting another one with a different value, any two decisions of honest processes are for the
same value. -/
theorem agreement_of_proposalsAgree (hr : S.Reachable net) (hnn : S.NonNullProposals net)
    (hcmp : ∀ p, S.Honest p → ∀ e ∈ net p, e.NoCompareError)
    (hagree : ∀ p, S.Honest p → ProposalsAgree S.d (logOf S.d p (net p)))
    {p q : ℤ} {a b : Entry V} (ha : a ∈ logOf S.d p (net p)) (hb : b ∈ logOf S.d q (net q))
    {v w : V} (hv : Decides a v) (hw : Decides b w) : v = w := by
  obtain ⟨r, hvq⟩ := commitQuorum_of_decides hr ha hv
  obtain ⟨r', hwq⟩ := commitQuorum_of_decides hr hb hw
  exact LockedVoting.agreement (R := voting hr hnn hcmp hagree) hvq hwq

/-- If every PRE-PREPARE that is delivered proposes something, no null proposal is accepted. -/
lemma nonNullProposals_of_receives (h : ∀ p, S.Honest p → ∀ e ∈ net p,
    e.Receives fun m => m.type = .prePrepare → m.value ≠ default) : S.NonNullProposals net := by
  intro p hp en hen m hm
  obtain ⟨wire, order, sent, hev, rfl⟩ := hm.event
  have hrec := h p hp en.event (LoggedMachine.mem_log_event hen)
  rw [hev] at hrec
  exact hrec hm.type

/-- If every PRE-PREPARE that is delivered is of the first round, proposals agree. -/
lemma proposalsAgree_of_receives {d : Definition} {p : ℤ} {es : List (Event V)}
    (h : ∀ e ∈ es, e.Receives fun m => m.type = .prePrepare → m.round ≤ 1) :
    ProposalsAgree d (logOf d p es) := by
  refine List.pairwise_of_forall_mem_list fun a ha b hb m₁ m₂ hm₁ hlt _ _ => ?_
  obtain ⟨wire, order, sent, hev, rfl⟩ := hm₁.event
  have hrec := h a.event (LoggedMachine.mem_log_event ha)
  rw [hev] at hrec
  have hle := hrec hm₁.type
  have hpos := ((exec_sound d p es).2 a ha).round_pos hm₁.undecided
  omega

end System

/-! ### A run without faults, and a run that splits -/

/-- A PREPARE or COMMIT. -/
def vote (t : MessageType) (source round : ℤ) (value : ℕ) : Msg ℕ :=
  ⟨t, source, round, value, 0, 0, []⟩

/-- Deliveries of the same messages to a process, in order. -/
def deliveries (p : ℤ) (msgs : List (WireMsg ℕ)) : List (ℤ × Event ℕ) :=
  msgs.map fun wire => (p, deliver wire.msg wire.isI64)

/-- Four honest nodes. -/
def noFaults : System where
  d := fourNodes
  byzantine := ∅
  byz_mem := by decide
  byz_card := by decide

/-- The leader proposes 7 in the first round, and three nodes prepare, commit and decide it. -/
def firstRoundSchedule : List (ℤ × Event ℕ) :=
  let proposal : List (WireMsg ℕ) := [⟨⟨.prePrepare, 3, 1, 7, 0, 0, []⟩, by decide⟩]
  let prepares : List (WireMsg ℕ) := [⟨vote .prepare 0 1 7, by decide⟩,
    ⟨vote .prepare 1 1 7, by decide⟩, ⟨vote .prepare 3 1 7, by decide⟩]
  let commits : List (WireMsg ℕ) := [⟨vote .commit 0 1 7, by decide⟩,
    ⟨vote .commit 1 1 7, by decide⟩, ⟨vote .commit 3 1 7, by decide⟩]
  [(3, .input 7 (.ok ()))] ++ deliveries 3 proposal ++ deliveries 0 proposal ++
    deliveries 1 proposal ++ deliveries 0 prepares ++ deliveries 1 prepares ++
    deliveries 3 prepares ++ deliveries 0 commits ++ deliveries 1 commits

/-- What has happened at the end of `firstRoundSchedule`. -/
def firstRoundNet : Net ℕ := MachineNetwork.play (fun _ => []) firstRoundSchedule

lemma firstRoundNet_reachable : noFaults.Reachable firstRoundNet :=
  MachineNetwork.Reachable.init.play (by decide +kernel)

lemma firstRoundNet_events : ∀ p, noFaults.Honest p → ∀ e ∈ firstRoundNet p,
    e.NoCompareError ∧
      e.Receives fun m => m.type = .prePrepare → m.value ≠ default ∧ m.round ≤ 1 := by
  rintro p ⟨h0, h4, -⟩
  obtain ⟨h0', h4'⟩ : 0 ≤ p ∧ p < 4 := ⟨h0, h4⟩
  interval_cases p <;> decide +kernel

/-- In the run without faults nodes 0 and 1 both decide, and they agree. -/
theorem agreement_firstRoundNet :
    (∃ a ∈ logOf fourNodes 0 (firstRoundNet 0), Decides a 7) ∧
      (∃ b ∈ logOf fourNodes 1 (firstRoundNet 1), Decides b 7) ∧
      ∀ a ∈ logOf fourNodes 0 (firstRoundNet 0), ∀ b ∈ logOf fourNodes 1 (firstRoundNet 1),
        ∀ v w, Decides a v → Decides b w → v = w := by
  refine ⟨by decide +kernel, by decide +kernel, ?_⟩
  intro a ha b hb v w hv hw
  refine System.agreement_of_proposalsAgree firstRoundNet_reachable
    (System.nonNullProposals_of_receives fun p hp e he => ?_)
    (fun p hp e he => (firstRoundNet_events p hp e he).1) (fun p hp => ?_) ha hb hv hw
  · exact (firstRoundNet_events p hp e he).2.mono fun m hm ht => (hm ht).1
  · exact System.proposalsAgree_of_receives fun e he =>
      (firstRoundNet_events p hp e he).2.mono fun m hm ht => (hm ht).2

/-- The leader of `fourNodes` is Byzantine. -/
def byzantineLeader : System where
  d := fourNodes
  byzantine := {3}
  byz_mem := by decide
  byz_card := by decide

/-- A proposal of value 2 for round 3.  Node 2 tells that it prepared 1 in round 2, the Byzantine
node tells that it prepared 2 there, and the PREPAREs are those for 2. -/
def thirdRoundProposal : Msg ℕ :=
  ⟨.prePrepare, 3, 3, 2, 0, 0,
    [nullRoundChange 1 3, ⟨.roundChange, 2, 3, 0, 2, 1, []⟩, ⟨.roundChange, 3, 3, 0, 2, 2, []⟩,
      vote .prepare 1 2 2, vote .prepare 2 2 2, vote .prepare 3 2 2]⟩

/-- Nodes 0 and 1 time out.  The leader proposes 1 to nodes 0 and 2 and proposes 2 to nodes 1 and
2, and node 2, which was still in round 1, prepares both.  Nodes 0 and 2 commit 1 and node 0
decides it.  In round 3 the PREPAREs for 2 justify a proposal of 2, which node 1 decides. -/
def splitSchedule : List (ℤ × Event ℕ) :=
  let proposal₁ : List (WireMsg ℕ) := [⟨secondRoundProposal 1, by decide⟩]
  let proposal₂ : List (WireMsg ℕ) := [⟨secondRoundProposal 2, by decide⟩]
  let proposal₃ : List (WireMsg ℕ) := [⟨thirdRoundProposal, by decide⟩]
  let prepares₁ : List (WireMsg ℕ) := [⟨vote .prepare 0 2 1, by decide⟩,
    ⟨vote .prepare 2 2 1, by decide⟩, ⟨vote .prepare 3 2 1, by decide⟩]
  let commits₁ : List (WireMsg ℕ) := [⟨vote .commit 0 2 1, by decide⟩,
    ⟨vote .commit 2 2 1, by decide⟩, ⟨vote .commit 3 2 1, by decide⟩]
  let prepares₂ : List (WireMsg ℕ) := [⟨vote .prepare 1 3 2, by decide⟩,
    ⟨vote .prepare 2 3 2, by decide⟩, ⟨vote .prepare 3 3 2, by decide⟩]
  let commits₂ : List (WireMsg ℕ) := [⟨vote .commit 1 3 2, by decide⟩,
    ⟨vote .commit 2 3 2, by decide⟩, ⟨vote .commit 3 3 2, by decide⟩]
  [(0, .timer (.ok ())), (1, .timer (.ok ()))] ++
    deliveries 2 proposal₁ ++ deliveries 2 proposal₂ ++ deliveries 0 proposal₁ ++
    deliveries 1 proposal₂ ++ deliveries 0 prepares₁ ++ deliveries 2 prepares₁ ++
    deliveries 0 commits₁ ++ [(1, .timer (.ok ())), (2, .timer (.ok ()))] ++
    deliveries 1 proposal₃ ++ deliveries 2 proposal₃ ++ deliveries 1 prepares₂ ++
    deliveries 2 prepares₂ ++ deliveries 1 commits₂

/-- What has happened at the end of `splitSchedule`. -/
def splitNet : Net ℕ := MachineNetwork.play (fun _ => []) splitSchedule

lemma splitNet_reachable : byzantineLeader.Reachable splitNet :=
  MachineNetwork.Reachable.init.play (by decide +kernel)

/-- With one Byzantine node of four, non-null proposals and comparisons that succeed, node 0
decides 1 and node 1 decides 2. -/
theorem disagreement :
    byzantineLeader.Reachable splitNet ∧
      (∀ x ∈ splitSchedule, x.2.NoCompareError ∧
        x.2.Receives fun m => m.type = .prePrepare → m.value ≠ default) ∧
      byzantineLeader.Honest 0 ∧ byzantineLeader.Honest 1 ∧
      (∃ a ∈ logOf fourNodes 0 (splitNet 0), Decides a 1) ∧
      ∃ b ∈ logOf fourNodes 1 (splitNet 1), Decides b 2 :=
  ⟨splitNet_reachable, by decide +kernel, by decide, by decide, by decide +kernel,
    by decide +kernel⟩

namespace System

variable {S : System} {net : Net V}

/-! ## Null decisions -/

/-- A decided value was prepared by an honest process. -/
lemma VoteQuorum.commit_ne_default (hr : S.Reachable net) (hnn : S.NonNullProposals net) {r : ℤ}
    {v : V} (h : S.VoteQuorum net .commit r v) : v ≠ default := by
  obtain ⟨q, -, hcom⟩ := h.exists_voted
  obtain ⟨q', hq', hprep⟩ := (hcom.commit_prepared hr).2.exists_voted
  exact hprep.prepare_ne_default hnn hq'

/-- **No null decision.**  In every history in which no honest process accepts a null proposal,
the decisions are not null; and when a quorum of COMMITs exists for a value, a proposal of a later
round that is justified without a compare failure and carries the prepared quorum of that value
and round proposes it. -/
theorem null_free (hr : S.Reachable net) (hnn : S.NonNullProposals net) :
    (∀ p, S.Honest p → ∀ en ∈ logOf S.d p (net p), ∀ v, Decides en v → v ≠ default) ∧
    ∀ (r : ℤ) (v : V) (commits : List (Msg V)), MsgQuorum S.d commits →
      (∀ c ∈ commits, S.Authentic net c ∧ c.type = .commit ∧ c.round = r ∧ c.value = v) →
      ∀ m : Msg V, S.Deliverable net m → isJustifiedPrePrepare S.d m 0 = .ok true → r < m.round →
        ∀ prepares, MsgQuorum S.d prepares →
          (∀ x ∈ prepares, x ∈ m.justification ∧ x.type = .prepare ∧ x.round = r ∧ x.value = v) →
          m.value = v := by
  refine ⟨?_, ?_⟩
  · intro p _ en hen v hv
    obtain ⟨r, hq⟩ := commitQuorum_of_decides hr hen hv
    exact hq.commit_ne_default hr hnn
  · intro r v commits hcq hcommits m hm hjust hlt prepares hpq hprepares
    have hcom := voteQuorum_of_msgQuorum hcq hcommits
    rcases justifiedQrc_of_isJustified hjust with h1 | ⟨pv, qrc, hqrc, hpv⟩
    · obtain ⟨q, -, hvoted⟩ := hcom.exists_voted
      have := (hvoted.commit_prepared hr).1
      omega
    obtain ⟨Q, hQ, hlock⟩ := locked_of_justifiedQrc hr hm.all.2 hqrc
    obtain ⟨Qc, hQc, hvoted⟩ := hcom
    obtain ⟨q, hqQ, hqc, hc⟩ := Committee.exists_correct_inter hQ hQc
    rcases hlock with hnone | ⟨pr, -, hsingle, -, -⟩
    · exact absurd hlt (hnone q hqQ hc r v (hvoted q hqc hc))
    · -- all the PREPAREs of the justification agree, those of the quorum among them
      have hpos := S.d.quorumCount_pos
      have hlen := hpq.length
      obtain ⟨x, hx⟩ := List.exists_mem_of_length_pos (by omega : 0 < prepares.length)
      obtain ⟨hmem, ht, -, hxv⟩ := hprepares x hx
      have hpvv : v = pv :=
        hxv.symm.trans ((getSingleJustifiedPrPv_eq_some.mp hsingle).2 x (by simp [hmem, ht])).2
      subst hpvv
      exact hpv.resolve_left (VoteQuorum.commit_ne_default hr hnn ⟨Qc, hQc, hvoted⟩)

end System

/-- In the run without faults node 0 decides, and not null. -/
theorem null_free_firstRoundNet :
    (∃ a ∈ logOf fourNodes 0 (firstRoundNet 0), Decides a 7) ∧
      ∀ a ∈ logOf fourNodes 0 (firstRoundNet 0), ∀ v, Decides a v → v ≠ default := by
  refine ⟨by decide +kernel, ?_⟩
  refine (System.null_free firstRoundNet_reachable
    (System.nonNullProposals_of_receives fun p hp e he => ?_)).1 0 (by decide)
  exact (firstRoundNet_events p hp e he).2.mono fun m hm ht => (hm ht).1

/-- The Byzantine leader proposes null in the first round, to nodes that have inputs. -/
def nullSchedule : List (ℤ × Event ℕ) :=
  let proposal : List (WireMsg ℕ) := [⟨⟨.prePrepare, 3, 1, 0, 0, 0, []⟩, by decide⟩]
  let prepares : List (WireMsg ℕ) := [⟨vote .prepare 0 1 0, by decide⟩,
    ⟨vote .prepare 1 1 0, by decide⟩, ⟨vote .prepare 2 1 0, by decide⟩]
  let commits : List (WireMsg ℕ) := [⟨vote .commit 0 1 0, by decide⟩,
    ⟨vote .commit 1 1 0, by decide⟩, ⟨vote .commit 2 1 0, by decide⟩]
  [(0, .input 7 (.ok ())), (1, .input 7 (.ok ())), (2, .input 7 (.ok ()))] ++
    deliveries 0 proposal ++ deliveries 1 proposal ++ deliveries 2 proposal ++
    deliveries 0 prepares ++ deliveries 1 prepares ++ deliveries 2 prepares ++
    deliveries 0 commits

/-- Node 0 has a non-null input, every comparison succeeds, and it decides null. -/
theorem null_decision :
    byzantineLeader.Reachable (MachineNetwork.play (fun _ => []) nullSchedule) ∧
      (∀ x ∈ nullSchedule, x.2.NoCompareError) ∧ byzantineLeader.Honest 0 ∧
      ∃ a ∈ logOf fourNodes 0 (MachineNetwork.play (fun _ => []) nullSchedule 0),
        Decides a default :=
  ⟨MachineNetwork.Reachable.init.play (by decide +kernel), by decide +kernel, by decide,
    by decide +kernel⟩

end Pluto.Qbft
