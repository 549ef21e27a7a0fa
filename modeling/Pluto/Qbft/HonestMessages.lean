import Pluto.Qbft.Agreement

/-!
# Honest messages are justified

The core builds its justifications with one set of functions (`get_justified_qrc`,
`get_prepare_quorums`, `quorum_null_prepared`) and checks those of others with another
(`contains_justified_qrc`, `get_single_justified_pr_pv`).  Here the two halves are put together:
what a producer returns passes the checker (`containsJustifiedQrc_of_produced`), and the state
carries what the producer returned up to the moment it is sent (`Justifiable`), also when a
PRE-PREPARE waits in the cache for the input value.

The one place where the content of the network matters is a leader that falls back to its own
input although its quorum carries PREPAREs.  Without compare failures that takes PREPAREs of
round 0, which no honest process sends.
-/

namespace Pluto.Qbft

variable {V : Type} [DecidableEq V] [Inhabited V]

/-! ## What the producer returns passes the checker -/

omit [DecidableEq V] [Inhabited V] in
lemma preparesOf_map_strip (msgs : List (Msg V)) :
    preparesOf (msgs.map Msg.strip) = (preparesOf msgs).map Msg.strip := by
  rw [preparesOf, preparesOf, List.filter_map]
  rfl

/-- The checker reads the same prepared round and value off the transport's copy. -/
lemma getSingleJustifiedPrPv_map_strip {d : Definition} {msgs : List (Msg V)} {pr : ℤ} {pv : V}
    (h : getSingleJustifiedPrPv d msgs = some (pr, pv)) :
    getSingleJustifiedPrPv d (msgs.map Msg.strip) = some (pr, pv) := by
  obtain ⟨hq, hall⟩ := getSingleJustifiedPrPv_eq_some.mp h
  rw [getSingleJustifiedPrPv_eq_some, preparesOf_map_strip]
  refine ⟨hq.map_strip, ?_⟩
  intro m hm
  obtain ⟨x, hx, rfl⟩ := List.mem_map.mp hm
  exact hall x hx

section Produced

variable {d : Definition} {round : ℤ} {qrc prepares : List (Msg V)}

omit [Inhabited V] in
/-- The ROUND-CHANGEs the checker finds are the ones the producer put first. -/
lemma filterRoundChange_append (hq : MsgQuorum d qrc)
    (hrc : ∀ rc ∈ qrc, rc.type = .roundChange ∧ rc.round = round)
    (hprep : ∀ m ∈ prepares, m.type = .prepare) :
    filterRoundChange (qrc ++ prepares) round = qrc := by
  have hdrop : prepares.filter (matchesFilter .roundChange round none none none) = [] := by
    rw [List.filter_eq_nil_iff]
    intro m hm
    simp [matchesFilter, hprep m hm]
  have hkeep : qrc.filter (matchesFilter .roundChange round none none none) = qrc := by
    rw [List.filter_eq_self]
    intro rc hrc'
    simp [matchesFilter, hrc rc hrc']
  rw [filterRoundChange, filterMsgs, List.filter_append, hdrop, hkeep, List.append_nil]
  exact FirstPerKey.eq_self hq.nodup (by simp)

omit [Inhabited V] in
lemma checkedQrc_eq (hq : MsgQuorum d qrc)
    (hrc : ∀ rc ∈ qrc, rc.type = .roundChange ∧ rc.round = round ∧ 0 ≤ rc.preparedRound ∧
      rc.preparedRound < round) (hprep : ∀ m ∈ prepares, m.type = .prepare) :
    (filterRoundChange ((qrc ++ prepares).map Msg.strip) round).filter
      validRoundChangePreparedRound = qrc.map Msg.strip := by
  rw [filterRoundChange, filterMsgs_map_strip]
  change ((filterRoundChange (qrc ++ prepares) round).map Msg.strip).filter _ = _
  rw [filterRoundChange_append hq (fun rc h => ⟨(hrc rc h).1, (hrc rc h).2.1⟩) hprep,
    List.filter_eq_self]
  intro m hm
  obtain ⟨rc, h, rfl⟩ := List.mem_map.mp hm
  obtain ⟨-, h2, h3, h4⟩ := hrc rc h
  simp [validRoundChangePreparedRound, h2, h3, h4]

/-- **Producer and checker.**  The justification a leader produces for a round of at least one
passes the receivers' check, which reads off null or the value the leader reads off. -/
theorem containsJustifiedQrc_of_produced {l : List (Msg V)} (hpos : 1 ≤ round)
    (h : ProducedQrc d round l) :
    ∃ pv, containsJustifiedQrc d (l.map Msg.strip) round = some pv ∧
      (pv = default ∨ ∃ pr, getSingleJustifiedPrPv d l = some (pr, pv)) := by
  cases h with
  | null quorum mem =>
    refine ⟨default, ?_, .inl rfl⟩
    have hrc : ∀ rc ∈ l, rc.type = .roundChange ∧ rc.round = round ∧ 0 ≤ rc.preparedRound ∧
        rc.preparedRound < round := by
      intro rc hrc
      obtain ⟨h1, h2, h3, -⟩ := mem rc hrc
      exact ⟨h1, h2, by omega, by omega⟩
    have hchk := checkedQrc_eq quorum hrc (fun m (hm : m ∈ []) => by simp at hm)
    rw [List.append_nil] at hchk
    have hnull : ((l.map Msg.strip).all fun rc =>
        rc.preparedRound = 0 && rc.preparedValue = default) = true := by
      simp only [List.all_map, List.all_eq_true]
      intro rc hrc
      obtain ⟨-, -, h3, h4⟩ := mem rc hrc
      simp [h3, h4]
    have hlen : ¬ l.length < d.quorumCount := not_lt.mpr quorum.length
    simp only [containsJustifiedQrc, hchk, hnull, List.length_map, hlen, if_false, if_true]
  | @prepared qrc prepares pr pv quorum mem highest prepareQuorum prepare_mem =>
    have hrc : ∀ rc ∈ qrc, rc.type = .roundChange ∧ rc.round = round ∧ 0 ≤ rc.preparedRound ∧
        rc.preparedRound < round := by
      intro rc hrc
      obtain ⟨h1, h2, h3, h4, -⟩ := mem rc hrc
      exact ⟨h1, h2, h3, h4⟩
    have hchk := checkedQrc_eq quorum hrc fun m hm => (prepare_mem m hm).1
    have hprepares : preparesOf (qrc ++ prepares) = prepares := by
      have hdrop : qrc.filter (fun m => decide (m.type = .prepare)) = [] := by
        rw [List.filter_eq_nil_iff]
        intro rc hrc
        simp [(mem rc hrc).1]
      rw [preparesOf, List.filter_append, hdrop, List.nil_append, List.filter_eq_self]
      intro m hm
      simp [(prepare_mem m hm).1]
    have hsingle : getSingleJustifiedPrPv d (qrc ++ prepares) = some (pr, pv) := by
      rw [getSingleJustifiedPrPv_eq_some, hprepares]
      exact ⟨prepareQuorum, fun m hm => (prepare_mem m hm).2⟩
    have hlen : ¬ qrc.length < d.quorumCount := not_lt.mpr quorum.length
    have hhigh : ((qrc.map Msg.strip).any fun rc => decide (pr < rc.preparedRound)) = false := by
      simp only [List.any_map, List.any_eq_false]
      intro rc hrc
      rw [Function.comp_apply, decide_eq_true_eq, not_lt]
      exact (mem rc hrc).2.2.2.2
    have hfound : ((qrc.map Msg.strip).any fun rc =>
        decide (rc.preparedRound = pr) && decide (rc.preparedValue = pv)) = true := by
      obtain ⟨rc, hrc, h1, h2⟩ := highest
      simp only [List.any_map, List.any_eq_true]
      exact ⟨rc, hrc, by simp [h1, h2]⟩
    simp only [containsJustifiedQrc, hchk, List.length_map, hlen,
      getSingleJustifiedPrPv_map_strip hsingle, hhigh, hfound, Bool.false_eq_true, if_false,
      if_true]
    -- if all the ROUND-CHANGEs are null, the checker does not look at the PREPAREs
    by_cases hnull : ((qrc.map Msg.strip).all fun rc =>
        rc.preparedRound = 0 && rc.preparedValue = default) = true
    · exact ⟨default, by rw [if_pos hnull], .inl rfl⟩
    · exact ⟨pv, by rw [if_neg hnull], .inr ⟨pr, hsingle⟩⟩

end Produced

/-! ## What the state carries -/

/-- The state has prepared nothing, or holds a quorum of PREPAREs for what it has prepared. -/
def State.PreparedProof (d : Definition) (s : State V) : Prop :=
  (s.preparedJustification = none ∧ s.preparedRound = 0 ∧ s.preparedValue = default) ∨
    ∃ prepares, s.preparedJustification = some prepares ∧ 0 ≤ s.preparedRound ∧
      MsgQuorum d prepares ∧ ∀ m ∈ prepares,
        m.type = .prepare ∧ m.round = s.preparedRound ∧ m.value = s.preparedValue

/-- What the state holds ready for its next messages: PREPAREs for what it has prepared, and in
the cache an empty justification for the first round or a quorum that has prepared nothing. -/
structure State.Justifiable (d : Definition) (process : ℤ) (s : State V) : Prop where
  prepared : s.PreparedProof d
  cache : ∀ l, s.ppjCache = some l → d.isLeader s.round process ∧
    (s.round = 1 ∧ l = [] ∨ 1 ≤ s.round ∧ ProducedQrc d s.round l ∧
      getSingleJustifiedPrPv d l = none)

section Carried

variable {d : Definition} {process : ℤ} {s s' : State V} {e : Event V} {out : Option (Output V)}

lemma machine_init_justifiable (d : Definition) (process : ℤ) :
    (machine (V := V) d process).init.Justifiable d process := by
  rw [machine_init]
  refine ⟨.inl ⟨rfl, rfl, rfl⟩, ?_⟩
  intro l hl
  dsimp only at hl
  split_ifs at hl with hlead
  exact ⟨hlead, .inl ⟨rfl, by simpa [eq_comm] using hl⟩⟩

omit [DecidableEq V] in
lemma State.PreparedProof.congr (hp : s.PreparedProof d)
    (h1 : s'.preparedJustification = s.preparedJustification)
    (h2 : s'.preparedRound = s.preparedRound) (h3 : s'.preparedValue = s.preparedValue) :
    s'.PreparedProof d := by
  unfold State.PreparedProof
  rw [h1, h2, h3]
  exact hp

/-- A state with the prepared variables of `s`, and the cache of `s` unless the round changed. -/
lemma State.Justifiable.congr (hj : s.Justifiable d process)
    (h1 : s'.preparedJustification = s.preparedJustification)
    (h2 : s'.preparedRound = s.preparedRound) (h3 : s'.preparedValue = s.preparedValue)
    (h4 : ∀ l, s'.ppjCache = some l → s.round = s'.round ∧ s.ppjCache = some l) :
    s'.Justifiable d process := by
  refine ⟨hj.prepared.congr h1 h2 h3, ?_⟩
  intro l hl
  obtain ⟨hround, hcache⟩ := h4 l hl
  rw [← hround]
  exact hj.cache l hcache

/-- **One step.**  `hown` excludes the fallback to the own input over a quorum with PREPAREs. -/
theorem Trans.justifiable (h : Trans d process s e s' out) (hs : s.Sound)
    (hj : s.Justifiable d process)
    (hown : ∀ wire order compared sent buffer qrc, e = .receive wire order compared sent →
      Accepted d process s wire.msg buffer .quorumRoundChanges (some qrc) →
        ∀ pr pv, getSingleJustifiedPrPv d qrc = some (pr, pv) → s.compareFailureRound ≠ pr) :
    s'.Justifiable d process := by
  cases h with
  | idle | input | inputProposed | answered | buffered =>
    exact hj.congr rfl rfl rfl fun l hl => ⟨rfl, hl⟩
  | noted | proposedPrepared | proposedOwn => exact hj.congr rfl rfl rfl fun l hl => ⟨rfl, hl⟩
  | prepared | compareAborted | jumped | timedOut | compareFailed | decided =>
    refine hj.congr (by simp) (by simp) (by simp) fun l hl => ?_
    simpa using changeRound_ppjCache_eq_some hl
  | compareTimedOut acc =>
    refine hj.congr (by simp) (by simp) (by simp) fun l hl => ?_
    have hle := acc.round_le
    obtain ⟨heq, -⟩ := changeRound_ppjCache_eq_some hl
    rw [changeRound_round] at heq
    omega
  | committed acc =>
    have hpos := hs.round_pos acc.undecided
    refine ⟨.inr ?_, hj.cache⟩
    cases acc.classified with
    | prepares _ _ quorum mem =>
      refine ⟨_, rfl, ?_, quorum, fun m hm => (mem m hm).2⟩
      dsimp only
      omega
  | @cached wire order compared sent buffer qrc acc own =>
    refine ⟨hj.prepared, ?_⟩
    rintro l ⟨rfl⟩
    have hpos := hs.round_pos acc.undecided
    have hnone : getSingleJustifiedPrPv d qrc = none := by
      cases hsingle : getSingleJustifiedPrPv d qrc with
      | none => rfl
      | some x => exact absurd (own x.1 x.2 hsingle) (hown _ _ _ _ _ _ rfl acc x.1 x.2 hsingle)
    cases acc.classified with
    | roundChanges _ _ leader produced _ => exact ⟨leader, .inr ⟨hpos, produced, hnone⟩⟩

lemma Trans.prePrepare_inv {req : BroadcastRequest V}
    (h : Trans d process s e s' (some (.broadcast req))) (ht : req.type = .prePrepare) :
    ∃ l v, req = prePrepareRequest process s.round v l ∧
      (s.ppjCache = some l ∨
        ∃ wire order compared sent buffer, e = .receive wire order compared sent ∧
          Accepted d process s wire.msg buffer .quorumRoundChanges (some l) ∧
          ((∃ pr, getSingleJustifiedPrPv d l = some (pr, v)) ∨
            ∀ pr pv, getSingleJustifiedPrPv d l = some (pr, pv) → s.compareFailureRound = pr)) := by
  cases h with
  | inputProposed nonNull cached => exact ⟨_, _, rfl, .inl cached⟩
  | proposedPrepared acc single =>
    exact ⟨_, _, rfl, .inr ⟨_, _, _, _, _, rfl, acc, .inl ⟨_, single⟩⟩⟩
  | proposedOwn acc own =>
    exact ⟨_, _, rfl, .inr ⟨_, _, _, _, _, rfl, acc, .inr own⟩⟩
  | _ => simp [prepareRequest, commitRequest, roundChangeRequest, decidedRequest] at ht

end Carried

/-! ## Honest messages -/

namespace System

variable {S : System} {net : Net V}

/-- Honest processes prepare in rounds of at least one. -/
lemma VoteQuorum.prepare_round_pos {r : ℤ} {v : V} (h : S.VoteQuorum net .prepare r v) :
    1 ≤ r := by
  obtain ⟨q, -, en, hen, hv⟩ := h.exists_voted
  obtain ⟨m, hm, rfl, -⟩ := prepare_accepts hen hv
  exact (((exec_sound S.d q (net q)).2 en hen).round_pos hm.undecided).trans hm.le

/-- Every state of a process whose comparisons do not fail is justifiable. -/
lemma Reachable.justifiable (hr : S.Reachable net) {p : ℤ}
    (hcmp : ∀ e ∈ net p, e.NoCompareError) :
    ∀ en ∈ logOf S.d p (net p), en.before.Justifiable S.d p := by
  have hinv := LoggedMachine.exec_invariant (M := machine S.d p)
    (I := fun s : State V => s.Sound ∧ s.Holds (S.Authentic net) ∧ s.compareFailureRound = 0 ∧
      s.Justifiable S.d p)
    (E := fun e => e.Receives (Msg.All (S.Authentic net)) ∧ e.NoCompareError)
    ⟨machine_init_sound S.d p, machine_init_holds _ S.d p, by simp [machine_init, initialState],
      machine_init_justifiable S.d p⟩ ?_
    (fun e he => ⟨hr.receives_authentic p e he, hcmp e he⟩)
  · exact fun en hen => (hinv.2 en hen).2.2.2
  rintro s e ⟨hrec, hno⟩ ⟨hs, hholds, hzero, hj⟩
  have htrans := step_trans S.d p s e
  refine ⟨htrans.sound hs, (htrans.holds hrec hholds).1,
    (htrans.compareFailureRound_eq hno).trans hzero, htrans.justifiable hs hj ?_⟩
  rintro wire order compared sent buffer qrc rfl acc pr pv hsingle heq
  have := (voteQuorum_of_single (acc.of_mem_justification hholds hrec) hsingle).prepare_round_pos
  omega

lemma length_le_nodes {msgs : List (Msg V)} (hnd : (msgs.map Msg.source).Nodup)
    (hauth : ∀ m ∈ msgs, S.Authentic net m) : msgs.length ≤ S.d.nodes.toNat := by
  have h := FirstPerKey.length_le_card hnd fun m hm => (hauth m hm).source_mem
  rwa [card_members] at h

omit [DecidableEq V] in
lemma producedQrc_length_le {d : Definition} {round : ℤ} {l : List (Msg V)}
    (h : ProducedQrc d round l) {n : ℕ}
    (hn : ∀ msgs : List (Msg V), (∀ m ∈ msgs, m ∈ l) → (msgs.map Msg.source).Nodup →
      msgs.length ≤ n) : l.length ≤ 2 * n := by
  cases h with
  | null quorum mem =>
    have := hn l (fun _ hm => hm) quorum.nodup
    omega
  | @prepared qrc prepares _ _ quorum _ _ prepareQuorum _ =>
    have h1 := hn qrc (fun m hm => List.mem_append_left _ hm) quorum.nodup
    have h2 := hn prepares (fun m hm => List.mem_append_right _ hm) prepareQuorum.nodup
    rw [List.length_append]
    omega

/-- A ROUND-CHANGE that tells what the state has prepared is justified. -/
lemma isJustifiedRoundChange_of_prepared {d : Definition} {p : ℤ} {s : State V}
    (hp : s.PreparedProof d) (hlt : s.preparedRound < s.round) :
    isJustifiedRoundChange d (roundChangeRequest p s).toMsg = .ok true := by
  rw [isJustifiedRoundChange_eq_true]
  rcases hp with ⟨hnone, hpr, hpv⟩ | ⟨prepares, hsome, hpr, hq, hmem⟩
  · refine ⟨rfl, hpr.ge, hlt, .inl ⟨?_, hpr, hpv⟩⟩
    simp [roundChangeRequest, BroadcastRequest.toMsg, hnone]
  · have hjust : (roundChangeRequest p s).toMsg.justification = prepares.map Msg.strip := by
      simp [roundChangeRequest, BroadcastRequest.toMsg, hsome]
    refine ⟨rfl, hpr, hlt, .inr ⟨?_, ?_, ?_⟩⟩
    · intro hnil
      have hpos := d.quorumCount_pos
      have hlen := hq.length
      rw [hjust, List.map_eq_nil_iff] at hnil
      simp only [hnil, List.length_nil] at hlen
      omega
    · rw [hjust]
      exact hq.map_strip
    · intro m hm
      rw [hjust] at hm
      obtain ⟨x, hx, rfl⟩ := List.mem_map.mp hm
      exact hmem x hx

/-- A PRE-PREPARE over a produced quorum is justified if its value is the one the checker reads
off, or the checker reads off null. -/
lemma isJustifiedPrePrepare_of_produced {d : Definition} {p round : ℤ} {v : V} {l : List (Msg V)}
    (hlead : d.isLeader round p) (hpos : 1 ≤ round) (hprod : ProducedQrc d round l)
    (hv : ∀ pr pv, getSingleJustifiedPrPv d l = some (pr, pv) → pv = v) {c : ℤ}
    (hc : c + 1 ≤ i64Max) :
    isJustifiedPrePrepare d (prePrepareRequest p round v l).toMsg c = .ok true := by
  obtain ⟨pv, hqrc, hor⟩ := containsJustifiedQrc_of_produced hpos hprod
  refine (isJustifiedPrePrepare_eq_true hc).mpr ⟨rfl, hlead, .inr (.inr ⟨pv, hqrc, ?_⟩)⟩
  rcases hor with hnull | ⟨pr, hsingle⟩
  · exact .inl hnull
  · exact .inr (hv pr pv hsingle).symm

/-- **Honest messages are justified.**  In every history, whatever a process broadcasts other
than DECIDED is justified at every receiver, provided none of its own comparisons has failed; and
its justification has at most `2n` entries. -/
theorem honest_justified (hr : S.Reachable net) {p : ℤ} (hcmp : ∀ e ∈ net p, e.NoCompareError)
    {req : BroadcastRequest V} (h : S.Broadcasts net p req)
    (ht : req.type = .prePrepare ∨ req.type = .roundChange ∨ req.type = .prepare ∨
      req.type = .commit) :
    (∀ c, c + 1 ≤ i64Max → isJustified S.d req.toMsg c = .ok true) ∧
      req.toMsg.justification.length ≤ 2 * S.d.nodes.toNat ∧
      req.toMsg.justification.length ≤ maxJustificationsPerNode * S.d.nodes.toNat := by
  suffices hmain : (∀ c, c + 1 ≤ i64Max → isJustified S.d req.toMsg c = .ok true) ∧
      req.toMsg.justification.length ≤ 2 * S.d.nodes.toNat by
    refine ⟨hmain.1, hmain.2, hmain.2.trans ?_⟩
    exact Nat.mul_le_mul_right _ (by decide)
  obtain ⟨en, hen, hout⟩ := h
  have hj := hr.justifiable hcmp en hen
  have hs := (exec_sound S.d p (net p)).2 en hen
  have hauth := exec_carried (hr.receives_authentic p) hen _ hout
  have hzero := (exec_compareFailureRound hcmp).2 en hen
  have htrans := trans_of_mem_log hen
  rw [hout] at htrans
  rcases ht with ht | ht | ht | ht
  · obtain ⟨l, v, rfl, hor⟩ := htrans.prePrepare_inv ht
    have hbound : ∀ msgs : List (Msg V), (∀ m ∈ msgs, m ∈ l) → (msgs.map Msg.source).Nodup →
        msgs.length ≤ S.d.nodes.toNat := fun msgs hsub hnd =>
      length_le_nodes hnd fun m hm => hauth m (hsub m hm)
    have hlen :
        (prePrepareRequest p en.before.round v l).toMsg.justification.length = l.length := by
      simp [prePrepareRequest, BroadcastRequest.toMsg]
    rw [hlen]
    rcases hor with hcache | ⟨wire, order, compared, sent, buffer, hev, acc, hvalue⟩
    · -- sent late, from the cache
      obtain ⟨hlead, ⟨hround, rfl⟩ | ⟨hpos, hprod, hnone⟩⟩ := hj.cache l hcache
      · refine ⟨fun c hc => ?_, by simp⟩
        exact (isJustifiedPrePrepare_eq_true hc).mpr ⟨rfl, hlead, .inl hround⟩
      · refine ⟨fun c hc => ?_, producedQrc_length_le hprod hbound⟩
        exact isJustifiedPrePrepare_of_produced hlead hpos hprod (by simp [hnone]) hc
    · have hpos := hs.round_pos acc.undecided
      cases acc.classified with
      | roundChanges _ _ leader produced _ =>
        refine ⟨fun c hc => ?_, producedQrc_length_le produced hbound⟩
        refine isJustifiedPrePrepare_of_produced leader hpos produced (fun pr pv hsingle => ?_) hc
        rcases hvalue with ⟨pr', hsingle'⟩ | hown
        · simp only [hsingle, Option.some.injEq, Prod.mk.injEq] at hsingle'
          exact hsingle'.2
        · have h1 := hown pr pv hsingle
          have h2 := (voteQuorum_of_single hauth hsingle).prepare_round_pos
          omega
  · obtain ⟨rfl, hund, -, hlt, h1, h2, h3⟩ := htrans.roundChange_inv hs ht
    have hp := hj.prepared.congr h3 h1 h2
    have hle := hs.preparedRound_le hund
    refine ⟨fun c _ => ?_, ?_⟩
    · rw [isJustified_roundChange rfl]
      exact isJustifiedRoundChange_of_prepared hp (by omega)
    · rcases hp with ⟨hnone, -⟩ | ⟨prepares, hsome, -, hq, -⟩
      · simp [roundChangeRequest, BroadcastRequest.toMsg, hnone]
      · have hlen : prepares.length ≤ S.d.nodes.toNat := by
          refine length_le_nodes hq.nodup fun m hm => hauth m ?_
          simpa [Output.carried, roundChangeRequest, hsome] using hm
        simp only [roundChangeRequest, BroadcastRequest.toMsg, hsome, Option.getD_some,
          List.length_map]
        omega
  · obtain ⟨wire, order, sent, buffer, -, -, rfl, -⟩ := htrans.prepare_inv ht
    exact ⟨fun c _ => rfl, by simp [prepareRequest, BroadcastRequest.toMsg]⟩
  · obtain ⟨wire, order, compared, sent, buffer, prepares, -, -, rfl, -⟩ := htrans.commit_inv ht
    exact ⟨fun c _ => rfl, by simp [commitRequest, BroadcastRequest.toMsg]⟩

end System

/-- Nobody gets the first proposal of 7.  All time out, and the leader gets three ROUND-CHANGEs. -/
def secondRoundSchedule : List (ℤ × Event ℕ) :=
  [(3, .input 7 (.ok ())), (0, .timer (.ok ())), (1, .timer (.ok ())), (2, .timer (.ok ())),
    (3, .timer (.ok ()))] ++
    deliveries 3 [⟨nullRoundChange 0 2, by decide⟩, ⟨nullRoundChange 2 2, by decide⟩,
      ⟨nullRoundChange 3 2, by decide⟩]

/-- The proposal of the second round, with its quorum. -/
def secondRoundRequest : BroadcastRequest ℕ :=
  prePrepareRequest 3 2 7 [nullRoundChange 3 2, nullRoundChange 2 2, nullRoundChange 0 2]

/-- The leader proposes in the second round, and any node takes its proposal as justified. -/
theorem honest_justified_secondRound :
    noFaults.Broadcasts (MachineNetwork.play (fun _ => []) secondRoundSchedule) 3
        secondRoundRequest ∧
      ∀ c, c + 1 ≤ i64Max → isJustified fourNodes secondRoundRequest.toMsg c = .ok true := by
  have hreachable : noFaults.Reachable (MachineNetwork.play (fun _ => []) secondRoundSchedule) :=
    MachineNetwork.Reachable.init.play (by decide +kernel)
  have hsent : noFaults.Broadcasts (MachineNetwork.play (fun _ => []) secondRoundSchedule) 3
      secondRoundRequest :=
    ⟨_, List.mem_of_getElem? (i := 4) rfl, rfl⟩
  refine ⟨hsent, ?_⟩
  exact (System.honest_justified hreachable (by decide +kernel) hsent (.inl rfl)).1

end Pluto.Qbft
