import Pluto.Qbft.HonestMessages

/-!
# The panics of the core

`Panics` lists the panics that are left once `classify` and the handlers are put together, with
what each of them takes; `step_panics` says that there are no others.  Admitted messages exclude
the malformed ones.  The panic of the justification cache needs a quorum of ROUND-CHANGEs for a
round whose proposal is already cached: past the first round the dedup set excludes it, and in the
first round it would take an honest ROUND-CHANGE of round 1.  What remains are the two checked
increments, which the next file bounds.
-/

namespace Pluto.Qbft

variable {V : Type} [DecidableEq V] [Inhabited V]

/-! ## Which panics are left -/

/-- The ways a step can panic, and what they take. -/
inductive Panics (d : Definition) (process : ℤ) (s : State V) (e : Event V) (s' : State V) :
    Panic → Prop
  | roundIncrement (h : i64Max ≤ s'.round) : Panics d process s e s' .roundIncrement
  | compareFailureIncrement (h : i64Max ≤ s.compareFailureRound) :
      Panics d process s e s' .compareFailureIncrement
  | justificationCache {wire : WireMsg V} {order : HashOrder V}
      {compared sent : Except QbftError Unit} {buffer : Buffer V} {qrc : List (Msg V)}
      (event : e = .receive wire order compared sent)
      (acc : Accepted d process s wire.msg buffer .quorumRoundChanges (some qrc))
      (cached : s.ppjCache.isSome) : Panics d process s e s' .justificationCache
  | invalidType {wire : WireMsg V} {order : HashOrder V} {compared sent : Except QbftError Unit}
      (event : e = .receive wire order compared sent) (h : wire.msg.type.valid = false) :
      Panics d process s e s' .invalidType
  | nestedJustifications {wire : WireMsg V} {order : HashOrder V}
      {compared sent : Except QbftError Unit} (event : e = .receive wire order compared sent)
      (h : ∃ m, (m = wire.msg ∨ InBuffer s.buffer m) ∧
        ∃ j ∈ m.justification, j.justification ≠ []) :
      Panics d process s e s' .nestedJustifications

section Panics

variable {d : Definition} {process : ℤ} {s : State V} {p : Panic}

/-- The check panics on an unknown type, or where the compare failure round overflows. -/
lemma isJustified_error {msg : Msg V} {c : ℤ} (h : isJustified d msg c = .error p) :
    p = .invalidType ∧ msg.type.valid = false ∨
      p = .compareFailureIncrement ∧ i64Max ≤ c := by
  unfold isJustified at h
  split at h
  case h_1 ht =>
    right
    unfold isJustifiedPrePrepare at h
    rw [if_neg (by simpa using ht)] at h
    split_ifs at h with h1 h2
    · exact ⟨by simpa using h.symm, by omega⟩
    · split at h
      · cases h
      · split_ifs at h
  case h_2 => cases h
  case h_3 => cases h
  case h_4 ht =>
    unfold isJustifiedRoundChange at h
    rw [if_neg (by simpa using ht)] at h
    split_ifs at h
  case h_5 ht =>
    unfold isJustifiedDecided at h
    rw [if_neg (by simpa using ht)] at h
    cases h
  case h_6 h1 h2 h3 h4 h5 =>
    refine .inl ⟨(Except.error.inj h).symm, ?_⟩
    cases ht : msg.type <;> simp_all [MessageType.valid]

omit [DecidableEq V] [Inhabited V] in
lemma broadcast_stop_ne (s : State V) (req : BroadcastRequest V) (sent : Except QbftError Unit)
    (p : Panic) : (broadcast s req sent).stop ≠ some (.panicked p) := by
  cases sent <;> simp [broadcast]

omit [DecidableEq V] in
lemma roundTimeout_panics {sent : Except QbftError Unit}
    (h : (roundTimeout process s sent).stop = some (.panicked p)) :
    p = .roundIncrement ∧ i64Max ≤ (roundTimeout process s sent).state.round := by
  unfold roundTimeout at h ⊢
  split_ifs at h ⊢ with hmax
  · refine ⟨by simpa [panicAt, eq_comm] using h, ?_⟩
    simp only [panicAt]
    omega
  · exact absurd h (broadcast_stop_ne _ _ _ _)

omit [DecidableEq V] in
lemma uponJustifiedPrePrepare_panics {msg : Msg V} {compared sent : Except QbftError Unit}
    (h : (uponJustifiedPrePrepare process s msg compared sent).stop = some (.panicked p)) :
    p = .roundIncrement ∧
      i64Max ≤ (uponJustifiedPrePrepare process s msg compared sent).state.round := by
  unfold uponJustifiedPrePrepare at h ⊢
  split at h
  · exact absurd h (broadcast_stop_ne _ _ _ _)
  · cases h
  · exact roundTimeout_panics h
  · cases h
  · cases h

lemma uponQuorumRoundChanges_panics {qrc : List (Msg V)} {sent : Except QbftError Unit}
    (h : (uponQuorumRoundChanges d process s (some qrc) sent).stop = some (.panicked p)) :
    p = .justificationCache ∧ s.ppjCache.isSome := by
  have hown : (broadcastOwnPrePrepare process s qrc sent).stop = some (.panicked p) →
      p = .justificationCache ∧ s.ppjCache.isSome := by
    unfold broadcastOwnPrePrepare
    split_ifs with h1 h2
    · exact fun h => ⟨by simpa [panicAt, eq_comm] using h, h1⟩
    · exact fun h => by cases h
    · exact fun h => absurd h (broadcast_stop_ne _ _ _ _)
  unfold uponQuorumRoundChanges at h
  dsimp only at h
  split at h
  · split_ifs at h
    · exact absurd h (broadcast_stop_ne _ _ _ _)
    · exact hown h
  · exact hown h

lemma uponRule_panics {wire : WireMsg V} {order : HashOrder V}
    {compared sent : Except QbftError Unit} {buffer : Buffer V} {rule : UponRule}
    {justification : Option (List (Msg V))} (hrule : rule ≠ .nothing)
    (acc : Accepted d process s wire.msg buffer rule justification)
    (h : (uponRule d process (s.noted buffer rule wire.msg.round) wire.msg rule justification
      compared sent).stop = some (.panicked p)) :
    Panics d process s (.receive wire order compared sent) (uponRule d process
      (s.noted buffer rule wire.msg.round) wire.msg rule justification compared sent).state p := by
  cases acc.classified with
  | nothing => exact absurd rfl hrule
  | prePrepare =>
    obtain ⟨rfl, hround⟩ := uponJustifiedPrePrepare_panics h
    exact .roundIncrement hround
  | prepares => exact absurd h (broadcast_stop_ne _ _ _ _)
  | commits => cases h
  | decided => cases h
  | fPlus1 _ _ length mem =>
    obtain ⟨newRound, hnext⟩ := nextMinRound_isOk length fun m hm => (mem m hm).2
    simp only [uponRule, uponFPlus1RoundChanges, noted_round, hnext] at h
    exact absurd h (broadcast_stop_ne _ _ _ _)
  | unjust => cases h
  | roundChanges =>
    obtain ⟨rfl, hcached⟩ := uponQuorumRoundChanges_panics h
    exact .justificationCache rfl acc hcached

/-- **The panics of a step.** -/
theorem step_panics {e : Event V} (h : (step d process s e).stop = some (.panicked p)) :
    Panics d process s e (step d process s e).state p := by
  cases e with
  | input value sent =>
    simp only [step, receiveInput] at h
    split_ifs at h
    · cases h
    · split at h
      · exact absurd h (broadcast_stop_ne _ _ _ _)
      · cases h
    · cases h
  | inputClosed | timerClosed =>
    simp only [step] at h
    split_ifs at h <;> cases h
  | receiveClosed => cases h
  | timer sent =>
    simp only [step] at h ⊢
    split_ifs at h ⊢
    · obtain ⟨rfl, hround⟩ := roundTimeout_panics h
      exact .roundIncrement hround
    · cases h
  | canceled => cases h
  | receive wire order compared sent =>
    simp only [step, receive] at h ⊢
    cases hdec : s.decision with
    | some x =>
      simp only [hdec] at h
      split_ifs at h
      · exact absurd h (broadcast_stop_ne _ _ _ _)
      · cases h
    | none =>
      simp only [hdec, receiveUndecided] at h ⊢
      obtain ⟨buffer, hbuf, hmem⟩ := bufferMsg_spec d s.buffer wire.msg
      cases hjust : isJustified d wire.msg s.compareFailureRound with
      | error p' =>
        simp only [hjust] at h ⊢
        obtain rfl : p' = p := by simpa [panicAt] using h
        rcases isJustified_error hjust with ⟨rfl, hinvalid⟩ | ⟨rfl, hmax⟩
        · exact .invalidType rfl hinvalid
        · exact .compareFailureIncrement hmax
      | ok b =>
        cases b with
        | false => simp [hjust, stay] at h
        | true =>
          simp only [hjust, hbuf] at h ⊢
          cases hcls : classify d order s.round process buffer wire.msg with
          | error p' =>
            simp only [hcls] at h ⊢
            obtain rfl : p' = p := by simpa [panicAt] using h
            rcases classify_error hcls with ⟨rfl, hinvalid⟩ | ⟨rfl, m, hm, hj⟩
            · exact .invalidType rfl hinvalid
            · exact .nestedJustifications rfl ⟨m, hmem m hm, hj⟩
          | ok res =>
            obtain ⟨rule, justification⟩ := res
            simp only [hcls] at h ⊢
            split_ifs at h ⊢ with hrule hdup
            · cases h
            · cases h
            · exact uponRule_panics hrule ⟨hdec, hjust, hmem, classify_spec hcls, hdup⟩ h

end Panics

/-! ## The cache -/

/-- A cached justification is the one of the first round, or its rule is in the dedup set. -/
def State.CacheMarked (s : State V) : Prop :=
  s.ppjCache.isSome → s.round = 1 ∨ ⟨.quorumRoundChanges, s.round⟩ ∈ s.dedupRules

section Cache

variable {d : Definition} {process : ℤ} {s s' : State V} {e : Event V} {out : Option (Output V)}

omit [DecidableEq V] [Inhabited V] in
/-- A cache that survives moving to the message's round was marked before. -/
lemma State.CacheMarked.changeRound_noted (hc : s.CacheMarked) {buffer : Buffer V}
    {rule : UponRule} {r r' : ℤ} (h : (changeRound (s.noted buffer rule r) r').ppjCache.isSome) :
    r' = 1 ∨ ⟨.quorumRoundChanges, r'⟩ ∈
      (changeRound (s.noted buffer rule r) r').dedupRules := by
  obtain ⟨l, hl⟩ := Option.isSome_iff_exists.mp h
  obtain ⟨hround, hcache⟩ := changeRound_ppjCache_eq_some hl
  have hround' : s.round = r' := hround
  rw [changeRound_self hround, ← hround']
  refine (hc (by simpa using Option.isSome_of_eq_some hcache)).imp_right fun hin => ?_
  exact List.mem_cons_of_mem _ hin

theorem Trans.cacheMarked (h : Trans d process s e s' out) (hc : s.CacheMarked) :
    s'.CacheMarked := by
  cases h with
  | idle | input | inputProposed | answered | buffered => exact hc
  | noted | proposedPrepared | proposedOwn | committed =>
    exact fun h => (hc h).imp_right fun hin => List.mem_cons_of_mem _ hin
  | prepared | compareAborted | compareFailed | decided | jumped =>
    exact fun h => by simpa using hc.changeRound_noted h
  | compareTimedOut acc =>
    intro h
    obtain ⟨l, hl⟩ := Option.isSome_iff_exists.mp h
    have heq := (changeRound_ppjCache_eq_some hl).1
    rw [changeRound_round] at heq
    omega
  | cached acc =>
    intro _
    right
    simp [acc.round_eq (.inr rfl)]
  | timedOut =>
    intro h
    obtain ⟨l, hl⟩ := Option.isSome_iff_exists.mp h
    have heq := (changeRound_ppjCache_eq_some hl).1
    omega

lemma exec_cacheMarked (d : Definition) (process : ℤ) (es : List (Event V)) :
    ∀ en ∈ logOf d process es, en.before.CacheMarked :=
  (LoggedMachine.exec_invariant (I := State.CacheMarked) (E := fun _ => True)
    (fun _ => .inl (by simp [machine_init, initialState]))
    (fun s e _ hc => (step_trans d process s e).cacheMarked hc) (fun _ _ => trivial)).2

/-- The buffer holds nothing but delivered messages. -/
lemma Trans.inBuffer {Q : Msg V → Prop} (h : Trans d process s e s' out) (he : e.Receives Q)
    (hs : ∀ m, InBuffer s.buffer m → Q m) : ∀ m, InBuffer s'.buffer m → Q m := by
  have hadd : ∀ {buffer : Buffer V} {msg : Msg V}, Q msg →
      (∀ m, InBuffer buffer m → m = msg ∨ InBuffer s.buffer m) → ∀ m, InBuffer buffer m → Q m := by
    intro buffer msg hmsg hmem m hm
    rcases hmem m hm with rfl | hold
    · exact hmsg
    · exact hs m hold
  cases h with
  | idle | input | inputProposed | answered => exact hs
  | timedOut => simpa using hs
  | buffered undecided mem => exact hadd he mem
  | decided rules acc => simpa using hadd he acc.buffered
  | noted acc | prepared acc | compareFailed acc | compareAborted acc | compareTimedOut acc
  | committed acc | jumped acc | proposedPrepared acc | proposedOwn acc | cached acc =>
    simpa using hadd he acc.buffered

lemma exec_inBuffer {Q : Msg V → Prop} {es : List (Event V)} (hes : ∀ e ∈ es, e.Receives Q) :
    ∀ en ∈ logOf d process es, ∀ m, InBuffer en.before.buffer m → Q m := by
  refine (LoggedMachine.exec_invariant
    (I := fun s : State V => ∀ m, InBuffer s.buffer m → Q m) ?_
    (fun s e he hs => (step_trans d process s e).inBuffer he hs) hes).2
  rintro m ⟨source, fifo, hlookup, -⟩
  simp [machine_init, initialState] at hlookup

end Cache

/-! ## Panic freedom -/

/-- What `Consensus::handle` checks of a message before it is queued. -/
structure Msg.Admitted (m : Msg V) : Prop where
  type : m.type.valid = true
  round : 1 ≤ m.round
  preparedRound : 0 ≤ m.preparedRound

instance : DecidablePred (Msg.Admitted (V := V)) := fun m =>
  decidable_of_iff (m.type.valid = true ∧ 1 ≤ m.round ∧ 0 ≤ m.preparedRound)
    ⟨fun h => ⟨h.1, h.2.1, h.2.2⟩, fun h => ⟨h.type, h.round, h.preparedRound⟩⟩

namespace System

variable {S : System} {net : Net V}

/-- Honest ROUND-CHANGEs are of rounds past the first. -/
lemma Authentic.two_le_round {rc : Msg V} (h : S.Authentic net rc) (ht : rc.type = .roundChange)
    (hc : S.committee.Correct rc.source) : 2 ≤ rc.round := by
  obtain ⟨en, hen, req, hout, h1, h2, -⟩ := h.exists_req hc
  have htrans := trans_of_mem_log hen
  rw [hout] at htrans
  have hs := (exec_sound S.d rc.source (net rc.source)).2 en hen
  obtain ⟨rfl, hund, -, hlt, -⟩ := htrans.roundChange_inv hs (h1.trans ht)
  have hpos := hs.round_pos hund
  rw [← h2]
  show 2 ≤ ((machine S.d rc.source).after en).round
  omega

/-- A leader never sees a quorum of ROUND-CHANGEs for the first round. -/
lemma two_le_of_producedQrc {round : ℤ} {l : List (Msg V)}
    (hauth : ∀ m ∈ l, S.Authentic net m) (h : ProducedQrc S.d round l) : 2 ≤ round := by
  have key : ∀ qrc : List (Msg V), MsgQuorum S.d qrc → (∀ rc ∈ qrc, rc ∈ l) →
      (∀ rc ∈ qrc, rc.type = .roundChange ∧ rc.round = round) → 2 ≤ round := by
    intro qrc hq hsub hrc
    obtain ⟨p, hp, hc⟩ := Committee.exists_correct_of_quorum
      (isQuorum_of_authentic hq fun rc h => hauth rc (hsub rc h))
    obtain ⟨rc, hmem, rfl⟩ := List.mem_map.mp (List.mem_toFinset.mp hp)
    have h2 := (hauth rc (hsub rc hmem)).two_le_round (hrc rc hmem).1 hc
    rw [(hrc rc hmem).2] at h2
    exact h2
  cases h with
  | null quorum mem => exact key _ quorum (fun _ h => h) fun rc h => ⟨(mem rc h).1, (mem rc h).2.1⟩
  | prepared quorum mem _ _ _ =>
    exact key _ quorum (fun _ h => List.mem_append_left _ h)
      fun rc h => ⟨(mem rc h).1, (mem rc h).2.1⟩

/-- **Panic freedom.**  In every history in which only messages come in that pass the admission of the
component (`hadm`), no process panics.  The two checked increments of a round are left out (`hx`),
which overflow at the largest `i64`. -/
theorem panic_free (hr : S.Reachable net) {p : ℤ}
    (hadm : ∀ e ∈ net p, e.Receives (Msg.All Msg.Admitted)) {x : Panic}
    (hx : x ≠ .roundIncrement ∧ x ≠ .compareFailureIncrement) :
    ((machine S.d p).exec (net p)).stop ≠ some (.panicked x) := by
  intro hstop
  obtain ⟨en, hen, hpanic⟩ := LoggedMachine.exec_stop hstop
  have hev := LoggedMachine.mem_log_event hen
  cases step_panics hpanic with
  | roundIncrement => exact hx.1 rfl
  | compareFailureIncrement => exact hx.2 rfl
  | justificationCache event acc cached =>
    have hauth := acc.of_mem_justification (hr.holds hen) (hr.msg_authentic hen event)
    have heq := acc.round_eq (.inr rfl)
    have hfresh := acc.fresh
    rw [heq] at hfresh
    cases acc.classified with
    | roundChanges _ _ _ produced _ =>
      have htwo := two_le_of_producedQrc hauth produced
      rcases exec_cacheMarked S.d p (net p) en hen cached with h1 | hin
      · omega
      · exact hfresh hin
  | invalidType event h =>
    have hvalid := hadm en.event hev
    rw [event] at hvalid
    rw [hvalid.1.type] at h
    cases h
  | nestedJustifications event h =>
    have hflat : ∀ e ∈ net p,
        e.Receives fun m : Msg V => ∀ j ∈ m.justification, j.justification = [] := fun e he =>
      (hr.receives p e he).mono fun m hm j hj => (hm.2 j hj).1
    obtain ⟨m, hm, j, hj, hne⟩ := h
    rcases hm with rfl | hbuf
    · have hmsg := hflat en.event hev
      rw [event] at hmsg
      exact hne (hmsg j hj)
    · exact hne (exec_inBuffer hflat en hen m hbuf j hj)

end System

/-- The run without faults admits every message, and node 0 does not panic over its cache. -/
theorem panic_free_firstRoundNet :
    ((machine fourNodes 0).exec (firstRoundNet 0)).stop ≠ some (.panicked .justificationCache) :=
  System.panic_free firstRoundNet_reachable (by decide +kernel) (by decide)

end Pluto.Qbft
