import Pluto.Lib.FirstPerKey
import Pluto.Qbft.Types

/-!
# When a message is justified

The checker half of the core: `filter_msgs` and its instances, and the `is_justified` family that
decides whether a received message may be buffered.  Every function comes with one lemma that
says what its answer means; nothing above this file unfolds them.

A *message quorum* (`MsgQuorum`) is a list of messages with distinct sources and at least quorum
length.  All quorum conditions of the core are of this form.
-/

namespace Pluto.Qbft

variable {V : Type} [DecidableEq V] [Inhabited V]

/-! ## Filters -/

/-- The field tests of `filter_msgs`. -/
def matchesFilter (messageType : MessageType) (round : ℤ) (value : Option V) (pr : Option ℤ)
    (pv : Option V) (msg : Msg V) : Bool :=
  messageType = msg.type && round = msg.round
    && (match value with | some value => decide (msg.value = value) | none => true)
    && (match pv with | some pv => decide (msg.preparedValue = pv) | none => true)
    && (match pr with | some pr => decide (pr = msg.preparedRound) | none => true)

/-- One message per process matching the type and round and optional value, pr, pv. -/
def filterMsgs (msgs : List (Msg V)) (messageType : MessageType) (round : ℤ) (value : Option V)
    (pr : Option ℤ) (pv : Option V) : List (Msg V) :=
  firstPerKey Msg.source [] (msgs.filter (matchesFilter messageType round value pr pv))

/-- All round change messages for the provided round. -/
def filterRoundChange (msgs : List (Msg V)) (round : ℤ) : List (Msg V) :=
  filterMsgs msgs .roundChange round none none none

/-- The messages matching the type, round and value. -/
def filterByRoundAndValue (msgs : List (Msg V)) (messageType : MessageType) (round : ℤ)
    (value : V) : List (Msg V) :=
  filterMsgs msgs messageType round (some value) none none

/-- Distinct sources, and enough of them. -/
structure MsgQuorum (d : Definition) (msgs : List (Msg V)) : Prop where
  nodup : (msgs.map Msg.source).Nodup
  length : d.quorumCount ≤ msgs.length

omit [Inhabited V] in
lemma filterMsgs_nodup (msgs : List (Msg V)) (t : MessageType) (r : ℤ) (v : Option V)
    (pr : Option ℤ) (pv : Option V) : ((filterMsgs msgs t r v pr pv).map Msg.source).Nodup :=
  FirstPerKey.nodup _ _

variable {msgs : List (Msg V)}

omit [Inhabited V] in
lemma mem_filterMsgs {t : MessageType} {r : ℤ} {v : Option V}
    {pr : Option ℤ} {pv : Option V} {m : Msg V} (h : m ∈ filterMsgs msgs t r v pr pv) :
    m ∈ msgs ∧ m.type = t ∧ m.round = r ∧ (∀ x, v = some x → m.value = x) ∧
      (∀ x, pr = some x → m.preparedRound = x) ∧ (∀ x, pv = some x → m.preparedValue = x) := by
  obtain ⟨hmem, hmatch⟩ := List.mem_filter.mp (FirstPerKey.mem h)
  simp only [matchesFilter, Bool.and_eq_true, decide_eq_true_eq] at hmatch
  obtain ⟨⟨⟨⟨ht, hr⟩, hv⟩, hpv⟩, hpr⟩ := hmatch
  refine ⟨hmem, ht.symm, hr.symm, ?_, ?_, ?_⟩
  · rintro x rfl
    simpa using hv
  · rintro x rfl
    simpa [eq_comm] using hpr
  · rintro x rfl
    simpa using hpv

omit [Inhabited V] in
lemma mem_filterRoundChange {r : ℤ} {m : Msg V}
    (h : m ∈ filterRoundChange msgs r) : m ∈ msgs ∧ m.type = .roundChange ∧ m.round = r := by
  obtain ⟨h1, h2, h3, -⟩ := mem_filterMsgs h
  exact ⟨h1, h2, h3⟩

omit [Inhabited V] in
lemma mem_filterByRoundAndValue {t : MessageType} {r : ℤ} {v : V}
    {m : Msg V} (h : m ∈ filterByRoundAndValue msgs t r v) :
    m ∈ msgs ∧ m.type = t ∧ m.round = r ∧ m.value = v := by
  obtain ⟨h1, h2, h3, h4, -⟩ := mem_filterMsgs h
  exact ⟨h1, h2, h3, h4 v rfl⟩

omit [Inhabited V] in
/-- A list with distinct sources whose members all match passes the filter unchanged. -/
lemma filterMsgs_eq_self {t : MessageType} {r : ℤ} {v : Option V}
    {pr : Option ℤ} {pv : Option V} (hnd : (msgs.map Msg.source).Nodup)
    (h : ∀ m ∈ msgs, matchesFilter t r v pr pv m = true) : filterMsgs msgs t r v pr pv = msgs := by
  rw [filterMsgs, List.filter_eq_self.mpr h]
  exact FirstPerKey.eq_self hnd (by simp)

/-! ### Stripped lists

The transport strips the justifications of a justification, and none of the checks reads them. -/

omit [Inhabited V] in
lemma filterMsgs_map_strip (msgs : List (Msg V)) (t : MessageType) (r : ℤ) (v : Option V)
    (pr : Option ℤ) (pv : Option V) :
    filterMsgs (msgs.map Msg.strip) t r v pr pv = (filterMsgs msgs t r v pr pv).map Msg.strip := by
  rw [filterMsgs, filterMsgs, List.filter_map]
  exact FirstPerKey.map Msg.strip_source [] _

variable {d : Definition}

omit [DecidableEq V] [Inhabited V] in
lemma MsgQuorum.map_strip (h : MsgQuorum d msgs) :
    MsgQuorum d (msgs.map Msg.strip) := by
  refine ⟨?_, by simpa using h.length⟩
  rw [List.map_map]
  exact h.nodup

/-! ## ROUND-CHANGE and DECIDED -/

/-- A ROUND-CHANGE's prepared round is in the valid range `0 <= pr < round`. -/
def validRoundChangePreparedRound (msg : Msg V) : Bool :=
  0 ≤ msg.preparedRound && msg.preparedRound < msg.round

/-- The loop of `is_justified_round_change`: unique sources, all PREPARE for `pr` and `pv`. -/
def preparesAgree (pr : ℤ) (pv : V) : List ℤ → List (Msg V) → Bool
  | _, [] => true
  | sources, prepare :: prepares =>
    if prepare.source ∈ sources then false
    else if prepare.type ≠ .prepare then false
    else if prepare.round ≠ pr then false
    else if prepare.value ≠ pv then false
    else preparesAgree pr pv (prepare.source :: sources) prepares

/-- The ROUND_CHANGE message's prepared round and value is justified. -/
def isJustifiedRoundChange (d : Definition) (msg : Msg V) : Except Panic Bool :=
  if msg.type ≠ .roundChange then .error .notRoundChange
  else if !validRoundChangePreparedRound msg then .ok false
  else if msg.justification.isEmpty then
    .ok (msg.preparedRound = 0 && msg.preparedValue = default)
  else if msg.justification.length < d.quorumCount then .ok false
  else .ok (preparesAgree msg.preparedRound msg.preparedValue [] msg.justification)

/-- The decided message is justified by quorum COMMIT messages of identical round and value. -/
def isJustifiedDecided (d : Definition) (msg : Msg V) : Except Panic Bool :=
  if msg.type ≠ .decided then .error .notDecided
  else
    let commits := filterMsgs msg.justification .commit msg.round (some msg.value) none none
    .ok (d.quorumCount ≤ commits.length)

omit [Inhabited V] in
lemma preparesAgree_iff {pr : ℤ} {pv : V} {sources : List ℤ} :
    preparesAgree pr pv sources msgs = true ↔
      (msgs.map Msg.source).Nodup ∧ (∀ m ∈ msgs, m.source ∉ sources) ∧
        ∀ m ∈ msgs, m.type = .prepare ∧ m.round = pr ∧ m.value = pv := by
  induction msgs generalizing sources with
  | nil => simp [preparesAgree]
  | cons a l ih =>
    rw [preparesAgree]
    split_ifs with h1 h2 h3 h4
    · simp [h1]
    · simp [h2]
    · simp [h3]
    · simp [h4]
    · push Not at h2 h3 h4
      rw [ih]
      simp only [List.map_cons, List.nodup_cons, List.mem_cons, not_or, List.mem_map, not_exists,
        not_and, forall_eq_or_imp, h1, h2, h3, h4, not_false_eq_true, and_self, true_and]
      constructor
      · rintro ⟨hnd, hfresh, hall⟩
        exact ⟨⟨fun b hb => (hfresh b hb).1, hnd⟩, fun b hb => (hfresh b hb).2, hall⟩
      · rintro ⟨⟨hne, hnd⟩, hfresh, hall⟩
        exact ⟨hnd, fun b hb => ⟨hne b hb, hfresh b hb⟩, hall⟩

variable {msg : Msg V}

omit [Inhabited V] in
lemma isJustifiedDecided_eq_true :
    isJustifiedDecided d msg = .ok true ↔
      msg.type = .decided ∧ MsgQuorum d (filterByRoundAndValue msg.justification .commit msg.round
        msg.value) := by
  unfold isJustifiedDecided
  by_cases ht : msg.type = .decided
  · simp only [ht, ne_eq, not_true_eq_false, ↓reduceIte, Except.ok.injEq, decide_eq_true_eq,
      true_and]
    exact ⟨fun h => ⟨filterMsgs_nodup .., h⟩, fun h => h.length⟩
  · simp [ht]

/-- A ROUND-CHANGE is justified by nothing prepared, or by a quorum of PREPAREs for what it says
is prepared. -/
lemma isJustifiedRoundChange_eq_true :
    isJustifiedRoundChange d msg = .ok true ↔
      msg.type = .roundChange ∧ 0 ≤ msg.preparedRound ∧ msg.preparedRound < msg.round ∧
        ((msg.justification = [] ∧ msg.preparedRound = 0 ∧ msg.preparedValue = default) ∨
          (msg.justification ≠ [] ∧ MsgQuorum d msg.justification ∧
            ∀ m ∈ msg.justification,
              m.type = .prepare ∧ m.round = msg.preparedRound ∧ m.value = msg.preparedValue)) := by
  unfold isJustifiedRoundChange validRoundChangePreparedRound
  by_cases ht : msg.type = .roundChange
  swap
  · simp [ht]
  by_cases hv : 0 ≤ msg.preparedRound ∧ msg.preparedRound < msg.round
  swap
  · simp only [ht, ne_eq, not_true_eq_false, ↓reduceIte, true_and]
    rw [if_pos (by
      simp only [Bool.not_eq_true', Bool.and_eq_false_iff, decide_eq_false_iff_not]
      omega)]
    simp only [Except.ok.injEq, Bool.false_eq_true, false_iff]
    exact fun h => hv ⟨h.1, h.2.1⟩
  by_cases he : msg.justification = []
  · simp [ht, hv, he]
  · have hne : msg.justification.isEmpty = false := by simpa using he
    simp only [ht, hv, he, hne, ne_eq, not_true_eq_false, ↓reduceIte, decide_true, Bool.and_self,
      Bool.not_true, Bool.false_eq_true, not_false_eq_true, true_and, false_and, false_or]
    by_cases hlen : msg.justification.length < d.quorumCount
    · simp only [hlen, ↓reduceIte, Except.ok.injEq, Bool.false_eq_true, false_iff, not_and]
      exact fun hq => absurd hq.length (by omega)
    · simp only [hlen, ↓reduceIte, Except.ok.injEq, preparesAgree_iff, List.not_mem_nil,
        not_false_eq_true, implies_true, true_and]
      exact ⟨fun ⟨hnd, hall⟩ => ⟨⟨hnd, by omega⟩, hall⟩, fun ⟨hq, hall⟩ => ⟨hq.nodup, hall⟩⟩

/-! ## PRE-PREPARE -/

/-- The loop of `get_single_justified_pr_pv`: PREPAREs with unique sources, one round and one
value; the result is the last `(pr, pv, count)`. -/
def singlePrPvLoop : List ℤ → ℤ → V → ℕ → List (Msg V) → Option (ℤ × V × ℕ)
  | _, pr, pv, count, [] => some (pr, pv, count)
  | sources, pr, pv, count, msg :: msgs =>
    if msg.type ≠ .prepare then singlePrPvLoop sources pr pv count msgs
    else if msg.source ∈ sources then none
    else if count = 0 then
      singlePrPvLoop (msg.source :: sources) msg.round msg.value (count + 1) msgs
    else if pr ≠ msg.round ∨ pv ≠ msg.value then none
    else singlePrPvLoop (msg.source :: sources) pr pv (count + 1) msgs

/-- The single justified Pr and Pv from quorum PREPAREs in a list of messages. -/
def getSingleJustifiedPrPv (d : Definition) (msgs : List (Msg V)) : Option (ℤ × V) :=
  match singlePrPvLoop [] 0 default 0 msgs with
  | none => none
  | some (pr, pv, count) => if d.quorumCount ≤ count then some (pr, pv) else none

/-- Algorithm 4:1: `pv` if the messages contain a justified quorum of ROUND-CHANGEs (Qrc). -/
def containsJustifiedQrc (d : Definition) (justification : List (Msg V)) (round : ℤ) : Option V :=
  let qrc := (filterRoundChange justification round).filter validRoundChangePreparedRound
  if qrc.length < d.quorumCount then none
  -- J1: a quorum of ROUND-CHANGEs with null pv and null pr
  else if qrc.all fun rc => rc.preparedRound = 0 && rc.preparedValue = default then some default
  else
    -- J2: a quorum of PREPAREs for the highest pr and pv in Qrc
    match getSingleJustifiedPrPv d justification with
    | none => none
    | some (pr, pv) =>
      if qrc.any fun rc => pr < rc.preparedRound then none
      else if qrc.any fun rc => rc.preparedRound = pr && rc.preparedValue = pv then some pv
      else none

/-- The PRE-PREPARE message is justified. -/
def isJustifiedPrePrepare (d : Definition) (msg : Msg V) (compareFailureRound : ℤ) :
    Except Panic Bool :=
  if msg.type ≠ .prePrepare then .error .notPrePrepare
  else if !d.isLeader msg.round msg.source then .ok false
  else if i64Max < compareFailureRound + 1 then .error .compareFailureIncrement
  -- justified in the first round, or if the comparison failed in the previous round
  else if msg.round = 1 ∨ msg.round = compareFailureRound + 1 then .ok true
  else
    match containsJustifiedQrc d msg.justification msg.round with
    | none => .ok false
    | some pv => if pv = default then .ok true else .ok (msg.value = pv)

/-- The message is justified or does not need justification. -/
def isJustified (d : Definition) (msg : Msg V) (compareFailureRound : ℤ) : Except Panic Bool :=
  match msg.type with
  | .prePrepare => isJustifiedPrePrepare d msg compareFailureRound
  | .prepare => .ok true
  | .commit => .ok true
  | .roundChange => isJustifiedRoundChange d msg
  | .decided => isJustifiedDecided d msg
  | _ => .error .invalidType

/-! ### What the checks mean -/

/-- The PREPAREs of a list. -/
def preparesOf (msgs : List (Msg V)) : List (Msg V) := msgs.filter fun m => m.type = .prepare

omit [DecidableEq V] [Inhabited V] in
@[simp] lemma mem_preparesOf {m : Msg V} :
    m ∈ preparesOf msgs ↔ m ∈ msgs ∧ m.type = .prepare := by
  simp [preparesOf]

omit [Inhabited V] in
/-- The loop succeeds on PREPAREs with fresh distinct sources that agree with each other and, if
any came before, with those. -/
lemma singlePrPvLoop_eq_some {sources : List ℤ} {pr pr' : ℤ} {pv pv' : V} {count count' : ℕ} :
    singlePrPvLoop sources pr pv count msgs = some (pr', pv', count') ↔
      ((preparesOf msgs).map Msg.source).Nodup ∧ (∀ m ∈ preparesOf msgs, m.source ∉ sources) ∧
        (∀ m ∈ preparesOf msgs, m.round = pr' ∧ m.value = pv') ∧
        (0 < count ∨ preparesOf msgs = [] → pr = pr' ∧ pv = pv') ∧
        count' = count + (preparesOf msgs).length := by
  induction msgs generalizing sources pr pv count with
  | nil =>
    simp only [singlePrPvLoop, preparesOf, List.filter_nil, Option.some.injEq, Prod.mk.injEq]
    constructor
    · rintro ⟨rfl, rfl, rfl⟩
      simp
    · rintro ⟨-, -, -, h, h'⟩
      exact ⟨(h (.inr trivial)).1, (h (.inr trivial)).2, by simpa using h'.symm⟩
  | cons a l ih =>
    rw [singlePrPvLoop]
    by_cases ht : a.type = .prepare
    swap
    · rw [if_pos ht, ih]
      simp [preparesOf, ht]
    have hcons : preparesOf (a :: l) = a :: preparesOf l := by
      simp [preparesOf, ht]
    rw [if_neg (by simpa using ht), hcons]
    by_cases hs : a.source ∈ sources
    · simp [hs]
    rw [if_neg hs]
    have hfresh : (∀ m ∈ preparesOf l, m.source ∉ a.source :: sources) ↔
        (∀ m ∈ preparesOf l, m.source ≠ a.source) ∧ ∀ m ∈ preparesOf l, m.source ∉ sources := by
      simp only [List.mem_cons, not_or]
      exact ⟨fun h => ⟨fun m hm => (h m hm).1, fun m hm => (h m hm).2⟩,
        fun h m hm => ⟨h.1 m hm, h.2 m hm⟩⟩
    have hnd : ((a :: preparesOf l).map Msg.source).Nodup ↔
        (∀ m ∈ preparesOf l, m.source ≠ a.source) ∧ ((preparesOf l).map Msg.source).Nodup := by
      simp [List.nodup_cons]
    rw [hnd]
    by_cases hc : count = 0
    · subst hc
      rw [if_pos rfl, ih, hfresh]
      simp only [List.forall_mem_cons, hs, not_false_eq_true, true_and, List.length_cons]
      constructor
      · rintro ⟨h1, ⟨h2, h3⟩, h4, h5, h6⟩
        exact ⟨⟨h2, h1⟩, h3, ⟨h5 (by simp), h4⟩, by simp, by omega⟩
      · rintro ⟨⟨h1, h2⟩, h3, ⟨h4, h5⟩, -, h6⟩
        exact ⟨h2, ⟨h1, h3⟩, h5, fun _ => h4, by omega⟩
    · rw [if_neg hc]
      by_cases hmis : pr ≠ a.round ∨ pv ≠ a.value
      · rw [if_pos hmis]
        simp only [reduceCtorEq, List.forall_mem_cons, false_iff, not_and]
        intro _ _ h3 h4
        obtain ⟨rfl, rfl⟩ := h4 (.inl (Nat.pos_of_ne_zero hc))
        exact absurd h3.1 (by tauto)
      · rw [if_neg hmis]
        push Not at hmis
        obtain ⟨rfl, rfl⟩ := hmis
        rw [ih, hfresh]
        simp only [List.forall_mem_cons, hs, not_false_eq_true, true_and, List.length_cons]
        constructor
        · rintro ⟨h1, ⟨h2, h3⟩, h4, h5, h6⟩
          have heq := h5 (by simp)
          exact ⟨⟨h2, h1⟩, h3, ⟨heq, h4⟩, fun _ => heq, by omega⟩
        · rintro ⟨⟨h1, h2⟩, h3, ⟨h4, h5⟩, -, h6⟩
          exact ⟨h2, ⟨h1, h3⟩, h5, fun _ => h4, by omega⟩

/-- The PREPAREs of the list are a message quorum for one round and value. -/
lemma getSingleJustifiedPrPv_eq_some {pr : ℤ} {pv : V} :
    getSingleJustifiedPrPv d msgs = some (pr, pv) ↔
      MsgQuorum d (preparesOf msgs) ∧ ∀ m ∈ preparesOf msgs, m.round = pr ∧ m.value = pv := by
  have hpos := d.quorumCount_pos
  unfold getSingleJustifiedPrPv
  constructor
  · intro h
    split at h
    · cases h
    · rename_i pr' pv' count heq
      split_ifs at h with hq
      obtain ⟨rfl, rfl⟩ : pr' = pr ∧ pv' = pv := by simpa using h
      obtain ⟨h1, -, h3, -, h5⟩ := singlePrPvLoop_eq_some.mp heq
      exact ⟨⟨h1, by omega⟩, h3⟩
  · rintro ⟨hq, hall⟩
    have hne : preparesOf msgs ≠ [] := by
      intro hnil
      have := hq.length
      rw [hnil] at this
      simp only [List.length_nil] at this
      omega
    have hloop : singlePrPvLoop [] 0 default 0 msgs =
        some (pr, pv, 0 + (preparesOf msgs).length) :=
      singlePrPvLoop_eq_some.mpr ⟨hq.nodup, by simp, hall, by simp [hne], rfl⟩
    rw [hloop]
    simp [hq.length]

/-- What a justified quorum of ROUND-CHANGEs consists of: either nothing was prepared (J1), or the
justification's PREPAREs are a quorum for the highest prepared round and its value (J2). -/
structure JustifiedQrc (d : Definition) (justification : List (Msg V)) (round : ℤ) (pv : V)
    (qrc : List (Msg V)) : Prop where
  quorum : MsgQuorum d qrc
  mem : ∀ rc ∈ qrc, rc ∈ justification ∧ rc.type = .roundChange ∧ rc.round = round ∧
    0 ≤ rc.preparedRound ∧ rc.preparedRound < round
  prepared : (pv = default ∧ ∀ rc ∈ qrc, rc.preparedRound = 0 ∧ rc.preparedValue = default) ∨
    ∃ pr, getSingleJustifiedPrPv d justification = some (pr, pv) ∧
      (∀ rc ∈ qrc, rc.preparedRound ≤ pr) ∧
      ∃ rc ∈ qrc, rc.preparedRound = pr ∧ rc.preparedValue = pv

lemma containsJustifiedQrc_sound {justification : List (Msg V)} {round : ℤ}
    {pv : V} (h : containsJustifiedQrc d justification round = some pv) :
    ∃ qrc, JustifiedQrc d justification round pv qrc := by
  set qrc := (filterRoundChange justification round).filter validRoundChangePreparedRound with hqrc
  have hnd : (qrc.map Msg.source).Nodup :=
    (filterMsgs_nodup ..).sublist (List.filter_sublist.map _)
  have hmem : ∀ rc ∈ qrc, rc ∈ justification ∧ rc.type = .roundChange ∧ rc.round = round ∧
      0 ≤ rc.preparedRound ∧ rc.preparedRound < round := by
    intro rc hrc
    obtain ⟨hin, hval⟩ := List.mem_filter.mp hrc
    obtain ⟨h1, h2, h3⟩ := mem_filterRoundChange hin
    simp only [validRoundChangePreparedRound, Bool.and_eq_true, decide_eq_true_eq] at hval
    exact ⟨h1, h2, h3, hval.1, h3 ▸ hval.2⟩
  unfold containsJustifiedQrc at h
  simp only [← hqrc] at h
  split_ifs at h with hlen hnull
  · have hpv : pv = default := by simpa [eq_comm] using h
    refine ⟨qrc, ⟨hnd, by omega⟩, hmem, .inl ⟨hpv, ?_⟩⟩
    simpa using hnull
  · split at h
    · cases h
    · rename_i pr pv' hsingle
      split_ifs at h with hhigh hfound
      obtain rfl : pv' = pv := by simpa using h
      refine ⟨qrc, ⟨hnd, by omega⟩, hmem, .inr ⟨pr, hsingle, ?_, ?_⟩⟩
      · simpa using hhigh
      · simpa using hfound

/-- A justified PRE-PREPARE comes from the leader, and is of the first round, or follows a
compare failure of the round before, or carries a justified quorum of ROUND-CHANGEs whose
prepared value, if any, it proposes. -/
lemma isJustifiedPrePrepare_eq_true {c : ℤ} (hc : c + 1 ≤ i64Max) :
    isJustifiedPrePrepare d msg c = .ok true ↔
      msg.type = .prePrepare ∧ d.isLeader msg.round msg.source ∧
        (msg.round = 1 ∨ msg.round = c + 1 ∨
          ∃ pv, containsJustifiedQrc d msg.justification msg.round = some pv ∧
            (pv = default ∨ msg.value = pv)) := by
  unfold isJustifiedPrePrepare
  by_cases ht : msg.type = .prePrepare
  swap
  · simp [ht]
  by_cases hl : d.isLeader msg.round msg.source = true
  swap
  · simp [ht, hl]
  simp only [ht, hl, ne_eq, not_true_eq_false, ↓reduceIte, Bool.not_true, Bool.false_eq_true,
    not_lt.mpr hc, true_and]
  by_cases hr : msg.round = 1 ∨ msg.round = c + 1
  · simp only [hr, ↓reduceIte, true_iff]
    tauto
  · rw [if_neg hr]
    push Not at hr
    simp only [hr, false_or]
    cases hq : containsJustifiedQrc d msg.justification msg.round with
    | none => simp
    | some pv =>
      by_cases hpv : pv = default
      · simp [hpv]
      · simp [hpv]

/-- The panic of the increment aside, an accepted PRE-PREPARE passed the check below it. -/
lemma le_of_isJustifiedPrePrepare {c : ℤ}
    (h : isJustifiedPrePrepare d msg c = .ok true) : c + 1 ≤ i64Max := by
  by_contra hc
  have hover : i64Max < c + 1 := by omega
  simp only [isJustifiedPrePrepare, hover, ↓reduceIte] at h
  split_ifs at h
  simp at h

/-! ### The answer by message type -/

lemma isJustified_prePrepare {c : ℤ} (h : msg.type = .prePrepare) :
    isJustified d msg c = isJustifiedPrePrepare d msg c := by
  simp [isJustified, h]

lemma isJustified_roundChange {c : ℤ}
    (h : msg.type = .roundChange) : isJustified d msg c = isJustifiedRoundChange d msg := by
  simp [isJustified, h]

lemma isJustified_decided {c : ℤ} (h : msg.type = .decided) :
    isJustified d msg c = isJustifiedDecided d msg := by
  simp [isJustified, h]

end Pluto.Qbft
