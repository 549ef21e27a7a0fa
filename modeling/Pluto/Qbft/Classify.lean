import Pluto.Lib.HashMap
import Pluto.Qbft.Justification

/-!
# Which rule a message triggers

The producer half of the core: buffering, flattening the buffer, finding PREPARE quorums,
justified ROUND-CHANGE quorums and F+1 future ROUND-CHANGEs, and `classify`, which names the rule
the last received message triggers together with its justification.

The buffer and the two maps built on the way are hash maps, and three loops visit them in
iteration order.  `HashOrder` chooses the orders, and every function that iterates takes one.

`Classified` says, rule by rule, what an answer of `classify` is worth; the proofs above this
file use it instead of the function.
-/

namespace Pluto.Qbft

variable {V : Type} [DecidableEq V] [Inhabited V]

/-- Received messages by source. -/
abbrev Buffer (V : Type) : Type := HashMap ℤ (List (Msg V))

/-- The round and value of a set of identical PREPARE messages. -/
structure PreparedKey (V : Type) where
  round : ℤ
  value : V
  deriving DecidableEq

/-- The iteration orders one classification meets. -/
structure HashOrder (V : Type) where
  buffer : IterOrder (Sigma fun _ : ℤ => List (Msg V))
  sets : IterOrder (Sigma fun _ : PreparedKey V => HashMap ℤ (Msg V))
  values : IterOrder (Sigma fun _ : ℤ => Msg V)

/-- Every map is visited as stored. -/
def HashOrder.stored (V : Type) : HashOrder V :=
  ⟨IterOrder.stored _, IterOrder.stored _, IterOrder.stored _⟩

/-! ## The buffer -/

/-- Adds a message to its process' FIFO queue. -/
def bufferMsg (d : Definition) (buffer : Buffer V) (msg : Msg V) : Except Panic (Buffer V) :=
  let fifo := (buffer.lookup msg.source).getD [] ++ [msg]
  let fifoLimit := d.fifoLimit.toNat
  if fifoLimit < fifo.length then
    if fifo.length < fifoLimit then .error .fifoLength
    else .ok (buffer.insert msg.source (fifo.drop (fifo.length - fifoLimit)))
  else .ok (buffer.insert msg.source fifo)

/-- The loop of `flatten` over the messages of the buffer. -/
def flattenMsgs : List (Msg V) → Except Panic (List (Msg V))
  | [] => .ok []
  | msg :: msgs =>
    if msg.justification.any fun j => !j.justification.isEmpty then .error .nestedJustifications
    else do
      let rest ← flattenMsgs msgs
      return msg :: msg.justification ++ rest

/-- All the buffered messages as well as all their justifications. -/
def flatten (order : HashOrder V) (buffer : Buffer V) : Except Panic (List (Msg V)) :=
  flattenMsgs (HashMap.valuesIn order.buffer buffer).flatten

/-! ## PREPARE quorums and justified ROUND-CHANGE quorums -/

/-- The PREPAREs of a list grouped by round and value, one per source. -/
def prepareSets : HashMap (PreparedKey V) (HashMap ℤ (Msg V)) → List (Msg V) →
    HashMap (PreparedKey V) (HashMap ℤ (Msg V))
  | sets, [] => sets
  | sets, msg :: msgs =>
    if msg.type ≠ .prepare then prepareSets sets msgs
    else
      let key : PreparedKey V := ⟨msg.round, msg.value⟩
      prepareSets (sets.insert key (((sets.lookup key).getD ∅).insert msg.source msg)) msgs

/-- All unique-source PREPARE quorums grouped by identical round and value. -/
def getPrepareQuorums (d : Definition) (order : HashOrder V) (all : List (Msg V)) :
    List (List (Msg V)) :=
  (HashMap.valuesIn order.sets (prepareSets ∅ all)).filterMap fun msgs =>
    if msgs.size < d.quorumCount then none else some (HashMap.valuesIn order.values msgs)

/-- Condition J1: ROUND-CHANGEs of the round with null prepared round and value, and whether
they are a quorum. -/
def quorumNullPrepared (d : Definition) (all : List (Msg V)) (round : ℤ) :
    List (Msg V) × Bool :=
  let justification := filterMsgs all .roundChange round none (some 0) (some default)
  (justification, d.quorumCount ≤ justification.length)

/-- The loop of `get_justified_qrc` over the PREPARE quorums: the first one that is the highest
prepared of a quorum of ROUND-CHANGEs. -/
def qrcFor (d : Definition) (roundChanges : List (Msg V)) :
    List (List (Msg V)) → Except Panic (Option (List (Msg V)))
  | [] => .ok none
  | prepares :: rest =>
    match prepares with
    | [] => .error .indexOutOfBounds
    | first :: _ =>
      let pr := first.round
      let pv := first.value
      let qrc := firstPerKey Msg.source [] (roundChanges.filter fun rc => rc.preparedRound ≤ pr)
      let hasHighestPrepared := qrc.any fun rc => rc.preparedRound = pr && rc.preparedValue = pv
      if d.quorumCount ≤ qrc.length && hasHighestPrepared then .ok (some (qrc ++ prepares))
      else qrcFor d roundChanges rest

/-- Algorithm 4:1: a justified quorum of ROUND-CHANGEs (Qrc). -/
def getJustifiedQrc (d : Definition) (order : HashOrder V) (all : List (Msg V)) (round : ℤ) :
    Except Panic (Option (List (Msg V))) :=
  if (quorumNullPrepared d all round).2 then .ok (some (quorumNullPrepared d all round).1)
  else
    qrcFor d ((filterRoundChange all round).filter validRoundChangePreparedRound)
      (getPrepareQuorums d order all)

/-! ## F+1 future ROUND-CHANGEs -/

/-- The loop of `get_fplus1_round_changes`: the ROUND-CHANGEs above `round`, one per source, left
as soon as F+1 sources are found. -/
def highestBySource (d : Definition) (round : ℤ) :
    HashMap ℤ (Msg V) → List (Msg V) → HashMap ℤ (Msg V)
  | highest, [] => highest
  | highest, msg :: msgs =>
    if msg.type ≠ .roundChange then highestBySource d round highest msgs
    else if msg.round ≤ round then highestBySource d round highest msgs
    else if (highest.lookup msg.source).any fun h => msg.round < h.round then
      highestBySource d round highest msgs
    else
      let highest' := highest.insert msg.source msg
      if HashMap.size highest' = d.faultyPlusOneCount then highest'
      else highestBySource d round highest' msgs

/-- Faulty+1 ROUND-CHANGE messages (Frc) with rounds higher than the provided round. -/
def getFplus1RoundChanges (d : Definition) (order : HashOrder V) (all : List (Msg V))
    (round : ℤ) : Option (List (Msg V)) :=
  let highest := highestBySource d round ∅ all
  if highest.size < d.faultyPlusOneCount then none
  else some (HashMap.valuesIn order.values highest)

/-- The loop of `next_min_round`. -/
def nextMinLoop (round : ℤ) : ℤ → List (Msg V) → Except Panic ℤ
  | rmin, [] => .ok rmin
  | rmin, msg :: msgs =>
    if msg.type ≠ .roundChange then .error .frcNonRoundChange
    else if msg.round ≤ round then .error .frcRoundNotInFuture
    else nextMinLoop round (if msg.round < rmin then msg.round else rmin) msgs

/-- Algorithm 3:6: the next minimum round from received round change messages. -/
def nextMinRound (d : Definition) (frc : List (Msg V)) (round : ℤ) : Except Panic ℤ :=
  if frc.length < d.faultyPlusOneCount then .error .frcTooShort
  else nextMinLoop round i64Max frc

/-! ## The rule -/

/-- The PREPARE and COMMIT branches of `classify`: votes of other rounds are ignored, since they
are not justified; a quorum of `voteType` for the message's value fires `rule`. -/
def classifyVote (d : Definition) (order : HashOrder V) (round : ℤ) (buffer : Buffer V)
    (msg : Msg V) (voteType : MessageType) (rule : UponRule) :
    Except Panic (UponRule × Option (List (Msg V))) :=
  if msg.round ≠ round then .ok (.nothing, none)
  else
    match flatten order buffer with
    | .error e => .error e
    | .ok all =>
      let votes := filterByRoundAndValue all voteType msg.round msg.value
      if d.quorumCount ≤ votes.length then .ok (rule, some votes) else .ok (.nothing, none)

/-- The ROUND-CHANGE branch of `classify` for the current round. -/
def classifyQrc (d : Definition) (order : HashOrder V) (process : ℤ) (all : List (Msg V))
    (msg : Msg V) : Except Panic (UponRule × Option (List (Msg V))) :=
  if (filterRoundChange all msg.round).length < d.quorumCount then .ok (.nothing, none)
  else
    match getJustifiedQrc d order all msg.round with
    | .error e => .error e
    | .ok none => .ok (.unjustQuorumRoundChanges, none)
    | .ok (some qrc) =>
      if !d.isLeader msg.round process then .ok (.nothing, none)
      else .ok (.quorumRoundChanges, some qrc)

/-- The ROUND-CHANGE branch of `classify`. -/
def classifyRoundChange (d : Definition) (order : HashOrder V) (round process : ℤ)
    (buffer : Buffer V) (msg : Msg V) : Except Panic (UponRule × Option (List (Msg V))) :=
  -- only ignore old rounds
  if msg.round < round then .ok (.nothing, none)
  else
    match flatten order buffer with
    | .error e => .error e
    | .ok all =>
      if round < msg.round then
        -- jump ahead if we received F+1 higher ROUND-CHANGEs
        match getFplus1RoundChanges d order all round with
        | some frc => .ok (.fPlus1RoundChanges, some frc)
        | none => .ok (.nothing, none)
      else classifyQrc d order process all msg

/-- The rule triggered upon receipt of the last message and its justification. -/
def classify (d : Definition) (order : HashOrder V) (round process : ℤ) (buffer : Buffer V)
    (msg : Msg V) : Except Panic (UponRule × Option (List (Msg V))) :=
  match msg.type with
  | .decided => .ok (.justifiedDecided, some msg.justification)
  | .prePrepare =>
    if msg.round < round then .ok (.nothing, none) else .ok (.justifiedPrePrepare, none)
  | .prepare => classifyVote d order round buffer msg .prepare .quorumPrepares
  | .commit => classifyVote d order round buffer msg .commit .quorumCommits
  | .roundChange => classifyRoundChange d order round process buffer msg
  | _ => .error .invalidType

/-! ## What the pieces return -/

/-- `m` is queued in the buffer. -/
def InBuffer (buffer : Buffer V) (m : Msg V) : Prop :=
  ∃ source fifo, buffer.lookup source = some fifo ∧ m ∈ fifo

/-- `x` is a message of the buffer or of one of its justifications. -/
def FromBuffer (buffer : Buffer V) (x : Msg V) : Prop :=
  ∃ m, InBuffer buffer m ∧ (x = m ∨ x ∈ m.justification)

omit [DecidableEq V] [Inhabited V] in
/-- Buffering never fails, and adds nothing but the message. -/
lemma bufferMsg_spec (d : Definition) (buffer : Buffer V) (msg : Msg V) :
    ∃ buffer', bufferMsg d buffer msg = .ok buffer' ∧
      ∀ m, InBuffer buffer' m → m = msg ∨ InBuffer buffer m := by
  -- both branches insert a part of the old queue followed by the message
  have key : ∀ fifo : List (Msg V),
      (∀ m ∈ fifo, m ∈ (buffer.lookup msg.source).getD [] ++ [msg]) →
        ∀ m, InBuffer (buffer.insert msg.source fifo) m → m = msg ∨ InBuffer buffer m := by
    rintro fifo hfifo m ⟨source, queue, hlookup, hm⟩
    rcases HashMap.lookup_insert_eq_some hlookup with ⟨rfl, rfl⟩ | hold
    · rcases List.mem_append.mp (hfifo m hm) with hq | hnew
      · cases hl : buffer.lookup msg.source with
        | none => simp [hl] at hq
        | some queue => exact .inr ⟨_, queue, hl, by simpa [hl] using hq⟩
      · exact .inl (List.mem_singleton.mp hnew)
    · exact .inr ⟨source, queue, hold, hm⟩
  simp only [bufferMsg]
  split_ifs with h1 h2
  · omega
  · exact ⟨_, rfl, key _ fun m hm => List.mem_of_mem_drop hm⟩
  · exact ⟨_, rfl, key _ fun m hm => hm⟩

omit [DecidableEq V] [Inhabited V] in
lemma mem_flattenMsgs {msgs all : List (Msg V)} (h : flattenMsgs msgs = .ok all) {x : Msg V} :
    x ∈ all ↔ ∃ m ∈ msgs, x = m ∨ x ∈ m.justification := by
  induction msgs generalizing all with
  | nil =>
    obtain rfl : [] = all := by simpa [flattenMsgs] using h
    simp
  | cons a l ih =>
    rw [flattenMsgs] at h
    split_ifs at h
    cases hl : flattenMsgs l with
    | error e => rw [hl] at h; cases h
    | ok rest =>
      rw [hl] at h
      obtain rfl : a :: a.justification ++ rest = all := by simpa using h
      simp only [List.cons_append, List.mem_cons, List.mem_append, ih hl, exists_eq_or_imp]
      exact or_assoc.symm

omit [DecidableEq V] [Inhabited V] in
/-- Flattening fails only on nested justifications. -/
lemma flattenMsgs_error {msgs : List (Msg V)} {p : Panic} (h : flattenMsgs msgs = .error p) :
    p = .nestedJustifications ∧ ∃ m ∈ msgs, ∃ j ∈ m.justification, j.justification ≠ [] := by
  induction msgs with
  | nil => cases h
  | cons a l ih =>
    rw [flattenMsgs] at h
    split_ifs at h with hnested
    · obtain ⟨j, hj, hne⟩ := List.any_eq_true.mp hnested
      exact ⟨(Except.error.inj h).symm, a, by simp, j, hj, by simpa using hne⟩
    · cases hl : flattenMsgs l with
      | ok rest =>
        rw [hl] at h
        cases h
      | error p' =>
        obtain rfl : p' = p := by
          rw [hl] at h
          exact Except.error.inj h
        obtain ⟨hp, m, hm, hrest⟩ := ih hl
        exact ⟨hp, m, List.mem_cons_of_mem _ hm, hrest⟩

variable {order : HashOrder V} {buffer : Buffer V}

omit [DecidableEq V] [Inhabited V] in
lemma mem_valuesIn_flatten {m : Msg V} :
    m ∈ (HashMap.valuesIn order.buffer buffer).flatten ↔ InBuffer buffer m := by
  simp only [List.mem_flatten, HashMap.mem_valuesIn, InBuffer]
  constructor
  · rintro ⟨fifo, ⟨source, hl⟩, hm⟩
    exact ⟨source, fifo, hl, hm⟩
  · rintro ⟨source, fifo, hl, hm⟩
    exact ⟨fifo, ⟨source, hl⟩, hm⟩

omit [DecidableEq V] [Inhabited V] in
lemma mem_flatten {all : List (Msg V)}
    (h : flatten order buffer = .ok all) {x : Msg V} : x ∈ all ↔ FromBuffer buffer x := by
  simp only [mem_flattenMsgs h, mem_valuesIn_flatten, FromBuffer]

omit [Inhabited V] in
/-- The groups hold PREPAREs of the list under their own source, round and value. -/
lemma prepareSets_spec {sets : HashMap (PreparedKey V) (HashMap ℤ (Msg V))}
    {msgs all : List (Msg V)} (hsub : ∀ m ∈ msgs, m ∈ all)
    (h : ∀ key group, sets.lookup key = some group → ∀ source m, group.lookup source = some m →
      m.source = source ∧ m ∈ all ∧ m.type = .prepare ∧ m.round = key.round ∧ m.value = key.value) :
    ∀ key group, (prepareSets sets msgs).lookup key = some group →
      ∀ source m, group.lookup source = some m →
        m.source = source ∧ m ∈ all ∧ m.type = .prepare ∧ m.round = key.round ∧
          m.value = key.value := by
  induction msgs generalizing sets with
  | nil => exact h
  | cons a l ih =>
    have hsub' : ∀ m ∈ l, m ∈ all := fun m hm => hsub m (List.mem_cons_of_mem _ hm)
    rw [prepareSets]
    split_ifs with ht
    · exact ih hsub' h
    · refine ih hsub' ?_
      push Not at ht
      intro key group hgroup source m hm
      rcases HashMap.lookup_insert_eq_some hgroup with ⟨rfl, rfl⟩ | hold
      · rcases HashMap.lookup_insert_eq_some hm with ⟨rfl, rfl⟩ | hold'
        · exact ⟨rfl, hsub m (by simp), ht, rfl, rfl⟩
        · cases hl : sets.lookup ⟨a.round, a.value⟩ with
          | none => simp [hl] at hold'
          | some group' =>
            rw [hl, Option.getD_some] at hold'
            exact h _ group' hl source m hold'
      · exact h key group hold source m hm

variable {d : Definition}

omit [Inhabited V] in
lemma getPrepareQuorums_spec {all prepares : List (Msg V)}
    (h : prepares ∈ getPrepareQuorums d order all) :
    MsgQuorum d prepares ∧ ∃ pr pv, ∀ m ∈ prepares,
      m ∈ all ∧ m.type = .prepare ∧ m.round = pr ∧ m.value = pv := by
  obtain ⟨group, hmem, hgroup⟩ := List.mem_filterMap.mp h
  split_ifs at hgroup with hsize
  obtain rfl : HashMap.valuesIn order.values group = prepares := by simpa using hgroup
  obtain ⟨key, hkey⟩ := HashMap.mem_valuesIn.mp hmem
  have hspec := prepareSets_spec (fun _ hm => hm) (by simp) key group hkey
  refine ⟨⟨HashMap.nodup_map_valuesIn fun k b hb => (hspec k b hb).1, ?_⟩,
    key.round, key.value, ?_⟩
  · rw [HashMap.length_valuesIn]
    omega
  · intro m hm
    obtain ⟨k, hk⟩ := HashMap.mem_valuesIn.mp hm
    exact (hspec k m hk).2

/-- What `get_justified_qrc` returns: a quorum of ROUND-CHANGEs that prepared nothing, or a
quorum of ROUND-CHANGEs followed by a PREPARE quorum for their highest prepared round. -/
inductive ProducedQrc (d : Definition) (round : ℤ) : List (Msg V) → Prop
  | null {qrc : List (Msg V)} (quorum : MsgQuorum d qrc)
      (mem : ∀ rc ∈ qrc, rc.type = .roundChange ∧ rc.round = round ∧ rc.preparedRound = 0 ∧
        rc.preparedValue = default) : ProducedQrc d round qrc
  | prepared {qrc prepares : List (Msg V)} {pr : ℤ} {pv : V} (quorum : MsgQuorum d qrc)
      (mem : ∀ rc ∈ qrc, rc.type = .roundChange ∧ rc.round = round ∧ 0 ≤ rc.preparedRound ∧
        rc.preparedRound < round ∧ rc.preparedRound ≤ pr)
      (highest : ∃ rc ∈ qrc, rc.preparedRound = pr ∧ rc.preparedValue = pv)
      (prepareQuorum : MsgQuorum d prepares)
      (prepare_mem : ∀ m ∈ prepares, m.type = .prepare ∧ m.round = pr ∧ m.value = pv) :
      ProducedQrc d round (qrc ++ prepares)

omit [Inhabited V] in
lemma qrcFor_isOk {roundChanges : List (Msg V)} {quorums : List (List (Msg V))}
    (h : ∀ prepares ∈ quorums, prepares ≠ []) :
    ∃ res, qrcFor d roundChanges quorums = .ok res := by
  induction quorums with
  | nil => exact ⟨none, rfl⟩
  | cons prepares rest ih =>
    cases prepares with
    | nil => exact absurd rfl (h [] (by simp))
    | cons first tail =>
      rw [qrcFor]
      split_ifs
      · exact ⟨_, rfl⟩
      · exact ih fun q hq => h q (List.mem_cons_of_mem _ hq)

omit [Inhabited V] in
lemma qrcFor_spec {roundChanges qrcOut : List (Msg V)}
    {quorums : List (List (Msg V))} (h : qrcFor d roundChanges quorums = .ok (some qrcOut)) :
    ∃ prepares ∈ quorums, ∃ first ∈ prepares, ∃ qrc : List (Msg V), qrcOut = qrc ++ prepares ∧
      MsgQuorum d qrc ∧ (∀ rc ∈ qrc, rc ∈ roundChanges ∧ rc.preparedRound ≤ first.round) ∧
      ∃ rc ∈ qrc, rc.preparedRound = first.round ∧ rc.preparedValue = first.value := by
  induction quorums with
  | nil => simp [qrcFor] at h
  | cons prepares rest ih =>
    cases prepares with
    | nil => cases h
    | cons first tail =>
      rw [qrcFor] at h
      split_ifs at h with hcond
      · simp only [Bool.and_eq_true, decide_eq_true_eq, List.any_eq_true] at hcond
        obtain ⟨hlen, rc, hrc, hhigh⟩ := hcond
        refine ⟨first :: tail, by simp, first, by simp, _, by simpa using h.symm,
          ⟨FirstPerKey.nodup _ _, hlen⟩, ?_, rc, hrc, hhigh⟩
        intro rc' hrc'
        simpa using FirstPerKey.mem hrc'
      · obtain ⟨q, hq, hrest⟩ := ih h
        exact ⟨q, List.mem_cons_of_mem _ hq, hrest⟩

omit [Inhabited V] in
lemma ne_nil_of_mem_getPrepareQuorums
    {all prepares : List (Msg V)} (h : prepares ∈ getPrepareQuorums d order all) :
    prepares ≠ [] := by
  rintro rfl
  have hlen := (getPrepareQuorums_spec h).1.length
  have hpos := d.quorumCount_pos
  simp only [List.length_nil] at hlen
  omega

lemma getJustifiedQrc_isOk (d : Definition) (order : HashOrder V) (all : List (Msg V))
    (round : ℤ) : ∃ res, getJustifiedQrc d order all round = .ok res := by
  unfold getJustifiedQrc
  split_ifs
  · exact ⟨_, rfl⟩
  · exact qrcFor_isOk fun _ h => ne_nil_of_mem_getPrepareQuorums h

variable {round : ℤ}

lemma getJustifiedQrc_spec {all qrc : List (Msg V)}
    (h : getJustifiedQrc d order all round = .ok (some qrc)) :
    ProducedQrc d round qrc ∧ ∀ m ∈ qrc, m ∈ all := by
  unfold getJustifiedQrc at h
  split_ifs at h with hnull
  · obtain rfl : (quorumNullPrepared d all round).1 = qrc := by simpa using h
    refine ⟨.null ⟨filterMsgs_nodup .., by simpa [quorumNullPrepared] using hnull⟩ ?_, ?_⟩
    · intro rc hrc
      obtain ⟨-, h2, h3, -, h5, h6⟩ := mem_filterMsgs hrc
      exact ⟨h2, h3, h5 0 rfl, h6 default rfl⟩
    · exact fun m hm => (mem_filterMsgs hm).1
  · obtain ⟨prepares, hprep, first, hfirst, rcs, rfl, hq, hmem, hhigh⟩ := qrcFor_spec h
    obtain ⟨hpq, pr, pv, hpmem⟩ := getPrepareQuorums_spec hprep
    obtain ⟨-, -, rfl, rfl⟩ := hpmem first hfirst
    have hrc : ∀ rc ∈ rcs, rc ∈ all ∧ rc.type = .roundChange ∧ rc.round = round ∧
        0 ≤ rc.preparedRound ∧ rc.preparedRound < round := by
      intro rc hrc
      obtain ⟨hin, hval⟩ := List.mem_filter.mp (hmem rc hrc).1
      obtain ⟨h1, h2, h3⟩ := mem_filterRoundChange hin
      simp only [validRoundChangePreparedRound, Bool.and_eq_true, decide_eq_true_eq] at hval
      exact ⟨h1, h2, h3, hval.1, h3 ▸ hval.2⟩
    refine ⟨.prepared hq ?_ hhigh hpq fun m hm => (hpmem m hm).2, ?_⟩
    · intro rc hrc'
      obtain ⟨-, h2, h3, h4, h5⟩ := hrc rc hrc'
      exact ⟨h2, h3, h4, h5, (hmem rc hrc').2⟩
    · intro m hm
      rcases List.mem_append.mp hm with hm | hm
      · exact (hrc m hm).1
      · exact (hpmem m hm).1

omit [DecidableEq V] [Inhabited V] in
/-- The map holds ROUND-CHANGEs of the list above `round`, under their own source. -/
lemma highestBySource_spec {highest : HashMap ℤ (Msg V)}
    {msgs all : List (Msg V)} (hsub : ∀ m ∈ msgs, m ∈ all)
    (h : ∀ source m, highest.lookup source = some m →
      m.source = source ∧ m ∈ all ∧ m.type = .roundChange ∧ round < m.round) :
    ∀ source m, (highestBySource d round highest msgs).lookup source = some m →
      m.source = source ∧ m ∈ all ∧ m.type = .roundChange ∧ round < m.round := by
  induction msgs generalizing highest with
  | nil => exact h
  | cons a l ih =>
    have hsub' : ∀ m ∈ l, m ∈ all := fun m hm => hsub m (List.mem_cons_of_mem _ hm)
    rw [highestBySource]
    by_cases ht : a.type = .roundChange
    swap
    · rw [if_pos ht]
      exact ih hsub' h
    by_cases hr : a.round ≤ round
    · rw [if_neg (by simpa using ht), if_pos hr]
      exact ih hsub' h
    rw [if_neg (by simpa using ht), if_neg hr]
    have hins : ∀ source m, (highest.insert a.source a).lookup source = some m →
        m.source = source ∧ m ∈ all ∧ m.type = .roundChange ∧ round < m.round := by
      intro source m hm
      rcases HashMap.lookup_insert_eq_some hm with ⟨rfl, rfl⟩ | hold
      · exact ⟨rfl, hsub m (by simp), ht, by omega⟩
      · exact h source m hold
    dsimp only
    split_ifs
    · exact ih hsub' h
    · exact hins
    · exact ih hsub' hins

omit [DecidableEq V] [Inhabited V] in
/-- F+1 distinct sources with a ROUND-CHANGE above `round`. -/
lemma getFplus1RoundChanges_spec {all frc : List (Msg V)}
    (h : getFplus1RoundChanges d order all round = some frc) :
    (frc.map Msg.source).Nodup ∧ d.faultyPlusOneCount ≤ frc.length ∧
      ∀ m ∈ frc, m ∈ all ∧ m.type = .roundChange ∧ round < m.round := by
  simp only [getFplus1RoundChanges] at h
  split_ifs at h with hsize
  obtain rfl : _ = frc := Option.some.inj h
  have hspec : ∀ source m, (highestBySource d round ∅ all).lookup source = some m →
      m.source = source ∧ m ∈ all ∧ m.type = .roundChange ∧ round < m.round :=
    highestBySource_spec (fun _ hm => hm) (by simp)
  refine ⟨HashMap.nodup_map_valuesIn fun k b hb => (hspec k b hb).1, ?_, ?_⟩
  · rw [HashMap.length_valuesIn]
    omega
  · intro m hm
    obtain ⟨k, hk⟩ := HashMap.mem_valuesIn.mp hm
    exact (hspec k m hk).2

omit [DecidableEq V] [Inhabited V] in
lemma nextMinLoop_spec {frc : List (Msg V)} (rmin : ℤ)
    (h : ∀ m ∈ frc, m.type = .roundChange ∧ round < m.round) :
    ∃ r, nextMinLoop round rmin frc = .ok r ∧ r ≤ rmin ∧ (∀ m ∈ frc, r ≤ m.round) ∧
      (r = rmin ∨ ∃ m ∈ frc, r = m.round) := by
  induction frc generalizing rmin with
  | nil => exact ⟨rmin, rfl, le_refl _, by simp, .inl rfl⟩
  | cons a l ih =>
    obtain ⟨ht, hr⟩ := h a (by simp)
    obtain ⟨r, hok, hle, hall, hor⟩ :=
      ih (if a.round < rmin then a.round else rmin)
        fun m hm => h m (List.mem_cons_of_mem _ hm)
    refine ⟨r, ?_, ?_, ?_, ?_⟩
    · rw [nextMinLoop, if_neg (by simpa using ht), if_neg (by omega), hok]
    · split_ifs at hle <;> omega
    · intro m hm
      rcases List.mem_cons.mp hm with rfl | hm
      · split_ifs at hle <;> omega
      · exact hall m hm
    · rcases hor with heq | ⟨m, hm, heq⟩
      · split_ifs at heq
        · exact .inr ⟨a, by simp, heq⟩
        · exact .inl heq
      · exact .inr ⟨m, List.mem_cons_of_mem _ hm, heq⟩

omit [DecidableEq V] [Inhabited V] in
lemma nextMinRound_isOk {frc : List (Msg V)} (hlen : d.faultyPlusOneCount ≤ frc.length)
    (h : ∀ m ∈ frc, m.type = .roundChange ∧ round < m.round) :
    ∃ r, nextMinRound d frc round = .ok r := by
  obtain ⟨r, hok, -⟩ := nextMinLoop_spec i64Max h
  exact ⟨r, by rw [nextMinRound, if_neg (by omega), hok]⟩

omit [DecidableEq V] [Inhabited V] in
/-- On F+1 future ROUND-CHANGEs the next round is their smallest, and lies in the future. -/
lemma nextMinRound_spec {frc : List (Msg V)} (hlen : d.faultyPlusOneCount ≤ frc.length)
    (h : ∀ m ∈ frc, m.type = .roundChange ∧ round < m.round) (hmax : ∀ m ∈ frc, m.round ≤ i64Max) :
    ∃ r, nextMinRound d frc round = .ok r ∧ round < r ∧ ∀ m ∈ frc, r ≤ m.round := by
  obtain ⟨r, hok, hle, hall, hor⟩ := nextMinLoop_spec i64Max h
  refine ⟨r, by rw [nextMinRound, if_neg (by omega), hok], ?_, hall⟩
  have hpos : 0 < frc.length := by
    have := d.faulty_nonneg
    unfold Definition.faultyPlusOneCount at hlen
    omega
  obtain ⟨m, hm⟩ := List.exists_mem_of_length_pos hpos
  rcases hor with heq | ⟨m', hm', heq⟩
  · have := (h m hm).2
    have := hmax m hm
    omega
  · have := (h m' hm').2
    omega

/-! ## What a rule means -/

/-- What is known when `classify` answers with a rule and a justification. -/
inductive Classified (d : Definition) (round process : ℤ) (buffer : Buffer V) (msg : Msg V) :
    UponRule → Option (List (Msg V)) → Prop
  | nothing : Classified d round process buffer msg .nothing none
  | prePrepare (type : msg.type = .prePrepare) (le : round ≤ msg.round) :
      Classified d round process buffer msg .justifiedPrePrepare none
  | prepares {prepares : List (Msg V)} (type : msg.type = .prepare) (eq : msg.round = round)
      (quorum : MsgQuorum d prepares)
      (mem : ∀ m ∈ prepares, FromBuffer buffer m ∧ m.type = .prepare ∧ m.round = round ∧
        m.value = msg.value) : Classified d round process buffer msg .quorumPrepares (some prepares)
  | commits {commits : List (Msg V)} (type : msg.type = .commit) (eq : msg.round = round)
      (quorum : MsgQuorum d commits)
      (mem : ∀ m ∈ commits, FromBuffer buffer m ∧ m.type = .commit ∧ m.round = round ∧
        m.value = msg.value) : Classified d round process buffer msg .quorumCommits (some commits)
  | decided (type : msg.type = .decided) :
      Classified d round process buffer msg .justifiedDecided (some msg.justification)
  | fPlus1 {frc : List (Msg V)} (type : msg.type = .roundChange)
      (nodup : (frc.map Msg.source).Nodup) (length : d.faultyPlusOneCount ≤ frc.length)
      (mem : ∀ m ∈ frc, FromBuffer buffer m ∧ m.type = .roundChange ∧ round < m.round) :
      Classified d round process buffer msg .fPlus1RoundChanges (some frc)
  | unjust (type : msg.type = .roundChange) (eq : msg.round = round) :
      Classified d round process buffer msg .unjustQuorumRoundChanges none
  | roundChanges {qrc : List (Msg V)} (type : msg.type = .roundChange) (eq : msg.round = round)
      (leader : d.isLeader round process) (produced : ProducedQrc d round qrc)
      (mem : ∀ m ∈ qrc, FromBuffer buffer m) :
      Classified d round process buffer msg .quorumRoundChanges (some qrc)

variable {justification : Option (List (Msg V))}

omit [Inhabited V] in
lemma classifyVote_spec {msg : Msg V} {t : MessageType} {fires rule : UponRule}
    (h : classifyVote d order round buffer msg t fires = .ok (rule, justification)) :
    (rule = .nothing ∧ justification = none) ∨
      ∃ votes, rule = fires ∧ justification = some votes ∧ msg.round = round ∧ MsgQuorum d votes ∧
        ∀ m ∈ votes, FromBuffer buffer m ∧ m.type = t ∧ m.round = round ∧ m.value = msg.value := by
  unfold classifyVote at h
  split_ifs at h with hne
  · left
    simpa [eq_comm] using h
  push Not at hne
  split at h
  · cases h
  rename_i all hflat
  dsimp only at h
  split_ifs at h with hlen
  · right
    obtain ⟨rfl, rfl⟩ := Prod.mk.inj (Except.ok.inj h)
    refine ⟨_, rfl, rfl, hne, ⟨filterMsgs_nodup .., hlen⟩, fun m hm => ?_⟩
    obtain ⟨h1, h2, h3, h4⟩ := mem_filterByRoundAndValue hm
    exact ⟨(mem_flatten hflat).mp h1, h2, h3.trans hne, h4⟩
  · left
    simpa [eq_comm] using h

lemma classifyQrc_spec {process : ℤ} {all : List (Msg V)} {msg : Msg V} {rule : UponRule}
    (h : classifyQrc d order process all msg = .ok (rule, justification)) :
    (rule = .nothing ∧ justification = none) ∨
      (rule = .unjustQuorumRoundChanges ∧ justification = none) ∨
      ∃ qrc, rule = .quorumRoundChanges ∧ justification = some qrc ∧
        d.isLeader msg.round process ∧ ProducedQrc d msg.round qrc ∧ ∀ m ∈ qrc, m ∈ all := by
  unfold classifyQrc at h
  by_cases hlen : (filterRoundChange all msg.round).length < d.quorumCount
  · rw [if_pos hlen] at h
    left
    simpa [eq_comm] using h
  rw [if_neg hlen] at h
  split at h
  · cases h
  · right; left
    simpa [eq_comm] using h
  · rename_i qrc hqrc
    split_ifs at h with hlead
    · left
      simpa [eq_comm] using h
    · right; right
      obtain ⟨rfl, rfl⟩ := Prod.mk.inj (Except.ok.inj h)
      exact ⟨qrc, rfl, rfl, by simpa using hlead, getJustifiedQrc_spec hqrc⟩

lemma classifyRoundChange_spec {round process : ℤ} {msg : Msg V} {rule : UponRule}
    (ht : msg.type = .roundChange)
    (h : classifyRoundChange d order round process buffer msg = .ok (rule, justification)) :
    Classified d round process buffer msg rule justification := by
  unfold classifyRoundChange at h
  by_cases hlt : msg.round < round
  · rw [if_pos hlt] at h
    obtain ⟨rfl, rfl⟩ := Prod.mk.inj (Except.ok.inj h)
    exact .nothing
  rw [if_neg hlt] at h
  split at h
  · cases h
  rename_i all hflat
  split_ifs at h with hgt
  · split at h
    · rename_i frc hfrc
      obtain ⟨rfl, rfl⟩ := Prod.mk.inj (Except.ok.inj h)
      obtain ⟨h1, h2, h3⟩ := getFplus1RoundChanges_spec hfrc
      exact .fPlus1 ht h1 h2 fun m hm => ⟨(mem_flatten hflat).mp (h3 m hm).1, (h3 m hm).2⟩
    · obtain ⟨rfl, rfl⟩ := Prod.mk.inj (Except.ok.inj h)
      exact .nothing
  · have heq : msg.round = round := by omega
    rcases classifyQrc_spec h with ⟨rfl, rfl⟩ | ⟨rfl, rfl⟩ | ⟨qrc, rfl, rfl, hlead, hprod, hmem⟩
    · exact .nothing
    · exact .unjust ht heq
    · rw [heq] at hlead hprod
      exact .roundChanges ht heq hlead hprod fun m hm => (mem_flatten hflat).mp (hmem m hm)

theorem classify_spec {round process : ℤ} {msg : Msg V} {rule : UponRule}
    (h : classify d order round process buffer msg = .ok (rule, justification)) :
    Classified d round process buffer msg rule justification := by
  unfold classify at h
  split at h
  case h_1 htype =>
    obtain ⟨rfl, rfl⟩ := Prod.mk.inj (Except.ok.inj h)
    exact .decided htype
  case h_2 htype =>
    split_ifs at h with hlt
    · obtain ⟨rfl, rfl⟩ := Prod.mk.inj (Except.ok.inj h)
      exact .nothing
    · obtain ⟨rfl, rfl⟩ := Prod.mk.inj (Except.ok.inj h)
      exact .prePrepare htype (by omega)
  case h_3 htype =>
    rcases classifyVote_spec h with ⟨rfl, rfl⟩ | ⟨votes, rfl, rfl, heq, hq, hmem⟩
    · exact .nothing
    · exact .prepares htype heq hq hmem
  case h_4 htype =>
    rcases classifyVote_spec h with ⟨rfl, rfl⟩ | ⟨votes, rfl, rfl, heq, hq, hmem⟩
    · exact .nothing
    · exact .commits htype heq hq hmem
  case h_5 htype => exact classifyRoundChange_spec htype h
  case h_6 => cases h

/-- `classify` panics only on an unknown type or on nested justifications. -/
theorem classify_error {round process : ℤ} {msg : Msg V} {p : Panic}
    (h : classify d order round process buffer msg = .error p) :
    p = .invalidType ∧ msg.type.valid = false ∨
      p = .nestedJustifications ∧
        ∃ m, InBuffer buffer m ∧ ∃ j ∈ m.justification, j.justification ≠ [] := by
  have hflat : flatten order buffer = .error p → p = .nestedJustifications ∧
      ∃ m, InBuffer buffer m ∧ ∃ j ∈ m.justification, j.justification ≠ [] := by
    intro hf
    obtain ⟨hp, m, hm, hj⟩ := flattenMsgs_error hf
    exact ⟨hp, m, mem_valuesIn_flatten.mp hm, hj⟩
  have hvote : ∀ t fires, classifyVote d order round buffer msg t fires = .error p →
      flatten order buffer = .error p := by
    intro t fires hv
    unfold classifyVote at hv
    split_ifs at hv
    split at hv
    · rename_i e he
      rw [he, Except.error.inj hv]
    · dsimp only at hv
      split_ifs at hv
  have hqrc : ∀ all, classifyQrc d order process all msg ≠ .error p := by
    intro all hq
    obtain ⟨res, hres⟩ := getJustifiedQrc_isOk d order all msg.round
    simp only [classifyQrc, hres] at hq
    cases res <;> split_ifs at hq
  unfold classify at h
  split at h
  case h_1 => cases h
  case h_2 => split_ifs at h
  case h_3 => exact .inr (hflat (hvote _ _ h))
  case h_4 => exact .inr (hflat (hvote _ _ h))
  case h_5 =>
    cases hall : flatten order buffer with
    | error e =>
      simp only [classifyRoundChange, hall] at h
      split_ifs at h
      obtain rfl := Except.error.inj h
      exact .inr (hflat hall)
    | ok all =>
      simp only [classifyRoundChange, hall] at h
      split_ifs at h
      · split at h <;> cases h
      · exact absurd h (hqrc all)
  case h_6 h1 h2 h3 h4 h5 =>
    refine .inl ⟨(Except.error.inj h).symm, ?_⟩
    cases ht : msg.type <;> simp_all [MessageType.valid]

end Pluto.Qbft
