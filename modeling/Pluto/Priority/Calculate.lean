import Pluto.Consensus.Msg
import Pluto.Lib.StableSort

/-!
# The priority result

`crates/priority/src/calculate.rs`: what a node proposes to the cluster once it has the priority
messages of its peers.  Topics and priorities are opaque envelopes that count as equal when their
hashes are; an absent topic hashes like the empty envelope.

`calculateResult` validates the messages, groups their proposals by topic in the order of the peer
ids, gives every priority of a topic a score (1000 for each proposal that has it, minus its position
there), ranks the priorities by their scores and drops those whose score does not exceed that of
`min_required - 1` peers.  The scores are saturating `i64`s.

Hashing an envelope cannot fail, so the calculation succeeds exactly on valid messages
(`calculateResult_ok_iff`), and its loops compute what `Tally.step` folds over the proposals.
-/

namespace Pluto.Priority

open Except (bind_ok_iff pure_eq_ok ok_bind)
open Corepb Ssz

/-- Errors produced by the priority protocol. -/
inductive Error
  | messagesEmpty
  | mismatchingDuties
  | duplicatePeer
  | duplicateTopic
  | maxPriorityReached
  | duplicatePriority
  | hashProto (source : Consensus.MsgError)
  | emptySignature
  | unknownPeerId
  | invalidSignature
  | invalidMsgProtoFields
  | recover (source : Consensus.K1UtilError)
  | calculateResult (source : Error)
  | invalidPeerId
  | dutyExpired
  | deadlineComputeFailed
  | cancelled
  deriving DecidableEq

/-! ## Saturating arithmetic -/

/-- The nearest `i64`. -/
def clamp (z : ℤ) : ℤ := max (-2 ^ 63) (min z (2 ^ 63 - 1))

def saturatingAdd (a b : Int64) : Int64 := .ofIntClamp (a.toInt + b.toInt)

def saturatingSub (a b : Int64) : Int64 := .ofIntClamp (a.toInt - b.toInt)

def saturatingMul (a b : Int64) : Int64 := .ofIntClamp (a.toInt * b.toInt)

@[simp] lemma toInt_ofIntClamp (z : ℤ) : (Int64.ofIntClamp z).toInt = clamp z := by
  unfold clamp Int64.ofIntClamp
  split_ifs with hmin hmax
  · rw [Int64.toInt_minValue] at hmin
    rw [Int64.toInt_maxValue] at hmax
    rw [Int64.toInt_ofIntLE, min_eq_left hmax, max_eq_right hmin]
  · rw [Int64.toInt_maxValue, not_le] at hmax
    rw [Int64.toInt_maxValue, min_eq_right hmax.le]
    decide
  · rw [Int64.toInt_minValue, not_le] at hmin
    rw [Int64.toInt_minValue, min_eq_left (by omega), max_eq_left hmin.le]

/-! ## Hashing -/

/-- `MAX_PRIORITIES` -/
def maxPriorities : ℕ := 1000

/-- `COUNT_WEIGHT` -/
def countWeight : Int64 := 1000

section Model

variable (sha256 : Bytes → HashRoot)

/-- The hash root of the encoding of an envelope. -/
def hashAny (any : Any) : Except Error HashRoot :=
  (Consensus.hashProtoBytes sha256 (Any.codec.encode any)).mapError .hashProto

/-- `EMPTY_ANY` -/
def emptyAny : Any := ⟨"", []⟩

/-- The envelope of a topic; an absent one is the empty envelope. -/
def topicAny (topic : PriorityTopicProposal) : Any := topic.topic.getD emptyAny

def topicResultAny (result : PriorityTopicResult) : Any := result.topic.getD emptyAny

/-! ## Validation -/

/-- A loop that puts a key of every item into a set, where a key that is there already is an error,
and then checks the item. -/
def forDistinct {α κ ε : Type} [DecidableEq κ] (key : α → Except ε κ) (duplicate : ε)
    (check : α → Except ε Unit) : Finset κ → List α → Except ε Unit
  | _, [] => .ok ()
  | dedup, a :: rest => do
    let k ← key a
    if k ∈ dedup then throw duplicate
    check a
    forDistinct key duplicate check (insert k dedup) rest

/-- The checks on the priorities of a topic. -/
def validatePriorities (topic : PriorityTopicProposal) : Except Error Unit :=
  if topic.priorities.length ≥ maxPriorities then .error .maxPriorityReached
  else forDistinct (hashAny sha256) .duplicatePriority (fun _ => .ok ()) ∅ topic.priorities

/-- The checks on the topics of a message. -/
def validateTopics (msg : PriorityMsg) : Except Error Unit :=
  forDistinct (fun topic => hashAny sha256 (topicAny topic)) .duplicateTopic
    (validatePriorities sha256) ∅ msg.topics

def validateMsgs (msgs : List PriorityMsg) : Except Error Unit :=
  match msgs with
  | [] => .error .messagesEmpty
  | first :: _ =>
    forDistinct
      (fun msg => if msg.duty ≠ first.duty then .error .mismatchingDuties else .ok msg.peerId)
      .duplicatePeer (validateTopics sha256) ∅ msgs

/-! ## The calculation -/

/-- A copy of the messages ordered by peer id. -/
def sortInput (msgs : List PriorityMsg) : List PriorityMsg := sortByKey PriorityMsg.peerId msgs

/-- The order of `[u8; 32]`. -/
def rootKey (root : HashRoot) : List ℕ := root.bytes.map UInt8.toNat

abbrev Proposals : Type := HashMap HashRoot (List PriorityTopicProposal)

/-- One round of the grouping loop. -/
def addTopic (byTopic : Proposals) (topic : PriorityTopicProposal) : Except Error Proposals := do
  let topicHash ← hashAny sha256 (topicAny topic)
  pure (byTopic.push topicHash topic)

/-- The proposals by topic, in the order of the peer ids. -/
def groupByTopic (msgs : List PriorityMsg) : Except Error Proposals :=
  (sortInput msgs).foldlM (fun byTopic msg => msg.topics.foldlM (addTopic sha256) byTopic) ∅

/-- What the scoring loop of a topic accumulates. -/
structure Tally where
  /-- In the order they were first seen. -/
  allPriorities : List HashRoot := []
  scores : HashMap HashRoot Int64 := ∅
  priorities : HashMap HashRoot Any := ∅

/-- `scores[prio_hash]` -/
def Tally.score (tally : Tally) (prioHash : HashRoot) : Int64 :=
  (tally.scores.lookup prioHash).getD 0

/-- The contribution of a proposal that has the priority in position `order`. -/
def weight (order : ℕ) : Int64 := saturatingSub countWeight (.ofIntClamp order)

/-- Counts a priority whose hash is known. -/
def Tally.step (tally : Tally) (prioHash : HashRoot) (prio : Any) (order : ℕ) : Tally where
  allPriorities :=
    if (tally.scores.lookup prioHash).isNone then tally.allPriorities ++ [prioHash]
    else tally.allPriorities
  scores := tally.scores.insert prioHash (saturatingAdd (tally.score prioHash) (weight order))
  priorities := tally.priorities.insert prioHash prio

/-- One round of the scoring loop. -/
def Tally.count (tally : Tally) (entry : Any × ℕ) : Except Error Tally := do
  let prioHash ← hashAny sha256 entry.1
  pure (tally.step prioHash entry.1 entry.2)

/-- The scoring loop over the proposals of a topic. -/
def countProposals (proposals : List PriorityTopicProposal) : Except Error Tally :=
  proposals.foldlM
    (fun tally proposal => proposal.priorities.zipIdx.foldlM (Tally.count sha256) tally) {}

/-- The priorities by decreasing score; ties keep the order they were first seen in. -/
def Tally.ranking (tally : Tally) : List HashRoot :=
  sortByKey (fun h => OrderDual.toDual (tally.score h).toInt) tally.allPriorities

/-- The result of a topic from its tally. -/
def Tally.result (tally : Tally) (topic : Option Any) (minScore : Int64) : PriorityTopicResult where
  topic := topic
  priorities := (tally.ranking.filter fun h => ¬ tally.score h ≤ minScore).map fun h =>
    ⟨tally.priorities.lookup h, tally.score h⟩

/-- The result of a topic. -/
def topicResult (minScore : Int64) (proposals : List PriorityTopicProposal) :
    Except Error PriorityTopicResult := do
  let tally ← countProposals sha256 proposals
  pure (tally.result (proposals.head?.bind PriorityTopicProposal.topic) minScore)

/-- The results ordered by topic hash. -/
def orderTopicResults (values : List PriorityTopicResult) :
    Except Error (List PriorityTopicResult) := do
  let tuples ← values.mapM fun value => do
    let hash ← hashAny sha256 (topicResultAny value)
    pure (hash, value)
  pure ((sortByKey (fun t => rootKey t.1) tuples).map Prod.snd)

/-- The score that the priorities of too few peers do not exceed. -/
def minScore (minRequired : Int64) : Int64 :=
  saturatingMul (saturatingSub minRequired 1) countWeight

/-- The cluster-wide priorities given the priorities of each peer. -/
def calculateResult (o : IterOrder (Sigma fun _ : HashRoot => List PriorityTopicProposal))
    (msgs : List PriorityMsg) (minRequired : Int64) : Except Error PriorityResult := do
  validateMsgs sha256 msgs
  let proposalsByTopic ← groupByTopic sha256 msgs
  let topicResults ←
    (HashMap.valuesIn o proposalsByTopic).mapM (topicResult sha256 (minScore minRequired))
  let ordered ← orderTopicResults sha256 topicResults
  pure { msgs := msgs, topics := ordered }

end Model

/-! ## Hashing does not fail -/

section Spec

variable (sha256 : Bytes → HashRoot)

/-- The hash of an envelope. -/
def anyRoot (any : Any) : HashRoot := (hashAny sha256 any).toOption.getD .zero

def topicRoot (topic : PriorityTopicProposal) : HashRoot := anyRoot sha256 (topicAny topic)

def resultRoot (result : PriorityTopicResult) : HashRoot := anyRoot sha256 (topicResultAny result)

lemma hashAny_eq (any : Any) : hashAny sha256 any = .ok (anyRoot sha256 any) := by
  rw [anyRoot, hashAny, Consensus.hashProtoBytes, hashBytes_eq]
  rfl

/-! ## What validation accepts -/

/-- The loop accepts distinct keys that are new, and items that pass the check. -/
lemma forDistinct_ok_iff {α κ ε : Type} [DecidableEq κ] {key : α → Except ε κ} {duplicate : ε}
    {check : α → Except ε Unit} {dedup : Finset κ} {l : List α} :
    forDistinct key duplicate check dedup l = .ok () ↔
      (∀ a ∈ l, ∃ k, key a = .ok k ∧ k ∉ dedup ∧ check a = .ok ()) ∧
        l.Pairwise fun a b => key a ≠ key b := by
  induction l generalizing dedup with
  | nil => simp [forDistinct]
  | cons a l ih =>
    rw [List.forall_mem_cons, List.pairwise_cons, forDistinct, bind_ok_iff]
    constructor
    · rintro ⟨k, hk, h⟩
      split_ifs at h with hmem
      · cases h
      · obtain ⟨_, hcheck, h⟩ := bind_ok_iff.mp h
        obtain ⟨hall, hpair⟩ := ih.mp h
        refine ⟨⟨⟨k, hk, hmem, hcheck⟩, fun b hb => ?_⟩, fun b hb heq => ?_, hpair⟩
        · obtain ⟨k', hk', hnew, hcheck'⟩ := hall b hb
          exact ⟨k', hk', fun h => hnew (Finset.mem_insert_of_mem h), hcheck'⟩
        · obtain ⟨k', hk', hnew, -⟩ := hall b hb
          rw [hk, hk'] at heq
          exact hnew (by rw [← Except.ok.inj heq]; exact Finset.mem_insert_self k dedup)
    · rintro ⟨⟨⟨k, hk, hmem, hcheck⟩, hall⟩, hne, hpair⟩
      refine ⟨k, hk, ?_⟩
      rw [if_neg hmem]
      refine bind_ok_iff.mpr ⟨_, hcheck, ih.mpr ⟨?_, hpair⟩⟩
      intro b hb
      obtain ⟨k', hk', hnew, hcheck'⟩ := hall b hb
      refine ⟨k', hk', fun h => ?_, hcheck'⟩
      rcases Finset.mem_insert.mp h with rfl | h
      · exact hne b hb (hk.trans hk'.symm)
      · exact hnew h

/-- The same for keys that are hashes. -/
lemma forDistinct_hash_ok_iff {α : Type} {any : α → Any} {duplicate : Error}
    {check : α → Except Error Unit} {l : List α} :
    forDistinct (fun a => hashAny sha256 (any a)) duplicate check ∅ l = .ok () ↔
      (l.map fun a => anyRoot sha256 (any a)).Nodup ∧ ∀ a ∈ l, check a = .ok () := by
  simp only [forDistinct_ok_iff, hashAny_eq, List.nodup_iff_pairwise_ne, List.pairwise_map]
  simp [and_comm]

/-- A topic with fewer than 1000 priorities, all different. -/
def TopicWellFormed (topic : PriorityTopicProposal) : Prop :=
  topic.priorities.length < maxPriorities ∧ (topic.priorities.map (anyRoot sha256)).Nodup

/-- A message with different topics that are well formed. -/
def MsgWellFormed (msg : PriorityMsg) : Prop :=
  (msg.topics.map (topicRoot sha256)).Nodup ∧ ∀ topic ∈ msg.topics, TopicWellFormed sha256 topic

/-- Messages that pass validation. -/
structure Valid (msgs : List PriorityMsg) : Prop where
  ne_nil : msgs ≠ []
  sameDuty : ∀ msg ∈ msgs, ∀ msg' ∈ msgs, msg.duty = msg'.duty
  peers : (msgs.map PriorityMsg.peerId).Nodup
  wellFormed : ∀ msg ∈ msgs, MsgWellFormed sha256 msg

lemma validatePriorities_ok_iff {topic : PriorityTopicProposal} :
    validatePriorities sha256 topic = .ok () ↔ TopicWellFormed sha256 topic := by
  unfold validatePriorities TopicWellFormed
  split_ifs with hlen
  · simp only [false_iff, not_and]
    omega
  · refine (forDistinct_hash_ok_iff sha256).trans ?_
    simp [not_le.mp hlen]

lemma validateTopics_ok_iff {msg : PriorityMsg} :
    validateTopics sha256 msg = .ok () ↔ MsgWellFormed sha256 msg := by
  simp only [validateTopics, forDistinct_hash_ok_iff, validatePriorities_ok_iff, MsgWellFormed]
  rfl

/-- **What validation accepts.** -/
theorem validateMsgs_ok_iff {msgs : List PriorityMsg} :
    validateMsgs sha256 msgs = .ok () ↔ Valid sha256 msgs := by
  cases msgs with
  | nil => exact ⟨(fun h => by cases h), fun h => absurd rfl h.ne_nil⟩
  | cons first rest =>
    simp only [validateMsgs, forDistinct_ok_iff, validateTopics_ok_iff]
    have hkey : ∀ {msg : PriorityMsg} {k : String},
        (if msg.duty ≠ first.duty then .error .mismatchingDuties else .ok msg.peerId :
          Except Error String) = .ok k ↔ msg.duty = first.duty ∧ msg.peerId = k := by
      intro msg k
      split_ifs with h <;> simp_all
    constructor
    · rintro ⟨hall, hpair⟩
      have hduty : ∀ msg ∈ first :: rest, msg.duty = first.duty := by
        intro msg hmsg
        obtain ⟨k, hk, -⟩ := hall msg hmsg
        exact (hkey.mp hk).1
      refine ⟨List.cons_ne_nil _ _, ?_, ?_, ?_⟩
      · exact fun msg hmsg msg' hmsg' => (hduty msg hmsg).trans (hduty msg' hmsg').symm
      · rw [List.nodup_iff_pairwise_ne, List.pairwise_map]
        refine hpair.imp_of_mem ?_
        intro a b ha hb hne heq
        rw [if_neg (not_not.mpr (hduty a ha)), if_neg (not_not.mpr (hduty b hb))] at hne
        exact hne (congrArg Except.ok heq)
      · intro msg hmsg
        obtain ⟨k, -, -, hwf⟩ := hall msg hmsg
        exact hwf
    · intro h
      have hduty : ∀ msg ∈ first :: rest, msg.duty = first.duty := fun msg hmsg =>
        h.sameDuty msg hmsg first List.mem_cons_self
      refine ⟨fun msg hmsg => ?_, ?_⟩
      · exact ⟨msg.peerId, hkey.mpr ⟨hduty msg hmsg, rfl⟩, by simp, h.wellFormed msg hmsg⟩
      · have hpeers := h.peers
        rw [List.nodup_iff_pairwise_ne, List.pairwise_map] at hpeers
        refine hpeers.imp_of_mem ?_
        intro a b ha hb hne heq
        rw [if_neg (not_not.mpr (hduty a ha)), if_neg (not_not.mpr (hduty b hb))] at heq
        exact hne (Except.ok.inj heq)

/-! ## What the loops compute -/

/-- The proposals of all topics, in the order of the peer ids. -/
def allTopics (msgs : List PriorityMsg) : List PriorityTopicProposal :=
  (sortInput msgs).flatMap PriorityMsg.topics

/-- The priorities of some proposals with their positions. -/
def entries (proposals : List PriorityTopicProposal) : List (Any × ℕ) :=
  proposals.flatMap fun proposal => proposal.priorities.zipIdx

/-- The tally of a list of entries. -/
def tallyOf (entries : List (Any × ℕ)) : Tally :=
  entries.foldl (fun tally e => tally.step (anyRoot sha256 e.1) e.1 e.2) {}

/-- The result of a topic. -/
def rankedResult (minScore : Int64) (proposals : List PriorityTopicProposal) :
    PriorityTopicResult :=
  (tallyOf sha256 (entries proposals)).result
    (proposals.head?.bind PriorityTopicProposal.topic) minScore

/-- The results of all topics, in no particular order. -/
def rankedResults (o : IterOrder (Sigma fun _ : HashRoot => List PriorityTopicProposal))
    (msgs : List PriorityMsg) (minRequired : Int64) : List PriorityTopicResult :=
  (HashMap.valuesIn o (HashMap.groupBy (topicRoot sha256) (allTopics msgs))).map
    (rankedResult sha256 (minScore minRequired))

lemma groupByTopic_eq (msgs : List PriorityMsg) :
    groupByTopic sha256 msgs = .ok (HashMap.groupBy (topicRoot sha256) (allTopics msgs)) := by
  simp only [groupByTopic, HashMap.groupBy, allTopics, List.foldl_flatMap]
  have hadd : addTopic sha256 = fun m topic => pure (m.push (topicRoot sha256 topic) topic) := by
    funext m topic
    rw [addTopic, hashAny_eq]
    rfl
  simp only [hadd, List.foldlM_pure]
  rfl

lemma countProposals_eq (proposals : List PriorityTopicProposal) :
    countProposals sha256 proposals = .ok (tallyOf sha256 (entries proposals)) := by
  simp only [countProposals, tallyOf, entries, List.foldl_flatMap]
  have hcount : Tally.count sha256 =
      fun tally e => pure (tally.step (anyRoot sha256 e.1) e.1 e.2) := by
    funext tally e
    rw [Tally.count, hashAny_eq]
    rfl
  simp only [hcount, List.foldlM_pure]
  rfl

lemma topicResult_eq (minScore : Int64) :
    topicResult sha256 minScore = fun proposals =>
      pure (rankedResult sha256 minScore proposals) := by
  funext proposals
  rw [topicResult, countProposals_eq]
  rfl

lemma orderTopicResults_eq (values : List PriorityTopicResult) :
    orderTopicResults sha256 values =
      .ok (sortByKey (fun r => rootKey (resultRoot sha256 r)) values) := by
  have htuple : (fun value => do
      let hash ← hashAny sha256 (topicResultAny value)
      pure (hash, value)) = fun value => (pure (resultRoot sha256 value, value) : Except Error _) := by
    funext value
    rw [hashAny_eq]
    rfl
  rw [orderTopicResults, htuple, List.mapM_pure, pure_eq_ok, ok_bind,
    pure_eq_ok]
  congr 1
  have hpairs : (sortByKey (fun r => rootKey (resultRoot sha256 r)) values).map
      (fun r => (resultRoot sha256 r, r)) =
        sortByKey (fun t => rootKey t.1) (values.map fun r => (resultRoot sha256 r, r)) := by
    apply map_sortByKey
    exact fun _ => rfl
  rw [← hpairs, List.map_map]
  exact List.map_id _

/-- **The calculation succeeds exactly on valid messages**, and this is what it returns. -/
theorem calculateResult_ok_iff
    {o : IterOrder (Sigma fun _ : HashRoot => List PriorityTopicProposal)}
    {msgs : List PriorityMsg} {minRequired : Int64} {result : PriorityResult} :
    calculateResult sha256 o msgs minRequired = .ok result ↔
      Valid sha256 msgs ∧ result = ⟨msgs, sortByKey (fun r => rootKey (resultRoot sha256 r))
        (rankedResults sha256 o msgs minRequired)⟩ := by
  rw [calculateResult, bind_ok_iff]
  constructor
  · rintro ⟨_, hvalid, h⟩
    refine ⟨(validateMsgs_ok_iff sha256).mp hvalid, ?_⟩
    rw [groupByTopic_eq, ok_bind, topicResult_eq, List.mapM_pure, pure_eq_ok,
      ok_bind, orderTopicResults_eq] at h
    exact (Except.ok.inj h).symm
  · rintro ⟨hvalid, rfl⟩
    refine ⟨_, (validateMsgs_ok_iff sha256).mpr hvalid, ?_⟩
    rw [groupByTopic_eq, ok_bind, topicResult_eq, List.mapM_pure, pure_eq_ok,
      ok_bind, orderTopicResults_eq]
    rfl

end Spec

end Pluto.Priority
