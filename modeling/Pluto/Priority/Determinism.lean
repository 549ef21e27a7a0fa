import Pluto.Priority.Calculate

/-!
# The priority result does not depend on the order of the messages

Two nodes that have collected the same messages propose the same topics, in whatever order the
messages arrived and whatever order their hash maps iterate in (`topics_eq_of_perm`).  The argument
follows the sorts of the source.  Peer ids are different in valid messages, so ordering by them
forgets the order of arrival; from then on every loop runs over the same list.  The groups come out
of a hash map in any order, and since the result of a group has the hash of the group
(`resultRoot_rankedResult`), ordering by topic hash forgets that order too.  Nothing is assumed
about the hash: what the code compares are hashes throughout.
-/

namespace Pluto.Priority

open Corepb Ssz

variable (sha256 : Bytes → HashRoot)

lemma rootKey_injective : Function.Injective rootKey := by
  intro a b h
  have hnat : Function.Injective UInt8.toNat := fun _ _ => UInt8.toNat_inj.mp
  exact HashRoot.ext (List.map_injective_iff.mpr hnat h)

variable {sha256}

/-- Validity does not depend on the order. -/
lemma Valid.perm {msgs msgs' : List PriorityMsg} (h : Valid sha256 msgs) (hperm : msgs.Perm msgs') :
    Valid sha256 msgs' where
  ne_nil hnil := h.ne_nil (List.Perm.eq_nil (hnil ▸ hperm))
  sameDuty msg hmsg msg' hmsg' :=
    h.sameDuty msg (hperm.mem_iff.mpr hmsg) msg' (hperm.mem_iff.mpr hmsg')
  peers := (hperm.map PriorityMsg.peerId).nodup_iff.mp h.peers
  wellFormed msg hmsg := h.wellFormed msg (hperm.mem_iff.mpr hmsg)

/-- Ordering by peer id forgets the order of arrival. -/
lemma Valid.allTopics_eq {msgs msgs' : List PriorityMsg} (h : Valid sha256 msgs)
    (hperm : msgs.Perm msgs') : allTopics msgs = allTopics msgs' := by
  unfold allTopics sortInput
  rw [sortByKey_eq_of_perm hperm h.peers]

/-- The result of a group has the hash of the group. -/
lemma resultRoot_rankedResult {minScore : Int64} {proposals : List PriorityTopicProposal}
    {root : HashRoot} (hne : proposals ≠ [])
    (hroot : ∀ topic ∈ proposals, topicRoot sha256 topic = root) :
    resultRoot sha256 (rankedResult sha256 minScore proposals) = root := by
  cases proposals with
  | nil => exact absurd rfl hne
  | cons topic rest => exact hroot topic List.mem_cons_self

/-- The groups of the grouping loop. -/
lemma lookup_groups {topics : List PriorityTopicProposal} {root : HashRoot}
    {proposals : List PriorityTopicProposal}
    (h : (HashMap.groupBy (topicRoot sha256) topics).lookup root = some proposals) :
    proposals ≠ [] ∧ ∀ topic ∈ proposals, topicRoot sha256 topic = root := by
  obtain ⟨rfl, hne⟩ := HashMap.lookup_groupBy_eq_some.mp h
  exact ⟨hne, fun topic htopic => by simpa using (List.mem_filter.mp htopic).2⟩

/-- No two results have the same hash. -/
lemma nodup_rankedResults (o : IterOrder (Sigma fun _ : HashRoot => List PriorityTopicProposal))
    (msgs : List PriorityMsg) (minRequired : Int64) :
    ((rankedResults sha256 o msgs minRequired).map
      fun r => rootKey (resultRoot sha256 r)).Nodup := by
  have hroots : ((HashMap.valuesIn o (HashMap.groupBy (topicRoot sha256) (allTopics msgs))).map
      fun ps => resultRoot sha256 (rankedResult sha256 (minScore minRequired) ps)).Nodup := by
    refine HashMap.nodup_map_valuesIn fun root proposals hlookup => ?_
    obtain ⟨hne, hroot⟩ := lookup_groups hlookup
    exact resultRoot_rankedResult hne hroot
  rw [rankedResults, List.map_map]
  simpa [Function.comp_def] using hroots.map rootKey_injective

/-- Another iteration order only reorders the results. -/
lemma rankedResults_perm (o o' : IterOrder (Sigma fun _ : HashRoot => List PriorityTopicProposal))
    {msgs msgs' : List PriorityMsg} (htopics : allTopics msgs = allTopics msgs')
    (minRequired : Int64) :
    (rankedResults sha256 o msgs minRequired).Perm (rankedResults sha256 o' msgs' minRequired) := by
  unfold rankedResults HashMap.valuesIn
  rw [htopics]
  exact (((o.perm _).trans (o'.perm _).symm).map _).map _

/-- **The topics of the result do not depend on the order of the messages**, nor on the iteration
order of the hash maps, and neither does whether there is a result. -/
theorem topics_eq_of_perm (sha256 : Bytes → HashRoot)
    (o o' : IterOrder (Sigma fun _ : HashRoot => List PriorityTopicProposal))
    {msgs msgs' : List PriorityMsg} (hperm : msgs.Perm msgs') (minRequired : Int64) :
    ((∃ result, calculateResult sha256 o msgs minRequired = .ok result) ↔
      ∃ result, calculateResult sha256 o' msgs' minRequired = .ok result) ∧
    ∀ result result', calculateResult sha256 o msgs minRequired = .ok result →
      calculateResult sha256 o' msgs' minRequired = .ok result' →
        result.topics = result'.topics := by
  simp only [calculateResult_ok_iff]
  constructor
  · constructor
    · rintro ⟨_, hvalid, -⟩
      exact ⟨_, hvalid.perm hperm, rfl⟩
    · rintro ⟨_, hvalid, -⟩
      exact ⟨_, hvalid.perm hperm.symm, rfl⟩
  · rintro _ _ ⟨hvalid, rfl⟩ ⟨-, rfl⟩
    exact sortByKey_eq_of_perm (rankedResults_perm o o' (hvalid.allTopics_eq hperm) minRequired)
      (nodup_rankedResults o msgs minRequired)

/-- A proposal without a topic. -/
def absentTopicMsg : PriorityMsg := ⟨some ⟨1, 12⟩, [⟨none, [⟨"", [1]⟩, ⟨"", [2]⟩]⟩], "a", []⟩

/-- A proposal for the empty topic, which has the same hash. -/
def emptyTopicMsg : PriorityMsg :=
  ⟨some ⟨1, 12⟩, [⟨some emptyAny, [⟨"", [2]⟩, ⟨"", [1]⟩]⟩], "b", []⟩

/-- The absent and the empty topic, in both orders and with two iteration orders. -/
theorem topics_eq_absent_empty :
    [absentTopicMsg, emptyTopicMsg].Perm [emptyTopicMsg, absentTopicMsg] ∧
      ∃ result result',
        calculateResult chunk (.stored _) [absentTopicMsg, emptyTopicMsg] 2 = .ok result ∧
        calculateResult chunk ⟨List.reverse, List.reverse_perm⟩ [emptyTopicMsg, absentTopicMsg] 2 =
          .ok result' ∧
        result.topics = result'.topics := by
  have hperm : [absentTopicMsg, emptyTopicMsg].Perm [emptyTopicMsg, absentTopicMsg] :=
    .swap emptyTopicMsg absentTopicMsg []
  obtain ⟨hiff, heq⟩ := topics_eq_of_perm chunk (.stored _)
    ⟨List.reverse, List.reverse_perm⟩ hperm 2
  obtain ⟨result, hresult⟩ : ∃ result,
      calculateResult chunk (.stored _) [absentTopicMsg, emptyTopicMsg] 2 = .ok result :=
    Except.exists_ok_of_isSome (by decide +kernel)
  obtain ⟨result', hresult'⟩ := hiff.mp ⟨result, hresult⟩
  exact ⟨hperm, result, result', hresult, hresult', heq result result' hresult hresult'⟩

end Pluto.Priority
