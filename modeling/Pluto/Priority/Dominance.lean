import Mathlib.Algebra.Order.BigOperators.Group.List
import Pluto.Priority.Determinism

/-!
# When the number of peers decides

The source gives a priority 1000 points for each peer that proposed it, minus its position in the
list of that peer, and takes this single number for two decisions: which priorities are supported by
at least `min_required` peers, and which of two is supported by more.  Its comment says that an extra
peer always outweighs a difference in position.  The positions of one priority are summed over all
its peers, though, and a sum can reach 1000.

`tallyOf_counts` computes the score of a priority, and `dominance_iff` says exactly for which messages
the number of peers decides: the positions of a priority with enough peers have to sum up to less
than 1000 for each peer above `min_required - 1`, and the scores of two of them have to be in the
order of their numbers of peers.
-/

namespace Pluto.Priority

open Corepb Ssz List

variable (sha256 : Bytes → HashRoot)

/-! ## What the peers proposed -/

/-- The position of a priority in the proposal of a message for a topic. -/
def positionIn (topic prio : HashRoot) (msg : PriorityMsg) : Option ℕ :=
  (msg.topics.find? fun t => topicRoot sha256 t = topic).bind fun t =>
    (t.priorities.map (anyRoot sha256)).idxOf? prio

/-- The positions of a priority in the proposals for a topic. -/
def positions (msgs : List PriorityMsg) (topic prio : HashRoot) : List ℕ :=
  msgs.filterMap (positionIn sha256 topic prio)

/-- The number of peers that proposed a priority for a topic. -/
def support (msgs : List PriorityMsg) (topic prio : HashRoot) : ℕ :=
  (positions sha256 msgs topic prio).length

/-- The score of a priority in a topic: an `i64` that saturates. -/
def scoreOf (msgs : List PriorityMsg) (topic prio : HashRoot) : ℤ :=
  min (1000 * support sha256 msgs topic prio - (positions sha256 msgs topic prio).sum) (2 ^ 63 - 1)

/-- The proposals for a topic, in the order of the peer ids. -/
def proposalsFor (msgs : List PriorityMsg) (topic : HashRoot) : List PriorityTopicProposal :=
  (allTopics msgs).filter fun t => topicRoot sha256 t = topic

/-- The priorities of a topic in the order they are first seen in. -/
def seen (msgs : List PriorityMsg) (topic : HashRoot) : List HashRoot :=
  ((entries (proposalsFor sha256 msgs topic)).map fun e => anyRoot sha256 e.1).eraseDups

/-- The priorities of a topic result. -/
def resultPriorities (r : PriorityTopicResult) : List HashRoot :=
  r.priorities.filterMap fun s => s.priority.map (anyRoot sha256)

/-! ## The tally -/

/-- The points of a priority in a list of entries, as an integer. -/
def points (es : List (Any × ℕ)) (prio : HashRoot) : ℤ :=
  ((es.filter fun e => anyRoot sha256 e.1 = prio).map fun e => (1000 - e.2 : ℤ)).sum

lemma points_append (es es' : List (Any × ℕ)) (prio : HashRoot) :
    points sha256 (es ++ es') prio = points sha256 es prio + points sha256 es' prio := by
  simp [points]

variable {es : List (Any × ℕ)}

lemma points_nonneg (h : ∀ e ∈ es, e.2 < 1000) (prio : HashRoot) :
    0 ≤ points sha256 es prio := by
  refine List.sum_nonneg ?_
  intro z hz
  obtain ⟨e, he, rfl⟩ := List.mem_map.mp hz
  have := h e (List.mem_filter.mp he).1
  omega

lemma toInt_weight {order : ℕ} (h : order < 1000) : (weight order).toInt = 1000 - order := by
  have hweight : countWeight.toInt = 1000 := rfl
  rw [weight, saturatingSub, toInt_ofIntClamp, toInt_ofIntClamp, hweight]
  unfold clamp
  omega

/-- What the tally of some entries holds. -/
structure Tally.Counts (es : List (Any × ℕ)) (tally : Tally) : Prop where
  allPriorities : tally.allPriorities = (es.map fun e => anyRoot sha256 e.1).eraseDups
  nodup : tally.allPriorities.Nodup
  scored : ∀ h, (tally.scores.lookup h).isSome ↔ h ∈ tally.allPriorities
  score : ∀ h, (tally.score h).toInt = min (points sha256 es h) (2 ^ 63 - 1)
  known : ∀ h ∈ tally.allPriorities, ∃ prio, tally.priorities.lookup h = some prio ∧
    anyRoot sha256 prio = h

lemma Tally.counts_nil : Tally.Counts sha256 [] {} where
  allPriorities := rfl
  nodup := List.nodup_nil
  scored h := by simp
  score h := by simp [Tally.score, points]
  known h hmem := by cases hmem

/-- **One round of the scoring loop.** -/
lemma Tally.Counts.step {tally : Tally} (h : tally.Counts sha256 es)
    {e : Any × ℕ} (hes : ∀ e ∈ es, e.2 < 1000) (he : e.2 < 1000) :
    (tally.step (anyRoot sha256 e.1) e.1 e.2).Counts sha256 (es ++ [e]) := by
  set root := anyRoot sha256 e.1 with hroot
  have hisNone : (tally.scores.lookup root).isNone ↔ root ∉ tally.allPriorities := by
    rw [← h.scored]
    simp
  have hmem : ∀ k, k ∈ (tally.step root e.1 e.2).allPriorities ↔
      k ∈ tally.allPriorities ∨ k = root := by
    intro k
    simp only [Tally.step]
    split_ifs with hnew
    · simp
    · rw [hisNone, not_not] at hnew
      exact ⟨.inl, fun hk => hk.elim id fun hk => hk ▸ hnew⟩
  have hscore : ∀ k, (tally.step root e.1 e.2).score k =
      if k = root then saturatingAdd (tally.score root) (weight e.2) else tally.score k := by
    intro k
    simp only [Tally.step, Tally.score]
    split_ifs with hk
    · rw [hk, AList.lookup_insert, Option.getD_some]
    · rw [AList.lookup_insert_ne hk]
  refine ⟨?_, ?_, ?_, ?_, ?_⟩
  · have hseen : root ∈ tally.allPriorities ↔ root ∈ es.map fun e => anyRoot sha256 e.1 := by
      rw [h.allPriorities, List.mem_eraseDups]
    rw [List.map_append, List.eraseDups_append, ← h.allPriorities]
    simp only [Tally.step, List.map_cons, List.map_nil, ← hroot, List.removeAll]
    split_ifs with hnew
    · rw [hisNone, hseen] at hnew
      simp [hnew, List.eraseDups_cons]
    · rw [hisNone, not_not, hseen] at hnew
      simp [hnew]
  · simp only [Tally.step]
    split_ifs with hnew
    · rw [hisNone] at hnew
      exact h.nodup.append (List.nodup_singleton root) (by simpa using hnew)
    · exact h.nodup
  · intro k
    rw [hmem, ← h.scored]
    simp only [Tally.step]
    by_cases hk : k = root
    · rw [hk, AList.lookup_insert]
      simp
    · rw [AList.lookup_insert_ne hk]
      simp [hk]
  · intro k
    rw [hscore, points_append]
    split_ifs with hk
    · have hnonneg := points_nonneg sha256 hes root
      have hpoints : points sha256 [e] k = 1000 - e.2 := by simp [points, hk, hroot]
      rw [hpoints, saturatingAdd, toInt_ofIntClamp, h.score, toInt_weight he, hk, clamp]
      omega
    · have hpoints : points sha256 [e] k = 0 := by simp [points, Ne.symm hk, ← hroot]
      rw [hpoints, h.score, add_zero]
  · intro k hk
    simp only [Tally.step]
    by_cases hkroot : k = root
    · exact ⟨e.1, by rw [hkroot, AList.lookup_insert], hkroot.symm⟩
    · rw [AList.lookup_insert_ne hkroot]
      exact h.known k (((hmem k).mp hk).resolve_right hkroot)

/-- **The scoring loop.** -/
theorem tallyOf_counts (hes : ∀ e ∈ es, e.2 < 1000) : (tallyOf sha256 es).Counts sha256 es := by
  induction es using List.reverseRecOn with
  | nil => exact Tally.counts_nil sha256
  | append_singleton es e ih =>
    have hes' : ∀ e ∈ es, e.2 < 1000 := fun e he => hes e (List.mem_append_left _ he)
    have hstep := (ih hes').step sha256 hes' (hes e (by simp))
    rw [tallyOf, List.foldl_append]
    exact hstep

/-! ## The score of a priority -/

lemma points_flatMap {α : Type} (l : List α) (f : α → List (Any × ℕ)) (prio : HashRoot) :
    points sha256 (l.flatMap f) prio = (l.map fun a => points sha256 (f a) prio).sum := by
  induction l with
  | nil => rfl
  | cons a l ih => rw [List.flatMap_cons, points_append, ih, List.map_cons, List.sum_cons]

/-- The points a priority gets for its position, if it has one. -/
def pointsAt (position : Option ℕ) : ℤ := position.elim 0 fun i => 1000 - i

lemma points_zipIdx {prios : List Any} (hnodup : (prios.map (anyRoot sha256)).Nodup)
    (prio : HashRoot) (n : ℕ) :
    points sha256 (prios.zipIdx n) prio =
      pointsAt (((prios.map (anyRoot sha256)).idxOf? prio).map (n + ·)) := by
  induction prios generalizing n with
  | nil => rfl
  | cons a prios ih =>
    obtain ⟨hnew, hnodup⟩ := List.nodup_cons.mp hnodup
    have hcons : points sha256 ((a :: prios).zipIdx n) prio =
        (if anyRoot sha256 a = prio then (1000 - n : ℤ) else 0) +
          points sha256 (prios.zipIdx (n + 1)) prio := by
      by_cases h : anyRoot sha256 a = prio
      · simp [points, h]
      · simp [points, h]
    rw [hcons, ih hnodup, List.map_cons, List.idxOf?_cons]
    by_cases ha : anyRoot sha256 a = prio
    · -- the priority does not occur again
      have hnone : (prios.map (anyRoot sha256)).idxOf? prio = none :=
        List.idxOf?_eq_none_iff.mpr (ha ▸ hnew)
      simp [ha, hnone, pointsAt]
    · rw [if_neg ha, zero_add, if_neg (by simpa using ha), Option.map_map]
      congr 2
      funext i
      simp only [Function.comp_apply]
      omega

/-- A message has at most one proposal for a topic. -/
lemma filter_eq_find?_toList {topics : List PriorityTopicProposal} {topic : HashRoot}
    (hnodup : (topics.map (topicRoot sha256)).Nodup) :
    (topics.filter fun t => topicRoot sha256 t = topic) =
      (topics.find? fun t => topicRoot sha256 t = topic).toList := by
  induction topics with
  | nil => rfl
  | cons t topics ih =>
    obtain ⟨hnew, hnodup⟩ := List.nodup_cons.mp hnodup
    by_cases ht : topicRoot sha256 t = topic
    · have hrest : (topics.filter fun t => topicRoot sha256 t = topic) = [] := by
        refine List.filter_eq_nil_iff.mpr fun t' ht' heq => hnew ?_
        rw [ht, ← of_decide_eq_true heq]
        exact List.mem_map_of_mem ht'
      simp [ht, hrest]
    · simp [ht, ih hnodup]

lemma points_entries_msg {msg : PriorityMsg} (hmsg : MsgWellFormed sha256 msg)
    (topic prio : HashRoot) :
    points sha256 (entries (msg.topics.filter fun t => topicRoot sha256 t = topic)) prio =
      pointsAt (positionIn sha256 topic prio msg) := by
  rw [filter_eq_find?_toList sha256 hmsg.1, positionIn]
  cases hfind : msg.topics.find? fun t => topicRoot sha256 t = topic with
  | none => rfl
  | some t =>
    have hwf := hmsg.2 t (List.mem_of_find?_eq_some hfind)
    have hpoints := points_zipIdx sha256 hwf.2 prio 0
    simpa [entries] using hpoints

lemma sum_pointsAt (ps : List (Option ℕ)) :
    (ps.map pointsAt).sum = 1000 * (ps.filterMap id).length - ((ps.filterMap id).sum : ℕ) := by
  induction ps with
  | nil => rfl
  | cons p ps ih =>
    cases p with
    | none => simpa [pointsAt] using ih
    | some i =>
      have hcons : (some i :: ps).filterMap id = i :: ps.filterMap id := rfl
      rw [hcons, List.map_cons, List.sum_cons, ih, List.length_cons, List.sum_cons, pointsAt,
        Option.elim_some]
      push_cast
      ring

lemma entries_flatMap {α : Type} (l : List α) (f : α → List PriorityTopicProposal) :
    entries (l.flatMap f) = l.flatMap fun a => entries (f a) := List.flatMap_assoc

variable {sha256} {msgs : List PriorityMsg}

/-- The points of a priority in a topic. -/
theorem Valid.points_eq (h : Valid sha256 msgs) (topic prio : HashRoot) :
    points sha256 (entries (proposalsFor sha256 msgs topic)) prio =
      1000 * support sha256 msgs topic prio - (positions sha256 msgs topic prio).sum := by
  have hsorted : ∀ msg ∈ sortInput msgs, MsgWellFormed sha256 msg := fun msg hmsg =>
    h.wellFormed msg (mem_sortByKey.mp hmsg)
  have hperm : ((sortInput msgs).map fun msg => pointsAt (positionIn sha256 topic prio msg)).Perm
      (msgs.map fun msg => pointsAt (positionIn sha256 topic prio msg)) :=
    (perm_sortByKey PriorityMsg.peerId msgs).map _
  have hsum := sum_pointsAt (msgs.map (positionIn sha256 topic prio))
  rw [List.filterMap_map, List.map_map] at hsum
  rw [proposalsFor, allTopics, List.filter_flatMap, entries_flatMap, points_flatMap,
    List.map_congr_left fun msg hmsg => points_entries_msg sha256 (hsorted msg hmsg) topic prio,
    hperm.sum_eq]
  exact hsum

/-- The positions in the entries are small. -/
lemma Valid.entries_lt (h : Valid sha256 msgs) (topic : HashRoot) :
    ∀ e ∈ entries (proposalsFor sha256 msgs topic), e.2 < 1000 := by
  intro e he
  obtain ⟨t, ht, he⟩ := List.mem_flatMap.mp he
  obtain ⟨msg, hmsg, ht⟩ := List.mem_flatMap.mp (List.mem_filter.mp ht).1
  have hlen := ((h.wellFormed msg (mem_sortByKey.mp hmsg)).2 t ht).1
  have hlt := List.snd_lt_of_mem_zipIdx he
  exact lt_trans hlt hlen

/-- What the scoring loop computes for a topic. -/
theorem Valid.counts (h : Valid sha256 msgs) (topic : HashRoot) :
    (tallyOf sha256 (entries (proposalsFor sha256 msgs topic))).Counts sha256
      (entries (proposalsFor sha256 msgs topic)) :=
  tallyOf_counts sha256 (h.entries_lt topic)

lemma Valid.score_eq (h : Valid sha256 msgs) (topic prio : HashRoot) :
    ((tallyOf sha256 (entries (proposalsFor sha256 msgs topic))).score prio).toInt =
      scoreOf sha256 msgs topic prio := by
  rw [(h.counts topic).score, h.points_eq, scoreOf]

/-! ## The result of a topic -/

/-- The priorities of a topic result, in their order. -/
lemma Tally.Counts.resultPriorities_eq {tally : Tally}
    (h : tally.Counts sha256 es) (topic : Option Any) (minScore : Int64) :
    resultPriorities sha256 (tally.result topic minScore) =
      tally.ranking.filter fun h => ¬ tally.score h ≤ minScore := by
  rw [resultPriorities, Tally.result, List.filterMap_map]
  refine (List.filterMap_congr fun prio hprio => ?_).trans List.filterMap_some
  have hmem : prio ∈ tally.allPriorities := mem_sortByKey.mp (List.mem_filter.mp hprio).1
  obtain ⟨a, ha, hroot⟩ := h.known prio hmem
  simp [ha, hroot]

lemma toInt_minScore {minRequired : Int64} (hmin : 1 ≤ minRequired.toInt) :
    (minScore minRequired).toInt = min (1000 * (minRequired.toInt - 1)) (2 ^ 63 - 1) := by
  have hone : (1 : Int64).toInt = 1 := rfl
  have hweight : countWeight.toInt = 1000 := rfl
  have hle : minRequired.toInt < 2 ^ 63 := Int64.toInt_lt minRequired
  have hsub : (saturatingSub minRequired 1).toInt = minRequired.toInt - 1 := by
    rw [saturatingSub, toInt_ofIntClamp, hone, clamp]
    omega
  rw [minScore, saturatingMul, toInt_ofIntClamp, hsub, hweight, clamp]
  omega

/-- Which priorities a topic result has. -/
lemma Valid.mem_resultPriorities_iff (h : Valid sha256 msgs) {minRequired : Int64}
    (hmin : 1 ≤ minRequired.toInt) {topic prio : HashRoot} :
    prio ∈ resultPriorities sha256
        (rankedResult sha256 (minScore minRequired) (proposalsFor sha256 msgs topic)) ↔
      (positions sha256 msgs topic prio).sum + 1000 * (minRequired.toInt - 1) <
        1000 * support sha256 msgs topic prio ∧ 1000 * (minRequired.toInt - 1) < 2 ^ 63 - 1 := by
  have hscore := h.score_eq topic prio
  have hmem : prio ∈ (tallyOf sha256 (entries (proposalsFor sha256 msgs topic))).ranking ↔
      ((tallyOf sha256 (entries (proposalsFor sha256 msgs topic))).scores.lookup prio).isSome :=
    mem_sortByKey.trans ((h.counts topic).scored prio).symm
  rw [rankedResult, (h.counts topic).resultPriorities_eq, List.mem_filter, decide_eq_true_eq,
    Int64.le_iff_toInt_le, hscore, toInt_minScore hmin, not_le, hmem]
  unfold scoreOf at hscore ⊢
  constructor
  · omega
  · intro hlt
    refine ⟨?_, by omega⟩
    -- a positive score was given to the priority in some round
    cases hlookup :
      (tallyOf sha256 (entries (proposalsFor sha256 msgs topic))).scores.lookup prio with
    | some score => rfl
    | none =>
      rw [Tally.score, hlookup, Option.getD_none, Int64.toInt_zero] at hscore
      omega

variable (sha256 msgs) in
/-- A priority is ranked before another one: it has the higher score, or the same and was seen
first. -/
def Outranks (topic p q : HashRoot) : Prop :=
  scoreOf sha256 msgs topic q < scoreOf sha256 msgs topic p ∨
    (scoreOf sha256 msgs topic p = scoreOf sha256 msgs topic q ∧ [p, q] <+ seen sha256 msgs topic)

/-- Which of two priorities the ranking puts first. -/
lemma Tally.Counts.pair_sublist_ranking_iff {tally : Tally}
    (h : tally.Counts sha256 es) {p q : HashRoot} (hp : p ∈ tally.ranking) (hq : q ∈ tally.ranking)
    (hne : p ≠ q) : [p, q] <+ tally.ranking ↔ (tally.score q).toInt < (tally.score p).toInt ∨
      ((tally.score p).toInt = (tally.score q).toInt ∧ [p, q] <+ tally.allPriorities) :=
  pair_sublist_sortByKey_iff h.nodup (mem_sortByKey.mp hp) (mem_sortByKey.mp hq) hne

/-- Which of two priorities of a topic result stands first. -/
lemma Valid.pair_sublist_resultPriorities_iff (h : Valid sha256 msgs) {minScore : Int64}
    {topic p q : HashRoot}
    (hp : p ∈ resultPriorities sha256
      (rankedResult sha256 minScore (proposalsFor sha256 msgs topic)))
    (hq : q ∈ resultPriorities sha256
      (rankedResult sha256 minScore (proposalsFor sha256 msgs topic))) (hne : p ≠ q) :
    [p, q] <+ resultPriorities sha256
        (rankedResult sha256 minScore (proposalsFor sha256 msgs topic)) ↔
      Outranks sha256 msgs topic p q := by
  have hcounts := h.counts topic
  rw [rankedResult, hcounts.resultPriorities_eq] at hp hq ⊢
  obtain ⟨hpmem, hpscore⟩ := List.mem_filter.mp hp
  obtain ⟨hqmem, hqscore⟩ := List.mem_filter.mp hq
  have hranking := hcounts.pair_sublist_ranking_iff hpmem hqmem hne
  rw [h.score_eq, h.score_eq, hcounts.allPriorities] at hranking
  rw [Outranks, seen, ← hranking]
  constructor
  · exact fun hsub => hsub.trans List.filter_sublist
  · intro hsub
    have hfilter := hsub.filter fun k =>
      ¬ (tallyOf sha256 (entries (proposalsFor sha256 msgs topic))).score k ≤ minScore
    rw [List.filter_eq_self.mpr] at hfilter
    · exact hfilter
    · intro k hk
      rcases List.mem_pair.mp hk with rfl | rfl
      · exact hpscore
      · exact hqscore

/-- The topic results of a calculation. -/
lemma mem_rankedResults_iff {o : IterOrder (Sigma fun _ : HashRoot => List PriorityTopicProposal)}
    {minRequired : Int64} {r : PriorityTopicResult} :
    r ∈ rankedResults sha256 o msgs minRequired ↔ ∃ topic, proposalsFor sha256 msgs topic ≠ [] ∧
      r = rankedResult sha256 (minScore minRequired) (proposalsFor sha256 msgs topic) := by
  simp only [rankedResults, List.mem_map, HashMap.mem_valuesIn, HashMap.lookup_groupBy_eq_some]
  constructor
  · rintro ⟨_, ⟨topic, rfl, hne⟩, rfl⟩
    exact ⟨topic, hne, rfl⟩
  · rintro ⟨topic, hne, rfl⟩
    exact ⟨_, ⟨topic, rfl, hne⟩, rfl⟩

lemma resultRoot_proposalsFor {minScore : Int64} {topic : HashRoot}
    (hne : proposalsFor sha256 msgs topic ≠ []) :
    resultRoot sha256 (rankedResult sha256 minScore (proposalsFor sha256 msgs topic)) = topic :=
  resultRoot_rankedResult hne fun t ht => by simpa using (List.mem_filter.mp ht).2

/-- A topic that somebody proposed a priority for has proposals. -/
lemma proposalsFor_ne_nil {topic prio : HashRoot} (h : 0 < support sha256 msgs topic prio) :
    proposalsFor sha256 msgs topic ≠ [] := by
  obtain ⟨i, hi⟩ := List.exists_mem_of_length_pos h
  obtain ⟨msg, hmsg, hposition⟩ := List.mem_filterMap.mp hi
  obtain ⟨t, ht, -⟩ := Option.bind_eq_some_iff.mp hposition
  have hmem : t ∈ proposalsFor sha256 msgs topic := by
    refine List.mem_filter.mpr ⟨List.mem_flatMap.mpr ⟨msg, mem_sortByKey.mpr hmsg, ?_⟩, ?_⟩
    · exact List.mem_of_find?_eq_some ht
    · simpa using List.find?_some ht
  exact List.ne_nil_of_mem hmem

/-! ## When the number of peers decides -/

variable (sha256 msgs)

/-- A topic result has exactly the priorities that enough peers proposed, those of more peers
first. -/
structure CountDecides (minRequired : ℤ) (r : PriorityTopicResult) : Prop where
  included : ∀ p, p ∈ resultPriorities sha256 r ↔
    minRequired ≤ support sha256 msgs (resultRoot sha256 r) p
  ranked : ∀ p ∈ resultPriorities sha256 r, ∀ q ∈ resultPriorities sha256 r,
    support sha256 msgs (resultRoot sha256 r) q < support sha256 msgs (resultRoot sha256 r) p →
      [p, q] <+ resultPriorities sha256 r

/-- The positions do not change what the numbers of peers say. -/
structure PositionsMinor (minRequired : ℤ) : Prop where
  included : ∀ topic p, minRequired ≤ support sha256 msgs topic p →
    (positions sha256 msgs topic p).sum + 1000 * (minRequired - 1) <
      1000 * support sha256 msgs topic p ∧ 1000 * (minRequired - 1) < 2 ^ 63 - 1
  ranked : ∀ topic p q, minRequired ≤ support sha256 msgs topic q →
    support sha256 msgs topic q < support sha256 msgs topic p → Outranks sha256 msgs topic p q

variable {sha256 msgs}

/-- Positions that sum up to less than 1000 are minor, as long as the scores do not saturate. -/
lemma PositionsMinor.of_sum_lt {minRequired : ℤ}
    (hsum : ∀ topic p, (positions sha256 msgs topic p).sum < 1000)
    (hlen : 1000 * msgs.length < 2 ^ 63) : PositionsMinor sha256 msgs minRequired where
  included topic p hp := by
    have := hsum topic p
    have hle : support sha256 msgs topic p ≤ msgs.length := List.length_filterMap_le _ _
    omega
  ranked topic p q _ hlt := by
    have hp := hsum topic p
    have hle : support sha256 msgs topic p ≤ msgs.length := List.length_filterMap_le _ _
    left
    unfold scoreOf
    omega

/-- In short lists no priority has a high position. -/
lemma sum_positions_le {bound : ℕ}
    (hshort : ∀ msg ∈ msgs, ∀ t ∈ msg.topics, t.priorities.length ≤ bound + 1)
    (topic p : HashRoot) : (positions sha256 msgs topic p).sum ≤ msgs.length * bound := by
  have hle : ∀ i ∈ positions sha256 msgs topic p, i ≤ bound := by
    intro i hi
    obtain ⟨msg, hmsg, hposition⟩ := List.mem_filterMap.mp hi
    obtain ⟨t, ht, hidx⟩ := Option.bind_eq_some_iff.mp hposition
    have hlt := (List.idxOf?_eq_some_iff.mp hidx).1
    rw [List.length_map] at hlt
    have := hshort msg hmsg t (List.mem_of_find?_eq_some ht)
    omega
  calc (positions sha256 msgs topic p).sum
      ≤ (positions sha256 msgs topic p).length * bound := by
        simpa using List.sum_le_card_nsmul _ bound hle
    _ ≤ msgs.length * bound := Nat.mul_le_mul_right _ (List.length_filterMap_le _ _)

/-- **When the number of peers decides**: for valid messages the calculation succeeds, and every
topic result goes by the numbers of peers if and only if the positions are minor. -/
theorem dominance_iff (o : IterOrder (Sigma fun _ : HashRoot => List PriorityTopicProposal))
    {minRequired : Int64} (hmin : 1 ≤ minRequired) (hvalid : validateMsgs sha256 msgs = .ok ()) :
    ∃ result, calculateResult sha256 o msgs minRequired = .ok result ∧
      ((∀ r ∈ result.topics, CountDecides sha256 msgs minRequired.toInt r) ↔
        PositionsMinor sha256 msgs minRequired.toInt) := by
  have hvalid := (validateMsgs_ok_iff sha256).mp hvalid
  have hmin : 1 ≤ minRequired.toInt := Int64.le_iff_toInt_le.mp hmin
  refine ⟨_, (calculateResult_ok_iff sha256).mpr ⟨hvalid, rfl⟩, ?_⟩
  simp only [mem_sortByKey, mem_rankedResults_iff]
  constructor
  · intro hall
    -- a topic with a supported priority has a result, which goes by the numbers of peers
    have hresult : ∀ topic p, minRequired.toInt ≤ support sha256 msgs topic p →
        CountDecides sha256 msgs minRequired.toInt
          (rankedResult sha256 (minScore minRequired) (proposalsFor sha256 msgs topic)) ∧
        resultRoot sha256 (rankedResult sha256 (minScore minRequired)
          (proposalsFor sha256 msgs topic)) = topic := by
      intro topic p hp
      have hne : proposalsFor sha256 msgs topic ≠ [] :=
        proposalsFor_ne_nil (show 0 < support sha256 msgs topic p by omega)
      exact ⟨hall _ ⟨topic, hne, rfl⟩, resultRoot_proposalsFor hne⟩
    refine ⟨fun topic p hp => ?_, fun topic p q hq hlt => ?_⟩
    · obtain ⟨hdecides, hroot⟩ := hresult topic p hp
      exact (hvalid.mem_resultPriorities_iff hmin).mp
        ((hdecides.included p).mpr (hroot.symm ▸ hp))
    · obtain ⟨hdecides, hroot⟩ := hresult topic q hq
      have hmemq := (hdecides.included q).mpr (hroot.symm ▸ hq)
      have hmemp := (hdecides.included p).mpr (hroot.symm ▸ hq.trans (by exact_mod_cast hlt.le))
      have hne : p ≠ q := fun heq => by simp [heq] at hlt
      refine (hvalid.pair_sublist_resultPriorities_iff hmemp hmemq hne).mp ?_
      exact hdecides.ranked p hmemp q hmemq (hroot.symm ▸ hlt)
  · rintro hminor _ ⟨topic, hne, rfl⟩
    have hincluded : ∀ p, p ∈ resultPriorities sha256
        (rankedResult sha256 (minScore minRequired) (proposalsFor sha256 msgs topic)) ↔
          minRequired.toInt ≤ support sha256 msgs topic p := by
      intro p
      rw [hvalid.mem_resultPriorities_iff hmin]
      exact ⟨fun h => by omega, hminor.included topic p⟩
    constructor
    · rw [resultRoot_proposalsFor hne]
      exact hincluded
    · rw [resultRoot_proposalsFor hne]
      intro p hp q hq hlt
      have hneq : p ≠ q := fun heq => by simp [heq] at hlt
      refine (hvalid.pair_sublist_resultPriorities_iff hp hq hneq).mpr ?_
      exact hminor.ranked topic p q ((hincluded q).mp hq) hlt

/-! ### Twenty peers -/

/-- A priority of one byte. -/
def prio (i : ℕ) : Any := ⟨"", [UInt8.ofNat i]⟩

/-- A proposal of the first `n` priorities. -/
def firstPriorities (n : ℕ) : PriorityTopicProposal := ⟨some ⟨"versions", []⟩, (range n).map prio⟩

def twentyPeers : List String :=
  ["a", "b", "c", "d", "e", "f", "g", "h", "i", "j", "k", "l", "m", "n", "o", "p", "q", "r", "s",
    "t"]

/-- Twenty peers with the same proposal. -/
def twentyMsgs (n : ℕ) : List PriorityMsg :=
  twentyPeers.map fun peerId => ⟨some ⟨1, 12⟩, [firstPriorities n], peerId, []⟩

lemma valid_twentyMsgs {n : ℕ} (h : TopicWellFormed chunk (firstPriorities n)) :
    Valid chunk (twentyMsgs n) where
  ne_nil := List.cons_ne_nil _ _
  sameDuty := by simp [twentyMsgs]
  peers := by
    rw [twentyMsgs, List.map_map]
    exact (List.map_id twentyPeers).symm ▸ (by decide : twentyPeers.Nodup)
  wellFormed := by
    intro msg hmsg
    obtain ⟨peerId, -, rfl⟩ := List.mem_map.mp hmsg
    exact ⟨List.nodup_singleton _, List.forall_mem_singleton.mpr h⟩

/-- Two priorities that all twenty peers propose are both in the result. -/
theorem dominance_two_priorities :
    (1 : Int64) ≤ 20 ∧ validateMsgs chunk (twentyMsgs 2) = .ok () ∧
      PositionsMinor chunk (twentyMsgs 2) 20 ∧
      ∃ result, calculateResult chunk (.stored _) (twentyMsgs 2) 20 = .ok result ∧
        ∀ r ∈ result.topics, CountDecides chunk (twentyMsgs 2) 20 r := by
  have hvalid : validateMsgs chunk (twentyMsgs 2) = .ok () :=
    (validateMsgs_ok_iff chunk).mpr (valid_twentyMsgs (by unfold TopicWellFormed; decide +kernel))
  have hminor : PositionsMinor chunk (twentyMsgs 2) 20 := by
    refine .of_sum_lt (fun topic p => ?_) (by decide)
    have hshort : ∀ msg ∈ twentyMsgs 2, ∀ t ∈ msg.topics, t.priorities.length ≤ 1 + 1 := by decide
    exact lt_of_le_of_lt (sum_positions_le hshort topic p) (by decide)
  have hmin : (1 : Int64) ≤ 20 := by decide
  obtain ⟨result, hresult, hiff⟩ := dominance_iff (.stored _) hmin hvalid
  exact ⟨hmin, hvalid, hminor, result, hresult, hiff.mpr hminor⟩

/-- A priority that all twenty peers propose in position 50 is not in the result, although twenty
peers are enough. -/
theorem supported_priority_dropped :
    validateMsgs chunk (twentyMsgs 51) = .ok () ∧
      ∃ result, calculateResult chunk (.stored _) (twentyMsgs 51) 20 = .ok result ∧
        ∃ r ∈ result.topics,
          support chunk (twentyMsgs 51) (resultRoot chunk r) (anyRoot chunk (prio 50)) = 20 ∧
          anyRoot chunk (prio 50) ∉ resultPriorities chunk r := by
  have hvalid : Valid chunk (twentyMsgs 51) :=
    valid_twentyMsgs (by unfold TopicWellFormed; decide +kernel)
  have hpositions : positions chunk (twentyMsgs 51) (topicRoot chunk (firstPriorities 51))
      (anyRoot chunk (prio 50)) = replicate 20 50 := by
    -- every message has the same topics
    have hposition : ∀ peerId, positionIn chunk (topicRoot chunk (firstPriorities 51))
        (anyRoot chunk (prio 50)) ⟨some ⟨1, 12⟩, [firstPriorities 51], peerId, []⟩ = some 50 := by
      intro peerId
      dsimp only [positionIn]
      decide +kernel
    rw [positions, twentyMsgs, List.filterMap_map]
    simp only [Function.comp_def, hposition]
    rfl
  have hsupport : support chunk (twentyMsgs 51) (topicRoot chunk (firstPriorities 51))
      (anyRoot chunk (prio 50)) = 20 := by
    rw [support, hpositions]
    rfl
  have hne := proposalsFor_ne_nil (hsupport ▸ (by decide : 0 < 20))
  refine ⟨(validateMsgs_ok_iff chunk).mpr hvalid, _,
    (calculateResult_ok_iff chunk).mpr ⟨hvalid, rfl⟩, _,
    mem_sortByKey.mpr (mem_rankedResults_iff.mpr ⟨_, hne, rfl⟩), ?_, ?_⟩
  · rw [resultRoot_proposalsFor hne, hsupport]
  · rw [hvalid.mem_resultPriorities_iff (by decide), hsupport, hpositions]
    decide

end Pluto.Priority
