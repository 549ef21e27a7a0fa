import Pluto.Dkg.Frost
import Pluto.Frost.Consistency

/-!
# Public shares and the key of the group

After a ceremony a node has a public share for each node and validator.  It belongs to the key of the
group if it is the value, at the index of the node, of the sum of the polynomials that all nodes have
committed to in round 1 (`dealtAt`).

The node takes the public shares out of the round-2 broadcasts, which are not compared with the
commitments of round 1: `other_public_share` is a ceremony of two nodes in which the second one
broadcasts some other point.  The public shares are right exactly if every broadcast that is accepted
has the values at the index of its sender, and then any `threshold` of them interpolate to the key
(`public_shares_dealt_iff`).  An honest node does so, and in particular the node itself.
-/

namespace Pluto.Dkg

open Except (bind_ok_iff mapError_ok_iff pure_ok_iff map_eq_of_mapM_ok mapM_ok_mem)
open Crypto SecretSharing
open scoped Numerals
open Frost (Round1Bcast Round2Bcast ShamirShare Randomness
  Participant Decodes fromCompressed toScalar)

variable {F G₁ G₂ : Type} [Field F] [AddCommGroup G₁] [Module F G₁] [DecidableEq G₁]
  [AddCommGroup G₂] [Module F G₂] (curve : Curve F G₁ G₂)

/-- The polynomial a broadcast commits to, in the exponent. -/
def committed (cast : Round1Bcast) : List G₁ := cast.commitments.filterMap (fromCompressed curve)

/-- The sum of the polynomials that all nodes have committed to for a validator, at `x`. -/
def dealtAt (castR1 : HashMap MsgKey Round1Bcast) (numNodes vIdx : UInt32) (x : F) : G₁ :=
  (((nodeIds numNodes).filterMap fun id => castR1.lookup ⟨vIdx, id, 0⟩).map fun cast =>
    horner (committed curve cast) x).sum

variable {curve}

lemma committed_eq {cast : Round1Bcast} {commitment : List G₁} (h : Decodes curve cast commitment) :
    committed curve cast = commitment := by
  rw [committed]
  rw [Decodes] at h
  generalize cast.commitments = bytes at h ⊢
  induction h with
  | nil => simp
  | cons hp _ ih => rw [List.filterMap_cons, hp, ih]

variable [DecidableEq F] {hashToScalar : Bytes → F}

/-! ## One key generation -/

/-- The polynomial behind the key of a participant: the sum of all that were committed to. -/
lemma exists_polynomial {threshold maxSigners : UInt16} {ctx : UInt8}
    {bcasts : SortedMap UInt32 Round1Bcast} {ids : List UInt32}
    (p : Participant curve hashToScalar threshold maxSigners ctx bcasts) (hnodup : ids.Nodup)
    (hids : ∀ id, id ∈ ids ↔ ∃ bcast, bcasts.lookup id = some bcast)
    (hdecodes : ∃ commitment, Decodes curve p.bcast commitment) :
    ∃ group : List G₁, group.length = threshold.toNat ∧ p.key.verifyingKey = group.headD 0 ∧
      p.round2Bcast.vkShare = curve.g1ToBytes (horner group (toScalar F p.id)) ∧
      ∀ x : F, horner group x =
        ((ids.filterMap bcasts.lookup).map fun cast => horner (committed curve cast) x).sum := by
  obtain ⟨commitments, h⟩ := p.exists_outcome
  obtain ⟨hsecret, hid, hthreshold, hbcast⟩ := p.secret_ok
  have hown := SortedMap.lookup_eq_some_iff.mp h.lookup_own
  obtain ⟨group, hlength, hsum, hkey, -⟩ := Frost.fromDkgCommitments_ok
    (List.ne_nil_of_mem (List.mem_map_of_mem hown)) h.length h.package
  obtain ⟨hvkShare, hverifying⟩ := Frost.round2_cast p.round2_eq
  -- what is filed under an identifier is what its broadcast decodes to
  have hfiled : ∀ id, commitments.lookup id = (bcasts.lookup id).map (committed curve) := by
    intro id
    by_cases heq : id = p.id
    · obtain ⟨commitment, hcommitment⟩ := hdecodes
      rw [heq, p.lookup_bcasts, Option.map_some, committed_eq hcommitment,
        hcommitment.eq_of_map hbcast, ← hid]
      exact h.lookup_own
    · have hne : id ≠ p.secret.id := hid ▸ heq
      ext commitment
      rw [h.lookup_iff id commitment hne, Option.map_eq_some_iff]
      simp only [p.lookup_received heq]
      constructor
      · rintro ⟨bcast, hlook, hcommitment⟩
        exact ⟨bcast, hlook, committed_eq hcommitment⟩
      · rintro ⟨bcast, hlook, rfl⟩
        obtain ⟨commitment, hcommitment⟩ :=
          h.decodes id bcast hne ((p.lookup_received heq).mpr hlook)
        exact ⟨bcast, hlook, committed_eq hcommitment ▸ hcommitment⟩
  have hperm := SortedMap.values_perm (m := commitments) hnodup fun id => by
    rw [hids, hfiled]
    simp
  refine ⟨group, hthreshold ▸ hlength, hverifying.trans hkey, ?_, fun x => ?_⟩
  · rw [hvkShare, h.signingShare, hsum, hid]
  · rw [hsum, (hperm.map _).sum_eq, funext hfiled, ← List.map_filterMap, List.map_map]
    rfl

/-! ## All validators -/

omit [DecidableEq G₁] [DecidableEq F] [Module F G₁] [AddCommGroup G₁] [Field F] in
lemma DkgParticipant.new_ok {id threshold : UInt32} {ctx : UInt8} {otherIds : List UInt32}
    {p : DkgParticipant F G₁} (h : DkgParticipant.new id threshold ctx otherIds = .ok p) :
    p.id = id ∧ p.ctx = ctx ∧ p.threshold.toNat = threshold.toNat := by
  rw [DkgParticipant.new] at h
  split_ifs at h with hthreshold
  simp only [bind_ok_iff, mapError_ok_iff, pure_ok_iff] at h
  obtain ⟨_, -, rfl⟩ := h
  exact ⟨rfl, rfl, UInt16.toNat_ofNat_of_lt' (not_le.mp hthreshold)⟩

omit [DecidableEq G₁] in
lemma DkgParticipant.round1_ok {p p' : DkgParticipant F G₁} {rng : Randomness F}
    {cast : Round1Bcast} {shares : SortedMap UInt32 ShamirShare}
    (h : p.round1 curve hashToScalar rng = .ok (p', cast, shares)) :
    ∃ sent secret, Frost.round1 curve hashToScalar p.id p.threshold p.maxSigners p.ctx rng =
        .ok (cast, sent, secret) ∧ p'.round1Secret = some secret ∧ p'.id = p.id := by
  rw [DkgParticipant.round1] at h
  split_ifs at h
  simp only [bind_ok_iff, mapError_ok_iff, pure_ok_iff, Prod.mk.injEq] at h
  obtain ⟨⟨_, sent, secret⟩, hround, _, -, rfl, rfl, -⟩ := h
  exact ⟨sent, secret, hround, rfl, rfl⟩

lemma DkgParticipant.round2_ok {p p' : DkgParticipant F G₁} {bcasts : SortedMap UInt32 Round1Bcast}
    {shares : SortedMap UInt32 ShamirShare} {r2 : Round2Bcast}
    (h : p.round2 curve hashToScalar bcasts shares = .ok (p', r2)) :
    ∃ secret key pkg, p.round1Secret = some secret ∧
      Frost.round2 curve hashToScalar secret (bcasts.erase p.id) (shares.erase p.id) =
        .ok (r2, key, pkg) ∧
      p'.keyPackage = some key ∧ p'.id = p.id := by
  rw [DkgParticipant.round2] at h
  split_ifs at h
  split at h
  · cases h
  · rename_i secret hsecret
    simp only [bind_ok_iff, mapError_ok_iff, pure_ok_iff, Prod.mk.injEq] at h
    obtain ⟨⟨_, key, pkg⟩, hround, rfl, rfl⟩ := h
    exact ⟨secret, key, pkg, hsecret, hround, rfl, rfl⟩

omit [DecidableEq G₁] [DecidableEq F] [Module F G₁] [AddCommGroup G₁] [Field F] in
/-- The validators start out the same. -/
lemma newFrostParticipants_ok {numValidators numNodes threshold shareIdx : UInt32} {ctx : UInt8}
    {validators : List (UInt32 × DkgParticipant F G₁)}
    (h : newFrostParticipants numValidators numNodes threshold shareIdx ctx = .ok validators) :
    validators.map Prod.fst = (List.range numValidators.toNat).map UInt32.ofNat ∧
      ∀ e ∈ validators,
        DkgParticipant.new shareIdx threshold ctx (otherIds numNodes shareIdx) = .ok e.2 := by
  rw [newFrostParticipants] at h
  refine ⟨map_eq_of_mapM_ok h _ _ fun vIdx _ e he => ?_, fun e he => ?_⟩
  · simp only [bind_ok_iff, pure_ok_iff] at he
    obtain ⟨_, -, rfl⟩ := he
    rfl
  · obtain ⟨vIdx, -, he⟩ := (mapM_ok_mem h).1 e he
    simp only [bind_ok_iff, pure_ok_iff] at he
    obtain ⟨p, hp, rfl⟩ := he
    exact hp

/-- What the node has to say in a round is found under the validator it is for. -/
lemma lookup_casts {P D : Type} {results : List ((UInt32 × P) × MsgKey × D)} {id : UInt32}
    (hnodup : (results.map fun r => r.1.1).Nodup) (hkey : ∀ r ∈ results, r.2.1 = ⟨r.1.1, id, 0⟩)
    {r : (UInt32 × P) × MsgKey × D} (hr : r ∈ results) :
    (HashMap.insertAll ∅ (results.map Prod.snd)).lookup ⟨r.1.1, id, 0⟩ = some r.2.2 := by
  have hmem : (⟨r.1.1, id, 0⟩ : MsgKey) ∈ (results.map Prod.snd).map Prod.fst := by
    rw [← hkey r hr]
    exact List.mem_map_of_mem (List.mem_map_of_mem hr)
  obtain ⟨d, hlook⟩ := HashMap.exists_lookup_insertAll (m := ∅) (.inl hmem)
  obtain ⟨r', hr', heq⟩ := List.mem_map.mp
    ((HashMap.lookup_insertAll_eq_some hlook).resolve_right (by simp))
  have hvIdx : r'.1.1 = r.1.1 := by
    have hkey' := hkey r' hr'
    rw [heq] at hkey'
    exact (congrArg MsgKey.valIdx hkey').symm
  obtain rfl := List.inj_on_of_nodup_map hnodup hr' hr hvIdx
  rw [hlook, heq]

lemma toNat_lt_of_mem_range {n v : UInt32} (h : v ∈ (List.range n.toNat).map UInt32.ofNat) :
    v.toNat < n.toNat := by
  obtain ⟨i, hi, rfl⟩ := List.mem_map.mp h
  rw [List.mem_range] at hi
  rwa [UInt32.toNat_ofNat_of_lt' (hi.trans n.toNat_lt)]

lemma nodup_ofNat_range (n : UInt32) : ((List.range n.toNat).map UInt32.ofNat).Nodup := by
  refine List.nodup_range.map_on fun i hi j hj heq => ?_
  rw [List.mem_range] at hi hj
  have hnat := congrArg UInt32.toNat heq
  rwa [UInt32.toNat_ofNat_of_lt' (hi.trans n.toNat_lt),
    UInt32.toNat_ofNat_of_lt' (hj.trans n.toNat_lt)] at hnat

lemma ownCasts {P D : Type} {results : List ((UInt32 × P) × MsgKey × D)} {numValidators : UInt32}
    {id : UInt32}
    (hkeys : results.map (fun r => r.1.1) = (List.range numValidators.toNat).map UInt32.ofNat)
    (hkey : ∀ r ∈ results, r.2.1 = ⟨r.1.1, id, 0⟩) :
    OwnCasts numValidators.toNat id (HashMap.insertAll ∅ (results.map Prod.snd)) := by
  have hlt : ∀ r ∈ results, r.1.1.toNat < numValidators.toNat := fun r hr =>
    toNat_lt_of_mem_range (hkeys ▸ List.mem_map_of_mem hr)
  constructor
  · intro key d hlook
    obtain ⟨r, hr, heq⟩ := List.mem_map.mp
      ((HashMap.lookup_insertAll_eq_some hlook).resolve_right (by simp))
    have hk := hkey r hr
    rw [heq] at hk
    exact ⟨r.1.1, hlt r hr, hk⟩
  · intro v hv
    have hmem : v ∈ results.map fun r => r.1.1 := by
      rw [hkeys]
      exact List.mem_map.mpr ⟨v.toNat, List.mem_range.mpr hv, UInt32.ofNat_toNat⟩
    obtain ⟨r, hr, rfl⟩ := List.mem_map.mp hmem
    refine HashMap.exists_lookup_insertAll (.inl ?_)
    rw [← hkey r hr]
    exact List.mem_map_of_mem (List.mem_map_of_mem hr)

omit [DecidableEq G₁] in
lemma round1Turn_ok {rng : UInt32 → Randomness F} {e : UInt32 × DkgParticipant F G₁}
    {r : (UInt32 × DkgParticipant F G₁) × (MsgKey × Round1Bcast) × List (MsgKey × ShamirShare)}
    (h : round1Turn curve hashToScalar rng e = .ok r) :
    ∃ shares, e.2.round1 curve hashToScalar (rng e.1) = .ok (r.1.2, r.2.1.2, shares) ∧
      r.1.1 = e.1 ∧ r.2.1.1 = ⟨e.1, e.2.id, 0⟩ := by
  simp only [round1Turn, bind_ok_iff, pure_ok_iff] at h
  obtain ⟨⟨p, cast, shares⟩, hround, rfl⟩ := h
  obtain ⟨_, _, -, -, hid⟩ := DkgParticipant.round1_ok hround
  exact ⟨shares, hround, rfl, by rw [hid]⟩

variable {castR1 : HashMap MsgKey Round1Bcast} {p2pR1 : HashMap MsgKey ShamirShare}

lemma round2Turn_ok {orders : Orders} {e : UInt32 × DkgParticipant F G₁}
    {r : (UInt32 × DkgParticipant F G₁) × MsgKey × Round2Bcast}
    (h : round2Turn curve hashToScalar orders castR1 p2pR1 e = .ok r) :
    e.2.round2 curve hashToScalar (inputsOf orders.castR1 castR1 e.1)
        (inputsOf orders.p2pR1 p2pR1 e.1) = .ok (r.1.2, r.2.2) ∧
      r.1.1 = e.1 ∧ r.2.1 = ⟨e.1, e.2.id, 0⟩ := by
  simp only [round2Turn, getRound2Inputs, bind_ok_iff, pure_ok_iff] at h
  obtain ⟨⟨p, cast⟩, hround, rfl⟩ := h
  obtain ⟨_, _, _, -, -, -, hid⟩ := DkgParticipant.round2_ok hround
  exact ⟨hround, rfl, by rw [hid]⟩

omit [DecidableEq G₁] in
lemma round1_ok {rng : UInt32 → Randomness F} {id : UInt32}
    {validators validators' : List (UInt32 × DkgParticipant F G₁)}
    (hid : ∀ e ∈ validators, e.2.id = id)
    (h : round1 curve hashToScalar rng validators = .ok (validators', castR1, p2pR1)) :
    ∃ results : List ((UInt32 × DkgParticipant F G₁) × MsgKey × Round1Bcast),
      validators' = results.map Prod.fst ∧
      castR1 = HashMap.insertAll ∅ (results.map Prod.snd) ∧
      results.map (fun r => r.1.1) = validators.map Prod.fst ∧
      ∀ r ∈ results, r.2.1 = ⟨r.1.1, id, 0⟩ ∧ ∃ p shares, (r.1.1, p) ∈ validators ∧
        p.round1 curve hashToScalar (rng r.1.1) = .ok (r.1.2, r.2.2, shares) := by
  simp only [round1, bind_ok_iff, pure_ok_iff, Prod.mk.injEq] at h
  obtain ⟨results, hresults, rfl, rfl, -⟩ := h
  refine ⟨results.map fun r => (r.1, r.2.1), by simp, by simp [Function.comp_def], ?_,
    fun r' hr' => ?_⟩
  · rw [List.map_map]
    refine map_eq_of_mapM_ok hresults _ _ fun e _ r hr => ?_
    obtain ⟨_, -, hvIdx, -⟩ := round1Turn_ok hr
    exact hvIdx
  · obtain ⟨r, hr, rfl⟩ := List.mem_map.mp hr'
    obtain ⟨e, he, hok⟩ := (mapM_ok_mem hresults).1 r hr
    obtain ⟨shares, hround, hvIdx, hkey⟩ := round1Turn_ok hok
    dsimp only
    rw [hkey, hvIdx, hid e he]
    exact ⟨rfl, e.2, shares, he, hround⟩

lemma round2_ok {orders : Orders} {id : UInt32}
    {validators validators' : List (UInt32 × DkgParticipant F G₁)}
    {castR2 : HashMap MsgKey Round2Bcast} (hid : ∀ e ∈ validators, e.2.id = id)
    (h : round2 curve hashToScalar orders validators castR1 p2pR1 = .ok (validators', castR2)) :
    ∃ results : List ((UInt32 × DkgParticipant F G₁) × MsgKey × Round2Bcast),
      validators' = results.map Prod.fst ∧
      castR2 = HashMap.insertAll ∅ (results.map Prod.snd) ∧
      results.map (fun r => r.1.1) = validators.map Prod.fst ∧
      ∀ r ∈ results, r.2.1 = ⟨r.1.1, id, 0⟩ ∧ ∃ p, (r.1.1, p) ∈ validators ∧
        p.round2 curve hashToScalar (inputsOf orders.castR1 castR1 r.1.1)
          (inputsOf orders.p2pR1 p2pR1 r.1.1) = .ok (r.1.2, r.2.2) := by
  simp only [round2, bind_ok_iff, pure_ok_iff, Prod.mk.injEq] at h
  obtain ⟨results, hresults, rfl, rfl⟩ := h
  refine ⟨results, rfl, rfl, ?_, fun r hr => ?_⟩
  · exact map_eq_of_mapM_ok hresults _ _ fun e _ r hr => (round2Turn_ok hr).2.1
  · obtain ⟨e, he, hok⟩ := (mapM_ok_mem hresults).1 r hr
    obtain ⟨hround, hvIdx, hkey⟩ := round2Turn_ok hok
    rw [hkey, hvIdx, hid e he]
    exact ⟨rfl, e.2, he, hround⟩

/-- Of broadcasts, which have no target, the inputs of a validator are its own. -/
lemma lookup_inputsOf {D : Type} (order : IterOrder (Sigma fun _ : MsgKey => D))
    {m : HashMap MsgKey D} (h : ∀ key d, m.lookup key = some d → key.targetId = 0)
    (vIdx id : UInt32) : (inputsOf order m vIdx).lookup id = m.lookup ⟨vIdx, id, 0⟩ := by
  have hfound : ∀ d, (inputsOf order m vIdx).lookup id = some d →
      m.lookup ⟨vIdx, id, 0⟩ = some d := by
    intro d hlook
    have hmem := (SortedMap.lookup_insertAll_eq_some hlook).resolve_right (by simp)
    obtain ⟨⟨key, d'⟩, hentry, heq⟩ := List.mem_map.mp hmem
    obtain ⟨hentry, hvIdx⟩ := List.mem_filter.mp hentry
    have hkey := HashMap.mem_order_iff.mp hentry
    obtain ⟨rfl, rfl⟩ := Prod.mk.inj heq
    rw [← h key d' hkey, ← of_decide_eq_true hvIdx]
    exact hkey
  cases hlook : m.lookup ⟨vIdx, id, 0⟩ with
  | none =>
    refine Option.eq_none_iff_forall_ne_some.mpr fun d hd => ?_
    rw [hfound d hd] at hlook
    cases hlook
  | some d =>
    have hmem : id ∈ (((order.order m.entries).filter (·.1.valIdx = vIdx)).map fun entry =>
        (entry.1.sourceId, entry.2)).map Prod.fst := by
      refine List.mem_map.mpr ⟨(id, d), List.mem_map.mpr ⟨⟨⟨vIdx, id, 0⟩, d⟩, ?_, rfl⟩, rfl⟩
      exact List.mem_filter.mpr ⟨HashMap.mem_order_iff.mpr hlook, decide_eq_true rfl⟩
    obtain ⟨d', hd'⟩ := SortedMap.exists_lookup_insertAll (m := .empty) (.inl hmem)
    have hfound' := hfound d' hd'
    rw [hlook] at hfound'
    exact hd'.trans hfound'.symm

/-! ## Shares -/

omit [DecidableEq F] in
lemma pointToPubkey_ok {point point' : Bytes} (h : pointToPubkey curve point = .ok point') :
    point' = point := by
  simp only [pointToPubkey, bind_ok_iff, pure_ok_iff] at h
  obtain ⟨_, -, rfl⟩ := h
  rfl

/-- The public shares of a validator. -/
def pubSharesOf (pubShares : SortedMap UInt32 (HashMap UInt64 Bytes)) (vIdx : UInt32) :
    HashMap UInt64 Bytes :=
  (pubShares.lookup vIdx).getD ∅

omit [DecidableEq F] in
lemma addPubShare_ok {pubShares pubShares' : SortedMap UInt32 (HashMap UInt64 Bytes)}
    {entry : Sigma fun _ : MsgKey => Round2Bcast}
    (h : addPubShare curve pubShares entry = .ok pubShares') (vIdx : UInt32) :
    pubSharesOf pubShares' vIdx = if vIdx = entry.1.valIdx then
      (pubSharesOf pubShares vIdx).insert entry.1.sourceId.toUInt64 entry.2.vkShare
    else pubSharesOf pubShares vIdx := by
  simp only [addPubShare, bind_ok_iff, pure_ok_iff] at h
  obtain ⟨_, hpoint, rfl⟩ := h
  obtain rfl := pointToPubkey_ok hpoint
  split_ifs with hv
  · subst hv
    rw [pubSharesOf, SortedMap.lookup_insert_self, Option.getD_some, pubSharesOf]
  · rw [pubSharesOf, SortedMap.lookup_insert_ne _ _ hv, pubSharesOf]

omit [DecidableEq F] in
/-- The public shares of a validator are those of the broadcasts for it, by their source. -/
lemma pubShares_ok {entries : List (Sigma fun _ : MsgKey => Round2Bcast)}
    {pubShares : SortedMap UInt32 (HashMap UInt64 Bytes)}
    (h : entries.foldlM (addPubShare curve) .empty = .ok pubShares) (vIdx : UInt32) :
    (∀ j pk, (pubSharesOf pubShares vIdx).lookup j = some pk → ∃ entry ∈ entries,
      entry.1.valIdx = vIdx ∧ entry.1.sourceId.toUInt64 = j ∧ entry.2.vkShare = pk) ∧
    ∀ entry ∈ entries, entry.1.valIdx = vIdx →
      ∃ pk, (pubSharesOf pubShares vIdx).lookup entry.1.sourceId.toUInt64 = some pk := by
  have hend := Except.foldlM_invariant (I := fun rest acc =>
    rest ⊆ entries ∧
    (∀ j pk, (pubSharesOf acc vIdx).lookup j = some pk → ∃ entry ∈ entries,
      entry.1.valIdx = vIdx ∧ entry.1.sourceId.toUInt64 = j ∧ entry.2.vkShare = pk) ∧
    ∀ entry ∈ entries, entry ∈ rest ∨ (entry.1.valIdx = vIdx →
      ∃ pk, (pubSharesOf acc vIdx).lookup entry.1.sourceId.toUInt64 = some pk)) ?_ ?_ h
  · refine ⟨hend.2.1, fun entry hentry => ?_⟩
    exact (hend.2.2 entry hentry).resolve_left List.not_mem_nil
  · rintro entry rest acc acc' ⟨hsub, hfrom, hto⟩ hstep
    refine ⟨fun e he => hsub (List.mem_cons_of_mem _ he), ?_, ?_⟩
    · intro j pk hlook
      rw [addPubShare_ok hstep] at hlook
      split_ifs at hlook with hv
      · rcases HashMap.lookup_insert_eq_some hlook with ⟨rfl, rfl⟩ | hold
        · exact ⟨entry, hsub List.mem_cons_self, hv.symm, rfl, rfl⟩
        · exact hfrom j pk hold
      · exact hfrom j pk hlook
    · intro e he
      rw [addPubShare_ok hstep]
      rcases hto e he with hmem | hdone
      · rcases List.mem_cons.mp hmem with rfl | hrest
        · refine .inr fun hv => ?_
          rw [if_pos hv.symm]
          exact ⟨_, AList.lookup_insert _⟩
        · exact .inl hrest
      · refine .inr fun hv => ?_
        obtain ⟨pk, hpk⟩ := hdone hv
        split_ifs
        · by_cases hsource : e.1.sourceId.toUInt64 = entry.1.sourceId.toUInt64
          · rw [hsource]
            exact ⟨_, AList.lookup_insert _⟩
          · exact ⟨pk, (AList.lookup_insert_ne hsource).trans hpk⟩
        · exact ⟨pk, hpk⟩
  · refine ⟨fun _ => id, fun j pk hlook => ?_, fun e => .inl⟩
    simp [pubSharesOf] at hlook

/-! ## The ceremony -/

section Ceremony

variable {PeerId : Type} [DecidableEq PeerId]

/-- `run_frost_parallel` as `run_ceremony` calls it, up to the results of round 1. -/
def FrostP2P.afterRound1 (tp : FrostP2P PeerId) (curve : Curve F G₁ G₂) (hashToScalar : Bytes → F)
    (ctx : UInt8) (rng : UInt32 → Randomness F) :
    Except FrostError (List (UInt32 × DkgParticipant F G₁) × HashMap MsgKey Round1Bcast ×
      HashMap MsgKey ShamirShare) :=
  Dkg.afterRound1 curve hashToScalar (tp.transport curve) tp.numValidators tp.peers.numNodes
    tp.threshold tp.peers.localShareIdx ctx rng

def FrostP2P.runFrostParallel (tp : FrostP2P PeerId) (curve : Curve F G₁ G₂)
    (hashToScalar : Bytes → F) (ctx : UInt8) (rng : UInt32 → Randomness F) (orders : Orders) :
    Except FrostError (List Share) :=
  Dkg.runFrostParallel curve hashToScalar (tp.transport curve) tp.numValidators tp.peers.numNodes
    tp.threshold tp.peers.localShareIdx ctx rng orders

variable {tp : FrostP2P PeerId} {ctx : UInt8} {rng : UInt32 → Randomness F} {orders : Orders}
  {validators : List (UInt32 × DkgParticipant F G₁)} {castR1 : HashMap MsgKey Round1Bcast}
  {p2pR1 : HashMap MsgKey ShamirShare}

/-- What a node has after round 1: its participants, and the casts of everyone. -/
structure Round1Done (tp : FrostP2P PeerId) (curve : Curve F G₁ G₂) (hashToScalar : Bytes → F)
    (ctx : UInt8) (rng : UInt32 → Randomness F) (validators : List (UInt32 × DkgParticipant F G₁))
    (castR1 : HashMap MsgKey Round1Bcast) : Prop where
  vIdxs : validators.map Prod.fst = (List.range tp.numValidators.toNat).map UInt32.ofNat
  keyed : ∀ key cast, castR1.lookup key = some cast →
    key.valIdx.toNat < tp.numValidators.toNat ∧ key.sourceId ∈ nodeIds tp.peers.numNodes ∧
      key.targetId = 0
  complete : ∀ v id : UInt32, v.toNat < tp.numValidators.toNat → id ∈ nodeIds tp.peers.numNodes →
    ∃ cast, castR1.lookup ⟨v, id, 0⟩ = some cast
  round1 : ∀ e ∈ validators, e.2.id = tp.peers.localShareIdx ∧
    ∃ threshold maxSigners cast sent secret, threshold.toNat = tp.threshold.toNat ∧
      Frost.round1 curve hashToScalar tp.peers.localShareIdx threshold maxSigners ctx (rng e.1) =
        .ok (cast, sent, secret) ∧
      e.2.round1Secret = some secret ∧
      castR1.lookup ⟨e.1, tp.peers.localShareIdx, 0⟩ = some cast ∧
      ∀ bytes ∈ cast.commitments, ∃ p, fromCompressed curve bytes = some p

lemma round1Done (h : tp.afterRound1 curve hashToScalar ctx rng = .ok (validators, castR1, p2pR1)) :
    Round1Done tp curve hashToScalar ctx rng validators castR1 := by
  simp only [FrostP2P.afterRound1, Dkg.afterRound1, bind_ok_iff, pure_ok_iff,
    Prod.mk.injEq] at h
  obtain ⟨started, hnew, ⟨validators, ownR1, ownP2p⟩, hround1, ⟨castR1, p2pR1⟩, htransport, rfl,
    rfl, rfl⟩ := h
  obtain ⟨hvIdxs, hstarted⟩ := newFrostParticipants_ok hnew
  have hid : ∀ e ∈ started, e.2.id = tp.peers.localShareIdx :=
    fun e he => (DkgParticipant.new_ok (hstarted e he)).1
  obtain ⟨results, rfl, rfl, hkeys, hresults⟩ := round1_ok hid hround1
  have hkey := fun r hr => (hresults r hr).1
  have hresult := FrostP2P.round1_ok (ownCasts (hkeys.trans hvIdxs) hkey) htransport
  refine ⟨?_, hresult.keyed, hresult.complete, fun e he => ?_⟩
  · rw [List.map_map, ← hvIdxs, ← hkeys]
    rfl
  · obtain ⟨r, hr, rfl⟩ := List.mem_map.mp he
    obtain ⟨-, p, shares, hp, hround⟩ := hresults r hr
    obtain ⟨sent, secret, hfrost, hsecret, hpid⟩ := DkgParticipant.round1_ok hround
    obtain ⟨hnewId, hctx, hthreshold⟩ := DkgParticipant.new_ok (hstarted _ hp)
    rw [hnewId, hctx] at hfrost
    -- the own cast that comes back is the one that was sent
    have hvIdx : r.1.1.toNat < tp.numValidators.toNat :=
      toNat_lt_of_mem_range (hkeys.trans hvIdxs ▸ List.mem_map_of_mem hr)
    have hlocal := mem_nodeIds.mpr (tp.peers.lookup_range _ _ tp.peers.lookup_local)
    obtain ⟨cast, hcast⟩ := hresult.complete r.1.1 _ hvIdx hlocal
    obtain ⟨hown, hpoints⟩ := FrostP2P.round1_own hresult hcast rfl
    have hsent := lookup_casts (hkeys.trans hvIdxs ▸ nodup_ofNat_range _) hkey hr
    obtain rfl := Option.some.inj (hown.symm.trans hsent)
    exact ⟨hpid.trans hnewId, p.threshold, p.maxSigners, _, sent, secret, hthreshold, hfrost,
      hsecret, hcast, hpoints⟩

omit [DecidableEq F] in
lemma exists_decodes {cast : Round1Bcast}
    (h : ∀ bytes ∈ cast.commitments, ∃ p, fromCompressed curve bytes = some p) :
    ∃ commitment, Decodes curve cast commitment := by
  unfold Decodes
  generalize cast.commitments = commitments at h ⊢
  induction commitments with
  | nil => exact ⟨[], List.Forall₂.nil⟩
  | cons bytes commitments ih =>
    rw [List.forall_mem_cons] at h
    obtain ⟨p, hp⟩ := h.1
    obtain ⟨commitment, hcommitment⟩ := ih h.2
    exact ⟨p :: commitment, List.Forall₂.cons hp hcommitment⟩

/-- After round 2 the node is a participant of the key generation of each validator, and it has its
broadcast to say. -/
lemma exists_participant {validators' : List (UInt32 × DkgParticipant F G₁)}
    {castR2 : HashMap MsgKey Round2Bcast}
    (hdone : Round1Done tp curve hashToScalar ctx rng validators castR1)
    (h : round2 curve hashToScalar orders validators castR1 p2pR1 = .ok (validators', castR2)) :
    validators'.map Prod.fst = (List.range tp.numValidators.toNat).map UInt32.ofNat ∧
    OwnCasts tp.numValidators.toNat tp.peers.localShareIdx castR2 ∧
    ∀ e ∈ validators', ∃ threshold maxSigners,
      ∃ p : Participant curve hashToScalar threshold maxSigners ctx
        (inputsOf orders.castR1 castR1 e.1),
      p.id = tp.peers.localShareIdx ∧ threshold.toNat = tp.threshold.toNat ∧
      e.2.keyPackage = some p.key ∧
      castR2.lookup ⟨e.1, tp.peers.localShareIdx, 0⟩ = some p.round2Bcast ∧
      ∃ commitment, Decodes curve p.bcast commitment := by
  obtain ⟨results, rfl, rfl, hkeys, hresults⟩ := round2_ok (fun e he => (hdone.round1 e he).1) h
  have hkey := fun r hr => (hresults r hr).1
  have hvIdxs := hkeys.trans hdone.vIdxs
  refine ⟨?_, ownCasts hvIdxs hkey, fun e he => ?_⟩
  · rw [List.map_map, ← hvIdxs]
    rfl
  · obtain ⟨r, hr, rfl⟩ := List.mem_map.mp he
    obtain ⟨-, p, hp, hround⟩ := hresults r hr
    obtain ⟨hid, threshold, maxSigners, cast, sent, secret, hthreshold, hfrost, hsecret, hcast,
      hpoints⟩ := hdone.round1 _ hp
    obtain ⟨secret', key, pkg, hsecret', hfrost', hkeyPackage, -⟩ :=
      DkgParticipant.round2_ok hround
    obtain rfl := Option.some.inj (hsecret.symm.trans hsecret')
    have hlook := (lookup_inputsOf orders.castR1
      (fun k c hk => (hdone.keyed k c hk).2.2) r.1.1 tp.peers.localShareIdx).trans hcast
    have hsent := lookup_casts (hvIdxs ▸ nodup_ofNat_range _) hkey hr
    rw [hid] at hfrost'
    exact ⟨threshold, maxSigners,
      { id := tp.peers.localShareIdx, rng := rng r.1.1, bcast := cast, sentShares := sent,
        secret := secret, round2Bcast := r.2.2, key := key, pkg := pkg,
        receivedBcasts := _, receivedShares := _, round1_eq := hfrost, lookup_bcasts := hlook,
        received_eq := .inr rfl, round2_eq := hfrost' },
      rfl, hthreshold, hkeyPackage, hsent, exists_decodes hpoints⟩

/-- The polynomial of a validator: the sum of those that all nodes have committed to. -/
lemma exists_dealt (hdone : Round1Done tp curve hashToScalar ctx rng validators castR1)
    {vIdx : UInt32} (hvIdx : vIdx.toNat < tp.numValidators.toNat) {threshold maxSigners : UInt16}
    (p : Participant curve hashToScalar threshold maxSigners ctx
      (inputsOf orders.castR1 castR1 vIdx))
    (hdecodes : ∃ commitment, Decodes curve p.bcast commitment) :
    ∃ group : List G₁, group.length = threshold.toNat ∧ p.key.verifyingKey = group.headD 0 ∧
      p.round2Bcast.vkShare = curve.g1ToBytes (horner group (toScalar F p.id)) ∧
      ∀ x : F, horner group x = dealtAt curve castR1 tp.peers.numNodes vIdx x := by
  have hinputs := lookup_inputsOf orders.castR1 (fun k c hk => (hdone.keyed k c hk).2.2) vIdx
  have hids : ∀ id, id ∈ nodeIds tp.peers.numNodes ↔
      ∃ bcast, (inputsOf orders.castR1 castR1 vIdx).lookup id = some bcast := by
    intro id
    rw [hinputs]
    exact ⟨hdone.complete vIdx id hvIdx, fun ⟨cast, hcast⟩ => (hdone.keyed _ cast hcast).2.1⟩
  obtain ⟨group, hlength, hkey, hvkShare, hsum⟩ :=
    exists_polynomial p (nodup_nodeIds tp.peers.numNodes) hids hdecodes
  refine ⟨group, hlength, hkey, hvkShare, fun x => ?_⟩
  rw [hsum, dealtAt, funext hinputs]

omit [DecidableEq F] in
/-- The indices of the public shares of a validator are those of the nodes, and each is what the node
has broadcast in round 2. -/
lemma lookup_pubShares {own castR2 : HashMap MsgKey Round2Bcast}
    (hresult : RoundResult tp.peers tp.numValidators.toNat FrostRound2Casts.casts
      (round2CastFromProto curve) tp.validateRound2 tp.round2Inbox
      (buildRound2Casts tp.round2Order own) castR2)
    {pubShares : SortedMap UInt32 (HashMap UInt64 Bytes)}
    (h : (orders.castR2.order castR2.entries).foldlM (addPubShare curve) .empty = .ok pubShares)
    {vIdx : UInt32} (hvIdx : vIdx.toNat < tp.numValidators.toNat) :
    (∀ j : UInt64, (∃ pk, (pubSharesOf pubShares vIdx).lookup j = some pk) ↔
      1 ≤ j.toNat ∧ j.toNat ≤ tp.peers.numNodes.toNat) ∧
    ∀ id ∈ nodeIds tp.peers.numNodes, ∃ cast, castR2.lookup ⟨vIdx, id, 0⟩ = some cast ∧
      (pubSharesOf pubShares vIdx).lookup id.toUInt64 = some cast.vkShare := by
  obtain ⟨hfrom, hto⟩ := pubShares_ok h vIdx
  have hentry : ∀ j pk, (pubSharesOf pubShares vIdx).lookup j = some pk →
      ∃ id ∈ nodeIds tp.peers.numNodes, id.toUInt64 = j ∧
        ∃ cast, castR2.lookup ⟨vIdx, id, 0⟩ = some cast ∧ cast.vkShare = pk := by
    intro j pk hlook
    obtain ⟨⟨key, cast⟩, hmem, rfl, rfl, rfl⟩ := hfrom j pk hlook
    have hcast := HashMap.mem_order_iff.mp hmem
    obtain ⟨-, hsource, htarget⟩ := hresult.keyed key cast hcast
    refine ⟨key.sourceId, hsource, rfl, cast, ?_, rfl⟩
    rw [← htarget]
    exact hcast
  have hnode : ∀ id ∈ nodeIds tp.peers.numNodes,
      ∃ pk, (pubSharesOf pubShares vIdx).lookup id.toUInt64 = some pk := by
    intro id hid
    obtain ⟨cast, hcast⟩ := hresult.complete vIdx id hvIdx hid
    exact hto ⟨⟨vIdx, id, 0⟩, cast⟩ (HashMap.mem_order_iff.mpr hcast) rfl
  refine ⟨fun j => ⟨?_, fun hj => ?_⟩, fun id hid => ?_⟩
  · rintro ⟨pk, hlook⟩
    obtain ⟨id, hid, rfl, -⟩ := hentry j pk hlook
    rw [UInt32.toNat_toUInt64]
    exact mem_nodeIds.mp hid
  · have hlt : j.toNat < UInt32.size := hj.2.trans_lt tp.peers.numNodes.toNat_lt
    have hid : (UInt32.ofNat j.toNat).toNat = j.toNat := UInt32.toNat_ofNat_of_lt' hlt
    have hj' : (UInt32.ofNat j.toNat).toUInt64 = j :=
      UInt64.toNat_inj.mp (by rw [UInt32.toNat_toUInt64, hid])
    have hfound := hnode (UInt32.ofNat j.toNat) (mem_nodeIds.mpr (by rwa [hid]))
    rwa [hj'] at hfound
  · obtain ⟨pk, hpk⟩ := hnode id hid
    obtain ⟨id', -, heq, cast, hcast, rfl⟩ := hentry _ _ hpk
    obtain rfl : id' = id := UInt32.toNat_inj.mp (by
      rw [← UInt32.toNat_toUInt64, heq, UInt32.toNat_toUInt64])
    exact ⟨cast, hcast, hpk⟩

omit [DecidableEq F] in
lemma makeShare_ok {pubShares : SortedMap UInt32 (HashMap UInt64 Bytes)}
    {e : UInt32 × DkgParticipant F G₁} {share : Share} (h : makeShare curve pubShares e = .ok share) :
    ∃ key, e.2.keyPackage = some key ∧ share.pubKey = curve.g1ToBytes key.verifyingKey ∧
      share.publicShares = pubSharesOf pubShares e.1 := by
  simp only [makeShare, bind_ok_iff, Except.okOr_ok_iff, pure_ok_iff] at h
  obtain ⟨key, hkey, _, hpubKey, rfl⟩ := h
  exact ⟨key, hkey, pointToPubkey_ok hpubKey, rfl⟩

/-- What is known of a share that is made: its public shares are those of the round-2 broadcasts, that
of the node itself is right, and the polynomials dealt give the public key. -/
structure ShareMade (tp : FrostP2P PeerId) (curve : Curve F G₁ G₂) (castR1 : HashMap MsgKey Round1Bcast)
    (castR2 : HashMap MsgKey Round2Bcast) (vIdx : UInt32) (share : Share) : Prop where
  indices : ∀ j : UInt64, (∃ pk, share.publicShares.lookup j = some pk) ↔
    1 ≤ j.toNat ∧ j.toNat ≤ tp.peers.numNodes.toNat
  values : ∀ id ∈ nodeIds tp.peers.numNodes, ∃ cast, castR2.lookup ⟨vIdx, id, 0⟩ = some cast ∧
    share.publicShares.lookup id.toUInt64 = some cast.vkShare
  own : ∀ cast, castR2.lookup ⟨vIdx, tp.peers.localShareIdx, 0⟩ = some cast →
    cast.vkShare = curve.g1ToBytes
      (dealtAt curve castR1 tp.peers.numNodes vIdx (toScalar F tp.peers.localShareIdx))
  interpolates : ∀ ids : List UInt32, ids.Nodup → ids.length = tp.threshold.toNat →
    share.pubKey = curve.g1ToBytes (ids.map fun id =>
      lagrange (ids.map (toScalar F)) (toScalar F id) •
        dealtAt curve castR1 tp.peers.numNodes vIdx (toScalar F id)).sum

lemma exists_shareMade {shares : List Share}
    (hr1 : tp.afterRound1 curve hashToScalar ctx rng = .ok (validators, castR1, p2pR1))
    (h : tp.runFrostParallel curve hashToScalar ctx rng orders = .ok shares) :
    ∃ own castR2, RoundResult tp.peers tp.numValidators.toNat FrostRound2Casts.casts
        (round2CastFromProto curve) tp.validateRound2 tp.round2Inbox
        (buildRound2Casts tp.round2Order own) castR2 ∧
      shares.length = tp.numValidators.toNat ∧ ∀ vIdx share, shares[vIdx]? = some share →
        ShareMade tp curve castR1 castR2 (UInt32.ofNat vIdx) share := by
  have hdone := round1Done hr1
  simp only [FrostP2P.runFrostParallel, runFrostParallel, bind_ok_iff] at h
  obtain ⟨_, hr1', ⟨validators', own⟩, hround, castR2, htransport, hshares⟩ := h
  obtain rfl := Except.ok.inj (hr1'.symm.trans hr1)
  obtain ⟨hvIdxs, hown, hparticipant⟩ := exists_participant hdone hround
  have hresult := FrostP2P.round2_ok hown htransport
  simp only [makeShares, bind_ok_iff, Except.mapM_ok_iff] at hshares
  obtain ⟨pubShares, hpubShares, hshares⟩ := hshares
  have hcount : validators'.length = tp.numValidators.toNat := by
    rw [← List.length_map (f := Prod.fst), hvIdxs, List.length_map, List.length_range]
  refine ⟨own, castR2, hresult, hshares.length_eq.symm.trans hcount, fun v share hshare => ?_⟩
  -- the validator of the share
  obtain ⟨hv, hget⟩ := List.getElem?_eq_some_iff.mp hshare
  have hv' : v < validators'.length := hshares.length_eq ▸ hv
  obtain ⟨key, hkey, hpubKey, hpublic⟩ := makeShare_ok ((hshares.get hv' hv).trans
    (congrArg Except.ok hget))
  have hvIdx : validators'[v].1 = UInt32.ofNat v := by
    have hget := congrArg (fun l => l[v]?) hvIdxs
    simpa [List.getElem?_eq_getElem hv', List.getElem?_range (hcount ▸ hv')] using hget
  have hlt : (UInt32.ofNat v).toNat < tp.numValidators.toNat := by
    rw [← hvIdx]
    exact toNat_lt_of_mem_range (hvIdxs ▸ List.mem_map_of_mem (List.getElem_mem hv'))
  have hp := hparticipant _ (List.getElem_mem hv')
  rw [hvIdx] at hp
  obtain ⟨threshold, maxSigners, p, hid, hthreshold, hkey', hsent, hdecodes⟩ := hp
  obtain rfl := Option.some.inj (hkey.symm.trans hkey')
  obtain ⟨group, hlength, hgroup, hvkShare, hdealt⟩ := exists_dealt hdone hlt p hdecodes
  obtain ⟨hindices, hvalues⟩ := lookup_pubShares hresult hpubShares hlt
  have hpublic' : share.publicShares = pubSharesOf pubShares (UInt32.ofNat v) := hvIdx ▸ hpublic
  rw [← hpublic'] at hindices hvalues
  refine ⟨hindices, hvalues, fun cast hcast => ?_, fun ids hnodup hcard => ?_⟩
  · have hmine := FrostP2P.round2_own hresult hcast rfl
    obtain rfl := Option.some.inj (hmine.symm.trans hsent)
    rw [hvkShare, hdealt, hid]
  · have hxs : (ids.map (toScalar F)).Nodup := hnodup.map (Frost.toScalar_injective curve)
    have hsum := interpolate_zero hxs group
      (by rw [List.length_map, hlength, hthreshold, hcard])
    rw [List.map_map] at hsum
    rw [hpubKey, hgroup, ← hsum]
    simp only [Function.comp_def, hdealt]

/-- **Public shares and the key of the group.**  A run that succeeds makes a share for each validator,
with a public share for exactly the indices of the nodes.  Any `threshold` values of the polynomials
dealt in round 1 interpolate to its public key, and the public shares of all indices are these values
exactly if each entry of each accepted round-2 broadcast has, as its `vk_share`, the value at the index
of its source. -/
theorem public_shares_dealt_iff {shares : List Share}
    (hr1 : tp.afterRound1 curve hashToScalar ctx rng = .ok (validators, castR1, p2pR1))
    (h : tp.runFrostParallel curve hashToScalar ctx rng orders = .ok shares) :
    shares.length = tp.numValidators.toNat ∧
    (∀ vIdx share, shares[vIdx]? = some share →
      (∀ j : UInt64, (∃ pk, share.publicShares.lookup j = some pk) ↔
        1 ≤ j.toNat ∧ j.toNat ≤ tp.peers.numNodes.toNat) ∧
      ∀ ids : List UInt32, ids.Nodup → ids.length = tp.threshold.toNat →
        share.pubKey = curve.g1ToBytes (ids.map fun id =>
          lagrange (ids.map (toScalar F)) (toScalar F id) •
            dealtAt curve castR1 tp.peers.numNodes (UInt32.ofNat vIdx) (toScalar F id)).sum) ∧
    ((∀ vIdx share, shares[vIdx]? = some share → ∀ id ∈ nodeIds tp.peers.numNodes,
      share.publicShares.lookup id.toUInt64 = some (curve.g1ToBytes
        (dealtAt curve castR1 tp.peers.numNodes (UInt32.ofNat vIdx) (toScalar F id)))) ↔
      ∀ call ∈ accepted tp.validateRound2 tp.round2Inbox.calls, ∀ cast ∈ call.2.casts, ∀ key,
        cast.key = some key → cast.vkShare = curve.g1ToBytes
          (dealtAt curve castR1 tp.peers.numNodes key.valIdx (toScalar F key.sourceId))) := by
  obtain ⟨own, castR2, hresult, hcount, hmade⟩ := exists_shareMade hr1 h
  refine ⟨hcount, fun v share hshare =>
    ⟨(hmade v share hshare).indices, (hmade v share hshare).interpolates⟩, ?_, ?_⟩
  · -- what was accepted is found among the public shares
    intro hall call hcall proto hproto key hkey
    obtain ⟨key', cast, hdecode, hcast⟩ := hresult.kept call hcall proto hproto
    obtain rfl := round2CastFromProto_ok hdecode
    obtain rfl := Option.some.inj hkey
    obtain ⟨hv, hsource, htarget⟩ := hresult.keyed key' cast hcast
    have hget : shares[key'.valIdx.toNat]? = some shares[key'.valIdx.toNat] :=
      List.getElem?_eq_getElem (hcount ▸ hv)
    obtain ⟨cast', hcast', hlook⟩ := (hmade _ _ hget).values key'.sourceId hsource
    have hdealt := hall _ _ hget key'.sourceId hsource
    rw [UInt32.ofNat_toNat] at hcast' hdealt
    rw [← htarget] at hcast'
    obtain rfl := Option.some.inj (hcast.symm.trans hcast')
    exact Option.some.inj (hlook.symm.trans hdealt)
  · intro hround2 v share hshare id hid
    obtain ⟨cast, hcast, hlook⟩ := (hmade v share hshare).values id hid
    rw [hlook]
    by_cases hlocal : id = tp.peers.localShareIdx
    · subst hlocal
      exact congrArg some ((hmade v share hshare).own cast hcast)
    · obtain ⟨call, hcall, proto, hproto, hdecode⟩ := hresult.remote _ cast hcast hlocal
      obtain rfl := round2CastFromProto_ok hdecode
      exact congrArg some (hround2 call hcall _ hproto _ rfl)

end Ceremony

/-! ## A ceremony of two nodes

The polynomials are `3 + 2x` and `5 + x`, so the shares are values of `8 + 3x`.  The first node is
the one whose share is made; the second one broadcasts some points as its public share, of which the
first one is accepted. -/

def twoPeers : PeerShareIndices (Fin 2) where
  shareIdxByPeer := HashMap.insertAll ∅ [(0, 1), (1, 2)]
  localPeer := 0
  localShareIdx := 1
  numNodes := 2
  lookup_local := rfl
  lookup_injective peer peer' shareIdx h h' := by
    fin_cases peer <;> fin_cases peer' <;> first | rfl | (cases h; cases h')
  lookup_range peer shareIdx h := by
    fin_cases peer <;> cases h <;> decide
  size_eq := rfl

def twoNodes (vkShares : List (ZMod order)) : FrostP2P (Fin 2) where
  peers := twoPeers
  threshold := 2
  numValidators := 1
  round1Inbox := {
    calls := [(1, ⟨[round1CastToProto ⟨0, 2, 0⟩ (Frost.lineBcast 5 1)]⟩)]
    position := 0
    sent := .ok ()
    remote := by simp [twoPeers] }
  p2pCalls := [(1, ⟨[⟨some ⟨0, 2, 1⟩, 1, scalarToBytes 6⟩]⟩)]
  schedule := [true, false, true]
  round2Inbox := {
    calls := vkShares.map fun vkShare =>
      (1, ⟨[⟨some ⟨0, 2, 0⟩, scalarToBytes 8, scalarToBytes vkShare⟩]⟩)
    position := 0
    sent := .ok ()
    remote := by simp [twoPeers] }
  round1Order := IterOrder.stored _
  round2Order := IterOrder.stored _

def storedOrders : Orders := ⟨IterOrder.stored _, IterOrder.stored _, IterOrder.stored _⟩

def twoNodesShare (vkShare : ZMod order) : Share where
  pubKey := scalarToBytes 8
  secretShare := scalarToBytes 11
  publicShares := HashMap.insertAll ∅ [(2, scalarToBytes vkShare), (1, scalarToBytes 11)]

def twoCasts : HashMap MsgKey Round1Bcast :=
  HashMap.insertAll ∅ [(⟨0, 1, 0⟩, Frost.lineBcast 3 2), (⟨0, 2, 0⟩, Frost.lineBcast 5 1)]

lemma exists_eq_ok_of_casts {ε α β γ : Type*} {result : Except ε (α × β × γ)} {casts : β}
    (h : result.toOption.map (fun r => r.2.1) = some casts) :
    ∃ validators p2p, result = .ok (validators, casts, p2p) := by
  cases result with
  | error e => cases h
  | ok r =>
    obtain rfl := Option.some.inj h
    exact ⟨r.1, r.2.2, rfl⟩

lemma dealtAt_two :
    dealtAt (exponents fun _ => 1) twoCasts 2 0 (toScalar (ZMod order) 2) = 14 := by
  rfl

/-- The second node broadcasts its share and then another point, which is dropped. -/
theorem public_shares_dealt_two_nodes :
    (twoNodesShare 14).publicShares.lookup 2 = some (scalarToBytes (dealtAt (exponents fun _ => 1)
      twoCasts 2 0 (toScalar (ZMod order) 2))) ∧
    (twoNodesShare 14).pubKey = scalarToBytes (([1, 2] : List UInt32).map fun id =>
      lagrange (([1, 2] : List UInt32).map (toScalar (ZMod order))) (toScalar (ZMod order) id) •
        dealtAt (exponents fun _ => 1) twoCasts 2 0 (toScalar (ZMod order) id)).sum := by
  have hcasts : ((twoNodes [14, 99]).afterRound1 (exponents fun _ => 1) (fun _ => 1) 0
      (fun _ => Frost.lineRandomness 3 2)).toOption.map (fun r => r.2.1) = some twoCasts := by rfl
  obtain ⟨validators, p2pR1, hr1⟩ := exists_eq_ok_of_casts hcasts
  have hrun : (twoNodes [14, 99]).runFrostParallel (exponents fun _ => 1) (fun _ => 1) 0
      (fun _ => Frost.lineRandomness 3 2) storedOrders = .ok [twoNodesShare 14] := by rfl
  have haccepted : accepted (twoNodes [14, 99]).validateRound2 (twoNodes [14, 99]).round2Inbox.calls =
      [(1, ⟨[⟨some ⟨0, 2, 0⟩, scalarToBytes 8, scalarToBytes 14⟩]⟩)] := by rfl
  obtain ⟨-, hshare, hiff⟩ := public_shares_dealt_iff hr1 hrun
  refine ⟨hiff.mpr ?_ 0 _ rfl 2 (by decide), (hshare 0 _ rfl).2 [1, 2] (by decide) rfl⟩
  intro call hcall cast hcast key hkey
  rw [haccepted] at hcall
  obtain rfl := List.mem_singleton.mp hcall
  obtain rfl := List.mem_singleton.mp hcast
  obtain rfl := Option.some.inj hkey
  exact congrArg scalarToBytes dealtAt_two.symm

/-- The second node broadcasts another point, and the ceremony succeeds with it. -/
theorem other_public_share :
    (∃ validators p2pR1, (twoNodes [99]).afterRound1 (exponents fun _ => 1) (fun _ => 1) 0
      (fun _ => Frost.lineRandomness 3 2) = .ok (validators, twoCasts, p2pR1)) ∧
    (twoNodes [99]).runFrostParallel (exponents fun _ => 1) (fun _ => 1) 0
      (fun _ => Frost.lineRandomness 3 2) storedOrders = .ok [twoNodesShare 99] ∧
    (twoNodesShare 99).publicShares.lookup 2 ≠ some (scalarToBytes (dealtAt
      (exponents fun _ => 1) twoCasts 2 0 (toScalar (ZMod order) 2))) := by
  have hcasts : ((twoNodes [99]).afterRound1 (exponents fun _ => 1) (fun _ => 1) 0
      (fun _ => Frost.lineRandomness 3 2)).toOption.map (fun r => r.2.1) = some twoCasts := by rfl
  have hrun : (twoNodes [99]).runFrostParallel (exponents fun _ => 1) (fun _ => 1) 0
      (fun _ => Frost.lineRandomness 3 2) storedOrders = .ok [twoNodesShare 99] := by rfl
  refine ⟨exists_eq_ok_of_casts hcasts, hrun, ?_⟩
  rw [dealtAt_two]
  decide +kernel

end Pluto.Dkg
