import Pluto.Frost.Kryptology

/-!
# The key generation is consistent

Participants that run both rounds with the same round-1 broadcasts end up with shares of one key,
whatever the others have sent.

`round2` accepts a share only if it agrees with the commitments of its sender, so the sum of the
shares is the value of the sum of the committed polynomials (`round2_ok`).  That sum depends on the
broadcasts only.  The own entry of a participant may be in the map it is given or not: it is skipped,
and the participant files its own commitments, which are those it has broadcast.
-/

namespace Pluto.Frost

open Except (bind_ok_iff mapError_ok_iff pure_ok_iff ok_bind)
open Crypto SecretSharing

variable {F G₁ G₂ : Type} [Field F] [AddCommGroup G₁] [Module F G₁] [DecidableEq G₁]
  [AddCommGroup G₂] [Module F G₂] {curve : Curve F G₁ G₂} {hashToScalar : Bytes → F}

/-! ## What round 2 has checked -/

/-- The commitments of a broadcast are the encodings of these points, none of which is infinity. -/
def Decodes (curve : Curve F G₁ G₂) (bcast : Round1Bcast) (commitment : List G₁) : Prop :=
  List.Forall₂ (fun bytes p => fromCompressed curve bytes = some p) bcast.commitments commitment

variable {bcast : Round1Bcast}

lemma Decodes.unique {c c' : List G₁} (h : Decodes curve bcast c)
    (h' : Decodes curve bcast c') : c = c' :=
  List.right_unique_forall₂' (fun _ _ _ hp hq => Option.some.inj (hp.symm.trans hq)) h h'

lemma fromCompressed_g1ToBytes {p q : G₁} (h : fromCompressed curve (curve.g1ToBytes p) = some q) :
    q = p := by
  simp only [fromCompressed, curve.g1FromBytes_toBytes, Option.bind_eq_bind, Option.bind_some,
    Option.ite_none_left_eq_some] at h
  exact (Option.some.inj h.2).symm

/-- What was encoded is what is decoded. -/
lemma Decodes.eq_of_map {points c : List G₁}
    (hbcast : bcast.commitments = points.map curve.g1ToBytes) (h : Decodes curve bcast c) :
    c = points := by
  rw [Decodes, hbcast, List.forall₂_map_left_iff] at h
  have heq := h.imp fun p q hq => (fromCompressed_g1ToBytes hq).symm
  rw [List.forall₂_eq_eq_eq] at heq
  exact heq.symm

lemma deserializeCommitment_ok {participant : UInt32} {threshold : UInt16} {commitment : List G₁}
    (h : deserializeCommitment curve participant threshold bcast.commitments = .ok commitment) :
    Decodes curve bcast commitment ∧ commitment.length = threshold.toNat := by
  rw [deserializeCommitment] at h
  split_ifs at h with hlen
  rw [Except.mapM_ok_iff] at h
  refine ⟨h.imp fun bytes p hp => ?_, h.length_eq.symm.trans (not_not.mp hlen)⟩
  split at hp
  · cases hp
  · rename_i hsome
    rw [hsome, Except.ok.inj hp]

variable [DecidableEq F]

variable {shares : SortedMap UInt32 ShamirShare}

lemma verifyShare_ok {ownId senderId : UInt32} {commitment : List G₁} {share : F}
    (h : verifyShare curve ownId senderId shares commitment = .ok share) :
    share • curve.generator = horner commitment (toScalar F ownId) := by
  rw [verifyShare] at h
  split at h
  · cases h
  split_ifs at h
  rw [bind_ok_iff] at h
  obtain ⟨scalar, -, h⟩ := h
  split_ifs at h
  rw [bind_ok_iff] at h
  obtain ⟨_, hverify, h⟩ := h
  rw [mapError_ok_iff, verifySecretShare] at hverify
  split_ifs at hverify with hne
  rw [← pure_ok_iff.mp h, not_not.mp hne, evaluateVss_eq]

variable {secret : Round1Secret F G₁}

lemma receiveBcast_ok {acc acc' : F × SortedMap UInt32 (List G₁)} {entry : UInt32 × Round1Bcast}
    (hne : entry.1 ≠ secret.id)
    (h : receiveBcast curve hashToScalar secret shares acc entry = .ok acc') :
    ∃ commitment share, Decodes curve entry.2 commitment ∧
      commitment.length = secret.threshold.toNat ∧
      share • curve.generator = horner commitment (toScalar F secret.id) ∧
      acc' = (acc.1 + share, acc.2.insert entry.1 commitment) := by
  rw [receiveBcast, if_neg hne] at h
  simp only [bind_ok_iff, mapError_ok_iff, pure_ok_iff] at h
  obtain ⟨commitment, hcommitment, _, -, share, hshare, sender, hsender, rfl⟩ := h
  obtain ⟨hdecodes, hlen⟩ := deserializeCommitment_ok hcommitment
  obtain rfl := identifierFromU32_ok F hsender
  exact ⟨commitment, share, hdecodes, hlen, verifyShare_ok hshare, rfl⟩

/-- What holds before each turn of the loop over the broadcasts. -/
structure Received (curve : Curve F G₁ G₂) (secret : Round1Secret F G₁)
    (bcasts : SortedMap UInt32 Round1Bcast) (rest : List (UInt32 × Round1Bcast))
    (acc : F × SortedMap UInt32 (List G₁)) : Prop where
  nodup : (rest.map Prod.fst).Nodup
  sub : rest ⊆ bcasts.entries
  fresh : ∀ entry ∈ rest, acc.2.lookup entry.1 = none
  filed : ∀ id commitment, acc.2.lookup id = some commitment → id ≠ secret.id ∧
    commitment.length = secret.threshold.toNat ∧
    ∃ bcast, bcasts.lookup id = some bcast ∧ Decodes curve bcast commitment
  visited : ∀ entry ∈ bcasts.entries, entry.1 = secret.id ∨ entry ∈ rest ∨
    ∃ commitment, acc.2.lookup entry.1 = some commitment
  sum : acc.1 • curve.generator =
    (acc.2.values.map fun c => horner c (toScalar F secret.id)).sum

omit [DecidableEq F] in
lemma Received.start (secret : Round1Secret F G₁) (bcasts : SortedMap UInt32 Round1Bcast) :
    Received curve secret bcasts bcasts.entries (0, .empty) where
  nodup := bcasts.nodup_keys
  sub := fun _ h => h
  fresh := by simp
  filed := by simp
  visited := fun entry h => .inr (.inl h)
  sum := by simp [SortedMap.values, SortedMap.empty]

variable {bcasts : SortedMap UInt32 Round1Bcast}

lemma Received.step {entry : UInt32 × Round1Bcast}
    {rest : List (UInt32 × Round1Bcast)} {acc acc' : F × SortedMap UInt32 (List G₁)}
    (h : Received curve secret bcasts (entry :: rest) acc)
    (hstep : receiveBcast curve hashToScalar secret shares acc entry = .ok acc') :
    Received curve secret bcasts rest acc' := by
  obtain ⟨hnotin, hnodup⟩ := List.nodup_cons.mp h.nodup
  by_cases hown : entry.1 = secret.id
  · rw [receiveBcast, if_pos hown] at hstep
    obtain rfl := Except.ok.inj hstep
    refine ⟨hnodup, fun e he => h.sub (List.mem_cons_of_mem _ he),
      fun e he => h.fresh e (List.mem_cons_of_mem _ he), h.filed, fun e he => ?_, h.sum⟩
    rcases h.visited e he with hid | hmem | hfiled
    · exact .inl hid
    · rcases List.mem_cons.mp hmem with rfl | hmem
      · exact .inl hown
      · exact .inr (.inl hmem)
    · exact .inr (.inr hfiled)
  · obtain ⟨commitment, share, hdecodes, hlen, hshare, rfl⟩ := receiveBcast_ok hown hstep
    have hlook := SortedMap.lookup_eq_some_iff.mpr (h.sub List.mem_cons_self)
    have hnone := h.fresh entry List.mem_cons_self
    refine ⟨hnodup, fun e he => h.sub (List.mem_cons_of_mem _ he), fun e he => ?_,
      fun id c hc => ?_, fun e he => ?_, ?_⟩
    · have hne : e.1 ≠ entry.1 := fun heq => hnotin (heq ▸ List.mem_map_of_mem he)
      rw [SortedMap.lookup_insert_ne _ _ hne]
      exact h.fresh e (List.mem_cons_of_mem _ he)
    · rcases SortedMap.lookup_insert_eq_some_iff.mp hc with ⟨rfl, rfl⟩ | ⟨-, hold⟩
      · exact ⟨hown, hlen, entry.2, hlook, hdecodes⟩
      · exact h.filed id c hold
    · rcases h.visited e he with hid | hmem | ⟨c, hc⟩
      · exact .inl hid
      · rcases List.mem_cons.mp hmem with rfl | hmem
        · exact .inr (.inr ⟨_, SortedMap.lookup_insert_self _ _ _⟩)
        · exact .inr (.inl hmem)
      · by_cases heq : e.1 = entry.1
        · rw [heq]
          exact .inr (.inr ⟨_, SortedMap.lookup_insert_self _ _ _⟩)
        · exact .inr (.inr ⟨c, (SortedMap.lookup_insert_ne _ _ heq).trans hc⟩)
    · rw [((SortedMap.values_insert_perm commitment hnone).map _).sum_eq, List.map_cons,
        List.sum_cons, add_smul, h.sum, hshare, add_comm]

/-- The commitments a participant has filed at the end, its own among them, and what it has made of
them. -/
structure Outcome (curve : Curve F G₁ G₂) (secret : Round1Secret F G₁)
    (bcasts : SortedMap UInt32 Round1Bcast) (key : KeyPackage F G₁) (pkg : PublicKeyPackage G₁)
    (commitments : SortedMap UInt32 (List G₁)) : Prop where
  lookup_own : commitments.lookup secret.id = some secret.commitment
  lookup_iff : ∀ id commitment, id ≠ secret.id → (commitments.lookup id = some commitment ↔
    ∃ bcast, bcasts.lookup id = some bcast ∧ Decodes curve bcast commitment)
  decodes : ∀ id bcast, id ≠ secret.id → bcasts.lookup id = some bcast →
    ∃ commitment, Decodes curve bcast commitment
  length : ∀ commitment ∈ commitments.values, commitment.length = secret.threshold.toNat
  package : fromDkgCommitments F commitments = .ok pkg
  identifier : key.identifier = secret.id
  signingShare : key.signingShare • curve.generator =
    (commitments.values.map fun c => horner c (toScalar F secret.id)).sum

/-- A secret as round 1 makes it. -/
structure Round1Secret.Ok (curve : Curve F G₁ G₂) (secret : Round1Secret F G₁) : Prop where
  commitment : secret.commitment = secret.coefficients.map (· • curve.generator)
  length : secret.coefficients.length = secret.threshold.toNat
  two_le : 2 ≤ secret.threshold.toNat

theorem round2_ok {r2 : Round2Bcast} {key : KeyPackage F G₁}
    {pkg : PublicKeyPackage G₁} (hsecret : secret.Ok curve)
    (h : round2 curve hashToScalar secret bcasts shares = .ok (r2, key, pkg)) :
    ∃ commitments, Outcome curve secret bcasts key pkg commitments := by
  rw [round2] at h
  split_ifs at h
  simp only [bind_ok_iff, mapError_ok_iff, pure_ok_iff, Prod.mk.injEq] at h
  obtain ⟨own, hown, ⟨shareSum, peers⟩, hloop, pkg', hpkg, -, rfl, rfl⟩ := h
  obtain rfl := identifierFromU32_ok F hown
  have hend := Except.foldlM_invariant (I := Received curve secret bcasts)
    (fun _ _ _ _ => Received.step) (Received.start secret bcasts) hloop
  have hfresh : peers.lookup secret.id = none := by
    by_contra hsome
    obtain ⟨c, hc⟩ := Option.ne_none_iff_exists'.mp hsome
    exact (hend.filed _ c hc).1 rfl
  have hfiled : ∀ id bcast, id ≠ secret.id → bcasts.lookup id = some bcast →
      ∃ c, peers.lookup id = some c := by
    intro id bcast hne hlook
    rcases hend.visited (id, bcast) (SortedMap.lookup_eq_some_iff.mp hlook) with heq | hmem | hc
    · exact absurd heq hne
    · exact absurd hmem List.not_mem_nil
    · exact hc
  refine ⟨peers.insert secret.id secret.commitment, SortedMap.lookup_insert_self _ _ _,
    fun id commitment hne => ?_, fun id bcast hne hlook => ?_, fun c hc => ?_, hpkg, rfl, ?_⟩
  · rw [SortedMap.lookup_insert_ne _ _ hne]
    refine ⟨fun hc => (hend.filed id commitment hc).2.2, ?_⟩
    rintro ⟨bcast, hlook, hdecodes⟩
    obtain ⟨c, hc⟩ := hfiled id bcast hne hlook
    obtain ⟨-, -, bcast', hlook', hdecodes'⟩ := hend.filed id c hc
    obtain rfl := Option.some.inj (hlook.symm.trans hlook')
    rw [hc, hdecodes.unique hdecodes']
  · obtain ⟨c, hc⟩ := hfiled id bcast hne hlook
    obtain ⟨-, -, bcast', hlook', hdecodes'⟩ := hend.filed id c hc
    obtain rfl := Option.some.inj (hlook.symm.trans hlook')
    exact ⟨c, hdecodes'⟩
  · rcases List.mem_cons.mp ((SortedMap.values_insert_perm _ hfresh).mem_iff.mp hc) with rfl | hc
    · rw [hsecret.commitment, List.length_map, hsecret.length]
    · obtain ⟨⟨id, c⟩, hmem, rfl⟩ := List.mem_map.mp hc
      exact (hend.filed id c (SortedMap.lookup_eq_some_iff.mpr hmem)).2.1
  · rw [((SortedMap.values_insert_perm _ hfresh).map _).sum_eq, List.map_cons, List.sum_cons,
      add_smul, hend.sum, evaluatePolynomial_eq, hsecret.commitment, horner_smul]

/-- The broadcast of round 2 has the public share of the participant. -/
lemma round2_cast {r2 : Round2Bcast} {key : KeyPackage F G₁} {pkg : PublicKeyPackage G₁}
    (h : round2 curve hashToScalar secret bcasts shares = .ok (r2, key, pkg)) :
    r2.vkShare = curve.g1ToBytes (key.signingShare • curve.generator) ∧
      key.verifyingKey = pkg.verifyingKey := by
  rw [round2] at h
  split_ifs at h
  simp only [bind_ok_iff, mapError_ok_iff, pure_ok_iff, Prod.mk.injEq] at h
  obtain ⟨_, -, ⟨_, _⟩, -, _, -, rfl, rfl, rfl⟩ := h
  exact ⟨rfl, rfl⟩

lemma validateRoundParameters_ok {id : UInt32} {threshold maxSigners : UInt16}
    (h : validateRoundParameters id threshold maxSigners = .ok ()) : 2 ≤ threshold.toNat := by
  rw [validateRoundParameters] at h
  split_ifs at h
  · obtain ⟨_, hsigners, -⟩ := bind_ok_iff.mp h
    exact validateNumOfSigners_ok (mapError_ok_iff.mp hsigners)
  · obtain ⟨_, hsigners, -⟩ := bind_ok_iff.mp h
    exact validateNumOfSigners_ok (mapError_ok_iff.mp hsigners)

omit [DecidableEq G₁] in
lemma round1_ok {id : UInt32} {threshold maxSigners : UInt16} {ctx : UInt8} {rng : Randomness F}
    (h : round1 curve hashToScalar id threshold maxSigners ctx rng = .ok (bcast, shares, secret)) :
    secret.Ok curve ∧ secret.id = id ∧ secret.threshold = threshold ∧
      bcast.commitments = secret.commitment.map curve.g1ToBytes := by
  simp only [round1, bind_ok_iff, pure_ok_iff, Prod.mk.injEq] at h
  obtain ⟨_, hparams, _, -, rfl, rfl, rfl⟩ := h
  exact ⟨⟨rfl, by simp, validateRoundParameters_ok hparams⟩, rfl, rfl, rfl⟩

/-! ## Partial signatures -/

lemma checkDuplicates_ok {seen ids : List UInt32} (h : ids.Nodup) (hseen : ∀ id ∈ ids, id ∉ seen) :
    checkDuplicates seen ids = .ok () := by
  induction ids generalizing seen with
  | nil => rfl
  | cons id ids ih =>
    obtain ⟨hid, hnodup⟩ := List.nodup_cons.mp h
    rw [List.forall_mem_cons] at hseen
    rw [checkDuplicates, if_neg hseen.1]
    refine ih hnodup fun id' hid' => ?_
    rw [List.mem_cons, not_or]
    exact ⟨fun heq => hid (heq ▸ hid'), hseen.2 id' hid'⟩

lemma lambdaStep_loop {own : F × ℕ} (others : List (F × ℕ)) (lambda : F)
    (h : ∀ other ∈ others, own.2 ≠ other.2 → other.1 ≠ own.1) :
    others.foldlM (lambdaStep own) lambda = .ok (lambda *
      ((others.filter fun other => own.2 ≠ other.2).map fun other =>
        other.1 / (other.1 - own.1)).prod) := by
  induction others generalizing lambda with
  | nil =>
    rw [List.foldlM_nil, List.filter_nil, List.map_nil, List.prod_nil, mul_one]
    rfl
  | cons other others ih =>
    rw [List.forall_mem_cons] at h
    by_cases hpos : own.2 = other.2
    · rw [List.foldlM_cons, lambdaStep, if_pos hpos, ok_bind, ih _ h.2,
        List.filter_cons_of_neg (by simpa using hpos)]
    · rw [List.foldlM_cons, lambdaStep, if_neg hpos, if_neg (sub_ne_zero.mpr (h.1 hpos)),
        ok_bind, ih _ h.2, List.filter_cons_of_pos (by simpa using hpos), List.map_cons,
        List.prod_cons, div_eq_mul_inv, ← mul_assoc, ← mul_assoc]

lemma lambda_eq {xs : List F} (h : xs.Nodup) {own : F × ℕ} (hown : own ∈ xs.zipIdx) :
    xs.zipIdx.foldlM (lambdaStep own) 1 = .ok (lagrange xs own.1) := by
  rw [lambdaStep_loop, one_mul, lagrange_eq_zipIdx h hown]
  intro other hother hne
  have hown' := List.mem_zipIdx' hown
  have hother' := List.mem_zipIdx' hother
  rw [hown'.2, hother'.2, ne_eq, h.getElem_inj_iff]
  exact Ne.symm hne

lemma combineStep_loop {xs : List F} (h : xs.Nodup)
    {entries : List (BlsPartialSignature G₂ × F × ℕ)} (hsub : ∀ entry ∈ entries, entry.2 ∈ xs.zipIdx)
    (combined : G₂) :
    entries.foldlM (combineStep xs) combined = .ok (combined +
      (entries.map fun entry => lagrange xs entry.2.1 • entry.1.point).sum) := by
  induction entries generalizing combined with
  | nil =>
    rw [List.foldlM_nil, List.map_nil, List.sum_nil, add_zero]
    rfl
  | cons entry entries ih =>
    rw [List.forall_mem_cons] at hsub
    rw [List.foldlM_cons, combineStep, lambda_eq h hsub.1, ok_bind, Except.pure_eq_ok,
      ok_bind, ih hsub.2, List.map_cons, List.sum_cons, add_assoc]

lemma fromPartialSignatures_eq {minSigners : UInt16} {sigs : List (BlsPartialSignature G₂)}
    (hmin : 2 ≤ minSigners) (hlen : minSigners.toNat ≤ sigs.length)
    (hids : (sigs.map (·.identifier)).Nodup)
    (hxs : (sigs.map fun ps => toScalar F ps.identifier).Nodup) :
    fromPartialSignatures F minSigners sigs = .ok (sigs.map fun ps =>
      lagrange (sigs.map fun ps => toScalar F ps.identifier) (toScalar F ps.identifier) •
        ps.point).sum := by
  have hguard : ¬ (minSigners < 2 ∨ sigs.length < minSigners.toNat) := by
    rw [not_or, UInt16.not_lt, Nat.not_lt]
    exact ⟨hmin, hlen⟩
  rw [fromPartialSignatures, if_neg hguard, checkDuplicates_ok hids (by simp), ok_bind,
    combineStep_loop hxs (fun entry hentry => (List.of_mem_zip hentry).2), zero_add]
  refine congrArg (fun terms : List G₂ => Except.ok terms.sum) ?_
  exact List.ext_getElem (by simp) (by simp)

/-! ## Participants of one key generation -/

omit [DecidableEq G₁] [DecidableEq F] in
lemma toScalar_injective (curve : Curve F G₁ G₂) : Function.Injective (toScalar F) := fun id id' h =>
  UInt32.toNat_inj.mp (curve.natCast_inj (id.toNat_lt.trans (by decide))
    (id'.toNat_lt.trans (by decide)) h)

/-- A participant that has run both rounds with the round-1 broadcasts `bcasts`, with or without its
own among them.  The shares it was sent are arbitrary. -/
structure Participant (curve : Curve F G₁ G₂) (hashToScalar : Bytes → F)
    (threshold maxSigners : UInt16) (ctx : UInt8) (bcasts : SortedMap UInt32 Round1Bcast) where
  id : UInt32
  rng : Randomness F
  bcast : Round1Bcast
  sentShares : SortedMap UInt32 ShamirShare
  secret : Round1Secret F G₁
  receivedBcasts : SortedMap UInt32 Round1Bcast
  receivedShares : SortedMap UInt32 ShamirShare
  round2Bcast : Round2Bcast
  key : KeyPackage F G₁
  pkg : PublicKeyPackage G₁
  round1_eq :
    round1 curve hashToScalar id threshold maxSigners ctx rng = .ok (bcast, sentShares, secret)
  lookup_bcasts : bcasts.lookup id = some bcast
  received_eq : receivedBcasts = bcasts ∨ receivedBcasts = bcasts.erase id
  round2_eq : round2 curve hashToScalar secret receivedBcasts receivedShares =
    .ok (round2Bcast, key, pkg)

namespace Participant

variable {threshold maxSigners : UInt16} {ctx : UInt8} {bcasts : SortedMap UInt32 Round1Bcast}

lemma secret_ok (p : Participant curve hashToScalar threshold maxSigners ctx bcasts) :
    p.secret.Ok curve ∧ p.secret.id = p.id ∧ p.secret.threshold = threshold ∧
      p.bcast.commitments = p.secret.commitment.map curve.g1ToBytes :=
  round1_ok p.round1_eq

/-- Of the others, a participant has received what everyone has. -/
lemma lookup_received (p : Participant curve hashToScalar threshold maxSigners ctx bcasts)
    {id : UInt32} (h : id ≠ p.id) {bcast : Round1Bcast} :
    p.receivedBcasts.lookup id = some bcast ↔ bcasts.lookup id = some bcast := by
  rcases p.received_eq with heq | heq
  · rw [heq]
  · rw [heq, SortedMap.lookup_erase_eq_some_iff, and_iff_right h]

lemma exists_outcome (p : Participant curve hashToScalar threshold maxSigners ctx bcasts) :
    ∃ commitments, Outcome curve p.secret p.receivedBcasts p.key p.pkg commitments :=
  round2_ok p.secret_ok.1 p.round2_eq

/-- The commitments of every participant are filed under its identifier by every other one. -/
lemma lookup_commitment (p q : Participant curve hashToScalar threshold maxSigners ctx bcasts)
    {commitments : SortedMap UInt32 (List G₁)}
    (h : Outcome curve q.secret q.receivedBcasts q.key q.pkg commitments) :
    commitments.lookup p.id = some p.secret.commitment := by
  obtain ⟨-, hpid, -, hpbcast⟩ := p.secret_ok
  obtain ⟨-, hqid, -, hqbcast⟩ := q.secret_ok
  by_cases hid : p.id = q.id
  · -- the same broadcast, so the same commitments
    have hbcast : p.bcast = q.bcast := by
      refine Option.some.inj ?_
      rw [← p.lookup_bcasts, hid, q.lookup_bcasts]
    have hcommitment : p.secret.commitment = q.secret.commitment :=
      curve.g1ToBytes_injective.list_map (hpbcast.symm.trans (hbcast ▸ hqbcast))
    rw [hcommitment, hid, ← hqid, h.lookup_own]
  · have hne : p.id ≠ q.secret.id := hqid ▸ hid
    have hlook := (q.lookup_received hid).mpr p.lookup_bcasts
    obtain ⟨c, hc⟩ := h.decodes _ _ hne hlook
    rw [h.lookup_iff _ _ hne]
    exact ⟨p.bcast, hlook, hc.eq_of_map hpbcast ▸ hc⟩

/-- All participants have filed the same commitments. -/
lemma commitments_eq {p q : Participant curve hashToScalar threshold maxSigners ctx bcasts}
    {commitments commitments' : SortedMap UInt32 (List G₁)}
    (h : Outcome curve p.secret p.receivedBcasts p.key p.pkg commitments)
    (h' : Outcome curve q.secret q.receivedBcasts q.key q.pkg commitments') :
    commitments = commitments' := by
  obtain ⟨-, hpid, -, -⟩ := p.secret_ok
  obtain ⟨-, hqid, -, -⟩ := q.secret_ok
  refine SortedMap.ext_lookup fun id c => ?_
  by_cases hp : id = p.id
  · rw [hp, lookup_commitment p p h, lookup_commitment p q h']
  by_cases hq : id = q.id
  · rw [hq, lookup_commitment q p h, lookup_commitment q q h']
  · rw [h.lookup_iff id c (hpid.symm ▸ hp), h'.lookup_iff id c (hqid.symm ▸ hq)]
    simp only [p.lookup_received hp, q.lookup_received hq]

/-- There is one polynomial in the exponent behind the packages of all participants, of which their
signing shares are values. -/
lemma exists_group (p : Participant curve hashToScalar threshold maxSigners ctx bcasts) :
    ∃ group : List G₁, group.length = threshold.toNat ∧ 2 ≤ threshold.toNat ∧
      ∀ q : Participant curve hashToScalar threshold maxSigners ctx bcasts,
        q.pkg = p.pkg ∧ q.pkg.verifyingKey = group.headD 0 ∧ q.key.identifier = q.id ∧
        q.pkg.verifyingShares.lookup q.id = some (horner group (toScalar F q.id)) ∧
        q.key.signingShare • curve.generator = horner group (toScalar F q.id) := by
  obtain ⟨commitments, hp⟩ := p.exists_outcome
  have hown := SortedMap.lookup_eq_some_iff.mp hp.lookup_own
  obtain ⟨group, hlen, hsum, hkey, hshares⟩ := fromDkgCommitments_ok
    (List.ne_nil_of_mem (List.mem_map_of_mem hown)) hp.length hp.package
  obtain ⟨hok, -, hthreshold, -⟩ := p.secret_ok
  refine ⟨group, hthreshold ▸ hlen, hthreshold ▸ hok.two_le, fun q => ?_⟩
  obtain ⟨commitments', hq⟩ := q.exists_outcome
  obtain rfl := commitments_eq hp hq
  have hpkg : q.pkg = p.pkg := Except.ok.inj (hq.package.symm.trans hp.package)
  obtain ⟨-, hqid, -, -⟩ := q.secret_ok
  refine ⟨hpkg, hpkg ▸ hkey, hq.identifier.trans hqid, ?_, ?_⟩
  · rw [hpkg, hshares, lookup_commitment q q hq]
    rfl
  · rw [hq.signingShare, hsum, hqid]

end Participant

variable {threshold maxSigners : UInt16} {ctx : UInt8} {bcasts : SortedMap UInt32 Round1Bcast}

/-- **The key generation is consistent.**  Participants with the same round-1 broadcasts have the
same verifying key and the same verifying shares.  The signing share of each is the discrete
logarithm of its verifying share in the package of every other.  And the partial signatures of any
`threshold` of them combine to the signature with the discrete logarithm of the verifying key. -/
theorem keygen_consistent
    (p q : Participant curve hashToScalar threshold maxSigners ctx bcasts) :
    p.pkg.verifyingKey = q.pkg.verifyingKey ∧ p.pkg.verifyingShares = q.pkg.verifyingShares ∧
    q.pkg.verifyingShares.lookup p.id = some (p.key.signingShare • curve.generator) ∧
    ∀ (signers : List (Participant curve hashToScalar threshold maxSigners ctx bcasts))
      (minSigners : UInt16) (msg : Bytes) (groupSecret : F),
      (signers.map (·.id)).Nodup → threshold.toNat ≤ signers.length → 2 ≤ minSigners →
      minSigners.toNat ≤ signers.length → groupSecret • curve.generator = p.pkg.verifyingKey →
      fromPartialSignatures F minSigners
          (signers.map fun s => BlsPartialSignature.fromKeyPackage curve s.key msg) =
        .ok (groupSecret • curve.hashToG2 msg) := by
  obtain ⟨group, hlen, -, hgroup⟩ := p.exists_group
  obtain ⟨-, hkey, -, hshare, hsigning⟩ := hgroup p
  have hpkg := (hgroup q).1
  refine ⟨by rw [hpkg], by rw [hpkg], by rw [hpkg, hshare, hsigning], ?_⟩
  intro signers minSigners msg groupSecret hnodup hthreshold hmin hminLen hsecret
  obtain ⟨coeffs, rfl⟩ := curve.exists_coefficients group
  rw [List.length_map] at hlen
  -- the signing shares are values of the polynomial that the group has committed to
  have hvalue : ∀ s : Participant curve hashToScalar threshold maxSigners ctx bcasts,
      s.key.signingShare = horner coeffs (toScalar F s.id) := by
    intro s
    obtain ⟨-, -, -, -, hs⟩ := hgroup s
    exact curve.smul_generator_inj (hs.trans (horner_smul _ _ _))
  have hid : ∀ s : Participant curve hashToScalar threshold maxSigners ctx bcasts,
      s.key.identifier = s.id := fun s => (hgroup s).2.2.1
  have hconst : groupSecret = coeffs.headD 0 :=
    curve.smul_generator_inj (by rw [hsecret, hkey, headD_map_smul])
  have hxs : (signers.map fun s => toScalar F s.id).Nodup := by
    rw [← Function.comp_def, ← List.map_map]
    exact hnodup.map (toScalar_injective curve)
  rw [fromPartialSignatures_eq hmin (by rw [List.length_map]; exact hminLen)]
  · simp only [List.map_map, Function.comp_def, BlsPartialSignature.fromKeyPackage, hid, hvalue]
    have hsum := interpolate_zero_smul hxs coeffs (curve.hashToG2 msg)
      (by rw [List.length_map, hlen]; exact hthreshold)
    rw [List.map_map] at hsum
    rw [hconst, ← hsum]
    rfl
  · simpa only [List.map_map, Function.comp_def, BlsPartialSignature.fromKeyPackage, hid]
      using hnodup
  · simpa only [List.map_map, Function.comp_def, BlsPartialSignature.fromKeyPackage, hid] using hxs

/-! Two of three participants, with the polynomials `3 + 2x` and `5 + x`.  The third one sends
nothing.  The first participant finds its own broadcast among those it is given, the second does
not. -/

def lineBcast (a b : ZMod order) : Round1Bcast where
  commitments := [scalarToBytes a, scalarToBytes b]
  wi := scalarToBytes (1 + a)
  ci := scalarToBytes 1

def lineRandomness (a b : ZMod order) : Randomness (ZMod order) where
  coefficient k := if k = 0 then a else b
  nonce := 1
  nonce_ne_zero := one_ne_zero

def twoBcasts : SortedMap UInt32 Round1Bcast :=
  (SortedMap.empty.insert 1 (lineBcast 3 2)).insert 2 (lineBcast 5 1)

def shareFor (id : UInt32) (value : ZMod order) : ShamirShare := ⟨id, scalarToBytes value⟩

/-- The sum of the polynomials is `8 + 3x`. -/
def linePackage : PublicKeyPackage (ZMod order) where
  verifyingShares := (SortedMap.empty.insert 1 11).insert 2 14
  verifyingKey := 8

def firstParticipant : Participant (exponents fun _ => 1) (fun _ => 1) 2 3 0 twoBcasts where
  id := 1
  rng := lineRandomness 3 2
  bcast := lineBcast 3 2
  sentShares := (SortedMap.empty.insert 2 (shareFor 2 7)).insert 3 (shareFor 3 9)
  secret := ⟨1, 0, [3, 2], [3, 2], 2, 3⟩
  receivedBcasts := twoBcasts
  receivedShares := SortedMap.empty.insert 2 (shareFor 1 6)
  round2Bcast := ⟨scalarToBytes 8, scalarToBytes 11⟩
  key := ⟨1, 11, 11, 8, 2⟩
  pkg := linePackage
  round1_eq := by rfl
  lookup_bcasts := by rfl
  received_eq := .inl rfl
  round2_eq := by rfl

def secondParticipant : Participant (exponents fun _ => 1) (fun _ => 1) 2 3 0 twoBcasts where
  id := 2
  rng := lineRandomness 5 1
  bcast := lineBcast 5 1
  sentShares := (SortedMap.empty.insert 1 (shareFor 1 6)).insert 3 (shareFor 3 8)
  secret := ⟨2, 0, [5, 1], [5, 1], 2, 3⟩
  receivedBcasts := twoBcasts.erase 2
  receivedShares := SortedMap.empty.insert 1 (shareFor 2 7)
  round2Bcast := ⟨scalarToBytes 8, scalarToBytes 14⟩
  key := ⟨2, 14, 14, 8, 2⟩
  pkg := linePackage
  round1_eq := by rfl
  lookup_bcasts := by rfl
  received_eq := .inr rfl
  round2_eq := by rfl

theorem keygen_consistent_two_of_three :
    fromPartialSignatures (ZMod order) 2
      ([firstParticipant, secondParticipant].map fun s =>
        BlsPartialSignature.fromKeyPackage (exponents fun _ => 1) s.key []) = .ok 8 := by
  obtain ⟨-, -, -, hsign⟩ := keygen_consistent firstParticipant secondParticipant
  have h := hsign [firstParticipant, secondParticipant] 2 [] 8 (by decide) (by decide) (by decide)
    (by decide) (mul_one _)
  rw [h]
  exact congrArg Except.ok (mul_one _)

end Pluto.Frost
