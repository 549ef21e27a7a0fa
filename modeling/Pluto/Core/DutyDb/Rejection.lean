import Pluto.Core.DutyDb.Effects

/-!
# Rejected stores

A store that fails should leave every lookup as it was, apart from the evictions it has drained.
The code writes entry by entry and an attestation in four steps, and it returns at the first clash,
so this depends on what it has written by then.  If the set is refused, the condition is
`AddsNothing`: the first write of the set that is not held already is the one that is refused, and for
aggregates, which overwrite, that the last one of each root is the one that is stored.  If the set is
stored and the drain fails, it is `WashedOut`: the drain evicts what the set has added, and takes
nothing else with it.

`rejectsAtomically_iff` says this for every store that fails.  `clashing_data_served` is a rejected
attestation that is served afterwards.
-/

namespace Pluto.Core.DutyDb

open Ssz

/-- The entries that a lookup can answer with, which are those of the maps. -/
def Entry.Served {P : Payloads} : Entry P → Prop
  | .attestationKey .. | .aggregateKey .. | .contributionKey .. => False
  | _ => True

namespace State

variable {P : Payloads} {s s' : State P}

/-! ## Answers -/

/-- Every `await_*` lookup and every `pub_key_by_attestation` answers the same. -/
def SameAnswers (s s' : State P) : Prop :=
  (∀ q, s'.lookup q = s.lookup q) ∧
    ∀ slot committeeIndex validatorIndex,
      s'.pubKeyByAttestation slot committeeIndex validatorIndex =
        s.pubKeyByAttestation slot committeeIndex validatorIndex

lemma SameAnswers.refl (s : State P) : SameAnswers s s := ⟨fun _ => rfl, fun _ _ _ => rfl⟩

lemma SameAnswers.holds_iff (h : SameAnswers s s') {x : Entry P} (hx : x.Served) :
    s'.Holds x ↔ s.Holds x := by
  have hanswer := fun q => congrArg Lookup.answer? (h.1 q)
  cases x with
  | attestation key data =>
    have hkey := hanswer (.attestation key.slot key.committeeIndex)
    rw [answer?_attestation, answer?_attestation] at hkey
    exact Eq.congr_left (Option.map_injective (fun _ _ => Answer.attestation.inj) hkey)
  | pubKey key pubkey =>
    have hkey := h.2 key.slot key.committeeIndex key.validatorIndex
    simp only [pubKeyByAttestation] at hkey
    simp only [Holds]
    cases hs : s.attestationPubKeys.lookup key <;>
      cases hs' : s'.attestationPubKeys.lookup key <;> simp_all
  | proposal slot proposal =>
    have hkey := hanswer (.proposal slot)
    rw [answer?_proposal, answer?_proposal] at hkey
    exact Eq.congr_left (Option.map_injective (fun _ _ => Answer.proposal.inj) hkey)
  | aggregate key agg =>
    have hkey := hanswer (.aggAttestation key.root)
    rw [answer?_aggAttestation, answer?_aggAttestation] at hkey
    exact Eq.congr_left (Option.map_injective (fun _ _ => Answer.aggAttestation.inj) hkey)
  | contribution key contrib =>
    have hkey := hanswer (.syncContribution key.slot key.subcommitteeIndex key.root)
    rw [answer?_syncContribution, answer?_syncContribution] at hkey
    exact Eq.congr_left (Option.map_injective (fun _ _ => Answer.syncContribution.inj) hkey)
  | _ => exact hx.elim

/-- States with the same marks answer the same exactly if their maps have the same entries. -/
lemma sameAnswers_iff (hmarks : s'.marks = s.marks) :
    SameAnswers s s' ↔ ∀ x : Entry P, x.Served → (s'.Holds x ↔ s.Holds x) := by
  refine ⟨fun h x hx => h.holds_iff hx, fun h => ?_⟩
  obtain ⟨hatt, hmarks⟩ := Prod.mk.inj hmarks
  obtain ⟨hprop, hcontrib⟩ := Prod.mk.inj hmarks
  refine ⟨fun q => ?_, fun slot committeeIndex validatorIndex => ?_⟩
  · cases q with
    | proposal slot =>
      simp only [lookup, hprop, Option.ext fun v => h (.proposal slot v) trivial]
    | attestation slot committeeIndex =>
      simp only [lookup, hatt, Option.ext fun v => h (.attestation ⟨slot, committeeIndex⟩ v) trivial]
    | aggAttestation root =>
      simp only [lookup, Option.ext fun v => h (.aggregate ⟨root⟩ v) trivial]
    | syncContribution slot subcommitteeIndex root =>
      simp only [lookup, hcontrib,
        Option.ext fun v => h (.contribution ⟨slot, subcommitteeIndex, root⟩ v) trivial]
  · simp only [pubKeyByAttestation,
      Option.ext fun v => h (.pubKey ⟨slot, committeeIndex, validatorIndex⟩ v) trivial]

variable {dutyType : DutyType} {entries : List (PubKey × UnsignedDutyData P)}

/-- How a write of a data set stands is seen in the answers. -/
lemma SameAnswers.standing_eq (h : SameAnswers s s') :
    ∀ w ∈ setWrites dutyType entries, w.standing s' = w.standing s := by
  refine forall_setWrites (fun _ => rfl) ?_ ?_ ?_
  · rintro - pubkey att - w hw
    obtain ⟨committeeIndex, -, rfl | ⟨agrees, -, rfl⟩⟩ := mem_attestationWrites hw
    · simp only [attPubkeyWrite, Option.ext fun v => h.holds_iff (x := .pubKey _ v) trivial]
    · simp only [attDataWrite, Option.ext fun v => h.holds_iff (x := .attestation _ v) trivial]
  · rintro - pubkey proposal -
    simp only [proposalWrite, Option.ext fun v => h.holds_iff (x := .proposal _ v) trivial]
  · rintro - pubkey contrib -
    simp only [syncContributionWrite,
      Option.ext fun v => h.holds_iff (x := .contribution _ v) trivial]

/-! ## Refused data -/

/-- The set carries nothing that is not there, up to the entry it may be refused for. -/
def AddsNothing (s : State P) (dutyType : DutyType)
    (entries : List (PubKey × UnsignedDutyData P)) : Prop :=
  match dutyType with
  | .aggregator =>
    ∀ key agg, lastAggregate key entries = some agg → s.aggregationDuties.lookup key = some agg
  | _ => Write.firstOpen s (setWrites dutyType entries) ≠ some .vacant

lemma addsNothing_iff (h : dutyType ≠ .aggregator) :
    AddsNothing s dutyType entries ↔
      Write.firstOpen s (setWrites dutyType entries) ≠ some .vacant := by
  cases dutyType with
  | aggregator => exact absurd rfl h
  | _ => exact Iff.rfl

lemma AddsNothing.sameAnswers (h : AddsNothing s dutyType entries) :
    SameAnswers s (Attempt.exec (storeSet dutyType entries) s).2 := by
  by_cases hagg : dutyType = .aggregator
  · subst hagg
    obtain ⟨hwithout, hmarks⟩ := inserts_storeSet .aggregator entries s
    refine (sameAnswers_iff hmarks).mpr fun x _ => ?_
    by_cases htype : x.duty.dutyType = .aggregator
    · cases x with
      | aggregate key agg =>
        simp only [Holds, aggregationDuties_storeSet]
        cases hlast : lastAggregate key entries with
        | none => rfl
        | some agg' => rw [Option.some_or, h key agg' hlast]
      | aggregateKey => contradiction
      | _ => simp [Entry.duty] at htype
    · exact holds_iff_of_without hwithout htype
  · rw [storeSet_eq_writes hagg, Write.forM_unchanged ((addsNothing_iff hagg).mp h)]
    exact SameAnswers.refl s

/-- A data set leaves the answers as they were exactly when it adds nothing. -/
lemma sameAnswers_storeSet_iff :
    SameAnswers s (Attempt.exec (storeSet dutyType entries) s).2 ↔
      AddsNothing s dutyType entries := by
  refine ⟨fun hsame => ?_, AddsNothing.sameAnswers⟩
  by_cases hagg : dutyType = .aggregator
  · subst hagg
    intro key agg hlast
    refine (hsame.holds_iff (x := .aggregate key agg) trivial).mp ?_
    simp only [Holds, aggregationDuties_storeSet, hlast, Option.some_or]
  · rw [addsNothing_iff hagg]
    intro hvacant
    rw [storeSet_eq_writes hagg] at hsame
    obtain ⟨w, hw, hbefore, hafter⟩ :=
      Write.forM_changed Grows.refl Grows.trans (settles_setWrites dutyType entries) hvacant
    rw [hsame.standing_eq w hw, hbefore] at hafter
    exact absurd hafter (by simp)

/-! ## Evictions -/

lemma due_evict {duty duty' : Duty} {x : Entry P} (h : ¬ s.Due duty x) :
    (s.evict duty).Due duty' x ↔ s.Due duty' x := by
  have hattester := fun key => holds_evict s duty (.attestationKey duty'.slot key)
  have haggregator := fun key => holds_evict s duty (.aggregateKey duty'.slot key)
  have hcontribution := fun key => holds_evict s duty (.contributionKey duty'.slot key)
  simp only [Holds, Due] at hattester haggregator hcontribution
  cases x with
  | attestation key data =>
    simp only [Due, hattester] at h ⊢
    refine and_congr_right fun _ => exists_congr fun pkKey => and_congr_left fun heq => ?_
    refine and_iff_left_of_imp fun hmem hdue => h ⟨hdue.1, pkKey, ?_, heq⟩
    exact hdue.2 ▸ hmem
  | pubKey key pubkey =>
    simp only [Due, hattester] at h ⊢
    refine and_congr_right fun _ => and_iff_left_of_imp fun hmem hdue => h ⟨hdue.1, ?_⟩
    exact hdue.2 ▸ hmem
  | aggregate key agg =>
    simp only [Due, haggregator] at h ⊢
    refine and_congr_right fun _ => and_iff_left_of_imp fun hmem hdue => h ⟨hdue.1, ?_⟩
    exact hdue.2 ▸ hmem
  | contribution key contrib =>
    simp only [Due, hcontribution] at h ⊢
    refine and_congr_right fun _ => and_iff_left_of_imp fun hmem hdue => h ⟨hdue.1, ?_⟩
    exact hdue.2 ▸ hmem
  | _ => exact Iff.rfl

/-- What is left after some evictions is what none of the duties removes. -/
lemma holds_evictions (duties : List Duty) (s : State P) (x : Entry P) :
    (duties.foldl evict s).Holds x ↔ s.Holds x ∧ ∀ duty ∈ duties, ¬ s.Due duty x := by
  induction duties generalizing s with
  | nil => simp
  | cons duty duties ih =>
    rw [List.foldl_cons, ih, holds_evict, List.forall_mem_cons, and_assoc]
    refine and_congr_right fun _ => and_congr_right fun hdue => ?_
    simp only [due_evict hdue]

lemma marks_evictions (duties : List Duty) (h : s'.marks = s.marks) :
    (duties.foldl evict s').marks = (duties.foldl evict s).marks := by
  induction duties generalizing s s' with
  | nil => exact h
  | cons duty duties ih =>
    obtain ⟨hatt, hmarks⟩ := Prod.mk.inj h
    obtain ⟨hprop, hcontrib⟩ := Prod.mk.inj hmarks
    refine ih ?_
    obtain ⟨slot, dutyType⟩ := duty
    cases dutyType <;>
      simp [marks, evict, deleteDuty, hatt, hprop, hcontrib]

/-- The evictions remove all that is new, and of what was held they take away what they would have
taken before. -/
structure WashedOut (s s₁ : State P) (duties : List Duty) : Prop where
  added : ∀ x : Entry P, x.Served → s₁.Holds x → ¬ s.Holds x → ∃ duty ∈ duties, s₁.Due duty x
  kept : ∀ x : Entry P, x.Served → s.Holds x →
    (s₁.Holds x ∧ (∀ duty ∈ duties, ¬ s₁.Due duty x) ↔ ∀ duty ∈ duties, ¬ s.Due duty x)

lemma sameAnswers_evictions_iff {s₁ : State P} {duties : List Duty} (h : s₁.marks = s.marks) :
    SameAnswers (duties.foldl evict s) (duties.foldl evict s₁) ↔ WashedOut s s₁ duties := by
  rw [sameAnswers_iff (marks_evictions duties h)]
  simp only [holds_evictions]
  constructor
  · refine fun hsame => ⟨fun x hx hnew hold => ?_, fun x hx hold => ?_⟩
    · by_contra hleft
      push Not at hleft
      exact hold ((hsame x hx).mp ⟨hnew, hleft⟩).1
    · rw [hsame x hx]
      exact and_iff_right hold
  · intro hwashed x hx
    by_cases hold : s.Holds x
    · rw [hwashed.kept x hx hold]
      exact (and_iff_right hold).symm
    · refine iff_of_false (fun hleft => ?_) fun hleft => hold hleft.1
      obtain ⟨duty, hduty, hdue⟩ := hwashed.added x hx hleft.1 hold
      exact hleft.2 duty hduty hdue

/-! ## Rejected stores -/

variable {outcome : Deadline.AddOutcome} {duty : Duty}
  {entries : List (PubKey × UnsignedDutyData P)} {expired : List Duty}

/-- The evictions that a call has drained: none unless the data was stored, and then those before
the first duty that cannot be deleted. -/
def drained (s : State P) (outcome : Deadline.AddOutcome) (duty : Duty)
    (entries : List (PubKey × UnsignedDutyData P)) (expired : List Duty) : List Duty :=
  match scheduled outcome, (Attempt.exec (storeSet duty.dutyType entries) s).1 with
  | .ok (), .ok () => expired.takeWhile deletable
  | _, _ => []

lemma drained_of_error {e : Error} {s₁ : State P}
    (h : Attempt.exec (storeSet duty.dutyType entries) s = (.error e, s₁)) :
    drained s outcome duty entries expired = [] := by
  rw [drained, h]
  cases scheduled outcome <;> rfl

lemma drained_of_ok {s₁ : State P} (haccepted : Accepted outcome duty)
    (h : Attempt.exec (storeSet duty.dutyType entries) s = (.ok (), s₁)) :
    drained s outcome duty entries expired = expired.takeWhile deletable := by
  rw [drained, h, haccepted.2]
  rfl

lemma drained_of_not_accepted (h : ¬ Accepted outcome duty) :
    drained s outcome duty entries expired = [] := by
  by_cases htype : duty.dutyType = .builderProposer
  · have hset : Attempt.exec (storeSet duty.dutyType entries) s =
        (.error .unsupportedDutyType, s) := by
      rw [htype]
      rfl
    exact drained_of_error hset
  · cases outcome with
    | scheduled => exact absurd ⟨htype, rfl⟩ h
    | _ => rfl

/-- What a store that fails must not have changed: nothing before the data is looked at, and then it
depends on whether the data was refused, or stored before the drain failed. -/
def Traceless (s : State P) (outcome : Deadline.AddOutcome) (duty : Duty)
    (entries : List (PubKey × UnsignedDutyData P)) (expired : List Duty) : Prop :=
  Accepted outcome duty →
    match Attempt.exec (storeSet duty.dutyType entries) s with
    | (.error _, _) => AddsNothing s duty.dutyType entries
    | (.ok (), s₁) => WashedOut s s₁ (expired.takeWhile deletable)

/-- **Rejection.**  A store that fails leaves every answer as it was, apart from the drained evictions,
exactly if the duty was not accepted, or the data was refused and adds nothing up to the entry it is
refused for, or the data was stored and is washed out by the drain that fails. -/
theorem rejectsAtomically_iff {e : Error}
    (h : Attempt.exec (store outcome duty entries expired) s = (.error e, s')) :
    SameAnswers ((drained s outcome duty entries expired).foldl evict s) s' ↔
      Traceless s outcome duty entries expired := by
  by_cases haccepted : Accepted outcome duty
  · have htraceless : Traceless s outcome duty entries expired ↔ _ := forall_prop_of_true haccepted
    rw [store_accepted haccepted] at h
    rw [htraceless]
    rcases Attempt.exec_bind_eq_error.mp h with hset | ⟨⟨⟩, s₁, hset, hdrain⟩
    · rw [drained_of_error hset, hset, ← sameAnswers_storeSet_iff, hset]
      rfl
    · have hmarks := (inserts_storeSet duty.dutyType entries s).2
      have hlast := exec_drain expired s₁
      rw [hset] at hmarks
      rw [hdrain] at hlast
      obtain rfl : s' = (expired.takeWhile deletable).foldl evict s₁ := hlast
      rw [drained_of_ok haccepted hset, hset]
      exact sameAnswers_evictions_iff hmarks
  · obtain ⟨e', herror⟩ := store_not_accepted haccepted entries expired s
    obtain rfl : s = s' := congrArg Prod.snd (herror.symm.trans h)
    rw [drained_of_not_accepted haccepted]
    exact iff_of_true (SameAnswers.refl s) fun h => absurd h haccepted

end State

/-! ## A rejected attestation that is served -/

namespace Clash

/-- The public key of the validator with an index. -/
def pubkey (validatorIndex : UInt64) : PubKey :=
  ⟨List.replicate 48 validatorIndex.toUInt8, by simp⟩

def data (source : UInt64) : AttestationData :=
  ⟨5, 0, .zero, ⟨source, .zero⟩, ⟨2, .zero⟩⟩

/-- The entry of a validator of slot 5 in a committee, with a source epoch. -/
def entry (validatorIndex committeeIndex source : UInt64) : PubKey × UnsignedDutyData .plain :=
  (pubkey validatorIndex, .attestation ⟨data source, ⟨5, validatorIndex, committeeIndex⟩⟩)

def duty : Duty := ⟨5, .attester⟩

/-- Validator 1 of committee 2 has stored its attestation, which is also there for committee 0. -/
def stored : State .plain :=
  (Attempt.exec (State.store .scheduled duty [entry 1 2 0] []) (State.empty .plain)).2

end Clash

open Clash in
/-- Validator 3 of committee 1 comes with another source.  The store is refused for the clash at
committee index 0, after the data has been written for committee 1, where it is served. -/
theorem clashing_data_served :
    (Attempt.exec (State.store .scheduled duty [entry 1 2 0] []) (State.empty .plain)).1 = .ok () ∧
    (Attempt.exec (State.store .scheduled duty [entry 3 1 1] []) stored).1 =
      .error (.clashingAttestationData 5 0) ∧
    State.drained stored .scheduled duty [entry 3 1 1] [] = [] ∧
    stored.lookup (.attestation 5 1) = .pending ∧
    (Attempt.exec (State.store .scheduled duty [entry 3 1 1] []) stored).2.lookup
      (.attestation 5 1) = .found (.attestation (data 1)) :=
  ⟨by rfl, by rfl, by rfl, by rfl, by rfl⟩

open Clash in
/-- Validator 1 coming with another source is refused at once, and the answers stay. -/
theorem rejectsAtomically_same_committee :
    Attempt.exec (State.store .scheduled duty [entry 1 2 1] []) stored =
        (.error (.clashingAttestationData 5 2), stored) ∧
      State.SameAnswers
        ((State.drained stored .scheduled duty [entry 1 2 1] []).foldl State.evict stored) stored := by
  have hstore : Attempt.exec (State.store .scheduled duty [entry 1 2 1] []) stored =
      (.error (.clashingAttestationData 5 2), stored) := by rfl
  have hadds : State.AddsNothing stored .attester [entry 1 2 1] := by
    show Write.firstOpen stored (State.setWrites .attester [entry 1 2 1]) ≠ some .vacant
    decide
  exact ⟨hstore, (State.rejectsAtomically_iff hstore).mpr fun _ => hadds⟩

end Pluto.Core.DutyDb
