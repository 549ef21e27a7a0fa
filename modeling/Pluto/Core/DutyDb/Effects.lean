import Pluto.Core.DutyDb.Memory

/-!
# What a store and an eviction change

A store of a duty writes to the maps of its duty type and nowhere else, and so does an eviction
(`inserts_storeSet`, `without_evict`).

Apart from the aggregates, a data set is a sequence of writes that keep the first value
(`storeSet_eq_writes`), so what `Lib.FirstWrite` says about such sequences holds for it, with
`Grows` as the relation that a store moves the state along.  An aggregate overwrites what is there:
`aggregationDuties_storeSet` says what a set of them leaves behind.
-/

namespace Pluto.Core.DutyDb

open HashMap (lookup_eraseAll_eq_some mem_listAt_erase)
open Ssz

variable {P : Payloads}

/-- The duty type whose notification a query waits for. -/
def Query.dutyType : Query → DutyType
  | .proposal _ => .proposer
  | .attestation _ _ => .attester
  | .aggAttestation _ => .aggregator
  | .syncContribution _ _ _ => .syncContribution

/-- The answer of a lookup that has found one. -/
def Lookup.answer? : Lookup P → Option (Answer P)
  | .found answer => some answer
  | _ => none

@[simp] lemma Lookup.answer?_found (answer : Answer P) :
    (Lookup.found answer).answer? = some answer := rfl

@[simp] lemma Lookup.answer?_pending : (Lookup.pending : Lookup P).answer? = none := rfl

namespace State

variable {s s' : State P}

/-! ## Answers -/

@[simp] lemma answer?_absent (mark : Option UInt64) (slot : UInt64) :
    (absent (P := P) mark slot).answer? = none := by
  rw [absent]
  split <;> rfl

lemma answer?_proposal (s : State P) (slot : UInt64) :
    (s.lookup (.proposal slot)).answer? = (s.proposerDuties.lookup slot).map .proposal := by
  cases h : s.proposerDuties.lookup slot with
  | none => simp [lookup, h]
  | some v => simp [lookup, h]

lemma answer?_attestation (s : State P) (slot committeeIndex : UInt64) :
    (s.lookup (.attestation slot committeeIndex)).answer? =
      (s.attestationDuties.lookup ⟨slot, committeeIndex⟩).map .attestation := by
  cases h : s.attestationDuties.lookup ⟨slot, committeeIndex⟩ with
  | none => simp [lookup, h]
  | some v => simp [lookup, h]

lemma answer?_aggAttestation (s : State P) (root : HashRoot) :
    (s.lookup (.aggAttestation root)).answer? =
      (s.aggregationDuties.lookup ⟨root⟩).map .aggAttestation := by
  cases h : s.aggregationDuties.lookup ⟨root⟩ with
  | none => simp [lookup, h]
  | some v => simp [lookup, h]

lemma answer?_syncContribution (s : State P) (slot subcommitteeIndex : UInt64) (root : HashRoot) :
    (s.lookup (.syncContribution slot subcommitteeIndex root)).answer? =
      (s.contribDuties.lookup ⟨slot, subcommitteeIndex, root⟩).map .syncContribution := by
  cases h : s.contribDuties.lookup ⟨slot, subcommitteeIndex, root⟩ with
  | none => simp [lookup, h]
  | some v => simp [lookup, h]

/-! ## The writes of a data set -/

/-- The public key and the data of an attestation, under a committee index. -/
def committeeWrites (pubkey : PubKey) (att : UnsignedAttestation) (committeeIndex : UInt64)
    (agrees : AttestationData → AttestationData → Bool) : List (Write Error (State P)) :=
  [attPubkeyWrite att.duty.slot ⟨att.data.slot, committeeIndex, att.duty.validatorIndex⟩ pubkey,
    attDataWrite ⟨att.data.slot, committeeIndex⟩ agrees att.data]

def attestationWrites (pubkey : PubKey) (att : UnsignedAttestation) :
    List (Write Error (State P)) :=
  committeeWrites pubkey att att.duty.committeeIndex agreesFully ++
    committeeWrites pubkey att 0 agreesOnCheckpoints

/-- The writes of an entry; data of another kind is refused. -/
def entryWrites (dutyType : DutyType) (entry : PubKey × UnsignedDutyData P) :
    List (Write Error (State P)) :=
  match dutyType, entry.2 with
  | .attester, .attestation att => attestationWrites entry.1 att
  | .attester, _ => [.refuse .invalidAttestationData]
  | .syncContribution, .syncContribution contrib => [syncContributionWrite contrib]
  | .syncContribution, _ => [.refuse .invalidSyncContribution]
  | .proposer, .proposal proposal => [proposalWrite proposal]
  | .proposer, _ => [.refuse .invalidVersionedProposal]
  | _, _ => []

/-- The writes of a data set, aggregates apart. -/
def setWrites (dutyType : DutyType) (entries : List (PubKey × UnsignedDutyData P)) :
    List (Write Error (State P)) :=
  match dutyType with
  | .proposer =>
    if entries.length > 1 then [.refuse .unexpectedProposerSetLength]
    else entries.flatMap (entryWrites .proposer)
  | .attester | .syncContribution => entries.flatMap (entryWrites dutyType)
  | _ => [.refuse .unsupportedDutyType]

lemma storeAttestation_eq (pubkey : PubKey) (att : UnsignedAttestation) :
    storeAttestation (P := P) pubkey att = (attestationWrites pubkey att).forM Write.run := by
  have hlast : storeAttDataCommidx0 (P := P) att.data.slot att.data =
      [attDataWrite ⟨att.data.slot, 0⟩ agreesOnCheckpoints att.data].forM Write.run :=
    (Write.forM_single _).symm
  simp only [storeAttestation, hlast]
  rfl

variable {dutyType : DutyType}

lemma storeEntry_eq (entry : PubKey × UnsignedDutyData P)
    (h : dutyType = .attester ∨ dutyType = .syncContribution ∨ dutyType = .proposer) :
    storeEntry dutyType entry = (entryWrites dutyType entry).forM Write.run := by
  obtain ⟨pubkey, data⟩ := entry
  rcases h with rfl | rfl | rfl
  · cases data with
    | attestation att => exact storeAttestation_eq pubkey att
    | _ => exact (Write.forM_refuse _).symm
  · cases data with
    | syncContribution contrib => exact (Write.forM_single _).symm
    | _ => exact (Write.forM_refuse _).symm
  · cases data with
    | proposal proposal => exact (Write.forM_single _).symm
    | _ => exact (Write.forM_refuse _).symm

/-- A data set is the sequence of its writes. -/
lemma storeSet_eq_writes (h : dutyType ≠ .aggregator)
    (entries : List (PubKey × UnsignedDutyData P)) :
    storeSet dutyType entries = (setWrites dutyType entries).forM Write.run := by
  have hloop : ∀ ty : DutyType, ty = .attester ∨ ty = .syncContribution ∨ ty = .proposer →
      entries.forM (storeEntry ty) = (entries.flatMap (entryWrites ty)).forM Write.run := by
    intro ty hty
    rw [Write.forM_flatMap]
    exact congrArg _ (funext fun entry => storeEntry_eq entry hty)
  cases dutyType with
  | aggregator => exact absurd rfl h
  | attester => exact hloop .attester (by simp)
  | syncContribution => exact hloop .syncContribution (by simp)
  | proposer =>
    simp only [storeSet, setWrites]
    by_cases hlen : entries.length > 1
    · rw [if_pos hlen, if_pos hlen, Write.forM_refuse]
    · rw [if_neg hlen, if_neg hlen]
      exact hloop .proposer (by simp)
  | _ => exact (Write.forM_refuse _).symm

/-- What holds of the writes of every datum, and of a refusal, holds of the writes of a set. -/
lemma forall_setWrites {entries : List (PubKey × UnsignedDutyData P)}
    {p : Write Error (State P) → Prop} (hrefuse : ∀ e, p (.refuse e))
    (hattestation : dutyType = .attester → ∀ pubkey att, (pubkey, .attestation att) ∈ entries →
      ∀ w ∈ attestationWrites pubkey att, p w)
    (hproposal : dutyType = .proposer → ∀ pubkey proposal,
      (pubkey, .proposal proposal) ∈ entries → p (proposalWrite proposal))
    (hcontribution : dutyType = .syncContribution → ∀ pubkey contrib,
      (pubkey, .syncContribution contrib) ∈ entries → p (syncContributionWrite contrib)) :
    ∀ w ∈ setWrites dutyType entries, p w := by
  have hrefused : ∀ e, ∀ w ∈ [Write.refuse e], p w := by
    intro e w hw
    rw [List.mem_singleton.mp hw]
    exact hrefuse e
  have hentries : ∀ w ∈ entries.flatMap (entryWrites dutyType), p w := by
    intro w hw
    obtain ⟨⟨pubkey, data⟩, hmem, hw⟩ := List.mem_flatMap.mp hw
    cases dutyType with
    | attester =>
      cases data with
      | attestation att => exact hattestation rfl pubkey att hmem w hw
      | _ => exact hrefused _ w hw
    | proposer =>
      cases data with
      | proposal proposal =>
        rw [List.mem_singleton.mp hw]
        exact hproposal rfl pubkey proposal hmem
      | _ => exact hrefused _ w hw
    | syncContribution =>
      cases data with
      | syncContribution contrib =>
        rw [List.mem_singleton.mp hw]
        exact hcontribution rfl pubkey contrib hmem
      | _ => exact hrefused _ w hw
    | _ => exact absurd hw List.not_mem_nil
  cases dutyType with
  | attester => exact hentries
  | syncContribution => exact hentries
  | proposer =>
    simp only [setWrites]
    by_cases hlen : entries.length > 1
    · rw [if_pos hlen]
      exact hrefused _
    · rw [if_neg hlen]
      exact hentries
  | _ => exact hrefused _

/-- The four writes of an attestation: two of its public key, two of its data. -/
lemma mem_attestationWrites {pubkey : PubKey} {att : UnsignedAttestation}
    {w : Write Error (State P)} (h : w ∈ attestationWrites pubkey att) :
    ∃ committeeIndex, (committeeIndex = att.duty.committeeIndex ∨ committeeIndex = 0) ∧
      (w = attPubkeyWrite att.duty.slot
          ⟨att.data.slot, committeeIndex, att.duty.validatorIndex⟩ pubkey ∨
        ∃ agrees, agrees att.data att.data = true ∧
          w = attDataWrite ⟨att.data.slot, committeeIndex⟩ agrees att.data) := by
  simp only [attestationWrites, committeeWrites, List.cons_append, List.nil_append, List.mem_cons,
    List.not_mem_nil, or_false] at h
  rcases h with rfl | rfl | rfl | rfl
  · exact ⟨_, .inl rfl, .inl rfl⟩
  · exact ⟨_, .inl rfl, .inr ⟨_, by simp [agreesFully], rfl⟩⟩
  · exact ⟨_, .inr rfl, .inl rfl⟩
  · exact ⟨_, .inr rfl, .inr ⟨_, by simp [agreesOnCheckpoints], rfl⟩⟩

/-! ## Growth -/

/-- Apart from the aggregates, everything that was there is still there. -/
structure Grows (s s' : State P) : Prop where
  attestations : s.attestationDuties.Extends s'.attestationDuties
  pubKeys : s.attestationPubKeys.Extends s'.attestationPubKeys
  proposals : s.proposerDuties.Extends s'.proposerDuties
  contributions : s.contribDuties.Extends s'.contribDuties

lemma Grows.refl (s : State P) : Grows s s :=
  ⟨HashMap.Extends.refl _, HashMap.Extends.refl _, HashMap.Extends.refl _, HashMap.Extends.refl _⟩

lemma Grows.trans (s₁ s₂ s₃ : State P) (h : Grows s₁ s₂) (h' : Grows s₂ s₃) : Grows s₁ s₃ :=
  ⟨h.attestations.trans h'.attestations, h.pubKeys.trans h'.pubKeys,
    h.proposals.trans h'.proposals, h.contributions.trans h'.contributions⟩

lemma settles_proposalWrite (proposal : P.Proposal) :
    Write.Settles Grows (proposalWrite proposal) := by
  refine Write.settles_of_look (fun _ => rfl) (fun s => AList.lookup_insert _) (by simp) ?_
    fun s s' b hgrows => hgrows.proposals _ b
  intro s hvacant
  exact { Grows.refl s with proposals := HashMap.extends_insert _ hvacant }

lemma settles_attPubkeyWrite (dutySlot : UInt64) (key : PkKey) (pubkey : PubKey) :
    Write.Settles Grows (attPubkeyWrite (P := P) dutySlot key pubkey) := by
  refine Write.settles_of_look (fun _ => rfl) (fun s => AList.lookup_insert _) (by simp) ?_
    fun s s' b hgrows => hgrows.pubKeys _ b
  intro s hvacant
  exact { Grows.refl s with pubKeys := HashMap.extends_insert _ hvacant }

lemma settles_attDataWrite (key : AttKey) {agrees : AttestationData → AttestationData → Bool}
    {data : AttestationData} (h : agrees data data = true) :
    Write.Settles Grows (attDataWrite (P := P) key agrees data) := by
  refine Write.settles_of_look (fun _ => rfl) (fun s => AList.lookup_insert _) h ?_
    fun s s' b hgrows => hgrows.attestations _ b
  intro s hvacant
  exact { Grows.refl s with attestations := HashMap.extends_insert _ hvacant }

lemma settles_syncContributionWrite (contrib : SyncCommitteeContribution) :
    Write.Settles Grows (syncContributionWrite (P := P) contrib) := by
  refine Write.settles_of_look (fun _ => rfl) (fun s => AList.lookup_insert _) (by simp) ?_
    fun s s' b hgrows => hgrows.contributions _ b
  intro s hvacant
  exact { Grows.refl s with contributions := HashMap.extends_insert _ hvacant }

lemma settles_attestationWrites (pubkey : PubKey) (att : UnsignedAttestation) :
    ∀ w ∈ attestationWrites (P := P) pubkey att, Write.Settles Grows w := by
  intro w hw
  obtain ⟨committeeIndex, _, rfl | ⟨agrees, hagrees, rfl⟩⟩ := mem_attestationWrites hw
  · exact settles_attPubkeyWrite _ _ _
  · exact settles_attDataWrite _ hagrees

lemma settles_setWrites (dutyType : DutyType) (entries : List (PubKey × UnsignedDutyData P)) :
    ∀ w ∈ setWrites dutyType entries, Write.Settles Grows w :=
  forall_setWrites Write.settles_refuse (fun _ pubkey att _ => settles_attestationWrites pubkey att)
    (fun _ _ proposal _ => settles_proposalWrite proposal)
    fun _ _ contrib _ => settles_syncContributionWrite contrib

/-! ## Aggregates -/

/-- The data of an entry that is an aggregate with data. -/
def aggregate? : UnsignedDutyData P → Option (AttestationData × P.Attestation)
  | .aggAttestation agg => (P.data agg).map fun data => (data, agg)
  | _ => none

/-- The last aggregate that a set carries for a root, before the first entry that is refused. -/
def lastAggregate (key : AggKey) : List (PubKey × UnsignedDutyData P) → Option P.Attestation
  | [] => none
  | entry :: entries =>
    match aggregate? entry.2 with
    | none => none
    | some (data, agg) =>
      (lastAggregate key entries).or (if (⟨P.dataRoot data⟩ : AggKey) = key then some agg else none)

lemma storeEntry_aggregator (entry : PubKey × UnsignedDutyData P) (s : State P) :
    Attempt.exec (storeEntry .aggregator entry) s =
      match aggregate? entry.2 with
      | none => (.error .invalidAggregatedAttestation, s)
      | some (data, agg) => (.ok (), insertAggregate data agg s) := by
  obtain ⟨pubkey, data⟩ := entry
  cases data with
  | aggAttestation agg =>
    simp only [storeEntry, storeAggAttestation, aggregate?]
    cases P.data agg <;> simp
  | _ => rfl

/-- What a set of aggregates leaves under a root, whether or not it is refused. -/
lemma aggregationDuties_storeSet (entries : List (PubKey × UnsignedDutyData P)) (s : State P)
    (key : AggKey) :
    (Attempt.exec (storeSet .aggregator entries) s).2.aggregationDuties.lookup key =
      (lastAggregate key entries).or (s.aggregationDuties.lookup key) := by
  show (Attempt.exec (entries.forM (storeEntry .aggregator)) s).2.aggregationDuties.lookup key = _
  induction entries generalizing s with
  | nil => rfl
  | cons entry entries ih =>
    have hentry := storeEntry_aggregator entry s
    rcases hagg : aggregate? entry.2 with _ | ⟨data, agg⟩
    · rw [hagg] at hentry
      rw [Attempt.exec_forM_cons_error hentry]
      simp [lastAggregate, hagg]
    · rw [hagg] at hentry
      rw [Attempt.exec_forM_cons_ok hentry, ih]
      by_cases hkey : (⟨P.dataRoot data⟩ : AggKey) = key
      · simp [lastAggregate, hagg, hkey, insertAggregate]
      · have hother : (s.aggregationDuties.insert ⟨P.dataRoot data⟩ agg).lookup key =
            s.aggregationDuties.lookup key := AList.lookup_insert_ne (Ne.symm hkey)
        simp [lastAggregate, hagg, hkey, insertAggregate, hother]

/-! ## Frames -/

/-- Everything but what belongs to a duty type. -/
def without (dutyType : DutyType) (s : State P) : State P :=
  match dutyType with
  | .proposer => { s with proposerDuties := ∅, maxEvictedProposerSlot := none }
  | .attester =>
    { s with
      attestationDuties := ∅
      attestationPubKeys := ∅
      attestationKeysBySlot := ∅
      maxEvictedAttestationSlot := none }
  | .aggregator => { s with aggregationDuties := ∅, aggregationKeysBySlot := ∅ }
  | .syncContribution =>
    { s with contribDuties := ∅, contribKeysBySlot := ∅, maxEvictedContribSlot := none }
  | _ => s

/-- The eviction marks. -/
def marks (s : State P) : Option UInt64 × Option UInt64 × Option UInt64 :=
  (s.maxEvictedAttestationSlot, s.maxEvictedProposerSlot, s.maxEvictedContribSlot)

/-- What an insertion of a duty type leaves alone: all that belongs to the other duty types, and the
eviction marks. -/
def Inserts (dutyType : DutyType) (s s' : State P) : Prop :=
  s'.without dutyType = s.without dutyType ∧ s'.marks = s.marks

lemma Inserts.refl (dutyType : DutyType) (s : State P) : Inserts dutyType s s := ⟨rfl, rfl⟩

lemma Inserts.trans (dutyType : DutyType) (s₁ s₂ s₃ : State P) (h : Inserts dutyType s₁ s₂)
    (h' : Inserts dutyType s₂ s₃) : Inserts dutyType s₁ s₃ :=
  ⟨h'.1.trans h.1, h'.2.trans h.2⟩

lemma lookup_without {q : Query} (h : q.dutyType ≠ dutyType) (s : State P) :
    (s.without dutyType).lookup q = s.lookup q := by
  cases q <;> cases dutyType <;> first | rfl | exact absurd rfl h

/-- A query of another duty type gets the same answer. -/
lemma lookup_eq_of_without (hsame : s'.without dutyType = s.without dutyType)
    {q : Query} (h : q.dutyType ≠ dutyType) : s'.lookup q = s.lookup q := by
  rw [← lookup_without h s', ← lookup_without h s, hsame]

/-- A store writes to what belongs to its duty type only, and moves no mark. -/
lemma inserts_storeSet (dutyType : DutyType) (entries : List (PubKey × UnsignedDutyData P)) :
    Attempt.Keeps (Inserts dutyType) (storeSet dutyType entries) := by
  by_cases hagg : dutyType = .aggregator
  · subst hagg
    refine Attempt.Keeps.forM (Inserts.refl _) (Inserts.trans _) ?_
    intro entry _ s
    rw [storeEntry_aggregator]
    rcases aggregate? entry.2 with _ | ⟨data, agg⟩
    · exact Inserts.refl _ s
    · exact ⟨rfl, rfl⟩
  · have hinsert : ∀ w ∈ setWrites dutyType entries, ∀ s, Inserts dutyType s (w.insert s) := by
      refine forall_setWrites (fun _ => Inserts.refl _) ?_ ?_ ?_
      · rintro rfl pubkey att _ w hw s
        obtain ⟨_, _, rfl | ⟨_, _, rfl⟩⟩ := mem_attestationWrites hw <;> exact ⟨rfl, rfl⟩
      · rintro rfl _ _ _ s
        exact ⟨rfl, rfl⟩
      · rintro rfl _ _ _ s
        exact ⟨rfl, rfl⟩
    rw [storeSet_eq_writes hagg]
    exact Attempt.Keeps.forM (Inserts.refl _) (Inserts.trans _)
      fun w hw => Write.keeps_run (Inserts.refl _) fun s _ => hinsert w hw s

/-! ## Evictions, and the whole of a store -/

/-- The duty types that `delete_duty` knows. -/
def deletable (duty : Duty) : Bool :=
  match duty.dutyType with
  | .proposer | .attester | .aggregator | .syncContribution => true
  | _ => false

/-- The state an eviction leaves. -/
def evict (s : State P) (duty : Duty) : State P := (Attempt.exec (deleteDuty duty) s).2

lemma deleteDuty_ok {duty : Duty} (h : deletable duty = true) (s : State P) :
    Attempt.exec (deleteDuty duty) s = (.ok (), s.evict duty) := by
  obtain ⟨slot, dutyType⟩ := duty
  cases dutyType <;> first | rfl | simp [deletable] at h

lemma deleteDuty_error {duty : Duty} (h : deletable duty = false) (s : State P) :
    ∃ e, Attempt.exec (deleteDuty duty) s = (.error e, s) := by
  obtain ⟨slot, dutyType⟩ := duty
  cases dutyType <;> first | exact ⟨_, rfl⟩ | simp [deletable] at h

/-- An eviction removes what belongs to its duty type only. -/
lemma without_evict (duty : Duty) (s : State P) :
    (s.evict duty).without duty.dutyType = s.without duty.dutyType := by
  obtain ⟨slot, dutyType⟩ := duty
  cases dutyType <;> rfl

/-- The drain stops at the first duty it cannot delete. -/
lemma exec_drain (expired : List Duty) (s : State P) :
    (Attempt.exec (expired.forM deleteDuty) s).2 =
      (expired.takeWhile deletable).foldl evict s := by
  induction expired generalizing s with
  | nil => rfl
  | cons duty expired ih =>
    cases h : deletable duty with
    | true =>
      rw [Attempt.exec_forM_cons_ok (deleteDuty_ok h s), ih, List.takeWhile_cons_of_pos h]
      rfl
    | false =>
      obtain ⟨e, herror⟩ := deleteDuty_error h s
      rw [Attempt.exec_forM_cons_error herror, List.takeWhile_cons_of_neg (by simp [h])]
      rfl

/-- What `store` requires of a duty before it looks at the data. -/
def Accepted (outcome : Deadline.AddOutcome) (duty : Duty) : Prop :=
  duty.dutyType ≠ .builderProposer ∧ outcome = .scheduled

variable {outcome : Deadline.AddOutcome} {duty : Duty}
  {entries : List (PubKey × UnsignedDutyData P)} {expired : List Duty}

lemma store_accepted (h : Accepted outcome duty) :
    Attempt.exec (store outcome duty entries expired) s =
      Attempt.exec (storeSet duty.dutyType entries >>= fun _ => expired.forM deleteDuty) s := by
  obtain ⟨htype, rfl⟩ := h
  rw [store, if_neg htype]
  rfl

lemma store_not_accepted (h : ¬ Accepted outcome duty)
    (entries : List (PubKey × UnsignedDutyData P)) (expired : List Duty) (s : State P) :
    ∃ e, Attempt.exec (store outcome duty entries expired) s = (.error e, s) := by
  by_cases htype : duty.dutyType = .builderProposer
  · rw [store, if_pos htype]
    exact ⟨_, rfl⟩
  · rw [store, if_neg htype]
    cases outcome with
    | scheduled => exact absurd ⟨htype, rfl⟩ h
    | _ => exact ⟨_, rfl⟩

end State

/-! ## Entries -/

/-- An entry of one of the maps, or of one of the indexes by slot. -/
inductive Entry (P : Payloads)
  | attestation (key : AttKey) (data : AttestationData)
  | pubKey (key : PkKey) (pubkey : PubKey)
  | proposal (slot : UInt64) (proposal : P.Proposal)
  | aggregate (key : AggKey) (agg : P.Attestation)
  | contribution (key : ContribKey) (contrib : SyncCommitteeContribution)
  | attestationKey (slot : UInt64) (key : PkKey)
  | aggregateKey (slot : UInt64) (key : AggKey)
  | contributionKey (slot : UInt64) (key : ContribKey)

/-- The duty an entry belongs to, by the slot it is filed under. -/
def Entry.duty : Entry P → Duty
  | .attestation key _ => ⟨key.slot, .attester⟩
  | .pubKey key _ => ⟨key.slot, .attester⟩
  | .proposal slot _ => ⟨slot, .proposer⟩
  | .aggregate _ agg => ⟨(P.data agg).elim 0 AttestationData.slot, .aggregator⟩
  | .contribution key _ => ⟨key.slot, .syncContribution⟩
  | .attestationKey slot _ => ⟨slot, .attester⟩
  | .aggregateKey slot _ => ⟨slot, .aggregator⟩
  | .contributionKey slot _ => ⟨slot, .syncContribution⟩

namespace State

variable {s s' : State P} {duty : Duty} {x : Entry P}

def Holds (s : State P) : Entry P → Prop
  | .attestation key data => s.attestationDuties.lookup key = some data
  | .pubKey key pubkey => s.attestationPubKeys.lookup key = some pubkey
  | .proposal slot proposal => s.proposerDuties.lookup slot = some proposal
  | .aggregate key agg => s.aggregationDuties.lookup key = some agg
  | .contribution key contrib => s.contribDuties.lookup key = some contrib
  | .attestationKey slot key => key ∈ s.attestationKeysBySlot.listAt slot
  | .aggregateKey slot key => key ∈ s.aggregationKeysBySlot.listAt slot
  | .contributionKey slot key => key ∈ s.contribKeysBySlot.listAt slot

lemma holds_without {dutyType : DutyType} (h : x.duty.dutyType ≠ dutyType)
    (s : State P) : (s.without dutyType).Holds x ↔ s.Holds x := by
  cases x <;> cases dutyType <;> first | exact Iff.rfl | exact absurd rfl h

lemma holds_iff_of_without {dutyType : DutyType} (hsame : s'.without dutyType = s.without dutyType)
    (h : x.duty.dutyType ≠ dutyType) : s'.Holds x ↔ s.Holds x := by
  rw [← holds_without h s', ← holds_without h s, hsame]

/-- What the eviction of a duty removes: what the index has for its slot, and the index itself. -/
def Due (s : State P) (duty : Duty) : Entry P → Prop
  | .attestation key _ => duty.dutyType = .attester ∧
    ∃ pkKey, pkKey ∈ s.attestationKeysBySlot.listAt duty.slot ∧ pkKey.attKey = key
  | .pubKey key _ => duty.dutyType = .attester ∧ key ∈ s.attestationKeysBySlot.listAt duty.slot
  | .aggregate key _ => duty.dutyType = .aggregator ∧ key ∈ s.aggregationKeysBySlot.listAt duty.slot
  | .contribution key _ =>
    duty.dutyType = .syncContribution ∧ key ∈ s.contribKeysBySlot.listAt duty.slot
  | .proposal slot _ => duty.dutyType = .proposer ∧ slot = duty.slot
  | .attestationKey slot _ => duty.dutyType = .attester ∧ slot = duty.slot
  | .aggregateKey slot _ => duty.dutyType = .aggregator ∧ slot = duty.slot
  | .contributionKey slot _ => duty.dutyType = .syncContribution ∧ slot = duty.slot

lemma Due.dutyType_eq (h : s.Due duty x) : x.duty.dutyType = duty.dutyType := by
  cases x <;> exact h.1.symm

lemma holds_evict (s : State P) (duty : Duty) (x : Entry P) :
    (s.evict duty).Holds x ↔ s.Holds x ∧ ¬ s.Due duty x := by
  by_cases htype : x.duty.dutyType = duty.dutyType
  · obtain ⟨slot, dutyType⟩ := duty
    cases x with
    | attestation key v | pubKey key v | aggregate key v | contribution key v =>
      obtain rfl : _ = dutyType := htype
      show (HashMap.eraseAll _ _).lookup key = some v ↔ _
      rw [lookup_eraseAll_eq_some]
      simp [Holds, Due, Entry.duty]
    | proposal slot' proposal =>
      obtain rfl : .proposer = dutyType := htype
      show (s.proposerDuties.erase slot).lookup slot' = some proposal ↔ _
      by_cases hslot : slot' = slot
      · subst hslot
        simp [Due]
      · simp [Holds, Due, hslot, AList.lookup_erase_ne hslot]
    | attestationKey slot' key | aggregateKey slot' key | contributionKey slot' key =>
      obtain rfl : _ = dutyType := htype
      show key ∈ HashMap.listAt (AList.erase slot _) slot' ↔ _
      rw [mem_listAt_erase]
      simp [Holds, Due, Entry.duty]
  · rw [holds_iff_of_without (without_evict duty s) htype]
    exact (and_iff_left fun hdue => htype hdue.dutyType_eq).symm

end State

end Pluto.Core.DutyDb
