import Pluto.Core.DutyDb.Stability

/-!
# What an eviction removes

When a duty expires, everything that its stores have inserted should go, and nothing else.  Entries
are filed by slots found in the data: the attestations under the slot of the data, with an index by
the slot of the attester duty; the others under the slot of the data.  The eviction goes by the slot
of the scheduled duty.  Nothing compares these slots, and `entry_outlives_duty` is a store whose
entries stay after its duty has been evicted.

If every datum of a store has the slot of the stored duty, and no aggregate takes the root of an
aggregate of another slot, then the entries of a state are filed correctly (`Filed`): an eviction
removes the entries of its duty and no others (`Filed.holds_evict`), and a store of a duty inserts
entries of that duty only (`holds_storeSet`).  `eviction_complete` is the result for runs.
-/

namespace Pluto.Core.DutyDb

open HashMap (lookup_eraseAll_eq_some mem_listAt_erase mem_listAt_push lookup_insert_eq_some)

variable {P : Payloads} {ι : Type}

namespace State

variable {s s' : State P} {slot : UInt64} {duty : Duty}
  {entries : List (PubKey × UnsignedDutyData P)}

lemma not_holds_empty (x : Entry P) : ¬ (empty P).Holds x := by
  cases x <;> simp [Holds, empty, HashMap.listAt]

variable {x : Entry P}

/-! ## Filed states -/

/-- Every entry is listed for the slot of its duty, and listed there only. -/
structure Filed (s : State P) : Prop extends Indexed s where
  pubKeys : ∀ key pubkey, s.attestationPubKeys.lookup key = some pubkey →
    key ∈ s.attestationKeysBySlot.listAt key.slot
  attestations : ∀ key data, s.attestationDuties.lookup key = some data →
    ∃ validatorIndex, ⟨key.slot, key.committeeIndex, validatorIndex⟩ ∈
      s.attestationKeysBySlot.listAt key.slot
  contributions : ∀ key contrib, s.contribDuties.lookup key = some contrib →
    key ∈ s.contribKeysBySlot.listAt key.slot
  aggregates : ∀ key agg, s.aggregationDuties.lookup key = some agg →
    ∃ data, P.data agg = some data ∧ key ∈ s.aggregationKeysBySlot.listAt data.slot
  aggregateKeys : ∀ slot, ∀ key ∈ s.aggregationKeysBySlot.listAt slot, ∃ agg data,
    s.aggregationDuties.lookup key = some agg ∧ P.data agg = some data ∧ data.slot = slot

lemma filed_empty : Filed (empty P) where
  toIndexed := indexed_empty
  pubKeys key pubkey h := by simp [empty] at h
  attestations key data h := by simp [empty] at h
  contributions key contrib h := by simp [empty] at h
  aggregates key agg h := by simp [empty] at h
  aggregateKeys slot key h := by simp [empty, HashMap.listAt] at h

/-- In a filed state, what an eviction removes are the entries of its duty. -/
lemma Filed.due_iff (h : Filed s) (hx : s.Holds x) : s.Due duty x ↔ x.duty = duty := by
  obtain ⟨slot, dutyType⟩ := duty
  cases x with
  | attestation key data =>
    constructor
    · rintro ⟨rfl, pkKey, hmem, rfl⟩
      rw [← h.attestationKeys slot pkKey hmem]
      rfl
    · rintro ⟨⟩
      obtain ⟨validatorIndex, hmem⟩ := h.attestations key data hx
      exact ⟨rfl, _, hmem, rfl⟩
  | pubKey key pubkey =>
    constructor
    · rintro ⟨rfl, hmem⟩
      rw [← h.attestationKeys slot key hmem]
      rfl
    · rintro ⟨⟩
      exact ⟨rfl, h.pubKeys key pubkey hx⟩
  | aggregate key agg =>
    obtain ⟨data, hdata, hmem⟩ := h.aggregates key agg hx
    simp only [Due, Entry.duty, hdata, Option.elim_some, Duty.mk.injEq]
    constructor
    · rintro ⟨rfl, hmem'⟩
      obtain ⟨agg', data', hagg', hdata', hslot⟩ := h.aggregateKeys slot key hmem'
      obtain rfl : agg = agg' := Option.some.inj (hx.symm.trans hagg')
      obtain rfl : data = data' := Option.some.inj (hdata.symm.trans hdata')
      exact ⟨hslot, rfl⟩
    · rintro ⟨rfl, rfl⟩
      exact ⟨rfl, hmem⟩
  | contribution key contrib =>
    constructor
    · rintro ⟨rfl, hmem⟩
      rw [← h.contributionKeys slot key hmem]
      rfl
    · rintro ⟨⟩
      exact ⟨rfl, h.contributions key contrib hx⟩
  | _ =>
    simp only [Due, Entry.duty, Duty.mk.injEq]
    exact ⟨fun hdue => ⟨hdue.2, hdue.1.symm⟩, fun heq => ⟨heq.2.symm, heq.1⟩⟩

/-- An eviction removes the entries of its duty, and no others. -/
lemma Filed.holds_evict (h : Filed s) (duty : Duty) (x : Entry P) :
    (s.evict duty).Holds x ↔ s.Holds x ∧ x.duty ≠ duty := by
  rw [State.holds_evict]
  exact and_congr_right fun hx => not_congr (h.due_iff hx)

lemma Filed.evict (h : Filed s) (duty : Duty) : Filed (s.evict duty) := by
  have hholds := h.holds_evict duty
  refine ⟨h.toIndexed.evict duty, ?_, ?_, ?_, ?_, ?_⟩
  · intro key pubkey hkey
    obtain ⟨hold, hne⟩ := (hholds (.pubKey key pubkey)).mp hkey
    exact (hholds (.attestationKey key.slot key)).mpr ⟨h.pubKeys key pubkey hold, hne⟩
  · intro key data hkey
    obtain ⟨hold, hne⟩ := (hholds (.attestation key data)).mp hkey
    obtain ⟨validatorIndex, hmem⟩ := h.attestations key data hold
    exact ⟨validatorIndex, (hholds (.attestationKey key.slot _)).mpr ⟨hmem, hne⟩⟩
  · intro key contrib hkey
    obtain ⟨hold, hne⟩ := (hholds (.contribution key contrib)).mp hkey
    exact (hholds (.contributionKey key.slot key)).mpr ⟨h.contributions key contrib hold, hne⟩
  · intro key agg hkey
    obtain ⟨hold, hne⟩ := (hholds (.aggregate key agg)).mp hkey
    obtain ⟨data, hdata, hmem⟩ := h.aggregates key agg hold
    refine ⟨data, hdata, (hholds (.aggregateKey data.slot key)).mpr ⟨hmem, ?_⟩⟩
    simpa [Entry.duty, hdata] using hne
  · intro slot key hkey
    obtain ⟨hold, hne⟩ := (hholds (.aggregateKey slot key)).mp hkey
    obtain ⟨agg, data, hagg, hdata, hslot⟩ := h.aggregateKeys slot key hold
    refine ⟨agg, data, (hholds (.aggregate key agg)).mpr ⟨hagg, ?_⟩, hdata, hslot⟩
    simpa [Entry.duty, hdata, hslot] using hne

/-! ## Stores of data with the slot of the duty -/

/-- The datum has the slot. -/
def HasSlot (slot : UInt64) : UnsignedDutyData P → Prop
  | .proposal proposal => P.slot proposal = slot
  | .attestation att => att.data.slot = slot ∧ att.duty.slot = slot
  | .aggAttestation agg => ∀ data, P.data agg = some data → data.slot = slot
  | .syncContribution contrib => contrib.slot = slot

/-- Every datum of the set has the slot of the duty. -/
def OwnSlot (duty : Duty) (entries : List (PubKey × UnsignedDutyData P)) : Prop :=
  ∀ entry ∈ entries, HasSlot duty.slot entry.2

/-- An aggregate that is stored under the root of one of the set is of the given slot. -/
def RootsFree (s : State P) (slot : UInt64) (entries : List (PubKey × UnsignedDutyData P)) : Prop :=
  ∀ entry ∈ entries, ∀ data agg, aggregate? entry.2 = some (data, agg) →
    ∀ stored data', s.aggregationDuties.lookup ⟨P.dataRoot data⟩ = some stored →
      P.data stored = some data' → data'.slot = slot

lemma Filed.insert_pubkey (h : Filed s) (key : PkKey) (pubkey : PubKey) :
    Filed ((attPubkeyWrite key.slot key pubkey).insert s) := by
  have hlisted : ∀ slot key', key' ∈ s.attestationKeysBySlot.listAt slot →
      key' ∈ (s.attestationKeysBySlot.push key.slot key).listAt slot :=
    fun slot key' hmem => mem_listAt_push.mpr (.inl hmem)
  refine ⟨⟨fun slot key' hmem => ?_, h.contributionKeys⟩, fun key' pubkey' hlookup => ?_,
    fun key' data hlookup => ?_, h.contributions, h.aggregates, h.aggregateKeys⟩
  · rcases mem_listAt_push.mp hmem with hold | ⟨rfl, rfl⟩
    · exact h.attestationKeys slot key' hold
    · rfl
  · rcases lookup_insert_eq_some hlookup with ⟨rfl, rfl⟩ | hold
    · exact mem_listAt_push.mpr (.inr ⟨rfl, rfl⟩)
    · exact hlisted _ _ (h.pubKeys key' pubkey' hold)
  · obtain ⟨validatorIndex, hmem⟩ := h.attestations key' data hlookup
    exact ⟨validatorIndex, hlisted _ _ hmem⟩

lemma Filed.insert_data (h : Filed s) (key : PkKey)
    (hkey : key ∈ s.attestationKeysBySlot.listAt key.slot)
    (agrees : AttestationData → AttestationData → Bool) (data : AttestationData) :
    Filed ((attDataWrite key.attKey agrees data).insert s) := by
  refine ⟨⟨h.attestationKeys, h.contributionKeys⟩, h.pubKeys, fun key' data' hlookup => ?_,
    h.contributions, h.aggregates, h.aggregateKeys⟩
  rcases lookup_insert_eq_some hlookup with ⟨rfl, rfl⟩ | hold
  · exact ⟨key.validatorIndex, hkey⟩
  · exact h.attestations key' data' hold

lemma Filed.insert_contribution (h : Filed s) (contrib : SyncCommitteeContribution) :
    Filed ((syncContributionWrite contrib).insert s) := by
  refine ⟨⟨h.attestationKeys, fun slot key' hmem => ?_⟩, h.pubKeys, h.attestations,
    fun key' contrib' hlookup => ?_, h.aggregates, h.aggregateKeys⟩
  · rcases mem_listAt_push.mp hmem with hold | ⟨rfl, rfl⟩
    · exact h.contributionKeys slot key' hold
    · rfl
  · rcases lookup_insert_eq_some hlookup with ⟨rfl, rfl⟩ | hold
    · exact mem_listAt_push.mpr (.inr ⟨rfl, rfl⟩)
    · exact mem_listAt_push.mpr (.inl (h.contributions key' contrib' hold))

lemma Filed.insert_aggregate (h : Filed s) {data : AttestationData} {agg : P.Attestation}
    (hdata : P.data agg = some data)
    (hfree : ∀ stored data', s.aggregationDuties.lookup ⟨P.dataRoot data⟩ = some stored →
      P.data stored = some data' → data'.slot = data.slot) :
    Filed (insertAggregate data agg s) := by
  suffices haggregates :
      (∀ key agg', (insertAggregate data agg s).aggregationDuties.lookup key = some agg' →
        ∃ data', P.data agg' = some data' ∧
          key ∈ (insertAggregate data agg s).aggregationKeysBySlot.listAt data'.slot) ∧
      ∀ slot, ∀ key ∈ (insertAggregate data agg s).aggregationKeysBySlot.listAt slot,
        ∃ agg' data', (insertAggregate data agg s).aggregationDuties.lookup key = some agg' ∧
          P.data agg' = some data' ∧ data'.slot = slot from
    ⟨⟨h.attestationKeys, h.contributionKeys⟩, h.pubKeys, h.attestations, h.contributions,
      haggregates.1, haggregates.2⟩
  cases hstored : s.aggregationDuties.lookup ⟨P.dataRoot data⟩ with
  | some stored =>
    have hindex : (insertAggregate data agg s).aggregationKeysBySlot = s.aggregationKeysBySlot := by
      simp [insertAggregate, hstored]
    obtain ⟨data', hdata', hmem⟩ := h.aggregates _ stored hstored
    have hslot := hfree stored data' hstored hdata'
    rw [hindex]
    refine ⟨fun key agg' hlookup => ?_, fun slot key hlisted => ?_⟩
    · rcases lookup_insert_eq_some hlookup with ⟨rfl, rfl⟩ | hold
      · exact ⟨data, hdata, hslot ▸ hmem⟩
      · exact h.aggregates key agg' hold
    · obtain ⟨agg', data'', hagg', hdata'', hslot'⟩ := h.aggregateKeys slot key hlisted
      by_cases hkey : key = ⟨P.dataRoot data⟩
      · subst hkey
        obtain rfl : agg' = stored := Option.some.inj (hagg'.symm.trans hstored)
        exact ⟨agg, data, AList.lookup_insert _, hdata,
          (hfree agg' data'' hagg' hdata'').symm.trans hslot'⟩
      · exact ⟨agg', data'', (AList.lookup_insert_ne hkey).trans hagg', hdata'', hslot'⟩
  | none =>
    have hindex : (insertAggregate data agg s).aggregationKeysBySlot =
        s.aggregationKeysBySlot.push data.slot ⟨P.dataRoot data⟩ := by
      simp [insertAggregate, hstored]
    rw [hindex]
    refine ⟨fun key agg' hlookup => ?_, fun slot key hlisted => ?_⟩
    · rcases lookup_insert_eq_some hlookup with ⟨rfl, rfl⟩ | hold
      · exact ⟨data, hdata, mem_listAt_push.mpr (.inr ⟨rfl, rfl⟩)⟩
      · obtain ⟨data', hdata', hmem⟩ := h.aggregates key agg' hold
        exact ⟨data', hdata', mem_listAt_push.mpr (.inl hmem)⟩
    · rcases mem_listAt_push.mp hlisted with hold | ⟨rfl, rfl⟩
      · obtain ⟨agg', data', hagg', hdata', hslot⟩ := h.aggregateKeys slot key hold
        have hkey : key ≠ ⟨P.dataRoot data⟩ := by
          rintro rfl
          simp [hstored] at hagg'
        exact ⟨agg', data', (AList.lookup_insert_ne hkey).trans hagg', hdata', hslot⟩
      · exact ⟨agg, data, AList.lookup_insert _, hdata, rfl⟩

/-- A public key is listed when it is written, so the data written after it is filed. -/
lemma filed_attestation (key : PkKey) (pubkey : PubKey)
    (agrees : AttestationData → AttestationData → Bool) (data : AttestationData) :
    Attempt.Keeps (fun s s' => Filed s → Filed s')
      ([attPubkeyWrite (P := P) key.slot key pubkey,
        attDataWrite key.attKey agrees data].forM Write.run) := by
  intro s h
  have hdata : ∀ s₁ : State P, Filed s₁ → key ∈ s₁.attestationKeysBySlot.listAt key.slot →
      Filed (Attempt.exec ([attDataWrite key.attKey agrees data].forM Write.run) s₁).2 := by
    intro s₁ h₁ hkey
    rw [Write.forM_single]
    exact Write.keeps_run (R := fun s s' => s = s₁ → Filed s') (fun _ => by rintro rfl; exact h₁)
      (fun _ _ => by rintro rfl; exact h₁.insert_data key hkey agrees data) s₁ rfl
  rcases Write.exec_run_cases (attPubkeyWrite (P := P) key.slot key pubkey) s with
    ⟨_, hrun⟩ | ⟨hheld, hrun⟩ | ⟨_, hrun⟩
  · rw [Attempt.exec_forM_cons_ok hrun]
    exact hdata _ (h.insert_pubkey key pubkey) (mem_listAt_push.mpr (.inr ⟨rfl, rfl⟩))
  · rw [Attempt.exec_forM_cons_ok hrun]
    obtain ⟨pubkey', hpubkey', _⟩ := Standing.against_eq_held.mp hheld
    exact hdata _ h (h.pubKeys key pubkey' hpubkey')
  · rw [Attempt.exec_forM_cons_error hrun]
    exact h

lemma filed_storeSet_attester (hown : OwnSlot ⟨slot, .attester⟩ entries) :
    Attempt.Keeps (fun s s' => Filed s → Filed s') (storeSet (P := P) .attester entries) := by
  have hrefl : ∀ s : State P, Filed s → Filed s := fun _ h => h
  have htrans : ∀ s₁ s₂ s₃ : State P, (Filed s₁ → Filed s₂) → (Filed s₂ → Filed s₃) →
      Filed s₁ → Filed s₃ := fun _ _ _ h₁ h₂ h => h₂ (h₁ h)
  refine Attempt.Keeps.forM hrefl htrans ?_
  rintro ⟨pubkey, data⟩ hmem
  cases data with
  | attestation att =>
    obtain ⟨hdata, hduty⟩ : att.data.slot = slot ∧ att.duty.slot = slot := hown _ hmem
    have hwrites : ∀ committeeIndex agrees, Attempt.Keeps (fun s s' => Filed s → Filed s')
        ((committeeWrites (P := P) pubkey att committeeIndex agrees).forM Write.run) := by
      intro committeeIndex agrees
      rw [committeeWrites, hduty, ← hdata]
      exact filed_attestation ⟨att.data.slot, committeeIndex, att.duty.validatorIndex⟩ pubkey
        agrees att.data
    show Attempt.Keeps _ (storeAttestation pubkey att)
    rw [storeAttestation_eq, attestationWrites, Write.forM_append]
    exact Attempt.Keeps.bind htrans (hwrites _ _) fun _ => hwrites _ _
  | _ => exact Attempt.keeps_throw hrefl _

lemma filed_storeSet_aggregator (hown : OwnSlot ⟨slot, .aggregator⟩ entries) :
    Attempt.Keeps (fun s s' => Filed s ∧ RootsFree s slot entries →
      Filed s' ∧ RootsFree s' slot entries) (storeSet (P := P) .aggregator entries) := by
  refine Attempt.Keeps.forM (fun _ h => h) (fun _ _ _ h₁ h₂ h => h₂ (h₁ h)) ?_
  rintro ⟨pubkey, data⟩ hmem s ⟨h, hfree⟩
  rw [storeEntry_aggregator]
  rcases hagg : aggregate? data with _ | ⟨attData, agg⟩
  · exact ⟨h, hfree⟩
  · cases data with
    | aggAttestation agg' =>
      have hslot := hown _ hmem
      simp only [aggregate?, Option.map_eq_some_iff, Prod.mk.injEq] at hagg
      obtain ⟨attData', hdata, rfl, rfl⟩ := hagg
      have hagg : aggregate? (.aggAttestation agg' : UnsignedDutyData P) =
          some (attData', agg') := by
        simp [aggregate?, hdata]
      refine ⟨h.insert_aggregate hdata fun stored data' hstored hdata' => ?_, ?_⟩
      · rw [hfree _ hmem attData' agg' hagg stored data' hstored hdata']
        exact (hslot attData' hdata).symm
      · intro entry hentry data agg hagg stored data' hstored hdata'
        rcases lookup_insert_eq_some hstored with ⟨_, rfl⟩ | hold
        · obtain rfl : attData' = data' := Option.some.inj (hdata.symm.trans hdata')
          exact hslot attData' hdata
        · exact hfree entry hentry data agg hagg stored data' hold hdata'
    | _ => simp [aggregate?] at hagg

/-- A store of data with the slot of its duty leaves the state filed. -/
lemma filed_storeSet (h : Filed s) (hown : OwnSlot duty entries)
    (hfree : duty.dutyType = .aggregator → RootsFree s duty.slot entries) :
    Filed (Attempt.exec (storeSet duty.dutyType entries) s).2 := by
  obtain ⟨slot, dutyType⟩ := duty
  by_cases hattester : dutyType = .attester
  · subst hattester
    exact filed_storeSet_attester hown s h
  by_cases hagg : dutyType = .aggregator
  · subst hagg
    exact (filed_storeSet_aggregator hown s ⟨h, hfree rfl⟩).1
  have hinsert : ∀ w ∈ setWrites dutyType entries, ∀ s, Filed s → Filed (w.insert s) := by
    refine forall_setWrites (fun _ _ h => h) (fun htype => absurd htype hattester) ?_ ?_
    · rintro - pubkey proposal - s h
      exact ⟨⟨h.attestationKeys, h.contributionKeys⟩, h.pubKeys, h.attestations, h.contributions,
        h.aggregates, h.aggregateKeys⟩
    · rintro - pubkey contrib - s h
      exact h.insert_contribution contrib
  show Filed (Attempt.exec (storeSet dutyType entries) s).2
  rw [storeSet_eq_writes hagg]
  exact Attempt.Keeps.forM (R := fun s s' => Filed s → Filed s') (fun _ h => h)
    (fun _ _ _ h₁ h₂ h => h₂ (h₁ h))
    (fun w hw => Write.keeps_run (fun _ h => h) fun s _ => hinsert w hw s) s h

section Inserted

variable {x : Entry P}

lemma holds_insert_pubkey {dutySlot : UInt64} {key : PkKey} {pubkey : PubKey}
    (hkey : key.slot = slot)
    (hduty : dutySlot = slot) (hx : ((attPubkeyWrite dutySlot key pubkey).insert s).Holds x) :
    s.Holds x ∨ x.duty = ⟨slot, .attester⟩ := by
  cases x with
  | pubKey key' pubkey' =>
    rcases lookup_insert_eq_some hx with ⟨rfl, rfl⟩ | hold
    · exact .inr (by simp [Entry.duty, hkey])
    · exact .inl hold
  | attestationKey slot' key' =>
    rcases mem_listAt_push.mp hx with hold | ⟨rfl, rfl⟩
    · exact .inl hold
    · exact .inr (by simp [Entry.duty, hduty])
  | _ => exact .inl hx

lemma holds_insert_data {key : AttKey} {agrees : AttestationData → AttestationData → Bool}
    {data : AttestationData} (hkey : key.slot = slot)
    (hx : ((attDataWrite key agrees data).insert s).Holds x) :
    s.Holds x ∨ x.duty = ⟨slot, .attester⟩ := by
  cases x with
  | attestation key' data' =>
    rcases lookup_insert_eq_some hx with ⟨rfl, rfl⟩ | hold
    · exact .inr (by simp [Entry.duty, hkey])
    · exact .inl hold
  | _ => exact .inl hx

lemma holds_insert_proposal {proposal : P.Proposal} (hslot : P.slot proposal = slot)
    (hx : ((proposalWrite proposal).insert s).Holds x) :
    s.Holds x ∨ x.duty = ⟨slot, .proposer⟩ := by
  cases x with
  | proposal slot' proposal' =>
    rcases lookup_insert_eq_some hx with ⟨rfl, rfl⟩ | hold
    · exact .inr (by simp [Entry.duty, hslot])
    · exact .inl hold
  | _ => exact .inl hx

lemma holds_insert_contribution {contrib : SyncCommitteeContribution} (hslot : contrib.slot = slot)
    (hx : ((syncContributionWrite contrib).insert s).Holds x) :
    s.Holds x ∨ x.duty = ⟨slot, .syncContribution⟩ := by
  cases x with
  | contribution key contrib' =>
    rcases lookup_insert_eq_some hx with ⟨rfl, rfl⟩ | hold
    · exact .inr (by simp [Entry.duty, hslot])
    · exact .inl hold
  | contributionKey slot' key =>
    rcases mem_listAt_push.mp hx with hold | ⟨rfl, rfl⟩
    · exact .inl hold
    · exact .inr (by simp [Entry.duty, hslot])
  | _ => exact .inl hx

lemma holds_insertAggregate {data : AttestationData} {agg : P.Attestation}
    (hdata : P.data agg = some data) (hslot : data.slot = slot)
    (hx : (insertAggregate data agg s).Holds x) : s.Holds x ∨ x.duty = ⟨slot, .aggregator⟩ := by
  cases x with
  | aggregate key agg' =>
    rcases lookup_insert_eq_some hx with ⟨rfl, rfl⟩ | hold
    · exact .inr (by simp [Entry.duty, hdata, hslot])
    · exact .inl hold
  | aggregateKey slot' key =>
    simp only [Holds, insertAggregate] at hx
    split at hx
    · exact .inl hx
    · rcases mem_listAt_push.mp hx with hold | ⟨rfl, rfl⟩
      · exact .inl hold
      · exact .inr (by simp [Entry.duty, hslot])
  | _ => exact .inl hx

end Inserted

/-- What a store of data with the slot of its duty inserts belongs to the duty. -/
lemma holds_storeSet (hown : OwnSlot duty entries)
    (hx : (Attempt.exec (storeSet duty.dutyType entries) s).2.Holds x) :
    s.Holds x ∨ x.duty = duty := by
  obtain ⟨slot, dutyType⟩ := duty
  have hrefl : ∀ s : State P, s.Holds x → s.Holds x ∨ x.duty = ⟨slot, dutyType⟩ :=
    fun _ h => .inl h
  have htrans : ∀ s₁ s₂ s₃ : State P, (s₂.Holds x → s₁.Holds x ∨ x.duty = ⟨slot, dutyType⟩) →
      (s₃.Holds x → s₂.Holds x ∨ x.duty = ⟨slot, dutyType⟩) →
      s₃.Holds x → s₁.Holds x ∨ x.duty = ⟨slot, dutyType⟩ :=
    fun _ _ _ h₁ h₂ h => (h₂ h).elim h₁ .inr
  by_cases hagg : dutyType = .aggregator
  · subst hagg
    refine Attempt.Keeps.forM
      (R := fun s s' => s'.Holds x → s.Holds x ∨ x.duty = ⟨slot, .aggregator⟩)
      hrefl htrans ?_ s hx
    rintro ⟨pubkey, data⟩ hmem s hx
    have hslot := hown _ hmem
    rw [storeEntry_aggregator] at hx
    rcases hagg : aggregate? data with _ | ⟨attData, agg⟩ <;> rw [hagg] at hx
    · exact .inl hx
    · cases data with
      | aggAttestation agg' =>
        simp only [aggregate?, Option.map_eq_some_iff, Prod.mk.injEq] at hagg
        obtain ⟨attData', hdata, rfl, rfl⟩ := hagg
        exact holds_insertAggregate hdata (hslot attData' hdata) hx
      | _ => simp [aggregate?] at hagg
  · have hinsert : ∀ w ∈ setWrites dutyType entries, ∀ s, (w.insert s).Holds x →
        s.Holds x ∨ x.duty = ⟨slot, dutyType⟩ := by
      refine forall_setWrites (fun _ _ h => .inl h) ?_ ?_ ?_
      · rintro rfl pubkey att hmem w hw s hx
        obtain ⟨hdata, hduty⟩ : att.data.slot = slot ∧ att.duty.slot = slot := hown _ hmem
        obtain ⟨committeeIndex, -, rfl | ⟨agrees, -, rfl⟩⟩ := mem_attestationWrites hw
        · exact holds_insert_pubkey hdata hduty hx
        · exact holds_insert_data hdata hx
      · rintro rfl pubkey proposal hmem s hx
        exact holds_insert_proposal (hown _ hmem) hx
      · rintro rfl pubkey contrib hmem s hx
        exact holds_insert_contribution (hown _ hmem) hx
    rw [storeSet_eq_writes hagg] at hx
    exact Attempt.Keeps.forM (R := fun s s' => s'.Holds x → s.Holds x ∨ x.duty = ⟨slot, dutyType⟩)
      hrefl htrans (fun w hw => Write.keeps_run hrefl fun s _ => hinsert w hw s) s hx

end State

/-! ## Runs -/

namespace Db

variable [DecidableEq ι] {db db' : Db P ι} {l : Label P ι} {tr : List (Label P ι)}

/-- The condition on a step: the data of a store has the slot of its duty, and its aggregates do not
take the root of an aggregate of another slot. -/
def Own (db : Db P ι) : Label P ι → Prop
  | .insert duty entries _ => State.OwnSlot duty entries ∧
      (duty.dutyType = .aggregator → db.state.RootsFree duty.slot entries)
  | _ => True

/-- A step that meets the condition. -/
def OwnStep (db : Db P ι) (l : Label P ι) (db' : Db P ι) : Prop := Step db l db' ∧ Own db l

/-- A store of the duty in the run has inserted the entry. -/
def InsertedBy (tr : List (Label P ι)) (duty : Duty) (x : Entry P) : Prop :=
  ∃ t₁ t₂ entries result db₁ db₂, tr = t₁ ++ .insert duty entries result :: t₂ ∧
    Trace Step (start P ι) t₁ db₁ ∧ Step db₁ (.insert duty entries result) db₂ ∧
    ¬ db₁.state.Holds x ∧ db₂.state.Holds x

lemma InsertedBy.append {duty : Duty} {x : Entry P} (h : InsertedBy tr duty x)
    (tr' : List (Label P ι)) : InsertedBy (tr ++ tr') duty x := by
  obtain ⟨t₁, t₂, entries, result, db₁, db₂, rfl, hinserted⟩ := h
  exact ⟨t₁, t₂ ++ tr', entries, result, db₁, db₂, by simp, hinserted⟩

/-- What holds after a step held before it, or belongs to the duty whose data was inserted. -/
lemma OwnStep.holds (hfiled : db.state.Filed) (hstep : OwnStep db l db') {x : Entry P}
    (hx : db'.state.Holds x) :
    db.state.Holds x ∨ ∃ entries result, l = .insert x.duty entries result := by
  rcases hstep.1.state_cases with
    ⟨duty, entries, result, rfl, hexec⟩ | ⟨duty, result, rfl, hstate⟩ | hstate
  · have hx' : (Attempt.exec (State.storeSet duty.dutyType entries) db.state).2.Holds x := by
      rwa [hexec]
    rcases State.holds_storeSet hstep.2.1 hx' with hold | rfl
    · exact .inl hold
    · exact .inr ⟨entries, result, rfl⟩
  · rw [hstate] at hx
    exact .inl ((hfiled.holds_evict duty x).mp hx).1
  · rw [hstate] at hx
    exact .inl hx

lemma OwnStep.filed (hfiled : db.state.Filed) (hstep : OwnStep db l db') : db'.state.Filed := by
  rcases hstep.1.state_cases with
    ⟨duty, entries, result, rfl, hexec⟩ | ⟨duty, result, rfl, hstate⟩ | hstate
  · have hstored := State.filed_storeSet hfiled hstep.2.1 hstep.2.2
    rwa [hexec] at hstored
  · rw [hstate]
    exact hfiled.evict duty
  · rwa [hstate]

lemma filed_run (run : Trace OwnStep (start P ι) tr db) : db.state.Filed :=
  run.invariant (I := fun db => db.state.Filed) State.filed_empty
    fun _ _ _ h hstep => OwnStep.filed h hstep

lemma evict_state {duty : Duty} {result : Except Error Unit}
    (h : Step db (.evict duty result) db') : db'.state = db.state.evict duty := by
  cases h with
  | evict draining exec => exact (congrArg Prod.snd exec).symm

/-- What a store of a run has inserted belongs to its duty. -/
lemma inserted_duty (run : Trace OwnStep (start P ι) tr db) {duty : Duty} {x : Entry P}
    (h : InsertedBy tr duty x) : x.duty = duty := by
  obtain ⟨t₁, t₂, entries, result, db₁, db₂, rfl, -, hinsert, hbefore, hafter⟩ := h
  obtain ⟨_, _, _, hown, _⟩ := run.split_cons
  have hexec : (Attempt.exec (State.storeSet duty.dutyType entries) db₁.state).2 = db₂.state := by
    cases hinsert with
    | insert inserting exec => rw [exec]
  rw [← hexec] at hafter
  exact (State.holds_storeSet hown.2.1 hafter).resolve_left hbefore

/-- Every entry has been inserted by a store of its duty. -/
lemma inserted_run (run : Trace OwnStep (start P ι) tr db) {x : Entry P} (hx : db.state.Holds x) :
    InsertedBy tr x.duty x := by
  induction run with
  | nil => exact absurd hx (State.not_holds_empty x)
  | @snoc tr db db' l run hstep ih =>
    by_cases hold : db.state.Holds x
    · exact (ih hold).append [l]
    · obtain ⟨entries, result, rfl⟩ := (hstep.holds (filed_run run) hx).resolve_left hold
      exact ⟨tr, [], entries, result, db, db', rfl, run.mono fun _ _ _ h => h.1, hstep.1, hold, hx⟩

/-- Entries of a duty that are gone stay away until the duty is stored again. -/
lemma gone_run (run : Trace OwnStep db tr db') (hfiled : db.state.Filed) {duty : Duty}
    (hinsert : ∀ entries result, .insert duty entries result ∉ tr)
    (hgone : ∀ x : Entry P, x.duty = duty → ¬ db.state.Holds x) :
    ∀ x : Entry P, x.duty = duty → ¬ db'.state.Holds x := by
  have hboth : db'.state.Filed ∧ ∀ x : Entry P, x.duty = duty → ¬ db'.state.Holds x := by
    refine run.induction
      (P := fun _ db' => db'.state.Filed ∧ ∀ x : Entry P, x.duty = duty → ¬ db'.state.Holds x)
      (E := fun l => ∀ entries result, l ≠ .insert duty entries result) ⟨hfiled, hgone⟩ ?_ ?_
    · rintro _ db₁ l db₂ hl ⟨hfiled₁, hgone₁⟩ hstep
      refine ⟨hstep.filed hfiled₁, fun x hduty hx => ?_⟩
      rcases hstep.holds hfiled₁ hx with hold | ⟨entries, result, rfl⟩
      · exact hgone₁ x hduty hold
      · exact hl entries result (by rw [hduty])
    · rintro l hl entries result rfl
      exact hinsert entries result hl
  exact hboth.2

/-- **Eviction.**  If the data of every store has the slot of its duty, and no aggregate takes the
root of an aggregate of another slot, then once a duty has been evicted no entry that was inserted
by one of its stores remains, until the duty is stored again; and an eviction removes nothing but
entries that were inserted by a store of its duty. -/
theorem eviction_complete (run : Trace OwnStep (start P ι) tr db) :
    (∀ t₁ t₂ duty, tr = t₁ ++ .evict duty (.ok ()) :: t₂ →
      (∀ entries result, .insert duty entries result ∉ t₂) →
      ∀ x, InsertedBy t₁ duty x → ¬ db.state.Holds x) ∧
    (∀ duty db', Step db (.evict duty (.ok ())) db' →
      ∀ x, db.state.Holds x → ¬ db'.state.Holds x → InsertedBy tr duty x) := by
  constructor
  · rintro t₁ t₂ duty rfl hinsert x hinserted
    obtain ⟨db₁, db₂, hpast, hevict, hsince⟩ := run.split_cons
    have hfiled := filed_run hpast
    have hstate : db₂.state = db₁.state.evict duty := evict_state hevict.1
    refine gone_run hsince (hevict.filed hfiled) hinsert ?_ x (inserted_duty hpast hinserted)
    intro x hduty hx
    rw [hstate] at hx
    exact ((hfiled.holds_evict duty x).mp hx).2 hduty
  · intro duty db' hevict x hx hgone
    rw [evict_state hevict, (filed_run run).holds_evict duty x] at hgone
    have hduty : x.duty = duty := by
      by_contra hne
      exact hgone ⟨hx, hne⟩
    exact hduty ▸ inserted_run run hx

end Db

/-! ## An entry that outlives its duty -/

namespace Misfiled

open Clash

/-- An attestation of slot 7, which is stored for the duty of slot 5. -/
def misfiled : PubKey × UnsignedDutyData .plain :=
  (pubkey 1, .attestation ⟨⟨7, 0, .zero, ⟨0, .zero⟩, ⟨2, .zero⟩⟩, ⟨7, 1, 1⟩⟩)

/-- The public key of the validator, under its committee. -/
def entry : Entry .plain := .pubKey ⟨7, 1, 1⟩ (pubkey 1)

/-- The labels of a store up to the notification. -/
def storing (datum : PubKey × UnsignedDutyData .plain) : List (Label .plain Unit) :=
  [.lock duty [datum], .answer duty .scheduled, .insert duty [datum] (.ok ()), .notify]

end Misfiled

open Misfiled in
/-- The duty of slot 5 is stored and evicted, and what its store has inserted remains. -/
theorem entry_outlives_duty : ∃ db : Db .plain Unit,
    Trace Db.Step (Db.start .plain Unit)
      (storing misfiled ++ .evict Clash.duty (.ok ()) :: [.notify, .finish]) db ∧
    Db.InsertedBy (storing misfiled) Clash.duty entry ∧ db.state.Holds entry := by
  refine ⟨_, .cons (.lock rfl (by decide)) <| .cons (.answer rfl) <| .cons (.insert rfl rfl) <|
    .cons (.notify rfl) <| .cons (.evict rfl rfl) <| .cons (.notify rfl) <| .single (.finish rfl),
    ?_, by rfl⟩
  exact ⟨(storing misfiled).take 2, [.notify], _, _, _, _, rfl, .cons (.lock rfl (by decide))
    (.single (.answer rfl)), .insert rfl rfl, State.not_holds_empty _, by rfl⟩

open Misfiled Clash in
/-- With the slot of the duty, what the store has inserted is gone. -/
theorem eviction_complete_own_slot : ∃ db : Db .plain Unit,
    Trace Db.OwnStep (Db.start .plain Unit)
      (storing (Clash.entry 1 2 0) ++ .evict duty (.ok ()) :: [.notify, .finish]) db ∧
    Db.InsertedBy (storing (Clash.entry 1 2 0)) duty (.pubKey ⟨5, 2, 1⟩ (pubkey 1)) ∧
    ¬ db.state.Holds (.pubKey ⟨5, 2, 1⟩ (pubkey 1)) := by
  have hown : ∀ db : Db .plain Unit, Db.Own db (.insert duty [Clash.entry 1 2 0] (.ok ())) := by
    simp [Db.Own, State.OwnSlot, State.HasSlot, Clash.entry, duty, data]
  obtain ⟨db, hrun⟩ : ∃ db, Trace Db.OwnStep (Db.start .plain Unit)
      (storing (Clash.entry 1 2 0) ++ .evict duty (.ok ()) :: [.notify, .finish]) db :=
    ⟨_, .cons ⟨.lock rfl (by decide), trivial⟩ <| .cons ⟨.answer rfl, trivial⟩ <|
      .cons ⟨.insert rfl rfl, hown _⟩ <| .cons ⟨.notify rfl, trivial⟩ <|
      .cons ⟨.evict rfl rfl, trivial⟩ <| .cons ⟨.notify rfl, trivial⟩ <|
      .single ⟨.finish rfl, trivial⟩⟩
  have hinserted : Db.InsertedBy (storing (Clash.entry 1 2 0)) duty
      (.pubKey ⟨5, 2, 1⟩ (pubkey 1)) :=
    ⟨(storing (Clash.entry 1 2 0)).take 2, [.notify], _, _, _, _, rfl,
      .cons (.lock rfl (by decide)) (.single (.answer rfl)), .insert rfl rfl,
      State.not_holds_empty _, by rfl⟩
  exact ⟨_, hrun, hinserted, (Db.eviction_complete hrun).1 _ _ _ rfl (by simp) _ hinserted⟩

end Pluto.Core.DutyDb
