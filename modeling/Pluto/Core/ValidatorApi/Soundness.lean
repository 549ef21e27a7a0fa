import Pluto.Core.ValidatorApi.Component

/-!
# What the validator API hands on

A request hands on partial signatures only after all of its entries have passed their checks
(`calls_spec`), and what an entry has passed is the check of its own signature, by its own domain and
epoch, under the share of the key it is kept under (`prepare_spec`).

The key is the one of the entry's validator with one exception.  Before Electra an attestation does not
name its validator, and the handler looks for a duty with its committee and its aggregation bit.  If there
is none, it goes on with validator 0.  `handed_on_iff` says that this is the only case.
-/

namespace Pluto.Core.ValidatorApi

open Except (pure_ok_iff bind_ok_iff mapM_ok_mem mapError_ok_iff okOr_ok_iff)
open Ssz Eth2Api Eth2Util
open Crypto (Curve Blst.Pairing)
open Scheduler (DutyDefinition AttesterDutyDefinition)
open Attempt (exec Keeps)

/-! ## Sets by slot -/

namespace SetsBySlot

/-- The partial signature that is kept under a slot and a key. -/
def find (sets : SetsBySlot) (slot : UInt64) (pubkey : PubKey) : Option ParSignedData :=
  (sets.lookup slot).bind fun set => set.lookup pubkey

@[simp] lemma find_empty (slot : UInt64) (pubkey : PubKey) :
    find (∅ : SetsBySlot) slot pubkey = none := rfl

lemma find_add (sets : SetsBySlot) (p : Prepared) (slot : UInt64) (pubkey : PubKey) :
    (sets.add p).find slot pubkey =
      if slot = p.slot ∧ pubkey = p.pubkey then some p.parSig else sets.find slot pubkey := by
  by_cases hslot : slot = p.slot
  · subst hslot
    by_cases hkey : pubkey = p.pubkey
    · subst hkey
      simp [find, add]
    · have hset : ∀ set : ParSignedDataSet,
          AList.lookup pubkey (AList.insert p.pubkey p.parSig set) = set.lookup pubkey :=
        fun set => AList.lookup_insert_ne hkey
      cases hlook : sets.lookup p.slot with
      | none =>
        simp only [find, add, hlook, AList.lookup_insert, Option.getD_none, Option.bind_some,
          Option.bind_none, hset, AList.lookup_empty, hkey, and_false, if_false]
      | some set => simp [find, add, hkey, hlook, hset]
  · simp [find, add, hslot, AList.lookup_insert_ne hslot]

/-- What is found after a loop comes from one of its turns. -/
lemma find_foldl_eq_some {ps : List Prepared} {sets : SetsBySlot} {slot : UInt64} {pubkey : PubKey}
    {parSig : ParSignedData} (h : (ps.foldl add sets).find slot pubkey = some parSig) :
    ⟨slot, pubkey, parSig⟩ ∈ ps ∨ sets.find slot pubkey = some parSig := by
  induction ps generalizing sets with
  | nil => exact .inr h
  | cons p ps ih =>
    rcases ih h with hmem | hfound
    · exact .inl (List.mem_cons_of_mem p hmem)
    · rw [find_add] at hfound
      split_ifs at hfound with hsame
      · obtain ⟨rfl, rfl⟩ := hsame
        obtain rfl := Option.some.inj hfound
        exact .inl List.mem_cons_self
      · exact .inr hfound

end SetsBySlot

/-- The loop over the entries succeeds if every turn does. -/
lemma groupBySlot_ok_iff {α : Type} {prepare : α → Except ApiError Prepared} {entries : List α}
    {sets : SetsBySlot} :
    groupBySlot prepare entries = .ok sets ↔
      ∃ ps, entries.mapM prepare = .ok ps ∧ sets = ps.foldl SetsBySlot.add ∅ := by
  have hloop : ∀ init : SetsBySlot,
      entries.foldlM (fun sets entry => do
        let p ← prepare entry
        return sets.add p) init = .ok sets ↔
        ∃ ps, entries.mapM prepare = .ok ps ∧ sets = ps.foldl SetsBySlot.add init := by
    induction entries with
    | nil =>
      intro init
      simp only [List.foldlM_nil, List.mapM_nil, pure_ok_iff]
      exact ⟨fun h => ⟨[], rfl, h.symm⟩, fun ⟨ps, hps, h⟩ => by rw [h, ← hps]; rfl⟩
    | cons entry entries ih =>
      intro init
      rw [List.foldlM_cons, List.mapM_cons, bind_ok_iff]
      constructor
      · rintro ⟨sets', hturn, hrest⟩
        obtain ⟨p, hp, hadd⟩ := bind_ok_iff.mp hturn
        obtain rfl := pure_ok_iff.mp hadd
        obtain ⟨ps, hps, rfl⟩ := (ih (init.add p)).mp hrest
        exact ⟨p :: ps, by rw [hp, Except.ok_bind, hps]; rfl, rfl⟩
      · rintro ⟨ps, hps, rfl⟩
        obtain ⟨p, hp, hrest⟩ := bind_ok_iff.mp hps
        obtain ⟨ps', hps', hcons⟩ := bind_ok_iff.mp hrest
        obtain rfl := pure_ok_iff.mp hcons
        refine ⟨init.add p, bind_ok_iff.mpr ⟨p, hp, rfl⟩, (ih _).mpr ⟨ps', hps', rfl⟩⟩
  exact hloop ∅

/-! ## Calls -/

/-- The calls that are added have a property. -/
def Adds (P : Call → Prop) (calls calls' : List Call) : Prop :=
  ∃ new, calls' = calls ++ new ∧ ∀ call ∈ new, P call

namespace Adds

variable {P Q : Call → Prop}

lemma refl (calls : List Call) : Adds P calls calls := ⟨[], by simp, by simp⟩

lemma trans (a b c : List Call) (hab : Adds P a b) (hbc : Adds P b c) : Adds P a c := by
  obtain ⟨new, rfl, hnew⟩ := hab
  obtain ⟨new', rfl, hnew'⟩ := hbc
  refine ⟨new ++ new', List.append_assoc .., ?_⟩
  intro call hcall
  exact (List.mem_append.mp hcall).elim (hnew call) (hnew' call)

lemma mono (h : ∀ call, P call → Q call) {calls calls' : List Call} (hadds : Adds P calls calls') :
    Adds Q calls calls' := by
  obtain ⟨new, hnew, hall⟩ := hadds
  exact ⟨new, hnew, fun call hcall => h call (hall call hcall)⟩

lemma forall_mem {calls : List Call} (h : Adds P [] calls) : ∀ call ∈ calls, P call := by
  obtain ⟨new, rfl, hall⟩ := h
  exact hall

end Adds

namespace Component

variable {c : Component} {orders : Orders} {error : ApiError}

lemma keeps_fanout (duty : Duty) (set : ParSignedDataSet) :
    Keeps (Adds fun call => call.duty = duty ∧ call.set = set) (c.fanout error duty set) := by
  refine Keeps.forM Adds.refl Adds.trans fun sub _ => Keeps.bind Adds.trans ?_ fun _ => ?_
  · intro calls
    exact ⟨[⟨sub.2, duty, set⟩], rfl, by simp⟩
  · refine Attempt.keeps_of_refl Adds.refl fun calls => ?_
    rw [Attempt.exec_ite]
    split_ifs <;> rfl

lemma keeps_fanoutAll (dutyType : DutyType) (sets : SetsBySlot) :
    Keeps (Adds fun call => ∃ slot, call.duty = ⟨slot, dutyType⟩ ∧ sets.lookup slot = some call.set)
      (c.fanoutAll orders error dutyType sets) := by
  refine Keeps.forM Adds.refl Adds.trans fun e he calls => ?_
  refine Adds.mono ?_ (keeps_fanout ⟨e.1, dutyType⟩ e.2 calls)
  rintro call ⟨hduty, hset⟩
  exact ⟨e.1, hduty, hset ▸ HashMap.mem_order_iff.mp he⟩

/-- A call after all entries have passed: with the set of some slot. -/
def AfterAll {α : Type} (prepare : α → Except ApiError Prepared) (entries : List α)
    (dutyType : DutyType) (call : Call) : Prop :=
  ∃ ps slot, entries.mapM prepare = .ok ps ∧ call.duty = ⟨slot, dutyType⟩ ∧
    (ps.foldl SetsBySlot.add ∅).lookup slot = some call.set

variable {α β : Type} {prepare : α → Except ApiError Prepared} {entries : List α}
  {dutyType : DutyType}

/-- What a call hands on comes from an entry. -/
lemma AfterAll.exists_entry {call : Call} (h : AfterAll prepare entries dutyType call)
    {pubkey : PubKey} {parSig : ParSignedData} (hlook : call.set.lookup pubkey = some parSig) :
    ∃ entry ∈ entries, ∃ slot, prepare entry = .ok ⟨slot, pubkey, parSig⟩ ∧
      call.duty = ⟨slot, dutyType⟩ := by
  obtain ⟨ps, slot, hps, hduty, hset⟩ := h
  have hfind : (ps.foldl SetsBySlot.add ∅).find slot pubkey = some parSig := by
    rw [SetsBySlot.find, hset]
    exact hlook
  have hmem := (SetsBySlot.find_foldl_eq_some hfind).resolve_right (by simp)
  obtain ⟨entry, hentry, hturn⟩ := (mapM_ok_mem hps).1 _ hmem
  exact ⟨entry, hentry, slot, hturn, hduty⟩

/-- The two loops of a handler, whatever it does after them. -/
lemma keeps_groupBySlot_fanoutAll {γ : Type} {rest : SetsBySlot → PUnit → Handler γ}
    (hrest : ∀ sets u calls, (exec (rest sets u) calls).2 = calls) :
    Keeps (Adds (AfterAll prepare entries dutyType))
      (Attempt.ofExcept ((groupBySlot prepare entries).mapError .api) >>= fun sets =>
        c.fanoutAll orders error dutyType sets >>= rest sets) := by
  refine Attempt.keeps_ofExcept_bind Adds.refl fun sets hsets => ?_
  obtain ⟨ps, hps, rfl⟩ := groupBySlot_ok_iff.mp (mapError_ok_iff.mp hsets)
  refine Keeps.bind Adds.trans (fun calls => ?_) fun u =>
    Attempt.keeps_of_refl Adds.refl (hrest _ u)
  refine Adds.mono ?_ (keeps_fanoutAll dutyType _ calls)
  rintro call ⟨slot, hduty, hset⟩
  exact ⟨ps, slot, hps, hduty, hset⟩

lemma keeps_submit : Keeps (Adds (AfterAll prepare entries dutyType))
    (c.submit orders error dutyType prepare entries) := by
  have h : Keeps (Adds (AfterAll prepare entries dutyType))
      (Attempt.ofExcept ((groupBySlot prepare entries).mapError .api) >>= fun sets =>
        c.fanoutAll orders error dutyType sets >>= pure) :=
    keeps_groupBySlot_fanoutAll fun _ _ _ => rfl
  simp only [bind_pure] at h
  exact h

lemma keeps_select {name : String} {downcast : Eth2SignedData → Option β} :
    Keeps (Adds (AfterAll prepare entries dutyType))
      (c.select orders name dutyType prepare downcast entries) := by
  refine keeps_groupBySlot_fanoutAll fun sets _ calls => ?_
  cases c.awaitAggSigDb with
  | none => rfl
  | some await => rw [Attempt.exec_ofExcept]

end Component

/-! ## Requests -/

/-- A request to one of the endpoints, with what the validator cache answers. -/
inductive Request
  | attestations (entries : List (Upstream × VersionedAttestation))
  | aggregateAttestations (answer : Except CacheError ActiveValidators)
      (entries : List (Upstream × VersionedSignedAggregateAndProof))
  | beaconCommitteeSelections (answer : Except CacheError ActiveValidators)
      (entries : List (Upstream × V1.BeaconCommitteeSelection))
  | syncCommitteeSelections (answer : Except CacheError ActiveValidators)
      (entries : List (Upstream × V1.SyncCommitteeSelection))
  | syncCommitteeContributions (answer : Except CacheError ActiveValidators)
      (entries : List (Upstream × Altair.SignedContributionAndProof))
  | syncCommitteeMessages (answer : Except CacheError ActiveValidators)
      (entries : List (Upstream × Altair.SyncCommitteeMessage))

namespace Request

/-- The entries as signed data. -/
def entries : Request → List (Upstream × Eth2SignedData)
  | attestations entries => entries.map (Prod.map id .versionedAttestation)
  | aggregateAttestations _ entries => entries.map (Prod.map id .versionedSignedAggregateAndProof)
  | beaconCommitteeSelections _ entries => entries.map (Prod.map id .beaconCommitteeSelection)
  | syncCommitteeSelections _ entries => entries.map (Prod.map id .syncCommitteeSelection)
  | syncCommitteeContributions _ entries =>
    entries.map (Prod.map id .signedSyncContributionAndProof)
  | syncCommitteeMessages _ entries => entries.map (Prod.map id .signedSyncMessage)

/-- The validators that the entries are looked up in.  Attestations are not. -/
def validators : Request → ActiveValidators
  | attestations _ => ∅
  | aggregateAttestations answer _ => answer.toOption.getD ∅
  | beaconCommitteeSelections answer _ => answer.toOption.getD ∅
  | syncCommitteeSelections answer _ => answer.toOption.getD ∅
  | syncCommitteeContributions answer _ => answer.toOption.getD ∅
  | syncCommitteeMessages answer _ => answer.toOption.getD ∅

def dutyType : Request → DutyType
  | attestations _ => .attester
  | aggregateAttestations .. => .aggregator
  | beaconCommitteeSelections .. => .prepareAggregator
  | syncCommitteeSelections .. => .prepareSyncContribution
  | syncCommitteeContributions .. => .syncContribution
  | syncCommitteeMessages .. => .syncMessage

end Request

section Handed

variable {F G₁ G₂ : Type} [Field F] [AddCommGroup G₁] [Module F G₁] [AddCommGroup G₂] [Module F G₂]
  {curve : Curve F G₁ G₂} (sha256 : Bytes → HashRoot) (pairing : Blst.Pairing curve) (c : Component)
  (orders : Orders)

/-- The turn of a handler, for the endpoint that the data belongs to. -/
def Component.prepare (vals : ActiveValidators) (up : Upstream) :
    Eth2SignedData → Except ApiError Prepared
  | .versionedAttestation att => c.prepareAttestation sha256 pairing up att
  | .versionedSignedAggregateAndProof agg => c.prepareAggregate sha256 pairing up vals agg
  | .beaconCommitteeSelection selection => c.prepareBeaconSelection sha256 pairing up vals selection
  | .syncCommitteeSelection selection => c.prepareSyncSelection sha256 pairing up vals selection
  | .signedSyncContributionAndProof contrib => c.prepareContribution sha256 pairing up vals contrib
  | .signedSyncMessage msg => c.prepareSyncMessage sha256 pairing up vals msg

/-- The turn of a request with one of its entries. -/
def Request.turn (request : Request) (entry : Upstream × Eth2SignedData) :
    Except ApiError Prepared :=
  c.prepare sha256 pairing request.validators entry.1 entry.2

/-- The calls of subscribers that a request makes. -/
def Request.calls : Request → List Call
  | attestations entries => (exec (c.submitAttestations orders sha256 pairing entries) []).2
  | aggregateAttestations answer entries =>
    (exec (c.submitAggregateAttestations orders sha256 pairing answer entries) []).2
  | beaconCommitteeSelections answer entries =>
    (exec (c.beaconCommitteeSelections orders sha256 pairing answer entries) []).2
  | syncCommitteeSelections answer entries =>
    (exec (c.syncCommitteeSelections orders sha256 pairing answer entries) []).2
  | syncCommitteeContributions answer entries =>
    (exec (c.submitSyncCommitteeContributions orders sha256 pairing answer entries) []).2
  | syncCommitteeMessages answer entries =>
    (exec (c.submitSyncCommitteeMessages orders sha256 pairing answer entries) []).2

variable {sha256 pairing c orders}

lemma mapM_map_entries {α : Type} {turn : Upstream × Eth2SignedData → Except ApiError Prepared}
    {f : α → Eth2SignedData} {prepare : Upstream × α → Except ApiError Prepared}
    (hprepare : ∀ e, turn (e.1, f e.2) = prepare e) (entries : List (Upstream × α)) :
    (entries.map (Prod.map id f)).mapM turn = entries.mapM prepare := by
  rw [List.mapM_map]
  exact congrArg (List.mapM · entries) (funext hprepare)

lemma Component.AfterAll.map {α : Type} {turn : Upstream × Eth2SignedData → Except ApiError Prepared}
    {f : α → Eth2SignedData} {prepare : Upstream × α → Except ApiError Prepared}
    {entries : List (Upstream × α)} {dutyType : DutyType} {call : Call}
    (hprepare : ∀ e, turn (e.1, f e.2) = prepare e)
    (h : AfterAll prepare entries dutyType call) :
    AfterAll turn (entries.map (Prod.map id f)) dutyType call := by
  obtain ⟨ps, slot, hps, hcall⟩ := h
  exact ⟨ps, slot, (mapM_map_entries hprepare entries).trans hps, hcall⟩

/-- A handler that needs the active validators does nothing without them. -/
lemma keeps_fetch {γ : Type} {answer : Except CacheError ActiveValidators} {P : Call → Prop}
    {handler : ActiveValidators → Handler γ}
    (h : ∀ vals, answer = .ok vals → Keeps (Adds P) (handler vals)) :
    Keeps (Adds P) (Attempt.ofExcept ((Component.fetchActiveValidators answer).mapError .api) >>=
      handler) :=
  Attempt.keeps_ofExcept_bind Adds.refl fun vals hvals =>
    h vals (mapError_ok_iff.mp (mapError_ok_iff.mp hvals))

/-- **The rule of requests.**  A subscriber is called only after all entries have passed, and then with
the set of some slot. -/
lemma calls_spec (request : Request) :
    ∀ call ∈ request.calls sha256 pairing c orders,
      Component.AfterAll (request.turn sha256 pairing c) request.entries request.dutyType call := by
  refine Adds.forall_mem ?_
  cases request with
  | attestations entries =>
    exact (Component.keeps_submit []).mono fun call => .map fun _ => rfl
  | aggregateAttestations answer entries | syncCommitteeContributions answer entries
  | syncCommitteeMessages answer entries =>
    refine keeps_fetch (fun vals hvals => ?_) []
    subst hvals
    exact fun calls => (Component.keeps_submit calls).mono fun call => .map fun _ => rfl
  | beaconCommitteeSelections answer entries | syncCommitteeSelections answer entries =>
    refine keeps_fetch (fun vals hvals => ?_) []
    subst hvals
    exact fun calls => (Component.keeps_select calls).mono fun call => .map fun _ => rfl

end Handed

/-! ## The validator of an entry -/

/-- Before Electra an attestation names its validator by its committee and its only aggregation bit. -/
def HoldsDuty (att : VersionedAttestation) (duty : AttesterDutyDefinition) : Prop :=
  ∃ payload bit, att.attestation = some payload ∧ duty.committeeIndex = payload.data.index ∧
    attestationAggregationBitIndices att = .ok [bit] ∧ duty.validatorCommitteeIndex = .ofNat bit

/-- The validator that an attestation is from has the given index. -/
def Names (up : Upstream) (att : VersionedAttestation) (index : UInt64) : Prop :=
  match att.version with
  | .electra | .fulu => att.validatorIndex = some index
  | _ => ∃ payload defs pubkey duty, att.attestation = some payload ∧
      up.dutyDef ⟨payload.data.slot, .attester⟩ = .ok defs ∧
      defs.lookup pubkey = some (.attester duty) ∧ HoldsDuty att duty ∧ duty.validatorIndex = index

/-- The key is the one of the entry's validator. -/
def IsKeyOf (vals : ActiveValidators) (up : Upstream) : Eth2SignedData → PubKey → Prop
  | .versionedAttestation att, pubkey => ∃ payload committeeIndex index,
      att.attestation = some payload ∧ attestationCommitteeIndex att = .ok committeeIndex ∧
      Names up att index ∧ up.pubKeyByAtt payload.data.slot committeeIndex index = .ok pubkey
  | .versionedSignedAggregateAndProof agg, pubkey =>
    vals.lookup agg.aggregateAndProof.aggregatorIndex = some (pubkeyToBls pubkey)
  | .beaconCommitteeSelection selection, pubkey =>
    vals.lookup selection.validatorIndex = some (pubkeyToBls pubkey)
  | .syncCommitteeSelection selection, pubkey =>
    vals.lookup selection.validatorIndex = some (pubkeyToBls pubkey)
  | .signedSyncContributionAndProof contrib, pubkey =>
    vals.lookup contrib.message.aggregatorIndex = some (pubkeyToBls pubkey)
  | .signedSyncMessage msg, pubkey => vals.lookup msg.validatorIndex = some (pubkeyToBls pubkey)

/-- The entry tells which validator it is from, which only an attestation may fail to do. -/
def NamesValidator (up : Upstream) : Eth2SignedData → Prop
  | .versionedAttestation att => ∃ index, Names up att index
  | _ => True

/-- The index that the loop over the definitions returns is the one of a duty that fits, or there is
none. -/
lemma matchDuty_spec {att : VersionedAttestation} {payload : AttestationPayload}
    (hpayload : att.attestation = some payload) {defs : List DutyDefinition} {index : UInt64}
    (h : Upstream.matchDuty att payload.data defs = .ok index) :
    (∃ duty, .attester duty ∈ defs ∧ HoldsDuty att duty ∧ duty.validatorIndex = index) ∨
      ∀ duty, .attester duty ∈ defs → ¬HoldsDuty att duty := by
  induction defs with
  | nil => exact .inr fun duty hmem => absurd hmem List.not_mem_nil
  | cons definition defs ih =>
    -- A definition that does not fit leaves the question to the others.
    have hskip : (∀ duty, definition = .attester duty → ¬HoldsDuty att duty) →
        Upstream.matchDuty att payload.data defs = .ok index →
        (∃ duty, .attester duty ∈ definition :: defs ∧ HoldsDuty att duty ∧
          duty.validatorIndex = index) ∨
        ∀ duty, .attester duty ∈ definition :: defs → ¬HoldsDuty att duty := by
      intro hnot hrest
      rcases ih hrest with ⟨duty, hmem, hholds⟩ | hnone
      · exact .inl ⟨duty, List.mem_cons_of_mem _ hmem, hholds⟩
      · refine .inr fun duty hmem => ?_
        rcases List.mem_cons.mp hmem with heq | hmem
        · exact hnot duty heq.symm
        · exact hnone duty hmem
    cases definition with
    | proposer duty => exact hskip nofun h
    | syncCommittee duty => exact hskip nofun h
    | attester duty =>
      rw [Upstream.matchDuty] at h
      split_ifs at h with hcommittee
      · refine hskip ?_ h
        rintro _ ⟨rfl⟩ ⟨payload', bit, hpayload', hindex, -⟩
        obtain rfl := Option.some.inj (hpayload.symm.trans hpayload')
        exact hcommittee hindex
      · obtain ⟨indices, hindices, hmatch⟩ := bind_ok_iff.mp h
        match indices, hmatch with
        | [bit], hmatch =>
          dsimp only at hmatch
          split_ifs at hmatch with hbit
          · exact .inl ⟨duty, List.mem_cons_self,
              ⟨payload, bit, hpayload, not_not.mp hcommittee, hindices, hbit⟩,
              pure_ok_iff.mp hmatch⟩
          · refine hskip ?_ hmatch
            rintro _ ⟨rfl⟩ ⟨_, bit', _, _, hindices', hbit'⟩
            obtain rfl := List.singleton_inj.mp (Except.ok.inj (hindices.symm.trans hindices'))
            exact hbit hbit'

lemma resolveAttestationValidatorIndex_spec {up : Upstream} {att : VersionedAttestation}
    {payload : AttestationPayload} (hpayload : att.attestation = some payload) {index : UInt64}
    (h : up.resolveAttestationValidatorIndex att payload.data = .ok index) :
    Names up att index ∨ ∀ i, ¬Names up att i := by
  -- The five versions before Electra are alike.
  have hold : (do
        let defSet ← up.lookupAttesterDefinitions payload.data.slot
        Upstream.matchDuty att payload.data (HashMap.valuesIn up.definitionOrder defSet)) =
          .ok index →
      (∀ i, Names up att i ↔ ∃ payload defs pubkey duty, att.attestation = some payload ∧
        up.dutyDef ⟨payload.data.slot, .attester⟩ = .ok defs ∧
        defs.lookup pubkey = some (.attester duty) ∧ HoldsDuty att duty ∧
        duty.validatorIndex = i) →
      Names up att index ∨ ∀ i, ¬Names up att i := by
    intro h hnames
    obtain ⟨defs, hdefs, hmatch⟩ := bind_ok_iff.mp h
    rw [Upstream.lookupAttesterDefinitions, mapError_ok_iff] at hdefs
    rcases matchDuty_spec hpayload hmatch with ⟨duty, hmem, hholds, hindex⟩ | hnone
    · obtain ⟨pubkey, hpubkey⟩ := HashMap.mem_valuesIn.mp hmem
      exact .inl ((hnames index).mpr
        ⟨payload, defs, pubkey, duty, hpayload, hdefs, hpubkey, hholds, hindex⟩)
    · refine .inr fun i hi => ?_
      obtain ⟨payload', defs', pubkey, duty, hpayload', hdefs', hpubkey, hholds, -⟩ :=
        (hnames i).mp hi
      obtain rfl := Option.some.inj (hpayload.symm.trans hpayload')
      obtain rfl := Except.ok.inj (hdefs.symm.trans hdefs')
      exact hnone duty (HashMap.mem_valuesIn.mpr ⟨pubkey, hpubkey⟩) hholds
  rw [Upstream.resolveAttestationValidatorIndex] at h
  cases hversion : att.version <;> rw [hversion] at h
  case unknown => cases h
  case electra => exact .inl (by rw [Names, hversion]; exact okOr_ok_iff.mp h)
  case fulu => exact .inl (by rw [Names, hversion]; exact okOr_ok_iff.mp h)
  all_goals exact hold h fun i => by rw [Names, hversion]

/-! ## What a turn checks -/

section Turns

variable {F G₁ G₂ : Type} [Field F] [AddCommGroup G₁] [Module F G₁] [AddCommGroup G₂] [Module F G₂]
  {curve : Curve F G₁ G₂} (sha256 : Bytes → HashRoot) (pairing : Blst.Pairing curve) (c : Component)

/-- The signature of the data is the one of this node's share of the key, for its own domain and
epoch. -/
def Component.Verified (up : Upstream) (data : Eth2SignedData) (pubkey : PubKey) : Prop :=
  ∃ share, c.pubShareByPubkey.lookup (pubkeyToBls pubkey) = some share ∧
    data.verifyEth2SignedData sha256 pairing up.node share = .ok ()

/-- What is known of an entry that has passed. -/
structure Passed (vals : ActiveValidators) (up : Upstream) (data : Eth2SignedData) (p : Prepared) :
    Prop where
  parSig : p.parSig = ⟨data, c.shareIdx⟩
  slot : data.slot = some p.slot
  verified : c.Verified sha256 pairing up data p.pubkey
  isKeyOf_iff : IsKeyOf vals up data p.pubkey ↔ NamesValidator up data

variable {sha256 pairing c} {up : Upstream}

variable {data : Eth2SignedData} (hsecure : c.insecureTest = false)

include hsecure

lemma Component.verified_of_verifyPartialSig
    {pubkey : PubKey} {root : HashRoot} {signature : BLSSignature} {epoch : UInt64}
    (hroot : data.messageRoot sha256 = .ok root) (hsignature : data.signature = .ok signature)
    (hepoch : data.epoch up.node = .ok epoch)
    (h : c.verifyPartialSig sha256 pairing up.node (pubkeyToBls pubkey) data.domainName epoch root
      signature = .ok ()) :
    c.Verified sha256 pairing up data pubkey := by
  rw [Component.verifyPartialSig, hsecure] at h
  obtain ⟨share, hshare, hverify⟩ := bind_ok_iff.mp h
  exact ⟨share, okOr_ok_iff.mp hshare, Eth2SignedData.verifyEth2SignedData_ok_iff.mpr
    ⟨root, signature, epoch, hroot, hsignature, hepoch, mapError_ok_iff.mp hverify⟩⟩

lemma Component.verified_of_verifyParSigWithDomain
    {pubkey : PubKey} {epoch : UInt64} (hepoch : data.epoch up.node = .ok epoch)
    (h : c.verifyParSigWithDomain sha256 pairing up.node pubkey data.domainName epoch
      ⟨data, c.shareIdx⟩ = .ok ()) :
    c.Verified sha256 pairing up data pubkey := by
  obtain ⟨signature, hsignature, h⟩ := bind_ok_iff.mp h
  obtain ⟨root, hroot, h⟩ := bind_ok_iff.mp h
  exact verified_of_verifyPartialSig hsecure (mapError_ok_iff.mp hroot)
    (mapError_ok_iff.mp hsignature) hepoch (mapError_ok_iff.mp h)

lemma Component.verified_of_verifyPartialSigFor {rootPubkey : BLSPubKey} {slot : UInt64}
    (hepoch : data.epoch up.node = (up.node.epochFromSlot slot).mapError .helper)
    (h : c.verifyPartialSigFor sha256 pairing up.node ⟨data, c.shareIdx⟩ rootPubkey slot = .ok ()) :
    c.Verified sha256 pairing up data (PubKey.ofBls rootPubkey) := by
  rw [Component.verifyPartialSigFor, hsecure] at h
  obtain ⟨domainName, hdomain, h⟩ := bind_ok_iff.mp h
  obtain ⟨epoch, hslot, h⟩ := bind_ok_iff.mp h
  obtain ⟨root, hroot, h⟩ := bind_ok_iff.mp h
  obtain ⟨signature, hsignature, h⟩ := bind_ok_iff.mp h
  have hname : domainName = data.domainName := by
    cases data <;> cases hdomain <;> rfl
  subst hname
  have hepoch' : data.epoch up.node = .ok epoch :=
    hepoch.trans (mapError_ok_iff.mpr (mapError_ok_iff.mp hslot))
  exact verified_of_verifyPartialSig hsecure (mapError_ok_iff.mp hroot)
    (mapError_ok_iff.mp hsignature) hepoch' (mapError_ok_iff.mp h)

lemma Component.verified_of_verifySelectionPartialSig
    {rootPubkey : BLSPubKey} {slot : UInt64} {root : HashRoot} {signature : BLSSignature}
    {endpoint : String}
    (hepoch : data.epoch up.node = (up.node.epochFromSlot slot).mapError .helper)
    (hroot : data.messageRoot sha256 = .ok root) (hsignature : data.signature = .ok signature)
    (h : c.verifySelectionPartialSig sha256 pairing up.node rootPubkey data.domainName slot root
      signature endpoint = .ok ()) :
    c.Verified sha256 pairing up data (PubKey.ofBls rootPubkey) := by
  obtain ⟨epoch, hslot, h⟩ := bind_ok_iff.mp h
  have hepoch' : data.epoch up.node = .ok epoch :=
    hepoch.trans (mapError_ok_iff.mpr (mapError_ok_iff.mp hslot))
  exact verified_of_verifyPartialSig hsecure hroot hsignature hepoch' (mapError_ok_iff.mp h)

variable {vals : ActiveValidators} {p : Prepared}

lemma Component.prepareAttestation_spec {att : VersionedAttestation}
    (h : c.prepareAttestation sha256 pairing up att = .ok p) :
    Passed sha256 pairing c vals up (.versionedAttestation att) p := by
  obtain ⟨attData, hdata, h⟩ := bind_ok_iff.mp h
  obtain ⟨payload, hpayload, hattData⟩ := bind_ok_iff.mp hdata
  obtain rfl := pure_ok_iff.mp hattData
  replace hpayload := okOr_ok_iff.mp hpayload
  obtain ⟨committeeIndex, hcommittee, h⟩ := bind_ok_iff.mp h
  obtain ⟨valIdx, hvalIdx, h⟩ := bind_ok_iff.mp h
  obtain ⟨pubkey, hpubkey, h⟩ := bind_ok_iff.mp h
  obtain ⟨payload', hwrapped, h⟩ := bind_ok_iff.mp h
  obtain ⟨_, hverify, h⟩ := bind_ok_iff.mp h
  obtain rfl := pure_ok_iff.mp h
  replace hpubkey := mapError_ok_iff.mp hpubkey
  have hwrapped' : VersionedAttestation.payload att = .ok payload := by
    rw [mapError_ok_iff, VersionedAttestation.payload] at hwrapped
    split_ifs at hwrapped with hversion
    rw [VersionedAttestation.payload, if_neg hversion, hpayload]
    rfl
  have hepoch : (Eth2SignedData.versionedAttestation att).epoch up.node =
      .ok payload.data.target.epoch := by
    rw [Eth2SignedData.epoch, hwrapped']
    rfl
  refine ⟨rfl, by rw [Eth2SignedData.slot, hpayload]; rfl,
    Component.verified_of_verifyParSigWithDomain hsecure hepoch hverify, ?_, ?_⟩
  · rintro ⟨_, _, index, _, _, hnames, _⟩
    exact ⟨index, hnames⟩
  · rintro ⟨index, hnames⟩
    have hresolved : Names up att valIdx :=
      (resolveAttestationValidatorIndex_spec hpayload hvalIdx).resolve_right fun hnone =>
        hnone index hnames
    exact ⟨payload, committeeIndex, valIdx, hpayload, hcommittee, hresolved, hpubkey⟩

lemma Component.prepareAggregate_spec {agg : VersionedSignedAggregateAndProof}
    (h : c.prepareAggregate sha256 pairing up vals agg = .ok p) :
    Passed sha256 pairing c vals up (.versionedSignedAggregateAndProof agg) p := by
  obtain ⟨slot, hslot, h⟩ := bind_ok_iff.mp h
  obtain ⟨index, hindex, h⟩ := bind_ok_iff.mp h
  obtain ⟨eth2Pubkey, hpubkey, h⟩ := bind_ok_iff.mp h
  rw [hsecure] at h
  obtain ⟨_, hselection, h⟩ := bind_ok_iff.mp h
  obtain ⟨epoch, hepoch, h⟩ := bind_ok_iff.mp h
  obtain ⟨_, hverify, h⟩ := bind_ok_iff.mp h
  obtain rfl := pure_ok_iff.mp h
  replace hslot := okOr_ok_iff.mp hslot
  have hepoch' : (Eth2SignedData.versionedSignedAggregateAndProof agg).epoch up.node =
      .ok epoch := by
    rw [Eth2SignedData.epoch, hslot]
    exact mapError_ok_iff.mpr (mapError_ok_iff.mp hepoch)
  have hindex' : agg.aggregateAndProof.aggregatorIndex = index := by
    rw [aggregateAggregatorIndex] at hindex
    split_ifs at hindex
    exact Except.ok.inj hindex
  refine ⟨rfl, hslot, Component.verified_of_verifyParSigWithDomain hsecure hepoch' hverify, ?_⟩
  refine iff_of_true ?_ trivial
  rw [IsKeyOf, hindex']
  exact okOr_ok_iff.mp hpubkey

lemma Component.prepareBeaconSelection_spec {selection : V1.BeaconCommitteeSelection}
    (h : c.prepareBeaconSelection sha256 pairing up vals selection = .ok p) :
    Passed sha256 pairing c vals up (.beaconCommitteeSelection selection) p := by
  obtain ⟨keys, hkeys, h⟩ := bind_ok_iff.mp h
  obtain ⟨root, hroot, hkeys⟩ := bind_ok_iff.mp hkeys
  obtain rfl := pure_ok_iff.mp hkeys
  obtain ⟨_, hverify, h⟩ := bind_ok_iff.mp h
  obtain rfl := pure_ok_iff.mp h
  exact ⟨rfl, rfl, Component.verified_of_verifySelectionPartialSig hsecure rfl rfl rfl hverify,
    iff_of_true (okOr_ok_iff.mp hroot) trivial⟩

lemma Component.prepareSyncSelection_spec {selection : V1.SyncCommitteeSelection}
    (h : c.prepareSyncSelection sha256 pairing up vals selection = .ok p) :
    Passed sha256 pairing c vals up (.syncCommitteeSelection selection) p := by
  obtain ⟨keys, hkeys, h⟩ := bind_ok_iff.mp h
  obtain ⟨root, hroot, hkeys⟩ := bind_ok_iff.mp hkeys
  obtain rfl := pure_ok_iff.mp hkeys
  obtain ⟨_, hverify, h⟩ := bind_ok_iff.mp h
  obtain rfl := pure_ok_iff.mp h
  exact ⟨rfl, rfl, Component.verified_of_verifySelectionPartialSig hsecure rfl rfl rfl hverify,
    iff_of_true (okOr_ok_iff.mp hroot) trivial⟩

lemma Component.prepareContribution_spec {contrib : Altair.SignedContributionAndProof}
    (h : c.prepareContribution sha256 pairing up vals contrib = .ok p) :
    Passed sha256 pairing c vals up (.signedSyncContributionAndProof contrib) p := by
  obtain ⟨eth2Pubkey, hpubkey, h⟩ := bind_ok_iff.mp h
  rw [hsecure] at h
  obtain ⟨_, hselection, h⟩ := bind_ok_iff.mp h
  obtain ⟨_, hverify, h⟩ := bind_ok_iff.mp h
  obtain rfl := pure_ok_iff.mp h
  exact ⟨rfl, rfl, Component.verified_of_verifyPartialSigFor hsecure rfl hverify,
    iff_of_true (okOr_ok_iff.mp hpubkey) trivial⟩

lemma Component.prepareSyncMessage_spec {msg : Altair.SyncCommitteeMessage}
    (h : c.prepareSyncMessage sha256 pairing up vals msg = .ok p) :
    Passed sha256 pairing c vals up (.signedSyncMessage msg) p := by
  obtain ⟨eth2Pubkey, hpubkey, h⟩ := bind_ok_iff.mp h
  obtain ⟨_, hverify, h⟩ := bind_ok_iff.mp h
  obtain rfl := pure_ok_iff.mp h
  exact ⟨rfl, rfl, Component.verified_of_verifyPartialSigFor hsecure rfl hverify,
    iff_of_true (okOr_ok_iff.mp hpubkey) trivial⟩

lemma Component.prepare_spec
    (h : c.prepare sha256 pairing vals up data = .ok p) : Passed sha256 pairing c vals up data p := by
  cases data with
  | versionedAttestation att => exact prepareAttestation_spec hsecure h
  | versionedSignedAggregateAndProof agg => exact prepareAggregate_spec hsecure h
  | beaconCommitteeSelection selection => exact prepareBeaconSelection_spec hsecure h
  | syncCommitteeSelection selection => exact prepareSyncSelection_spec hsecure h
  | signedSyncContributionAndProof contrib => exact prepareContribution_spec hsecure h
  | signedSyncMessage msg => exact prepareSyncMessage_spec hsecure h

omit hsecure in
/-- **What is handed on.**  Every partial signature that a subscriber gets has this node's share index and
comes from an entry of the request; it is kept under the duty of the entry's slot, and the entry's own
signature verifies under this node's share of the key it is kept under.  This is the key of the entry's
validator exactly if the entry tells its validator.  If an entry does not pass, nothing is handed on. -/
theorem handed_on_iff (hsecure : c.insecureTest = false) (request : Request) (orders : Orders) :
    (∀ call ∈ request.calls sha256 pairing c orders, ∀ pubkey parSig,
      call.set.lookup pubkey = some parSig →
        parSig.shareIdx = c.shareIdx ∧
        ∃ up slot, (up, parSig.signedData) ∈ request.entries ∧ parSig.signedData.slot = some slot ∧
          call.duty = ⟨slot, request.dutyType⟩ ∧
          c.Verified sha256 pairing up parSig.signedData pubkey ∧
          (IsKeyOf request.validators up parSig.signedData pubkey ↔
            NamesValidator up parSig.signedData)) ∧
    ((∃ entry ∈ request.entries, ∃ e, request.turn sha256 pairing c entry = .error e) →
      request.calls sha256 pairing c orders = []) := by
  constructor
  · intro call hcall pubkey parSig hparSig
    obtain ⟨⟨up, data⟩, hentry, slot, hturn, hduty⟩ :=
      (calls_spec request call hcall).exists_entry hparSig
    obtain ⟨hsig, hslot, hverified, hkey⟩ := Component.prepare_spec hsecure hturn
    obtain rfl : parSig = ⟨data, c.shareIdx⟩ := hsig
    exact ⟨rfl, up, slot, hentry, hslot, hduty, hverified, hkey⟩
  · rintro ⟨entry, hentry, e, herror⟩
    refine List.eq_nil_iff_forall_not_mem.mpr fun call hcall => ?_
    obtain ⟨ps, slot, hps, -⟩ := calls_spec request call hcall
    obtain ⟨p, -, hturn⟩ := (mapM_ok_mem hps).2 entry hentry
    rw [herror] at hturn
    cases hturn

end Turns

/-! ## A node with one validator

The validator has index 0.  In slot 33 it is the sixth of committee 3. -/

namespace Solo

open scoped Crypto

abbrev curve : Curve (ZMod Crypto.order) (ZMod Crypto.order) (ZMod Crypto.order) :=
  Crypto.compressedExponents fun data => (SszContainer.readLe data : ℕ)

abbrev pairing : Blst.Pairing curve := Crypto.exponentPairing _

/-- The share of the node has the secret 7. -/
def share : BLSPubKey :=
  ⟨curve.g1ToBytes ((7 : ZMod Crypto.order) • curve.generator),
    (Crypto.compressed_compressedExponents _).length_g1 _⟩

def sign (data : Bytes) : BLSSignature :=
  ⟨curve.g2ToBytes ((7 : ZMod Crypto.order) • curve.hashToG2 data),
    (Crypto.compressed_compressedExponents _).length_g2 _⟩

def rootKey : BLSPubKey := ⟨List.replicate 48 1, length_ones⟩

def component : Component :=
  ⟨1, AList.singleton rootKey share, false, [fun _ _ => true], none⟩

def node : BeaconNode :=
  ⟨some 32, fun _ => some [1, 0, 0, 0], fun _ => none,
    fun domainType _ => some (domainType ++ List.replicate 28 0)⟩

def duty : AttesterDutyDefinition := ⟨PubKey.ofBls rootKey, 33, 0, 3, 8, 4, 5⟩

def upstream : Upstream where
  node := node
  dutyDef := fun _ => .ok (AList.singleton (PubKey.ofBls rootKey) (.attester duty))
  definitionOrder := .stored _
  pubKeyByAtt := fun slot committeeIndex validatorIndex =>
    if slot = 33 ∧ committeeIndex = 3 ∧ validatorIndex = 0 then .ok (PubKey.ofBls rootKey)
    else .error .failed

def data : DutyDb.AttestationData := ⟨33, 3, .zero, ⟨0, .zero⟩, ⟨1, .zero⟩⟩

/-- What is signed, with a hash that takes the first 32 bytes. -/
def signingRoot : HashRoot :=
  computeSigningRoot chunk (HashTree.root (scheme chunk) (Tree.attestationData data))
    ([1, 0, 0, 0] ++ List.replicate 28 0)

/-- An attestation of the validator that sets one of the eight bits of the committee. -/
def attestation (bit : ℕ) : VersionedAttestation :=
  ⟨.deneb, none, some (.deneb ⟨⟨(List.range 8).map (· == bit)⟩, data, sign signingRoot.bytes⟩)⟩

def request (bit : ℕ) : Request := .attestations [(upstream, attestation bit)]

def orders : Orders := ⟨.stored _, fun _ => .stored _⟩

/-- With bit 5 the attestation is the one of the validator. -/
theorem handed_on_iff_bit_5 :
    ∃ call ∈ (request 5).calls chunk pairing component orders, ∃ pubkey parSig,
      call.set.lookup pubkey = some parSig ∧ parSig.shareIdx = 1 ∧
        IsKeyOf (request 5).validators upstream parSig.signedData pubkey := by
  have hcalled : ∃ call ∈ (request 5).calls chunk pairing component orders,
      (call.set.lookup (PubKey.ofBls rootKey)).isSome := by decide +kernel
  obtain ⟨call, hcall, hsome⟩ := hcalled
  obtain ⟨parSig, hparSig⟩ := Option.isSome_iff_exists.mp hsome
  obtain ⟨hshare, up, slot, hentry, -, -, -, hkey⟩ :=
    (handed_on_iff (c := component) rfl (request 5) orders).1 call hcall _ parSig hparSig
  have hentry' : (up, parSig.signedData) = (upstream, .versionedAttestation (attestation 5)) :=
    List.mem_singleton.mp hentry
  obtain ⟨rfl, hdata⟩ := Prod.mk.inj hentry'
  refine ⟨call, hcall, _, parSig, hparSig, hshare, hkey.mpr ?_⟩
  rw [hdata]
  exact ⟨0, ⟨_, _, PubKey.ofBls rootKey, duty, rfl, rfl, by decide +kernel,
    ⟨_, 5, rfl, rfl, by decide +kernel, rfl⟩, rfl⟩⟩

/-- No duty of the node has bit 7. -/
lemma not_names_bit_7 (index : UInt64) : ¬Names upstream (attestation 7) index := by
  rintro ⟨payload, defs, pubkey, duty', hpayload, hdefs, hduty, ⟨_, bit, _, _, hindices, hbit⟩, -⟩
  obtain rfl := Except.ok.inj hdefs
  have hlook : pubkey = PubKey.ofBls rootKey ∧ duty' = duty := by
    have hmem := AList.mem_lookup_iff.mp (Option.mem_def.mpr hduty)
    have hsingle := List.mem_singleton.mp hmem
    cases hsingle
    exact ⟨rfl, rfl⟩
  obtain ⟨-, rfl⟩ := hlook
  have hbits : attestationAggregationBitIndices (attestation 7) = .ok [7] := by decide +kernel
  obtain rfl := List.singleton_inj.mp (Except.ok.inj (hbits.symm.trans hindices))
  exact absurd hbit (by decide)

/-- With bit 7 the attestation is from none of the node's validators.  It is handed on under the key of
validator 0. -/
theorem stray_attestation_handed_on :
    ∃ call ∈ (request 7).calls chunk pairing component orders, ∃ pubkey parSig,
      call.set.lookup pubkey = some parSig ∧
        ¬IsKeyOf (request 7).validators upstream parSig.signedData pubkey := by
  have hcalled : ∃ call ∈ (request 7).calls chunk pairing component orders,
      (call.set.lookup (PubKey.ofBls rootKey)).isSome := by decide +kernel
  obtain ⟨call, hcall, hsome⟩ := hcalled
  obtain ⟨parSig, hparSig⟩ := Option.isSome_iff_exists.mp hsome
  refine ⟨call, hcall, _, parSig, hparSig, ?_⟩
  obtain ⟨entry, hentry, slot, hturn, -⟩ :=
    (calls_spec (request 7) call hcall).exists_entry hparSig
  obtain rfl := List.mem_singleton.mp hentry
  have hsig : parSig = ⟨.versionedAttestation (attestation 7), 1⟩ :=
    (Component.prepare_spec rfl hturn).parSig
  subst hsig
  rintro ⟨_, _, index, _, _, hnames, _⟩
  exact not_names_bit_7 index hnames

end Solo

end Pluto.Core.ValidatorApi
