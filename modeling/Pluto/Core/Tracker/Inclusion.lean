import Pluto.Core.SignedData

/-!
# The inclusion checker

`InclusionCore` of `crates/core/src/tracker/inclusion.rs`.  It keeps the duties submitted to the
beacon node until they are seen on-chain or too old, and tells so through three callbacks; here an
operation returns the calls it makes.  `unreachable!` and `expect` are `Panic`s.  What is only
logged is left out, and so are the beacon committees, which nothing inserts into or reads.

A resolution takes a submission out of the map and calls the tracker.  `resolves` says what all
operations that resolve have in common, with the calls for one submission in `Op.report`; from there
on the operations are no longer looked at.

`resolved_once` is the result.  Every recorded submission is resolved at most once.  The tracker is
told that a duty was not included when the duty is reported as missed, except in `check_block`: for
a slot without a block it reports the proposal as missed and then tells the tracker that it was
included (`missed_block_included`).
-/

namespace Pluto.Core.Tracker

open Except (bind_ok_iff pure_ok_iff)
open Eth2Api Ssz
open DutyDb (AttestationData)

/-! ## Data -/

inductive InclusionError
  | invalidAttestation
  | invalidAggregateAndProof
  | invalidBlock
  | deprecatedDutyBuilderProposer
  | notIncludedOnChain
  | notAnAttestation
  | parseVersionedAggregate
  | noValidatorIndex
  | noAttesterDuty
  | invalidCommitteeBits
  | missingAttestation
  | decodeAggregationBits
  | bitfield (error : BitfieldError)
  deriving DecidableEq, Repr

inductive Panic
  | unexpectedType
  | notPresent
  deriving DecidableEq, Repr

/-- Uniquely identifies a cached submission. -/
structure SubKey where
  duty : Duty
  pubkey : PubKey
  deriving DecidableEq

/-- A duty submitted to the beacon node, awaiting on-chain confirmation. -/
structure Submission (P : SignedData.Payloads) where
  duty : Duty
  pubkey : PubKey
  data : SignedData P
  /-- Hash-tree-root of the attestation data (zero for proposals). -/
  attDataRoot : HashRoot

def Submission.key {P : SignedData.Payloads} (sub : Submission P) : SubKey := ⟨sub.duty, sub.pubkey⟩

structure AttesterDuty where
  validatorIndex : UInt64
  validatorCommitteeIndex : UInt64

structure BeaconCommittee where
  index : UInt64
  validators : List UInt64

/-- A simplified observed block with its attestations and committee context. -/
structure Block where
  slot : UInt64
  attDuties : List AttesterDuty
  attestationsByDataRoot : HashMap HashRoot VersionedAttestation
  beaconCommittees : List BeaconCommittee

/-- A call of a callback. -/
inductive Call (P : SignedData.Payloads)
  | trackerIncl (duty : Duty) (pubkey : PubKey) (error : Option InclusionError)
  | missed (sub : Submission P)
  | attIncluded (sub : Submission P) (block : Block)

structure InclusionCore (P : SignedData.Payloads) where
  submissions : HashMap SubKey (Submission P)
  /-- The `AttestationInclusion` feature. -/
  attestationInclusion : Bool
  /-- The tree hash of attestation data. -/
  treeHashRoot : AttestationData → HashRoot

/-! ## Checking attestations -/

/-- The type to compare bits in. -/
abbrev AggBits : Type := BitList 131072

def decodeBits (bits : Bytes) : Except InclusionError AggBits :=
  (BitList.fromSszBytes 131072 bits).mapError fun _ => .decodeAggregationBits

def containsBits (bits other : AggBits) : Except InclusionError Bool :=
  (bits.contains other).mapError .bitfield

def blockAttAggBits (att : VersionedAttestation) : Except InclusionError Bytes :=
  match att.attestation with
  | some payload => .ok payload.aggregationBits
  | none => .error .missingAttestation

/-- The indices of the set bits, in ascending order. -/
def bitIndices (bits : BitVec 64) : List ℕ := (List.range 64).filter bits.getLsbD

/-- The single committee index referenced by an Electra/Fulu attestation payload. -/
def electraCommitteeIndex : AttestationPayload → Except InclusionError ℕ
  | .electra att | .fulu att =>
    match bitIndices att.committeeBits with
    | [index] => .ok index
    | _ => .error .invalidCommitteeBits
  | _ => .error .invalidCommitteeBits

section Checks

variable {P : SignedData.Payloads}

def checkAttestationInclusion (sub : Submission P) (block : Block) :
    Except InclusionError Bool :=
  match sub.data with
  | .versionedAttestation subAtt =>
    match block.attestationsByDataRoot.lookup sub.attDataRoot with
    | none => .ok false
    | some att =>
      match subAtt.attestation with
      | none => .error .missingAttestation
      | some payload =>
        match subAtt.version with
        | .phase0 | .altair | .bellatrix | .capella | .deneb => do
          let subBits ← decodeBits payload.aggregationBits
          let attBits ← decodeBits (← blockAttAggBits att)
          containsBits attBits subBits
        | .electra | .fulu =>
          match subAtt.validatorIndex with
          | none => .error .noValidatorIndex
          | some validatorIndex =>
            match block.attDuties.find? (·.validatorIndex = validatorIndex) with
            | none => .error .noAttesterDuty
            | some duty => do
              let attBits ← decodeBits (← blockAttAggBits att)
              let committeeIndex ← electraCommitteeIndex payload
              -- The bits of the committees before this one come first.
              let previousValidators :=
                ((block.beaconCommittees.take committeeIndex).map (·.validators.length)).sum
              return attBits.bitAt (previousValidators + duty.validatorCommitteeIndex.toNat)
        | .unknown => .error .notAnAttestation
  | _ => .error .notAnAttestation

def checkAggregationInclusion (sub : Submission P) (block : Block) :
    Except InclusionError Bool :=
  match block.attestationsByDataRoot.lookup sub.attDataRoot with
  | none => .ok false
  | some att => do
    let attBits ← decodeBits (← blockAttAggBits att)
    match sub.data with
    | .versionedSignedAggregateAndProof agg =>
      match agg.aggregationBits with
      | none => throw .parseVersionedAggregate
      | some bits => containsBits attBits (← decodeBits bits)
    | _ => throw .parseVersionedAggregate

end Checks

/-! ## Operations -/

/-- What happens to a submission found in a block. -/
inductive Act
  | includeAtt
  | proposerInclude

namespace InclusionCore

variable {P : SignedData.Payloads}

def new (attestationInclusion : Bool) (treeHashRoot : AttestationData → HashRoot) :
    InclusionCore P :=
  ⟨∅, attestationInclusion, treeHashRoot⟩

/-- Duty types for which on-chain inclusion is tracked. -/
def inclSupported (core : InclusionCore P) : List DutyType :=
  if core.attestationInclusion then [.proposer, .attester, .aggregator] else [.proposer]

def record (core : InclusionCore P) (sub : Submission P) : InclusionCore P :=
  { core with submissions := core.submissions.insert sub.key sub }

/-- Records a duty submitted to the beacon node. -/
def submitted (core : InclusionCore P) (duty : Duty) (pubkey : PubKey) (data : SignedData P) :
    Except InclusionError (List (Call P) × InclusionCore P) :=
  if duty.dutyType ∉ core.inclSupported then .ok ([], core)
  else
    let recorded root := .ok ([], core.record ⟨duty, pubkey, data, root⟩)
    match duty.dutyType with
    | .attester =>
      match data with
      | .versionedAttestation att =>
        match att.attestation with
        | some payload => recorded (core.treeHashRoot payload.data)
        | none => .error .missingAttestation
      | .attestation att => recorded (core.treeHashRoot att.data)
      | _ => .error .invalidAttestation
    | .aggregator =>
      match data with
      | .versionedSignedAggregateAndProof agg =>
        match agg.data with
        | some data => recorded (core.treeHashRoot data)
        | none => .error .invalidAggregateAndProof
      | .signedAggregateAndProof agg => recorded (core.treeHashRoot agg.message.aggregate.data)
      | _ => .error .invalidAggregateAndProof
    | .proposer =>
      match data with
      | .versionedSignedProposal proposal =>
        -- Synthetic blocks are already on-chain; report inclusion now.
        if P.graffiti proposal.block = syntheticGraffiti then
          .ok ([.trackerIncl duty pubkey none], core)
        else recorded .zero
      | _ => .error .invalidBlock
    | .builderProposer => .error .deprecatedDutyBuilderProposer
    | _ => recorded .zero

/-- Takes the submissions at some keys out, with the calls made for each. -/
def resolveAll : List (SubKey × (Submission P → List (Call P))) → InclusionCore P →
    Except Panic (List (Call P) × InclusionCore P)
  | [], core => .ok ([], core)
  | (key, report) :: acts, core =>
    match core.submissions.lookup key with
    | none => .error .notPresent
    | some sub => do
      let rest ← resolveAll acts { core with submissions := core.submissions.erase key }
      return (report sub ++ rest.1, rest.2)

/-- The submissions in the order the map is iterated in. -/
abbrev Order (P : SignedData.Payloads) : Type := IterOrder (Sigma fun _ : SubKey => Submission P)

def reportTrimmed (sub : Submission P) : List (Call P) :=
  [.missed sub, .trackerIncl sub.duty sub.pubkey (some .notIncludedOnChain)]

def trim (order : Order P) (slot : UInt64) (core : InclusionCore P) :
    Except Panic (List (Call P) × InclusionCore P) :=
  let stale := (order.order core.submissions.entries).filter fun entry => entry.2.duty.slot ≤ slot
  resolveAll (stale.map fun entry => (entry.1, reportTrimmed)) core

/-- The keys of the proposals of a slot. -/
def matched (slot : UInt64) :
    List (Sigma fun _ : SubKey => Submission P) → Except Panic (List SubKey)
  | [] => .ok []
  | ⟨key, sub⟩ :: entries =>
    match sub.duty.dutyType with
    | .proposer => do
      let keys ← matched slot entries
      return if sub.duty.slot = slot then key :: keys else keys
    | _ => .error .unexpectedType

def reportBlock (found : Bool) (sub : Submission P) : List (Call P) :=
  (if found then [] else [.missed sub]) ++ [.trackerIncl sub.duty sub.pubkey none]

/-- The loop of `check_block`. -/
def checkMatched (found : Bool) : List SubKey → InclusionCore P → List (Call P) × InclusionCore P
  | [], core => ([], core)
  | key :: keys, core =>
    match core.submissions.lookup key with
    | none => checkMatched found keys core
    | some sub =>
      match sub.data with
      | .versionedSignedProposal _ =>
        let rest := checkMatched found keys
          { core with submissions := core.submissions.erase key }
        (reportBlock found sub ++ rest.1, rest.2)
      -- Submission data has wrong type.
      | _ => checkMatched found keys core

def checkBlock (order : Order P) (slot : UInt64) (found : Bool) (core : InclusionCore P) :
    Except Panic (List (Call P) × InclusionCore P) := do
  let keys ← matched slot (order.order core.submissions.entries)
  return checkMatched found keys core

/-- What a block says about a submission: nothing, or that it is included. -/
def actFor (block : Block) (sub : Submission P) : Except Panic (Option Act) :=
  match sub.duty.dutyType with
  | .attester =>
    match checkAttestationInclusion sub block with
    -- On error, log and still report inclusion.
    | .error _ => .ok (some .includeAtt)
    | .ok included => .ok (if included then some .includeAtt else none)
  | .aggregator =>
    match checkAggregationInclusion sub block with
    | .error _ => .ok (some .includeAtt)
    | .ok included => .ok (if included then some .includeAtt else none)
  | .proposer =>
    if sub.duty.slot ≠ block.slot then .ok none
    else
      match sub.data with
      | .versionedSignedProposal _ => .ok (some .proposerInclude)
      | _ => .ok none
  | _ => .error .unexpectedType

def reportAct (block : Block) (act : Act) (sub : Submission P) : List (Call P) :=
  match act with
  | .includeAtt => [.attIncluded sub block, .trackerIncl sub.duty sub.pubkey none]
  | .proposerInclude => [.trackerIncl sub.duty sub.pubkey none]

def actsFor (block : Block) :
    List (Sigma fun _ : SubKey => Submission P) → Except Panic (List (SubKey × Act))
  | [] => .ok []
  | ⟨key, sub⟩ :: entries => do
    let act ← actFor block sub
    let acts ← actsFor block entries
    return (act.map fun act => (key, act)).toList ++ acts

def checkBlockAndAtts (order : Order P) (block : Block) (core : InclusionCore P) :
    Except Panic (List (Call P) × InclusionCore P) := do
  let acts ← actsFor block (order.order core.submissions.entries)
  resolveAll (acts.map fun act => (act.1, reportAct block act.2)) core

end InclusionCore

/-! ## Runs -/

inductive Op (P : SignedData.Payloads)
  | submitted (duty : Duty) (pubkey : PubKey) (data : SignedData P)
  | trim (slot : UInt64)
  | checkBlock (slot : UInt64) (found : Bool)
  | checkBlockAndAtts (block : Block)

/-- An operation and the calls it made. -/
structure Label (P : SignedData.Payloads) where
  op : Op P
  calls : List (Call P)

namespace InclusionCore

variable {P : SignedData.Payloads}

/-- `check_block` is only used while all submissions are proposals. -/
inductive Step : InclusionCore P → Label P → InclusionCore P → Prop
  | submitted {core core' duty pubkey data calls}
      (run : core.submitted duty pubkey data = .ok (calls, core')) :
      Step core ⟨.submitted duty pubkey data, calls⟩ core'
  | rejected {core duty pubkey data error}
      (run : core.submitted duty pubkey data = .error error) :
      Step core ⟨.submitted duty pubkey data, []⟩ core
  | trim {core core' slot calls} (order : Order P)
      (run : core.trim order slot = .ok (calls, core')) : Step core ⟨.trim slot, calls⟩ core'
  | checkBlock {core core' slot found calls} (order : Order P)
      (proposers : ∀ key sub, core.submissions.lookup key = some sub →
        sub.duty.dutyType = .proposer)
      (run : core.checkBlock order slot found = .ok (calls, core')) :
      Step core ⟨.checkBlock slot found, calls⟩ core'
  | checkBlockAndAtts {core core' block calls} (order : Order P)
      (run : core.checkBlockAndAtts order block = .ok (calls, core')) :
      Step core ⟨.checkBlockAndAtts block, calls⟩ core'

end InclusionCore

/-! ## What a resolution is -/

section Spec

variable {P : SignedData.Payloads}

open InclusionCore

/-- The calls an operation makes for a submission that it resolves. -/
def Op.report : Op P → Submission P → List (Call P)
  | .submitted .., _ => []
  | .trim _, sub => reportTrimmed sub
  | .checkBlock _ found, sub => reportBlock found sub
  | .checkBlockAndAtts block, sub =>
    reportAct block (if sub.duty.dutyType = .proposer then .proposerInclude else .includeAtt) sub

/-- An operation resolves these submissions. -/
structure Resolves (op : Op P) (core : InclusionCore P) (calls : List (Call P))
    (core' : InclusionCore P) (subs : List (Submission P)) : Prop where
  nodup : (subs.map Submission.key).Nodup
  recorded : ∀ sub ∈ subs, core.submissions.lookup sub.key = some sub
  calls_eq : calls = subs.flatMap op.report
  lookup_eq : ∀ key, core'.submissions.lookup key =
    if key ∈ subs.map Submission.key then none else core.submissions.lookup key

namespace Resolves

variable {op : Op P} {core core' : InclusionCore P} {calls : List (Call P)}
  {subs : List (Submission P)}

lemma nil (op : Op P) (core : InclusionCore P) : Resolves op core [] core [] where
  nodup := List.nodup_nil
  recorded := by simp
  calls_eq := rfl
  lookup_eq := by simp

/-- One more submission, taken out first. -/
lemma cons {sub : Submission P} (hsub : core.submissions.lookup sub.key = some sub)
    (h : Resolves op { core with submissions := core.submissions.erase sub.key } calls core' subs) :
    Resolves op core (op.report sub ++ calls) core' (sub :: subs) := by
  have hnotin : sub.key ∉ subs.map Submission.key := by
    intro hmem
    obtain ⟨other, hother, hkey⟩ := List.mem_map.mp hmem
    exact (HashMap.lookup_erase_eq_some.mp (h.recorded other hother)).1 hkey
  refine ⟨?_, ?_, ?_, fun key => ?_⟩
  · rw [List.map_cons]
    exact List.nodup_cons.mpr ⟨hnotin, h.nodup⟩
  · intro other hother
    rcases List.mem_cons.mp hother with rfl | hother
    · exact hsub
    · exact (HashMap.lookup_erase_eq_some.mp (h.recorded other hother)).2
  · rw [List.flatMap_cons, h.calls_eq]
  · rw [h.lookup_eq, List.map_cons]
    by_cases hkey : key = sub.key
    · subst hkey
      simp
    · simp [hkey, AList.lookup_erase_ne hkey]

end Resolves

/-- Submissions are stored under their own key. -/
def Keyed (core : InclusionCore P) : Prop :=
  ∀ key sub, core.submissions.lookup key = some sub → sub.key = key

lemma Keyed.erase {core : InclusionCore P} (h : Keyed core) (key : SubKey) :
    Keyed { core with submissions := core.submissions.erase key } := by
  intro key' sub hsub
  exact h key' sub (HashMap.lookup_erase_eq_some.mp hsub).2

lemma resolves_resolveAll (op : Op P) :
    ∀ {acts : List (SubKey × (Submission P → List (Call P)))} {core core' : InclusionCore P}
      {calls : List (Call P)}, Keyed core →
      (∀ act ∈ acts, ∀ sub, core.submissions.lookup act.1 = some sub → act.2 sub = op.report sub) →
      resolveAll acts core = .ok (calls, core') → ∃ subs, Resolves op core calls core' subs
  | [], core, core', calls, _, _, hrun => by
    cases hrun
    exact ⟨[], .nil op core⟩
  | (key, report) :: acts, core, core', calls, hkeyed, hreport, hrun => by
    rw [resolveAll] at hrun
    split at hrun
    · cases hrun
    · rename_i sub hsub
      obtain ⟨⟨calls', core''⟩, hrest, hpure⟩ := bind_ok_iff.mp hrun
      obtain ⟨rfl, rfl⟩ := Prod.mk.inj (pure_ok_iff.mp hpure)
      obtain rfl : sub.key = key := hkeyed key sub hsub
      have hreport' : ∀ act ∈ acts, ∀ sub',
          (core.submissions.erase sub.key).lookup act.1 = some sub' →
          act.2 sub' = op.report sub' := by
        intro act hact sub' hsub'
        exact hreport act (List.mem_cons_of_mem _ hact) sub'
          (HashMap.lookup_erase_eq_some.mp hsub').2
      obtain ⟨subs, hsubs⟩ := resolves_resolveAll op (hkeyed.erase sub.key) hreport' hrest
      have hsubreport : report sub = op.report sub := hreport _ List.mem_cons_self sub hsub
      rw [hsubreport]
      exact ⟨sub :: subs, hsubs.cons hsub⟩

/-- Whether the loop of `check_block` handles this data. -/
def IsProposal (data : SignedData P) : Prop := ∃ proposal, data = .versionedSignedProposal proposal

/-- The loop of `check_block` resolves the proposals among the submissions it is given. -/
lemma resolves_checkMatched (slot : UInt64) (found : Bool) :
    ∀ (keys : List SubKey) {core core' : InclusionCore P} {calls : List (Call P)}, Keyed core →
      checkMatched found keys core = (calls, core') →
      ∃ subs, Resolves (.checkBlock slot found) core calls core' subs ∧
        (∀ sub ∈ subs, sub.key ∈ keys) ∧
        ∀ sub, core.submissions.lookup sub.key = some sub → sub.key ∈ keys → IsProposal sub.data →
          sub ∈ subs
  | [], core, core', calls, _, hrun => by
    cases hrun
    exact ⟨[], .nil _ core, by simp, by simp⟩
  | key :: keys, core, core', calls, hkeyed, hrun => by
    rw [checkMatched] at hrun
    split at hrun
    · rename_i hnone
      obtain ⟨subs, hsubs, hin, hall⟩ := resolves_checkMatched slot found keys hkeyed hrun
      refine ⟨subs, hsubs, fun sub hsub => List.mem_cons_of_mem _ (hin sub hsub),
        fun sub hsub hmem hproposal => ?_⟩
      rcases List.mem_cons.mp hmem with hkey | hmem
      · rw [hkey, hnone] at hsub
        cases hsub
      · exact hall sub hsub hmem hproposal
    · rename_i sub hsub
      obtain rfl : sub.key = key := hkeyed key sub hsub
      split at hrun
      · obtain ⟨rfl, rfl⟩ := Prod.mk.inj hrun
        obtain ⟨subs, hsubs, hin, hall⟩ :=
          resolves_checkMatched slot found keys (hkeyed.erase sub.key) rfl
        refine ⟨sub :: subs, hsubs.cons hsub, ?_, fun other hother hmem hproposal => ?_⟩
        · rintro other (_ | ⟨_, hother⟩)
          · exact List.mem_cons_self
          · exact List.mem_cons_of_mem _ (hin other hother)
        · by_cases hkey : other.key = sub.key
          · rw [hkey, hsub] at hother
            exact List.mem_cons.mpr (.inl (Option.some.inj hother).symm)
          · refine List.mem_cons_of_mem _ (hall other ?_ ?_ hproposal)
            · exact HashMap.lookup_erase_eq_some.mpr ⟨hkey, hother⟩
            · exact (List.mem_cons.mp hmem).resolve_left hkey
      · rename_i hdata
        obtain ⟨subs, hsubs, hin, hall⟩ := resolves_checkMatched slot found keys hkeyed hrun
        refine ⟨subs, hsubs, fun other hother => List.mem_cons_of_mem _ (hin other hother),
          fun other hother hmem hproposal => ?_⟩
        rcases List.mem_cons.mp hmem with hkey | hmem
        · rw [hkey, hsub] at hother
          obtain rfl := Option.some.inj hother
          obtain ⟨proposal, hproposal⟩ := hproposal
          exact absurd hproposal (hdata proposal)
        · exact hall other hother hmem hproposal

/-- `check_block` looks at the submissions of its slot. -/
lemma mem_matched {slot : UInt64} :
    ∀ {entries : List (Sigma fun _ : SubKey => Submission P)} {keys : List SubKey},
      matched slot entries = .ok keys →
      ∀ key, key ∈ keys ↔ ∃ sub, ⟨key, sub⟩ ∈ entries ∧ sub.duty.slot = slot
  | [], _, hrun, key => by
    cases hrun
    simp
  | ⟨key', sub'⟩ :: entries, keys, hrun, key => by
    rw [matched] at hrun
    split at hrun
    · obtain ⟨rest, hrest, hpure⟩ := bind_ok_iff.mp hrun
      obtain rfl := pure_ok_iff.mp hpure
      have hhead : key ∈ (if sub'.duty.slot = slot then key' :: rest else rest) ↔
          (key = key' ∧ sub'.duty.slot = slot) ∨ key ∈ rest := by
        split <;> simp_all
      rw [hhead, mem_matched hrest key]
      constructor
      · rintro (⟨rfl, hslot⟩ | ⟨sub, hmem, hslot⟩)
        · exact ⟨sub', List.mem_cons_self, hslot⟩
        · exact ⟨sub, List.mem_cons_of_mem _ hmem, hslot⟩
      · rintro ⟨sub, hmem, hslot⟩
        rcases List.mem_cons.mp hmem with heq | hmem
        · cases heq
          exact .inl ⟨rfl, hslot⟩
        · exact .inr ⟨sub, hmem, hslot⟩
    · cases hrun

/-- What is included as an attestation is not a proposal. -/
lemma act_of_actFor {block : Block} {sub : Submission P} {act : Act}
    (h : actFor block sub = .ok (some act)) :
    act = if sub.duty.dutyType = .proposer then .proposerInclude else .includeAtt := by
  unfold actFor at h
  split at h
  · rename_i htype
    rw [htype]
    split at h
    · cases h
      rfl
    · split at h <;> cases h
      rfl
  · rename_i htype
    rw [htype]
    split at h
    · cases h
      rfl
    · split at h <;> cases h
      rfl
  · rename_i htype
    rw [htype]
    split at h
    · cases h
    · split at h <;> cases h
      rfl
  · cases h

lemma of_mem_actsFor {block : Block} :
    ∀ {entries : List (Sigma fun _ : SubKey => Submission P)} {acts : List (SubKey × Act)},
      actsFor block entries = .ok acts → ∀ act ∈ acts,
      ∃ sub, ⟨act.1, sub⟩ ∈ entries ∧ actFor block sub = .ok (some act.2)
  | [], _, hrun, act, hact => by
    cases hrun
    cases hact
  | ⟨key, sub⟩ :: entries, acts, hrun, act, hact => by
    obtain ⟨found, hfound, hrun⟩ := bind_ok_iff.mp hrun
    obtain ⟨rest, hrest, hpure⟩ := bind_ok_iff.mp hrun
    obtain rfl := pure_ok_iff.mp hpure
    rcases List.mem_append.mp hact with hhere | hlater
    · obtain ⟨kind, rfl, rfl⟩ := Option.map_eq_some_iff.mp (Option.mem_toList.mp hhere)
      exact ⟨sub, List.mem_cons_self, hfound⟩
    · obtain ⟨sub', hmem, hact'⟩ := of_mem_actsFor hrest act hlater
      exact ⟨sub', List.mem_cons_of_mem _ hmem, hact'⟩

/-- What a step other than `submitted` does. -/
lemma resolves {core core' : InclusionCore P} {l : Label P} (hkeyed : Keyed core)
    (step : Step core l core') (hop : ∀ duty pubkey data, l.op ≠ .submitted duty pubkey data) :
    ∃ subs, Resolves l.op core l.calls core' subs := by
  cases step with
  | submitted run => exact absurd rfl (hop _ _ _)
  | rejected run => exact absurd rfl (hop _ _ _)
  | @trim _ slot _ order run =>
    refine resolves_resolveAll (.trim slot) hkeyed ?_ run
    intro act hact sub _
    obtain ⟨entry, -, rfl⟩ := List.mem_map.mp hact
    rfl
  | @checkBlock _ slot found _ order proposers run =>
    obtain ⟨keys, -, hpure⟩ := bind_ok_iff.mp run
    obtain ⟨subs, hsubs, -⟩ :=
      resolves_checkMatched slot found keys hkeyed (pure_ok_iff.mp hpure)
    exact ⟨subs, hsubs⟩
  | @checkBlockAndAtts _ block _ order run =>
    obtain ⟨acts, hacts, run⟩ := bind_ok_iff.mp run
    refine resolves_resolveAll (.checkBlockAndAtts block) hkeyed ?_ run
    intro act hact sub hsub
    obtain ⟨⟨key, kind⟩, hkind, rfl⟩ := List.mem_map.mp hact
    obtain ⟨sub', hmem, hact'⟩ := of_mem_actsFor hacts _ hkind
    rw [HashMap.mem_order_iff.mp hmem] at hsub
    obtain rfl := Option.some.inj hsub
    rw [Op.report, ← act_of_actFor hact']

/-- Which submissions `check_block` resolves. -/
lemma resolves_checkBlock {core core' : InclusionCore P} {order : Order P} {slot : UInt64}
    {found : Bool} {calls : List (Call P)} (hkeyed : Keyed core)
    (run : core.checkBlock order slot found = .ok (calls, core')) :
    ∃ subs, Resolves (.checkBlock slot found) core calls core' subs ∧
      (∀ sub ∈ subs, sub.duty.slot = slot) ∧
      ∀ key sub, core.submissions.lookup key = some sub → sub.duty.slot = slot →
        IsProposal sub.data → sub ∈ subs := by
  obtain ⟨keys, hkeys, hpure⟩ := bind_ok_iff.mp run
  obtain ⟨subs, hsubs, hin, hall⟩ :=
    resolves_checkMatched slot found keys hkeyed (pure_ok_iff.mp hpure)
  refine ⟨subs, hsubs, fun sub hsub => ?_, fun key sub hsub hslot hproposal => ?_⟩
  · obtain ⟨sub', hmem, hslot⟩ := (mem_matched hkeys sub.key).mp (hin sub hsub)
    rw [HashMap.mem_order_iff, hsubs.recorded sub hsub] at hmem
    obtain rfl := Option.some.inj hmem
    exact hslot
  · obtain rfl : sub.key = key := hkeyed key sub hsub
    refine hall sub hsub ?_ hproposal
    exact (mem_matched hkeys sub.key).mpr ⟨sub, HashMap.mem_order_iff.mpr hsub, hslot⟩

/-- What `submitted` records. -/
lemma submitted_spec {core core' : InclusionCore P} {duty : Duty} {pubkey : PubKey}
    {data : SignedData P} {calls : List (Call P)}
    (h : core.submitted duty pubkey data = .ok (calls, core')) :
    core' = core ∨ ∃ root, core' = core.record ⟨duty, pubkey, data, root⟩ ∧
      (duty.dutyType = .proposer → IsProposal data) := by
  have recorded : ∀ root, duty.dutyType ≠ .proposer →
      core.record ⟨duty, pubkey, data, root⟩ = core ∨
        ∃ root', core.record ⟨duty, pubkey, data, root⟩ = core.record ⟨duty, pubkey, data, root'⟩ ∧
          (duty.dutyType = .proposer → IsProposal data) :=
    fun root hne => .inr ⟨root, rfl, fun htype => absurd htype hne⟩
  unfold submitted at h
  split at h
  · cases h
    exact .inl rfl
  · dsimp only at h
    split at h
    · rename_i htype
      split at h
      · split at h <;> cases h
        exact recorded _ (by rw [htype]; nofun)
      · cases h
        exact recorded _ (by rw [htype]; nofun)
      · cases h
    · rename_i htype
      split at h
      · split at h <;> cases h
        exact recorded _ (by rw [htype]; nofun)
      · cases h
        exact recorded _ (by rw [htype]; nofun)
      · cases h
    · split at h
      · split at h <;> cases h
        · exact .inl rfl
        · exact .inr ⟨_, rfl, fun _ => ⟨_, rfl⟩⟩
      · cases h
    · cases h
    · rename_i hproposer _
      cases h
      exact recorded _ hproposer

end Spec

/-! ## The tracker and the missed duties -/

section Verdicts

variable {P : SignedData.Payloads}

/-- What the tracker is told about a key. -/
def Call.verdict (key : SubKey) : Call P → Option (Option InclusionError)
  | .trackerIncl duty pubkey error => if SubKey.mk duty pubkey = key then some error else none
  | _ => none

@[simp] lemma Call.verdict_missed (key : SubKey) (sub : Submission P) :
    (Call.missed sub).verdict key = none := rfl

@[simp] lemma Call.verdict_attIncluded (key : SubKey) (sub : Submission P) (block : Block) :
    (Call.attIncluded sub block).verdict key = none := rfl

lemma Call.filterMap_trackerIncl (key : SubKey) (sub : Submission P)
    (error : Option InclusionError) :
    [Call.trackerIncl (P := P) sub.duty sub.pubkey error].filterMap (Call.verdict key) =
      if sub.key = key then [error] else [] := by
  by_cases hkey : sub.key = key
  · have hverdict : (Call.trackerIncl (P := P) sub.duty sub.pubkey error).verdict key = some error :=
      if_pos hkey
    rw [if_pos hkey, List.filterMap_cons_some hverdict, List.filterMap_nil]
  · have hverdict : (Call.trackerIncl (P := P) sub.duty sub.pubkey error).verdict key = none :=
      if_neg hkey
    rw [if_neg hkey, List.filterMap_cons_none hverdict, List.filterMap_nil]

namespace Label

/-- The resolutions of a key.  A synthetic proposal is reported without being recorded. -/
def resolutions (key : SubKey) (l : Label P) : List (Option InclusionError) :=
  match l.op with
  | .submitted .. => []
  | _ => l.calls.filterMap (Call.verdict key)

/-- The duty of a key is reported as missed. -/
def Misses (key : SubKey) (l : Label P) : Prop := ∃ sub, .missed sub ∈ l.calls ∧ sub.key = key

/-- The tracker is told that a duty is not included if and only if the duty is missed. -/
def Consistent (l : Label P) : Prop :=
  ∀ key, ∀ error ∈ l.resolutions key, error = some .notIncludedOnChain ↔ l.Misses key

def Submits (key : SubKey) (l : Label P) : Prop :=
  ∃ duty pubkey data, l.op = .submitted duty pubkey data ∧ SubKey.mk duty pubkey = key

end Label

/-- What an operation tells the tracker about a submission that it resolves. -/
def Op.verdict : Op P → Option InclusionError
  | .trim _ => some .notIncludedOnChain
  | _ => none

/-- Whether an operation reports the submissions that it resolves as missed. -/
def Op.misses : Op P → Bool
  | .trim _ => true
  | .checkBlock _ found => !found
  | _ => false

section Report

variable {op : Op P} (hop : ∀ duty pubkey data, op ≠ .submitted duty pubkey data)

include hop

lemma filterMap_report (key : SubKey) (sub : Submission P) :
    (op.report sub).filterMap (Call.verdict key) =
      if sub.key = key then [op.verdict] else [] := by
  cases op with
  | submitted duty pubkey data => exact absurd rfl (hop _ _ _)
  | trim slot =>
    rw [Op.report, InclusionCore.reportTrimmed, List.filterMap_cons_none (by simp)]
    exact Call.filterMap_trackerIncl key sub _
  | checkBlock slot found =>
    rw [Op.report, InclusionCore.reportBlock, List.filterMap_append,
      Call.filterMap_trackerIncl]
    cases found <;> simp [Op.verdict]
  | checkBlockAndAtts block =>
    rw [Op.report]
    unfold InclusionCore.reportAct
    split
    · rw [List.filterMap_cons_none (by simp)]
      exact Call.filterMap_trackerIncl key sub _
    · exact Call.filterMap_trackerIncl key sub _

lemma missed_mem_report {sub sub' : Submission P} :
    .missed sub' ∈ op.report sub ↔ sub' = sub ∧ op.misses = true := by
  cases op with
  | submitted duty pubkey data => exact absurd rfl (hop _ _ _)
  | trim slot => simp [Op.report, InclusionCore.reportTrimmed, Op.misses]
  | checkBlock slot found =>
    cases found <;> simp [Op.report, InclusionCore.reportBlock, Op.misses]
  | checkBlockAndAtts block =>
    by_cases htype : sub.duty.dutyType = .proposer <;>
      simp [Op.report, InclusionCore.reportAct, Op.misses, htype]

end Report

variable {core core' : InclusionCore P} {l : Label P}

/-- How often a key is recorded: once or not at all. -/
def InclusionCore.recorded (core : InclusionCore P) (key : SubKey) : ℕ :=
  if core.submissions.lookup key = none then 0 else 1

section Step

variable {subs : List (Submission P)} (hop : ∀ duty pubkey data, l.op ≠ .submitted duty pubkey data)
  (h : Resolves l.op core l.calls core' subs)

include hop h

lemma resolutions_eq (key : SubKey) :
    l.resolutions key = (subs.filter (·.key = key)).map fun _ => l.op.verdict := by
  have hcalls : l.resolutions key = l.calls.filterMap (Call.verdict key) := by
    unfold Label.resolutions
    split
    · exact absurd ‹_› (hop _ _ _)
    · rfl
  rw [hcalls, h.calls_eq]
  clear hcalls h
  induction subs with
  | nil => rfl
  | cons sub subs ih =>
    rw [List.flatMap_cons, List.filterMap_append, ih, filterMap_report hop, List.filter_cons]
    by_cases hkey : sub.key = key <;> simp [hkey]

/-- A resolution takes the key out. -/
lemma length_resolutions (key : SubKey) :
    (l.resolutions key).length + core'.recorded key = core.recorded key := by
  have hcount : (l.resolutions key).length = (subs.map Submission.key).count key := by
    rw [resolutions_eq hop h, List.length_map, List.count, List.countP_map, List.countP_eq_length_filter]
    rfl
  rw [hcount, InclusionCore.recorded, InclusionCore.recorded, h.lookup_eq]
  by_cases hkey : key ∈ subs.map Submission.key
  · obtain ⟨sub, hsub, rfl⟩ := List.mem_map.mp hkey
    simp [List.count_eq_one_of_mem h.nodup hkey, hkey, h.recorded sub hsub]
  · simp [List.count_eq_zero_of_not_mem hkey, hkey]

lemma misses_iff (key : SubKey) :
    l.Misses key ↔ key ∈ subs.map Submission.key ∧ l.op.misses = true := by
  unfold Label.Misses
  rw [h.calls_eq]
  constructor
  · rintro ⟨sub, hmem, rfl⟩
    obtain ⟨sub', hsub', hreport⟩ := List.mem_flatMap.mp hmem
    obtain ⟨rfl, hmisses⟩ := (missed_mem_report hop).mp hreport
    exact ⟨List.mem_map_of_mem hsub', hmisses⟩
  · rintro ⟨hmem, hmisses⟩
    obtain ⟨sub, hsub, rfl⟩ := List.mem_map.mp hmem
    exact ⟨sub, List.mem_flatMap.mpr ⟨sub, hsub, (missed_mem_report hop).mpr ⟨rfl, hmisses⟩⟩, rfl⟩

/-- The only inconsistent operation is one that reports a miss and a success. -/
lemma consistent_iff :
    l.Consistent ↔ subs = [] ∨ (l.op.verdict = some .notIncludedOnChain ↔ l.op.misses = true) := by
  have hmem : ∀ key error, error ∈ l.resolutions key ↔
      key ∈ subs.map Submission.key ∧ error = l.op.verdict := by
    intro key error
    rw [resolutions_eq hop h]
    simp only [List.mem_map, List.mem_filter, decide_eq_true_eq]
    constructor
    · rintro ⟨sub, ⟨hsub, hkey⟩, rfl⟩
      exact ⟨⟨sub, hsub, hkey⟩, rfl⟩
    · rintro ⟨⟨sub, hsub, hkey⟩, rfl⟩
      exact ⟨sub, ⟨hsub, hkey⟩, rfl⟩
  unfold Label.Consistent
  simp only [hmem, misses_iff hop h]
  constructor
  · intro hall
    rcases subs with _ | ⟨sub, subs⟩
    · exact .inl rfl
    · have := hall sub.key l.op.verdict ⟨by simp, rfl⟩
      refine .inr ?_
      simpa using this
  · rintro (rfl | hverdict) key error ⟨hkey, rfl⟩
    · simp at hkey
    · simp [hkey, hverdict]

end Step

/-! ## Runs -/

structure Inv (core : InclusionCore P) : Prop where
  keyed : Keyed core
  proposals : ∀ key sub, core.submissions.lookup key = some sub →
    sub.duty.dutyType = .proposer → IsProposal sub.data

lemma Inv.record (h : Inv core) {sub : Submission P}
    (hsub : sub.duty.dutyType = .proposer → IsProposal sub.data) : Inv (core.record sub) where
  keyed key sub' hfound := by
    rcases HashMap.lookup_insert_eq_some hfound with ⟨rfl, rfl⟩ | hold
    · rfl
    · exact h.keyed key sub' hold
  proposals key sub' hfound := by
    rcases HashMap.lookup_insert_eq_some hfound with ⟨rfl, rfl⟩ | hold
    · exact hsub
    · exact h.proposals key sub' hold

lemma Inv.step (h : Inv core) (step : InclusionCore.Step core l core') : Inv core' := by
  by_cases hop : ∃ duty pubkey data, l.op = .submitted duty pubkey data
  · cases step with
    | submitted run =>
      rcases submitted_spec run with rfl | ⟨root, rfl, hproposal⟩
      · exact h
      · exact h.record hproposal
    | rejected run => exact h
    | trim order run => simp at hop
    | checkBlock order proposers run => simp at hop
    | checkBlockAndAtts order run => simp at hop
  · push Not at hop
    obtain ⟨subs, hsubs⟩ := resolves h.keyed step hop
    have hold : ∀ key sub, core'.submissions.lookup key = some sub →
        core.submissions.lookup key = some sub := by
      intro key sub hfound
      rw [hsubs.lookup_eq] at hfound
      split at hfound
      · cases hfound
      · exact hfound
    exact ⟨fun key sub hfound => h.keyed key sub (hold key sub hfound),
      fun key sub hfound => h.proposals key sub (hold key sub hfound)⟩

/-- `submitted` records nothing under another key. -/
lemma recorded_of_submitted (step : InclusionCore.Step core l core') {duty : Duty}
    {pubkey : PubKey} {data : SignedData P} (hop : l.op = .submitted duty pubkey data)
    {key : SubKey} (hkey : SubKey.mk duty pubkey ≠ key) :
    core'.recorded key = core.recorded key := by
  cases step with
  | submitted run =>
    obtain ⟨rfl, rfl, rfl⟩ := Op.submitted.inj hop
    rcases submitted_spec run with rfl | ⟨root, rfl, -⟩
    · rfl
    · simp [InclusionCore.recorded, InclusionCore.record, Submission.key,
        AList.lookup_insert_ne (Ne.symm hkey)]
  | rejected run => rfl
  | trim order run => cases hop
  | checkBlock order proposers run => cases hop
  | checkBlockAndAtts order run => cases hop

/-- As long as a key is not submitted again, its resolutions are what is missing of its record. -/
lemma length_resolutions_run {tr : List (Label P)} (h : Inv core)
    (run : Trace InclusionCore.Step core tr core') {key : SubKey}
    (hsubmits : ∀ l ∈ tr, ¬l.Submits key) :
    (tr.flatMap (Label.resolutions key)).length + core'.recorded key = core.recorded key := by
  refine (Trace.induction (E := fun l => ¬l.Submits key) (P := fun tr core' => Inv core' ∧
    (tr.flatMap (Label.resolutions key)).length + core'.recorded key = core.recorded key)
    ⟨h, by simp⟩ ?_ run hsubmits).2
  rintro tr core₁ l core₂ hl ⟨hinv, hcount⟩ step
  refine ⟨hinv.step step, ?_⟩
  have hstep : (l.resolutions key).length + core₂.recorded key = core₁.recorded key := by
    by_cases hop : ∃ duty pubkey data, l.op = .submitted duty pubkey data
    · obtain ⟨duty, pubkey, data, hop⟩ := hop
      have hkey : SubKey.mk duty pubkey ≠ key := fun hkey => hl ⟨duty, pubkey, data, hop, hkey⟩
      have hsame := recorded_of_submitted step hop hkey
      rw [Label.resolutions, hop, hsame, List.length_nil, Nat.zero_add]
    · push Not at hop
      obtain ⟨subs, hsubs⟩ := resolves hinv.keyed step hop
      exact length_resolutions hop hsubs key
  rw [List.flatMap_append, List.length_append, List.flatMap_singleton]
  omega

/-- A step is inconsistent if it is for a slot without a block and there are proposals of it. -/
lemma consistent_iff_found (h : Inv core) (step : InclusionCore.Step core l core') :
    l.Consistent ↔ ∀ slot, l.op = .checkBlock slot false →
      ∀ key sub, core.submissions.lookup key = some sub → sub.duty.slot ≠ slot := by
  by_cases hop : ∃ duty pubkey data, l.op = .submitted duty pubkey data
  · obtain ⟨duty, pubkey, data, hop⟩ := hop
    simp [Label.Consistent, Label.resolutions, hop]
  · push Not at hop
    cases step with
    | submitted run => exact absurd rfl (hop _ _ _)
    | rejected run => exact absurd rfl (hop _ _ _)
    | trim order run =>
      obtain ⟨subs, hsubs⟩ := resolves h.keyed (.trim order run) hop
      simp [consistent_iff hop hsubs, Op.verdict, Op.misses]
    | checkBlockAndAtts order run =>
      obtain ⟨subs, hsubs⟩ := resolves h.keyed (.checkBlockAndAtts order run) hop
      simp [consistent_iff hop hsubs, Op.verdict, Op.misses]
    | @checkBlock _ slot found calls order proposers run =>
      obtain ⟨subs, hsubs, hslots, hall⟩ := resolves_checkBlock h.keyed run
      rw [consistent_iff hop hsubs]
      cases found with
      | true => simp [Op.verdict, Op.misses]
      | false =>
        simp only [Op.verdict, Op.misses, Op.checkBlock.injEq, and_true]
        constructor
        · rintro (rfl | hverdict) slot' rfl key sub hsub hslot
          · have hproposal := h.proposals key sub hsub (proposers key sub hsub)
            simpa using hall key sub hsub hslot hproposal
          · simp at hverdict
        · intro hnone
          refine .inl (List.eq_nil_iff_forall_not_mem.mpr fun sub hsub => ?_)
          exact hnone slot rfl sub.key sub (hsubs.recorded sub hsub) (hslots sub hsub)

lemma inv_of_run {attestationInclusion : Bool} {root : AttestationData → HashRoot}
    {tr : List (Label P)}
    (run : Trace InclusionCore.Step (InclusionCore.new attestationInclusion root) tr core) :
    Inv core :=
  run.invariant ⟨by simp [Keyed, InclusionCore.new], by simp [InclusionCore.new]⟩
    fun _ _ _ h step => h.step step

/-- **Each duty is resolved once, and consistently except for missed blocks.**  In every run, a key
is resolved at most once between two submissions of it.  After every run, the next operation
tells the tracker that a duty is not included if and only if it reports the duty as missed, unless
that operation is `check_block` for a slot without a block and a submission of the slot is recorded;
then it does not. -/
theorem resolved_once {attestationInclusion : Bool} {root : AttestationData → HashRoot}
    {tr : List (Label P)}
    (run : Trace InclusionCore.Step (InclusionCore.new attestationInclusion root) tr core) :
    (∀ past stretch future key, tr = past ++ stretch ++ future →
      (∀ l ∈ stretch, ¬l.Submits key) →
        (stretch.flatMap (Label.resolutions key)).length ≤ 1) ∧
    ∀ l core', InclusionCore.Step core l core' →
      (l.Consistent ↔ ∀ slot, l.op = .checkBlock slot false →
        ∀ key sub, core.submissions.lookup key = some sub → sub.duty.slot ≠ slot) := by
  constructor
  · rintro past stretch future key rfl hsubmits
    obtain ⟨core₂, run₂, -⟩ := run.split
    obtain ⟨core₁, run₁, hstretch⟩ := run₂.split
    have hcount := length_resolutions_run (inv_of_run run₁) hstretch hsubmits
    have hone : core₁.recorded key ≤ 1 := by
      unfold InclusionCore.recorded
      split <;> omega
    omega
  · intro l core' step
    exact consistent_iff_found (inv_of_run run) step

end Verdicts

/-! ## A proposal that is missed -/

namespace Missed

/-- Blocks without graffiti, and nothing else. -/
def payloads : SignedData.Payloads :=
  ⟨Unit, fun _ => .zero, Unit, Unit, Unit, Unit, Unit⟩

def duty : Duty := ⟨5, .proposer⟩

def pubkey : PubKey := ⟨List.replicate 48 0, length_zeros⟩

def data : SignedData payloads := .versionedSignedProposal ⟨.phase0, false, ()⟩

def sub : Submission payloads := ⟨duty, pubkey, data, .zero⟩

def start : InclusionCore payloads := .new false fun _ => .zero

lemma submitted_eq : start.submitted duty pubkey data = .ok ([], start.record sub) := rfl

lemma run_submitted :
    Trace InclusionCore.Step start [⟨.submitted duty pubkey data, []⟩] (start.record sub) :=
  .single (.submitted submitted_eq)

end Missed

/-- A submission that is trimmed: reported as missed and as not included. -/
theorem resolved_once_trimmed :
    (⟨.trim 5, InclusionCore.reportTrimmed Missed.sub⟩ : Label Missed.payloads).Consistent :=
  ((resolved_once Missed.run_submitted).2 _ Missed.start
    (.trim (IterOrder.stored _) rfl)).mpr nofun

/-- **A missed block is reported as included.**  A proposal is submitted and no block is found in its
slot: `check_block` calls the callback for missed duties, and then the tracker without an error. -/
theorem missed_block_included :
    Trace InclusionCore.Step Missed.start
      [⟨.submitted Missed.duty Missed.pubkey Missed.data, []⟩,
        ⟨.checkBlock 5 false,
          [.missed Missed.sub, .trackerIncl Missed.duty Missed.pubkey none]⟩]
      Missed.start ∧
    ¬(⟨.checkBlock 5 false,
      [.missed Missed.sub, .trackerIncl Missed.duty Missed.pubkey none]⟩ :
        Label Missed.payloads).Consistent := by
  have hstep : InclusionCore.Step (Missed.start.record Missed.sub) ⟨.checkBlock 5 false,
      [.missed Missed.sub, .trackerIncl Missed.duty Missed.pubkey none]⟩ Missed.start := by
    refine .checkBlock (IterOrder.stored _) (fun key sub hsub => ?_) rfl
    rcases HashMap.lookup_insert_eq_some hsub with ⟨-, rfl⟩ | hold
    · rfl
    · simp [Missed.start, InclusionCore.new] at hold
  refine ⟨Missed.run_submitted.snoc hstep, fun hconsistent => ?_⟩
  have hnone := (hconsistent Missed.sub.key none (by decide)).mpr ⟨Missed.sub, by simp, rfl⟩
  cases hnone

end Pluto.Core.Tracker
