import Pluto.Core.ValidatorApi.Soundness

/-!
# What the validator API loses

The entries of a request are kept by slot and public key, so that of two entries with the same slot and
key only the later one is handed on, and only one aggregate is asked for: for sync committee selections and
contributions these are the entries of a validator in several subcommittees.  The database of aggregates is
keyed in the same way, so it may also hold the aggregate of another selection.  `handed_on_all_iff` says
that a request that succeeds loses nothing exactly if neither is the case.
-/

namespace Pluto.Core.ValidatorApi

open Attempt (exec_ite exec_bind_eq_ok exec_ofExcept)
open Except (mapError_ok_iff mapM_ok_iff bind_ok_iff okOr_ok_iff pure_ok_iff mapM_ok_mem)
open Ssz Eth2Api Eth2Util
open Crypto (Curve Blst.Pairing)
open Attempt (exec Keeps)

/-! ## Keys -/

/-- What an entry is kept under. -/
def Prepared.key (p : Prepared) : UInt64 × PubKey := (p.slot, p.pubkey)

namespace SetsBySlot

variable {ps : List Prepared} {sets : SetsBySlot}

/-- The last turn with a key is the one that is found. -/
lemma find_foldl_of_not_mem {key : UInt64 × PubKey} (h : key ∉ ps.map Prepared.key) :
    (ps.foldl add sets).find key.1 key.2 = sets.find key.1 key.2 := by
  induction ps generalizing sets with
  | nil => rfl
  | cons p ps ih =>
    rw [List.map_cons, List.mem_cons, not_or] at h
    rw [List.foldl_cons, ih h.2, find_add, if_neg]
    rintro ⟨hslot, hkey⟩
    exact h.1 (Prod.ext hslot hkey)

/-- Every key of a turn is found. -/
lemma isSome_find_foldl_iff {key : UInt64 × PubKey} :
    ((ps.foldl add sets).find key.1 key.2).isSome ↔
      key ∈ ps.map Prepared.key ∨ (sets.find key.1 key.2).isSome := by
  induction ps generalizing sets with
  | nil => simp
  | cons p ps ih =>
    rw [List.foldl_cons, ih, find_add, List.map_cons, List.mem_cons]
    by_cases hkey : key = p.key
    · subst hkey
      simp [Prepared.key]
    · have hne : ¬(key.1 = p.slot ∧ key.2 = p.pubkey) := fun h => hkey (Prod.ext h.1 h.2)
      simp [hne, hkey]

/-- Without repeated keys, every turn is found. -/
lemma find_foldl_of_nodup (hnodup : (ps.map Prepared.key).Nodup) {p : Prepared} (hp : p ∈ ps) :
    (ps.foldl add sets).find p.slot p.pubkey = some p.parSig := by
  induction ps generalizing sets with
  | nil => cases hp
  | cons q ps ih =>
    rw [List.map_cons, List.nodup_cons] at hnodup
    rcases List.mem_cons.mp hp with rfl | hp
    · have hlast : (ps.foldl add (sets.add p)).find p.slot p.pubkey =
          (sets.add p).find p.slot p.pubkey := find_foldl_of_not_mem hnodup.1
      exact hlast.trans (by simp [find_add])
    · exact ih hnodup.2 hp

/-- If every turn is found, then turns with the same key are equal. -/
lemma nodup_key_of_find (hnodup : ps.Nodup)
    (h : ∀ p ∈ ps, sets.find p.slot p.pubkey = some p.parSig) : (ps.map Prepared.key).Nodup := by
  refine hnodup.map_on fun p hp q hq hkey => ?_
  obtain ⟨hslot, hpubkey⟩ := Prod.mk.inj hkey
  have hfound := h p hp
  rw [hslot, hpubkey, h q hq] at hfound
  cases p
  cases q
  simp_all

end SetsBySlot

/-! ## Handlers that succeed -/

namespace Component

variable {c : Component} {orders : Orders} {error : ApiError} {dutyType : DutyType}

/-- Every subscriber has got every set. -/
def HandsOut (c : Component) (dutyType : DutyType) (sets : SetsBySlot) (calls : List Call) : Prop :=
  ∀ i < c.subs.length, ∀ slot set, sets.lookup slot = some set → ⟨i, ⟨slot, dutyType⟩, set⟩ ∈ calls

variable {calls calls' : List Call}

lemma mem_of_fanout_ok {duty : Duty} {set : ParSignedDataSet}
    (h : exec (c.fanout error duty set) calls = (.ok ⟨⟩, calls')) {i : ℕ} (hi : i < c.subs.length) :
    ⟨i, duty, set⟩ ∈ calls' := by
  have hmem : (c.subs[i], i) ∈ c.subs.zipIdx := by
    rw [List.mem_zipIdx_iff_getElem?]
    exact List.getElem?_eq_getElem hi
  have hkeeps : ∀ sub ∈ c.subs.zipIdx, Keeps (Adds fun _ => True)
      (do modify (· ++ [⟨sub.2, duty, set⟩])
          if sub.1 duty set then pure ⟨⟩ else throw (.api error) : Handler PUnit) := by
    refine fun sub _ => Keeps.bind Adds.trans (fun calls => ⟨[_], rfl, by simp⟩) fun _ => ?_
    refine Attempt.keeps_of_refl Adds.refl fun calls => ?_
    rw [exec_ite]
    split_ifs <;> rfl
  obtain ⟨s₁, s₂, hturn, new, rfl, -⟩ :=
    Attempt.exists_turn_of_forM_ok Adds.refl Adds.trans hkeeps h hmem
  obtain ⟨_, s₃, hmodify, hsub⟩ := exec_bind_eq_ok.mp hturn
  have hs₂ : s₂ = s₁ ++ [⟨i, duty, set⟩] := by
    have hs₃ : s₃ = s₁ ++ [⟨i, duty, set⟩] := (Prod.mk.inj hmodify).2.symm
    rw [exec_ite] at hsub
    split_ifs at hsub
    · exact (Prod.mk.inj hsub).2.symm.trans hs₃
    · exact absurd (Prod.mk.inj hsub).1 nofun
  rw [hs₂]
  simp

lemma handsOut_of_fanoutAll_ok {sets : SetsBySlot}
    (h : exec (c.fanoutAll orders error dutyType sets) calls = (.ok ⟨⟩, calls')) :
    c.HandsOut dutyType sets calls' := by
  intro i hi slot set hset
  have hkeeps : ∀ e ∈ orders.slots.order sets.entries,
      Keeps (Adds fun _ => True) (c.fanout error ⟨e.1, dutyType⟩ e.2) :=
    fun e _ calls => (keeps_fanout ⟨e.1, dutyType⟩ e.2 calls).mono fun _ _ => trivial
  have hmem : ⟨slot, set⟩ ∈ orders.slots.order sets.entries := HashMap.mem_order_iff.mpr hset
  obtain ⟨s₁, s₂, hturn, new, rfl, -⟩ :=
    Attempt.exists_turn_of_forM_ok Adds.refl Adds.trans hkeeps h hmem
  exact List.mem_append_left _ (mem_of_fanout_ok hturn hi)

variable {α β : Type} {prepare : α → Except ApiError Prepared} {entries : List α}

lemma submit_ok
    (h : exec (c.submit orders error dutyType prepare entries) calls = (.ok ⟨⟩, calls')) :
    ∃ ps, entries.mapM prepare = .ok ps ∧
      c.HandsOut dutyType (ps.foldl SetsBySlot.add ∅) calls' := by
  obtain ⟨sets, s₁, hsets, hfanout⟩ := exec_bind_eq_ok.mp h
  rw [exec_ofExcept] at hsets
  obtain ⟨ps, hps, rfl⟩ := groupBySlot_ok_iff.mp (mapError_ok_iff.mp (Prod.mk.inj hsets).1)
  exact ⟨ps, hps, handsOut_of_fanoutAll_ok hfanout⟩

lemma select_ok {name : String} {downcast : Eth2SignedData → Option β} {resp : List β}
    (h : exec (c.select orders name dutyType prepare downcast entries) calls = (.ok resp, calls')) :
    ∃ ps, entries.mapM prepare = .ok ps ∧
      c.HandsOut dutyType (ps.foldl SetsBySlot.add ∅) calls' ∧
      ∃ await, c.awaitAggSigDb = some await ∧
        List.Forall₂ (fun key b => ∃ signed, await ⟨key.1, dutyType⟩ key.2 = some signed ∧
          downcast signed = some b) (slotKeys orders (ps.foldl SetsBySlot.add ∅)) resp := by
  obtain ⟨sets, s₁, hsets, h⟩ := exec_bind_eq_ok.mp h
  obtain ⟨_, s₂, hfanout, hawait⟩ := exec_bind_eq_ok.mp h
  rw [exec_ofExcept] at hsets
  obtain ⟨ps, hps, rfl⟩ := groupBySlot_ok_iff.mp (mapError_ok_iff.mp (Prod.mk.inj hsets).1)
  refine ⟨ps, hps, ?_⟩
  cases hhook : c.awaitAggSigDb with
  | none =>
    rw [hhook] at hawait
    exact absurd (Prod.mk.inj hawait).1 nofun
  | some await =>
    rw [hhook, exec_ofExcept] at hawait
    obtain ⟨hresp, rfl⟩ := Prod.mk.inj hawait
    refine ⟨handsOut_of_fanoutAll_ok hfanout, await, rfl, ?_⟩
    refine (mapM_ok_iff.mp (mapError_ok_iff.mp hresp)).imp fun key b hb => ?_
    obtain ⟨signed, hsigned, hdowncast⟩ := bind_ok_iff.mp hb
    exact ⟨signed, okOr_ok_iff.mp hsigned, okOr_ok_iff.mp hdowncast⟩

/-! ### The keys that aggregates are asked for -/

lemma mem_slotKeys_iff {sets : SetsBySlot} {key : UInt64 × PubKey} :
    key ∈ slotKeys orders sets ↔ (sets.find key.1 key.2).isSome := by
  rw [slotKeys, List.mem_flatMap, Option.isSome_iff_exists]
  constructor
  · rintro ⟨⟨slot, set⟩, hset, hkey⟩
    obtain ⟨pubkey, hpubkey, rfl⟩ := List.mem_map.mp hkey
    obtain ⟨parSig, hparSig⟩ := HashMap.mem_keysIn.mp hpubkey
    refine ⟨parSig, ?_⟩
    rw [SetsBySlot.find, HashMap.mem_order_iff.mp hset]
    exact hparSig
  · rintro ⟨parSig, hfind⟩
    obtain ⟨set, hset, hparSig⟩ := Option.bind_eq_some_iff.mp hfind
    exact ⟨⟨key.1, set⟩, HashMap.mem_order_iff.mpr hset,
      List.mem_map.mpr ⟨key.2, HashMap.mem_keysIn.mpr ⟨parSig, hparSig⟩, rfl⟩⟩

lemma nodup_slotKeys (sets : SetsBySlot) : (slotKeys orders sets).Nodup := by
  refine List.nodup_flatMap.mpr ⟨fun e _ => ?_, ?_⟩
  · exact (HashMap.nodup_keysIn _ _).map fun a b h => (Prod.mk.inj h).2
  · have hslots : ((orders.slots.order sets.entries).map Sigma.fst).Nodup :=
      HashMap.nodup_keysIn orders.slots sets
    refine (List.pairwise_map.mp hslots).imp fun hne => ?_
    intro key hkey hkey'
    obtain ⟨_, _, rfl⟩ := List.mem_map.mp hkey
    obtain ⟨_, _, heq⟩ := List.mem_map.mp hkey'
    exact hne (Prod.mk.inj heq).1.symm

variable {ps : List Prepared}

lemma mem_slotKeys_foldl_iff {key : UInt64 × PubKey} :
    key ∈ slotKeys orders (ps.foldl SetsBySlot.add ∅) ↔ key ∈ ps.map Prepared.key := by
  rw [mem_slotKeys_iff, SetsBySlot.isSome_find_foldl_iff]
  simp

/-- Without repeated keys, there is one aggregate for each turn. -/
lemma slotKeys_perm (hnodup : (ps.map Prepared.key).Nodup) :
    (slotKeys orders (ps.foldl SetsBySlot.add ∅)).Perm (ps.map Prepared.key) :=
  (List.perm_ext_iff_of_nodup (nodup_slotKeys _) hnodup).mpr fun _ => mem_slotKeys_foldl_iff

/-- If there are as many aggregates as turns, then no key is repeated. -/
lemma nodup_key_of_length_slotKeys
    (h : (slotKeys orders (ps.foldl SetsBySlot.add ∅)).length = ps.length) :
    (ps.map Prepared.key).Nodup := by
  have hsame : (slotKeys orders (ps.foldl SetsBySlot.add ∅)).toFinset =
      (ps.map Prepared.key).toFinset := by
    ext key
    rw [List.mem_toFinset, List.mem_toFinset, mem_slotKeys_foldl_iff]
  have hcard : (slotKeys orders (ps.foldl SetsBySlot.add ∅)).toFinset.card =
      (slotKeys orders (ps.foldl SetsBySlot.add ∅)).length :=
    List.toFinset_card_of_nodup (nodup_slotKeys _)
  rw [hsame, h, ← List.length_map Prepared.key] at hcard
  exact Multiset.coe_nodup.mp (Multiset.toFinset_card_eq_card_iff_nodup.mp hcard)

end Component

/-! ## Requests -/

/-- The validator, the slot and the subcommittee of a selection. -/
def selectionOf : Eth2SignedData → Option (UInt64 × UInt64 × Option UInt64)
  | .beaconCommitteeSelection selection => some (selection.validatorIndex, selection.slot, none)
  | .syncCommitteeSelection selection =>
    some (selection.validatorIndex, selection.slot, some selection.subcommitteeIndex)
  | _ => none

namespace Request

/-- The endpoints that return aggregates. -/
def isSelection : Request → Bool
  | beaconCommitteeSelections .. | syncCommitteeSelections .. => true
  | _ => false

variable {F G₁ G₂ : Type} [Field F] [AddCommGroup G₁] [Module F G₁] [AddCommGroup G₂] [Module F G₂]
  {curve : Curve F G₁ G₂} (sha256 : Bytes → HashRoot) (pairing : Blst.Pairing curve) (c : Component)
  (orders : Orders)

/-- What a request returns: the aggregated selections, or nothing. -/
def result : Request → Except Failure (List Eth2SignedData)
  | attestations entries =>
    (exec (c.submitAttestations orders sha256 pairing entries) []).1.map fun _ => []
  | aggregateAttestations answer entries =>
    (exec (c.submitAggregateAttestations orders sha256 pairing answer entries) []).1.map fun _ => []
  | beaconCommitteeSelections answer entries =>
    (exec (c.beaconCommitteeSelections orders sha256 pairing answer entries) []).1.map
      (List.map .beaconCommitteeSelection)
  | syncCommitteeSelections answer entries =>
    (exec (c.syncCommitteeSelections orders sha256 pairing answer entries) []).1.map
      (List.map .syncCommitteeSelection)
  | syncCommitteeContributions answer entries =>
    (exec (c.submitSyncCommitteeContributions orders sha256 pairing answer entries) []).1.map
      fun _ => []
  | syncCommitteeMessages answer entries =>
    (exec (c.submitSyncCommitteeMessages orders sha256 pairing answer entries) []).1.map fun _ => []

/-- What is known of a request that has returned some aggregates. -/
structure Succeeded (request : Request) (ps : List Prepared) (resp : List Eth2SignedData) : Prop where
  turns : request.entries.mapM (request.turn sha256 pairing c) = .ok ps
  handsOut : c.HandsOut request.dutyType (ps.foldl SetsBySlot.add ∅)
    (request.calls sha256 pairing c orders)
  aggregates : request.isSelection = true → ∃ await, c.awaitAggSigDb = some await ∧
    List.Forall₂ (fun key d => await ⟨key.1, request.dutyType⟩ key.2 = some d)
      (Component.slotKeys orders (ps.foldl SetsBySlot.add ∅)) resp

variable {sha256 pairing c orders}

/-- A handler that needs the active validators has got them if it succeeds. -/
lemma exists_of_fetch_ok {γ : Type} {answer : Except CacheError ActiveValidators}
    {handler : ActiveValidators → Handler γ} {a : γ} {calls calls' : List Call}
    (h : exec (Attempt.ofExcept ((Component.fetchActiveValidators answer).mapError .api) >>= handler)
      calls = (.ok a, calls')) :
    ∃ vals, answer = .ok vals ∧ exec (handler vals) calls = (.ok a, calls') := by
  obtain ⟨vals, s₁, hvals, hrest⟩ := exec_bind_eq_ok.mp h
  rw [exec_ofExcept] at hvals
  obtain ⟨hanswer, rfl⟩ := Prod.mk.inj hvals
  exact ⟨vals, mapError_ok_iff.mp (mapError_ok_iff.mp hanswer), hrest⟩

lemma exists_exec_ok {γ δ : Type} {handler : Handler γ} {f : γ → δ} {b : δ}
    (h : (exec handler []).1.map f = .ok b) :
    ∃ a, exec handler [] = (.ok a, (exec handler []).2) ∧ f a = b := by
  cases hexec : (exec handler []).1 with
  | error e => rw [hexec] at h; cases h
  | ok a =>
    rw [hexec] at h
    exact ⟨a, Prod.ext hexec rfl, Except.ok.inj h⟩

lemma succeeded_of_result_ok {request : Request} {resp : List Eth2SignedData}
    (h : request.result sha256 pairing c orders = .ok resp) :
    ∃ ps, request.Succeeded sha256 pairing c orders ps resp := by
  cases request with
  | attestations entries =>
    obtain ⟨_, hexec, -⟩ := exists_exec_ok h
    obtain ⟨ps, hps, hout⟩ := Component.submit_ok hexec
    exact ⟨ps, (mapM_map_entries (fun _ => rfl) entries).trans hps, hout, nofun⟩
  | aggregateAttestations answer entries | syncCommitteeContributions answer entries
  | syncCommitteeMessages answer entries =>
    obtain ⟨_, hexec, -⟩ := exists_exec_ok h
    obtain ⟨vals, rfl, hrest⟩ := exists_of_fetch_ok hexec
    obtain ⟨ps, hps, hout⟩ := Component.submit_ok hrest
    exact ⟨ps, (mapM_map_entries (fun _ => rfl) entries).trans hps, hout, nofun⟩
  | beaconCommitteeSelections answer entries | syncCommitteeSelections answer entries =>
    obtain ⟨selections, hexec, rfl⟩ := exists_exec_ok h
    obtain ⟨vals, rfl, hrest⟩ := exists_of_fetch_ok hexec
    obtain ⟨ps, hps, hout, await, hawait, haggs⟩ := Component.select_ok hrest
    refine ⟨ps, (mapM_map_entries (fun _ => rfl) entries).trans hps, hout, fun _ =>
      ⟨await, hawait, List.forall₂_map_right_iff.mpr (haggs.imp ?_)⟩⟩
    rintro key selection ⟨signed, hsigned, hdowncast⟩
    cases signed <;> cases hdowncast
    exact hsigned

variable (sha256 pairing c orders)

/-- Every subscriber has got every entry. -/
def HandedOnAll (request : Request) : Prop :=
  ∀ i < c.subs.length, ∀ entry ∈ request.entries,
    ∃ call ∈ request.calls sha256 pairing c orders, call.sub = i ∧
      ∃ pubkey parSig, call.set.lookup pubkey = some parSig ∧ parSig.signedData = entry.2

/-- The aggregates that the database has for the keys of a request are, up to their order, those of the
selections that were kept under these keys. -/
def AggregatesKept (request : Request) : Prop :=
  ∀ ps await, request.entries.mapM (request.turn sha256 pairing c) = .ok ps →
    c.awaitAggSigDb = some await →
    ((Component.slotKeys orders (ps.foldl SetsBySlot.add ∅)).map fun key =>
      (await ⟨key.1, request.dutyType⟩ key.2).bind selectionOf).Perm
    ((Component.slotKeys orders (ps.foldl SetsBySlot.add ∅)).map fun key =>
      ((ps.foldl SetsBySlot.add ∅).find key.1 key.2).bind fun parSig => selectionOf parSig.signedData)

/-- No two entries have the same slot and the same key. -/
def SeparateKeys (request : Request) : Prop :=
  ∀ ps, request.entries.mapM (request.turn sha256 pairing c) = .ok ps → (ps.map Prepared.key).Nodup

end Request

section Lost

variable {F G₁ G₂ : Type} [Field F] [AddCommGroup G₁] [Module F G₁] [AddCommGroup G₂] [Module F G₂]
  {curve : Curve F G₁ G₂} {sha256 : Bytes → HashRoot} {pairing : Blst.Pairing curve} {c : Component}
  {orders : Orders}

/-- A turn keeps the data of its entry. -/
lemma Component.signedData_of_prepare {vals : ActiveValidators} {up : Upstream} {data : Eth2SignedData}
    {p : Prepared} (h : c.prepare sha256 pairing vals up data = .ok p) :
    p.parSig.signedData = data := by
  cases data with
  | versionedAttestation att =>
    obtain ⟨_, _, h⟩ := bind_ok_iff.mp h
    obtain ⟨_, _, h⟩ := bind_ok_iff.mp h
    obtain ⟨_, _, h⟩ := bind_ok_iff.mp h
    obtain ⟨_, _, h⟩ := bind_ok_iff.mp h
    obtain ⟨_, _, h⟩ := bind_ok_iff.mp h
    obtain ⟨_, _, h⟩ := bind_ok_iff.mp h
    exact pure_ok_iff.mp h ▸ rfl
  | versionedSignedAggregateAndProof agg =>
    obtain ⟨_, _, h⟩ := bind_ok_iff.mp h
    obtain ⟨_, _, h⟩ := bind_ok_iff.mp h
    obtain ⟨_, _, h⟩ := bind_ok_iff.mp h
    dsimp only at h
    split_ifs at h with hinsecure
    · exact pure_ok_iff.mp h ▸ rfl
    · obtain ⟨_, _, h⟩ := bind_ok_iff.mp h
      obtain ⟨_, _, h⟩ := bind_ok_iff.mp h
      obtain ⟨_, _, h⟩ := bind_ok_iff.mp h
      exact pure_ok_iff.mp h ▸ rfl
  | beaconCommitteeSelection selection | syncCommitteeSelection selection
  | signedSyncMessage msg =>
    obtain ⟨_, _, h⟩ := bind_ok_iff.mp h
    obtain ⟨_, _, h⟩ := bind_ok_iff.mp h
    exact pure_ok_iff.mp h ▸ rfl
  | signedSyncContributionAndProof contrib =>
    obtain ⟨_, _, h⟩ := bind_ok_iff.mp h
    dsimp only at h
    split_ifs at h with hinsecure
    · obtain ⟨_, _, h⟩ := bind_ok_iff.mp h
      exact pure_ok_iff.mp h ▸ rfl
    · obtain ⟨_, _, h⟩ := bind_ok_iff.mp h
      obtain ⟨_, _, h⟩ := bind_ok_iff.mp h
      exact pure_ok_iff.mp h ▸ rfl

namespace Request

variable {request : Request} {ps : List Prepared} {resp : List Eth2SignedData}

lemma map_signedData (hps : request.entries.mapM (request.turn sha256 pairing c) = .ok ps) :
    ps.map (fun p => p.parSig.signedData) = request.entries.map Prod.snd :=
  Except.map_eq_of_mapM_ok hps Prod.snd _ fun _ _ _ h => Component.signedData_of_prepare h

namespace Succeeded

variable (h : request.Succeeded sha256 pairing c orders ps resp)

include h

/-- Without repeated keys, every entry has been handed on. -/
lemma handedOnAll (hnodup : (ps.map Prepared.key).Nodup) : request.HandedOnAll sha256 pairing c orders := by
  intro i hi entry hentry
  obtain ⟨p, hp, hturn⟩ := (mapM_ok_mem h.turns).2 entry hentry
  have hfind : (ps.foldl SetsBySlot.add ∅).find p.slot p.pubkey = some p.parSig :=
    SetsBySlot.find_foldl_of_nodup hnodup hp
  obtain ⟨set, hset, hparSig⟩ := Option.bind_eq_some_iff.mp hfind
  exact ⟨_, h.handsOut i hi p.slot set hset, rfl, p.pubkey, p.parSig, hparSig,
    Component.signedData_of_prepare hturn⟩

/-- If some subscriber has got every entry, then every turn is found. -/
lemma find_of_handedOnAll (hdata : (ps.map fun p => p.parSig.signedData).Nodup) (hsubs : c.subs ≠ [])
    (hall : request.HandedOnAll sha256 pairing c orders) {p : Prepared} (hp : p ∈ ps) :
    (ps.foldl SetsBySlot.add ∅).find p.slot p.pubkey = some p.parSig := by
  obtain ⟨entry, hentry, hturn⟩ := (mapM_ok_mem h.turns).1 p hp
  obtain ⟨call, hcall, -, pubkey, parSig, hparSig, hsame⟩ :=
    hall 0 (List.length_pos_iff.mpr hsubs) entry hentry
  obtain ⟨ps', slot, hps', -, hset⟩ := calls_spec request call hcall
  obtain rfl := Except.ok.inj (h.turns.symm.trans hps')
  have hfind : (ps.foldl SetsBySlot.add ∅).find slot pubkey = some parSig := by
    rw [SetsBySlot.find, hset]
    exact hparSig
  -- what was handed on is this turn, since the entries are distinct
  have hmem := (SetsBySlot.find_foldl_eq_some hfind).resolve_right (by simp)
  have heq : (⟨slot, pubkey, parSig⟩ : Prepared) = p :=
    List.inj_on_of_nodup_map hdata hmem hp
      (hsame.trans (Component.signedData_of_prepare hturn).symm)
  rw [← heq]
  exact hfind

/-- If some subscriber has got every entry, then no key is repeated. -/
lemma nodup_key (hdistinct : (request.entries.map Prod.snd).Nodup) (hsubs : c.subs ≠ [])
    (hall : request.HandedOnAll sha256 pairing c orders) : (ps.map Prepared.key).Nodup := by
  have hdata : (ps.map fun p => p.parSig.signedData).Nodup := map_signedData h.turns ▸ hdistinct
  have hfound : ∀ p ∈ ps, (ps.foldl SetsBySlot.add ∅).find p.slot p.pubkey = some p.parSig := by
    intro p hp
    exact h.find_of_handedOnAll hdata hsubs hall hp
  exact SetsBySlot.nodup_key_of_find hdata.of_map hfound

/-- The aggregates that come back are those of the database. -/
lemma map_selectionOf (hselection : request.isSelection = true) : ∃ await, c.awaitAggSigDb = some await ∧
      resp.map selectionOf = (Component.slotKeys orders (ps.foldl SetsBySlot.add ∅)).map fun key =>
        (await ⟨key.1, request.dutyType⟩ key.2).bind selectionOf := by
  obtain ⟨await, hawait, haggs⟩ := h.aggregates hselection
  refine ⟨await, hawait, Except.map_eq_of_forall₂ haggs _ _ fun key _ d hd => ?_⟩
  rw [hd, Option.bind_some]

/-- Without repeated keys, the selections that are kept are those of the entries. -/
lemma perm_entries (hnodup : (ps.map Prepared.key).Nodup) :
    ((Component.slotKeys orders (ps.foldl SetsBySlot.add ∅)).map fun key =>
      ((ps.foldl SetsBySlot.add ∅).find key.1 key.2).bind fun parSig =>
        selectionOf parSig.signedData).Perm
      (request.entries.map fun entry => selectionOf entry.2) := by
  have hentries : (request.entries.map fun entry => selectionOf entry.2) =
      ps.map fun p => selectionOf p.parSig.signedData := by
    have := congrArg (List.map selectionOf) (map_signedData h.turns)
    rw [List.map_map, List.map_map] at this
    exact this.symm
  rw [hentries]
  refine ((Component.slotKeys_perm hnodup).map _).trans (List.Perm.of_eq ?_)
  rw [List.map_map]
  refine List.map_congr_left fun p hp => ?_
  have hfind : (ps.foldl SetsBySlot.add ∅).find p.slot p.pubkey = some p.parSig :=
    SetsBySlot.find_foldl_of_nodup hnodup hp
  simp only [Function.comp_apply, Prepared.key, hfind, Option.bind_some]

/-- Without repeated keys, there is one aggregated selection for each entry exactly if the database has
the aggregates of what was kept. -/
lemma perm_selections_iff (hselection : request.isSelection = true) (hnodup : (ps.map Prepared.key).Nodup) :
    (resp.map selectionOf).Perm (request.entries.map fun entry => selectionOf entry.2) ↔
      request.AggregatesKept sha256 pairing c orders := by
  obtain ⟨await, hawait, hresp⟩ := h.map_selectionOf hselection
  have hkept := h.perm_entries hnodup
  constructor
  · intro hperm ps' await' hps' hawait'
    obtain rfl := Except.ok.inj (h.turns.symm.trans hps')
    obtain rfl := Option.some.inj (hawait.symm.trans hawait')
    exact hresp ▸ hperm.trans hkept.symm
  · intro haggs
    rw [hresp]
    exact (haggs ps await h.turns hawait).trans hkept

/-- If there is one aggregated selection for each entry, then no key is repeated. -/
lemma nodup_key_of_perm (hselection : request.isSelection = true)
    (hperm : (resp.map selectionOf).Perm (request.entries.map fun entry => selectionOf entry.2)) :
    (ps.map Prepared.key).Nodup := by
  obtain ⟨await, -, haggs⟩ := h.aggregates hselection
  have hlength := hperm.length_eq
  rw [List.length_map, List.length_map, ← haggs.length_eq,
    (mapM_ok_iff.mp h.turns).length_eq] at hlength
  exact Component.nodup_key_of_length_slotKeys hlength

end Succeeded

end Request

/-- **What is lost.**  A request with distinct entries succeeds.  Every subscriber has got every entry,
and there is one aggregated selection for each submitted one, exactly if no two entries have the same slot
and the same key (or there is nobody to get them), and, for the two endpoints that return aggregates, the
database has the aggregates of what was kept. -/
theorem handed_on_all_iff {request : Request} {resp : List Eth2SignedData}
    (hdistinct : (request.entries.map Prod.snd).Nodup)
    (hok : request.result sha256 pairing c orders = .ok resp) :
    (request.HandedOnAll sha256 pairing c orders ∧
      (request.isSelection = true →
        (resp.map selectionOf).Perm (request.entries.map fun entry => selectionOf entry.2))) ↔
      (request.SeparateKeys sha256 pairing c ∨ request.isSelection = false ∧ c.subs = []) ∧
      (request.isSelection = true → request.AggregatesKept sha256 pairing c orders) := by
  obtain ⟨ps, h⟩ := Request.succeeded_of_result_ok hok
  have hseparate : request.SeparateKeys sha256 pairing c ↔ (ps.map Prepared.key).Nodup := by
    refine ⟨fun hall => hall ps h.turns, fun hnodup ps' hps' => ?_⟩
    exact Except.ok.inj (h.turns.symm.trans hps') ▸ hnodup
  rw [hseparate]
  cases hselection : request.isSelection with
  | true =>
    constructor
    · rintro ⟨-, hperm⟩
      have hnodup := h.nodup_key_of_perm hselection (hperm rfl)
      exact ⟨.inl hnodup, fun _ => (h.perm_selections_iff hselection hnodup).mp (hperm rfl)⟩
    · rintro ⟨hnodup | ⟨⟨⟩, -⟩, haggs⟩
      exact ⟨h.handedOnAll hnodup, fun _ => (h.perm_selections_iff hselection hnodup).mpr (haggs rfl)⟩
  | false =>
    constructor
    · rintro ⟨hall, -⟩
      by_cases hsubs : c.subs = []
      · exact ⟨.inr ⟨rfl, hsubs⟩, nofun⟩
      · exact ⟨.inl (h.nodup_key hdistinct hsubs hall), nofun⟩
    · rintro ⟨hnodup | ⟨-, hsubs⟩, -⟩
      · exact ⟨h.handedOnAll hnodup, nofun⟩
      · refine ⟨fun i hi => ?_, nofun⟩
        rw [hsubs] at hi
        cases hi

end Lost

/-! ## A validator in two subcommittees -/

namespace Solo

/-- What is signed in a selection. -/
def selectionRoot (slot subcommitteeIndex : UInt64) : HashRoot :=
  computeSigningRoot chunk
    (HashTree.root (scheme chunk) (Tree.syncAggregatorSelectionData slot subcommitteeIndex))
    ([1, 0, 0, 0] ++ List.replicate 28 0)

/-- A selection of the validator. -/
def selection (slot subcommitteeIndex : UInt64) : V1.SyncCommitteeSelection :=
  ⟨slot, 0, subcommitteeIndex, sign (selectionRoot slot subcommitteeIndex).bytes⟩

/-- The aggregated selections, which are of subcommittee 1 and have a signature of their own. -/
def aggregated (duty : Duty) (_ : PubKey) : Option Eth2SignedData :=
  some (.syncCommitteeSelection ⟨duty.slot, 0, 1, ⟨List.replicate 96 2, rfl⟩⟩)

/-- The node of before, with a database of aggregated selections. -/
def selecting : Component := { component with awaitAggSigDb := some aggregated }

/-- A request with selections of the given slots and subcommittees. -/
def selections (l : List (UInt64 × UInt64)) : Request :=
  .syncCommitteeSelections (.ok (AList.singleton 0 rootKey))
    (l.map fun e => (upstream, selection e.1 e.2))

def turnOf (slot subcommitteeIndex : UInt64) : Prepared :=
  ⟨slot, PubKey.ofBls rootKey, .syncCommitteeSelection (selection slot subcommitteeIndex), 1⟩

/-- Selections of two slots are kept apart. -/
theorem handed_on_all_two_slots :
    (selections [(33, 1), (34, 1)]).HandedOnAll chunk pairing selecting orders := by
  have hturns : (selections [(33, 1), (34, 1)]).entries.mapM
      ((selections [(33, 1), (34, 1)]).turn chunk pairing selecting) =
        .ok [turnOf 33 1, turnOf 34 1] := by decide +kernel
  have hresult : ∃ resp, (selections [(33, 1), (34, 1)]).result chunk pairing selecting orders =
      .ok resp := Except.exists_ok_of_isSome (by decide +kernel)
  obtain ⟨resp, hok⟩ := hresult
  refine ((handed_on_all_iff (by decide +kernel) hok).mpr ⟨.inl fun ps hps => ?_, ?_⟩).1
  · obtain rfl := Except.ok.inj (hturns.symm.trans hps)
    decide +kernel
  · intro _ ps await hps hawait
    obtain rfl := Except.ok.inj (hturns.symm.trans hps)
    obtain rfl := Option.some.inj hawait
    decide +kernel

/-- The validator is in two subcommittees and submits both selections in one slot.  The first one is handed
to nobody, and one aggregated selection comes back. -/
theorem second_subcommittee_only :
    ((selections [(33, 0), (33, 1)]).entries.map Prod.snd).Nodup ∧
      (selections [(33, 0), (33, 1)]).AggregatesKept chunk pairing selecting orders ∧
      ¬(selections [(33, 0), (33, 1)]).HandedOnAll chunk pairing selecting orders ∧
      ∃ resp, (selections [(33, 0), (33, 1)]).result chunk pairing selecting orders = .ok resp ∧
        resp.length = 1 := by
  have hturns : (selections [(33, 0), (33, 1)]).entries.mapM
      ((selections [(33, 0), (33, 1)]).turn chunk pairing selecting) =
        .ok [turnOf 33 0, turnOf 33 1] := by decide +kernel
  -- only the second turn is found
  have hfound : ∀ slot pubkey parSig,
      ([turnOf 33 0, turnOf 33 1].foldl SetsBySlot.add ∅).find slot pubkey = some parSig →
        slot = 33 ∧ parSig = (turnOf 33 1).parSig := by
    intro slot pubkey parSig hfind
    simp only [List.foldl_cons, List.foldl_nil, SetsBySlot.find_add] at hfind
    split_ifs at hfind with hlast hfirst
    · exact ⟨hlast.1, (Option.some.inj hfind).symm⟩
    · exact absurd hfirst hlast
    · cases hfind
  refine ⟨by decide +kernel, ?_, ?_, ?_⟩
  · intro ps await hps hawait
    obtain rfl := Except.ok.inj (hturns.symm.trans hps)
    obtain rfl := Option.some.inj hawait
    decide +kernel
  · intro hall
    obtain ⟨call, hcall, -, pubkey, parSig, hparSig, hsame⟩ :=
      hall 0 (by decide) (upstream, .syncCommitteeSelection (selection 33 0)) (by simp [selections,
        Request.entries])
    obtain ⟨ps, slot, hps, -, hset⟩ := calls_spec _ call hcall
    obtain rfl := Except.ok.inj (hturns.symm.trans hps)
    have hfind : ([turnOf 33 0, turnOf 33 1].foldl SetsBySlot.add ∅).find slot pubkey =
        some parSig := by
      rw [SetsBySlot.find, hset]
      exact hparSig
    obtain ⟨-, rfl⟩ := hfound slot pubkey parSig hfind
    have hne : (1 : UInt64) = 0 :=
      congrArg V1.SyncCommitteeSelection.subcommitteeIndex
        (Eth2SignedData.syncCommitteeSelection.inj hsame)
    exact absurd hne (by decide)
  · refine ⟨[.syncCommitteeSelection ⟨33, 0, 1, ⟨List.replicate 96 2, rfl⟩⟩], ?_, rfl⟩
    decide +kernel

end Solo

end Pluto.Core.ValidatorApi
