import Pluto.Core.ParSigDb.Threshold

/-!
# The exchange of partial signatures

`Exchanger` of `crates/dkg/src/exchanger.rs`.  A node stores its own partial signatures in a
ParSigDB whose threshold is the number of peers, broadcasts them, and waits until the number of
public keys that have reached the threshold is the number of its validators.

The database, the received signatures and the waiting calls take turns.  The lock of the database is
held while a set is stored and its subscribers are called, and that of the collected signatures
while they are read or written, so these are the steps.  What a peer sends is any set for a duty of
the exchange: `do_recv` is given a verifier that accepts everything.  Nothing expires.

## What an exchange returns

Each list that is returned has one signature for each of as many different shares as there are
peers (`Inv.data`).  Which public keys are returned, and whether the signature of the node is
among the ones of a key, depends on what the peers send: the count of the keys does not say which
they are, and a share index need not be one of a peer.  If the peers keep to the public keys of
the set and to the share indices of the cluster, then the exchange is complete
(`exchange_complete`); `forged_key_returned` is a run in which one peer does not.
-/

namespace Pluto.Dkg

open Pluto.Core Pluto.Core.ParSigDb

/-! ## The exchanger -/

/-- Identifies a round of the exchange; it is the slot of the duty. -/
abbrev SigType : Type := UInt64

/-- Slot of the exchange of lock-hash signatures. -/
def sigLock : SigType := 101

/-- First slot of the exchanges of deposit-data signatures. -/
def sigDepositData : SigType := 200

def newSignatureDuty (slot : SigType) : Duty := ⟨slot, .signature⟩

/-- The gate of the exchanger and of the receiving side, which are the same function. -/
def dutyGater (sigTypes : List SigType) (duty : Duty) : Bool :=
  if duty.dutyType ≠ .signature then false
  else if sigDepositData ∈ sigTypes ∧ sigDepositData ≤ duty.slot then true
  else decide (duty.slot ∈ sigTypes)

lemma dutyType_of_dutyGater {sigTypes : List SigType} {duty : Duty}
    (h : dutyGater sigTypes duty = true) : duty.dutyType = .signature := by
  by_contra hne
  rw [dutyGater, if_pos hne] at h
  cases h

inductive ExchangerError (S : SignedData)
  | cancelled
  | unrecognisedSigType (sigType : SigType)
  | sigDb (error : MemDBError S)

/-- The signatures of the keys that have reached the threshold. -/
abbrev SigTypeStore (S : SignedData) : Type :=
  HashMap SigType (HashMap PubKey (List (ParSignedData S)))

/-- The state of an exchanger, with the calls of `exchange` that have stored their set and wait. -/
structure Exchanger (S : SignedData) where
  sigdb : MemDB S
  sigData : SigTypeStore S
  waiting : List (SigType × ParSignedDataSet S)

variable {S : SignedData}

def pushPsigs (sigTypes : List SigType) (sigData : SigTypeStore S) (duty : Duty)
    (set : HashMap PubKey (List (ParSignedData S))) : Except (ExchangerError S) (SigTypeStore S) :=
  if dutyGater sigTypes duty then
    let entry := (sigData.lookup duty.slot).getD ∅
    .ok (sigData.insert duty.slot (entry.insertAll (set.entries.map fun e => (e.1, e.2))))
  else .error (.unrecognisedSigType duty.slot)

namespace Exchanger

def new (S : SignedData) : Exchanger S := ⟨MemDB.new S, ∅, []⟩

/-- The threshold subscriber, which logs the error of `push_psigs` and returns `Ok`. -/
def thresholdSub (sigTypes : List SigType) (duty : Duty) (outcome : MemDB.Outcome S)
    (sigData : SigTypeStore S) : SigTypeStore S :=
  if outcome.called = 0 then sigData
  else match pushPsigs sigTypes sigData duty outcome.output with
    | .ok sigData' => sigData'
    | .error _ => sigData

/-- What a call of the database leaves behind. -/
def stored (sigTypes : List SigType) (duty : Duty) (call : MemDB.Outcome S × MemDB S)
    (ex : Exchanger S) : Exchanger S :=
  { ex with
    sigdb := call.2
    sigData := thresholdSub sigTypes duty call.1 ex.sigData }

section Calls

variable (numPeers : ℕ) (sigTypes : List SigType) (order : PubKey → GroupOrder S)

/-- The subscriber of received sets, which logs the error of `store_external`. -/
def receivedSub (duty : Duty) (set : ParSignedDataSet S) (ex : Exchanger S) : Exchanger S :=
  ex.stored sigTypes duty (ex.sigdb.storeExternal order numPeers duty set [.ok ()])

/-- `exchange`, up to its loop.  The broadcast is the internal subscriber of the database. -/
def startExchange (sigType : SigType) (set : ParSignedDataSet S)
    (broadcast : Except (MemDBError S) Unit) (ex : Exchanger S) :
    Except (ExchangerError S) Unit × Exchanger S :=
  let duty := newSignatureDuty sigType
  let call := ex.sigdb.storeInternal order numPeers duty set [.ok ()] [broadcast]
  let ex' := ex.stored sigTypes duty call
  match call.1.result with
  | .error e => (.error (.sigDb e), ex')
  | .ok () => (.ok (), { ex' with waiting := (sigType, set) :: ex.waiting })

end Calls

/-- The check in the loop of `exchange`. -/
def poll (sigType : SigType) (set : ParSignedDataSet S) (ex : Exchanger S) :
    Option (HashMap PubKey (List (ParSignedData S))) :=
  match ex.sigData.lookup sigType with
  | some data => if data.entries.length = set.entries.length then some data else none
  | none => none

end Exchanger

/-! ## Receiving -/

inductive Failure
  | invalidDuty
  | invalidPartialSignature (error : String)

/-- `do_recv`, for a message that has been decoded. -/
def doRecv (verifier : Duty → PubKey → ParSignedData S → Except String Unit)
    (gater : Duty → Bool) (duty : Duty) (dataSet : ParSignedDataSet S) :
    Except Failure (Duty × ParSignedDataSet S) := do
  if !gater duty then throw .invalidDuty
  dataSet.entries.forM fun (pubKey, parSig) =>
    (verifier duty pubKey parSig).mapError .invalidPartialSignature
  return (duty, dataSet)

/-- The verifier of a ceremony. -/
def acceptAll (_duty : Duty) (_pubKey : PubKey) (_parSig : ParSignedData S) : Except String Unit :=
  .ok ()

lemma doRecv_acceptAll {gater : Duty → Bool} {duty : Duty} (h : gater duty = true)
    (dataSet : ParSignedDataSet S) : doRecv acceptAll gater duty dataSet = .ok (duty, dataSet) := by
  have hall : (dataSet.entries.forM fun (pubKey, parSig) =>
      (acceptAll duty pubKey parSig).mapError Failure.invalidPartialSignature) = .ok () :=
    Except.forM_ok_iff.mpr fun _ _ => rfl
  rw [doRecv, h]
  simp only [Bool.not_true, Bool.false_eq_true, if_false]
  rw [hall]
  rfl

/-! ## Runs -/

namespace Exchanger

/-- A set is received; `exchange` is called and stores its set, or returns an error; a waiting call
returns. -/
inductive Label (S : SignedData)
  | received (duty : Duty) (set : ParSignedDataSet S)
  | called (sigType : SigType) (set : ParSignedDataSet S)
      (result : Except (ExchangerError S) Unit)
  | returned (sigType : SigType) (set : ParSignedDataSet S)
      (result : Except (ExchangerError S) (HashMap PubKey (List (ParSignedData S))))

inductive Step (numPeers : ℕ) (sigTypes : List SigType) :
    Exchanger S → Label S → Exchanger S → Prop
  | received {ex} (order : PubKey → GroupOrder S) {duty duty' : Duty}
      {set set' : ParSignedDataSet S}
      (hrecv : doRecv acceptAll (dutyGater sigTypes) duty' set' = .ok (duty, set)) :
      Step numPeers sigTypes ex (.received duty set)
        (ex.receivedSub numPeers sigTypes order duty set)
  | called {ex} (order : PubKey → GroupOrder S) (sigType : SigType) (set : ParSignedDataSet S)
      (broadcast : Except (MemDBError S) Unit) :
      Step numPeers sigTypes ex
        (.called sigType set (ex.startExchange numPeers sigTypes order sigType set broadcast).1)
        (ex.startExchange numPeers sigTypes order sigType set broadcast).2
  | finished {ex} {sigType : SigType} {set : ParSignedDataSet S}
      {data : HashMap PubKey (List (ParSignedData S))} {before after}
      (hwaiting : ex.waiting = before ++ (sigType, set) :: after)
      (hpoll : ex.poll sigType set = some data) :
      Step numPeers sigTypes ex (.returned sigType set (.ok data))
        { ex with waiting := before ++ after }
  | cancelled {ex} {sigType : SigType} {set : ParSignedDataSet S} {before after}
      (hwaiting : ex.waiting = before ++ (sigType, set) :: after) :
      Step numPeers sigTypes ex (.returned sigType set (.error .cancelled))
        { ex with waiting := before ++ after }

variable {numPeers : ℕ} {sigTypes : List SigType} {ex ex' : Exchanger S} {duty : Duty}
  {sigType : SigType} {set : ParSignedDataSet S} {outcome : MemDB.Outcome S} {db : MemDB S}
  {l : Label S} {tr : List (Label S)}

/-- A call of the database in the run of an exchanger. -/
abbrev Calls (numPeers : ℕ) (ex : Exchanger S) (duty : Duty) (set : ParSignedDataSet S)
    (call : MemDB.Outcome S × MemDB S) : Prop :=
  MemDB.Step numPeers ex.sigdb (.call duty set [.ok ()] call.1) call.2

/-- What a step does: a set is stored, with nothing more to wait for or with a call that waits for
its own set, or a waiting call returns. -/
lemma Step.cases (h : Step numPeers sigTypes ex l ex') :
    (∃ duty set call, l = .received duty set ∧ Calls numPeers ex duty set call ∧
      ex' = ex.stored sigTypes duty call) ∨
    (∃ sigType set call result, l = .called sigType set result ∧
      Calls numPeers ex (newSignatureDuty sigType) set call ∧
      (ex' = ex.stored sigTypes (newSignatureDuty sigType) call ∨
        (∀ e ∈ set.entries, e.2 ∈ call.2.sigs ⟨newSignatureDuty sigType, e.1⟩) ∧
          ex' = { ex.stored sigTypes (newSignatureDuty sigType) call with
            waiting := (sigType, set) :: ex.waiting })) ∨
    (∃ sigType set result before after, l = .returned sigType set result ∧
      ex.waiting = before ++ (sigType, set) :: after ∧
      ex' = { ex with waiting := before ++ after }) := by
  cases h with
  | received order _ => exact .inl ⟨_, _, _, rfl, .external order _ _ _, rfl⟩
  | called order sigType set broadcast =>
    refine .inr (.inl ⟨sigType, set, _, _, rfl, .internal order _ _ [.ok ()] [broadcast], ?_⟩)
    rw [startExchange]
    cases hresult : (MemDB.storeInternal order numPeers (newSignatureDuty sigType) set [.ok ()]
        [broadcast] ex.sigdb).1.result with
    | error e => exact .inl rfl
    | ok =>
      exact .inr ⟨fun e he => MemDB.mem_sigs_of_storeInternal_ok hresult he, rfl⟩
  | finished hwaiting _ | cancelled hwaiting =>
    exact .inr (.inr ⟨_, _, _, _, _, rfl, hwaiting, rfl⟩)

/-- The signatures of different shares that have been collected for a key are the first ones the
database has for it, as many as there are peers, and it has the own signatures of a waiting call. -/
structure Inv (numPeers : ℕ) (ex : Exchanger S) : Prop where
  db : MemDB.Inv ex.sigdb
  data : ∀ sigType data pubKey psigs, ex.sigData.lookup sigType = some data →
    data.lookup pubKey = some psigs → psigs ≠ [] ∧ psigs.length = numPeers ∧
      psigs <+: ex.sigdb.sigs ⟨newSignatureDuty sigType, pubKey⟩
  own : ∀ call ∈ ex.waiting, ∀ e ∈ call.2.entries,
    e.2 ∈ ex.sigdb.sigs ⟨newSignatureDuty call.1, e.1⟩

lemma inv_new : Inv numPeers (new S) where
  db := MemDB.inv_new
  data sigType data pubKey psigs h := by cases h
  own call h := by cases h

/-- What is collected was there before, or is in the output of the call. -/
lemma lookup_thresholdSub {sigData : SigTypeStore S}
    {data : HashMap PubKey (List (ParSignedData S))} {pubKey : PubKey}
    {psigs : List (ParSignedData S)}
    (h : (thresholdSub sigTypes duty outcome sigData).lookup sigType = some data)
    (hpsigs : data.lookup pubKey = some psigs) :
    (∃ data', sigData.lookup sigType = some data' ∧ data'.lookup pubKey = some psigs) ∨
      (duty = newSignatureDuty sigType ∧ outcome.output.lookup pubKey = some psigs) := by
  by_cases hcalled : outcome.called = 0
  · rw [thresholdSub, if_pos hcalled] at h
    exact .inl ⟨data, h, hpsigs⟩
  rw [thresholdSub, if_neg hcalled, pushPsigs] at h
  by_cases hgater : dutyGater sigTypes duty = true
  · simp only [if_pos hgater] at h
    rcases HashMap.lookup_insert_eq_some h with ⟨rfl, rfl⟩ | hold
    · rcases HashMap.lookup_insertAll_eq_some hpsigs with hnew | hold
      · obtain ⟨⟨_, _⟩, hmem, heq⟩ := List.mem_map.mp hnew
        obtain ⟨rfl, rfl⟩ := Prod.mk.inj heq
        refine .inr ⟨?_, AList.mem_lookup_iff.mpr hmem⟩
        rw [newSignatureDuty, ← dutyType_of_dutyGater hgater]
      · cases hdata : sigData.lookup duty.slot with
        | none => simp [hdata] at hold
        | some data' => exact .inl ⟨data', hdata ▸ rfl, by simpa [hdata] using hold⟩
    · exact .inl ⟨data, hold, hpsigs⟩
  · simp only [if_neg hgater] at h
    exact .inl ⟨data, h, hpsigs⟩

lemma Inv.stored (h : Inv numPeers ex) (sigTypes : List SigType) {call : MemDB.Outcome S × MemDB S}
    (hcall : Calls numPeers ex duty set call) : Inv numPeers (ex.stored sigTypes duty call) where
  db := h.db.step hcall
  data sigType data pubKey psigs hdata hpsigs := by
    have hgrow := (hcall.sigs_grow ⟨newSignatureDuty sigType, pubKey⟩).1
    rcases lookup_thresholdSub hdata hpsigs with ⟨data', hdata', hpsigs'⟩ | ⟨rfl, houtput⟩
    · obtain ⟨hne, hlength, hinit⟩ := h.data sigType data' pubKey psigs hdata' hpsigs'
      exact ⟨hne, hlength, hinit.trans hgrow⟩
    · obtain ⟨order, value, -, hstores⟩ := hcall.output_cases houtput
      obtain ⟨-, hmatch, hsigs⟩ := hstores.of_threshold
      obtain ⟨rfl, hlength⟩ := getThresholdMatching_signature rfl hmatch
      exact ⟨by simp, hlength, hsigs ▸ List.prefix_rfl⟩
  own call' hmem e he :=
    (hcall.sigs_grow ⟨newSignatureDuty call'.1, e.1⟩).1.subset (h.own call' hmem e he)

lemma Inv.step (h : Inv numPeers ex) (hstep : Step numPeers sigTypes ex l ex') :
    Inv numPeers ex' := by
  rcases hstep.cases with ⟨duty, set, call, -, hcall, rfl⟩ |
    ⟨sigType, set, call, _, -, hcall, rfl | ⟨hown, rfl⟩⟩ |
    ⟨sigType, set, _, before, after, -, hwaiting, rfl⟩
  · exact h.stored sigTypes hcall
  · exact h.stored sigTypes hcall
  · have hstored := h.stored sigTypes hcall
    refine ⟨hstored.db, hstored.data, fun call' hmem e he => ?_⟩
    rcases List.mem_cons.mp hmem with rfl | hmem'
    · exact hown e he
    · exact hstored.own call' hmem' e he
  · refine ⟨h.db, h.data, fun call' hmem e he => h.own call' ?_ e he⟩
    rw [hwaiting]
    rcases List.mem_append.mp hmem with hbefore | hafter
    · exact List.mem_append_left _ hbefore
    · exact List.mem_append_right _ (List.mem_cons_of_mem _ hafter)

/-- A step that stores a set for a duty of the exchange stores only signatures of public keys of the
set exchanged, with share indices of the cluster. -/
def Label.Regular (numPeers : ℕ) (sigType : SigType) (set : ParSignedDataSet S) :
    Label S → Prop
  | .received duty set' => duty = newSignatureDuty sigType → ∀ e ∈ set'.entries,
      e.1 ∈ set.entries.map Prod.fst ∧ 1 ≤ e.2.shareIdx.toNat ∧ e.2.shareIdx.toNat ≤ numPeers
  | .called sigType' set' _ => sigType' = sigType → ∀ e ∈ set'.entries,
      e.1 ∈ set.entries.map Prod.fst ∧ 1 ≤ e.2.shareIdx.toNat ∧ e.2.shareIdx.toNat ≤ numPeers
  | .returned _ _ _ => True

lemma inv_run (hrun : Trace (Step numPeers sigTypes) (new S) tr ex) : Inv numPeers ex :=
  hrun.invariant inv_new fun _ _ _ hinv hstep => hinv.step hstep

/-- If every step is regular, then so is every signature in the database. -/
lemma regular_run (hrun : Trace (Step numPeers sigTypes) (new S) tr ex)
    (hregular : ∀ l ∈ tr, l.Regular numPeers sigType set) {pubKey : PubKey} {sig : ParSignedData S}
    (hsig : sig ∈ ex.sigdb.sigs ⟨newSignatureDuty sigType, pubKey⟩) :
    pubKey ∈ set.entries.map Prod.fst ∧
      1 ≤ sig.shareIdx.toNat ∧ sig.shareIdx.toNat ≤ numPeers := by
  refine hrun.induction (P := fun _ ex => ∀ pubKey,
    ∀ sig ∈ ex.sigdb.sigs ⟨newSignatureDuty sigType, pubKey⟩, pubKey ∈ set.entries.map Prod.fst ∧
      1 ≤ sig.shareIdx.toNat ∧ sig.shareIdx.toNat ≤ numPeers)
    (E := Label.Regular numPeers sigType set) ?_ ?_ hregular pubKey sig hsig
  · intro pubKey sig hsig
    cases hsig
  · intro _ ex l ex' hl ih hstep pubKey sig hsig
    rcases hstep.cases with ⟨duty, set', call, rfl, hcall, rfl⟩ |
      ⟨sigType', set', call, _, rfl, hcall, hex'⟩ | ⟨_, _, _, _, _, -, -, rfl⟩
    · rcases (hcall.sigs_grow _).2 sig hsig with hold | ⟨hduty, hentry⟩
      · exact ih pubKey sig hold
      · exact hl hduty.symm _ hentry
    · have hsigdb : ex'.sigdb = call.2 := by
        rcases hex' with rfl | ⟨-, rfl⟩ <;> rfl
      rw [hsigdb] at hsig
      rcases (hcall.sigs_grow _).2 sig hsig with hold | ⟨hduty, hentry⟩
      · exact ih pubKey sig hold
      · exact hl (congrArg Duty.slot hduty).symm _ hentry
    · exact ih pubKey sig hsig

/-- A list of as many different elements of another list as that has has all of them. -/
lemma mem_of_nodup_of_subset {α : Type} {l l' : List α} (hnodup : l.Nodup) (hsub : l ⊆ l')
    (hlength : l'.length ≤ l.length) {a : α} (ha : a ∈ l') : a ∈ l :=
  ((hnodup.subperm hsub).perm_of_length_le hlength).mem_iff.mpr ha

lemma poll_eq_some {data : HashMap PubKey (List (ParSignedData S))}
    (h : ex.poll sigType set = some data) :
    ex.sigData.lookup sigType = some data ∧ data.entries.length = set.entries.length := by
  rw [poll] at h
  cases hdata : ex.sigData.lookup sigType with
  | none => simp [hdata] at h
  | some data' =>
    simp only [hdata] at h
    split_ifs at h with hlength
    obtain rfl := Option.some.inj h
    exact ⟨rfl, hlength⟩

/-- **An exchange is complete**, in every run in which the sets that are stored for it carry only
public keys of its own set and share indices of the cluster.  It returns exactly the public keys of
its set, each with as many signatures as there are peers, of different shares, and the own signature
among them. -/
theorem exchange_complete {data : HashMap PubKey (List (ParSignedData S))}
    (hrun : Trace (Step numPeers sigTypes) (new S) tr ex)
    (hreturned : Step numPeers sigTypes ex (.returned sigType set (.ok data)) ex')
    (hregular : ∀ l ∈ tr, l.Regular numPeers sigType set) :
    (∀ pubKey, (∃ psigs, data.lookup pubKey = some psigs) ↔ pubKey ∈ set.entries.map Prod.fst) ∧
      ∀ pubKey value, (pubKey, value) ∈ set.entries → ∃ psigs, data.lookup pubKey = some psigs ∧
        psigs.length = numPeers ∧ (psigs.map ParSignedData.shareIdx).Nodup ∧ value ∈ psigs := by
  have hinv := inv_run hrun
  cases hreturned with
  | finished hwaiting hpoll =>
  obtain ⟨hdata, hsize⟩ := poll_eq_some hpoll
  have hfound : ∀ pubKey psigs, data.lookup pubKey = some psigs →
      pubKey ∈ set.entries.map Prod.fst := by
    intro pubKey psigs hpsigs
    obtain ⟨hne, -, hinit⟩ := hinv.data sigType data pubKey psigs hdata hpsigs
    obtain ⟨sig, hsig⟩ := List.exists_mem_of_ne_nil psigs hne
    exact (regular_run hrun hregular (hinit.subset hsig)).1
  -- the keys found are keys of the set, and as many
  have hkeys : ∀ pubKey ∈ set.entries.map Prod.fst, ∃ psigs, data.lookup pubKey = some psigs := by
    intro pubKey hpubKey
    have hsub : data.keys ⊆ set.entries.map Prod.fst := by
      intro pubKey' hmem
      obtain ⟨psigs, hpsigs⟩ := Option.isSome_iff_exists.mp (AList.lookup_isSome.mpr hmem)
      exact hfound pubKey' psigs hpsigs
    have hmem := mem_of_nodup_of_subset data.nodupKeys hsub
      (by simp [List.keys, hsize]) hpubKey
    exact Option.isSome_iff_exists.mp (AList.lookup_isSome.mpr hmem)
  refine ⟨fun pubKey => ⟨fun ⟨psigs, hpsigs⟩ => hfound pubKey psigs hpsigs, hkeys pubKey⟩,
    fun pubKey value hentry => ?_⟩
  obtain ⟨psigs, hpsigs⟩ := hkeys pubKey (List.mem_map_of_mem hentry)
  obtain ⟨-, hlength, hinit⟩ := hinv.data sigType data pubKey psigs hdata hpsigs
  have hshares := hinv.db.shares ⟨newSignatureDuty sigType, pubKey⟩
  have hnodup : (psigs.map ParSignedData.shareIdx).Nodup :=
    (hinit.sublist.map ParSignedData.shareIdx).nodup hshares
  refine ⟨psigs, hpsigs, hlength, hnodup, ?_⟩
  have hown : value ∈ ex.sigdb.sigs ⟨newSignatureDuty sigType, pubKey⟩ :=
    hinv.own (sigType, set) (by simp [hwaiting]) (pubKey, value) hentry
  -- all shares of the cluster are there, so the own one is
  have hindices : (psigs.map fun sig => sig.shareIdx.toNat) ⊆ List.range' 1 numPeers := by
    intro i hi
    obtain ⟨sig, hsig, rfl⟩ := List.mem_map.mp hi
    have hrange := (regular_run hrun hregular (hinit.subset hsig)).2
    exact List.mem_range'_1.mpr ⟨hrange.1, by omega⟩
  have hnodup' : (psigs.map fun sig => sig.shareIdx.toNat).Nodup := by
    have hinjective : Function.Injective UInt64.toNat := fun i j h => UInt64.toNat_inj.mp h
    simpa [List.map_map, Function.comp_def] using hnodup.map hinjective
  have hrange := (regular_run hrun hregular hown).2
  have hmem : value.shareIdx.toNat ∈ psigs.map fun sig => sig.shareIdx.toNat :=
    mem_of_nodup_of_subset hnodup' hindices (by simp [hlength])
      (List.mem_range'_1.mpr ⟨hrange.1, by omega⟩)
  obtain ⟨sig, hsig, hidx⟩ := List.mem_map.mp hmem
  obtain rfl : sig = value := List.inj_on_of_nodup_map hshares (hinit.subset hsig) hown
    (UInt64.toNat_inj.mp hidx)
  exact hsig

/-! ## Three peers, and two validators

The first peer exchanges its signatures.  It calls `exchange` after some sets have been received. -/

section ThreePeers

open MemDB.Shares

/-- The signatures of a share for two public keys. -/
def sigsOf (pubKey pubKey' : UInt8) (h : pubkey pubKey ≠ pubkey pubKey')
    (shareIdx shareIdx' : UInt64) : ParSignedDataSet signed :=
  ⟨[(pubkey pubKey, sig shareIdx 1), (pubkey pubKey', sig shareIdx' 1)], by simpa using h⟩

/-- The signatures of a peer for the two validators. -/
def validatorSigs (shareIdx : UInt64) : ParSignedDataSet signed :=
  sigsOf 1 2 (by decide) shareIdx shareIdx

/-- The state after some sets have been received for the lock hash. -/
def afterReceived (sets : List (ParSignedDataSet signed)) : Exchanger signed :=
  sets.foldl (fun ex set => ex.receivedSub 3 [sigLock] (fun _ => IterOrder.stored _)
    (newSignatureDuty sigLock) set) (new signed)

/-- Then the first peer calls `exchange`, and the broadcast succeeds. -/
def afterCalled (sets : List (ParSignedDataSet signed)) :
    Except (ExchangerError signed) Unit × Exchanger signed :=
  (afterReceived sets).startExchange 3 [sigLock] (fun _ => IterOrder.stored _) sigLock
    (validatorSigs 1) (.ok ())

def callLabels (sets : List (ParSignedDataSet signed)) : List (Label signed) :=
  sets.map (.received (newSignatureDuty sigLock)) ++
    [.called sigLock (validatorSigs 1) (afterCalled sets).1]

lemma trace_afterCalled (sets : List (ParSignedDataSet signed)) :
    Trace (Step 3 [sigLock]) (new signed) (callLabels sets) (afterCalled sets).2 := by
  refine Trace.snoc ?_ (.called _ sigLock (validatorSigs 1) (.ok ()))
  induction sets using List.reverseRecOn with
  | nil => exact Trace.nil
  | append_singleton sets set ih =>
    rw [List.map_append, afterReceived, List.foldl_append]
    exact ih.snoc (.received _ (doRecv_acceptAll (by decide) set))

/-- What is returned if all peers send their signatures for the two validators. -/
def validatorData : HashMap PubKey (List (ParSignedData signed)) :=
  HashMap.insertAll ∅ [(pubkey 2, [sig 2 1, sig 3 1, sig 1 1]),
    (pubkey 1, [sig 2 1, sig 3 1, sig 1 1])]

theorem exchange_complete_three_peers :
    (∃ ex', Step 3 [sigLock] (afterCalled [validatorSigs 2, validatorSigs 3]).2
      (.returned sigLock (validatorSigs 1) (.ok validatorData)) ex') ∧
      ∃ psigs, validatorData.lookup (pubkey 2) = some psigs ∧ psigs.length = 3 ∧
        (psigs.map ParSignedData.shareIdx).Nodup ∧ sig 1 1 ∈ psigs := by
  have hwaiting : (afterCalled [validatorSigs 2, validatorSigs 3]).2.waiting =
      [] ++ (sigLock, validatorSigs 1) :: [] := by rfl
  have hpoll : (afterCalled [validatorSigs 2, validatorSigs 3]).2.poll sigLock (validatorSigs 1) =
      some validatorData := by rfl
  have hregular : ∀ shareIdx ∈ ([1, 2, 3] : List UInt64), ∀ e ∈ (validatorSigs shareIdx).entries,
      e.1 ∈ (validatorSigs 1).entries.map Prod.fst ∧ 1 ≤ e.2.shareIdx.toNat ∧
        e.2.shareIdx.toNat ≤ 3 := by
    simp [validatorSigs, sigsOf, sig]
  refine ⟨⟨_, .finished hwaiting hpoll⟩, ?_⟩
  refine (exchange_complete (trace_afterCalled [validatorSigs 2, validatorSigs 3])
    (.finished hwaiting hpoll) ?_).2 (pubkey 2) (sig 1 1) (by decide)
  intro l hl
  simp only [callLabels, List.map_cons, List.map_nil, List.cons_append, List.nil_append,
    List.mem_cons, List.not_mem_nil, or_false] at hl
  rcases hl with rfl | rfl | rfl
  · exact fun _ => hregular 2 (by decide)
  · exact fun _ => hregular 3 (by decide)
  · exact fun _ => hregular 1 (by decide)

/-- What one peer makes an exchange return. -/
def forgedData : HashMap PubKey (List (ParSignedData signed)) :=
  HashMap.insertAll ∅ [(pubkey 1, [sig 2 1, sig 3 1, sig 4 1]),
    (pubkey 9, [sig 1 1, sig 2 1, sig 3 1])]

/-- One peer sends signatures for a public key of no validator, and signatures for the first
validator with share indices that leave out the one of the node.  `exchange` returns these two
keys. -/
theorem forged_key_returned :
    ∃ tr ex ex', Trace (Step 3 [sigLock]) (new signed) tr ex ∧
      Step 3 [sigLock] ex (.returned sigLock (validatorSigs 1) (.ok forgedData)) ex' ∧
      (∃ psigs, forgedData.lookup (pubkey 9) = some psigs) ∧
      pubkey 9 ∉ (validatorSigs 1).entries.map Prod.fst ∧
      forgedData.lookup (pubkey 2) = none ∧
      ∃ psigs, forgedData.lookup (pubkey 1) = some psigs ∧ sig 1 1 ∉ psigs := by
  have hwaiting : (afterCalled [sigsOf 9 1 (by decide) 1 2, sigsOf 9 1 (by decide) 2 3,
      sigsOf 9 1 (by decide) 3 4]).2.waiting = [] ++ (sigLock, validatorSigs 1) :: [] := by rfl
  have hpoll : (afterCalled [sigsOf 9 1 (by decide) 1 2, sigsOf 9 1 (by decide) 2 3,
      sigsOf 9 1 (by decide) 3 4]).2.poll sigLock (validatorSigs 1) = some forgedData := by rfl
  exact ⟨_, _, _, trace_afterCalled _, .finished hwaiting hpoll, ⟨_, rfl⟩, by decide, by decide,
    _, rfl, by decide⟩

end ThreePeers

end Exchanger

end Pluto.Dkg
