import Pluto.Core.Duty
import Pluto.Crypto.Blst

/-!
# Aggregating partial signatures

`Aggregator` of `crates/core/src/sigagg.rs`.  It takes the partial signatures of a duty, those of each
validator in a list, aggregates every list to a signature with the validator's key, checks it, and
gives all of them to its subscribers.

The signed data is a trait object, of which the aggregator gets the signature, sets it, and asks for
the validator index of an attestation.  The verifier and the subscribers are functions of other
components, and the iteration orders of the two hash maps are arguments.  The loops that fill a map
are written as a list that is computed first.

`aggregate_correct` is about valid lists: whatever their order, repetitions and surplus, the
signature with the validator's key comes out, in one of the partial data.  It goes to one subscriber
after the other, up to the first that fails: `aggregate` returns the error, and the subscribers after
it are not called (`failing_subscriber`).  What a subscriber is called with is complete and verified
in any case.
-/

namespace Pluto.Core.SigAgg

open Except (bind_ok_iff pure_ok_iff mapM_ok_mem ok_bind)
open Crypto Crypto.Blst

/-- What the aggregator uses of a `dyn SignedData`, and the message that is signed. -/
structure SignedData where
  Data : Type
  Error : Type
  signature : Data → Except Error Bytes
  setSignature : Data → Bytes → Except Error Data
  /-- The downcast to `VersionedAttestation`: its validator index. -/
  attestation? : Data → Option (Option UInt64)
  message : Data → Except Error Bytes
  /-- Data with a signature takes another one and stays the same otherwise. -/
  setSignature_ok : ∀ data sig sig', signature data = .ok sig → ∃ data',
    setSignature data sig' = .ok data' ∧ signature data' = .ok sig' ∧ message data' = message data

structure ParSignedData (S : SignedData) where
  signedData : S.Data
  shareIdx : UInt64

inductive SigAggError (S : SignedData)
  | invalidThreshold
  | emptySet
  | requireThresholdSignatures (pubkey : PubKey)
  | insufficientDistinctSignatures (pubkey : PubKey)
  | signatureFromCore (pubkey : PubKey) (source : S.Error)
  | setSignature (pubkey : PubKey) (source : S.Error)
  | thresholdAggregate (pubkey : PubKey) (source : Blst.Error)
  | invalidEth2SignedData
  | pubkeyFromCore
  | verificationFailed

abbrev AggSub (S : SignedData) : Type :=
  Duty → HashMap PubKey S.Data → Except (SigAggError S) Unit

structure Aggregator (S : SignedData) where
  threshold : UInt64
  verifyFn : PubKey → S.Data → Except (SigAggError S) Unit
  subs : List (AggSub S)
  threshold_ne_zero : threshold ≠ 0

variable {S : SignedData}

/-- The first attestation with a validator index, if only attestations come before it. -/
def fullSig : List (ParSignedData S) → Option S.Data
  | [] => none
  | ps :: parSigs =>
    match S.attestation? ps.signedData with
    | none => none
    | some none => fullSig parSigs
    | some (some _) => some ps.signedData

/-- The signatures by share index; the last one of an index wins. -/
def collectSigs (pubkey : PubKey) (parSigs : List (ParSignedData S)) :
    Except (SigAggError S) (HashMap UInt64 Bytes) := do
  let sigs ← parSigs.mapM fun ps => do
    let sig ← (S.signature ps.signedData).mapError (.signatureFromCore pubkey)
    return (ps.shareIdx, sig)
  return HashMap.insertAll ∅ sigs

/-- The loop over the subscribers, with what they were called with. -/
def notify (duty : Duty) (output : HashMap PubKey S.Data) :
    List (AggSub S) → Except (SigAggError S) Unit × List (HashMap PubKey S.Data)
  | [] => (.ok (), [])
  | sub :: subs =>
    match sub duty output with
    | .error e => (.error e, [output])
    | .ok () => ((notify duty output subs).1, output :: (notify duty output subs).2)

namespace Aggregator

def new (threshold : UInt64) (verifyFn : PubKey → S.Data → Except (SigAggError S) Unit) :
    Except (SigAggError S) (Aggregator S) :=
  if h : threshold = 0 then .error .invalidThreshold else .ok ⟨threshold, verifyFn, [], h⟩

def subscribe (a : Aggregator S) (sub : AggSub S) : Aggregator S :=
  { a with subs := a.subs ++ [sub] }

variable {F G₁ G₂ : Type} [Field F] [DecidableEq F] [AddCommGroup G₁] [Module F G₁]
  [AddCommGroup G₂] [Module F G₂] (curve : Curve F G₁ G₂)
  (blsOrder : IterOrder (Sigma fun _ : UInt64 => Bytes))
  (setOrder : IterOrder (Sigma fun _ : PubKey => List (ParSignedData S))) (a : Aggregator S)

lemma ne_nil_of_threshold {parSigs : List (ParSignedData S)}
    (h : ¬ parSigs.length < a.threshold.toNat) : parSigs ≠ [] := by
  rintro rfl
  exact a.threshold_ne_zero (UInt64.toNat.inj (Nat.le_zero.mp (not_lt.mp h)))

def aggregateOne (pubkey : PubKey) (parSigs : List (ParSignedData S)) :
    Except (SigAggError S) S.Data :=
  if h : parSigs.length < a.threshold.toNat then .error (.requireThresholdSignatures pubkey)
  else do
    let blsSigs ← collectSigs pubkey parSigs
    if blsSigs.size < a.threshold.toNat then .error (.insufficientDistinctSignatures pubkey)
    else do
      let aggBytes ← (Blst.thresholdAggregate curve blsOrder blsSigs).mapError
        (.thresholdAggregate pubkey)
      let template := (fullSig parSigs).getD (parSigs.head (a.ne_nil_of_threshold h)).signedData
      let aggSigned ← (S.setSignature template aggBytes).mapError (.setSignature pubkey)
      a.verifyFn pubkey aggSigned
      return aggSigned

/-- The loop over the validators. -/
def aggregateAll (set : HashMap PubKey (List (ParSignedData S))) :
    Except (SigAggError S) (HashMap PubKey S.Data) := do
  let entries ← (setOrder.order set.entries).mapM fun entry => do
    let signed ← a.aggregateOne curve blsOrder entry.1 entry.2
    return (entry.1, signed)
  return HashMap.insertAll ∅ entries

/-- Returns what the subscribers were called with, too. -/
def aggregate (duty : Duty) (set : HashMap PubKey (List (ParSignedData S))) :
    Except (SigAggError S) Unit × List (HashMap PubKey S.Data) :=
  if set.size = 0 then (.error .emptySet, [])
  else match a.aggregateAll curve blsOrder setOrder set with
    | .error e => (.error e, [])
    | .ok output => notify duty output a.subs

end Aggregator

/-! ## The subscribers -/

lemma notify_append {duty : Duty} {output : HashMap PubKey S.Data} {before : List (AggSub S)}
    (h : ∀ sub ∈ before, sub duty output = .ok ()) (after : List (AggSub S)) :
    notify duty output (before ++ after) =
      ((notify duty output after).1, before.map (fun _ => output) ++ (notify duty output after).2) := by
  induction before with
  | nil => rfl
  | cons sub before ih =>
    obtain ⟨hsub, hbefore⟩ := List.forall_mem_cons.mp h
    rw [List.cons_append, notify, hsub]
    simp only [ih hbefore, List.map_cons, List.cons_append]

lemma mem_notify {duty : Duty} {output output' : HashMap PubKey S.Data} {subs : List (AggSub S)}
    (h : output' ∈ (notify duty output subs).2) : output' = output := by
  induction subs with
  | nil => cases h
  | cons sub subs ih =>
    rw [notify] at h
    cases hsub : sub duty output with
    | error e =>
      rw [hsub] at h
      exact List.mem_singleton.mp h
    | ok _ =>
      rw [hsub] at h
      exact (List.mem_cons.mp h).elim id ih

/-! ## Valid partial signatures -/

section Correct

variable {F G₁ G₂ : Type} [Field F] [DecidableEq F] [AddCommGroup G₁] [Module F G₁]
  [AddCommGroup G₂] [Module F G₂] {curve : Curve F G₁ G₂} {threshold : UInt64}

/-- The secret key of a validator, which nobody has, and the shares of the nodes. -/
structure ValidatorKey (curve : Curve F G₁ G₂) (threshold : UInt64) where
  secretKey : Bytes
  total : UInt64
  shares : HashMap UInt64 Bytes
  poly : List F
  sharing : Sharing curve secretKey total threshold shares poly

/-- A datum with the signature of its message by the validator. -/
def GroupSigned (key : ValidatorKey curve threshold) (data : S.Data) : Prop :=
  ∃ message sig, S.message data = .ok message ∧ S.signature data = .ok sig ∧
    sign curve key.secretKey message = .ok sig

/-- Signatures of one message with shares of the key, of `threshold` share indices or more. -/
structure Valid (key : ValidatorKey curve threshold) (message : Bytes)
    (parSigs : List (ParSignedData S)) : Prop where
  same : ∀ ps ∈ parSigs, S.message ps.signedData = .ok message
  signed : ∀ ps ∈ parSigs, ∃ share sig, key.shares.lookup ps.shareIdx = some share ∧
    S.signature ps.signedData = .ok sig ∧ sign curve share message = .ok sig
  distinct : threshold.toNat ≤ (parSigs.map ParSignedData.shareIdx).toFinset.card

lemma fullSig_mem {parSigs : List (ParSignedData S)} {data : S.Data}
    (h : fullSig parSigs = some data) : ∃ ps ∈ parSigs, data = ps.signedData := by
  induction parSigs with
  | nil => cases h
  | cons ps parSigs ih =>
    rw [fullSig] at h
    split at h
    · cases h
    · obtain ⟨ps', hmem, rfl⟩ := ih h
      exact ⟨ps', List.mem_cons_of_mem _ hmem, rfl⟩
    · exact ⟨ps, List.mem_cons_self, (Option.some.inj h).symm⟩

lemma template_mem {parSigs : List (ParSignedData S)} (hne : parSigs ≠ []) :
    ∃ ps ∈ parSigs, (fullSig parSigs).getD (parSigs.head hne).signedData = ps.signedData := by
  cases hfull : fullSig parSigs with
  | none => exact ⟨_, List.head_mem hne, rfl⟩
  | some data => exact fullSig_mem hfull

variable {key : ValidatorKey curve threshold} {message : Bytes} {parSigs : List (ParSignedData S)}

lemma Valid.collectSigs_ok (h : Valid key message parSigs) (pubkey : PubKey) :
    ∃ blsSigs, collectSigs pubkey parSigs = .ok blsSigs ∧ SignedBy curve key.shares
      (parSigs.map ParSignedData.shareIdx).toFinset message blsSigs := by
  obtain ⟨sigs, hsigs⟩ : ∃ sigs, (parSigs.mapM fun ps => do
      let sig ← (S.signature ps.signedData).mapError (SigAggError.signatureFromCore pubkey)
      return (ps.shareIdx, sig)) = .ok sigs := by
    refine Except.exists_mapM_ok fun ps hps => ?_
    obtain ⟨_, sig, -, hsig, -⟩ := h.signed ps hps
    exact ⟨(ps.shareIdx, sig), by rw [hsig]; rfl⟩
  refine ⟨HashMap.insertAll ∅ sigs, by rw [collectSigs, hsigs]; rfl, ?_⟩
  have hentry : ∀ ps ∈ parSigs, ∀ entry, (do
      let sig ← (S.signature ps.signedData).mapError (SigAggError.signatureFromCore pubkey)
      return (ps.shareIdx, sig)) = .ok entry → entry.1 = ps.shareIdx ∧ ∃ share,
        key.shares.lookup entry.1 = some share ∧ sign curve share message = .ok entry.2 := by
    intro ps hps entry hentry
    simp only [bind_ok_iff, Except.mapError_ok_iff, pure_ok_iff] at hentry
    obtain ⟨sig', hsig, rfl⟩ := hentry
    obtain ⟨share, sig, hshare, hsig', hsign⟩ := h.signed ps hps
    obtain rfl := Except.ok.inj (hsig.symm.trans hsig')
    exact ⟨rfl, share, hshare, hsign⟩
  have hkeys : sigs.map Prod.fst = parSigs.map ParSignedData.shareIdx :=
    Except.map_eq_of_mapM_ok hsigs _ _ fun ps hps entry h => (hentry ps hps entry h).1
  have hfound : ∀ i sig, (HashMap.insertAll ∅ sigs).lookup i = some sig →
      i ∈ sigs.map Prod.fst ∧ ∃ share, key.shares.lookup i = some share ∧
        sign curve share message = .ok sig := by
    intro i sig hlook
    have hmem := (HashMap.lookup_insertAll_eq_some hlook).resolve_right (by simp)
    obtain ⟨ps, hps, h⟩ := (mapM_ok_mem hsigs).1 _ hmem
    exact ⟨List.mem_map_of_mem hmem, (hentry ps hps _ h).2⟩
  intro i sig
  rw [List.mem_toFinset, ← hkeys]
  refine ⟨hfound i sig, ?_⟩
  rintro ⟨hmem, share, hshare, hsign⟩
  obtain ⟨sig', hlook⟩ := HashMap.exists_lookup_insertAll (m := (∅ : HashMap UInt64 Bytes))
    (.inl hmem)
  obtain ⟨-, share', hshare', hsign'⟩ := hfound i sig' hlook
  obtain rfl := Option.some.inj (hshare.symm.trans hshare')
  rw [hlook, Except.ok.inj (hsign.symm.trans hsign')]

/-- **One validator.**  A valid list gives one of its data, with the validator's signature. -/
lemma Valid.aggregateOne_eq (h : Valid key message parSigs) {a : Aggregator S}
    (ha : a.threshold = threshold) {pubkey : PubKey}
    (hverify : ∀ data, GroupSigned key data → a.verifyFn pubkey data = .ok ())
    (blsOrder : IterOrder (Sigma fun _ : UInt64 => Bytes)) :
    ∃ data, a.aggregateOne curve blsOrder pubkey parSigs = .ok data ∧ ∃ ps ∈ parSigs, ∃ sig,
      sign curve key.secretKey message = .ok sig ∧ S.setSignature ps.signedData sig = .ok data := by
  subst ha
  obtain ⟨blsSigs, hsigs, hsigned⟩ := h.collectSigs_ok pubkey
  have hindices : ∀ i ∈ (parSigs.map ParSignedData.shareIdx).toFinset,
      i ≠ 0 ∧ i ≤ key.total := by
    intro i hi
    obtain ⟨ps, hps, rfl⟩ := List.mem_map.mp (List.mem_toFinset.mp hi)
    obtain ⟨share, _, hshare, -⟩ := h.signed ps hps
    exact mem_indicesUpTo.mp ((key.sharing.lookup_iff _ _).mp hshare).1
  have hlength : ¬ parSigs.length < a.threshold.toNat := by
    have hle := (List.toFinset_card_le (parSigs.map ParSignedData.shareIdx)).trans_eq
      (List.length_map _)
    exact not_lt.mpr (h.distinct.trans hle)
  have hsize : ¬ blsSigs.size < a.threshold.toNat := by
    rw [(keysIn_ok blsOrder hindices (key.sharing.lookup_signed curve hindices hsigned)).2.1]
    exact not_lt.mpr h.distinct
  have hgroup : sign curve key.secretKey message =
      .ok (curve.g2ToBytes (key.poly.headD 0 • curve.hashToG2 message)) := by
    rw [sign, key.sharing.secret]
    rfl
  obtain ⟨ps, hps, htemplate⟩ := template_mem (a.ne_nil_of_threshold hlength)
  obtain ⟨_, sig, -, hsig, -⟩ := h.signed ps hps
  obtain ⟨data, hset, hsignature, hmessage⟩ := S.setSignature_ok ps.signedData sig
    (curve.g2ToBytes (key.poly.headD 0 • curve.hashToG2 message)) hsig
  refine ⟨data, ?_, ps, hps, _, hgroup, hset⟩
  have hdata := hverify data ⟨_, _, hmessage.trans (h.same ps hps), hsignature, hgroup⟩
  rw [Aggregator.aggregateOne, dif_neg hlength, hsigs, ok_bind, if_neg hsize,
    key.sharing.thresholdAggregate_eq curve blsOrder hindices h.distinct hsigned]
  simp only [Except.mapError, ok_bind, htemplate, hset, hdata]
  rfl

variable {a : Aggregator S} {blsOrder : IterOrder (Sigma fun _ : UInt64 => Bytes)}
  {setOrder : IterOrder (Sigma fun _ : PubKey => List (ParSignedData S))}
  {set : HashMap PubKey (List (ParSignedData S))} {output : HashMap PubKey S.Data}

/-- The map has what every validator of the set gives, and nothing else. -/
lemma aggregateAll_ok (h : a.aggregateAll curve blsOrder setOrder set = .ok output) :
    (∀ pubkey parSigs, set.lookup pubkey = some parSigs →
      ∃ data, output.lookup pubkey = some data) ∧
    ∀ pubkey data, output.lookup pubkey = some data → ∃ parSigs,
      set.lookup pubkey = some parSigs ∧
        a.aggregateOne curve blsOrder pubkey parSigs = .ok data := by
  simp only [Aggregator.aggregateAll, bind_ok_iff, pure_ok_iff] at h
  obtain ⟨entries, hentries, rfl⟩ := h
  obtain ⟨hfrom, hto⟩ := mapM_ok_mem hentries
  refine ⟨fun pubkey parSigs hlook => HashMap.exists_lookup_insertAll (.inl ?_),
    fun pubkey data hlook => ?_⟩
  · obtain ⟨entry, hentry, hone⟩ := hto ⟨pubkey, parSigs⟩ (HashMap.mem_order_iff.mpr hlook)
    simp only [bind_ok_iff, pure_ok_iff] at hone
    obtain ⟨_, -, rfl⟩ := hone
    exact List.mem_map_of_mem hentry
  · obtain ⟨⟨pubkey', parSigs⟩, hmem, hone⟩ :=
      hfrom _ ((HashMap.lookup_insertAll_eq_some hlook).resolve_right (by simp))
    simp only [bind_ok_iff, pure_ok_iff, Prod.mk.injEq] at hone
    obtain ⟨_, hone, rfl, rfl⟩ := hone
    exact ⟨parSigs, HashMap.mem_order_iff.mp hmem, hone⟩

lemma verifyFn_of_aggregateOne {pubkey : PubKey} {data : S.Data}
    (h : a.aggregateOne curve blsOrder pubkey parSigs = .ok data) :
    a.verifyFn pubkey data = .ok () := by
  rw [Aggregator.aggregateOne] at h
  split_ifs at h
  obtain ⟨blsSigs, -, h⟩ := bind_ok_iff.mp h
  split_ifs at h
  simp only [bind_ok_iff, pure_ok_iff] at h
  obtain ⟨_, -, _, -, _, hverify, rfl⟩ := h
  exact hverify

/-- **Aggregation is correct, and all or nothing.**  If every validator has valid partial signatures,
there is a map with one datum for each, which is one of the partial data with the signature of the
validator's key.  The subscribers are called with it in turn, each once: all of them if none fails,
and `aggregate` succeeds; otherwise up to the first that fails, whose error it returns.  Whatever the
set, subscribers are called with verified data of all its validators only. -/
theorem aggregate_correct (a : Aggregator S)
    (blsOrder : IterOrder (Sigma fun _ : UInt64 => Bytes))
    (setOrder : IterOrder (Sigma fun _ : PubKey => List (ParSignedData S))) :
    (∀ (keys : PubKey → ValidatorKey curve a.threshold) set, set.size ≠ 0 →
      (∀ pubkey parSigs, set.lookup pubkey = some parSigs →
        ∃ message, Valid (keys pubkey) message parSigs) →
      (∀ pubkey data, a.verifyFn pubkey data = .ok () ↔ GroupSigned (keys pubkey) data) →
      ∃ output : HashMap PubKey S.Data,
        (∀ pubkey parSigs, set.lookup pubkey = some parSigs →
          ∃ data, output.lookup pubkey = some data) ∧
        (∀ pubkey data, output.lookup pubkey = some data → ∃ parSigs ps message sig,
          set.lookup pubkey = some parSigs ∧ ps ∈ parSigs ∧
          S.message ps.signedData = .ok message ∧
          sign curve (keys pubkey).secretKey message = .ok sig ∧
          S.setSignature ps.signedData sig = .ok data) ∧
        ∀ duty,
          ((∀ sub ∈ a.subs, sub duty output = .ok ()) →
            a.aggregate curve blsOrder setOrder duty set =
              (.ok (), a.subs.map fun _ => output)) ∧
          ∀ before sub after e, a.subs = before ++ sub :: after →
            (∀ s ∈ before, s duty output = .ok ()) → sub duty output = .error e →
            a.aggregate curve blsOrder setOrder duty set =
              (.error e, (before ++ [sub]).map fun _ => output)) ∧
    ∀ duty set, ∀ output ∈ (a.aggregate curve blsOrder setOrder duty set).2,
      (∀ pubkey parSigs, set.lookup pubkey = some parSigs →
        ∃ data, output.lookup pubkey = some data) ∧
      ∀ pubkey data, output.lookup pubkey = some data → a.verifyFn pubkey data = .ok () := by
  refine ⟨fun keys set hset hvalid hverify => ?_, fun duty set output houtput => ?_⟩
  · have hone : ∀ pubkey parSigs, set.lookup pubkey = some parSigs → ∃ message,
        Valid (keys pubkey) message parSigs ∧ ∃ data,
          a.aggregateOne curve blsOrder pubkey parSigs = .ok data ∧ ∃ ps ∈ parSigs, ∃ sig,
            sign curve (keys pubkey).secretKey message = .ok sig ∧
              S.setSignature ps.signedData sig = .ok data := by
      intro pubkey parSigs hlook
      obtain ⟨message, h⟩ := hvalid pubkey parSigs hlook
      exact ⟨message, h, h.aggregateOne_eq rfl (fun data => (hverify pubkey data).mpr) blsOrder⟩
    obtain ⟨entries, hentries⟩ := Except.exists_mapM_ok (l := setOrder.order set.entries)
      (f := fun entry => do
        let signed ← a.aggregateOne curve blsOrder entry.1 entry.2
        return (entry.1, signed)) (by
      rintro ⟨pubkey, parSigs⟩ hmem
      obtain ⟨_, -, data, hdata, -⟩ := hone pubkey parSigs (HashMap.mem_order_iff.mp hmem)
      exact ⟨(pubkey, data), by rw [hdata]; rfl⟩)
    have hall : a.aggregateAll curve blsOrder setOrder set = .ok (HashMap.insertAll ∅ entries) := by
      rw [Aggregator.aggregateAll, hentries]
      rfl
    have hnotify : ∀ duty, a.aggregate curve blsOrder setOrder duty set =
        notify duty (HashMap.insertAll ∅ entries) a.subs := by
      intro duty
      rw [Aggregator.aggregate, if_neg hset, hall]
    obtain ⟨hcomplete, hfrom⟩ := aggregateAll_ok hall
    refine ⟨_, hcomplete, fun pubkey data hlook => ?_, fun duty => ⟨fun hsubs => ?_, ?_⟩⟩
    · obtain ⟨parSigs, hlook', hdata⟩ := hfrom pubkey data hlook
      obtain ⟨message, h, data', hdata', ps, hps, sig, hsign, hset⟩ := hone pubkey parSigs hlook'
      obtain rfl := Except.ok.inj (hdata.symm.trans hdata')
      exact ⟨parSigs, ps, message, sig, hlook', hps, h.same ps hps, hsign, hset⟩
    · rw [hnotify, ← List.append_nil a.subs, notify_append hsubs]
      simp [notify]
    · intro before sub after e hsplit hbefore hsub
      rw [hnotify, hsplit, notify_append hbefore]
      simp [notify, hsub]
  · rw [Aggregator.aggregate] at houtput
    split_ifs at houtput
    · cases houtput
    cases hall : a.aggregateAll curve blsOrder setOrder set with
    | error e =>
      rw [hall] at houtput
      cases houtput
    | ok output' =>
      rw [hall] at houtput
      obtain rfl := mem_notify houtput
      obtain ⟨hcomplete, hfrom⟩ := aggregateAll_ok hall
      refine ⟨hcomplete, fun pubkey data hlook => ?_⟩
      obtain ⟨parSigs, -, hdata⟩ := hfrom pubkey data hlook
      exact verifyFn_of_aggregateOne hdata

end Correct

/-! ## Two of three shares -/

namespace Solo

/-- A message with its signature. -/
def plain : SignedData where
  Data := Bytes × Bytes
  Error := Unit
  signature data := .ok data.2
  setSignature data sig := .ok (data.1, sig)
  attestation? _ := none
  message data := .ok data.1
  setSignature_ok data _ sig' _ := ⟨(data.1, sig'), rfl, rfl, rfl⟩

/-- The signatures with shares 3 and 1, the first one twice. -/
def parSigs : List (ParSignedData plain) :=
  [⟨([], scalarToBytes 26), 3⟩, ⟨([], scalarToBytes 12), 1⟩, ⟨([], scalarToBytes 26), 3⟩]

def pubkey : PubKey := ⟨List.replicate 48 0, length_zeros⟩

def set : HashMap PubKey (List (ParSignedData plain)) := (∅ : HashMap _ _).insert pubkey parSigs

/-- An aggregator for the key `5`. -/
def aggregator (subs : List (AggSub plain)) : Aggregator plain where
  threshold := 2
  verifyFn _ data :=
    if (sign (exponents fun _ => 1) (scalarToBytes 5) data.1).toOption = some data.2 then .ok ()
    else .error .verificationFailed
  subs := subs
  threshold_ne_zero := by decide

lemma valid : ∃ key : ValidatorKey (exponents fun _ => 1) 2,
    (∀ pubkey parSigs, set.lookup pubkey = some parSigs → ∃ message, Valid key message parSigs) ∧
    ∀ subs pubkey data,
      (aggregator subs).verifyFn pubkey data = .ok () ↔ GroupSigned (S := plain) key data := by
  obtain ⟨poly, hsharing⟩ := sharing_of_split _ split_threeShares
  refine ⟨⟨_, _, _, poly, hsharing⟩, fun pubkey parSigs' hlook => ⟨[], ?_⟩,
    fun subs pubkey data => ?_⟩
  · obtain ⟨rfl, rfl⟩ := (HashMap.lookup_insert_eq_some hlook).resolve_right (by simp)
    have hthree : ∀ {p : ParSignedData plain → Prop}, p ⟨([], scalarToBytes 26), 3⟩ →
        p ⟨([], scalarToBytes 12), 1⟩ → ∀ ps ∈ parSigs, p ps := by
      intro p h h'
      simp only [parSigs, List.forall_mem_cons]
      exact ⟨h, h', h, nofun⟩
    exact ⟨hthree rfl rfl, hthree ⟨_, _, rfl, rfl, rfl⟩ ⟨_, _, rfl, rfl, rfl⟩, by decide⟩
  · have hgroup : GroupSigned (S := plain) ⟨_, _, _, poly, hsharing⟩ data ↔
        sign (exponents fun _ => 1) (scalarToBytes 5) data.1 = .ok data.2 :=
      ⟨fun ⟨_, _, hmessage, hsig, hsign⟩ => by cases hmessage; cases hsig; exact hsign,
        fun hsign => ⟨_, _, rfl, rfl, hsign⟩⟩
    rw [hgroup]
    show ite _ _ _ = _ ↔ _
    cases sign (exponents fun _ => 1) (scalarToBytes 5) data.1 <;> simp [Except.toOption]

end Solo

open Solo in
/-- One accepting subscriber gets the datum with the group signature. -/
theorem aggregate_correct_two_of_three : ∃ output data,
    (aggregator [fun _ _ => .ok ()]).aggregate (exponents fun _ => 1) (IterOrder.stored _)
      (IterOrder.stored _) ⟨1, .attester⟩ set = (.ok (), [output]) ∧
    output.lookup pubkey = some data := by
  obtain ⟨key, hvalid, hverify⟩ := valid
  obtain ⟨output, hcomplete, -, hcalls⟩ := (aggregate_correct (aggregator [fun _ _ => .ok ()])
    (IterOrder.stored _) (IterOrder.stored _)).1 (fun _ => key) set (by decide) hvalid (hverify _)
  obtain ⟨data, hdata⟩ := hcomplete pubkey parSigs rfl
  exact ⟨output, data, (hcalls _).1 (by simp [aggregator]), hdata⟩

open Solo in
/-- The first of two subscribers fails: the signatures are valid, and the call fails and does not
reach the second one. -/
theorem failing_subscriber :
    (∃ key : ValidatorKey (exponents fun _ => 1) 2,
      (∀ pubkey parSigs, set.lookup pubkey = some parSigs →
        ∃ message, Valid key message parSigs) ∧
      ∀ subs pubkey data,
        (aggregator subs).verifyFn pubkey data = .ok () ↔ GroupSigned (S := plain) key data) ∧
    let result := (aggregator [fun _ _ => .error .emptySet, fun _ _ => .ok ()]).aggregate
      (exponents fun _ => 1) (IterOrder.stored _) (IterOrder.stored _) ⟨1, .attester⟩ set
    result.1.toOption = none ∧ result.2.length = 1 :=
  ⟨valid, by decide +kernel⟩

end Pluto.Core.SigAgg
