import Pluto.Dkg.FrostP2P

/-!
# The key generations of a ceremony

The model of `crates/dkg/src/frost.rs`: one key generation for each validator, all of them over one
transport.  `runFrostParallel` runs round 1 of each, exchanges the messages, runs round 2 of each
with what came in, exchanges again, and makes a share for each validator.

The public shares of a validator are the `vk_share`s of the round-2 broadcasts, and not those the
node has computed itself in round 2.

What the random number generator gives is an argument, and the byte of the context that goes into the
challenges.  The validators are a list in the order of the tree map of the source.
-/

namespace Pluto.Dkg

open Crypto
open Frost (KeyPackage Round1Secret Round1Bcast Round2Bcast ShamirShare Randomness KryptologyError
  fromCompressed)

structure DkgParticipant (F G₁ : Type) where
  id : UInt32
  round : UInt8
  threshold : UInt16
  maxSigners : UInt16
  otherIds : List UInt32
  ctx : UInt8
  round1Secret : Option (Round1Secret F G₁)
  keyPackage : Option (KeyPackage F G₁)

/-- What a node has of a validator after the ceremony. -/
structure Share where
  pubKey : Bytes
  secretShare : Bytes
  publicShares : HashMap UInt64 Bytes

/-- The orders in which the hash maps are visited. -/
structure Orders where
  castR1 : IterOrder (Sigma fun _ : MsgKey => Round1Bcast)
  p2pR1 : IterOrder (Sigma fun _ : MsgKey => ShamirShare)
  castR2 : IterOrder (Sigma fun _ : MsgKey => Round2Bcast)

section Model

variable {F G₁ G₂ : Type} [Field F] [DecidableEq F] [AddCommGroup G₁] [Module F G₁]
  [DecidableEq G₁] [AddCommGroup G₂] [Module F G₂]

/-! ## Participants -/

/-- `validate_participant_inputs` repeats the checks of round 1. -/
def validateParticipantInputs (id : UInt32) (threshold maxSigners : UInt16) :
    Except KryptologyError Unit :=
  Frost.validateRoundParameters id threshold maxSigners

def DkgParticipant.new (id threshold : UInt32) (ctx : UInt8) (otherIds : List UInt32) :
    Except FrostError (DkgParticipant F G₁) :=
  if UInt16.size ≤ threshold.toNat then .error .intConversion
  else if UInt16.size ≤ otherIds.length + 1 then .error (.newParticipant .invalidSignerCount)
  else do
    let threshold := UInt16.ofNat threshold.toNat
    let maxSigners := UInt16.ofNat (otherIds.length + 1)
    (validateParticipantInputs id threshold maxSigners).mapError .newParticipant
    return { id, round := 1, threshold, maxSigners, otherIds, ctx, round1Secret := none,
             keyPackage := none }

variable (curve : Curve F G₁ G₂) (hashToScalar : Bytes → F)

def DkgParticipant.round1 (p : DkgParticipant F G₁) (rng : Randomness F) :
    Except FrostError (DkgParticipant F G₁ × Round1Bcast × SortedMap UInt32 ShamirShare) :=
  if p.round ≠ 1 then .error (.invalidRound 1 p.round)
  else if p.round1Secret.isSome ∨ p.keyPackage.isSome then .error .missingRoundState
  else do
    let (cast, shares, secret) ←
      (Frost.round1 curve hashToScalar p.id p.threshold p.maxSigners p.ctx rng).mapError .execRound1
    let shares ← p.otherIds.mapM fun id =>
      Except.okOr ((shares.lookup id).map fun share => (id, share)) .missingRoundState
    return ({ p with round1Secret := some secret, round := 2 }, cast,
      SortedMap.empty.insertAll shares)

def DkgParticipant.round2 (p : DkgParticipant F G₁) (bcasts : SortedMap UInt32 Round1Bcast)
    (shares : SortedMap UInt32 ShamirShare) :
    Except FrostError (DkgParticipant F G₁ × Round2Bcast) :=
  if p.round ≠ 2 then .error (.invalidRound 2 p.round)
  else if p.keyPackage.isSome then .error .missingRoundState
  else
    match p.round1Secret with
    | none => .error .missingRoundState
    | some secret => do
      let (cast, keyPackage, _) ←
        (Frost.round2 curve hashToScalar secret (bcasts.erase p.id) (shares.erase p.id)).mapError
          .execRound2
      return ({ p with round1Secret := none, keyPackage := some keyPackage, round := 3 }, cast)

/-! ## All validators -/

def otherIds (numNodes shareIdx : UInt32) : List UInt32 :=
  (nodeIds numNodes).filter (· ≠ shareIdx)

def newFrostParticipants (numValidators numNodes threshold shareIdx : UInt32) (ctx : UInt8) :
    Except FrostError (List (UInt32 × DkgParticipant F G₁)) :=
  (List.range numValidators.toNat).mapM fun vIdx => do
    let p ← DkgParticipant.new shareIdx threshold ctx (otherIds numNodes shareIdx)
    return (UInt32.ofNat vIdx, p)

/-- One turn of the loop of round 1: the validator, its cast and its shares. -/
def round1Turn (rng : UInt32 → Randomness F) (entry : UInt32 × DkgParticipant F G₁) :
    Except FrostError ((UInt32 × DkgParticipant F G₁) × (MsgKey × Round1Bcast) ×
      List (MsgKey × ShamirShare)) := do
  let (validator, cast, p2p) ← entry.2.round1 curve hashToScalar (rng entry.1)
  return ((entry.1, validator), (⟨entry.1, validator.id, 0⟩, cast),
    p2p.entries.map fun (targetId, share) => (⟨entry.1, validator.id, targetId⟩, share))

def round1 (rng : UInt32 → Randomness F) (validators : List (UInt32 × DkgParticipant F G₁)) :
    Except FrostError (List (UInt32 × DkgParticipant F G₁) × HashMap MsgKey Round1Bcast ×
      HashMap MsgKey ShamirShare) := do
  let results ← validators.mapM (round1Turn curve hashToScalar rng)
  return (results.map (·.1), HashMap.insertAll ∅ (results.map (·.2.1)),
    HashMap.insertAll ∅ (results.flatMap (·.2.2)))

/-- The entries of a validator, by their source. -/
def inputsOf {D : Type} (order : IterOrder (Sigma fun _ : MsgKey => D)) (m : HashMap MsgKey D)
    (vIdx : UInt32) : SortedMap UInt32 D :=
  SortedMap.empty.insertAll (((order.order m.entries).filter (·.1.valIdx = vIdx)).map fun entry =>
    (entry.1.sourceId, entry.2))

def getRound2Inputs (orders : Orders) (castR1 : HashMap MsgKey Round1Bcast)
    (p2pR1 : HashMap MsgKey ShamirShare) (vIdx : UInt32) :
    SortedMap UInt32 Round1Bcast × SortedMap UInt32 ShamirShare :=
  (inputsOf orders.castR1 castR1 vIdx, inputsOf orders.p2pR1 p2pR1 vIdx)

def round2Turn (orders : Orders) (castR1 : HashMap MsgKey Round1Bcast)
    (p2pR1 : HashMap MsgKey ShamirShare) (entry : UInt32 × DkgParticipant F G₁) :
    Except FrostError ((UInt32 × DkgParticipant F G₁) × MsgKey × Round2Bcast) := do
  let (casts, shares) := getRound2Inputs orders castR1 p2pR1 entry.1
  let (validator, cast) ← entry.2.round2 curve hashToScalar casts shares
  return ((entry.1, validator), ⟨entry.1, validator.id, 0⟩, cast)

def round2 (orders : Orders) (validators : List (UInt32 × DkgParticipant F G₁))
    (castR1 : HashMap MsgKey Round1Bcast) (p2pR1 : HashMap MsgKey ShamirShare) :
    Except FrostError (List (UInt32 × DkgParticipant F G₁) × HashMap MsgKey Round2Bcast) := do
  let results ← validators.mapM (round2Turn curve hashToScalar orders castR1 p2pR1)
  return (results.map (·.1), HashMap.insertAll ∅ (results.map (·.2)))

/-! ## Shares -/

def pointToPubkey (point : Bytes) : Except FrostError Bytes := do
  let _ ← Except.okOr (fromCompressed curve point) .invalidPublicKeyPoint
  return point

/-- One turn of the loop over the round-2 broadcasts. -/
def addPubShare (pubShares : SortedMap UInt32 (HashMap UInt64 Bytes))
    (entry : Sigma fun _ : MsgKey => Round2Bcast) :
    Except FrostError (SortedMap UInt32 (HashMap UInt64 Bytes)) := do
  let pubShare ← pointToPubkey curve entry.2.vkShare
  return pubShares.insert entry.1.valIdx
    (((pubShares.lookup entry.1.valIdx).getD ∅).insert entry.1.sourceId.toUInt64 pubShare)

def makeShare (pubShares : SortedMap UInt32 (HashMap UInt64 Bytes))
    (entry : UInt32 × DkgParticipant F G₁) : Except FrostError Share := do
  let keyPackage ← Except.okOr entry.2.keyPackage .missingRoundState
  let pubKey ← pointToPubkey curve (curve.g1ToBytes keyPackage.verifyingKey)
  return { pubKey, secretShare := curve.scalarToBytes keyPackage.signingShare,
           publicShares := (pubShares.lookup entry.1).getD ∅ }

def makeShares (orders : Orders) (validators : List (UInt32 × DkgParticipant F G₁))
    (r2Result : HashMap MsgKey Round2Bcast) : Except FrostError (List Share) := do
  let pubShares ← (orders.castR2.order r2Result.entries).foldlM (addPubShare curve) .empty
  validators.mapM (makeShare curve pubShares)

/-! ## The ceremony -/

/-- `run_frost_parallel` up to the results of round 1. -/
def afterRound1 (tp : FTransport) (numValidators numNodes threshold shareIdx : UInt32) (ctx : UInt8)
    (rng : UInt32 → Randomness F) :
    Except FrostError (List (UInt32 × DkgParticipant F G₁) × HashMap MsgKey Round1Bcast ×
      HashMap MsgKey ShamirShare) := do
  let validators ← newFrostParticipants numValidators numNodes threshold shareIdx ctx
  let (validators, castR1, p2pR1) ← round1 curve hashToScalar rng validators
  let (castR1, p2pR1) ← tp.round1 castR1 p2pR1
  return (validators, castR1, p2pR1)

def runFrostParallel (tp : FTransport) (numValidators numNodes threshold shareIdx : UInt32)
    (ctx : UInt8) (rng : UInt32 → Randomness F) (orders : Orders) :
    Except FrostError (List Share) := do
  let (validators, castR1, p2pR1) ←
    afterRound1 curve hashToScalar tp numValidators numNodes threshold shareIdx ctx rng
  let (validators, castR2) ← round2 curve hashToScalar orders validators castR1 p2pR1
  let castR2 ← tp.round2 castR2
  makeShares curve orders validators castR2

end Model

end Pluto.Dkg
