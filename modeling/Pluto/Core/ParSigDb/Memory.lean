import Pluto.Core.Duty
import Pluto.Lib.Attempt
import Pluto.Lib.HashMap
import Pluto.Lib.Trace
import Pluto.Ssz.Hasher

/-!
# The in-memory ParSigDB

`MemDB` of `crates/core/src/parsigdb/memory.rs`, which collects the partial signatures of the nodes
and hands a set of them on when `threshold` signatures of one message root are there.  A signature
that is stored twice is ignored, and another one of the same share is refused.

The signed data is a trait object; the database compares it and asks for its message root, which may
fail.  A set of signatures is a hash map, and comes here as its entries in the order of iteration.
The order in which the groups by message root are visited is an argument.  `store` returns early,
with what it has pushed, so it is an `Attempt`, and so is the loop of `store_external`; what the
loop has collected is lost with an error.

The subscribers are functions of other components: a call takes the results they return in it, and
its `Outcome` says how many of them were called and with what.  The answer of the deadliner is
ignored by the code and left out.
-/

namespace Pluto.Core.ParSigDb

open Ssz

/-! ## Data -/

/-- What the database uses of a `dyn SignedData`. -/
structure SignedData where
  Data : Type
  decEq : DecidableEq Data
  RootError : Type
  messageRoot : Data → Except RootError HashRoot

instance (S : SignedData) : DecidableEq S.Data := S.decEq

structure ParSignedData (S : SignedData) where
  signedData : S.Data
  shareIdx : UInt64
  deriving DecidableEq

/-- A set of partial signatures, one for a public key, in the order it is iterated in. -/
structure ParSignedDataSet (S : SignedData) where
  entries : List (PubKey × ParSignedData S)
  nodup : (entries.map Prod.fst).Nodup

structure Key where
  duty : Duty
  pubKey : PubKey
  deriving DecidableEq

inductive MemDBError (S : SignedData)
  | parsigDataMismatch (pubkey : PubKey) (shareIdx : UInt64)
  | signedDataError (error : S.RootError)
  | internalSubscriber

/-- Result of `store`. -/
inductive StoreOutcome (S : SignedData)
  | duplicate
  | stored
  | threshold (psigs : List (ParSignedData S))

/-- `MemDBInner`, without the subscribers. -/
structure MemDB (S : SignedData) where
  entries : HashMap Key (List (ParSignedData S))
  keysByDuty : HashMap Duty (List Key)

variable {S : SignedData}

def ParSignedData.root (sig : ParSignedData S) : Except S.RootError HashRoot :=
  S.messageRoot sig.signedData

/-- A visit of the groups by message root. -/
abbrev GroupOrder (S : SignedData) : Type :=
  IterOrder (Sigma fun _ : HashRoot => List (ParSignedData S))

/-! ## The threshold -/

/-- Groups signatures by their message root. -/
def groupByRoot (sigs : List (ParSignedData S)) :
    Except S.RootError (HashMap HashRoot (List (ParSignedData S))) :=
  sigs.foldlM (fun groups sig => do
    let root ← sig.root
    return groups.push root sig) ∅

/-- The first group, in the order of the visit, that has exactly `threshold` signatures. -/
def getThresholdMatching (order : GroupOrder S) (typ : DutyType) (sigs : List (ParSignedData S))
    (threshold : ℕ) : Except S.RootError (Option (List (ParSignedData S))) :=
  if sigs.length < threshold then .ok none
  else if typ = .signature then
    -- Signatures do not support message roots.
    .ok (if sigs.length = threshold then some sigs else none)
  else do
    let groups ← groupByRoot sigs
    return (groups.valuesIn order).find? fun set => set.length = threshold

/-! ## Storing -/

namespace MemDB

def new (S : SignedData) : MemDB S := ⟨∅, ∅⟩

/-- The signatures of a key. -/
def sigs (db : MemDB S) (k : Key) : List (ParSignedData S) := db.entries.listAt k

def push (k : Key) (value : ParSignedData S) (db : MemDB S) : MemDB S where
  entries := db.entries.push k value
  keysByDuty := db.keysByDuty.push k.duty k

def store (order : GroupOrder S) (threshold : ℕ) (k : Key) (value : ParSignedData S) :
    Attempt (MemDBError S) (MemDB S) (StoreOutcome S) := do
  let db ← get
  match (db.sigs k).find? (fun s => s.shareIdx = value.shareIdx) with
  | some existing =>
    if existing = value then return .duplicate
    else throw (.parsigDataMismatch k.pubKey value.shareIdx)
  | none =>
    modify (push k value)
    match getThresholdMatching order k.duty.dutyType (db.sigs k ++ [value]) threshold with
    | .error e => throw (.signedDataError e)
    | .ok (some psigs) => return .threshold psigs
    | .ok none => return .stored

variable (order : PubKey → GroupOrder S) (threshold : ℕ)

/-- The loop of `store_external`, with the output it has collected. -/
def storeAll (duty : Duty) : List (PubKey × ParSignedData S) →
    HashMap PubKey (List (ParSignedData S)) →
    Attempt (MemDBError S) (MemDB S) (HashMap PubKey (List (ParSignedData S)))
  | [], output => pure output
  | (pubKey, parSigned) :: entries, output => do
    match ← store (order pubKey) threshold ⟨duty, pubKey⟩ parSigned with
    | .duplicate => storeAll duty entries output
    | .stored => storeAll duty entries output
    | .threshold psigs => storeAll duty entries (output.insert pubKey psigs)

/-- What a call does to its subscribers, and what it returns. -/
structure Outcome (S : SignedData) where
  result : Except (MemDBError S) Unit
  /-- What the threshold subscribers were called with. -/
  output : HashMap PubKey (List (ParSignedData S))
  /-- How many of them were called. -/
  called : ℕ

/-- Subscribers are called one after the other, up to the first that fails. -/
def callSubs : List (Except (MemDBError S) Unit) → Except (MemDBError S) Unit × ℕ
  | [] => (.ok (), 0)
  | .ok () :: subs => ((callSubs subs).1, (callSubs subs).2 + 1)
  | .error e :: _ => (.error e, 1)

def storeExternal (duty : Duty) (set : ParSignedDataSet S)
    (threshSubs : List (Except (MemDBError S) Unit)) (db : MemDB S) : Outcome S × MemDB S :=
  match Attempt.exec (storeAll order threshold duty set.entries ∅) db with
  | (.error e, db') => (⟨.error e, ∅, 0⟩, db')
  | (.ok output, db') =>
    if output.entries = [] then (⟨.ok (), ∅, 0⟩, db')
    else (⟨(callSubs threshSubs).1, output, (callSubs threshSubs).2⟩, db')

def storeInternal (duty : Duty) (set : ParSignedDataSet S)
    (threshSubs internalSubs : List (Except (MemDBError S) Unit)) (db : MemDB S) :
    Outcome S × MemDB S :=
  let (outcome, db') := storeExternal order threshold duty set threshSubs db
  match outcome.result with
  | .error _ => (outcome, db')
  | .ok () => ({ outcome with result := (callSubs internalSubs).1 }, db')

/-- The body of the loop of `trim`. -/
def trim (duty : Duty) (db : MemDB S) : MemDB S where
  entries := db.entries.eraseAll (db.keysByDuty.listAt duty)
  keysByDuty := db.keysByDuty.erase duty

/-! ## Runs -/

/-- A call of `store_external` or `store_internal`, with what the subscribers return in it and its
outcome; or an expired duty. -/
inductive Label (S : SignedData)
  | call (duty : Duty) (set : ParSignedDataSet S) (threshSubs : List (Except (MemDBError S) Unit))
      (outcome : Outcome S)
  | trim (duty : Duty)

inductive Step (threshold : ℕ) : MemDB S → Label S → MemDB S → Prop
  | external {db} (order : PubKey → GroupOrder S) (duty : Duty) (set : ParSignedDataSet S)
      (threshSubs : List (Except (MemDBError S) Unit)) :
      Step threshold db
        (.call duty set threshSubs (storeExternal order threshold duty set threshSubs db).1)
        (storeExternal order threshold duty set threshSubs db).2
  | internal {db} (order : PubKey → GroupOrder S) (duty : Duty) (set : ParSignedDataSet S)
      (threshSubs internalSubs : List (Except (MemDBError S) Unit)) :
      Step threshold db
        (.call duty set threshSubs
          (storeInternal order threshold duty set threshSubs internalSubs db).1)
        (storeInternal order threshold duty set threshSubs internalSubs db).2
  | trim {db} (duty : Duty) : Step threshold db (.trim duty) (db.trim duty)

end MemDB

end Pluto.Core.ParSigDb
