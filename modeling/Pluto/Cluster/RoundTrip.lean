import Pluto.Cluster.Binding
import Pluto.Cluster.Serde

/-!
# Round trips of definitions and locks

What comes back from the JSON of a lock is the lock without what its version has no field for
(`Lock.kept`).  The hashes of the version do not cover these fields, so that they stay as they are.
The way back fails if a version up to 1.4 has more validators than `repeat_v_addresses` allows, which
the way there does not check (`roundTrip_iff`).
-/

namespace Pluto.Cluster

open Except (bind_ok_iff pure_ok_iff okOr_ok_iff mapError_ok_iff ok_bind exists_ok_of_isSome)
open Ssz

/-! ## What is kept -/

/-- The time in full seconds. -/
def DateTime.inSeconds (time : DateTime) : DateTime :=
  ⟨time.timestamp, 0, time.inRange.1, time.inRange.2.1, by decide⟩

def BuilderRegistration.inSeconds (reg : BuilderRegistration) : BuilderRegistration :=
  { reg with message := { reg.message with timestamp := reg.message.timestamp.inSeconds } }

def Definition.kept (v : Version) (d : Definition) : Definition :=
  { d with
    creator := if 4 ≤ v.number then d.creator else default
    depositAmounts := if 8 ≤ v.number then d.depositAmounts else []
    consensusProtocol := if 9 ≤ v.number then d.consensusProtocol else ""
    targetGasLimit := if 10 ≤ v.number then d.targetGasLimit else 0
    compounding := if 10 ≤ v.number then d.compounding else false }

@[simp]
lemma Definition.kept_version (v : Version) (d : Definition) : (d.kept v).version = d.version := rfl

def DistValidator.kept (v : Version) (w : DistValidator) : DistValidator :=
  { w with
    partialDepositData :=
      if 8 ≤ v.number then w.partialDepositData
      else if 6 ≤ v.number then [w.partialDepositData.headD default] else []
    builderRegistration :=
      if 7 ≤ v.number then w.builderRegistration.inSeconds else default }

def Lock.kept (v : Version) (lock : Lock) : Lock :=
  { lock with
    definition := lock.definition.kept v
    distributedValidators := lock.distributedValidators.map (DistValidator.kept v)
    nodeSignatures := if 7 ≤ v.number then lock.nodeSignatures else [] }

/-! ## Definitions -/

lemma eq_replicate_of_legacy {d : Definition} {a : ValidatorAddresses}
    (h : d.legacyValidatorAddresses = some a) :
    d.validatorAddresses = List.replicate d.validatorAddresses.length a := by
  unfold Definition.legacyValidatorAddresses at h
  split at h
  · rename_i hempty
    rw [hempty]
    rfl
  · rename_i first rest haddresses
    split_ifs at h with hall
    obtain rfl := Option.some.inj h
    rw [haddresses, List.eq_replicate_iff]
    refine ⟨rfl, fun b hb => ?_⟩
    rcases List.mem_cons.mp hb with rfl | hb
    · rfl
    · simpa using List.all_eq_true.mp hall b hb

/-- The addresses come back, if there are not too many. -/
lemma repeatVAddresses_eq {d : Definition} {a : ValidatorAddresses}
    (h : d.legacyValidatorAddresses = some a)
    (hlen : d.validatorAddresses.length = d.numValidators.toNat) :
    repeatVAddresses a d.numValidators =
      if sszMaxValidators < d.numValidators.toNat then
        .error (.numValidatorsTooLarge d.numValidators.toNat sszMaxValidators)
      else .ok d.validatorAddresses := by
  rw [repeatVAddresses, ← hlen, ← eq_replicate_of_legacy h]

lemma mapM_tryFromV1X1 (operators : List Operator) :
    (operators.map OperatorV1X1.ofOperator).mapM Operator.tryFromV1X1 = .ok operators := by
  induction operators with
  | nil => rfl
  | cons o operators ih =>
    rw [List.map_cons, List.mapM_cons, ih]
    rfl

lemma map_ofV1X2OrLater (operators : List Operator) :
    (operators.map OperatorV1X2OrLater.ofOperator).map Operator.ofV1X2OrLater = operators := by
  rw [List.map_map]
  exact List.map_id operators

/-- The result of reading the addresses of an old version. -/
def withAddresses (d result : Definition) : Except DefinitionError Definition :=
  if sszMaxValidators < d.numValidators.toNat then
    .error (.numValidatorsTooLarge d.numValidators.toNat sszMaxValidators)
  else .ok result

section Legacy

variable {d : Definition} (hlen : d.validatorAddresses.length = d.numValidators.toNat)
include hlen

lemma tryFromV1x0or1_tryFrom {s : DefinitionV1x0or1} (h : DefinitionV1x0or1.tryFrom d = .ok s) :
    s.version = d.version ∧ Definition.tryFromV1x0or1 s = withAddresses d (d.kept .v1_0) := by
  obtain ⟨a, ha, hs⟩ := bind_ok_iff.mp h
  obtain rfl := pure_ok_iff.mp hs
  refine ⟨rfl, ?_⟩
  have hrepeat := repeatVAddresses_eq (okOr_ok_iff.mp ha) hlen
  simp only [Definition.tryFromV1x0or1, withAddresses, hrepeat, mapM_tryFromV1X1]
  split_ifs <;> rfl

lemma tryFromV1x2to4_tryFrom {s : DefinitionV1x2or3} (h : DefinitionV1x2or3.tryFrom d = .ok s)
    (creator : Creator) :
    s.version = d.version ∧ Definition.tryFromV1x2to4 s creator =
      withAddresses d { d.kept .v1_2 with creator } := by
  obtain ⟨a, ha, hs⟩ := bind_ok_iff.mp h
  obtain rfl := pure_ok_iff.mp hs
  refine ⟨rfl, ?_⟩
  have hrepeat := repeatVAddresses_eq (okOr_ok_iff.mp ha) hlen
  simp only [Definition.tryFromV1x2to4, withAddresses, hrepeat, map_ofV1X2OrLater]
  split_ifs <;> rfl

end Legacy

section Definitions

variable {J : Type} (json : Json J)

/-- What a definition comes back as. -/
def readBack (v : Version) (d : Definition) : Except SerdeError Definition :=
  if v.number < 5 ∧ sszMaxValidators < d.numValidators.toNat then
    .error (.conversionError (.numValidatorsTooLarge d.numValidators.toNat sszMaxValidators))
  else .ok (d.kept v)

lemma mapError_withAddresses {v : Version} (hv : v.number < 5) {d result : Definition}
    (hresult : result = d.kept v) :
    (withAddresses d result).mapError SerdeError.conversionError = readBack v d := by
  simp only [withAddresses, readBack, hv, true_and, hresult]
  split_ifs <;> rfl

lemma checked_ofDefinition {d : Definition}
    (hlen : d.validatorAddresses.length = d.numValidators.toNat) (result : Definition) :
    Json.checked (.ofDefinition d) result = .ok result :=
  if_neg (not_not.mpr hlen.symm)

lemma ofV1x5to7_ofDefinition (d : Definition) :
    Definition.ofV1x5to7 (.ofDefinition d) = { d with
      depositAmounts := [], consensusProtocol := "", targetGasLimit := 0, compounding := false } := by
  simp only [Definition.ofV1x5to7, DefinitionV1x5to7.ofDefinition, map_ofV1X2OrLater]

lemma readBack_of_five_le {v : Version} (hv : ¬v.number < 5) (d : Definition) :
    readBack v d = .ok (d.kept v) :=
  if_neg fun h => hv h.1

lemma deserialize_serializeDefinition {d : Definition} {v : Version}
    (hversion : Version.ofStr d.version = some v)
    (hlen : d.validatorAddresses.length = d.numValidators.toNat) {value : J}
    (h : json.serializeDefinition d = .ok value) :
    json.version value = some d.version ∧ json.deserializeDefinition value = readBack v d := by
  rw [Json.serializeDefinition, hversion] at h
  cases v with
  | v1_0 | v1_1 =>
    obtain ⟨s, hs, hvalue⟩ := bind_ok_iff.mp h
    obtain rfl := pure_ok_iff.mp hvalue
    obtain ⟨hsame, hback⟩ := tryFromV1x0or1_tryFrom hlen (mapError_ok_iff.mp hs)
    have hget := json.definitionV1x0or1.get_serialize s
    rw [hsame] at hget
    refine ⟨hget, ?_⟩
    rw [Json.deserializeDefinition, hget, Except.okOr, ok_bind, hversion]
    simp only [json.definitionV1x0or1.deserialize_serialize, Except.okOr, ok_bind, hback]
    refine mapError_withAddresses ?_ rfl
    decide
  | v1_2 | v1_3 =>
    obtain ⟨s, hs, hvalue⟩ := bind_ok_iff.mp h
    obtain rfl := pure_ok_iff.mp hvalue
    obtain ⟨hsame, hback⟩ := tryFromV1x2to4_tryFrom hlen (mapError_ok_iff.mp hs) default
    have hget := json.definitionV1x2or3.get_serialize s
    rw [hsame] at hget
    refine ⟨hget, ?_⟩
    rw [Json.deserializeDefinition, hget, Except.okOr, ok_bind, hversion]
    simp only [json.definitionV1x2or3.deserialize_serialize, Except.okOr, ok_bind,
      Definition.tryFromV1x2or3, hback]
    refine mapError_withAddresses ?_ rfl
    decide
  | v1_4 =>
    obtain ⟨s, hs, hvalue⟩ := bind_ok_iff.mp h
    obtain rfl := pure_ok_iff.mp hvalue
    obtain ⟨fields, hfields, hs⟩ := bind_ok_iff.mp (mapError_ok_iff.mp hs)
    obtain rfl := pure_ok_iff.mp hs
    obtain ⟨hsame, hback⟩ := tryFromV1x2to4_tryFrom hlen hfields d.creator
    have hget := json.definitionV1x4.get_serialize ⟨fields, d.creator⟩
    rw [hsame] at hget
    refine ⟨hget, ?_⟩
    rw [Json.deserializeDefinition, hget, Except.okOr, ok_bind, hversion]
    simp only [json.definitionV1x4.deserialize_serialize, Except.okOr, ok_bind,
      Definition.tryFromV1x4, hback]
    refine mapError_withAddresses ?_ rfl
    decide
  | v1_5 | v1_6 | v1_7 | v1_8 | v1_9 | v1_10 =>
    obtain rfl := Except.ok.inj h
    have hsame : (DefinitionV1x5to7.ofDefinition d).version = d.version := rfl
    simp only [Json.deserializeDefinition, json.definitionV1x5to7.get_serialize,
      json.definitionV1x8.get_serialize, json.definitionV1x9.get_serialize,
      json.definitionV1x10.get_serialize, DefinitionV1x8.ofDefinition, DefinitionV1x9.ofDefinition,
      DefinitionV1x10.ofDefinition, hsame, hversion, Except.okOr, ok_bind, true_and,
      json.definitionV1x5to7.deserialize_serialize, json.definitionV1x8.deserialize_serialize,
      json.definitionV1x9.deserialize_serialize, json.definitionV1x10.deserialize_serialize]
    refine (checked_ofDefinition hlen _).trans ?_
    rw [readBack_of_five_le (by decide)]
    simp only [Definition.ofV1x8, Definition.ofV1x9, Definition.ofV1x10, ofV1x5to7_ofDefinition]
    rfl

end Definitions

/-! ## Locks -/

lemma fromTimestamp_timestamp (time : DateTime) :
    DateTime.fromTimestamp time.timestamp 0 = some time.inSeconds :=
  dif_pos time.inSeconds.inRange

lemma tryFromFields_ofRegistration (reg : BuilderRegistration) :
    BuilderRegistration.tryFromFields (.ofRegistration reg) = some reg.inSeconds := by
  simp only [BuilderRegistration.tryFromFields, BuilderRegistrationFields.ofRegistration,
    fromTimestamp_timestamp]
  rfl

lemma tryFromV1x7_ofValidator (w : DistValidator) :
    DistValidator.tryFromV1x7 (.ofValidator w) = some (w.kept .v1_7) := by
  simp only [DistValidator.tryFromV1x7, DistValidatorV1x7.ofValidator,
    tryFromFields_ofRegistration]
  rfl

lemma tryFromV1x8orLater_ofValidator {v : Version} (hv : 8 ≤ v.number) (w : DistValidator) :
    DistValidator.tryFromV1x8orLater (.ofValidator w) = some (w.kept v) := by
  have hseven : 7 ≤ v.number := by omega
  simp only [DistValidator.tryFromV1x8orLater, DistValidatorV1x8orLater.ofValidator,
    tryFromFields_ofRegistration, DistValidator.kept, if_pos hv, if_pos hseven]
  rfl

/-- Reading every element back reads the list back. -/
lemma mapM_map_some {α β γ : Type} {f : α → β} {g : β → Option γ} {k : α → γ}
    (h : ∀ a, g (f a) = some (k a)) (l : List α) : (l.map f).mapM g = some (l.map k) := by
  induction l with
  | nil => rfl
  | cons a l ih =>
    rw [List.map_cons, List.mapM_cons, h, ih]
    rfl

/-- What a lock comes back as. -/
def Lock.readBack (v : Version) (lock : Lock) : Except SerdeError Lock :=
  if v.number < 5 ∧ sszMaxValidators < lock.definition.numValidators.toNat then
    .error (.conversionError
      (.numValidatorsTooLarge lock.definition.numValidators.toNat sszMaxValidators))
  else .ok (lock.kept v)

lemma readBack_bind {v : Version} {lock : Lock} {f : Definition → Except SerdeError Lock}
    (hf : f (lock.definition.kept v) = .ok (lock.kept v)) :
    (Cluster.readBack v lock.definition >>= f) = lock.readBack v := by
  unfold Cluster.readBack Lock.readBack
  split_ifs
  · rfl
  · exact hf

section Locks

variable {J : Type} {json : Json J} {lock : Lock} {v : Version}

lemma deserialize_serializeLock (hversion : Version.ofStr lock.definition.version = some v)
    (hlen : lock.definition.validatorAddresses.length = lock.definition.numValidators.toNat)
    {value : J} (h : json.serializeLock lock = .ok value) :
    json.deserializeLock value = lock.readBack v := by
  rw [Json.serializeLock, hversion, Except.okOr, ok_bind] at h
  obtain ⟨definition, hdefinition, hvalue⟩ := bind_ok_iff.mp h
  obtain ⟨hget, hback⟩ := deserialize_serializeDefinition json hversion hlen hdefinition
  cases v
  all_goals
    obtain rfl := Except.ok.inj hvalue
    simp only [Json.deserializeLock, json.lockV1x0or1.get_serialize, json.lockV1x2to5.get_serialize,
      json.lockV1x6.get_serialize, json.lockV1x7.get_serialize, json.lockV1x8orLater.get_serialize,
      json.lockV1x0or1.deserialize_serialize, json.lockV1x2to5.deserialize_serialize,
      json.lockV1x6.deserialize_serialize, json.lockV1x7.deserialize_serialize,
      json.lockV1x8orLater.deserialize_serialize, hget, hversion, hback, Except.okOr, ok_bind]
    refine readBack_bind ?_
  case v1_0 | v1_1 =>
    rw [if_neg (by simp [DistValidatorV1x0or1.ofValidator]), List.map_map]
    rfl
  case v1_2 | v1_3 | v1_4 | v1_5 =>
    rw [if_neg (by simp [DistValidatorV1x2to5.ofValidator]), List.map_map]
    rfl
  case v1_6 =>
    rw [List.map_map]
    rfl
  case v1_7 =>
    simp only [mapM_map_some tryFromV1x7_ofValidator, ok_bind]
    rfl
  case v1_8 | v1_9 | v1_10 =>
    simp only [mapM_map_some (tryFromV1x8orLater_ofValidator (v := .v1_8) (by decide)), ok_bind]
    rfl

end Locks

/-! ## The hashes -/

section Hashes

variable (sha256 : Bytes → HashRoot) {v : Version}

lemma hashDefinitionFunc_kept {d : Definition} (hversion : Version.ofStr d.version = some v)
    {hashFunc : Definition → Bytes → Bool → Except SszError Bytes}
    (hfunc : getDefinitionHashFunc sha256 d.version = .ok hashFunc) (buf : Bytes)
    (configOnly : Bool) : hashFunc (d.kept v) buf configOnly = hashFunc d buf configOnly := by
  rw [getDefinitionHashFunc, hversion] at hfunc
  cases v with
  | v1_3 =>
    obtain rfl := Except.ok.inj hfunc
    -- the only function that depends on the version
    have hname : d.version = Version.v1_3.asStr := (Version.asStr_of_ofStr hversion).symm
    simp only [hashDefinitionV1x3or4, Definition.kept, hname, ne_eq, not_true_eq_false, if_false]
    rfl
  | _ =>
    obtain rfl := Except.ok.inj hfunc
    rfl

lemma hashDefinition_kept {d : Definition} (hversion : Version.ofStr d.version = some v)
    (configOnly : Bool) :
    hashDefinition sha256 (d.kept v) configOnly = hashDefinition sha256 d configOnly := by
  unfold hashDefinition
  change (getDefinitionHashFunc sha256 d.version >>= _) = _
  cases hfunc : getDefinitionHashFunc sha256 d.version with
  | error e => rfl
  | ok hashFunc =>
    rw [ok_bind, ok_bind, hashDefinitionFunc_kept sha256 hversion hfunc]

lemma hashValidatorFunc_kept {version : String} (hversion : Version.ofStr version = some v)
    {hashFunc : DistValidator → Bytes → String → Except SszError Bytes}
    (hfunc : getValidatorHashFunc sha256 version = .ok hashFunc) (w : DistValidator)
    (buf : Bytes) : hashFunc (w.kept v) buf version = hashFunc w buf version := by
  rw [getValidatorHashFunc, hversion] at hfunc
  cases v with
  | v1_0 | v1_1 | v1_2 => cases hfunc
  | v1_3 | v1_4 =>
    obtain rfl := Except.ok.inj hfunc
    rfl
  | _ =>
    obtain rfl := Except.ok.inj hfunc
    simp only [hashValidatorV1x5to7, hashValidatorV1x8OrLater, getDepositDataHashFunc,
      getRegistrationHashFunc, hversion]
    rfl

lemma hashLockLegacy_kept (lock : Lock) (buf : Bytes) :
    hashLockLegacy sha256 (lock.kept v) buf = hashLockLegacy sha256 lock buf := by
  simp only [hashLockLegacy, Lock.kept, List.length_map, List.foldlM_map]
  rfl

lemma hashLockV1x3OrLater_kept {lock : Lock}
    (hversion : Version.ofStr lock.definition.version = some v) (buf : Bytes) :
    hashLockV1x3OrLater sha256 (lock.kept v) buf = hashLockV1x3OrLater sha256 lock buf := by
  unfold hashLockV1x3OrLater
  change (getDefinitionHashFunc sha256 lock.definition.version >>= fun _ =>
    getValidatorHashFunc sha256 lock.definition.version >>= _) = _
  cases hdef : getDefinitionHashFunc sha256 lock.definition.version with
  | error e => rfl
  | ok defHashFunc =>
    cases hval : getValidatorHashFunc sha256 lock.definition.version with
    | error e => rfl
    | ok valHashFunc =>
      simp only [ok_bind, Lock.kept, List.length_map, List.foldlM_map,
        hashDefinitionFunc_kept sha256 hversion hdef, Definition.kept_version,
        hashValidatorFunc_kept sha256 hversion hval]

lemma hashLock_kept {lock : Lock} (hversion : Version.ofStr lock.definition.version = some v) :
    hashLock sha256 (lock.kept v) = hashLock sha256 lock := by
  unfold hashLock
  rw [show (lock.kept v).definition.version = lock.definition.version from rfl, getLockHashFunc,
    hversion]
  cases v with
  | v1_0 | v1_1 | v1_2 => simp only [ok_bind, hashLockLegacy_kept]
  | _ => simp only [ok_bind, hashLockV1x3OrLater_kept sha256 hversion]

/-- Checking the hashes of what comes back gives what it gave before. -/
lemma verifyHashes_kept {lock : Lock} (hversion : Version.ofStr lock.definition.version = some v) :
    (lock.kept v).verifyHashes sha256 = lock.verifyHashes sha256 := by
  unfold Lock.verifyHashes Definition.verifyHashes
  rw [hashLock_kept sha256 hversion]
  simp only [Lock.kept, hashDefinition_kept sha256 hversion]
  rfl

end Hashes

/-! ## Round trips -/

/-- Hashing a definition limits its addresses from version 1.5 on. -/
lemma length_validatorAddresses_le {sha256 : Bytes → HashRoot} {d : Definition} {v : Version}
    (hv : 5 ≤ v.number) (hversion : Version.ofStr d.version = some v) {configOnly : Bool}
    {hash : HashRoot} (hhash : hashDefinition sha256 d configOnly = .ok hash) :
    d.validatorAddresses.length ≤ sszMaxValidators := by
  obtain ⟨-, hfits, -⟩ := hashDefinition_eq_root configOnly hv hversion hhash
  rw [definitionTree, HashTree.Fits, HashTree.allFit_iff] at hfits
  have haddresses := hfits (validatorAddressesTree d.validatorAddresses) (by simp)
  rw [validatorAddressesTree, HashTree.Fits, List.length_map] at haddresses
  have hroom : 2 ^ Nat.clog 2 sszMaxValidators = sszMaxValidators := by decide +kernel
  exact hroom ▸ haddresses.1

/-- A lock that is checked in the same way as another one. -/
structure Lock.SameHashes (sha256 : Bytes → HashRoot) (lock lock' : Lock) : Prop where
  configHash : lock'.definition.configHash = lock.definition.configHash
  definitionHash : lock'.definition.definitionHash = lock.definition.definitionHash
  lockHash : lock'.lockHash = lock.lockHash
  signatureAggregate : lock'.signatureAggregate = lock.signatureAggregate
  hashDefinition : ∀ configOnly,
    hashDefinition sha256 lock'.definition configOnly =
      hashDefinition sha256 lock.definition configOnly
  hashLock : hashLock sha256 lock' = hashLock sha256 lock
  verifyHashes : lock'.verifyHashes sha256 = lock.verifyHashes sha256

lemma sameHashes_kept (sha256 : Bytes → HashRoot) {lock : Lock} {v : Version}
    (hversion : Version.ofStr lock.definition.version = some v) :
    lock.SameHashes sha256 (lock.kept v) where
  configHash := rfl
  definitionHash := rfl
  lockHash := rfl
  signatureAggregate := rfl
  hashDefinition := hashDefinition_kept sha256 hversion
  hashLock := hashLock_kept sha256 hversion
  verifyHashes := verifyHashes_kept sha256 hversion

/-- **A lock that was written can be read, with the same hashes, exactly if it does not have too
many validators.**  Hashing makes sure of this from version 1.5 on. -/
theorem roundTrip_iff {J : Type} (json : Json J) (sha256 : Bytes → HashRoot) {lock : Lock}
    (hlen : lock.definition.validatorAddresses.length = lock.definition.numValidators.toNat)
    {config : HashRoot} (hconfig : hashDefinition sha256 lock.definition true = .ok config) {value : J}
    (hvalue : json.serializeLock lock = .ok value) :
    (∃ lock', json.deserializeLock value = .ok lock' ∧ lock.SameHashes sha256 lock') ↔
      lock.definition.numValidators.toNat ≤ sszMaxValidators := by
  obtain ⟨v, hversion⟩ : ∃ v, Version.ofStr lock.definition.version = some v := by
    obtain ⟨v, hv, -⟩ := bind_ok_iff.mp hvalue
    exact ⟨v, okOr_ok_iff.mp hv⟩
  rw [deserialize_serializeLock hversion hlen hvalue]
  constructor
  · rintro ⟨lock', hread, -⟩
    by_contra hmany
    rcases Nat.lt_or_ge v.number 5 with hv | hv
    · rw [Lock.readBack, if_pos ⟨hv, not_le.mp hmany⟩] at hread
      cases hread
    · exact hmany (hlen ▸ length_validatorAddresses_le hv hversion hconfig)
  · intro hfew
    refine ⟨lock.kept v, ?_, sameHashes_kept sha256 hversion⟩
    exact if_neg fun h => not_lt.mpr hfew h.2

/-! ### A lock of too many validators -/

/-- JSON as the structs themselves. -/
inductive Document
  | definitionV1x0or1 (d : DefinitionV1x0or1)
  | definitionV1x2or3 (d : DefinitionV1x2or3)
  | definitionV1x4 (d : DefinitionV1x4)
  | definitionV1x5to7 (d : DefinitionV1x5to7)
  | definitionV1x8 (d : DefinitionV1x8)
  | definitionV1x9 (d : DefinitionV1x9)
  | definitionV1x10 (d : DefinitionV1x10)
  | lockV1x0or1 (lock : LockV1x0or1 Document)
  | lockV1x2to5 (lock : LockV1x2to5 Document)
  | lockV1x6 (lock : LockV1x6 Document)
  | lockV1x7 (lock : LockV1x7 Document)
  | lockV1x8orLater (lock : LockV1x8orLater Document)

def Document.version : Document → Option String
  | definitionV1x0or1 d => some d.version
  | definitionV1x2or3 d => some d.version
  | definitionV1x4 d => some d.version
  | definitionV1x5to7 d => some d.version
  | definitionV1x8 d => some d.version
  | definitionV1x9 d => some d.version
  | definitionV1x10 d => some d.version
  | _ => none

def Document.clusterDefinition : Document → Option Document
  | lockV1x0or1 lock => some lock.definition
  | lockV1x2to5 lock => some lock.definition
  | lockV1x6 lock => some lock.definition
  | lockV1x7 lock => some lock.definition
  | lockV1x8orLater lock => some lock.definition
  | _ => none

def documents : Json Document where
  version := Document.version
  clusterDefinition := Document.clusterDefinition
  definitionV1x0or1 := ⟨.definitionV1x0or1, fun | .definitionV1x0or1 d => some d | _ => none,
    fun _ => rfl, fun _ => rfl⟩
  definitionV1x2or3 := ⟨.definitionV1x2or3, fun | .definitionV1x2or3 d => some d | _ => none,
    fun _ => rfl, fun _ => rfl⟩
  definitionV1x4 := ⟨.definitionV1x4, fun | .definitionV1x4 d => some d | _ => none,
    fun _ => rfl, fun _ => rfl⟩
  definitionV1x5to7 := ⟨.definitionV1x5to7, fun | .definitionV1x5to7 d => some d | _ => none,
    fun _ => rfl, fun _ => rfl⟩
  definitionV1x8 := ⟨.definitionV1x8, fun | .definitionV1x8 d => some d | _ => none,
    fun _ => rfl, fun _ => rfl⟩
  definitionV1x9 := ⟨.definitionV1x9, fun | .definitionV1x9 d => some d | _ => none,
    fun _ => rfl, fun _ => rfl⟩
  definitionV1x10 := ⟨.definitionV1x10, fun | .definitionV1x10 d => some d | _ => none,
    fun _ => rfl, fun _ => rfl⟩
  lockV1x0or1 := ⟨.lockV1x0or1, fun | .lockV1x0or1 lock => some lock | _ => none,
    fun _ => rfl, fun _ => rfl⟩
  lockV1x2to5 := ⟨.lockV1x2to5, fun | .lockV1x2to5 lock => some lock | _ => none,
    fun _ => rfl, fun _ => rfl⟩
  lockV1x6 := ⟨.lockV1x6, fun | .lockV1x6 lock => some lock | _ => none,
    fun _ => rfl, fun _ => rfl⟩
  lockV1x7 := ⟨.lockV1x7, fun | .lockV1x7 lock => some lock | _ => none,
    fun _ => rfl, fun _ => rfl⟩
  lockV1x8orLater := ⟨.lockV1x8orLater, fun | .lockV1x8orLater lock => some lock | _ => none,
    fun _ => rfl, fun _ => rfl⟩

def legacyAddresses : ValidatorAddresses :=
  ⟨"0x00000000000000000000000000000000000000fe", "0x00000000000000000000000000000000000000da"⟩

/-- A lock of version 1.0 whose validators all have one pair of addresses. -/
def legacyLock (numValidators : UInt64) (count : ℕ) : Lock where
  definition :=
    { uuid := "", name := "", version := Version.v1_0.asStr, timestamp := "", numValidators,
      threshold := 1, dkgAlgorithm := "default", forkVersion := [0, 0, 0, 0], operators := [],
      creator := default, validatorAddresses := List.replicate count legacyAddresses,
      depositAmounts := [], consensusProtocol := "", targetGasLimit := 0, compounding := false,
      configHash := [], definitionHash := [] }
  distributedValidators := []
  lockHash := []
  signatureAggregate := []
  nodeSignatures := []

section LegacyLock

variable (numValidators : UInt64) (count : ℕ)

lemma legacyValidatorAddresses_legacyLock :
    (legacyLock numValidators (count + 1)).definition.legacyValidatorAddresses =
      some legacyAddresses := by
  simp [legacyLock, Definition.legacyValidatorAddresses, List.replicate_succ]

lemma hashDefinitionLegacy_legacyLock (sha256 : Bytes → HashRoot) (buf : Bytes)
    (configOnly : Bool) :
    hashDefinitionLegacy sha256 (legacyLock numValidators (count + 1)).definition buf configOnly =
      hashDefinitionLegacy sha256 (legacyLock numValidators 1).definition buf configOnly := by
  unfold hashDefinitionLegacy
  rw [legacyValidatorAddresses_legacyLock numValidators count,
    legacyValidatorAddresses_legacyLock numValidators 0]
  rfl

/-- Hashing does not count the addresses. -/
lemma hashDefinition_legacyLock (sha256 : Bytes → HashRoot) (configOnly : Bool) :
    hashDefinition sha256 (legacyLock numValidators (count + 1)).definition configOnly =
      hashDefinition sha256 (legacyLock numValidators 1).definition configOnly := by
  change (hashDefinitionLegacy sha256 _ [] configOnly >>= _) =
    (hashDefinitionLegacy sha256 _ [] configOnly >>= _)
  rw [hashDefinitionLegacy_legacyLock]

lemma hashLock_legacyLock (sha256 : Bytes → HashRoot) :
    hashLock sha256 (legacyLock numValidators (count + 1)) =
      hashLock sha256 (legacyLock numValidators 1) := by
  change (hashLockLegacy sha256 _ [] >>= _) = (hashLockLegacy sha256 _ [] >>= _)
  simp only [hashLockLegacy, hashDefinitionLegacy_legacyLock]
  rfl

lemma exists_serializeLock_legacyLock :
    ∃ value, documents.serializeLock (legacyLock numValidators (count + 1)) = .ok value := by
  have hversion : Version.ofStr (legacyLock numValidators (count + 1)).definition.version =
      some .v1_0 := rfl
  simp only [Json.serializeLock, Json.serializeDefinition, hversion, DefinitionV1x0or1.tryFrom,
    legacyValidatorAddresses_legacyLock]
  exact ⟨_, rfl⟩

end LegacyLock

theorem roundTrip_iff_legacy :
    ∃ config value,
      hashDefinition polynomialHash (legacyLock 2 2).definition true = .ok config ∧
      documents.serializeLock (legacyLock 2 2) = .ok value ∧
      ((∃ lock', documents.deserializeLock value = .ok lock' ∧
        (legacyLock 2 2).SameHashes polynomialHash lock') ↔
          (legacyLock 2 2).definition.numValidators.toNat ≤ sszMaxValidators) := by
  obtain ⟨config, hconfig⟩ := exists_ok_of_isSome
    (x := hashDefinition polynomialHash (legacyLock 2 2).definition true) (by decide +kernel)
  obtain ⟨value, hvalue⟩ := exists_serializeLock_legacyLock 2 1
  exact ⟨config, value, hconfig, hvalue, roundTrip_iff documents polynomialHash rfl hconfig hvalue⟩

/-- A lock with one validator too many, with hashes and JSON that cannot be read. -/
theorem too_many_legacy_validators :
    ∃ config definition hash value,
      (legacyLock 65537 65537).definition.validatorAddresses.length =
        (legacyLock 65537 65537).definition.numValidators.toNat ∧
      hashDefinition polynomialHash (legacyLock 65537 65537).definition true = .ok config ∧
      hashDefinition polynomialHash (legacyLock 65537 65537).definition false = .ok definition ∧
      hashLock polynomialHash (legacyLock 65537 65537) = .ok hash ∧
      documents.serializeLock (legacyLock 65537 65537) = .ok value ∧
      documents.deserializeLock value =
        .error (.conversionError (.numValidatorsTooLarge 65537 65536)) := by
  obtain ⟨config, hconfig⟩ := exists_ok_of_isSome
    (x := hashDefinition polynomialHash (legacyLock 65537 1).definition true) (by decide +kernel)
  obtain ⟨definition, hdefinition⟩ := exists_ok_of_isSome
    (x := hashDefinition polynomialHash (legacyLock 65537 1).definition false) (by decide +kernel)
  obtain ⟨hash, hhash⟩ := exists_ok_of_isSome
    (x := hashLock polynomialHash (legacyLock 65537 1)) (by decide +kernel)
  obtain ⟨value, hvalue⟩ := exists_serializeLock_legacyLock 65537 65536
  have hlen : (legacyLock 65537 65537).definition.validatorAddresses.length =
      (legacyLock 65537 65537).definition.numValidators.toNat := List.length_replicate
  refine ⟨config, definition, hash, value, hlen, ?_, ?_, ?_, hvalue, ?_⟩
  · exact (hashDefinition_legacyLock 65537 65536 _ _).trans hconfig
  · exact (hashDefinition_legacyLock 65537 65536 _ _).trans hdefinition
  · exact (hashLock_legacyLock 65537 65536 _).trans hhash
  · rw [deserialize_serializeLock (v := .v1_0) rfl hlen hvalue]
    exact if_pos (by decide)

end Pluto.Cluster
