import Pluto.Cluster.Ssz

/-!
# What the hashes commit to

From version 1.5 on the hashes of definitions and locks are hash trees in which every field stands
at a place of its own.  `definitionTree` and `lockTree` are these trees; that the code hashes them
is shown by following it with the rules of `Appends`.  Two locks then have one hash exactly if their
trees are equal, as long as the pair hash is injective on the pairs that are hashed for them.
-/

namespace Pluto.Cluster

open Ssz Wire

/-! ## Trees -/

section Trees

variable (v : Version) (configOnly : Bool)

def operatorTree (o : Operator) : Tree :=
  .container ([Tree.bytes (hexBytes o.address addressLen)] ++
    if configOnly then []
    else [Tree.byteList (utf8 o.enr) sszMaxEnr, Tree.bytes (leftPad o.configSignature sszLenK1Sig),
      Tree.bytes (leftPad o.enrSignature sszLenK1Sig)])

def operatorsTree (operators : List Operator) : Tree :=
  .list sszMaxOperators operators.length (operators.map (operatorTree configOnly))

def creatorTree (creator : Creator) : Tree :=
  .container ([Tree.bytes (hexBytes creator.address addressLen)] ++
    if configOnly then [] else [Tree.bytes (leftPad creator.configSignature sszLenK1Sig)])

def addressesTree (a : ValidatorAddresses) : Tree :=
  .container [Tree.bytes (hexBytes a.feeRecipientAddress addressLen),
    Tree.bytes (hexBytes a.withdrawalAddress addressLen)]

def validatorAddressesTree (addresses : List ValidatorAddresses) : Tree :=
  .list sszMaxValidators addresses.length (addresses.map addressesTree)

/-- The fields that were added after version 1.7. -/
def extraTrees (d : Definition) : List Tree :=
  match v with
  | .v1_8 => [Tree.uint64List d.depositAmounts sszMaxDepositAmounts]
  | .v1_9 =>
    [Tree.uint64List d.depositAmounts sszMaxDepositAmounts,
      Tree.byteList (utf8 d.consensusProtocol) sszMaxName]
  | .v1_10 =>
    [Tree.uint64List d.depositAmounts sszMaxDepositAmounts,
      Tree.byteList (utf8 d.consensusProtocol) sszMaxName, Tree.uint64 d.targetGasLimit,
      Tree.bool d.compounding]
  | _ => []

def definitionTree (d : Definition) : Tree :=
  .container ([Tree.byteList (utf8 d.uuid) sszMaxUuid, Tree.byteList (utf8 d.name) sszMaxName,
    Tree.byteList (utf8 d.version) sszMaxVersion, Tree.byteList (utf8 d.timestamp) sszMaxTimestamp,
    Tree.uint64 d.numValidators, Tree.uint64 d.threshold,
    Tree.byteList (utf8 d.dkgAlgorithm) sszMaxDkgAlgorithm,
    Tree.bytes (leftPad d.forkVersion sszLenForkVersion), operatorsTree configOnly d.operators,
    creatorTree configOnly d.creator, validatorAddressesTree d.validatorAddresses] ++
    (extraTrees v d ++
      if configOnly then [] else [Tree.bytes (leftPad d.configHash sszLenHash)]))

def depositFields (dd : DepositData) : List Tree :=
  [Tree.bytes (leftPad dd.pubKey.bytes sszLenPubKey),
    Tree.bytes (leftPad dd.withdrawalCredentials.bytes sszLenWithdrawCreds), Tree.uint64 dd.amount,
    Tree.bytes (leftPad dd.signature.bytes sszLenBlsSig)]

/-- Version 1.5 has no deposit data, version 1.6 puts its fields among those of the validator. -/
def depositTrees (dd : DepositData) : List Tree :=
  match v with
  | .v1_6 => depositFields dd
  | .v1_7 | .v1_8 | .v1_9 | .v1_10 => [.container (depositFields dd)]
  | _ => []

def registrationTree (registration : Registration) : Tree :=
  .container [Tree.bytes registration.feeRecipient.bytes, Tree.uint64 registration.gasLimit,
    Tree.uint64 (.ofNat registration.timestamp.timestamp.toNat),
    Tree.bytes (leftPad registration.pubKey.bytes sszLenPubKey)]

def registrationTrees (reg : BuilderRegistration) : List Tree :=
  match v with
  | .v1_7 | .v1_8 | .v1_9 | .v1_10 =>
    [.container [registrationTree reg.message,
      Tree.bytes (leftPad reg.signature.bytes sszLenBlsSig)]]
  | _ => []

def pubSharesTree (pubShares : List Bytes) : Tree :=
  .list sszMaxOperators pubShares.length
    (pubShares.map fun b => Tree.bytes (leftPad b sszLenPubKey))

/-- Before version 1.8 a lock holds one deposit of a validator. -/
def validatorDepositTrees (dds : List DepositData) : List Tree :=
  match v with
  | .v1_8 | .v1_9 | .v1_10 =>
    [.list sszMaxDepositAmounts dds.length (dds.map fun dd => .container (depositTrees v dd))]
  | _ => depositTrees v (dds.headD default)

def validatorTree (validator : DistValidator) : Tree :=
  .container (
    [Tree.bytes (leftPad validator.pubKey sszLenPubKey), pubSharesTree validator.pubShares] ++
    (validatorDepositTrees v validator.partialDepositData ++
      registrationTrees v validator.builderRegistration))

def lockTree (lock : Lock) : Tree :=
  .container [definitionTree v false lock.definition,
    .list sszMaxValidators lock.distributedValidators.length
      (lock.distributedValidators.map (validatorTree v))]

end Trees

/-! ## What the code checks

Byte strings may not be longer than their fields, and the time of a registration may not be before
1970. -/

def Operator.Checked (configOnly : Bool) (o : Operator) : Prop :=
  configOnly = false →
    o.configSignature.length ≤ sszLenK1Sig ∧ o.enrSignature.length ≤ sszLenK1Sig

def Creator.Checked (configOnly : Bool) (creator : Creator) : Prop :=
  configOnly = false → creator.configSignature.length ≤ sszLenK1Sig

structure Definition.Checked (configOnly : Bool) (d : Definition) : Prop where
  forkVersion : d.forkVersion.length ≤ sszLenForkVersion
  operators : ∀ o ∈ d.operators, o.Checked configOnly
  creator : d.creator.Checked configOnly
  configHash : configOnly = false → d.configHash.length ≤ sszLenHash

def BuilderRegistration.Checked (v : Version) (reg : BuilderRegistration) : Prop :=
  7 ≤ v.number → 0 ≤ reg.message.timestamp.timestamp

structure DistValidator.Checked (v : Version) (validator : DistValidator) : Prop where
  pubKey : validator.pubKey.length ≤ sszLenPubKey
  pubShares : ∀ b ∈ validator.pubShares, b.length ≤ sszLenPubKey
  builderRegistration : validator.builderRegistration.Checked v

structure Lock.Checked (v : Version) (lock : Lock) : Prop where
  definition : lock.definition.Checked false
  distributedValidators : ∀ validator ∈ lock.distributedValidators, validator.Checked v

/-! ## The code hashes the trees -/

section Appends

variable {sha256 : Bytes → HashRoot} {body : Bytes → Except SszError Bytes} {P : Prop}
  {ts : List Tree}

lemma appends_merkleized (h : Appends sha256 body P ts) (hlen : ts.length ≤ 2 ^ 32) :
    Appends sha256 (merkleized sha256 body) P [.container ts] :=
  h.container hlen _

/-- A list with one tree for each element. -/
lemma appends_merkleizedWithMixin {α : Type} {step : Bytes → α → Except SszError Bytes}
    {P : α → Prop} {tree : α → Tree}
    (hstep : ∀ a, Appends sha256 (fun buf => step buf a) (P a) [tree a]) (l : List α)
    {limit : ℕ} (hpos : 0 < limit) (hlimit : limit ≤ 2 ^ 32) :
    Appends sha256 (merkleizedWithMixin sha256 l.length limit fun buf => l.foldlM step buf)
      (∀ a ∈ l, P a) [.list limit l.length (l.map tree)] := by
  have h := Appends.foldlM hstep l
  rw [← List.map_eq_flatMap] at h
  refine h.list hpos hlimit (fun hle => ?_) _
  rw [List.length_map] at hle
  omega

lemma appends_hex (hex : String) :
    Appends sha256 (fun buf => (putHexBytesN sha256 buf hex addressLen).mapError SszError.ofSsz)
      True [Tree.bytes (hexBytes hex addressLen)] :=
  (appends_putHexBytesN (by decide) (by decide)).mapError _

lemma appends_bytesN (b : Bytes) {n : ℕ} (hpos : 0 < n) (hlen : n ≤ 2 ^ 32) :
    Appends sha256 (fun buf => (putBytesN sha256 buf b n).mapError SszError.ofSsz)
      (b.length ≤ n) [Tree.bytes (leftPad b n)] :=
  (appends_putBytesN hpos hlen).mapError _

lemma appends_byteList (b : Bytes) (field : String) {limit : ℕ} (hpos : 0 < limit)
    (hlimit : limit ≤ 2 ^ 32) :
    Appends sha256 (fun buf => (putByteList sha256 buf b limit field).mapError SszError.ofSsz)
      True [Tree.byteList b limit] :=
  (appends_putByteList hpos hlimit field).mapError _

lemma appends_uint64 (i : UInt64) :
    Appends sha256 (fun buf => (putUint64 buf i).mapError SszError.hashWalkerError)
      True [Tree.uint64 i] :=
  (appends_putUint64 i).mapError _

variable (configOnly : Bool)

lemma appends_putOperator (o : Operator) :
    Appends sha256 (fun buf => putOperator sha256 configOnly buf o) (o.Checked configOnly)
      [operatorTree configOnly o] := by
  have henr : Appends sha256 (putOperatorSignatures sha256 o) _ _ :=
    (appends_byteList _ _ (by decide) (by decide)).bind
      ((appends_bytesN _ (by decide) (by decide)).bind
        (appends_bytesN _ (by decide) (by decide)))
  cases configOnly with
  | true =>
    exact (appends_merkleized ((appends_hex _).bind Appends.nothing) (by simp)).imp fun _ => nofun
  | false =>
    exact (appends_merkleized ((appends_hex _).bind henr) (by simp)).imp fun h _ => h.2.2

lemma appends_putCreator (creator : Creator) :
    Appends sha256 (putCreator sha256 configOnly creator) (creator.Checked configOnly)
      [creatorTree configOnly creator] := by
  cases configOnly with
  | true =>
    exact (appends_merkleized ((appends_hex _).bind Appends.nothing) (by simp)).imp fun _ => nofun
  | false =>
    exact (appends_merkleized ((appends_hex _).bind (appends_bytesN _ (by decide) (by decide)))
      (by simp)).imp fun h _ => h.2

lemma appends_putValidatorAddress (a : ValidatorAddresses) :
    Appends sha256 (fun buf => putValidatorAddress sha256 buf a) True [addressesTree a] :=
  (appends_merkleized ((appends_hex _).bind (appends_hex _)) (by simp)).imp fun _ => trivial

variable {v : Version}

/-- The definition without its extra fields, and then with them. -/
lemma appends_hashDefinitionV1x5to9 (d : Definition) {extra : List Extra}
    (hextra : Appends sha256 (fun buf => extra.foldlM (fun buf f => f d buf) buf) P
      (extraTrees v d)) :
    Appends sha256 (fun buf => hashDefinitionV1x5to9 sha256 d buf configOnly extra)
      (d.Checked configOnly) [definitionTree v configOnly d] := by
  have hlast : Appends sha256
      (fun buf => if configOnly then pure buf
        else (putBytesN sha256 buf d.configHash sszLenHash).mapError SszError.ofSsz)
      (configOnly = false → d.configHash.length ≤ sszLenHash)
      (if configOnly then [] else [Tree.bytes (leftPad d.configHash sszLenHash)]) := by
    cases configOnly with
    | true => exact Appends.nothing.imp fun _ => nofun
    | false => exact (appends_bytesN _ (by decide) (by decide)).imp fun h _ => h
  have hlen : (extraTrees v d ++
      if configOnly then [] else [Tree.bytes (leftPad d.configHash sszLenHash)]).length ≤ 5 := by
    have hextras : (extraTrees v d).length ≤ 4 := by cases v <;> simp [extraTrees]
    rw [List.length_append]
    split_ifs <;> simp <;> omega
  refine (appends_merkleized ((appends_byteList _ _ (by decide) (by decide)).bind
    ((appends_byteList _ _ (by decide) (by decide)).bind
    ((appends_byteList _ _ (by decide) (by decide)).bind
    ((appends_byteList _ _ (by decide) (by decide)).bind
    ((appends_uint64 _).bind
    ((appends_uint64 _).bind
    ((appends_byteList _ _ (by decide) (by decide)).bind
    ((appends_bytesN _ (by decide) (by decide)).bind
    ((appends_merkleizedWithMixin (appends_putOperator configOnly) _ (by decide) (by decide)).bind
    ((appends_putCreator configOnly _).bind
    ((appends_merkleizedWithMixin appends_putValidatorAddress _ (by decide) (by decide)).bind
      (hextra.bind hlast))))))))))))
    (by simp only [List.length_append, List.length_singleton] at hlen ⊢; omega)).imp ?_
  rintro ⟨-, -, -, -, -, -, -, hfork, hoperators, hcreator, -, -, hconfig⟩
  exact ⟨hfork, hoperators, hcreator, hconfig⟩

lemma appends_depositAmounts (d : Definition) {extra : List Extra}
    (hextra : Appends sha256 (fun buf => extra.foldlM (fun buf f => f d buf) buf) P ts) :
    Appends sha256
      (fun buf => [extraFuncDepositAmounts sha256 extra].foldlM (fun buf f => f d buf) buf)
      ((True ∧ P) ∧ True) (Tree.uint64List d.depositAmounts sszMaxDepositAmounts :: ts) := by
  have hamounts : Appends sha256
      (fun buf => (putUint64Array sha256 buf d.depositAmounts
        (some sszMaxDepositAmounts)).mapError SszError.hashWalkerError) _ _ :=
    (appends_putUint64Array (by decide) (by decide)).mapError _
  have h := (hamounts.bind hextra).bind Appends.nothing
  rwa [List.append_nil] at h

/-- The function for a version hashes the tree for the version. -/
lemma appends_hashDefinition (d : Definition) (hv : 5 ≤ v.number)
    (hversion : Version.ofStr d.version = some v)
    {hashFunc : Definition → Bytes → Bool → Except SszError Bytes}
    (hfunc : getDefinitionHashFunc sha256 d.version = .ok hashFunc) :
    Appends sha256 (fun buf => hashFunc d buf configOnly) (d.Checked configOnly)
      [definitionTree v configOnly d] := by
  have hnone : Appends sha256 (fun buf => [emptyExtraFunc].foldlM (fun buf f => f d buf) buf) _ [] :=
    Appends.nothing
  have hprotocol : Appends sha256
      (fun buf => [extraFuncConsensusProtocol sha256].foldlM (fun buf f => f d buf) buf)
      _ [Tree.byteList (utf8 d.consensusProtocol) sszMaxName] :=
    (appends_byteList _ _ (by decide) (by decide)).bind Appends.nothing
  have hgas : Appends sha256 (fun buf => [extraFuncConsensusProtocol sha256,
        extraFuncTargetGasLimitAndCompounding].foldlM (fun buf f => f d buf) buf)
      _ [Tree.byteList (utf8 d.consensusProtocol) sszMaxName, Tree.uint64 d.targetGasLimit,
        Tree.bool d.compounding] :=
    (appends_byteList _ _ (by decide) (by decide)).bind
      (((appends_uint64 _).bind ((appends_putBool _).mapError _)).bind Appends.nothing)
  rw [getDefinitionHashFunc, hversion] at hfunc
  cases v with
  | v1_5 | v1_6 | v1_7 =>
    obtain rfl := Except.ok.inj hfunc
    exact appends_hashDefinitionV1x5to9 configOnly d hnone
  | v1_8 =>
    obtain rfl := Except.ok.inj hfunc
    exact appends_hashDefinitionV1x5to9 configOnly d (appends_depositAmounts d hnone)
  | v1_9 =>
    obtain rfl := Except.ok.inj hfunc
    exact appends_hashDefinitionV1x5to9 configOnly d (appends_depositAmounts d hprotocol)
  | v1_10 =>
    obtain rfl := Except.ok.inj hfunc
    exact appends_hashDefinitionV1x5to9 configOnly d (appends_depositAmounts d hgas)
  | _ => exact absurd hv (by decide)

/-! ### Validators and locks -/

lemma appends_depositFields (dd : DepositData) :
    Appends sha256 (hashDepositDataV1x6 sha256 dd) True (depositFields dd) :=
  ((appends_bytesN _ (by decide) (by decide)).bind
    ((appends_bytesN _ (by decide) (by decide)).bind
    ((appends_uint64 _).bind (appends_bytesN _ (by decide) (by decide))))).imp fun _ => trivial

lemma appends_hashDepositData {version : String} (hv : 5 ≤ v.number)
    (hversion : Version.ofStr version = some v)
    {hashFunc : DepositData → Bytes → Except SszError Bytes}
    (hfunc : getDepositDataHashFunc sha256 version = .ok hashFunc) (dd : DepositData) :
    Appends sha256 (hashFunc dd) True (depositTrees v dd) := by
  have hlater : Appends sha256 (hashDepositDataV1x7OrLater sha256 dd)
      True [.container (depositFields dd)] :=
    appends_merkleized (appends_depositFields dd) (by simp [depositFields])
  rw [getDepositDataHashFunc, hversion] at hfunc
  cases v with
  | v1_5 =>
    obtain rfl := Except.ok.inj hfunc
    exact Appends.nothing
  | v1_6 =>
    obtain rfl := Except.ok.inj hfunc
    exact appends_depositFields dd
  | v1_7 | v1_8 | v1_9 | v1_10 =>
    obtain rfl := Except.ok.inj hfunc
    exact hlater
  | _ => exact absurd hv (by decide)

lemma appends_putTimestamp (time : DateTime) :
    Appends sha256 (putTimestamp time) (0 ≤ time.timestamp)
      [Tree.uint64 (.ofNat time.timestamp.toNat)] := by
  intro cs buf h
  unfold putTimestamp at h
  split_ifs at h with hneg
  exact ⟨by omega, (appends_uint64 _ cs buf h).2⟩

lemma appends_hashBuilderRegistration (reg : BuilderRegistration) :
    Appends sha256 (hashBuilderRegistration sha256 reg) (0 ≤ reg.message.timestamp.timestamp)
      [.container [registrationTree reg.message,
        Tree.bytes (leftPad reg.signature.bytes sszLenBlsSig)]] := by
  have hfee : Appends sha256
      (fun buf => (putBytes sha256 buf reg.message.feeRecipient.bytes).mapError
        SszError.hashWalkerError) True [Tree.bytes reg.message.feeRecipient.bytes] := by
    have hlen := reg.message.feeRecipient.length_eq
    exact (appends_putBytes (List.length_pos_iff.mp (by omega)) (by omega)).mapError _
  have hmessage : Appends sha256 (hashRegistration sha256 reg.message) _ _ :=
    appends_merkleized (hfee.bind ((appends_uint64 _).bind ((appends_putTimestamp _).bind
      (appends_bytesN _ (by decide) (by decide))))) (by simp)
  exact (appends_merkleized (hmessage.bind (appends_bytesN _ (by decide) (by decide)))
    (by simp)).imp fun h => h.1.2.2.1

lemma appends_hashRegistrations {version : String} (hv : 5 ≤ v.number)
    (hversion : Version.ofStr version = some v)
    {hashFunc : BuilderRegistration → Bytes → Except SszError Bytes}
    (hfunc : getRegistrationHashFunc sha256 version = .ok hashFunc) (reg : BuilderRegistration) :
    Appends sha256 (hashFunc reg) (reg.Checked v) (registrationTrees v reg) := by
  rw [getRegistrationHashFunc, hversion] at hfunc
  cases v with
  | v1_5 | v1_6 =>
    obtain rfl := Except.ok.inj hfunc
    exact Appends.nothing.imp fun _ hle => absurd hle (by decide)
  | v1_7 | v1_8 | v1_9 | v1_10 =>
    obtain rfl := Except.ok.inj hfunc
    exact (appends_hashBuilderRegistration reg).imp fun h _ => h
  | _ => exact absurd hv (by decide)

lemma appends_pubShares (validator : DistValidator) :
    Appends sha256 (hashValidatorPubsharesField sha256 validator)
      (∀ b ∈ validator.pubShares, b.length ≤ sszLenPubKey) [pubSharesTree validator.pubShares] :=
  appends_merkleizedWithMixin (fun _ => appends_bytesN _ (by decide) (by decide))
    validator.pubShares (by decide) (by decide)

/-- The number of fields of a validator. -/
lemma length_validatorFields (v : Version) (validator : DistValidator) :
    ([Tree.bytes (leftPad validator.pubKey sszLenPubKey), pubSharesTree validator.pubShares] ++
      (validatorDepositTrees v validator.partialDepositData ++
        registrationTrees v validator.builderRegistration)).length ≤ 2 ^ 32 := by
  cases v <;> simp [validatorDepositTrees, depositTrees, depositFields, registrationTrees]

lemma appends_hashValidator {version : String} (hv : 5 ≤ v.number)
    (hversion : Version.ofStr version = some v)
    {hashFunc : DistValidator → Bytes → String → Except SszError Bytes}
    (hfunc : getValidatorHashFunc sha256 version = .ok hashFunc) (validator : DistValidator) :
    Appends sha256 (fun buf => hashFunc validator buf version) (validator.Checked v)
      [validatorTree v validator] := by
  have hkey : Appends sha256
      (fun buf => (putBytesN sha256 buf validator.pubKey sszLenPubKey).mapError SszError.ofSsz)
      _ _ :=
    appends_bytesN _ (by decide) (by decide)
  have hdeposit : ∀ {f}, getDepositDataHashFunc sha256 version = .ok f →
      ∀ dd, Appends sha256 (f dd) True (depositTrees v dd) :=
    fun hf => appends_hashDepositData hv hversion hf
  have hreg : ∀ {f}, getRegistrationHashFunc sha256 version = .ok f →
      ∀ reg, Appends sha256 (f reg) (reg.Checked v) (registrationTrees v reg) :=
    fun hf => appends_hashRegistrations hv hversion hf
  have hlen := length_validatorFields v validator
  -- one deposit stands among the fields of the validator
  have hone : validatorDepositTrees v validator.partialDepositData =
        depositTrees v (validator.partialDepositData.headD default) →
      Appends sha256 (fun buf => hashValidatorV1x5to7 sha256 validator buf version)
        (validator.Checked v) [validatorTree v validator] := by
    intro hsingle
    rw [hsingle] at hlen
    rw [validatorTree, hsingle]
    exact (appends_merkleized (hkey.bind ((appends_pubShares validator).bind
      (Appends.after fun f hf => (hdeposit hf _).bind
        (Appends.after fun g hg => hreg hg _)))) hlen).imp fun h => ⟨h.1, h.2.1, h.2.2.2⟩
  -- several deposits are a list
  have hmany : validatorDepositTrees v validator.partialDepositData =
        [.list sszMaxDepositAmounts validator.partialDepositData.length
          (validator.partialDepositData.map fun dd => .container (depositTrees v dd))] →
      Appends sha256 (fun buf => hashValidatorV1x8OrLater sha256 validator buf version)
        (validator.Checked v) [validatorTree v validator] := by
    intro hlist
    rw [hlist] at hlen
    rw [validatorTree, hlist]
    have hfields : ∀ dd, (depositTrees v dd).length ≤ 2 ^ 32 := by
      intro dd
      cases v <;> simp [depositTrees, depositFields]
    exact (appends_merkleized (hkey.bind ((appends_pubShares validator).bind
      (Appends.after fun f hf => Appends.after fun g hg =>
        (appends_merkleizedWithMixin (fun dd => appends_merkleized (hdeposit hf dd) (hfields dd))
          _ (by decide) (by decide)).bind (hreg hg _)))) hlen).imp fun h => ⟨h.1, h.2.1, h.2.2.2⟩
  rw [getValidatorHashFunc, hversion] at hfunc
  cases v with
  | v1_5 | v1_6 | v1_7 =>
    obtain rfl := Except.ok.inj hfunc
    exact hone rfl
  | v1_8 | v1_9 | v1_10 =>
    obtain rfl := Except.ok.inj hfunc
    exact hmany rfl
  | _ => exact absurd hv (by decide)

/-! ### The hashes -/

/-- Code that appends one tree to an empty buffer leaves its root. -/
lemma Appends.hashRoot_ok {t : Tree} (happ : Appends sha256 body P [t]) {buf : Bytes} {h : HashRoot}
    (hbuf : body [] = .ok buf)
    (hroot : (hashRoot buf).mapError SszError.hashWalkerError = .ok h) :
    P ∧ HashTree.Fits (scheme sha256) t ∧ h = HashTree.root (scheme sha256) t := by
  obtain ⟨hp, hfit, rfl⟩ := happ [] buf hbuf
  refine ⟨hp, hfit.1, ?_⟩
  rw [Except.mapError_ok_iff, List.nil_append, HashTree.roots, HashTree.roots, flat_cons, flat_nil,
    List.append_nil, hashRoot_bytes] at hroot
  exact (Except.ok.inj hroot).symm

/-- **The definition hash is the root of the tree of the definition.** -/
theorem hashDefinition_eq_root {d : Definition} (hv : 5 ≤ v.number)
    (hversion : Version.ofStr d.version = some v) {h : HashRoot}
    (hhash : hashDefinition sha256 d configOnly = .ok h) :
    d.Checked configOnly ∧ HashTree.Fits (scheme sha256) (definitionTree v configOnly d) ∧
      h = HashTree.root (scheme sha256) (definitionTree v configOnly d) := by
  obtain ⟨hashFunc, hfunc, hrest⟩ := Except.bind_ok_iff.mp hhash
  obtain ⟨buf, hbuf, hroot⟩ := Except.bind_ok_iff.mp hrest
  exact Appends.hashRoot_ok (appends_hashDefinition configOnly d hv hversion hfunc) hbuf hroot

/-- **The lock hash is the root of the tree of the lock.** -/
theorem hashLock_eq_root {lock : Lock} (hv : 5 ≤ v.number)
    (hversion : Version.ofStr lock.definition.version = some v) {h : HashRoot}
    (hhash : hashLock sha256 lock = .ok h) :
    lock.Checked v ∧ HashTree.Fits (scheme sha256) (lockTree v lock) ∧
      h = HashTree.root (scheme sha256) (lockTree v lock) := by
  obtain ⟨hashFunc, hfunc, hrest⟩ := Except.bind_ok_iff.mp hhash
  obtain ⟨buf, hbuf, hroot⟩ := Except.bind_ok_iff.mp hrest
  obtain rfl : hashLockV1x3OrLater sha256 = hashFunc := by
    rw [getLockHashFunc, hversion] at hfunc
    cases v with
    | v1_0 | v1_1 | v1_2 => exact absurd hv (by decide)
    | _ => exact Except.ok.inj hfunc
  refine Appends.hashRoot_ok ?_ hbuf hroot
  exact Appends.after fun f hf => Appends.after fun g hg =>
    (appends_merkleized ((appends_hashDefinition false _ hv hversion hf).bind
      (appends_merkleizedWithMixin (fun validator => appends_hashValidator hv hversion hg validator)
        _ (by decide) (by decide))) (by simp)).imp fun h => ⟨h.1, h.2⟩

end Appends

end Pluto.Cluster
