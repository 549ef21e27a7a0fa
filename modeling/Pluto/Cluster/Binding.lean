import Pluto.Cluster.Commitment

/-!
# Equal hashes, equal content

Two locks of one version for which hashing succeeds are hashed as trees of one shape.  Their hashes
are equal exactly if their trees are, and the trees are equal exactly if the locks agree on
everything that the version hashes (`Lock.SameContent`).
-/

namespace Pluto.Cluster

open Eth2Api Ssz Wire
open HashTree (SameShape SameShapes)

/-! ## Content

Strings of hexadecimal digits and byte strings of a fixed length are compared as they are hashed:
decoded and with leading zeros. -/

structure Operator.SameContent (configOnly : Bool) (o o' : Operator) : Prop where
  address : hexBytes o.address addressLen = hexBytes o'.address addressLen
  enr : configOnly = false → o.enr = o'.enr
  configSignature : configOnly = false →
    leftPad o.configSignature sszLenK1Sig = leftPad o'.configSignature sszLenK1Sig
  enrSignature : configOnly = false →
    leftPad o.enrSignature sszLenK1Sig = leftPad o'.enrSignature sszLenK1Sig

structure Creator.SameContent (configOnly : Bool) (creator creator' : Creator) : Prop where
  address : hexBytes creator.address addressLen = hexBytes creator'.address addressLen
  configSignature : configOnly = false →
    leftPad creator.configSignature sszLenK1Sig = leftPad creator'.configSignature sszLenK1Sig

structure ValidatorAddresses.SameContent (a a' : ValidatorAddresses) : Prop where
  feeRecipientAddress :
    hexBytes a.feeRecipientAddress addressLen = hexBytes a'.feeRecipientAddress addressLen
  withdrawalAddress :
    hexBytes a.withdrawalAddress addressLen = hexBytes a'.withdrawalAddress addressLen

/-- The fields that the version hashes; `configOnly` leaves out the signatures, the ENRs and the
stored config hash. -/
structure Definition.SameContent (v : Version) (configOnly : Bool) (d d' : Definition) :
    Prop where
  uuid : d.uuid = d'.uuid
  name : d.name = d'.name
  version : d.version = d'.version
  timestamp : d.timestamp = d'.timestamp
  numValidators : d.numValidators = d'.numValidators
  threshold : d.threshold = d'.threshold
  dkgAlgorithm : d.dkgAlgorithm = d'.dkgAlgorithm
  forkVersion : leftPad d.forkVersion sszLenForkVersion = leftPad d'.forkVersion sszLenForkVersion
  operators : List.Forall₂ (Operator.SameContent configOnly) d.operators d'.operators
  creator : d.creator.SameContent configOnly d'.creator
  validatorAddresses :
    List.Forall₂ ValidatorAddresses.SameContent d.validatorAddresses d'.validatorAddresses
  depositAmounts : 8 ≤ v.number → d.depositAmounts = d'.depositAmounts
  consensusProtocol : 9 ≤ v.number → d.consensusProtocol = d'.consensusProtocol
  targetGasLimit : 10 ≤ v.number → d.targetGasLimit = d'.targetGasLimit
  compounding : 10 ≤ v.number → d.compounding = d'.compounding
  configHash : configOnly = false →
    leftPad d.configHash sszLenHash = leftPad d'.configHash sszLenHash

/-- Times are compared in seconds. -/
structure BuilderRegistration.SameContent (reg reg' : BuilderRegistration) : Prop where
  feeRecipient : reg.message.feeRecipient = reg'.message.feeRecipient
  gasLimit : reg.message.gasLimit = reg'.message.gasLimit
  timestamp : reg.message.timestamp.timestamp = reg'.message.timestamp.timestamp
  pubKey : reg.message.pubKey = reg'.message.pubKey
  signature : reg.signature = reg'.signature

/-- There is no deposit data before version 1.6, and before version 1.8 it is the first one; a
validator that has none counts as one with the default value. -/
structure DistValidator.SameContent (v : Version) (w w' : DistValidator) : Prop where
  pubKey : leftPad w.pubKey sszLenPubKey = leftPad w'.pubKey sszLenPubKey
  pubShares : List.Forall₂ (fun b b' => leftPad b sszLenPubKey = leftPad b' sszLenPubKey)
    w.pubShares w'.pubShares
  firstDepositData : 6 ≤ v.number → v.number < 8 →
    w.partialDepositData.headD default = w'.partialDepositData.headD default
  partialDepositData : 8 ≤ v.number → w.partialDepositData = w'.partialDepositData
  builderRegistration : 7 ≤ v.number →
    w.builderRegistration.SameContent w'.builderRegistration

structure Lock.SameContent (v : Version) (lock lock' : Lock) : Prop where
  definition : lock.definition.SameContent v false lock'.definition
  distributedValidators : List.Forall₂ (DistValidator.SameContent v) lock.distributedValidators
    lock'.distributedValidators

/-! ## Definitions -/

section Definitions

variable {configOnly : Bool} {b b' : Bytes} {n : ℕ}

lemma bytesN_sameShape (h : b.length ≤ n) (h' : b'.length ≤ n) :
    SameShape (Tree.bytes (leftPad b n)) (Tree.bytes (leftPad b' n)) :=
  Tree.bytes_sameShape (by rw [length_leftPad h, length_leftPad h'])

lemma bytesN_eq_iff (h : b.length ≤ n) (h' : b'.length ≤ n) :
    Tree.bytes (leftPad b n) = Tree.bytes (leftPad b' n) ↔ leftPad b n = leftPad b' n :=
  ⟨Tree.bytes_inj (by rw [length_leftPad h, length_leftPad h']), congrArg Tree.bytes⟩

/-- Arrays of a fixed length are not padded. -/
lemma fixed_eq_iff (h : b.length = n) (h' : b'.length = n) :
    Tree.bytes (leftPad b n) = Tree.bytes (leftPad b' n) ↔ b = b' := by
  rw [bytesN_eq_iff h.le h'.le, leftPad_of_length h, leftPad_of_length h']

lemma hex_sameShape (hex hex' : String) :
    SameShape (Tree.bytes (hexBytes hex n)) (Tree.bytes (hexBytes hex' n)) :=
  Tree.bytes_sameShape (by rw [length_hexBytes, length_hexBytes])

lemma hex_eq_iff (hex hex' : String) :
    Tree.bytes (hexBytes hex n) = Tree.bytes (hexBytes hex' n) ↔
      hexBytes hex n = hexBytes hex' n :=
  ⟨Tree.bytes_inj (by rw [length_hexBytes, length_hexBytes]), congrArg Tree.bytes⟩

lemma text_eq_iff {s s' : String} {limit : ℕ} :
    Tree.byteList (utf8 s) limit = Tree.byteList (utf8 s') limit ↔ s = s' := by
  refine ⟨fun h => ?_, fun h => by rw [h]⟩
  have hbytes := congrArg string? (Tree.byteList_inj h)
  rw [string?_utf8, string?_utf8] at hbytes
  exact Option.some.inj hbytes

lemma operatorTree_sameShape {o o' : Operator} (h : o.Checked configOnly)
    (h' : o'.Checked configOnly) :
    SameShape (operatorTree configOnly o) (operatorTree configOnly o') := by
  cases configOnly with
  | true => exact ⟨hex_sameShape _ _, trivial⟩
  | false =>
    obtain ⟨hconfig, henr⟩ := h rfl
    obtain ⟨hconfig', henr'⟩ := h' rfl
    exact ⟨hex_sameShape _ _, Tree.byteList_sameShape _ _ _, bytesN_sameShape hconfig hconfig',
      bytesN_sameShape henr henr', trivial⟩

lemma operatorTree_eq_iff {o o' : Operator} (h : o.Checked configOnly)
    (h' : o'.Checked configOnly) :
    operatorTree configOnly o = operatorTree configOnly o' ↔ o.SameContent configOnly o' := by
  rw [operatorTree, operatorTree, HashTree.container.injEq]
  cases configOnly with
  | true =>
    simp only [if_true, List.append_nil, List.cons.injEq, and_true, hex_eq_iff]
    exact ⟨fun hadd => ⟨hadd, nofun, nofun, nofun⟩, fun hsame => hsame.address⟩
  | false =>
    obtain ⟨hconfig, henr⟩ := h rfl
    obtain ⟨hconfig', henr'⟩ := h' rfl
    simp only [Bool.false_eq_true, if_false, List.cons_append, List.nil_append, List.cons.injEq,
      and_true, hex_eq_iff, text_eq_iff, bytesN_eq_iff hconfig hconfig', bytesN_eq_iff henr henr']
    exact ⟨fun ⟨hadd, he, hc, hs⟩ => ⟨hadd, fun _ => he, fun _ => hc, fun _ => hs⟩,
      fun hsame => ⟨hsame.address, hsame.enr rfl, hsame.configSignature rfl,
        hsame.enrSignature rfl⟩⟩

lemma creatorTree_sameShape {creator creator' : Creator} (h : creator.Checked configOnly)
    (h' : creator'.Checked configOnly) :
    SameShape (creatorTree configOnly creator) (creatorTree configOnly creator') := by
  cases configOnly with
  | true => exact ⟨hex_sameShape _ _, trivial⟩
  | false => exact ⟨hex_sameShape _ _, bytesN_sameShape (h rfl) (h' rfl), trivial⟩

lemma creatorTree_eq_iff {creator creator' : Creator} (h : creator.Checked configOnly)
    (h' : creator'.Checked configOnly) :
    creatorTree configOnly creator = creatorTree configOnly creator' ↔
      creator.SameContent configOnly creator' := by
  rw [creatorTree, creatorTree, HashTree.container.injEq]
  cases configOnly with
  | true =>
    simp only [if_true, List.append_nil, List.cons.injEq, and_true, hex_eq_iff]
    exact ⟨fun hadd => ⟨hadd, nofun⟩, fun hsame => hsame.address⟩
  | false =>
    simp only [Bool.false_eq_true, if_false, List.cons_append, List.nil_append, List.cons.injEq,
      and_true, hex_eq_iff, bytesN_eq_iff (h rfl) (h' rfl)]
    exact ⟨fun ⟨hadd, hc⟩ => ⟨hadd, fun _ => hc⟩,
      fun hsame => ⟨hsame.address, hsame.configSignature rfl⟩⟩

lemma addressesTree_eq_iff (a a' : ValidatorAddresses) :
    addressesTree a = addressesTree a' ↔ a.SameContent a' := by
  rw [addressesTree, addressesTree, HashTree.container.injEq]
  simp only [List.cons.injEq, and_true, hex_eq_iff]
  exact ⟨fun ⟨hfee, hwith⟩ => ⟨hfee, hwith⟩,
    fun hsame => ⟨hsame.feeRecipientAddress, hsame.withdrawalAddress⟩⟩

/-- A list and the trees of its elements. -/
lemma listTree_eq_iff {α : Type} {f : α → Tree} {R : α → α → Prop} {as bs : List α}
    (limit : ℕ) (hf : ∀ a ∈ as, ∀ b ∈ bs, (f a = f b ↔ R a b)) :
    (HashTree.list limit as.length (as.map f) : Tree) = .list limit bs.length (bs.map f) ↔
      List.Forall₂ R as bs := by
  rw [HashTree.list.injEq, HashTree.map_eq_map_iff hf]
  exact ⟨fun h => h.2.2, fun h => ⟨rfl, h.length_eq, h⟩⟩

lemma listTree_sameShape {α : Type} {f : α → Tree} {as bs : List α} {limit : ℕ}
    (hf : ∀ a ∈ as, ∀ b ∈ bs, SameShape (f a) (f b)) :
    SameShape (.list limit as.length (as.map f)) (.list limit bs.length (bs.map f)) :=
  ⟨rfl, fun hlen => SameShapes.map hf hlen⟩

lemma extraTrees_sameShapes (v : Version) (d d' : Definition) :
    SameShapes (extraTrees v d) (extraTrees v d') := by
  have hamounts := Tree.uint64List_sameShape d.depositAmounts d'.depositAmounts
    sszMaxDepositAmounts (by decide)
  cases v with
  | v1_8 => exact ⟨hamounts, trivial⟩
  | v1_9 => exact ⟨hamounts, Tree.byteList_sameShape _ _ _, trivial⟩
  | v1_10 => exact ⟨hamounts, Tree.byteList_sameShape _ _ _, trivial, trivial, trivial⟩
  | _ => trivial

lemma extraTrees_eq_iff (v : Version) (d d' : Definition) :
    extraTrees v d = extraTrees v d' ↔
      (8 ≤ v.number → d.depositAmounts = d'.depositAmounts) ∧
      (9 ≤ v.number → d.consensusProtocol = d'.consensusProtocol) ∧
      (10 ≤ v.number → d.targetGasLimit = d'.targetGasLimit) ∧
      (10 ≤ v.number → d.compounding = d'.compounding) := by
  have hamounts : Tree.uint64List d.depositAmounts sszMaxDepositAmounts =
      Tree.uint64List d'.depositAmounts sszMaxDepositAmounts ↔
        d.depositAmounts = d'.depositAmounts :=
    ⟨Tree.uint64List_inj, fun h => by rw [h]⟩
  have hgas : Tree.uint64 d.targetGasLimit = Tree.uint64 d'.targetGasLimit ↔
      d.targetGasLimit = d'.targetGasLimit := ⟨Tree.uint64_inj, congrArg Tree.uint64⟩
  have hcompounding : Tree.bool d.compounding = Tree.bool d'.compounding ↔
      d.compounding = d'.compounding := ⟨Tree.bool_inj, congrArg Tree.bool⟩
  cases v <;> simp [extraTrees, Version.number, hamounts, hgas, hcompounding, text_eq_iff]

/-- The trees of the fields before the extra ones and of those behind them. -/
lemma definitionTree_sameShape {v : Version} {d d' : Definition} (h : d.Checked configOnly)
    (h' : d'.Checked configOnly) :
    SameShape (definitionTree v configOnly d) (definitionTree v configOnly d') := by
  have hlast : SameShapes
      (if configOnly then [] else [Tree.bytes (leftPad d.configHash sszLenHash)])
      (if configOnly then [] else [Tree.bytes (leftPad d'.configHash sszLenHash)]) := by
    cases configOnly with
    | true => trivial
    | false => exact ⟨bytesN_sameShape (h.configHash rfl) (h'.configHash rfl), trivial⟩
  have hrest := (extraTrees_sameShapes v d d').append hlast
  exact ⟨Tree.byteList_sameShape _ _ _, Tree.byteList_sameShape _ _ _,
    Tree.byteList_sameShape _ _ _, Tree.byteList_sameShape _ _ _, trivial, trivial,
    Tree.byteList_sameShape _ _ _, bytesN_sameShape h.forkVersion h'.forkVersion,
    listTree_sameShape fun o ho o' ho' =>
      operatorTree_sameShape (h.operators o ho) (h'.operators o' ho'),
    creatorTree_sameShape h.creator h'.creator,
    listTree_sameShape fun a _ a' _ => ⟨hex_sameShape _ _, hex_sameShape _ _, trivial⟩, hrest⟩

lemma definitionTree_eq_iff {v : Version} {d d' : Definition} (h : d.Checked configOnly)
    (h' : d'.Checked configOnly) :
    definitionTree v configOnly d = definitionTree v configOnly d' ↔
      d.SameContent v configOnly d' := by
  have hlast : (if configOnly then [] else [Tree.bytes (leftPad d.configHash sszLenHash)]) =
      (if configOnly then [] else [Tree.bytes (leftPad d'.configHash sszLenHash)]) ↔
        (configOnly = false →
          leftPad d.configHash sszLenHash = leftPad d'.configHash sszLenHash) := by
    cases configOnly with
    | true => simp
    | false => simp [bytesN_eq_iff (h.configHash rfl) (h'.configHash rfl)]
  have hrest : ∀ {us us' : List Tree}, extraTrees v d ++ us = extraTrees v d' ++ us' ↔
      extraTrees v d = extraTrees v d' ∧ us = us' := by
    refine ⟨fun heq => List.append_inj heq (extraTrees_sameShapes v d d').length_eq, ?_⟩
    rintro ⟨hextra, rfl⟩
    rw [hextra]
  have hnumber : ∀ {i j : UInt64}, Tree.uint64 i = Tree.uint64 j ↔ i = j :=
    ⟨Tree.uint64_inj, congrArg Tree.uint64⟩
  have hoperators := listTree_eq_iff sszMaxOperators fun o ho o' ho' =>
    operatorTree_eq_iff (h.operators o ho) (h'.operators o' ho')
  have haddresses := listTree_eq_iff sszMaxValidators
    fun a (_ : a ∈ d.validatorAddresses) a' (_ : a' ∈ d'.validatorAddresses) =>
      addressesTree_eq_iff a a'
  rw [definitionTree, definitionTree, HashTree.container.injEq]
  simp only [List.cons_append, List.nil_append, List.cons.injEq, text_eq_iff, hnumber,
    bytesN_eq_iff h.forkVersion h'.forkVersion, operatorsTree, hoperators,
    creatorTree_eq_iff h.creator h'.creator, validatorAddressesTree, haddresses, hrest, hlast,
    extraTrees_eq_iff]
  constructor
  · rintro ⟨h1, h2, h3, h4, h5, h6, h7, h8, h9, h10, h11, ⟨h12, h13, h14, h15⟩, h16⟩
    exact ⟨h1, h2, h3, h4, h5, h6, h7, h8, h9, h10, h11, h12, h13, h14, h15, h16⟩
  · rintro ⟨h1, h2, h3, h4, h5, h6, h7, h8, h9, h10, h11, h12, h13, h14, h15, h16⟩
    exact ⟨h1, h2, h3, h4, h5, h6, h7, h8, h9, h10, h11, ⟨h12, h13, h14, h15⟩, h16⟩

end Definitions

/-! ## Validators and locks -/

section Locks

variable (v : Version)

lemma depositFields_sameShapes (dd dd' : DepositData) :
    SameShapes (depositFields dd) (depositFields dd') :=
  ⟨bytesN_sameShape dd.pubKey.length_eq.le dd'.pubKey.length_eq.le,
    bytesN_sameShape dd.withdrawalCredentials.length_eq.le dd'.withdrawalCredentials.length_eq.le,
    trivial, bytesN_sameShape dd.signature.length_eq.le dd'.signature.length_eq.le, trivial⟩

lemma depositFields_eq_iff {dd dd' : DepositData} :
    depositFields dd = depositFields dd' ↔ dd = dd' := by
  obtain ⟨pubKey, credentials, amount, signature⟩ := dd
  obtain ⟨pubKey', credentials', amount', signature'⟩ := dd'
  have hkey := fixed_eq_iff (n := sszLenPubKey) pubKey.length_eq pubKey'.length_eq
  have hcredentials :=
    fixed_eq_iff (n := sszLenWithdrawCreds) credentials.length_eq credentials'.length_eq
  have hamount : Tree.uint64 amount = Tree.uint64 amount' ↔ amount = amount' :=
    ⟨Tree.uint64_inj, congrArg Tree.uint64⟩
  have hsignature := fixed_eq_iff (n := sszLenBlsSig) signature.length_eq signature'.length_eq
  simp only [depositFields, List.cons.injEq, and_true, hkey, hcredentials, hamount, hsignature,
    DepositData.mk.injEq, BLSPubKey.ext_iff, HashRoot.ext_iff, BLSSignature.ext_iff]

lemma depositTrees_sameShapes (dd dd' : DepositData) :
    SameShapes (depositTrees v dd) (depositTrees v dd') := by
  cases v with
  | v1_6 => exact depositFields_sameShapes dd dd'
  | v1_7 | v1_8 | v1_9 | v1_10 => exact ⟨depositFields_sameShapes dd dd', trivial⟩
  | _ => trivial

lemma depositTrees_eq_iff (dd dd' : DepositData) :
    depositTrees v dd = depositTrees v dd' ↔ (6 ≤ v.number → dd = dd') := by
  cases v <;> simp [depositTrees, Version.number, depositFields_eq_iff]

lemma validatorDepositTrees_sameShapes (dds dds' : List DepositData) :
    SameShapes (validatorDepositTrees v dds) (validatorDepositTrees v dds') := by
  have hlist : SameShape
      (.list sszMaxDepositAmounts dds.length (dds.map fun dd => .container (depositTrees v dd)))
      (.list sszMaxDepositAmounts dds'.length
        (dds'.map fun dd => .container (depositTrees v dd))) :=
    listTree_sameShape fun dd _ dd' _ => depositTrees_sameShapes v dd dd'
  have hone := depositTrees_sameShapes v (dds.headD default) (dds'.headD default)
  cases v with
  | v1_8 | v1_9 | v1_10 => exact ⟨hlist, trivial⟩
  | _ => exact hone

lemma validatorDepositTrees_eq_iff (dds dds' : List DepositData) :
    validatorDepositTrees v dds = validatorDepositTrees v dds' ↔
      (6 ≤ v.number → v.number < 8 → dds.headD default = dds'.headD default) ∧
        (8 ≤ v.number → dds = dds') := by
  have hlist : 6 ≤ v.number →
      ((HashTree.list sszMaxDepositAmounts dds.length
          (dds.map fun dd => .container (depositTrees v dd)) : Tree) =
        .list sszMaxDepositAmounts dds'.length
          (dds'.map fun dd => .container (depositTrees v dd)) ↔ dds = dds') := by
    intro hv
    rw [listTree_eq_iff sszMaxDepositAmounts (R := fun dd dd' => dd = dd') fun dd _ dd' _ => by
      rw [HashTree.container.injEq, depositTrees_eq_iff]
      exact ⟨fun h => h hv, fun h _ => h⟩]
    exact Iff.of_eq (congrFun (congrFun List.forall₂_eq_eq_eq dds) dds')
  have hone := depositTrees_eq_iff v (dds.headD default) (dds'.headD default)
  cases v with
  | v1_8 | v1_9 | v1_10 =>
    have hiff := hlist (by decide)
    simp only [validatorDepositTrees, List.cons.injEq, and_true, hiff]
    simp [Version.number]
  | _ =>
    simp only [validatorDepositTrees, hone]
    simp [Version.number]

lemma registrationTrees_sameShapes (reg reg' : BuilderRegistration) :
    SameShapes (registrationTrees v reg) (registrationTrees v reg') := by
  have hreg : SameShape
      (.container [registrationTree reg.message,
        Tree.bytes (leftPad reg.signature.bytes sszLenBlsSig)])
      (.container [registrationTree reg'.message,
        Tree.bytes (leftPad reg'.signature.bytes sszLenBlsSig)]) :=
    ⟨⟨Tree.bytes_sameShape (by rw [ExecutionAddress.length_eq, ExecutionAddress.length_eq]),
      trivial, trivial,
      bytesN_sameShape reg.message.pubKey.length_eq.le reg'.message.pubKey.length_eq.le, trivial⟩,
      bytesN_sameShape reg.signature.length_eq.le reg'.signature.length_eq.le, trivial⟩
  cases v with
  | v1_7 | v1_8 | v1_9 | v1_10 => exact ⟨hreg, trivial⟩
  | _ => trivial

/-- The seconds of a time that was hashed. -/
lemma timestamp_eq_iff {time time' : DateTime} (h : 0 ≤ time.timestamp)
    (h' : 0 ≤ time'.timestamp) :
    Tree.uint64 (.ofNat time.timestamp.toNat) = Tree.uint64 (.ofNat time'.timestamp.toNat) ↔
      time.timestamp = time'.timestamp := by
  refine ⟨fun heq => ?_, fun heq => by rw [heq]⟩
  have hnat := congrArg UInt64.toNat (Tree.uint64_inj heq)
  have hrange := time.inRange
  have hrange' := time'.inRange
  rw [UInt64.toNat_ofNat', UInt64.toNat_ofNat', Nat.mod_eq_of_lt (by omega),
    Nat.mod_eq_of_lt (by omega)] at hnat
  omega

lemma registrationTrees_eq_iff {reg reg' : BuilderRegistration} (h : reg.Checked v)
    (h' : reg'.Checked v) :
    registrationTrees v reg = registrationTrees v reg' ↔
      (7 ≤ v.number → reg.SameContent reg') := by
  have hreg : 7 ≤ v.number →
      ((HashTree.container [registrationTree reg.message,
          Tree.bytes (leftPad reg.signature.bytes sszLenBlsSig)] : Tree) =
        .container [registrationTree reg'.message,
          Tree.bytes (leftPad reg'.signature.bytes sszLenBlsSig)] ↔ reg.SameContent reg') := by
    intro hv
    have hgas : Tree.uint64 reg.message.gasLimit = Tree.uint64 reg'.message.gasLimit ↔
        reg.message.gasLimit = reg'.message.gasLimit := ⟨Tree.uint64_inj, congrArg Tree.uint64⟩
    have hfee : Tree.bytes reg.message.feeRecipient.bytes =
        Tree.bytes reg'.message.feeRecipient.bytes ↔
          reg.message.feeRecipient = reg'.message.feeRecipient := by
      refine ⟨fun heq => ExecutionAddress.ext (Tree.bytes_inj ?_ heq), fun heq => by rw [heq]⟩
      rw [ExecutionAddress.length_eq, ExecutionAddress.length_eq]
    have hkey := fixed_eq_iff (n := sszLenPubKey) reg.message.pubKey.length_eq
      reg'.message.pubKey.length_eq
    have hsignature := fixed_eq_iff (n := sszLenBlsSig) reg.signature.length_eq
      reg'.signature.length_eq
    simp only [registrationTree, HashTree.container.injEq, List.cons.injEq, and_true, hfee, hgas,
      timestamp_eq_iff (h hv) (h' hv), hkey, ← BLSPubKey.ext_iff, hsignature,
      ← BLSSignature.ext_iff]
    constructor
    · rintro ⟨⟨hfee, hlimit, htime, hkey⟩, hsignature⟩
      exact ⟨hfee, hlimit, htime, hkey, hsignature⟩
    · rintro ⟨hfee, hlimit, htime, hkey, hsignature⟩
      exact ⟨⟨hfee, hlimit, htime, hkey⟩, hsignature⟩
  cases v with
  | v1_7 | v1_8 | v1_9 | v1_10 =>
    have hiff := hreg (by decide)
    simp only [registrationTrees, List.cons.injEq, and_true, hiff]
    simp [Version.number]
  | _ => simp [registrationTrees, Version.number]

variable {v}

lemma validatorTree_sameShape {w w' : DistValidator} (h : w.Checked v) (h' : w'.Checked v) :
    SameShape (validatorTree v w) (validatorTree v w') :=
  ⟨bytesN_sameShape h.pubKey h'.pubKey,
    listTree_sameShape fun b hb b' hb' =>
      bytesN_sameShape (h.pubShares b hb) (h'.pubShares b' hb'),
    (validatorDepositTrees_sameShapes v _ _).append (registrationTrees_sameShapes v _ _)⟩

lemma validatorTree_eq_iff {w w' : DistValidator} (h : w.Checked v) (h' : w'.Checked v) :
    validatorTree v w = validatorTree v w' ↔ w.SameContent v w' := by
  have hlen := (validatorDepositTrees_sameShapes v w.partialDepositData
    w'.partialDepositData).length_eq
  have hrest : ∀ {us us' : List Tree},
      validatorDepositTrees v w.partialDepositData ++ us =
          validatorDepositTrees v w'.partialDepositData ++ us' ↔
        validatorDepositTrees v w.partialDepositData =
          validatorDepositTrees v w'.partialDepositData ∧ us = us' := by
    refine ⟨fun heq => List.append_inj heq hlen, ?_⟩
    rintro ⟨hdeposit, rfl⟩
    rw [hdeposit]
  have hshares := listTree_eq_iff sszMaxOperators fun b hb b' hb' =>
    bytesN_eq_iff (h.pubShares b hb) (h'.pubShares b' hb')
  rw [validatorTree, validatorTree, HashTree.container.injEq]
  simp only [List.cons_append, List.nil_append, List.cons.injEq, bytesN_eq_iff h.pubKey h'.pubKey,
    pubSharesTree, hshares, hrest, validatorDepositTrees_eq_iff,
    registrationTrees_eq_iff v h.builderRegistration h'.builderRegistration]
  constructor
  · rintro ⟨hkey, hpub, ⟨hfirst, hall⟩, hreg⟩
    exact ⟨hkey, hpub, hfirst, hall, hreg⟩
  · rintro ⟨hkey, hpub, hfirst, hall, hreg⟩
    exact ⟨hkey, hpub, ⟨hfirst, hall⟩, hreg⟩

lemma lockTree_sameShape {lock lock' : Lock} (h : lock.Checked v) (h' : lock'.Checked v) :
    SameShape (lockTree v lock) (lockTree v lock') :=
  ⟨definitionTree_sameShape h.definition h'.definition,
    listTree_sameShape fun w hw w' hw' =>
      validatorTree_sameShape (h.distributedValidators w hw) (h'.distributedValidators w' hw'),
    trivial⟩

lemma lockTree_eq_iff {lock lock' : Lock} (h : lock.Checked v) (h' : lock'.Checked v) :
    lockTree v lock = lockTree v lock' ↔ lock.SameContent v lock' := by
  have hvalidators := listTree_eq_iff sszMaxValidators fun w hw w' hw' =>
    validatorTree_eq_iff (h.distributedValidators w hw) (h'.distributedValidators w' hw')
  rw [lockTree, lockTree, HashTree.container.injEq]
  simp only [List.cons.injEq, and_true, definitionTree_eq_iff h.definition h'.definition,
    hvalidators]
  exact ⟨fun ⟨hdef, hvals⟩ => ⟨hdef, hvals⟩,
    fun hsame => ⟨hsame.definition, hsame.distributedValidators⟩⟩

end Locks

/-! ## Commitment -/

/-- The pairs that are hashed for the config hash and the lock hash of a lock. -/
def hashedPairs (sha256 : Bytes → HashRoot) (v : Version) (lock : Lock) :
    Set (HashRoot × HashRoot) :=
  {p | p ∈ HashTree.pairs (scheme sha256) (definitionTree v true lock.definition) ∨
    p ∈ HashTree.pairs (scheme sha256) (lockTree v lock)}

/-- **The hashes commit to the content.**  For two locks of a version from 1.5 on, the config hashes
are equal exactly if the definitions agree on what is configured, and the lock hashes are equal
exactly if the locks agree on everything the version hashes. -/
theorem hashes_commit_to_content {sha256 : Bytes → HashRoot} {v : Version} (hv : 5 ≤ v.number)
    {lock lock' : Lock} (hversion : Version.ofStr lock.definition.version = some v)
    (hversion' : Version.ofStr lock'.definition.version = some v)
    (hinj : Set.InjOn (Function.uncurry (pair sha256))
      (hashedPairs sha256 v lock ∪ hashedPairs sha256 v lock'))
    {config config' hash hash' : HashRoot}
    (hconfig : hashDefinition sha256 lock.definition true = .ok config)
    (hconfig' : hashDefinition sha256 lock'.definition true = .ok config')
    (hhash : hashLock sha256 lock = .ok hash) (hhash' : hashLock sha256 lock' = .ok hash') :
    (config = config' ↔ lock.definition.SameContent v true lock'.definition) ∧
      (hash = hash' ↔ lock.SameContent v lock') := by
  constructor
  · obtain ⟨hchecked, hfit, rfl⟩ := hashDefinition_eq_root true hv hversion hconfig
    obtain ⟨hchecked', hfit', rfl⟩ := hashDefinition_eq_root true hv hversion' hconfig'
    rw [← definitionTree_eq_iff hchecked hchecked']
    refine ⟨fun hroot => ?_, fun htree => by rw [htree]⟩
    exact HashTree.eq_of_root_eq hinj (definitionTree_sameShape hchecked hchecked') hfit hfit'
      (fun p hp => .inl (.inl hp)) (fun p hp => .inr (.inl hp)) hroot
  · obtain ⟨hchecked, hfit, rfl⟩ := hashLock_eq_root hv hversion hhash
    obtain ⟨hchecked', hfit', rfl⟩ := hashLock_eq_root hv hversion' hhash'
    rw [← lockTree_eq_iff hchecked hchecked']
    refine ⟨fun hroot => ?_, fun htree => by rw [htree]⟩
    exact HashTree.eq_of_root_eq hinj (lockTree_sameShape hchecked hchecked') hfit hfit'
      (fun p hp => .inl (.inr hp)) (fun p hp => .inr (.inr hp)) hroot

/-! ### Small locks

A polynomial in the bytes is a hash that has no collisions on the pairs of a small lock. -/

def polynomial (b : Bytes) : ℕ :=
  b.foldl (fun acc x => (acc * (2 ^ 133 + 6364136223846793005) + x.toNat) % 2 ^ 256) 0

def polynomialHash (b : Bytes) : HashRoot := ⟨SszContainer.leBytes 32 (polynomial b), by simp⟩

def pairPolynomial (p : HashRoot × HashRoot) : ℕ := polynomial (p.1.bytes ++ p.2.bytes)

lemma polynomial_lt (b : Bytes) : polynomial b < 256 ^ 32 := by
  unfold polynomial
  cases b using List.reverseRecOn with
  | nil => decide
  | append_singleton b x =>
    rw [List.foldl_append, List.foldl_cons, List.foldl_nil]
    exact Nat.mod_lt _ (by decide)

lemma pairPolynomial_eq_of_pair_eq {p q : HashRoot × HashRoot}
    (h : Function.uncurry (pair polynomialHash) p = Function.uncurry (pair polynomialHash) q) :
    pairPolynomial p = pairPolynomial q := by
  have hread := congrArg (fun c => SszContainer.readLe c.bytes) h
  simpa only [Function.uncurry, pair, polynomialHash, pairPolynomial,
    SszContainer.readLe_leBytes_of_lt (polynomial_lt _)] using hread

/-- The pairs of a lock, with the one of the zero subtrees. -/
def sparseHashedPairs (v : Version) (lock : Lock) : List (HashRoot × HashRoot) :=
  (.zero, .zero) ::
    (HashTree.sparsePairs (scheme polynomialHash) (definitionTree v true lock.definition) ++
      HashTree.sparsePairs (scheme polynomialHash) (lockTree v lock))

/-- No collisions, if every pair is the first one with its polynomial. -/
lemma injOn_hashedPairs {v : Version} {lock : Lock}
    (h : (sparseHashedPairs v lock).all fun p =>
      (sparseHashedPairs v lock).find? (pairPolynomial · == pairPolynomial p) == some p) :
    Set.InjOn (Function.uncurry (pair polynomialHash)) (hashedPairs polynomialHash v lock) := by
  have hzero : (scheme polynomialHash).pair .zero .zero = .zero := by decide +kernel
  have hmem : ∀ p ∈ hashedPairs polynomialHash v lock, p ∈ sparseHashedPairs v lock := by
    intro p hp
    rw [sparseHashedPairs, List.mem_cons, List.mem_append]
    rcases hp with hp | hp
    · exact (HashTree.mem_pairs_sparse hzero hp).symm.imp_right .inl
    · exact (HashTree.mem_pairs_sparse hzero hp).symm.imp_right .inr
  intro p hp q hq heq
  have hfirst := eq_of_beq (List.all_eq_true.mp h p (hmem p hp))
  rw [pairPolynomial_eq_of_pair_eq heq, eq_of_beq (List.all_eq_true.mp h q (hmem q hq))] at hfirst
  exact (Option.some.inj hfirst).symm

/-- A lock of one validator, without operators. -/
def smallLock (v : Version) (validator : DistValidator) : Lock where
  definition :=
    { uuid := "", name := "", version := v.asStr, timestamp := "", numValidators := 1,
      threshold := 1, dkgAlgorithm := "", forkVersion := [], operators := [], creator := default,
      validatorAddresses := [], depositAmounts := [], consensusProtocol := "", targetGasLimit := 0,
      compounding := false, configHash := [], definitionHash := [] }
  distributedValidators := [validator]
  lockHash := []
  signatureAggregate := []
  nodeSignatures := []

def smallValidator (dds : List DepositData) (time : DateTime) : DistValidator :=
  ⟨[], [], dds, ⟨⟨default, 0, time, default⟩, default⟩⟩

/-- The lock of a validator that was registered at the epoch, or half a second later. -/
def registeredLock (late : Bool) : Lock :=
  smallLock .v1_8 (smallValidator [] ⟨0, if late then 500000000 else 0, by cases late <;> decide⟩)

/-- Two locks whose registrations differ in less than a second. -/
theorem hashes_commit_to_content_late :
    ∃ config config' hash hash',
      hashDefinition polynomialHash (registeredLock false).definition true = .ok config ∧
      hashDefinition polynomialHash (registeredLock true).definition true = .ok config' ∧
      hashLock polynomialHash (registeredLock false) = .ok hash ∧
      hashLock polynomialHash (registeredLock true) = .ok hash' ∧
      (config = config' ↔ (registeredLock false).definition.SameContent .v1_8 true
        (registeredLock true).definition) ∧
      (hash = hash' ↔ (registeredLock false).SameContent .v1_8 (registeredLock true)) := by
  have hinj : Set.InjOn (Function.uncurry (pair polynomialHash))
      (hashedPairs polynomialHash .v1_8 (registeredLock false) ∪
        hashedPairs polynomialHash .v1_8 (registeredLock true)) := by
    have hsame : hashedPairs polynomialHash .v1_8 (registeredLock true) =
        hashedPairs polynomialHash .v1_8 (registeredLock false) := rfl
    rw [hsame, Set.union_self]
    exact injOn_hashedPairs (by decide +kernel)
  obtain ⟨config, hconfig⟩ := Except.exists_ok_of_isSome
    (x := hashDefinition polynomialHash (registeredLock false).definition true)
    (by decide +kernel)
  obtain ⟨hash, hhash⟩ := Except.exists_ok_of_isSome
    (x := hashLock polynomialHash (registeredLock false)) (by decide +kernel)
  have hhash' : hashLock polynomialHash (registeredLock true) = .ok hash :=
    Eq.trans rfl hhash
  exact ⟨config, config, hash, hash, hconfig, hconfig, hhash, hhash',
    hashes_commit_to_content (by decide) (Version.ofStr_asStr .v1_8)
      (Version.ofStr_asStr .v1_8) hinj hconfig hconfig hhash hhash'⟩

/-- The lock of a validator with a deposit, in a version that does not hash deposit data. -/
def depositLock (amount : UInt64) : Lock :=
  smallLock .v1_5 (smallValidator [⟨default, default, amount, default⟩] default)

/-- Two locks of version 1.5 that differ in their deposit data have one hash. -/
theorem deposit_data_not_hashed_v1_5 :
    (depositLock 0).definition.version = "v1.5.0" ∧
    (depositLock 1).definition.version = "v1.5.0" ∧
    Set.InjOn (Function.uncurry (pair polynomialHash))
      (hashedPairs polynomialHash .v1_5 (depositLock 0) ∪
        hashedPairs polynomialHash .v1_5 (depositLock 1)) ∧
    (∃ config hash,
      hashDefinition polynomialHash (depositLock 0).definition true = .ok config ∧
      hashDefinition polynomialHash (depositLock 1).definition true = .ok config ∧
      hashLock polynomialHash (depositLock 0) = .ok hash ∧
      hashLock polynomialHash (depositLock 1) = .ok hash) ∧
    (depositLock 0).distributedValidators.map (·.partialDepositData.head?) ≠
      (depositLock 1).distributedValidators.map (·.partialDepositData.head?) := by
  refine ⟨rfl, rfl, ?_, ?_, by decide⟩
  · have hsame : hashedPairs polynomialHash .v1_5 (depositLock 1) =
        hashedPairs polynomialHash .v1_5 (depositLock 0) := rfl
    rw [hsame, Set.union_self]
    exact injOn_hashedPairs (by decide +kernel)
  · obtain ⟨config, hconfig⟩ := Except.exists_ok_of_isSome
      (x := hashDefinition polynomialHash (depositLock 0).definition true) (by decide +kernel)
    obtain ⟨hash, hhash⟩ := Except.exists_ok_of_isSome
      (x := hashLock polynomialHash (depositLock 0)) (by decide +kernel)
    have hsame : hashLock polynomialHash (depositLock 1) =
        hashLock polynomialHash (depositLock 0) := rfl
    exact ⟨config, hash, hconfig, hconfig, hhash, hsame.trans hhash⟩

end Pluto.Cluster
