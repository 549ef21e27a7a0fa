import Pluto.Consensus.Binding

/-!
# Authentic admission

Envelopes come from an adversary that has every signature the honest nodes have made but none of
their keys.  Honest nodes sign QBFT messages and, with the same key and the same hash, the messages
of the priority protocol.  `Traffic` is what they have signed and what `handle` has queued; an
envelope may be delivered if it is unforged, that is, if every signature in it that recovers to an
honest key is on a hash this key has signed.

A hash is not a message.  What closes the gap is that it binds the wire fields
(`CollisionFree.fields_eq`), and that the fields of a QBFT message with a valid type are never those
of a priority message: field 1 is a varint in the one and length-delimited in the other.
-/

namespace Pluto.Consensus

open Corepb Ssz

/-! ## Signatures -/

/-- A message a node has signed. -/
inductive Signed
  | qbft (msg : QbftMsg)
  | priority (msg : PriorityMsg)
  deriving DecidableEq

namespace Signed

/-- The fields that are hashed: those of the message with its signature cleared. -/
def fields : Signed → List Wire.Field
  | .qbft msg => QbftMsg.codec.fields (clearSignature msg)
  | .priority msg => PriorityMsg.codec.fields { msg with signature := [] }

/-- The hash that is signed. -/
def hash (sha256 : Bytes → HashRoot) : Signed → Except MsgError HashRoot
  | .qbft msg => hashProto sha256 QbftMsg.named (clearSignature msg)
  | .priority msg => hashProto sha256 PriorityMsg.named { msg with signature := [] }

variable {sha256 : Bytes → HashRoot} {S : Set Bytes}

lemma hashBytes_of_hash {s : Signed} {hash : HashRoot} (h : s.hash sha256 = .ok hash) :
    hashBytes sha256 (Wire.encode s.fields) = .ok hash := by
  -- The equation comes before the goal: unified with it, the codec would be unfolded.
  cases s with
  | qbft msg =>
    have hproto : hashProto sha256 QbftMsg.named (clearSignature msg) = .ok hash := h
    have hbytes := hashBytes_of_hashProto hproto
    exact hbytes
  | priority msg =>
    have hproto : hashProto sha256 PriorityMsg.named { msg with signature := [] } = .ok hash := h
    have hbytes := hashBytes_of_hashProto hproto
    exact hbytes

/-- A signed hash binds the fields. -/
lemma fields_eq_of_hash (hS : CollisionFree sha256 S) {s s' : Signed} {hash : HashRoot}
    (hs : Wire.encode s.fields ∈ S) (hs' : Wire.encode s'.fields ∈ S)
    (h : s.hash sha256 = .ok hash) (h' : s'.hash sha256 = .ok hash) : s.fields = s'.fields := by
  apply hS.fields_eq hs hs'
  exact (hashBytes_of_hash h).trans (hashBytes_of_hash h').symm

lemma scalarAt_qbft (msg : QbftMsg) :
    Wire.scalarAt 1 (Signed.qbft msg).fields = Wire.ofInt64 msg.type := by
  simp +decide [fields, QbftMsg.codec, clearSignature, Wire.scalarAt]

lemma scalarAt_priority (msg : PriorityMsg) : Wire.scalarAt 1 (Signed.priority msg).fields = 0 := by
  simp +decide [fields, PriorityMsg.codec, Wire.scalarAt]

/-- A QBFT message with a valid type has the fields of no priority message, and only of QBFT
messages that differ at most in the signature. -/
lemma qbft_of_fields_eq {msg : QbftMsg} {s : Signed}
    (htype : (Qbft.MessageType.fromWire msg.type.toInt).valid = true)
    (h : (Signed.qbft msg).fields = s.fields) :
    ∃ msg', s = .qbft msg' ∧ clearSignature msg = clearSignature msg' := by
  cases s with
  | qbft msg' => exact ⟨msg', rfl, QbftMsg.codec.fields_injective h⟩
  | priority other =>
    have hzero : Wire.ofInt64 msg.type = 0 := by
      rw [← scalarAt_qbft, h, scalarAt_priority]
    have htypeZero : msg.type = 0 := by
      rw [← Wire.toInt64_ofInt64 msg.type, hzero]
      rfl
    have hpos := ((Qbft.MessageType.valid_fromWire _).mp htype).1
    rw [htypeZero] at hpos
    exact absurd hpos (by decide)

end Signed

/-! ## Traffic -/

/-- What the honest nodes have signed, and what their `handle` has queued. -/
structure Traffic (PK : Type) where
  signed : List (PK × Signed)
  queued : List (Core.Duty × Msg)

/-- What a call of `handle` queues. -/
def queuedBy : Except ComponentError (Option (Core.Duty × Msg)) → List (Core.Duty × Msg)
  | .ok (some queued) => [queued]
  | _ => []

lemma mem_queuedBy {res : Except ComponentError (Option (Core.Duty × Msg))} {x : Core.Duty × Msg}
    (h : x ∈ queuedBy res) : res = .ok (some x) := by
  unfold queuedBy at h
  split at h
  · rw [List.mem_singleton.mp h]
  · cases h

/-- The QBFT messages of an envelope. -/
def messagesOf (pbMsg : QbftConsensusMsg) : List QbftMsg := pbMsg.msg.toList ++ pbMsg.justification

namespace Traffic

variable {SK PK : Type}

/-- The byte strings that are hashed for the signatures of the traffic. -/
def Hashed (t : Traffic PK) : Set Bytes :=
  {b | (∃ pk s, (pk, s) ∈ t.signed ∧ b = Wire.encode s.fields) ∨
    ∃ duty m, (duty, m) ∈ t.queued ∧
      ∃ q ∈ m.msg :: m.justificationProtos, b = Wire.encode (Signed.qbft q).fields}

variable (k : Crypto SK PK) (dec : Decoder) (c : Component PK) (honest : Set PK)

/-- Unforgeability: a signature that recovers to an honest key is on a hash this key has signed. -/
def Unforged (t : Traffic PK) (q : QbftMsg) : Prop :=
  ∀ pk ∈ honest, ∀ hash, (Signed.qbft q).hash k.sha256 = .ok hash →
    k.recover hash q.signature = .ok pk → ∃ s, (pk, s) ∈ t.signed ∧ s.hash k.sha256 = .ok hash

variable {k honest} in
lemma Unforged.mono {t t' : Traffic PK} {q : QbftMsg} (h : t.Unforged k honest q)
    (hsub : t.signed ⊆ t'.signed) : t'.Unforged k honest q := by
  intro pk hpk hash hhash hrecover
  obtain ⟨s, hs, heq⟩ := h pk hpk hash hhash hrecover
  exact ⟨s, hsub hs, heq⟩

section Steps

variable [DecidableEq PK]

/-- An honest node signs, or the adversary sends an envelope. -/
inductive Step : Traffic PK → Traffic PK → Prop
  | sign {t : Traffic PK} {pk : PK} (hpk : pk ∈ honest) (s : Signed) :
      Step t { t with signed := (pk, s) :: t.signed }
  | handle {t : Traffic PK} (env : HandleEnv) {pbMsg : QbftConsensusMsg}
      (unforged : ∀ q ∈ messagesOf pbMsg, t.Unforged k honest q) :
      Step t { t with queued := queuedBy (handle k dec c env pbMsg) ++ t.queued }

/-- The traffic that can come about. -/
def Reachable (t : Traffic PK) : Prop := Relation.ReflTransGen (Step k dec c honest) ⟨[], []⟩ t

end Steps

/-- What has been queued was admitted, and was unforged. -/
def Inv (k : Crypto SK PK) (dec : Decoder) (c : Component PK) (honest : Set PK)
    (t : Traffic PK) : Prop :=
  ∀ duty m, (duty, m) ∈ t.queued → Admitted k dec c duty m ∧
    ∀ q ∈ m.msg :: m.justificationProtos, t.Unforged k honest q

variable {k dec c honest} {t t' : Traffic PK}

/-! ## Authenticity -/

/-- A wrapper queued for the instance of `duty` shows what the message `q` says. -/
structure Agrees (duty : Core.Duty) (head : MsgHead) (q : QbftMsg) : Prop where
  source : head.source = q.peerIdx.toInt
  type : head.type = .fromWire q.type.toInt
  headDuty : head.instance = duty
  msgDuty : dutyFromMsg q = .ok duty
  round : head.round = q.round.toInt
  preparedRound : head.preparedRound = q.preparedRound.toInt
  valueHash : head.valueHash = collapse q.valueHash
  preparedValueHash : head.preparedValueHash = collapse q.preparedValueHash

lemma agrees_of_clearSignature {duty : Core.Duty} {msg q : QbftMsg} (values : ValueMap)
    (hduty : dutyFromMsg msg = .ok duty) (h : clearSignature msg = clearSignature q) :
    Agrees duty (.of msg values) q := by
  simp only [clearSignature, QbftMsg.mk.injEq] at h
  obtain ⟨htype, hpbDuty, hpeer, hround, hprepared, -, hvalue, hpvalue⟩ := h
  exact
    { source := congrArg Int64.toInt hpeer
      type := congrArg (fun x : Int64 => Qbft.MessageType.fromWire x.toInt) htype
      headDuty := dutyFromProto_eq hduty
      msgDuty := by rwa [dutyFromMsg, ← hpbDuty]
      round := congrArg Int64.toInt hround
      preparedRound := congrArg Int64.toInt hprepared
      valueHash := congrArg collapse hvalue
      preparedValueHash := congrArg collapse hpvalue }

/-- The wrappers of an admitted message are those of its QBFT messages. -/
lemma exists_of_mem_heads {duty : Core.Duty} {m : Msg} (h : Admitted k dec c duty m)
    {head : MsgHead} (hhead : head ∈ m.heads) :
    ∃ q ∈ m.msg :: m.justificationProtos, head = .of q m.values := by
  have hwrapped := (Msg.new_eq_ok.mp h.wrapped).1
  rcases List.mem_cons.mp hhead with rfl | hjust
  · exact ⟨m.msg, List.mem_cons_self, congrArg Msg.toMsgHead hwrapped⟩
  · rw [congrArg Msg.justification hwrapped] at hjust
    obtain ⟨q, hq, rfl⟩ := List.mem_map.mp hjust
    exact ⟨q, List.mem_cons_of_mem _ hq, rfl⟩

/-- **Admission is authentic.** -/
theorem Inv.authentic (h : t.Inv k dec c honest) {S : Set Bytes} (hS : CollisionFree k.sha256 S)
    (hhashed : t.Hashed ⊆ S) {duty : Core.Duty} {m : Msg} (hm : (duty, m) ∈ t.queued)
    {head : MsgHead} (hhead : head ∈ m.heads) {pk : PK} (hpk : pk ∈ honest)
    (hkey : c.pubkey head.msg.peerIdx = some pk) :
    ∃ q, (pk, .qbft q) ∈ t.signed ∧ Agrees duty head q := by
  obtain ⟨hadmitted, hunforged⟩ := h duty m hm
  obtain ⟨q, hq, rfl⟩ := exists_of_mem_heads hadmitted hhead
  obtain ⟨hverified, hduty⟩ := hadmitted.verified q hq
  obtain ⟨pubkey, hash, hpubkey, hhash, hrecover⟩ := hverified.signed
  obtain rfl : pubkey = pk := Option.some.inj (hpubkey.symm.trans hkey)
  obtain ⟨s, hs, hshash⟩ := hunforged q hq pubkey hpk hash hhash hrecover
  have hqS : Wire.encode (Signed.qbft q).fields ∈ S := hhashed (.inr ⟨duty, m, hm, q, hq, rfl⟩)
  have hsS : Wire.encode s.fields ∈ S := hhashed (.inl ⟨pubkey, s, hs, rfl⟩)
  have hfields := Signed.fields_eq_of_hash hS hqS hsS hhash hshash
  obtain ⟨q', rfl, hclear⟩ := Signed.qbft_of_fields_eq hverified.typeValid hfields
  exact ⟨q', hs, agrees_of_clearSignature m.values hduty hclear⟩

/-! ## The traffic that can come about -/

variable [DecidableEq PK]

lemma Inv.step (h : t.Inv k dec c honest) (hstep : Step k dec c honest t t') :
    t'.Inv k dec c honest := by
  cases hstep with
  | sign hpk s =>
    intro duty m hm
    obtain ⟨hadmitted, hunforged⟩ := h duty m hm
    exact ⟨hadmitted, fun q hq => (hunforged q hq).mono (List.subset_cons_self _ _)⟩
  | @handle env pbMsg unforged =>
    intro duty m hm
    rcases List.mem_append.mp hm with hnew | hold
    · obtain ⟨hadmitted, hmsg, hjust⟩ := handle_ok (mem_queuedBy hnew)
      refine ⟨hadmitted, fun q hq => unforged q ?_⟩
      simpa [messagesOf, hmsg, hjust] using hq
    · exact h duty m hold

lemma Reachable.inv (h : t.Reachable k dec c honest) : t.Inv k dec c honest := by
  induction h with
  | refl => exact fun _ _ hm => by cases hm
  | tail _ hstep ih => exact ih.step hstep

end Traffic

/-! ## Four honest nodes

A scenario for the results below.  Nodes 0, 1 and 2 have signed COMMITs for one hash and node 3 the
DECIDED that carries them.  The payload of the envelope is signed by nobody. -/

namespace FourNodes

open Instance (emptyEntry)

/-- A signature is the index of its signer. -/
def crypto : Crypto Unit ℕ where
  sha256 b := chunk (255 :: b)
  sign _ _ := .ok [0]
  recover _ signature := .ok (signature.headD 0).toNat

def component : Component ℕ := ⟨[0, 1, 2, 3], fun _ => true⟩

def duty : Core.Duty := ⟨1, .attester⟩

def node (peerIdx : Int64) : Instance Unit ℕ where
  crypto := crypto
  decoder := .wire
  component := component
  definition := ⟨fun _ _ => false, 4, 100, rfl, rfl⟩
  duty := duty
  peerIdx := peerIdx
  privkey := ()

/-- A priority result with one default message. -/
def emptyMsg : DecodedValue := .priorityResult ⟨[⟨none, [], "", []⟩], []⟩

/-- The hash of both: field 1 with no content. -/
def decidedHash : HashRoot := chunk [10, 0]

def vote (type : Int64) (peer : ℕ) : QbftMsg where
  type := type
  duty := some ⟨1, 2⟩
  peerIdx := Int64.ofNat peer
  round := 1
  preparedRound := 0
  signature := [UInt8.ofNat peer]
  valueHash := decidedHash.bytes
  preparedValueHash := []

def commits : List QbftMsg := [vote 3 0, vote 3 1, vote 3 2]

def decided : QbftMsg := vote 5 3

def signed : List (ℕ × Signed) :=
  [(0, .qbft (vote 3 0)), (1, .qbft (vote 3 1)), (2, .qbft (vote 3 2)), (3, .qbft decided)]

/-- The DECIDED in an envelope with some payload. -/
def envelope (value : Any) : QbftConsensusMsg := ⟨some decided, commits, [value]⟩

/-- What `handle` makes of it. -/
def wrapped (value : Any) : Msg :=
  let values : ValueMap := (∅ : ValueMap).insert decidedHash value
  ⟨.of decided values, commits, commits.map (.of · values)⟩

def env : HandleEnv := ⟨false, .scheduled, .accepted⟩

/-- The DECIDED is next in the channel of the core. -/
def received (peerIdx : Int64) (value : Any) : RunState :=
  { (node peerIdx).init with
    store := ⟨none, (∅ : ValueMap).insert decidedHash value⟩
    coreRecv := [wrapped value] }

/-- Everything that is hashed: the four messages and the payload. -/
def hashed : List Bytes :=
  [10, 0] :: (decided :: commits).map fun q => Wire.encode (Signed.qbft q).fields

lemma collisionFree_hashed : CollisionFree crypto.sha256 {b | b ∈ hashed} := by
  apply collisionFree_of_two
  · decide
  · decide
  · decide

lemma unforged_envelope (value : Any) :
    ∀ q ∈ messagesOf (envelope value), Traffic.Unforged crypto Set.univ ⟨signed, []⟩ q := by
  have hsigned : ∀ q ∈ decided :: commits, ((q.signature.headD 0).toNat, .qbft q) ∈ signed := by
    decide
  intro q hq pk _ hash hhash hrecover
  obtain rfl : (q.signature.headD 0).toNat = pk := Except.ok.inj hrecover
  exact ⟨.qbft q, hsigned q hq, hhash⟩

lemma handle_emptyEntry :
    handle crypto .wire component env (envelope emptyEntry.toAny) =
      .ok (some (duty, wrapped emptyEntry.toAny)) := by
  rfl

lemma handle_emptyMsg :
    handle crypto .wire component env (envelope emptyMsg.toAny) =
      .ok (some (duty, wrapped emptyMsg.toAny)) := by
  rfl

lemma reachable_received (peerIdx : Int64) {value : Any}
    (h : handle crypto .wire component env (envelope value) = .ok (some (duty, wrapped value))) :
    (node peerIdx).Reachable (received peerIdx value) := by
  have handled : (node peerIdx).Step (node peerIdx).init _ :=
    Instance.Step.handle h (Nat.zero_lt_succ 99)
  have received := (Relation.ReflTransGen.single handled).tail (Instance.Step.receive rfl rfl)
  have forwarded := received.tail (Instance.Step.forward rfl (Nat.zero_lt_succ 99))
  have taken := forwarded.tail (Instance.Step.takeMsg rfl rfl)
  exact taken.tail (Instance.Step.putMsg rfl (Nat.zero_lt_succ 99))

lemma decides_received (peerIdx : Int64) (value : Any) :
    (node peerIdx).Decides (received peerIdx value) decidedHash (wrapped value).justification := by
  refine ⟨wrapped value, [], .stored _, .ok (), .ok (), _, rfl, rfl, rfl, rfl, ?_⟩
  have htype : (wrapped value).type = .decided := rfl
  rw [Instance.QCommitOf, if_pos htype]

lemma hash_emptyEntry (sha256 : Bytes → HashRoot) : emptyEntry.hash sha256 = .ok decidedHash := rfl

lemma hash_emptyMsg (sha256 : Bytes → HashRoot) : emptyMsg.hash sha256 = .ok decidedHash := rfl

/-- The messages are signed, and the DECIDED has been queued with its set. -/
def traffic : Traffic ℕ := ⟨signed, [(duty, wrapped emptyEntry.toAny)]⟩

lemma reachable_traffic : traffic.Reachable crypto .wire component Set.univ := by
  have decided : Traffic.Step crypto .wire component Set.univ ⟨[], []⟩ _ :=
    .sign (Set.mem_univ 3) (.qbft decided)
  have second := (Relation.ReflTransGen.single decided).tail
    (.sign (Set.mem_univ 2) (.qbft (vote 3 2)))
  have first := second.tail (.sign (Set.mem_univ 1) (.qbft (vote 3 1)))
  have zeroth := first.tail (.sign (Set.mem_univ 0) (.qbft (vote 3 0)))
  have handled := zeroth.tail (.handle env (unforged_envelope emptyEntry.toAny))
  rw [handle_emptyEntry] at handled
  exact handled

lemma hashed_traffic : traffic.Hashed ⊆ {b | b ∈ hashed} := by
  have hsigned : ∀ x ∈ signed, Wire.encode x.2.fields ∈ hashed := by decide
  have hqueued : ∀ q ∈ decided :: commits, Wire.encode (Signed.qbft q).fields ∈ hashed := by decide
  rintro _ (⟨pk, s, hs, rfl⟩ | ⟨duty, m, hm, q, hq, rfl⟩)
  · exact hsigned (pk, s) hs
  · obtain ⟨rfl, rfl⟩ := Prod.mk.inj (List.mem_singleton.mp hm)
    exact hqueued q hq

end FourNodes

/-! ## Admission and dispatch -/

end Pluto.Consensus
