import Pluto.Dkg.Dkgpb
import Pluto.Lib.Fallible
import Pluto.Lib.HashMap
import Pluto.Lib.Trace

/-!
# Reliable broadcast

The model of `crates/dkg/src/bcast`.  A peer that wants to broadcast a message asks every other peer
for a signature of its hash (`handle_inbound_sig_request`), and then sends it to everyone with all
the signatures (`handle_inbound_msg`).  A peer signs one hash per requesting peer and message id.

A message is known by its id.  Under an id a type of messages is registered, with a check that comes
before a signature and a callback for a message that carries all of them.  The model ends where the
callback is called with the decoded message.

Streams, timeouts and the bookkeeping of an outgoing broadcast are left out: of a broadcast of its
own, a peer only signs the message.  SHA-256 and signatures are parameters.
-/

namespace Pluto.Dkg.Bcast

open Corepb (Any)

inductive Error (PeerId : Type)
  | unknownMessageId (id : String)
  | invalidSignatureCount (expected actual : ℕ)
  | invalidSignatureLength (actual : ℕ)
  | invalidSignature (peer : PeerId)
  | invalidPeerIndex (peer : PeerId)
  | invalidSenderPeerIndex (sender expected : PeerId)
  | duplicateMismatchingHash
  | missingField (field : String)
  | cancelled
  | decode
  | k1
  deriving DecidableEq, Repr

/-- The length of a signature with its recovery byte. -/
def signatureLen : ℕ := 65

/-- A type of messages under an id: the message in an `Any`, and the check that comes before a
signature for a peer. -/
structure RegisteredMessage (PeerId Msg : Type) where
  toMsg : Any → Option Msg
  check : PeerId → Msg → Except (Error PeerId) Unit

variable {PeerId Msg : Type} [DecidableEq PeerId]

/-- The bytes that are hashed, in which the end of the type URL is not marked. -/
def hashed (any : Any) : Bytes := Wire.utf8 any.typeUrl ++ any.value

def hashAny (sha256 : Bytes → Bytes) (any : Any) : Bytes := sha256 (hashed any)

/-- `verify65` is `none` where recovering the key fails. -/
def verifySignatures (sha256 : Bytes → Bytes) (verify65 : PeerId → Bytes → Bytes → Option Bool)
    (any : Any) (signatures : List Bytes) (peers : List PeerId) : Except (Error PeerId) Unit :=
  if signatures.length ≠ peers.length then
    .error (.invalidSignatureCount peers.length signatures.length)
  else
    (peers.zip signatures).forM fun (peer, signature) =>
      if signature.length ≠ signatureLen then .error (.invalidSignatureLength signature.length)
      else
        match verify65 peer (hashAny sha256 any) signature with
        | none => .error .k1
        | some false => .error (.invalidSignature peer)
        | some true => .ok ()

/-- `TypedRegistration::check` -/
def RegisteredMessage.checkAny (handler : RegisteredMessage PeerId Msg) (peer : PeerId)
    (any : Any) : Except (Error PeerId) Unit := do
  let msg ← Except.okOr (handler.toMsg any) .decode
  handler.check peer msg

/-- The hash that was signed for a peer under an id. -/
abbrev DedupStore (PeerId : Type) : Type := HashMap (PeerId × String) Bytes

/-- The hash signed for a peer under an id is the first one, and any other is refused. -/
def recordHash (dedup : DedupStore PeerId) (peer : PeerId) (id : String) (hash : Bytes) :
    Except (Error PeerId) (DedupStore PeerId) :=
  match dedup.lookup (peer, id) with
  | some previous => if previous ≠ hash then .error .duplicateMismatchingHash else .ok dedup
  | none => .ok (dedup.insert (peer, id) hash)

/-- If the request is answered, with a signature, the store of hashes is the one returned. -/
def handleInboundSigRequest (sha256 : Bytes → Bytes)
    (registry : String → Option (RegisteredMessage PeerId Msg)) (dedup : DedupStore PeerId)
    (peer : PeerId) (id : String) (message : Option Any) :
    Except (Error PeerId) (DedupStore PeerId) := do
  let any ← Except.okOr message (.missingField "message")
  let handler ← Except.okOr (registry id) (.unknownMessageId id)
  handler.checkAny peer any
  recordHash dedup peer id (hashAny sha256 any)

/-- If the message is accepted, the callback is called with the message returned. -/
def handleInboundMsg (sha256 : Bytes → Bytes)
    (verify65 : PeerId → Bytes → Bytes → Option Bool)
    (registry : String → Option (RegisteredMessage PeerId Msg)) (peers : List PeerId) (id : String)
    (message : Option Any) (signatures : List Bytes) : Except (Error PeerId) Msg := do
  let any ← Except.okOr message (.missingField "message")
  verifySignatures sha256 verify65 any signatures peers
  let handler ← Except.okOr (registry id) (.unknownMessageId id)
  Except.okOr (handler.toMsg any) .decode

/-! ## What the handlers have checked -/

variable {id : String}

lemma recordHash_ok {dedup dedup' : DedupStore PeerId} {peer : PeerId} {hash : Bytes}
    (h : recordHash dedup peer id hash = .ok dedup') :
    HashMap.Extends dedup dedup' ∧ dedup'.lookup (peer, id) = some hash := by
  rw [recordHash] at h
  cases hlook : dedup.lookup (peer, id) with
  | none =>
    rw [hlook] at h
    obtain rfl := Except.ok.inj h
    exact ⟨HashMap.extends_insert _ hlook, AList.lookup_insert _⟩
  | some previous =>
    rw [hlook] at h
    dsimp only at h
    split_ifs at h with hprevious
    obtain rfl := Except.ok.inj h
    exact ⟨HashMap.Extends.refl _, by rw [hlook, not_not.mp hprevious]⟩

omit [DecidableEq PeerId] in
lemma verifySignatures_ok {sha256 : Bytes → Bytes}
    {verify65 : PeerId → Bytes → Bytes → Option Bool} {any : Any} {signatures : List Bytes}
    {peers : List PeerId} (h : verifySignatures sha256 verify65 any signatures peers = .ok ())
    {peer : PeerId} (hpeer : peer ∈ peers) :
    ∃ signature, (peer, signature) ∈ peers.zip signatures ∧
      verify65 peer (hashAny sha256 any) signature = some true := by
  rw [verifySignatures] at h
  split_ifs at h with hlen
  rw [Except.forM_ok_iff] at h
  have hmem : peer ∈ (peers.zip signatures).map Prod.fst := by
    rw [List.map_fst_zip (not_not.mp hlen).ge]
    exact hpeer
  obtain ⟨⟨peer, signature⟩, hzip, rfl⟩ := List.mem_map.mp hmem
  have hcheck := h _ hzip
  dsimp only at hcheck
  split_ifs at hcheck
  refine ⟨signature, hzip, ?_⟩
  split at hcheck
  · cases hcheck
  · cases hcheck
  · assumption

lemma handleInboundSigRequest_ok {sha256 : Bytes → Bytes}
    {registry : String → Option (RegisteredMessage PeerId Msg)} {dedup dedup' : DedupStore PeerId}
    {peer : PeerId} {any : Any}
    (h : handleInboundSigRequest sha256 registry dedup peer id (some any) = .ok dedup') :
    HashMap.Extends dedup dedup' ∧ dedup'.lookup (peer, id) = some (hashAny sha256 any) := by
  simp only [handleInboundSigRequest, Except.bind_ok_iff, Except.okOr_ok_iff,
    Option.some.injEq] at h
  obtain ⟨_, rfl, _, -, _, -, hrecord⟩ := h
  exact recordHash_ok hrecord

omit [DecidableEq PeerId] in
lemma handleInboundMsg_ok {sha256 : Bytes → Bytes} {verify65 : PeerId → Bytes → Bytes → Option Bool}
    {registry : String → Option (RegisteredMessage PeerId Msg)} {peers : List PeerId}
    {any : Any} {signatures : List Bytes} {msg : Msg}
    (h : handleInboundMsg sha256 verify65 registry peers id (some any) signatures = .ok msg) :
    (∃ handler, registry id = some handler ∧ handler.toMsg any = some msg) ∧
    ∀ {peer}, peer ∈ peers → ∃ signature, (peer, signature) ∈ peers.zip signatures ∧
      verify65 peer (hashAny sha256 any) signature = some true := by
  simp only [handleInboundMsg, Except.bind_ok_iff, Except.okOr_ok_iff, Option.some.injEq] at h
  obtain ⟨_, rfl, _, hverify, handler, hregistry, hmsg⟩ := h
  exact ⟨⟨handler, hregistry, hmsg⟩, verifySignatures_ok hverify⟩

/-! ## The network -/

/-- What happens at the honest peers. -/
inductive Label (PeerId Msg : Type)
  /-- `signer` signs a message for `requester`, or for a broadcast of its own. -/
  | signed (signer requester : PeerId) (id : String) (any : Any)
  /-- `receiver` calls the callback for a message from `sender`. -/
  | called (receiver sender : PeerId) (id : String) (any : Any) (signatures : List Bytes)
    (msg : Msg)

/-- The setting of a broadcast. -/
structure Setting (PeerId Msg : Type) where
  peers : List PeerId
  honest : PeerId → Prop
  sha256 : Bytes → Bytes
  verify65 : PeerId → Bytes → Bytes → Option Bool
  registry : PeerId → String → Option (RegisteredMessage PeerId Msg)

variable (setting : Setting PeerId Msg)

/-- The hashes signed by each peer. -/
abbrev Net (PeerId : Type) : Type := PeerId → DedupStore PeerId

/-- The steps of the honest peers.  Requests and messages come from anyone. -/
inductive Step : Net PeerId → Label PeerId Msg → Net PeerId → Prop
  | sigRequest {net : Net PeerId} {peer requester : PeerId} {id : String} {any : Any}
      {dedup : DedupStore PeerId} (hmem : peer ∈ setting.peers) (honest : setting.honest peer)
      (hne : requester ≠ peer)
      (h : handleInboundSigRequest setting.sha256 (setting.registry peer) (net peer) requester id
        (some any) = .ok dedup) :
      Step net (.signed peer requester id any) (Function.update net peer dedup)
  | broadcast {net : Net PeerId} {peer : PeerId} {id : String} {any : Any}
      (hmem : peer ∈ setting.peers) (honest : setting.honest peer) :
      Step net (.signed peer peer id any) net
  | inboundMsg {net : Net PeerId} {peer sender : PeerId} {id : String} {any : Any}
      {signatures : List Bytes} {msg : Msg} (hmem : peer ∈ setting.peers)
      (honest : setting.honest peer) (hne : sender ≠ peer)
      (h : handleInboundMsg setting.sha256 setting.verify65 (setting.registry peer) setting.peers id
        (some any) signatures = .ok msg) :
      Step net (.called peer sender id any signatures msg) net

/-- Nobody has signed anything. -/
def start : Net PeerId := fun _ => ∅

/-- Signatures of honest peers are not forged: where one verifies, the peer has signed the hash. -/
def Unforged (tr : List (Label PeerId Msg)) : Prop :=
  ∀ past rest receiver sender id any signatures msg,
    tr = past ++ .called receiver sender id any signatures msg :: rest →
    ∀ peer signature, setting.honest peer → (peer, signature) ∈ setting.peers.zip signatures →
      setting.verify65 peer (hashAny setting.sha256 any) signature = some true →
      ∃ requester id' any', .signed peer requester id' any' ∈ past ∧
        hashAny setting.sha256 any' = hashAny setting.sha256 any

/-- The messages of a run. -/
def Hashed (tr : List (Label PeerId Msg)) (any : Any) : Prop :=
  (∃ signer requester id, Label.signed signer requester id any ∈ tr) ∨
  ∃ receiver sender id signatures msg, Label.called receiver sender id any signatures msg ∈ tr

/-- SHA-256 has no collision among the messages of a run. -/
def CollisionFree (tr : List (Label PeerId Msg)) : Prop :=
  ∀ any any', Hashed tr any → Hashed tr any' →
    hashAny setting.sha256 any = hashAny setting.sha256 any' → hashed any = hashed any'

/-- Where an honest peer has signed the bytes of a message that a callback is called for, it has
signed that message, for its sender and under its id. -/
def Attributed (tr : List (Label PeerId Msg)) : Prop :=
  ∀ receiver sender id any signatures msg signer requester id' any',
    .called receiver sender id any signatures msg ∈ tr → .signed signer requester id' any' ∈ tr →
    hashed any' = hashed any → requester = sender ∧ id' = id ∧ any' = any

/-! ## One message per sender and id -/

variable {setting} {net : Net PeerId} {tr : List (Label PeerId Msg)}

/-- A peer has signed one hash per requesting peer and id. -/
lemma signed_lookup (run : Trace (Step setting) start tr net) :
    ∀ signer requester id any, .signed signer requester id any ∈ tr → requester ≠ signer →
      (net signer).lookup (requester, id) = some (hashAny setting.sha256 any) := by
  refine run.induction (P := fun tr net => ∀ signer requester id any,
    .signed signer requester id any ∈ tr → requester ≠ signer →
      (net signer).lookup (requester, id) = some (hashAny setting.sha256 any))
    (E := fun _ => True) (by simp) ?_ (by simp)
  intro tr net label net' _ hpast hstep signer requester id any hmem hne
  rw [List.mem_append, List.mem_singleton] at hmem
  cases hstep with
  | @sigRequest peer requester' id' any' dedup _ _ _ h =>
    obtain ⟨hextends, hlook⟩ := handleInboundSigRequest_ok h
    rcases hmem with hmem | heq
    · have hold := hpast signer requester id any hmem hne
      by_cases hpeer : signer = peer
      · subst hpeer
        rw [Function.update_self]
        exact hextends _ _ hold
      · rw [Function.update_of_ne hpeer]
        exact hold
    · cases heq
      rw [Function.update_self]
      exact hlook
  | broadcast _ _ =>
    rcases hmem with hmem | heq
    · exact hpast signer requester id any hmem hne
    · cases heq
      exact absurd rfl hne
  | inboundMsg _ _ _ _ =>
    rcases hmem with hmem | heq
    · exact hpast signer requester id any hmem hne
    · cases heq

lemma called_ok (run : Trace (Step setting) start tr net) {receiver sender : PeerId}
    {any : Any} {signatures : List Bytes} {msg : Msg}
    (h : .called receiver sender id any signatures msg ∈ tr) :
    receiver ∈ setting.peers ∧ setting.honest receiver ∧ sender ≠ receiver ∧
      handleInboundMsg setting.sha256 setting.verify65 (setting.registry receiver) setting.peers id
        (some any) signatures = .ok msg := by
  obtain ⟨past, rest, rfl⟩ := List.append_of_mem h
  obtain ⟨_, _, -, hstep, -⟩ := run.split_cons
  cases hstep with
  | inboundMsg hmem honest hne hok => exact ⟨hmem, honest, hne, hok⟩

/-- If a callback is called for a message, every honest peer has signed it for its sender. -/
lemma signed_of_called (run : Trace (Step setting) start tr net) (hunforged : Unforged setting tr)
    (hcollision : CollisionFree setting tr) (hattributed : Attributed tr) {receiver sender : PeerId}
    {any : Any} {signatures : List Bytes} {msg : Msg}
    (h : .called receiver sender id any signatures msg ∈ tr) {peer : PeerId}
    (hpeer : peer ∈ setting.peers) (honest : setting.honest peer) :
    .signed peer sender id any ∈ tr := by
  obtain ⟨-, -, -, hok⟩ := called_ok run h
  obtain ⟨signature, hzip, hverify⟩ := (handleInboundMsg_ok hok).2 hpeer
  obtain ⟨past, rest, hsplit⟩ := List.append_of_mem h
  obtain ⟨requester, id', any', hsigned, hhash⟩ :=
    hunforged past rest receiver sender id any signatures msg hsplit peer signature honest hzip
      hverify
  have hsigned' : .signed peer requester id' any' ∈ tr := hsplit ▸ List.mem_append_left _ hsigned
  have hbytes := hcollision any' any (.inl ⟨_, _, _, hsigned'⟩) (.inr ⟨_, _, _, _, _, h⟩) hhash
  obtain ⟨rfl, rfl, rfl⟩ := hattributed _ _ _ _ _ _ _ _ _ _ h hsigned' hbytes
  exact hsigned'

/-- **No equivocation, if signatures are attributed.** -/
theorem called_any_eq (run : Trace (Step setting) start tr net) (hunforged : Unforged setting tr)
    (hcollision : CollisionFree setting tr) (hattributed : Attributed tr)
    {receiver receiver' sender : PeerId} {any any' : Any}
    {signatures signatures' : List Bytes} {msg msg' : Msg}
    (h : .called receiver sender id any signatures msg ∈ tr)
    (h' : .called receiver' sender id any' signatures' msg' ∈ tr) : any = any' := by
  -- the second receiver has signed both messages for the sender, so they have the same hash
  obtain ⟨hmem, honest, hne, -⟩ := called_ok run h'
  have hsigned := signed_of_called run hunforged hcollision hattributed h hmem honest
  have hsigned' := signed_of_called run hunforged hcollision hattributed h' hmem honest
  have hhash := Option.some.inj ((signed_lookup run _ _ _ _ hsigned hne).symm.trans
    (signed_lookup run _ _ _ _ hsigned' hne))
  have hbytes := hcollision any any' (.inl ⟨_, _, _, hsigned⟩) (.inl ⟨_, _, _, hsigned'⟩) hhash
  exact (hattributed _ _ _ _ _ _ _ _ _ _ h' hsigned hbytes).2.2

end Pluto.Dkg.Bcast
