import Pluto.Consensus.Availability
import Pluto.Qbft.Votes

/-!
# What a value hash binds

The hash nodes agree on is taken of the protobuf encoding of the inner message, which is computed
anew from the decoded message.  The type of the message is not part of it, and neither is the length
of the encoding.

The missing length does no harm: an encoding never ends in a way that zero bytes could continue
(`Wire.encode_append_zeros_inj`), so under collision freeness the hash binds the fields
(`DecodedValue.eq_of_hash`), and with the type the whole message.  The missing type does:
fields with the same numbers and payloads are the same bytes, whatever message they belong to.

`Instance.Inv.dispatch` follows a decision to the subscribers: the first wrapper of the COMMIT
quorum has the decided value in its map.
-/

namespace Pluto.Consensus

open Corepb Ssz

/-! ## Payloads -/

namespace DecodedValue

/-- The wire fields of the inner message. -/
def fields : DecodedValue → List Wire.Field
  | .unsignedDataSet inner => UnsignedDataSet.codec.fields inner
  | .priorityResult inner => PriorityResult.codec.fields inner

/-- The canonical encoding of the inner message. -/
def encoded (decoded : DecodedValue) : Bytes := Wire.encode decoded.fields

def typeUrl : DecodedValue → String
  | .unsignedDataSet _ => UnsignedDataSet.named.typeUrl
  | .priorityResult _ => PriorityResult.named.typeUrl

/-- A message with default content. -/
def IsEmpty : DecodedValue → Prop
  | .unsignedDataSet inner => inner = ⟨.empty⟩
  | .priorityResult inner => inner = ⟨[], []⟩

variable {sha256 : Bytes → HashRoot} {a b : DecodedValue} {hash : HashRoot}

lemma hashBytes_of_hash (h : a.hash sha256 = .ok hash) : hashBytes sha256 a.encoded = .ok hash := by
  cases a with
  | unsignedDataSet inner => exact hashBytes_of_hashProto h
  | priorityResult inner => exact hashBytes_of_hashProto h

/-- Within one type the fields determine the message. -/
lemma eq_of_fields (htype : a.typeUrl = b.typeUrl) (hfields : a.fields = b.fields) : a = b := by
  cases a with
  | unsignedDataSet inner =>
    cases b with
    | unsignedDataSet inner' => exact congrArg _ (UnsignedDataSet.codec.fields_injective hfields)
    | priorityResult inner' => exact absurd htype.symm typeUrl_ne
  | priorityResult inner =>
    cases b with
    | unsignedDataSet inner' => exact absurd htype typeUrl_ne
    | priorityResult inner' => exact congrArg _ (PriorityResult.codec.fields_injective hfields)

lemma isEmpty_of_fields (h : a.fields = []) : a.IsEmpty := by
  cases a with
  | unsignedDataSet inner => exact UnsignedDataSet.codec.fields_injective h
  | priorityResult inner => exact PriorityResult.codec.fields_injective h

variable {S : Set Bytes}

/-- **The hash binds the fields**, and with the type the message. -/
theorem eq_of_hash (hS : CollisionFree sha256 S) (ha : a.encoded ∈ S) (hb : b.encoded ∈ S)
    (hash_a : a.hash sha256 = .ok hash) (hash_b : b.hash sha256 = .ok hash) :
    a.encoded = b.encoded ∧ (a.typeUrl = b.typeUrl → a = b) := by
  have hfields : a.fields = b.fields := by
    apply hS.fields_eq ha hb
    exact (hashBytes_of_hash hash_a).trans (hashBytes_of_hash hash_b).symm
  exact ⟨congrArg Wire.encode hfields, fun htype => eq_of_fields htype hfields⟩

/-- **Only default content has the null hash.** -/
theorem isEmpty_of_hash_zero (hS : CollisionFree sha256 S) (ha : a.encoded ∈ S)
    (h : a.hash sha256 = .ok .zero) : a.IsEmpty := by
  apply isEmpty_of_fields
  apply hS.insert_nil.fields_eq (.inr ha) (.inl Wire.encode_nil)
  rw [Wire.encode_nil, hashBytes_nil]
  exact hashBytes_of_hash h

end DecodedValue

lemma typeUrl_of_decodeSupportedAny {dec : Decoder} {value : Any} {decoded : DecodedValue}
    (h : decodeSupportedAny dec value = .ok decoded) : decoded.typeUrl = value.typeUrl := by
  unfold decodeSupportedAny at h
  split_ifs at h with hset hresult
  · split at h <;> cases h
    exact hset.symm
  · split at h <;> cases h
    exact hresult.symm

/-! ## Decisions -/

/-- The callback finds the value in the map of the first wrapper. -/
lemma Definition.decide_of_resolves {sha256 : Bytes → HashRoot} {dec : Decoder} {head : MsgHead}
    {heads : List MsgHead} {hash : HashRoot} (hbound : Bound sha256 dec head.values)
    (hresolves : Resolves head.values hash) (hne : hash ≠ .zero) :
    ∃ decoded, Definition.decide dec (head :: heads) hash = some decoded ∧
      decoded.hash sha256 = .ok hash := by
  obtain ⟨value, hvalue⟩ := Option.isSome_iff_exists.mp (hresolves.resolve_left hne)
  obtain ⟨decoded, hdecoded, hhash⟩ := hbound hash value hvalue
  exact ⟨decoded, by simp [Definition.decide, hvalue, hdecoded], hhash⟩

lemma Downcast.mem_heads {delivered : List Msg} {j : Qbft.Msg HashRoot} {head : MsgHead}
    (h : Downcast delivered j head) :
    j.value = head.valueHash ∧ ∃ m ∈ delivered, head ∈ m.heads := by
  obtain ⟨m, hm, ⟨rfl, rfl⟩ | ⟨hhead, rfl⟩⟩ := h
  · exact ⟨rfl, m, hm, List.mem_cons_self⟩
  · exact ⟨rfl, m, hm, List.mem_cons_of_mem _ hhead⟩

section Ok

variable {sha256 : Bytes → HashRoot} {dec : Decoder} {m : Msg} {head head' : MsgHead}

lemma Msg.Ok.bound_head (hm : m.Ok sha256 dec) (hhead : head ∈ m.heads) :
    Bound sha256 dec head.values := by
  rw [hm.shared head hhead]
  exact hm.bound

/-- The map of a wrapper resolves the hash of every other one of the message. -/
lemma Msg.Ok.resolves_head (hm : m.Ok sha256 dec) (hhead : head ∈ m.heads)
    (hhead' : head' ∈ m.heads) : Resolves head.values head'.valueHash := by
  rw [hm.shared head hhead]
  exact (hm.resolves head' hhead').1

end Ok

namespace Instance

variable {SK PK : Type} {r : Instance SK PK} {st : RunState} {hash : HashRoot}
  {heads : List MsgHead}

/-- The first wrapper of the COMMIT quorum of a decision belongs to a message that the core has
received, and whose map resolves the decided hash. -/
lemma Inv.decides (h : r.Inv st) (hd : r.Decides st hash heads) :
    ∃ head rest, heads = head :: rest ∧ Bound r.crypto.sha256 r.decoder head.values ∧
      Resolves head.values hash := by
  obtain ⟨m, queue, order, compared, sent, qcommit, queued, running, free, hout, hwrappers⟩ := hd
  have hok : ∀ m' ∈ m :: st.delivered, m'.Ok r.crypto.sha256 r.decoder := by
    intro m' hm'
    refine (h.messages m' ?_).1
    rcases List.mem_cons.mp hm' with rfl | hold
    · simp [RunState.InFlight, queued]
    · simp [RunState.InFlight, hold]
  have htrans := machine_trans r st.core.state (.receive m.toWire order compared sent)
  rw [hout] at htrans
  obtain ⟨wire, _, _, _, buffer, rule, hev, rules, acc, rfl, -⟩ := htrans.decide_inv
  cases hev
  have hjust := acc.justified
  cases acc.classified with
  | commits type _ quorum mem =>
    have htype : m.type ≠ .decided := by
      intro heq
      cases type.symm.trans heq
    rw [QCommitOf, if_neg htype] at hwrappers
    cases hwrappers with
    | nil => exact absurd (r.definition.quorumCount_pos.trans_le quorum.length) (by simp)
    | @cons q head qs rest hq _ =>
      obtain ⟨hvalue, m', hm', hhead⟩ := hq.mem_heads
      have hdecided : head.valueHash = m.toWire.msg.value :=
        hvalue.symm.trans (mem q List.mem_cons_self).2.2.2
      refine ⟨head, rest, rfl, (hok m' hm').bound_head hhead, ?_⟩
      rw [← hdecided]
      exact (hok m' hm').resolves_head hhead hhead
  | decided type =>
    have htype : m.type = .decided := type
    rw [QCommitOf, if_pos htype] at hwrappers
    rw [Qbft.isJustified_decided type] at hjust
    have hquorum := (Qbft.isJustifiedDecided_eq_true.mp hjust).2
    obtain ⟨c, hc⟩ :=
      List.exists_mem_of_length_pos (r.definition.quorumCount_pos.trans_le hquorum.length)
    obtain ⟨commit, hcommit, -⟩ := List.mem_map.mp (Qbft.mem_filterByRoundAndValue hc).1
    obtain ⟨head, rest, heq⟩ := List.exists_cons_of_ne_nil (List.ne_nil_of_mem hcommit)
    have hm := hok m List.mem_cons_self
    have hhead : head ∈ m.heads := List.mem_cons_of_mem _ (by simp [heq])
    refine ⟨head, rest, hwrappers.trans heq, hm.bound_head hhead, ?_⟩
    exact hm.resolves_head hhead List.mem_cons_self
  | _ => simp at rules

/-- **What a decision dispatches**: a value with the decided hash. -/
theorem Inv.dispatch (h : r.Inv st) (hd : r.Decides st hash heads) (hne : hash ≠ .zero) :
    ∃ decoded, Definition.decide r.decoder heads hash = some decoded ∧
      decoded.hash r.crypto.sha256 = .ok hash := by
  obtain ⟨head, rest, rfl, hbound, hresolves⟩ := h.decides hd
  exact Definition.decide_of_resolves hbound hresolves hne

end Instance

end Pluto.Consensus
