import Pluto.Lib.MachineNetwork
import Pluto.Qbft.Votes

/-!
# Processes that exchange messages

A system is a definition together with the set of Byzantine processes, of which there are at most
`faulty()`.  The honest processes run the core; their histories are reachable in a
`MachineNetwork` in which any event can happen to them at any time, except that a message reaches
them only if it is *deliverable*: the message and each message of its justification names as its
source a Byzantine process, or an honest one that really broadcast it.

This is what the signatures of the adapter give and no more.  The network may delay, reorder,
duplicate and drop; Byzantine processes may send anything under their own name and may combine
signed messages with any justifications.
-/

namespace Pluto.Qbft

variable {V : Type} [DecidableEq V] [Inhabited V]

/-- The processes of one instance, some of them Byzantine. -/
structure System where
  d : Definition
  byzantine : Finset ℤ
  byz_mem : ∀ p ∈ byzantine, 0 ≤ p ∧ p < d.nodes
  byz_card : (byzantine.card : ℤ) ≤ d.faulty

/-- What happened to each process. -/
abbrev Net (V : Type) : Type := ℤ → List (Event V)

namespace System

variable (S : System)

/-- A process of the system that runs the core. -/
def Honest (p : ℤ) : Prop := 0 ≤ p ∧ p < S.d.nodes ∧ p ∉ S.byzantine

/-- The process has broadcast the request. -/
def Broadcasts (net : Net V) (p : ℤ) (req : BroadcastRequest V) : Prop :=
  ∃ en ∈ logOf S.d p (net p), en.out = some (.broadcast req)

/-- The source of the message is Byzantine, or is honest and has broadcast it.  The signature
covers the message without its justification. -/
def Authentic (net : Net V) (m : Msg V) : Prop :=
  m.source ∈ S.byzantine ∨
    S.Honest m.source ∧ ∃ req, S.Broadcasts net m.source req ∧ req.toMsg.strip = m.strip

/-- The message can reach an honest process. -/
def Deliverable (net : Net V) (m : Msg V) : Prop :=
  S.Authentic net m ∧ ∀ j ∈ m.justification, j.justification = [] ∧ S.Authentic net j

/-- The honest processes and the messages that can reach them. -/
def network (V : Type) [DecidableEq V] [Inhabited V] :
    MachineNetwork ℤ (State V) (Event V) (Output V) Stop where
  machine p := machine S.d p
  correct := S.Honest
  enabled net _ e := e.Receives (S.Deliverable net)

/-- What can have happened. -/
abbrev Reachable (net : Net V) : Prop := (S.network V).Reachable net

/-- The processes as a committee: two quorums share an honest process. -/
def committee : Committee ℤ where
  members := (Finset.range S.d.nodes.toNat).image fun k : ℕ => (k : ℤ)
  faulty := S.byzantine
  quorum := S.d.quorumCount
  overlap := by
    have h1 := S.byz_card
    have h2 := S.d.nodes_add_faulty_lt
    have h3 := S.d.nodes_pos
    rw [Finset.card_image_of_injective _ Nat.cast_injective, Finset.card_range]
    omega

variable {S}

lemma mem_members {p : ℤ} : p ∈ S.committee.members ↔ 0 ≤ p ∧ p < S.d.nodes := by
  simp only [committee, Finset.mem_image, Finset.mem_range]
  constructor
  · rintro ⟨k, hk, rfl⟩
    omega
  · rintro ⟨h0, hlt⟩
    exact ⟨p.toNat, by omega, by omega⟩

lemma card_members : S.committee.members.card = S.d.nodes.toNat := by
  rw [committee, Finset.card_image_of_injective _ Nat.cast_injective, Finset.card_range]

lemma correct_committee {p : ℤ} : S.committee.Correct p ↔ S.Honest p := by
  rw [Committee.Correct, mem_members, and_assoc]
  rfl

/-! ## Deciding what is deliverable -/

/-- The step broadcasts the message, whatever its justification. -/
def sends (m : Msg V) (en : Entry V) : Bool :=
  match en.out with
  | some (.broadcast req) =>
    req.type = m.type && req.source = m.source && req.round = m.round && req.value = m.value &&
      req.preparedRound = m.preparedRound && req.preparedValue = m.preparedValue
  | _ => false

omit [Inhabited V] in
lemma sends_iff {m : Msg V} {en : Entry V} :
    sends m en = true ↔ ∃ req, en.out = some (.broadcast req) ∧ req.toMsg.strip = m.strip := by
  unfold sends
  split
  · rename_i req hout
    simp [hout, BroadcastRequest.toMsg, Msg.strip, and_assoc]
  · rename_i hno
    refine ⟨fun h => by simp at h, ?_⟩
    rintro ⟨req, hout, -⟩
    exact absurd hout (hno req)

instance (p : ℤ) : Decidable (S.Honest p) :=
  inferInstanceAs (Decidable (0 ≤ p ∧ p < S.d.nodes ∧ p ∉ S.byzantine))

instance (net : Net V) : DecidablePred (S.Authentic net) := fun m =>
  decidable_of_iff (m.source ∈ S.byzantine ∨
      S.Honest m.source ∧ ∃ en ∈ logOf S.d m.source (net m.source), sends m en = true) <| by
    unfold Authentic Broadcasts
    refine or_congr_right (and_congr_right fun _ => ?_)
    constructor
    · rintro ⟨en, hen, hsends⟩
      obtain ⟨req, hout, hstrip⟩ := sends_iff.mp hsends
      exact ⟨req, ⟨en, hen, hout⟩, hstrip⟩
    · rintro ⟨req, ⟨en, hen, hout⟩, hstrip⟩
      exact ⟨en, hen, sends_iff.mpr ⟨req, hout, hstrip⟩⟩

instance (net : Net V) : DecidablePred (S.Deliverable net) := fun m =>
  inferInstanceAs (Decidable (S.Authentic net m ∧
    ∀ j ∈ m.justification, j.justification = [] ∧ S.Authentic net j))

instance (p : ℤ) : Decidable ((S.network V).correct p) := inferInstanceAs (Decidable (S.Honest p))

instance (net : Net V) (p : ℤ) (e : Event V) : Decidable ((S.network V).enabled net p e) :=
  inferInstanceAs (Decidable (e.Receives (S.Deliverable net)))

/-! ## Authentic messages -/

section Authenticity

variable {net net' : Net V} {m : Msg V}

lemma Broadcasts.mono (hle : MachineNetwork.Extends net net') {p : ℤ} {req : BroadcastRequest V}
    (h : S.Broadcasts net p req) : S.Broadcasts net' p req := by
  obtain ⟨en, hen, hout⟩ := h
  exact ⟨en, MachineNetwork.Logged.mono (N := S.network V) hle hen, hout⟩

lemma Authentic.mono (hle : MachineNetwork.Extends net net') (h : S.Authentic net m) :
    S.Authentic net' m :=
  h.imp_right fun ⟨hh, req, hreq, hstrip⟩ => ⟨hh, req, hreq.mono hle, hstrip⟩

lemma Deliverable.mono (hle : MachineNetwork.Extends net net') (h : S.Deliverable net m) :
    S.Deliverable net' m :=
  ⟨h.1.mono hle, fun j hj => ⟨(h.2 j hj).1, (h.2 j hj).2.mono hle⟩⟩

lemma Deliverable.all (h : S.Deliverable net m) : m.All (S.Authentic net) :=
  ⟨h.1, fun j hj => (h.2 j hj).2⟩

/-- Authentic messages name a process of the system. -/
lemma Authentic.source_mem (h : S.Authentic net m) : m.source ∈ S.committee.members := by
  rw [mem_members]
  rcases h with hbyz | ⟨hh, -⟩
  · exact S.byz_mem _ hbyz
  · exact ⟨hh.1, hh.2.1⟩

/-- An authentic message of a process that is not Byzantine was broadcast by it. -/
lemma Authentic.exists_req (h : S.Authentic net m) (hc : S.committee.Correct m.source) :
    ∃ en ∈ logOf S.d m.source (net m.source), ∃ req, en.out = some (.broadcast req) ∧
      req.type = m.type ∧ req.round = m.round ∧ req.value = m.value ∧
      req.preparedRound = m.preparedRound ∧ req.preparedValue = m.preparedValue := by
  rcases h with hbyz | ⟨-, req, ⟨en, hen, hout⟩, hstrip⟩
  · exact absurd hbyz hc.2
  · obtain ⟨h1, -, h3, h4, h5, h6, -⟩ := Msg.mk.inj hstrip
    exact ⟨en, hen, req, hout, h1, h3, h4, h5, h6⟩

lemma Authentic.exists_votes (h : S.Authentic net m) (hc : S.committee.Correct m.source) :
    ∃ en ∈ logOf S.d m.source (net m.source), Votes m.type en m.round m.value := by
  obtain ⟨en, hen, req, hout, h1, h2, h3, -⟩ := h.exists_req hc
  exact ⟨en, hen, req, hout, h1, h2, h3⟩

/-- The sources of an authentic message quorum are a quorum of the committee. -/
lemma isQuorum_of_authentic {msgs : List (Msg V)} (hq : MsgQuorum S.d msgs)
    (ha : ∀ m ∈ msgs, S.Authentic net m) :
    S.committee.IsQuorum (msgs.map Msg.source).toFinset := by
  refine Committee.isQuorum_toFinset hq.nodup ?_ (by simpa [committee] using hq.length)
  intro p hp
  obtain ⟨m, hm, rfl⟩ := List.mem_map.mp hp
  exact (ha m hm).source_mem

/-- More distinct sources than there are Byzantine processes contain an honest one. -/
lemma exists_honest_of_length {msgs : List (Msg V)} (hnd : (msgs.map Msg.source).Nodup)
    (hlen : S.d.faultyPlusOneCount ≤ msgs.length) (ha : ∀ m ∈ msgs, S.Authentic net m) :
    ∃ m ∈ msgs, S.committee.Correct m.source := by
  have hcard : S.committee.faulty.card < (msgs.map Msg.source).toFinset.card := by
    have h1 := S.byz_card
    have h2 := S.d.faulty_nonneg
    rw [List.toFinset_card_of_nodup hnd, List.length_map]
    unfold Definition.faultyPlusOneCount at hlen
    show S.byzantine.card < msgs.length
    omega
  have hsub : (msgs.map Msg.source).toFinset ⊆ S.committee.members := by
    intro p hp
    obtain ⟨m, hm, rfl⟩ := List.mem_map.mp (List.mem_toFinset.mp hp)
    exact (ha m hm).source_mem
  obtain ⟨p, hp, hc⟩ := Committee.exists_correct_of_card hsub hcard
  obtain ⟨m, hm, rfl⟩ := List.mem_map.mp (List.mem_toFinset.mp hp)
  exact ⟨m, hm, hc⟩

end Authenticity

/-! ## Reachable histories -/

section Reach

variable {net : Net V}

/-- Whatever was delivered is deliverable still. -/
lemma Reachable.receives (hr : S.Reachable net) (p : ℤ) :
    ∀ e ∈ net p, e.Receives (S.Deliverable net) := by
  intro e he
  refine (MachineNetwork.Reachable.enabled_of_mem ?_ hr p e he).2
  intro h h' p e hle (hen : e.Receives (S.Deliverable h))
  exact hen.mono fun m hm => hm.mono hle

lemma Reachable.receives_authentic (hr : S.Reachable net) (p : ℤ) :
    ∀ e ∈ net p, e.Receives (Msg.All (S.Authentic net)) := fun e he =>
  (hr.receives p e he).mono fun _ hm => hm.all

/-- Every stored message is authentic. -/
lemma Reachable.holds (hr : S.Reachable net) {p : ℤ} {en : Entry V}
    (hen : en ∈ logOf S.d p (net p)) : en.before.Holds (S.Authentic net) :=
  (exec_holds (hr.receives_authentic p)).2 en hen

/-- The message a logged step received, as the log's process sees it. -/
lemma Reachable.msg_authentic (hr : S.Reachable net) {p : ℤ} {en : Entry V}
    (hen : en ∈ logOf S.d p (net p)) {wire : WireMsg V} {order : HashOrder V}
    {compared sent : Except QbftError Unit} (hev : en.event = .receive wire order compared sent) :
    wire.msg.All (S.Authentic net) := by
  have h := hr.receives_authentic p en.event (LoggedMachine.mem_log_event hen)
  rw [hev] at h
  exact h

end Reach

end System

end Pluto.Qbft
