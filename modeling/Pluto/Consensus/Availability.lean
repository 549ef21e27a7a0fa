import Pluto.Consensus.Runner

/-!
# Values are available when they are broadcast

Every hash on its way to the core has its value in the store, or in the channel the store drains
before a lookup.  For a message this is because `process_receives` caches its values before it
forwards the message, for a message sent to oneself because its values come from the store, and for
the local value because `propose` sends the value first.  The core makes up no hash of its own
(`Qbft.Trans.values`), so what it broadcasts is available too, and stays so while the broadcast
resolves its hashes.

`Instance.Inv` says this of all channels at once.  It is proved for every action of every task; an
action that moves a message or a hash only has to say where it comes from.
-/

namespace Pluto.Consensus

open Corepb Ssz

/-! ## What is on its way to the core -/

/-- A wrapper can be recovered from the message. -/
def Downcastable (delivered : List Msg) (j : Qbft.Msg HashRoot) : Prop :=
  ∃ head, Downcast delivered j head

/-- The hashes on their way to the core. -/
def RunState.HashInFlight (st : RunState) (hash : HashRoot) : Prop :=
  st.propose = .sendHash hash ∨ st.hash = some hash ∨ st.hashBridge = some hash ∨
    st.coreHash = some hash

/-- The messages on their way to the core, and those it has got. -/
def RunState.InFlight (st : RunState) (m : Msg) : Prop :=
  st.receive = .forwarding m ∨ m ∈ st.selfSends ∨ m ∈ st.innerRecv ∨ st.recvBridge = some m ∨
    m ∈ st.coreRecv ∨ m ∈ st.delivered

section Basics

variable {P : HashRoot → Prop} {m : Msg} {delivered : List Msg}

lemma Msg.Hashes.toWire (hm : m.Hashes P) : m.toWire.msg.All (Qbft.Msg.Values P) := by
  obtain ⟨hhead, hjust⟩ := List.forall_mem_cons.mp hm
  refine ⟨hhead, fun j hj => ?_⟩
  obtain ⟨head, hmem, rfl⟩ := List.mem_map.mp hj
  exact hjust head hmem

lemma Downcast.hashes {j : Qbft.Msg HashRoot} {head : MsgHead} (h : Downcast delivered j head)
    (hall : ∀ m ∈ delivered, m.Hashes P) : head.Hashes P := by
  obtain ⟨m, hm, ⟨-, rfl⟩ | ⟨hhead, -⟩⟩ := h
  · exact hall m hm _ List.mem_cons_self
  · exact hall m hm _ (List.mem_cons_of_mem _ hhead)

lemma downcastable_toWire (h : m ∈ delivered) : m.toWire.msg.All (Downcastable delivered) := by
  refine ⟨⟨_, m, h, .inl ⟨rfl, rfl⟩⟩, fun j hj => ?_⟩
  obtain ⟨head, hmem, rfl⟩ := List.mem_map.mp hj
  exact ⟨head, m, h, .inr ⟨hmem, rfl⟩⟩

lemma Downcastable.cons {j : Qbft.Msg HashRoot} (h : Downcastable delivered j) :
    Downcastable (m :: delivered) j := by
  obtain ⟨head, m', hm', hcase⟩ := h
  exact ⟨head, m', List.mem_cons_of_mem _ hm', hcase⟩

/-- The downcasts of a justification whose messages can all be downcast. -/
lemma exists_downcast {js : List (Qbft.Msg HashRoot)} (h : ∀ j ∈ js, Downcastable delivered j) :
    ∃ heads, List.Forall₂ (Downcast delivered) js heads := by
  induction js with
  | nil => exact ⟨[], .nil⟩
  | cons j js ih =>
    obtain ⟨⟨head, hhead⟩, hrest⟩ := List.forall_mem_cons.mp h
    obtain ⟨heads, hheads⟩ := ih hrest
    exact ⟨head :: heads, .cons hhead hheads⟩

lemma forall₂_downcast_hashes {js : List (Qbft.Msg HashRoot)} {heads : List MsgHead}
    (h : List.Forall₂ (Downcast delivered) js heads) (hall : ∀ m ∈ delivered, m.Hashes P) :
    ∀ head ∈ heads, head.Hashes P := by
  induction h with
  | nil => exact nofun
  | cons hhead _ ih => exact List.forall_mem_cons.mpr ⟨hhead.hashes hall, ih⟩

/-- What `broadcast` resolves, from the request and from the downcast justification. -/
lemma forall_broadcastHashes {req : Qbft.BroadcastRequest HashRoot} {heads : List MsgHead}
    (hreq : ∀ hash ∈ req.values, P hash) (hheads : ∀ head ∈ heads, head.Hashes P) :
    ∀ hash ∈ broadcastHashes req heads, P hash := by
  obtain ⟨hvalue, hprepared⟩ := List.forall_mem_cons.mp hreq
  refine List.forall_mem_cons.mpr ⟨hvalue, List.forall_mem_cons.mpr ⟨?_, fun hash hhash => ?_⟩⟩
  · exact hprepared _ (List.mem_singleton_self _)
  · obtain ⟨head, hmem, hpair⟩ := List.mem_flatMap.mp hhash
    rcases List.mem_pair.mp hpair with rfl | rfl
    · exact (hheads head hmem).1
    · exact (hheads head hmem).2

end Basics

/-! ## The invariant -/

namespace Instance

variable {SK PK : Type} (r : Instance SK PK)

/-- The store has the value of the hash, or gets it at the next lookup. -/
def Available (store : ValueStore) : HashRoot → Prop := Consensus.Available r.crypto.sha256 store

/-- The invariant of a broadcast under way. -/
structure BroadcastInv (store : ValueStore) (delivered : List Msg) (b : Broadcasting) : Prop where
  supplies : b.event.Supplies (r.Available store)
  receives : b.event.Receives (Qbft.Msg.All (Downcastable delivered))
  hashes : ∀ hash ∈ broadcastHashes b.request b.justification, r.Available store hash
  pending : b.pending ⊆ broadcastHashes b.request b.justification
  bound : Bound r.crypto.sha256 r.decoder b.values
  found : ∀ hash, (b.values.lookup hash).isSome → r.Available store hash

/-- **The invariant of an instance.** -/
structure Inv (st : RunState) : Prop where
  store : st.store.Ok r.crypto.sha256 r.decoder
  proposal : ∀ value hash, st.propose = .sendValue value hash → Proposal r.crypto.sha256 value hash
  -- After the core has stopped, a proposal whose value was refused may still send its hash.
  hashes : st.core.stop = none → ∀ hash, st.HashInFlight hash → r.Available st.store hash
  queued : ∀ m ∈ st.recv, m.Ok r.crypto.sha256 r.decoder
  messages : ∀ m, st.InFlight m → m.Ok r.crypto.sha256 r.decoder ∧ m.Hashes (r.Available st.store)
  values : st.core.state.Values (r.Available st.store)
  held : st.core.state.Holds (Downcastable st.delivered)
  broadcasting : ∀ b, st.broadcasting = some b → r.BroadcastInv st.store st.delivered b
  error : st.transportError ≠ some .unknownValue

variable {r} {st st' : RunState}

lemma available_zero (store : ValueStore) : r.Available store default := .inl rfl

lemma inv_init : r.Inv r.init where
  store := ⟨bound_empty, nofun⟩
  proposal := nofun
  hashes := by
    rintro - hash (h | h | h | h) <;> cases h
  queued := nofun
  messages := by
    rintro m (h | h | h | h | h | h) <;> cases h
  values := Qbft.machine_init_values (available_zero _) _ _
  held := Qbft.machine_init_holds _ _ _
  broadcasting := fun b hb => absurd hb.symm (Option.some_ne_none b)
  error := nofun

/-- A store in which everything that was available still is. -/
lemma Inv.setStore (h : r.Inv st) {store : ValueStore}
    (hok : store.Ok r.crypto.sha256 r.decoder)
    (hmono : ∀ hash, r.Available st.store hash → r.Available store hash) :
    r.Inv { st with store := store } :=
  { h with
    store := hok
    hashes := fun hrun hash hmem => hmono hash (h.hashes hrun hash hmem)
    messages := fun m hm => (h.messages m hm).imp_right (Msg.Hashes.mono hmono)
    values := h.values.mono hmono
    broadcasting := fun b hb =>
      { h.broadcasting b hb with
        supplies := (h.broadcasting b hb).supplies.mono hmono
        hashes := fun hash hhash => hmono hash ((h.broadcasting b hb).hashes hash hhash)
        found := fun hash hhash => hmono hash ((h.broadcasting b hb).found hash hhash) } }

lemma Inv.setError (h : r.Inv st) {e : TransportError} (he : e ≠ .unknownValue) :
    r.Inv { st with transportError := some e } :=
  { h with error := fun heq => he (Option.some.inj heq) }

/-- The call of a broadcast is over. -/
lemma Inv.endBroadcast (h : r.Inv st) : r.Inv { st with broadcasting := none } :=
  { h with broadcasting := fun b hb => absurd hb.symm (Option.some_ne_none b) }

lemma Inv.setCore (h : r.Inv st) {core : LoggedMachine.Run (Qbft.State HashRoot)
      (Qbft.Event HashRoot) (Qbft.Output HashRoot) Qbft.Stop}
    (hstop : core.stop = none → st.core.stop = none)
    (hvalues : core.state.Values (r.Available st.store))
    (hheld : core.state.Holds (Downcastable st.delivered)) :
    r.Inv { st with core := core } :=
  { h with
    hashes := fun hrun => h.hashes (hstop hrun)
    values := hvalues
    held := hheld }

lemma machine_trans (r : Instance SK PK) (s : Qbft.State HashRoot) (e : Qbft.Event HashRoot) :
    Qbft.Trans r.definition r.peerIdx.toInt s e (r.machine.step s e).state
      (r.machine.step s e).out :=
  Qbft.step_trans r.definition r.peerIdx.toInt s e

variable {e : Qbft.Event HashRoot}

/-- The core takes a turn, or ends the one it was in. -/
lemma Inv.act (h : r.Inv st) (hs : e.Supplies (r.Available st.store))
    (hr : e.Receives (Qbft.Msg.All (Downcastable st.delivered))) :
    r.Inv { st with core := r.machine.act st.core e } := by
  have htrans := machine_trans r st.core.state e
  cases hstop : st.core.stop with
  | some c =>
    rw [LoggedMachine.act_of_stopped hstop]
    exact h.setCore id h.values h.held
  | none =>
    rw [LoggedMachine.act_of_running hstop]
    apply h.setCore (fun _ => hstop)
    · exact (htrans.values (available_zero _) hs h.values).1
    · exact (htrans.holds hr h.held).1

/-! ## Every action keeps it -/

/-- Taking an input or a message out of its channel: the event brings in available hashes only. -/
lemma Inv.arm (h : r.Inv st) (harm : Arm st e st')
    (running : st.core.stop = none) (free : st.broadcasting = none) :
    r.Inv st' ∧ st'.core = st.core ∧ e.Supplies (r.Available st'.store) ∧
      e.Receives (Qbft.Msg.All (Downcastable st'.delivered)) := by
  cases harm with
  | @input hash sent held =>
    have hhash : r.Available st.store hash :=
      h.hashes running hash (by simp [RunState.HashInFlight, held])
    refine ⟨{ h with hashes := ?_ }, rfl, hhash, trivial⟩
    rintro - other (hmem | hmem | hmem | hmem)
    · exact h.hashes running other (.inl hmem)
    · exact h.hashes running other (.inr (.inl hmem))
    · exact h.hashes running other (.inr (.inr (.inl hmem)))
    · cases hmem
  | @receive m rest order compared sent queued =>
    have hm : st.InFlight m := by simp [RunState.InFlight, queued]
    refine ⟨{ h with messages := ?_, held := ?_, broadcasting := ?_ }, rfl,
      (h.messages m hm).2.toWire, downcastable_toWire List.mem_cons_self⟩
    · intro other hother
      apply h.messages other
      simp only [RunState.InFlight, List.mem_cons, queued] at hother ⊢
      tauto
    · exact h.held.mono fun _ => Downcastable.cons
    · intro b hb
      exact absurd (free.symm.trans hb) nofun
  | inputClosed | receiveClosed | timer sent | timerClosed | canceled =>
    exact ⟨h, rfl, trivial, trivial⟩

/-- A turn of the core can call `broadcast` only with available hashes and a justification that can
be downcast. -/
lemma Inv.called (h : r.Inv st) {req : Qbft.BroadcastRequest HashRoot}
    (hs : e.Supplies (r.Available st.store))
    (hr : e.Receives (Qbft.Msg.All (Downcastable st.delivered)))
    (hcall : (r.machine.step st.core.state e).out = some (.broadcast req)) :
    (∀ hash ∈ req.values, r.Available st.store hash) ∧
      ∀ j ∈ req.justification.getD [], Downcastable st.delivered j := by
  have htrans := machine_trans r st.core.state e
  exact ⟨(htrans.values (available_zero _) hs h.values).2 req hcall,
    (htrans.holds hr h.held).2 _ hcall⟩

/-- `broadcast` starts: nothing is resolved yet. -/
lemma Inv.broadcast (h : r.Inv st) {req : Qbft.BroadcastRequest HashRoot}
    {heads : List MsgHead} (hs : e.Supplies (r.Available st.store))
    (hr : e.Receives (Qbft.Msg.All (Downcastable st.delivered)))
    (hcall : (r.machine.step st.core.state e).out = some (.broadcast req))
    (hdown : List.Forall₂ (Downcast st.delivered) (req.justification.getD []) heads) :
    r.Inv { st with
      broadcasting := some ⟨e, req, heads, broadcastHashes req heads, ∅, false⟩ } := by
  have hheads : ∀ head ∈ heads, head.Hashes (r.Available st.store) := by
    apply forall₂_downcast_hashes hdown
    intro m hm
    exact (h.messages m (by simp [RunState.InFlight, hm])).2
  have hall := forall_broadcastHashes (h.called hs hr hcall).1 hheads
  refine { h with broadcasting := ?_ }
  rintro b ⟨rfl⟩
  exact
    { supplies := hs
      receives := hr
      hashes := hall
      pending := fun _ => id
      bound := bound_empty
      found := by simp }

variable {b : Broadcasting}

/-- A lookup of a broadcast succeeds. -/
lemma Inv.lookup (h : r.Inv st) {hash : HashRoot} {rest : List HashRoot}
    (call : st.broadcasting = some b) (next : b.pending = hash :: rest) (nonZero : hash ≠ .zero) :
    ∃ value, (st.store.getValue r.crypto.sha256 hash).2 = .ok value ∧
      Binds r.crypto.sha256 r.decoder hash value := by
  have hb := h.broadcasting b call
  have hmem : hash ∈ b.pending := by simp [next]
  exact h.store.getValue_ok (hb.hashes hash (hb.pending hmem)) nonZero

/-- What a lookup leaves behind. -/
lemma Inv.found (h : r.Inv st) {hash : HashRoot} {rest : List HashRoot}
    {store : ValueStore} {value : Any} (call : st.broadcasting = some b)
    (next : b.pending = hash :: rest) (nonZero : hash ≠ .zero)
    (got : st.store.getValue r.crypto.sha256 hash = (store, .ok value)) :
    r.Inv { st with
      store := store
      broadcasting := some { b with pending := rest, values := b.values.insert hash value } } := by
  obtain ⟨found, hfound, hbinds⟩ := h.lookup call next nonZero
  obtain rfl : store = (st.store.getValue r.crypto.sha256 hash).1 := by rw [got]
  obtain rfl : found = value := by
    rw [got] at hfound
    exact (Except.ok.inj hfound).symm
  have hstore := h.setStore (h.store.getValue hash) fun _ => h.store.available_getValue hash
  have hb := hstore.broadcasting b call
  have hsub : hash :: rest ⊆ broadcastHashes b.request b.justification := next ▸ hb.pending
  refine { hstore with broadcasting := ?_ }
  rintro _ ⟨rfl⟩
  refine
    { hb with
      pending := (List.cons_subset.mp hsub).2
      bound := hb.bound.insert hbinds
      found := fun other hother => ?_ }
  by_cases heq : other = hash
  · subst heq
    exact hb.hashes _ (List.cons_subset.mp hsub).1
  · rw [AList.lookup_insert_ne heq] at hother
    exact hb.found other hother

lemma Inv.resume (h : r.Inv st) (call : st.broadcasting = some b)
    (sent : Except Qbft.QbftError Unit) : r.Inv (r.resume st b sent) := by
  have hb := h.broadcasting b call
  exact h.endBroadcast.act (hb.supplies.withSent sent) (hb.receives.withSent sent)

lemma Inv.fail (h : r.Inv st) (call : st.broadcasting = some b)
    {e : TransportError} (he : e ≠ .unknownValue) : r.Inv (r.fail st b e) :=
  (h.resume call (.error .contextCanceled)).setError he

/-- A message a broadcast has made carries the values the broadcast has found. -/
lemma Inv.create (h : r.Inv st) {m : Msg} (call : st.broadcasting = some b)
    (made : createMsg r.crypto r.duty r.privkey b.request b.justification b.values = .ok m) :
    m.Ok r.crypto.sha256 r.decoder ∧ m.Hashes (r.Available st.store) := by
  have hb := h.broadcasting b call
  obtain ⟨hvalues, hok⟩ := createMsg_ok made hb.bound
  have hfound : ∀ hash, Resolves b.values hash → r.Available st.store hash := by
    rintro hash (hzero | hhash)
    · exact .inl hzero
    · exact hb.found hash hhash
  exact ⟨hok, (hvalues ▸ hok.resolves).mono hfound⟩

/-- Hashes move on, or get lost. -/
lemma Inv.moveHash (h : r.Inv st) {propose : ProposeTask}
    {hash hashBridge coreHash : Option HashRoot}
    (hproposal : ∀ value hash, propose = .sendValue value hash →
      Proposal r.crypto.sha256 value hash)
    (hfrom : ∀ other, RunState.HashInFlight { st with
        propose := propose, hash := hash, hashBridge := hashBridge, coreHash := coreHash } other →
      st.HashInFlight other) :
    r.Inv { st with
      propose := propose, hash := hash, hashBridge := hashBridge, coreHash := coreHash } :=
  { h with
    proposal := hproposal
    hashes := fun hrun other hmem => h.hashes hrun other (hfrom other hmem) }

/-- Messages move on, or get lost. -/
lemma Inv.moveMsg (h : r.Inv st) {receive : ReceiveTask} {selfSends innerRecv coreRecv : List Msg}
    {recvBridge : Option Msg}
    (hfrom : ∀ m, RunState.InFlight { st with
        receive := receive, selfSends := selfSends, innerRecv := innerRecv,
        recvBridge := recvBridge, coreRecv := coreRecv } m → st.InFlight m) :
    r.Inv { st with
      receive := receive, selfSends := selfSends, innerRecv := innerRecv,
      recvBridge := recvBridge, coreRecv := coreRecv } :=
  { h with messages := fun m hm => h.messages m (hfrom m hm) }

section Step

variable [DecidableEq PK]

/-- **One action.** -/
theorem Inv.step (h : r.Inv st) (hstep : r.Step st st') : r.Inv st' := by
  cases hstep with
  | @propose value hash hashed first =>
    refine { h with proposal := ?_, hashes := fun hrun other hmem => h.hashes hrun other ?_ }
    · rintro _ _ ⟨rfl, rfl⟩
      exact ⟨value, rfl, hashed⟩
    · simpa [RunState.HashInFlight] using Or.inr hmem
  | @sendValue value hash at_send free =>
    have hproposal := h.proposal value hash at_send
    have hmono : ∀ other, r.Available st.store other →
        r.Available { st.store with valueRx := some value } other := by
      rintro other (hzero | hfound | ⟨held, hheld, -⟩)
      · exact .inl hzero
      · exact .inr (.inl hfound)
      · exact absurd (hheld.symm.trans free) (Option.some_ne_none held)
    have hok : ValueStore.Ok r.crypto.sha256 r.decoder { st.store with valueRx := some value } := by
      refine ⟨h.store.bound, ?_⟩
      rintro _ ⟨rfl⟩
      exact ⟨hash, hproposal⟩
    refine { h.setStore hok hmono with proposal := by simp, hashes := ?_ }
    rintro hrun other (hmem | hmem)
    · cases hmem
      exact .inr (.inr ⟨value, rfl, hproposal⟩)
    · exact hmono other (h.hashes hrun other (.inr hmem))
  | sendValueFull at_send full | sendHashFailed at_send =>
    refine h.moveHash (by simp) fun other hmem => ?_
    simpa [RunState.HashInFlight] using Or.inr hmem
  | sendValueClosed at_send ended =>
    refine { h with proposal := by simp, hashes := fun hrun => ?_ }
    have hrun : st.core.stop = none := hrun
    simp [hrun] at ended
  | sendHash at_send free =>
    refine h.moveHash (by simp) fun other hmem => ?_
    simp only [RunState.HashInFlight, at_send] at hmem ⊢
    grind
  | takeHash queued free =>
    refine h.moveHash h.proposal fun other hmem => ?_
    simp only [RunState.HashInFlight, queued] at hmem ⊢
    grind
  | putHash held free =>
    refine h.moveHash h.proposal fun other hmem => ?_
    simp only [RunState.HashInFlight, held] at hmem ⊢
    grind
  | @handle env pbMsg m queued room =>
    have hadmitted := (handle_ok queued).1
    refine { h with queued := fun other hother => ?_ }
    rcases List.mem_append.mp hother with hold | hnew
    · exact h.queued other hold
    · rw [List.mem_singleton.mp hnew]
      exact (Msg.ok_of_new hadmitted.wrapped hadmitted.bound).2
  | @receive m rest waiting queued =>
    obtain ⟨hm, hrest⟩ := List.forall_mem_cons.mp (queued ▸ h.queued)
    have hmono : ∀ hash, r.Available st.store hash →
        r.Available (st.store.setValues m.toMsgHead) hash := fun _ hhash => hhash.setValues _
    refine { h.setStore (h.store.setValues hm.bound) hmono with queued := hrest, messages := ?_ }
    rintro other (hother | hother)
    · cases hother
      exact ⟨hm, hm.resolves.mono fun _ => Available.of_resolves⟩
    · exact (h.messages other (.inr hother)).imp_right (Msg.Hashes.mono hmono)
  | forward held room | putMsg held room =>
    refine h.moveMsg fun other hmem => ?_
    simp only [RunState.InFlight, held, List.mem_append, List.mem_singleton] at hmem ⊢
    grind
  | forwardClosed held =>
    refine { h with messages := fun other hmem => h.messages other ?_, error := by simp }
    simpa [RunState.InFlight] using Or.inr hmem
  | receiveCanceled =>
    refine h.moveMsg fun other hmem => ?_
    simpa [RunState.InFlight] using Or.inr hmem
  | selfSend pending room =>
    refine h.moveMsg fun other hmem => ?_
    simp only [RunState.InFlight, pending, List.mem_append, List.mem_cons] at hmem ⊢
    grind
  | takeMsg queued free =>
    refine h.moveMsg fun other hmem => ?_
    simp only [RunState.InFlight, queued, List.mem_cons] at hmem ⊢
    grind
  | turn arm running free silent =>
    obtain ⟨harm, hcore, hsupplies, hreceives⟩ := h.arm arm running free
    rw [← hcore]
    exact harm.act hsupplies hreceives
  | broadcast arm running free called downcast =>
    obtain ⟨harm, hcore, hsupplies, hreceives⟩ := h.arm arm running free
    rw [← hcore] at called
    exact harm.broadcast hsupplies hreceives called downcast
  | @skip b hash rest call next known =>
    have hb := h.broadcasting b call
    refine { h with broadcasting := ?_ }
    rintro _ ⟨rfl⟩
    exact { hb with pending := (List.cons_subset.mp (next ▸ hb.pending)).2 }
  | lookup call next nonZero unknown got => exact h.found call next nonZero got
  | lookupFailed call next nonZero unknown got =>
    obtain ⟨value, hvalue, -⟩ := h.lookup call next nonZero
    rw [got] at hvalue
    cases hvalue
  | @create b m call resolved first made =>
    refine { h with messages := fun other hother => ?_, broadcasting := ?_ }
    · by_cases heq : other = m
      · rw [heq]
        exact h.create call made
      · apply h.messages other
        simpa [RunState.InFlight, heq] using hother
    · rintro _ ⟨rfl⟩
      exact { h.broadcasting b call with }
  | createFailed call resolved first made =>
    apply h.fail call
    rintro rfl
    exact createMsg_ne_unknownValue made
  | sent call created => exact h.resume call (.ok ())
  | sendFailed message call created => exact h.fail call (by simp)

/-! ## Whole runs -/

/-- **Every interleaving keeps the invariant.** -/
theorem Reachable.inv (h : r.Reachable st) : r.Inv st := by
  induction h with
  | refl => exact inv_init
  | tail _ hstep ih => exact ih.step hstep

end Step

/-! ### An instance that broadcasts -/

/-- A set with one entry, whose key and value are empty. -/
def emptyEntry : DecodedValue := .unsignedDataSet ⟨⟨[("", [])], by decide⟩⟩

/-- A cluster of one node, which leads every round. -/
def single : Instance Unit Unit where
  crypto := ⟨fun _ => .zero, fun _ _ => .ok [1], fun _ _ => .ok ()⟩
  decoder := .wire
  component := ⟨[()], fun _ => true⟩
  definition := ⟨fun _ _ => true, 1, 100, Qbft.validateDefinition_one, Qbft.quorum_one⟩
  duty := ⟨1, .proposer⟩
  peerIdx := 0
  privkey := ()

/-- The hash of `emptyEntry`: the tag of field 1, and no content. -/
def singleHash : HashRoot := chunk [10, 0]

/-- `propose` has returned, and the core is broadcasting the PRE-PREPARE. -/
def singleBroadcasting : RunState :=
  { single.init with
    proposed := true
    propose := .returned
    store := ⟨some emptyEntry.toAny, ∅⟩
    broadcasting := some {
      event := .input singleHash (.ok ())
      request := ⟨.prePrepare, 0, 1, singleHash, 0, default, some []⟩
      justification := []
      pending := [singleHash, default]
      values := ∅
      created := false } }

lemma single_reachable : single.Reachable singleBroadcasting := by
  have hhash : emptyEntry.hash single.crypto.sha256 = .ok singleHash := by decide
  have propose : single.Step single.init _ := Step.propose hhash rfl
  have value := (Relation.ReflTransGen.single propose).tail (Step.sendValue rfl rfl)
  have hash := value.tail (Step.sendHash rfl rfl)
  have taken := hash.tail (Step.takeHash rfl rfl)
  have put := taken.tail (Step.putHash rfl rfl)
  exact put.tail (Step.broadcast (Arm.input (.ok ()) rfl) rfl rfl rfl .nil)

/-! ### The result -/

/-- **Value availability.**  In every interleaving, every non-null hash the core passes to
`broadcast` resolves in the store, to a value whose inner message has that hash; so do the values
the broadcast has collected so far, no broadcast fails with `UnknownValue`, and the downcast of a
justification never fails. -/
theorem value_availability [DecidableEq PK] (reach : r.Reachable st) :
    (∀ b, st.broadcasting = some b →
      (∀ hash ∈ broadcastHashes b.request b.justification, hash ≠ .zero →
        ∃ value, (st.store.getValue r.crypto.sha256 hash).2 = .ok value ∧
          Binds r.crypto.sha256 r.decoder hash value) ∧
      Bound r.crypto.sha256 r.decoder b.values) ∧
    st.transportError ≠ some .unknownValue ∧
    ∀ e st' req, Arm st e st' → st.core.stop = none → st.broadcasting = none →
      (r.machine.step st.core.state e).out = some (.broadcast req) →
      ∃ heads, List.Forall₂ (Downcast st'.delivered) (req.justification.getD []) heads := by
  have hinv := reach.inv
  refine ⟨fun b hb => ⟨fun hash hhash hne => ?_, (hinv.broadcasting b hb).bound⟩, hinv.error, ?_⟩
  · exact hinv.store.getValue_ok ((hinv.broadcasting b hb).hashes hash hhash) hne
  · intro e st' req harm hrun hfree hcall
    obtain ⟨hinv', hcore, hsupplies, hreceives⟩ := hinv.arm harm hrun hfree
    rw [← hcore] at hcall
    exact exists_downcast (hinv'.called hsupplies hreceives hcall).2

theorem value_availability_single :
    single.Reachable singleBroadcasting ∧ singleHash ≠ .zero ∧
      ∃ value, (singleBroadcasting.store.getValue single.crypto.sha256 singleHash).2 = .ok value ∧
        Binds single.crypto.sha256 single.decoder singleHash value := by
  have hne : singleHash ≠ .zero := by decide
  refine ⟨single_reachable, hne, ?_⟩
  apply ((value_availability single_reachable).1 _ rfl).1 singleHash _ hne
  exact List.mem_cons_self

end Instance

end Pluto.Consensus
