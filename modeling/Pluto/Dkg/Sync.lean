import Mathlib.Algebra.Group.Int.Defs
import Mathlib.Data.Fintype.Card
import Mathlib.Tactic.FinCases
import Pluto.Lib.HashMap
import Pluto.Lib.Trace

/-!
# The step barrier

The sync protocol of `crates/dkg/src/sync/` and the `SyncRuntime` of `crates/dkg/src/dkg.rs`.  A
node sends its step to every peer, again and again, and its server records the last step it has seen
of each of them.  `next_step` increments the step and waits until every peer is at that step or at
the next one.

A cluster of nodes runs `start_sync_protocol` and then `next_step` as often as it likes.  The
messages of one node to another are a queue: what is sent is a sample of the step that the client
for the receiver has at that time, and messages are served in order.  A message is served in two
parts, since the peer is marked as connected under one lock and its step recorded under another;
nodes take turns at any of these points.  Messages may get lost with their stream before they are
served, and may fail validation.  The loop that waits for the node's own streams only delays the
start, and the shutdown that follows the last step is left out.

## Why the windows fit

The server of a node accepts a step up to two above the one it has recorded, and a first step of at
most one, and the barrier fails for a step two above its own.  Three facts keep honest nodes inside
(`LinkInv`): what is on its way from a node to another is sorted, from the recorded step to the step
of the client; a node that has called `next_step` has recorded all peers at the step before; and a
node that has begun with no step recorded for a peer is serving one of its first messages.  Hence
steps of two nodes differ by at most one (`Inv.step_le`), and `step_barrier` follows.
-/

namespace Pluto.Dkg.Sync

/-- The errors of the protocol that a server records or a barrier returns. -/
inductive Error (ι : Type)
  | peerStepBehind
  | peerStepAhead
  | abnormalInitialStep
  | peerStepTooFarAhead
  | stepOverflow
  | invalidSyncMessage (peer : ι)
  deriving DecidableEq

/-- The errors that say that a peer is at a wrong step. -/
def Error.IsStepError {ι : Type} : Error ι → Prop
  | .peerStepBehind | .peerStepAhead | .abnormalInitialStep | .peerStepTooFarAhead => True
  | .stepOverflow | .invalidSyncMessage _ => False

/-- `i64::checked_add` -/
def checkedAdd (a b : ℤ) : Option ℤ :=
  if -2 ^ 63 ≤ a + b ∧ a + b < 2 ^ 63 then some (a + b) else none

lemma checkedAdd_eq_some {a b c : ℤ} (h : checkedAdd a b = some c) : c = a + b := by
  rw [checkedAdd] at h
  split_ifs at h with hlt
  exact (Option.some.inj h).symm

variable {ι : Type} [DecidableEq ι]

/-! ## The server -/

structure ServerState (ι : Type) where
  connected : Finset ι
  steps : HashMap ι ℤ
  err : Option (Error ι)

namespace ServerState

def setConnected (peer : ι) (state : ServerState ι) : ServerState ι :=
  { state with connected := insert peer state.connected }

def clearConnected (peer : ι) (state : ServerState ι) : ServerState ι :=
  { state with connected := state.connected.erase peer }

/-- The first error stays. -/
def setErr (error : Error ι) (state : ServerState ι) : ServerState ι :=
  match state.err with
  | some _ => state
  | none => { state with err := some error }

/-- Returns whether the step has changed. -/
def updateStep (peer : ι) (step : ℤ) (state : ServerState ι) :
    Except (Error ι) (Bool × ServerState ι) :=
  match state.steps.lookup peer with
  | some current =>
    if step < current then .error .peerStepBehind
    else match checkedAdd current 2 with
      | none => .error .stepOverflow
      | some currentPlusTwo =>
        if currentPlusTwo < step then .error .peerStepAhead
        else if step = current then .ok (false, state)
        else .ok (true, { state with steps := state.steps.insert peer step })
  | none =>
    if 0 ≤ step ∧ step ≤ 1 then .ok (true, { state with steps := state.steps.insert peer step })
    else .error .abnormalInitialStep

/-- One pass through the loop of `await_all_connected`, of a server that has started. -/
def awaitAllConnected (allCount : ℕ) (state : ServerState ι) : Option (Except (Error ι) Unit) :=
  match state.err with
  | some error => some (.error error)
  | none => if state.connected.card = allCount then some (.ok ()) else none

def values (state : ServerState ι) : List ℤ := state.steps.entries.map fun e => e.2

/-- One pass through the loop of `await_all_at_step`. -/
def awaitAllAtStep (allCount : ℕ) (step : ℤ) (state : ServerState ι) :
    Option (Except (Error ι) Unit) :=
  match checkedAdd step 1, checkedAdd step 2 with
  | some stepPlusOne, some stepPlusTwo =>
    match state.err with
    | some error => some (.error error)
    | none =>
      if state.steps.entries.length = allCount then
        if ∃ actual ∈ state.values, stepPlusTwo ≤ actual then some (.error .peerStepTooFarAhead)
        else if ∀ actual ∈ state.values, actual = step ∨ actual = stepPlusOne then some (.ok ())
        else none
      else none
  | _, _ => some (.error .stepOverflow)

end ServerState

/-! ## The cluster -/

/-- Where a node is in `start_sync_protocol` and `next_step`. -/
inductive Phase (ι : Type)
  | idle
  /-- Waits until all peers have connected. -/
  | connecting
  /-- All peers have connected; `next_step` has not been called. -/
  | connected
  /-- In `next_step`, with the clients whose step is still to be set; if there is none, it waits. -/
  | stepping (clients : Finset ι)
  /-- The last `next_step` has returned `Ok`. -/
  | ready
  | failed

structure Node (ι : Type) where
  server : ServerState ι
  phase : Phase ι
  /-- The step of the runtime. -/
  step : ℤ
  /-- The step of the client of each peer. -/
  clientStep : ι → ℤ
  /-- The message of a peer that is being served: its step is still to be recorded. -/
  serving : ι → Option ℤ

structure Cluster (ι : Type) where
  node : ι → Node ι
  /-- The steps sent by one node to another, and not served yet. -/
  wire : ι → ι → List ℤ

namespace Cluster

def new (ι : Type) : Cluster ι where
  node _ := ⟨⟨∅, ∅, none⟩, .idle, 0, fun _ => 0, fun _ => none⟩
  wire _ _ := []

def setNode (i : ι) (node : Node ι) (s : Cluster ι) : Cluster ι :=
  { s with node := Function.update s.node i node }

def setWire (i j : ι) (steps : List ℤ) (s : Cluster ι) : Cluster ι :=
  { s with wire := Function.update s.wire i (Function.update (s.wire i) j steps) }

end Cluster

/-- What happens in a cluster, from a node to a peer where there are two. -/
inductive Label (ι : Type)
  | started (i : ι)
  | sent (i j : ι)
  | lost (i j : ι)
  /-- The peer takes the next message, which passes validation or not. -/
  | served (i j : ι) (valid : Bool)
  /-- The peer records its step. -/
  | recorded (i j : ι)
  /-- The peer ends the stream. -/
  | ended (i j : ι)
  /-- `start_sync_protocol` finds all peers connected. -/
  | connected (i : ι)
  /-- `next_step` is called for a step. -/
  | called (i : ι) (k : ℤ)
  /-- It sets the step of a client. -/
  | set (i j : ι)
  /-- It returns. -/
  | returned (i : ι) (k : ℤ) (result : Except (Error ι) Unit)
  /-- `start_sync_protocol` returns an error of the server. -/
  | refused (i : ι) (error : Error ι)

namespace Node

/-- `next_step`, up to the loop over the clients. -/
def call (k : ℤ) (clients : Finset ι) (node : Node ι) : Node ι :=
  { node with step := k, phase := .stepping clients }

/-- The first part of serving a message. -/
def serve (peer : ι) (step : ℤ) (valid : Bool) (node : Node ι) : Node ι :=
  { node with
    server :=
      if valid then node.server.setConnected peer
      else node.server.setErr (.invalidSyncMessage peer)
    serving := Function.update node.serving peer (some step) }

/-- The second part.  An error is recorded, and ends the stream. -/
def record (peer : ι) (step : ℤ) (node : Node ι) : Node ι :=
  { node with
    server :=
      match node.server.updateStep peer step with
      | .ok (_, server) => server
      | .error error => (node.server.setErr error).clearConnected peer
    serving := Function.update node.serving peer none }

/-- The phase after `next_step` has returned. -/
def finish (result : Except (Error ι) Unit) (node : Node ι) : Node ι :=
  { node with
    phase := match result with
      | .ok () => .ready
      | .error _ => .failed }

end Node

section Steps

variable [Fintype ι]

/-- The peers of a node. -/
def peersOf (i : ι) : Finset ι := Finset.univ.erase i

inductive Step : Cluster ι → Label ι → Cluster ι → Prop
  | started {s i} (hphase : (s.node i).phase = .idle) :
      Step s (.started i) (s.setNode i { s.node i with phase := .connecting })
  | sent {s i j} (hne : i ≠ j) (hphase : (s.node i).phase ≠ .idle) :
      Step s (.sent i j) (s.setWire i j (s.wire i j ++ [(s.node i).clientStep j]))
  | lost {s i j rest} (hrest : rest.Sublist (s.wire i j)) :
      Step s (.lost i j) (s.setWire i j rest)
  | served {s i j step rest} (valid : Bool) (hne : i ≠ j) (hphase : (s.node j).phase ≠ .idle)
      (hserving : (s.node j).serving i = none) (hwire : s.wire i j = step :: rest) :
      Step s (.served i j valid)
        ((s.setWire i j rest).setNode j ((s.node j).serve i step valid))
  | recorded {s i j step} (hne : i ≠ j) (hserving : (s.node j).serving i = some step) :
      Step s (.recorded i j) (s.setNode j ((s.node j).record i step))
  | ended {s i j} (hne : i ≠ j) :
      Step s (.ended i j)
        (s.setNode j { s.node j with server := (s.node j).server.clearConnected i })
  | connected {s i} (hphase : (s.node i).phase = .connecting)
      (hconnected : (s.node i).server.awaitAllConnected (peersOf i).card = some (.ok ())) :
      Step s (.connected i) (s.setNode i { s.node i with phase := .connected })
  | called {s i k} (hphase : (s.node i).phase = .connected ∨ (s.node i).phase = .ready)
      (hk : checkedAdd (s.node i).step 1 = some k) :
      Step s (.called i k) (s.setNode i ((s.node i).call k (peersOf i)))
  | set {s i j clients} (hphase : (s.node i).phase = .stepping clients) (hj : j ∈ clients) :
      Step s (.set i j) (s.setNode i { s.node i with
        clientStep := Function.update (s.node i).clientStep j (s.node i).step
        phase := .stepping (clients.erase j) })
  | returned {s i result} (hphase : (s.node i).phase = .stepping ∅)
      (hresult : (s.node i).server.awaitAllAtStep (peersOf i).card (s.node i).step = some result) :
      Step s (.returned i (s.node i).step result) (s.setNode i ((s.node i).finish result))
  | refused {s i error} (hphase : (s.node i).phase = .connecting)
      (hrefused : (s.node i).server.awaitAllConnected (peersOf i).card = some (.error error)) :
      Step s (.refused i error) (s.setNode i { s.node i with phase := .failed })

end Steps

/-! ## From a node to a peer -/

/-- What holds between a node and a peer, of the step of the node, the step of its client, the
messages on their way, and of the peer: the recorded step, the message being served, whether the
node is connected, whether the last `next_step` has returned, whether the peer has found all nodes
connected, and the own step. -/
structure LinkInv (senderStep clientStep : ℤ) (wire : List ℤ) (recorded serving : Option ℤ)
    (connected ready begun : Prop) (step : ℤ) : Prop where
  /-- Later messages have later steps. -/
  sorted : (recorded.toList ++ serving.toList ++ wire ++ [clientStep]).Pairwise (· ≤ ·)
  nonneg : ∀ k ∈ recorded.toList ++ serving.toList ++ wire ++ [clientStep], 0 ≤ k
  le : clientStep ≤ senderStep
  /-- A connected peer has been served. -/
  served : connected → recorded ≠ none ∨ serving ≠ none
  /-- The last barrier was passed with the step before. -/
  passed : 2 ≤ step → ∃ r, recorded = some r ∧ step - 1 ≤ r
  ready : ready → ∃ r, recorded = some r ∧ step ≤ r
  /-- Who has begun without a recorded step is serving one of the first messages. -/
  first : begun → recorded = none → ∃ k, serving = some k ∧ k ≤ 1

namespace LinkInv

variable {senderStep clientStep step k : ℤ} {wire : List ℤ} {recorded serving : Option ℤ}
  {connected ready begun : Prop}

lemma recorded_le_serving {r : ℤ}
    (h : LinkInv senderStep clientStep wire (some r) (some k) connected ready begun step) : r ≤ k := by
  have hsorted := h.sorted
  simp only [Option.toList_some, List.cons_append, List.nil_append, List.pairwise_cons] at hsorted
  exact hsorted.1 k List.mem_cons_self

lemma serve {connected' : Prop}
    (h : LinkInv senderStep clientStep (k :: wire) recorded none connected ready begun step) :
    LinkInv senderStep clientStep wire recorded (some k) connected' ready begun step where
  sorted := by simpa using h.sorted
  nonneg k' hk := h.nonneg k' (by simpa using hk)
  le := h.le
  served _ := .inr (by simp)
  passed := h.passed
  ready := h.ready
  first hstep hnone := by
    obtain ⟨k', hk', -⟩ := h.first hstep hnone
    cases hk'

lemma record (h : LinkInv senderStep clientStep wire recorded (some k) connected ready begun step) :
    LinkInv senderStep clientStep wire (some k) none connected ready begun step := by
  have hsub : ((some k).toList ++ (none : Option ℤ).toList ++ wire ++ [clientStep]).Sublist
      (recorded.toList ++ (some k).toList ++ wire ++ [clientStep]) := by
    simp
  have hle : ∀ r, recorded = some r → r ≤ k := by
    rintro r rfl
    exact h.recorded_le_serving
  refine ⟨h.sorted.sublist hsub, fun k' hk => h.nonneg k' (hsub.subset hk), h.le,
    fun _ => .inl (by simp), fun hstep => ?_, fun hready => ?_, fun _ hnone => by cases hnone⟩
  · obtain ⟨r, hr, hpassed⟩ := h.passed hstep
    exact ⟨k, rfl, hpassed.trans (hle r hr)⟩
  · obtain ⟨r, hr, hpassed⟩ := h.ready hready
    exact ⟨k, rfl, hpassed.trans (hle r hr)⟩

variable (h : LinkInv senderStep clientStep wire recorded serving connected ready begun step)

include h

lemma le_clientStep (hk : k ∈ recorded.toList ++ serving.toList ++ wire) : k ≤ clientStep :=
  (List.pairwise_append.mp h.sorted).2.2 k hk clientStep List.mem_cons_self

lemma le_senderStep (hk : k ∈ recorded.toList ++ serving.toList ++ wire) : k ≤ senderStep :=
  (h.le_clientStep hk).trans h.le

lemma send :
    LinkInv senderStep clientStep (wire ++ [clientStep]) recorded serving connected ready begun step where
  sorted := by
    rw [← List.append_assoc]
    refine List.pairwise_append.mpr ⟨h.sorted, List.pairwise_singleton _ _, fun k hk k' hk' => ?_⟩
    obtain rfl := List.mem_singleton.mp hk'
    rcases List.mem_append.mp hk with hk | hk
    · exact h.le_clientStep hk
    · exact (List.mem_singleton.mp hk).le
  nonneg k hk := h.nonneg k (by simpa using hk)
  le := h.le
  served := h.served
  passed := h.passed
  ready := h.ready
  first := h.first

lemma lose {rest : List ℤ} (hrest : rest.Sublist wire) :
    LinkInv senderStep clientStep rest recorded serving connected ready begun step := by
  have hsub := (hrest.append_left (recorded.toList ++ serving.toList)).append_right [clientStep]
  exact ⟨h.sorted.sublist hsub, fun k hk => h.nonneg k (hsub.subset hk), h.le, h.served, h.passed,
    h.ready, h.first⟩

/-- A message of a peer with a recorded step is dropped. -/
lemma drop (hrecorded : recorded ≠ none) :
    LinkInv senderStep clientStep wire recorded none False ready begun step := by
  have hsub : (recorded.toList ++ (none : Option ℤ).toList ++ wire ++ [clientStep]).Sublist
      (recorded.toList ++ serving.toList ++ wire ++ [clientStep]) := by
    refine List.Sublist.append_right (List.Sublist.append_right ?_ _) _
    simp
  exact ⟨h.sorted.sublist hsub, fun k hk => h.nonneg k (hsub.subset hk), h.le, False.elim,
    h.passed, h.ready, fun _ hnone => absurd hnone hrecorded⟩

lemma disconnect {connected' : Prop}
    (hconnected : connected' → connected) :
    LinkInv senderStep clientStep wire recorded serving connected' ready begun step :=
  { h with served := fun hc => h.served (hconnected hc) }

lemma setClient : LinkInv senderStep senderStep wire recorded serving connected ready begun step where
  sorted := List.pairwise_append.mpr ⟨(List.pairwise_append.mp h.sorted).1,
    List.pairwise_singleton _ _, fun k hk k' hk' => by
      obtain rfl := List.mem_singleton.mp hk'
      exact h.le_senderStep hk⟩
  nonneg k hk := by
    rcases List.mem_append.mp hk with hk | hk
    · exact h.nonneg k (List.mem_append_left _ hk)
    · obtain rfl := List.mem_singleton.mp hk
      exact (h.nonneg clientStep (by simp)).trans h.le
  le := le_rfl
  served := h.served
  passed := h.passed
  ready := h.ready
  first := h.first

/-- The node calls `next_step`. -/
lemma advance : LinkInv (senderStep + 1) clientStep wire recorded serving connected ready begun step :=
  { h with le := h.le.trans (by omega) }

/-- The peer has found all nodes connected. -/
lemma allConnected {ready' begun' : Prop} (hconnected : connected) (hone : senderStep ≤ 1)
    (hready : ¬ ready') :
    LinkInv senderStep clientStep wire recorded serving connected ready' begun' step := by
  refine { h with ready := fun h => absurd h hready, first := fun _ hnone => ?_ }
  obtain ⟨k, hk⟩ := Option.ne_none_iff_exists'.mp
    ((h.served hconnected).resolve_left (not_not.mpr hnone))
  exact ⟨k, hk, (h.le_senderStep (by simp [hk])).trans hone⟩

/-- The peer calls `next_step`, for the first time or after the last call has returned. -/
lemma call {begun' : Prop} (hcall : (step = 0 ∧ begun) ∨ ready) :
    LinkInv senderStep clientStep wire recorded serving connected False begun' (step + 1) := by
  refine { h with passed := fun hstep => ?_, ready := False.elim, first := fun _ hnone => ?_ }
  · rcases hcall with ⟨rfl, -⟩ | hready
    · omega
    · obtain ⟨r, hr, hle⟩ := h.ready hready
      exact ⟨r, hr, by omega⟩
  · rcases hcall with ⟨-, hbegun⟩ | hready
    · exact h.first hbegun hnone
    · obtain ⟨r, hr, -⟩ := h.ready hready
      exact absurd hr (by simp [hnone])

/-- The `next_step` of the peer returns. -/
lemma finish {ready' begun' : Prop} (hready : ready' → ∃ r, recorded = some r ∧ step ≤ r)
    (hbegun : begun' → begun) :
    LinkInv senderStep clientStep wire recorded serving connected ready' begun' step :=
  { h with ready := hready, first := fun h' => h.first (hbegun h') }

end LinkInv

/-! ## What the server answers -/

namespace ServerState

variable {state : ServerState ι} {peer : ι} {step : ℤ}

omit [DecidableEq ι] in
@[simp] lemma steps_setErr (e : Error ι) (state : ServerState ι) :
    (state.setErr e).steps = state.steps := by
  rw [setErr]
  cases state.err <;> rfl

omit [DecidableEq ι] in
@[simp] lemma connected_setErr (e : Error ι) (state : ServerState ι) :
    (state.setErr e).connected = state.connected := by
  rw [setErr]
  cases state.err <;> rfl

omit [DecidableEq ι] in
lemma err_setErr {e e' : Error ι} (h : (state.setErr e).err = some e') :
    state.err = some e' ∨ e' = e := by
  rw [setErr] at h
  cases herr : state.err with
  | some _ =>
    simp only [herr] at h
    exact .inl h
  | none =>
    simp only [herr] at h
    exact .inr (Option.some.inj h).symm

/-- A step inside the windows is recorded, unless the window ends beyond the range of `i64`. -/
lemma updateStep_cases (hrecorded : ∀ r, state.steps.lookup peer = some r → r ≤ step ∧ step ≤ r + 2)
    (hfirst : state.steps.lookup peer = none → 0 ≤ step ∧ step ≤ 1) :
    (∃ changed state', state.updateStep peer step = .ok (changed, state') ∧
      state'.steps.lookup peer = some step ∧
      (∀ peer' ≠ peer, state'.steps.lookup peer' = state.steps.lookup peer') ∧
      state'.connected = state.connected ∧ state'.err = state.err) ∨
    (state.updateStep peer step = .error .stepOverflow ∧ state.steps.lookup peer ≠ none) := by
  have hinsert : ({ state with steps := state.steps.insert peer step } : ServerState ι).steps.lookup
      peer = some step ∧ ∀ peer' ≠ peer, (state.steps.insert peer step).lookup peer' =
        state.steps.lookup peer' :=
    ⟨AList.lookup_insert _, fun peer' hne => AList.lookup_insert_ne hne⟩
  rw [updateStep]
  cases hlook : state.steps.lookup peer with
  | none =>
    simp only [if_pos (hfirst hlook)]
    exact .inl ⟨true, _, rfl, hinsert.1, hinsert.2, rfl, rfl⟩
  | some r =>
    obtain ⟨hle, hle'⟩ := hrecorded r hlook
    simp only [if_neg (not_lt.mpr hle)]
    cases hadd : checkedAdd r 2 with
    | none => exact .inr ⟨rfl, by simp⟩
    | some limit =>
      obtain rfl := checkedAdd_eq_some hadd
      simp only [if_neg (not_lt.mpr hle')]
      by_cases heq : step = r
      · simp only [if_pos heq]
        exact .inl ⟨false, state, rfl, heq ▸ hlook, fun _ _ => rfl, rfl, rfl⟩
      · simp only [if_neg heq]
        exact .inl ⟨true, _, rfl, hinsert.1, hinsert.2, rfl, rfl⟩

lemma mem_values_iff {k : ℤ} : k ∈ state.values ↔ ∃ peer, state.steps.lookup peer = some k := by
  simp only [values, List.mem_map]
  constructor
  · rintro ⟨⟨peer, k'⟩, hmem, rfl⟩
    exact ⟨peer, AList.mem_lookup_iff.mpr hmem⟩
  · rintro ⟨peer, hlook⟩
    exact ⟨⟨peer, k⟩, AList.mem_lookup_iff.mp hlook, rfl⟩

section Peers

variable [Fintype ι] {i : ι}

/-- If a server has as many steps recorded as the node has peers, then it has one for each. -/
lemma exists_lookup_of_length (hown : state.steps.lookup i = none)
    (hlength : state.steps.entries.length = (peersOf i).card) (hpeer : peer ≠ i) :
    ∃ r, state.steps.lookup peer = some r := by
  have hsub : state.steps.keys.toFinset ⊆ peersOf i := by
    intro peer' hmem
    refine Finset.mem_erase.mpr ⟨?_, Finset.mem_univ _⟩
    rintro rfl
    exact absurd (AList.lookup_isSome.mpr (List.mem_toFinset.mp hmem)) (by simp [hown])
  have hcard : state.steps.keys.toFinset.card = (peersOf i).card := by
    rw [List.toFinset_card_of_nodup (AList.keys_nodup state.steps), ← hlength]
    exact List.length_map _
  have hmem : peer ∈ state.steps.keys.toFinset := by
    rw [Finset.eq_of_subset_of_card_le hsub hcard.ge]
    exact Finset.mem_erase.mpr ⟨hpeer, Finset.mem_univ _⟩
  exact Option.isSome_iff_exists.mp (AList.lookup_isSome.mpr (List.mem_toFinset.mp hmem))

lemma mem_connected_of_awaitAllConnected (hown : i ∉ state.connected)
    (h : state.awaitAllConnected (peersOf i).card = some (.ok ())) (hpeer : peer ≠ i) :
    peer ∈ state.connected := by
  rw [awaitAllConnected] at h
  cases herr : state.err with
  | some e => simp [herr] at h
  | none =>
    simp only [herr] at h
    split_ifs at h with hcard
    have hsub : state.connected ⊆ peersOf i := by
      intro peer' hmem
      refine Finset.mem_erase.mpr ⟨?_, Finset.mem_univ _⟩
      rintro rfl
      exact hown hmem
    rw [Finset.eq_of_subset_of_card_le hsub hcard.ge]
    exact Finset.mem_erase.mpr ⟨hpeer, Finset.mem_univ _⟩

/-- How the barrier returns: it is passed with all peers at the step or the next one; it fails with
the error of the server, with an overflow, or because a peer is too far ahead. -/
lemma awaitAllAtStep_cases {result : Except (Error ι) Unit}
    (h : state.awaitAllAtStep (peersOf i).card step = some result)
    (hown : state.steps.lookup i = none) :
    (result = .ok () ∧ ∀ peer ≠ i, ∃ r, state.steps.lookup peer = some r ∧ step ≤ r) ∨
    (∃ e, result = .error e ∧ state.err = some e) ∨ result = .error .stepOverflow ∨
    ∃ peer r, state.steps.lookup peer = some r ∧ step + 2 ≤ r := by
  rw [awaitAllAtStep] at h
  cases hone : checkedAdd step 1 with
  | none =>
    simp only [hone] at h
    exact .inr (.inr (.inl (Option.some.inj h).symm))
  | some stepPlusOne =>
  cases htwo : checkedAdd step 2 with
  | none =>
    simp only [hone, htwo] at h
    exact .inr (.inr (.inl (Option.some.inj h).symm))
  | some stepPlusTwo =>
  obtain rfl := checkedAdd_eq_some hone
  obtain rfl := checkedAdd_eq_some htwo
  simp only [hone, htwo] at h
  cases herr : state.err with
  | some e =>
    simp only [herr] at h
    exact .inr (.inl ⟨e, (Option.some.inj h).symm, rfl⟩)
  | none =>
    simp only [herr] at h
    split_ifs at h with hlength hahead hall
    · obtain ⟨r, hr, hle⟩ := hahead
      obtain ⟨peer, hlook⟩ := mem_values_iff.mp hr
      exact .inr (.inr (.inr ⟨peer, r, hlook, hle⟩))
    · refine .inl ⟨(Option.some.inj h).symm, fun peer hpeer => ?_⟩
      obtain ⟨r, hlook⟩ := exists_lookup_of_length hown hlength hpeer
      refine ⟨r, hlook, ?_⟩
      rcases hall r (mem_values_iff.mpr ⟨peer, hlook⟩) with rfl | rfl <;> omega

end Peers

end ServerState

/-! ## The invariant -/

/-- The link from a node to a peer. -/
def Linked (i j : ι) (sender receiver : Node ι) (wire : List ℤ) : Prop :=
  LinkInv sender.step (sender.clientStep j) wire (receiver.server.steps.lookup i)
    (receiver.serving i) (i ∈ receiver.server.connected) (receiver.phase = .ready)
    (receiver.phase = .connected ∨ 1 ≤ receiver.step) receiver.step

structure NodeInv (i : ι) (node : Node ι) : Prop where
  nonneg : 0 ≤ node.step
  connecting : node.phase = .idle ∨ node.phase = .connecting ∨ node.phase = .connected →
    node.step = 0
  stepping : ∀ clients, node.phase = .stepping clients → 1 ≤ node.step
  own_step : node.server.steps.lookup i = none
  own_connected : i ∉ node.server.connected
  err : ∀ e, node.server.err = some e → ¬ e.IsStepError

structure Inv (s : Cluster ι) : Prop where
  node : ∀ i, NodeInv i (s.node i)
  link : ∀ i j, i ≠ j → Linked i j (s.node i) (s.node j) (s.wire i j)

namespace Inv

variable {s s' : Cluster ι} {i j : ι}

lemma new : Inv (Cluster.new ι) where
  node i := {
    nonneg := le_rfl
    connecting := fun _ => rfl
    stepping := nofun
    own_step := rfl
    own_connected := Finset.notMem_empty i
    err := nofun }
  link i j _ := {
    sorted := List.pairwise_singleton _ _
    nonneg := fun k hk => (List.mem_singleton.mp hk).ge
    le := le_rfl
    served := fun hconnected => absurd hconnected (Finset.notMem_empty i)
    passed := fun hstep => absurd hstep (by simp [Cluster.new])
    ready := nofun
    first := fun hbegun => absurd hbegun (by simp [Cluster.new]) }

/-- Steps of two nodes differ by at most one. -/
lemma step_le (h : Inv s) (hne : i ≠ j) : (s.node i).step ≤ (s.node j).step + 1 := by
  have hnonneg := (h.node j).nonneg
  by_cases htwo : 2 ≤ (s.node i).step
  · obtain ⟨r, hr, hle⟩ := (h.link j i hne.symm).passed htwo
    have hsent : r ≤ (s.node j).step := (h.link j i hne.symm).le_senderStep (by simp [hr])
    omega
  · omega

/-- A node is changed: it keeps its links as a sender and as a receiver. -/
lemma setNode (h : Inv s) {n : Node ι} (hnode : NodeInv i n)
    (hsender : ∀ j, i ≠ j → Linked i j n (s.node j) (s.wire i j))
    (hreceiver : ∀ j, j ≠ i → Linked j i (s.node j) n (s.wire j i)) : Inv (s.setNode i n) where
  node j := by
    by_cases hj : j = i
    · subst hj
      simpa [Cluster.setNode] using hnode
    · simpa [Cluster.setNode, Function.update_of_ne hj] using h.node j
  link j k hne := by
    by_cases hj : j = i
    · subst hj
      simpa [Cluster.setNode, Function.update_of_ne hne.symm] using hsender k hne
    · by_cases hk : k = i
      · subst hk
        simpa [Cluster.setNode, Function.update_of_ne hj] using hreceiver j hj
      · simpa [Cluster.setNode, Function.update_of_ne hj, Function.update_of_ne hk] using
          h.link j k hne

lemma setWire (h : Inv s) {steps : List ℤ}
    (hlink : i ≠ j → Linked i j (s.node i) (s.node j) steps) : Inv (s.setWire i j steps) where
  node := h.node
  link k l hne := by
    by_cases hk : k = i
    · subst hk
      by_cases hl : l = j
      · subst hl
        simpa [Cluster.setWire] using hlink hne
      · simpa [Cluster.setWire, Function.update_of_ne hl] using h.link k l hne
    · simpa [Cluster.setWire, Function.update_of_ne hk] using h.link k l hne

/-- The node keeps its step, its clients and its links, but for the end of a barrier. -/
lemma setPhase (h : Inv s) {phase : Phase ι}
    (hconnecting : phase = .idle ∨ phase = .connecting → (s.node i).step = 0)
    (hstepping : ∀ clients, phase ≠ .stepping clients) (hconnected : phase ≠ .connected)
    (hready : phase = .ready → ∀ j, j ≠ i →
      ∃ r, (s.node i).server.steps.lookup j = some r ∧ (s.node i).step ≤ r) :
    Inv (s.setNode i { s.node i with phase := phase }) :=
  h.setNode
    { h.node i with
      connecting := fun hphase => hconnecting (hphase.imp_right fun h => h.resolve_right hconnected)
      stepping := fun clients hphase => absurd hphase (hstepping clients) }
    (fun j hne => h.link i j hne)
    (fun j hne => (h.link j i hne).finish (fun hphase => hready hphase j hne)
      fun hbegun => .inr (hbegun.resolve_left hconnected))

/-- A message of a node is served. -/
lemma serve (h : Inv s) {step : ℤ} {rest : List ℤ} (valid : Bool) (hne : i ≠ j)
    (hserving : (s.node j).serving i = none) (hwire : s.wire i j = step :: rest) :
    Inv ((s.setWire i j rest).setNode j ((s.node j).serve i step valid)) := by
  have hrest : rest.Sublist (s.wire i j) := hwire ▸ List.sublist_cons_self step rest
  have hnode := h.node j
  refine (h.setWire fun hne => (h.link i j hne).lose hrest).setNode ?_ (fun k hk => ?_)
    (fun k hk => ?_)
  · cases valid with
    | true =>
      refine ⟨hnode.nonneg, hnode.connecting, hnode.stepping, hnode.own_step, ?_, hnode.err⟩
      simp [Node.serve, ServerState.setConnected, hne.symm, hnode.own_connected]
    | false =>
      refine ⟨hnode.nonneg, hnode.connecting, hnode.stepping, ?_, ?_, fun e he => ?_⟩
      · simpa [Node.serve] using hnode.own_step
      · simpa [Node.serve] using hnode.own_connected
      · rcases ServerState.err_setErr he with hold | rfl
        · exact hnode.err e hold
        · exact id
  · have hlink := (h.setWire fun hne => (h.link i j hne).lose hrest).link j k hk
    exact hlink
  · by_cases hki : k = i
    · subst hki
      have hlink := h.link k j hne
      rw [Linked, hwire, hserving] at hlink
      cases valid <;> simpa [Linked, Node.serve, ServerState.setConnected, Cluster.setWire] using
        hlink.serve
    · have hlink := (h.setWire fun hne => (h.link i j hne).lose hrest).link k j hk
      refine LinkInv.disconnect
        (?_ : LinkInv _ _ _ _ _ (k ∈ (s.node j).server.connected) _ _ _) ?_
      · cases valid <;>
          simpa [Linked, Node.serve, ServerState.setConnected, Function.update_of_ne hki,
            Cluster.setWire] using hlink
      · cases valid <;> simp [Node.serve, ServerState.setConnected, hki]

/-- The step of a message that is being served lies in the windows of the server. -/
lemma updateStep_cases (h : Inv s) {step : ℤ} (hne : i ≠ j)
    (hserving : (s.node j).serving i = some step) :
    (∃ changed state', (s.node j).server.updateStep i step = .ok (changed, state') ∧
      state'.steps.lookup i = some step ∧
      (∀ k ≠ i, state'.steps.lookup k = (s.node j).server.steps.lookup k) ∧
      state'.connected = (s.node j).server.connected ∧ state'.err = (s.node j).server.err) ∨
    ((s.node j).server.updateStep i step = .error .stepOverflow ∧
      (s.node j).server.steps.lookup i ≠ none) := by
  have hlink := h.link i j hne
  rw [Linked, hserving] at hlink
  have hsender : step ≤ (s.node i).step := hlink.le_senderStep (by simp)
  have hnonneg : 0 ≤ step := hlink.nonneg step (by simp)
  have hsteps := h.step_le hne
  have hj := (h.node j).nonneg
  refine ServerState.updateStep_cases (fun r hr => ?_) fun hnone => ⟨hnonneg, ?_⟩
  · have hpassed : (s.node j).step - 1 ≤ r := by
      by_cases htwo : 2 ≤ (s.node j).step
      · obtain ⟨r', hr', hle⟩ := hlink.passed htwo
        obtain rfl := Option.some.inj (hr.symm.trans hr')
        exact hle
      · have hr0 : 0 ≤ r := hlink.nonneg r (by simp [hr])
        omega
    rw [hr] at hlink
    exact ⟨hlink.recorded_le_serving, by omega⟩
  · by_cases hone : 1 ≤ (s.node j).step
    · obtain ⟨k, hk, hle⟩ := hlink.first (.inr hone) hnone
      obtain rfl := Option.some.inj hk
      exact hle
    · omega

/-- The step of a message is recorded. -/
lemma record (h : Inv s) {step : ℤ} (hne : i ≠ j) (hserving : (s.node j).serving i = some step) :
    Inv (s.setNode j ((s.node j).record i step)) := by
  have hnode := h.node j
  have hlink := h.link i j hne
  rw [Linked, hserving] at hlink
  rcases h.updateStep_cases hne hserving with
    ⟨changed, state', hok, hself, hother, hconnected, herr⟩ | ⟨herror, hrecorded⟩
  · refine h.setNode ?_ (fun k hk => h.link j k hk) fun k hk => ?_
    · refine ⟨hnode.nonneg, hnode.connecting, hnode.stepping, ?_, ?_, ?_⟩
      · simpa [Node.record, hok, hother j hne.symm] using hnode.own_step
      · simpa [Node.record, hok, hconnected] using hnode.own_connected
      · simpa [Node.record, hok, herr] using hnode.err
    · by_cases hki : k = i
      · subst hki
        simpa [Linked, Node.record, hok, hself, hconnected] using hlink.record
      · simpa [Linked, Node.record, hok, hother k hki, hconnected, Function.update_of_ne hki] using
          h.link k j hk
  · refine h.setNode ?_ (fun k hk => h.link j k hk) fun k hk => ?_
    · refine ⟨hnode.nonneg, hnode.connecting, hnode.stepping, ?_, ?_, fun e he => ?_⟩
      · simpa [Node.record, herror, ServerState.clearConnected] using hnode.own_step
      · simp [Node.record, herror, ServerState.clearConnected, hnode.own_connected]
      · simp only [Node.record, herror] at he
        rcases ServerState.err_setErr he with hold | rfl
        · exact hnode.err e hold
        · exact id
    · by_cases hki : k = i
      · subst hki
        simpa [Linked, Node.record, herror, ServerState.clearConnected] using
          hlink.drop hrecorded
      · simpa [Linked, Node.record, herror, ServerState.clearConnected, Function.update_of_ne hki,
          hki] using h.link k j hk

/-- A stream has ended. -/
lemma endStream (h : Inv s) :
    Inv (s.setNode j { s.node j with server := (s.node j).server.clearConnected i }) := by
  have hnode := h.node j
  refine h.setNode ⟨hnode.nonneg, hnode.connecting, hnode.stepping, hnode.own_step, ?_, hnode.err⟩
    (fun k hk => h.link j k hk) fun k hk => (h.link k j hk).disconnect fun hmem => ?_
  · exact fun hmem => hnode.own_connected (Finset.mem_of_mem_erase hmem)
  · exact Finset.mem_of_mem_erase hmem

/-- A node has found all its peers connected. -/
lemma allConnected (h : Inv s) (hphase : (s.node i).phase = .connecting)
    (hconnected : ∀ j, j ≠ i → j ∈ (s.node i).server.connected) :
    Inv (s.setNode i { s.node i with phase := .connected }) := by
  have hzero := (h.node i).connecting (.inr (.inl hphase))
  refine h.setNode { h.node i with connecting := fun _ => hzero, stepping := nofun }
    (fun j hne => h.link i j hne) fun j hne => ?_
  have hle := h.step_le hne
  exact (h.link j i hne).allConnected (hconnected j hne) (by omega) nofun

/-- A node calls `next_step`. -/
lemma call (h : Inv s) {clients : Finset ι}
    (hcall : (s.node i).phase = .connected ∨ (s.node i).phase = .ready) :
    Inv (s.setNode i ((s.node i).call ((s.node i).step + 1) clients)) := by
  have hnode := h.node i
  refine h.setNode ⟨?_, ?_, ?_, hnode.own_step, hnode.own_connected, hnode.err⟩
    (fun j hne => (h.link i j hne).advance) fun j hne => ?_
  · exact Int.le_add_one hnode.nonneg
  · rintro (hphase | hphase | hphase) <;> cases hphase
  · intro _ _
    exact Int.le_add_of_nonneg_left hnode.nonneg
  · have hready : (((s.node i).call ((s.node i).step + 1) clients).phase = .ready) = False :=
      eq_false (by simp [Node.call])
    rw [Linked, hready]
    refine (h.link j i hne).call ?_
    exact hcall.imp_left fun hphase => ⟨hnode.connecting (.inr (.inr hphase)), .inl hphase⟩

/-- The step of a client is set. -/
lemma setClient (h : Inv s) {clients clients' : Finset ι}
    (hphase : (s.node i).phase = .stepping clients) :
    Inv (s.setNode i { s.node i with
      clientStep := Function.update (s.node i).clientStep j (s.node i).step
      phase := .stepping clients' }) := by
  have hnode := h.node i
  refine h.setNode ⟨hnode.nonneg, ?_, fun _ _ => hnode.stepping clients hphase, hnode.own_step,
    hnode.own_connected, hnode.err⟩ (fun k hne => ?_) fun k hne =>
      (h.link k i hne).finish nofun fun hbegun => .inr (hbegun.resolve_left nofun)
  · rintro (hphase | hphase | hphase) <;> cases hphase
  · by_cases hk : k = j
    · subst hk
      simpa [Linked] using (h.link i k hne).setClient
    · simpa [Linked, Function.update_of_ne hk] using h.link i k hne

section Runs

variable [Fintype ι] {l : Label ι} {tr : List (Label ι)}

/-- How a barrier returns, in a cluster. -/
lemma returned (h : Inv s) {result : Except (Error ι) Unit}
    (hresult : (s.node i).server.awaitAllAtStep (peersOf i).card (s.node i).step = some result) :
    (result = .ok () ∧ ∀ j, j ≠ i →
      ∃ r, (s.node i).server.steps.lookup j = some r ∧ (s.node i).step ≤ r) ∨
    ∃ e, result = .error e ∧ ¬ e.IsStepError := by
  rcases ServerState.awaitAllAtStep_cases hresult (h.node i).own_step with
    hok | ⟨e, rfl, herr⟩ | rfl | ⟨j, r, hlook, hahead⟩
  · exact .inl hok
  · exact .inr ⟨e, rfl, (h.node i).err e herr⟩
  · exact .inr ⟨_, rfl, id⟩
  · have hne : j ≠ i := by
      rintro rfl
      exact absurd hlook (by simp [(h.node j).own_step])
    have hsent : r ≤ (s.node j).step := (h.link j i hne).le_senderStep (by simp [hlook])
    have hle := h.step_le hne
    omega

lemma step (h : Inv s) (hstep : Step s l s') : Inv s' := by
  cases hstep with
  | started hphase =>
    exact h.setPhase (fun _ => (h.node _).connecting (.inl hphase)) nofun nofun nofun
  | sent hne _ => exact h.setWire fun hne => (h.link _ _ hne).send
  | lost hrest => exact h.setWire fun hne => (h.link _ _ hne).lose hrest
  | served valid hne _ hserving hwire => exact h.serve valid hne hserving hwire
  | recorded hne hserving => exact h.record hne hserving
  | ended _ => exact h.endStream
  | @connected i hphase hconnected =>
    exact h.allConnected hphase fun j hne =>
      ServerState.mem_connected_of_awaitAllConnected (h.node i).own_connected hconnected hne
  | called hphase hk =>
    obtain rfl := checkedAdd_eq_some hk
    exact h.call hphase
  | set hphase _ => exact h.setClient hphase
  | @returned i result _ hresult =>
    rcases h.returned hresult with ⟨rfl, hall⟩ | ⟨e, rfl, -⟩
    · exact h.setPhase (by simp) nofun nofun fun _ => hall
    · exact h.setPhase (by simp) nofun nofun nofun
  | refused _ _ => exact h.setPhase (by simp) nofun nofun nofun

lemma run (hrun : Trace Step (Cluster.new ι) tr s) : Inv s :=
  hrun.invariant Inv.new fun _ _ _ hinv hstep => hinv.step hstep

end Runs

end Inv

/-! ## The barrier -/

section Barrier

variable [Fintype ι] {s s' : Cluster ι} {l : Label ι} {tr : List (Label ι)}

omit [Fintype ι] in
lemma step_setNode {i : ι} {n : Node ι} (hn : n.step = (s.node i).step) (j : ι) :
    ((s.setNode i n).node j).step = (s.node j).step := by
  by_cases hj : j = i
  · subst hj
    simpa [Cluster.setNode] using hn
  · simp [Cluster.setNode, Function.update_of_ne hj]

/-- Only `next_step` changes a step, and increments it. -/
lemma Step.step_cases (h : Step s l s') (j : ι) :
    (s'.node j).step = (s.node j).step ∨
      ((s'.node j).step = (s.node j).step + 1 ∧ l = .called j ((s.node j).step + 1)) := by
  have hcall : ∀ i k, checkedAdd (s.node i).step 1 = some k → ∀ clients,
      ((s.setNode i ((s.node i).call k clients)).node j).step = (s.node j).step ∨
        (((s.setNode i ((s.node i).call k clients)).node j).step = (s.node j).step + 1 ∧
          Label.called i k = .called j ((s.node j).step + 1)) := by
    intro i k hk clients
    obtain rfl := checkedAdd_eq_some hk
    by_cases hj : j = i
    · subst hj
      exact .inr (by simp [Cluster.setNode, Node.call])
    · exact .inl (by simp [Cluster.setNode, Function.update_of_ne hj])
  cases h with
  | called _ hk => exact hcall _ _ hk _
  | sent _ _ => exact .inl rfl
  | lost _ => exact .inl rfl
  | served _ _ _ _ _ | started _ | recorded _ _ | ended _ | connected _ _ | set _ _
  | returned _ _ | refused _ _ => exact .inl (step_setNode (by rfl) j)

/-- A node at a step has called `next_step` for it and for all before. -/
lemma called_of_le (hrun : Trace Step (Cluster.new ι) tr s) {j : ι} {k : ℤ} (hone : 1 ≤ k)
    (hk : k ≤ (s.node j).step) : .called j k ∈ tr := by
  induction hrun with
  | nil => exact absurd (hone.trans hk) (by simp [Cluster.new])
  | @snoc _ s₁ s₂ _ _ hstep ih =>
    rcases hstep.step_cases j with hsame | ⟨hnext, hl⟩
    · exact List.mem_append_left _ (ih (hsame ▸ hk))
    · by_cases hle : k ≤ (s₁.node j).step
      · exact List.mem_append_left _ (ih hle)
      · rw [hl, show k = (s₁.node j).step + 1 by omega]
        exact List.mem_append_right _ List.mem_cons_self

/-- **The barrier of the steps.**  In every run of a cluster, no server records that a peer is at a
wrong step and no `next_step` returns so, and when one returns `Ok` for a step then all other nodes
have called `next_step` for it. -/
theorem step_barrier (hrun : Trace Step (Cluster.new ι) tr s) :
    (∀ i e, (s.node i).server.err = some e → ¬ e.IsStepError) ∧
      ∀ past future i k result, tr = past ++ .returned i k result :: future →
        (∀ e, result = .error e → ¬ e.IsStepError) ∧
          (result = .ok () → ∀ j, j ≠ i → .called j k ∈ past) := by
  refine ⟨fun i => ((Inv.run hrun).node i).err, fun past future i k result htr => ?_⟩
  subst htr
  obtain ⟨s₁, s₂, hpast, hstep, -⟩ := hrun.split_cons
  have hinv := Inv.run hpast
  cases hstep with
  | returned hphase hresult =>
  rcases hinv.returned hresult with ⟨rfl, hall⟩ | ⟨e, rfl, hstepError⟩
  · refine ⟨nofun, fun _ j hne => ?_⟩
    obtain ⟨r, hr, hle⟩ := hall j hne
    have hsent : r ≤ (s₁.node j).step := (hinv.link j i hne).le_senderStep (by simp [hr])
    exact called_of_le hpast ((hinv.node i).stepping ∅ hphase) (hle.trans hsent)
  · refine ⟨fun e' he => ?_, nofun⟩
    obtain rfl := Except.error.inj he
    exact hstepError

end Barrier

/-- Two nodes connect and take the first step; the first one passes the barrier. -/
theorem step_barrier_two_nodes :
    ∃ past s, Trace Step (Cluster.new (Fin 2)) (past ++ [.returned 0 1 (.ok ())]) s ∧
      .called 1 1 ∈ past := by
  have hstarted := (Trace.nil.snoc (Step.started (s := Cluster.new (Fin 2)) (i := 0) rfl)).snoc
    (Step.started (i := 1) rfl)
  have hsent := (hstarted.snoc (.sent (i := 0) (j := 1) (by decide) nofun)).snoc
    (.sent (i := 1) (j := 0) (by decide) nofun)
  have hfirst := (hsent.snoc (.served (i := 0) (j := 1) true (by decide) nofun rfl rfl)).snoc
    (.recorded (i := 0) (j := 1) (by decide) rfl)
  have hsecond := (hfirst.snoc (.served (i := 1) (j := 0) true (by decide) nofun rfl rfl)).snoc
    (.recorded (i := 1) (j := 0) (by decide) rfl)
  have hconnected := (hsecond.snoc (.connected (i := 0) rfl rfl)).snoc (.connected (i := 1) rfl rfl)
  have hcalled := (hconnected.snoc (.called (i := 0) (k := 1) (.inl rfl) rfl)).snoc
    (.set (i := 0) (j := 1) rfl (by decide))
  have hcalled' := (hcalled.snoc (.called (i := 1) (k := 1) (.inl rfl) rfl)).snoc
    (.set (i := 1) (j := 0) rfl (by decide))
  have hserved := ((hcalled'.snoc (.sent (i := 1) (j := 0) (by decide) nofun)).snoc
    (.served (i := 1) (j := 0) true (by decide) nofun rfl rfl)).snoc
    (.recorded (i := 1) (j := 0) (by decide) rfl)
  have hreturned := hserved.snoc (a := .returned 0 1 (.ok ())) (.returned rfl rfl)
  exact ⟨_, _, hreturned, ((step_barrier hreturned).2 _ [] 0 1 _ rfl).2 rfl 1 (by decide)⟩

end Pluto.Dkg.Sync
