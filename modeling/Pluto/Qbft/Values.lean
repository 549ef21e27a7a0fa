import Pluto.Qbft.Invariant

/-!
# Where the values of an execution come from

The core never makes up a value: whatever it stores or broadcasts is the null value, its input, or
a value of a message delivered to it.  As for the provenance of messages, this is stated for an
arbitrary predicate `P` on values, and for one step at a time: the users of this file let `P` grow
while the execution goes on.
-/

namespace Pluto.Qbft

variable {V : Type} [DecidableEq V] [Inhabited V] {P Q : V → Prop}

/-- `P` holds of both values of a message. -/
def Msg.Values (P : V → Prop) (m : Msg V) : Prop := P m.value ∧ P m.preparedValue

/-- `P` holds of the values an event brings in. -/
def Event.Supplies (P : V → Prop) : Event V → Prop
  | .input value _ => P value
  | .receive wire _ _ _ => wire.msg.All (Msg.Values P)
  | _ => True

/-- The event with another result of the broadcast. -/
def Event.withSent (sent : Except QbftError Unit) : Event V → Event V
  | .input value _ => .input value sent
  | .receive wire order compared _ => .receive wire order compared sent
  | .timer _ => .timer sent
  | e => e

/-- `P` holds of the values of a state. -/
structure State.Values (P : V → Prop) (s : State V) : Prop where
  stored : s.Holds (Msg.Values P)
  inputValue : P s.inputValue
  preparedValue : P s.preparedValue

/-- The values of a broadcast, outside its justification. -/
def BroadcastRequest.values (req : BroadcastRequest V) : List V := [req.value, req.preparedValue]

section Mono

omit [DecidableEq V] [Inhabited V] in
lemma State.Holds.mono {P Q : Msg V → Prop} (h : ∀ m, P m → Q m) {s : State V} (hs : s.Holds P) :
    s.Holds Q where
  buffer m hm := ⟨h m (hs.buffer m hm).1, fun j hj => h j ((hs.buffer m hm).2 j hj)⟩
  ppjCache m hm := h m (hs.ppjCache m hm)
  preparedJustification m hm := h m (hs.preparedJustification m hm)
  qCommit m hm := h m (hs.qCommit m hm)

omit [DecidableEq V] [Inhabited V] in
lemma Msg.Values.mono (h : ∀ v, P v → Q v) {m : Msg V} (hm : m.Values P) : m.Values Q :=
  ⟨h _ hm.1, h _ hm.2⟩

omit [DecidableEq V] [Inhabited V] in
lemma State.Values.mono (h : ∀ v, P v → Q v) {s : State V} (hs : s.Values P) : s.Values Q :=
  ⟨hs.stored.mono fun _ => Msg.Values.mono h, h _ hs.inputValue, h _ hs.preparedValue⟩

omit [DecidableEq V] [Inhabited V] in
lemma Event.Supplies.mono (h : ∀ v, P v → Q v) {e : Event V} (he : e.Supplies P) :
    e.Supplies Q := by
  cases e with
  | input value sent => exact h _ he
  | receive wire order compared sent =>
    exact ⟨Msg.Values.mono h he.1, fun j hj => Msg.Values.mono h (he.2 j hj)⟩
  | _ => trivial

omit [DecidableEq V] [Inhabited V] in
lemma Event.Supplies.withSent {e : Event V} (he : e.Supplies P) (sent : Except QbftError Unit) :
    (e.withSent sent).Supplies P := by
  cases e <;> exact he

omit [DecidableEq V] [Inhabited V] in
lemma Event.Receives.withSent {R : Msg V → Prop} {e : Event V} (he : e.Receives R)
    (sent : Except QbftError Unit) : (e.withSent sent).Receives R := by
  cases e <;> exact he

end Mono

variable {d : Definition} {process : ℤ} {s s' : State V}

/-- A justified prepared value is the value of a message of the justification. -/
lemma exists_value_of_single {msgs : List (Msg V)} {pr : ℤ} {pv : V}
    (h : getSingleJustifiedPrPv d msgs = some (pr, pv)) : ∃ m ∈ msgs, m.value = pv := by
  obtain ⟨hquorum, hvalues⟩ := getSingleJustifiedPrPv_eq_some.mp h
  have hlen : 0 < (preparesOf msgs).length := d.quorumCount_pos.trans_le hquorum.2
  obtain ⟨m, hm⟩ := List.exists_mem_of_length_pos hlen
  exact ⟨m, (mem_preparesOf.mp hm).1, (hvalues m hm).2⟩

omit [DecidableEq V] [Inhabited V] in
lemma Event.Supplies.receives {e : Event V} (he : e.Supplies P) :
    e.Receives (Msg.All (Msg.Values P)) := by
  cases e with
  | receive wire order compared sent => exact he
  | _ => trivial

/-- **The origin of values, one step.** -/
theorem Trans.values (hnull : P default) {e : Event V} {out : Option (Output V)}
    (h : Trans d process s e s' out) (he : e.Supplies P) (hs : s.Values P) :
    s'.Values P ∧ ∀ req, out = some (.broadcast req) → ∀ v ∈ req.values, P v := by
  obtain ⟨hstored, hcarried⟩ := h.holds he.receives hs.stored
  have both : ∀ {req req' : BroadcastRequest V}, P req.value → P req.preparedValue →
      (some (Output.broadcast req) = some (.broadcast req')) → ∀ v ∈ req'.values, P v := by
    intro req req' hvalue hprepared heq v hv
    cases heq
    rcases List.mem_pair.mp hv with rfl | rfl
    · exact hvalue
    · exact hprepared
  cases h with
  | idle => exact ⟨hs, by simp⟩
  | input inputOpen => exact ⟨⟨hstored, he, hs.preparedValue⟩, by simp⟩
  | inputProposed nonNull cached => exact ⟨⟨hstored, he, hs.preparedValue⟩, fun _ => both he hnull⟩
  | @answered _ _ _ _ first qCommit decided source type =>
    obtain ⟨hq, hhead⟩ := State.decision_eq_some.mp decided
    have hfirst : first.Values P := by
      apply hs.stored.qCommit
      rw [hq]
      exact List.mem_of_mem_head? hhead
    exact ⟨hs, fun _ => both hfirst.1 hnull⟩
  | buffered undecided mem | noted acc eq | cached acc own =>
    exact ⟨⟨hstored, hs.inputValue, hs.preparedValue⟩, by simp⟩
  | prepared acc =>
    exact ⟨⟨hstored, by simpa using hs.inputValue, by simpa using hs.preparedValue⟩,
      fun _ => both he.1.1 hnull⟩
  | compareFailed acc | compareAborted acc | decided rules acc =>
    exact ⟨⟨hstored, by simpa using hs.inputValue, by simpa using hs.preparedValue⟩, by simp⟩
  | compareTimedOut acc | jumped acc next | timedOut armed =>
    exact ⟨⟨hstored, by simpa using hs.inputValue, by simpa using hs.preparedValue⟩,
      fun _ => both hnull (by simpa [roundChangeRequest] using hs.preparedValue)⟩
  | committed acc => exact ⟨⟨hstored, hs.inputValue, he.1.1⟩, fun _ => both he.1.1 hnull⟩
  | proposedPrepared acc single =>
    obtain ⟨m, hm, rfl⟩ := exists_value_of_single single
    exact ⟨⟨hstored, hs.inputValue, hs.preparedValue⟩,
      fun _ => both (hcarried _ rfl m hm).1 hnull⟩
  | proposedOwn acc own nonNull =>
    exact ⟨⟨hstored, hs.inputValue, hs.preparedValue⟩, fun _ => both hs.inputValue hnull⟩

lemma machine_init_values (hnull : P default) (d : Definition) (process : ℤ) :
    (machine (V := V) d process).init.Values P := by
  refine ⟨machine_init_holds _ d process, ?_, ?_⟩ <;> simpa [machine_init, initialState] using hnull

end Pluto.Qbft
