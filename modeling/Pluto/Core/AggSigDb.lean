import Pluto.Core.Duty
import Pluto.Lib.Attempt
import Pluto.Lib.HashMap
import Pluto.Lib.Trace

/-!
# The in-memory AggSigDB

`MemoryDBActor` of `crates/core/src/aggsigdb/memory.rs`: a task that owns the aggregated signatures
and the readers that wait for one.  It takes one event after the other, so a `store` is not
interleaved with anything; only readers may give up at any time, also while the actor sends to them
(`Step.turn` has one moment for the sends and a later one for the trim at the end of the turn).
The events come in any order: that expirations are taken first, and how many messages fit into the
channel, does not matter here.  The outcome of the deadliner is ignored by the code and left out.

A `store` writes key by key and returns at the first mismatch, with what it has written; so it is an
`Attempt`, over a `Turn` that also collects what is written and sent.

`single_value` is the result: nobody is parked on a key that is there, and from one eviction of a
duty to the next all replies for a key are the first value stored.
-/

namespace Pluto.Core.AggSigDb

/-! ## The actor -/

inductive Error
  | mismatchingData
  deriving DecidableEq, Repr

abbrev Key : Type := Duty × PubKey

/-- A set of signed data, one for a public key, in the order it is iterated in. -/
structure SignedDataSet (D : Type) where
  entries : List (PubKey × D)
  nodup : (entries.map Prod.fst).Nodup

/-- `D` is the signed data, of which the actor only uses equality, and `ρ` are the readers: one for
each response channel. -/
structure MemoryDBActor (D ρ : Type) where
  entries : HashMap Duty (HashMap PubKey D)
  /-- The readers parked on a key.  A key without readers has no entry in the source's map. -/
  waiters : Key → List ρ

/-- What the actor sends on a response channel of `wait_for`. -/
structure Reply (D ρ : Type) where
  reader : ρ
  key : Key
  value : D

/-- A turn of the actor so far: what it has written into vacant entries and what it has sent. -/
structure Turn (D ρ : Type) where
  actor : MemoryDBActor D ρ
  inserted : List (Key × D)
  replies : List (Reply D ρ)

inductive Event (D ρ : Type)
  | expired (duty : Duty)
  | store (duty : Duty) (set : SignedDataSet D)
  | waitFor (duty : Duty) (pubKey : PubKey) (response : ρ)

namespace MemoryDBActor

variable {D ρ : Type}

def new (D ρ : Type) : MemoryDBActor D ρ := ⟨∅, fun _ => []⟩

/-- `entries.entry(duty).or_default()` -/
def forDuty (a : MemoryDBActor D ρ) (duty : Duty) : HashMap PubKey D :=
  (a.entries.lookup duty).getD ∅

def get (a : MemoryDBActor D ρ) (key : Key) : Option D :=
  (a.entries.lookup key.1).bind fun forDuty => forDuty.lookup key.2

def evict (duty : Duty) (a : MemoryDBActor D ρ) : MemoryDBActor D ρ :=
  { a with entries := a.entries.erase duty }

/-- `retain` on the lists of waiters; empty lists go. -/
def trimReaders (closed : ρ → Bool) (a : MemoryDBActor D ρ) : MemoryDBActor D ρ :=
  { a with waiters := fun key => (a.waiters key).filter fun w => !closed w }

/-- The map of the duty comes into being. -/
def touch (duty : Duty) (a : MemoryDBActor D ρ) : MemoryDBActor D ρ :=
  { a with entries := a.entries.insert duty (a.forDuty duty) }

/-- A vacant entry is filled, and the waiters of its key are taken out. -/
def fill (key : Key) (value : D) (a : MemoryDBActor D ρ) : MemoryDBActor D ρ where
  entries := a.entries.insert key.1 ((a.forDuty key.1).insert key.2 value)
  waiters := Function.update a.waiters key []

def park (key : Key) (response : ρ) (a : MemoryDBActor D ρ) : MemoryDBActor D ρ :=
  { a with waiters := Function.update a.waiters key (a.waiters key ++ [response]) }

end MemoryDBActor

namespace Turn

variable {D ρ : Type}

/-- Sends that reach their reader: a closed channel drops what is sent. -/
def send (closed : ρ → Bool) (key : Key) (value : D) (readers : List ρ) (t : Turn D ρ) : Turn D ρ :=
  { t with
    replies := t.replies ++
      (readers.filter fun w => !closed w).map fun reader => ⟨reader, key, value⟩ }

/-- The `Entry::Vacant` arm of `store`. -/
def insert (closed : ρ → Bool) (key : Key) (value : D) (t : Turn D ρ) : Turn D ρ :=
  send closed key value (t.actor.waiters key)
    { t with actor := t.actor.fill key value, inserted := t.inserted ++ [(key, value)] }

variable [DecidableEq D]

/-- The body of the loop of `store`. -/
def storeEntry (closed : ρ → Bool) (duty : Duty) (entry : PubKey × D) :
    Attempt Error (Turn D ρ) Unit := do
  let t ← get
  match t.actor.get (duty, entry.1) with
  | none => set (t.insert closed (duty, entry.1) entry.2)
  | some existing => if existing ≠ entry.2 then throw .mismatchingData else pure ()

def store (closed : ρ → Bool) (duty : Duty) (set : SignedDataSet D) :
    Attempt Error (Turn D ρ) Unit :=
  if set.entries = [] then pure ()
  else do
    modify fun t => { t with actor := t.actor.touch duty }
    set.entries.forM (storeEntry closed duty)

def waitFor (closed : ρ → Bool) (key : Key) (response : ρ) (t : Turn D ρ) : Turn D ρ :=
  match t.actor.get key with
  | some found => t.send closed key found [response]
  | none => { t with actor := t.actor.park key response }

/-- The arms of the `select!` of `run`. -/
def handle (closed : ρ → Bool) : Event D ρ → Attempt Error (Turn D ρ) Unit
  | .expired duty => modify fun t => { t with actor := t.actor.evict duty }
  | .store duty set => store closed duty set
  | .waitFor duty pubKey response => modify (waitFor closed (duty, pubKey) response)

end Turn

/-! ## Runs -/

/-- The actor, and the readers that have given up. -/
structure Db (D ρ : Type) where
  actor : MemoryDBActor D ρ
  closed : ρ → Bool

inductive Label (D ρ : Type)
  | cancel (reader : ρ)
  | turn (event : Event D ρ) (result : Except Error Unit) (inserted : List (Key × D))
      (replies : List (Reply D ρ))

namespace Db

variable {D ρ : Type}

def start (D ρ : Type) : Db D ρ := ⟨.new D ρ, fun _ => false⟩

inductive Step [DecidableEq D] [DecidableEq ρ] : Db D ρ → Label D ρ → Db D ρ → Prop
  | cancel {db} (reader : ρ) :
      Step db (.cancel reader) { db with closed := Function.update db.closed reader true }
  | turn {db} {event : Event D ρ} {result} {t : Turn D ρ} {sending trimming : ρ → Bool}
      (before : ∀ reader, db.closed reader → sending reader)
      (later : ∀ reader, sending reader → trimming reader)
      (exec : Attempt.exec (Turn.handle sending event) ⟨db.actor, [], []⟩ = (result, t)) :
      Step db (.turn event result t.inserted t.replies) ⟨t.actor.trimReaders trimming, trimming⟩

end Db

/-! ## What a turn does -/

section Lookups

variable {D ρ : Type} {a : MemoryDBActor D ρ}

/-- The values of a key in a list of writes, oldest first. -/
def valuesAt (key : Key) (writes : List (Key × D)) : List D :=
  (writes.filter fun w => w.1 = key).map Prod.snd

lemma valuesAt_append (key : Key) (writes writes' : List (Key × D)) :
    valuesAt key (writes ++ writes') = valuesAt key writes ++ valuesAt key writes' := by
  simp [valuesAt]

lemma valuesAt_self (key : Key) (value : D) : valuesAt key [(key, value)] = [value] := by
  simp [valuesAt]

lemma valuesAt_ne {key key' : Key} (h : key' ≠ key) (value : D) :
    valuesAt key [(key', value)] = [] := by
  simp [valuesAt, h]

namespace MemoryDBActor

lemma get_eq_forDuty (a : MemoryDBActor D ρ) (key : Key) :
    a.get key = (a.forDuty key.1).lookup key.2 := by
  unfold get forDuty
  cases a.entries.lookup key.1 <;> simp

@[simp] lemma get_touch (duty : Duty) (key : Key) : (a.touch duty).get key = a.get key := by
  by_cases h : key.1 = duty
  · subst h
    rw [get_eq_forDuty a]
    simp [get, touch]
  · simp [get, touch, AList.lookup_insert_ne h]

lemma get_fill_self (key : Key) (value : D) : (a.fill key value).get key = some value := by
  simp [get, fill]

lemma get_fill_ne {key key' : Key} (h : key' ≠ key) (value : D) :
    (a.fill key value).get key' = a.get key' := by
  obtain ⟨duty, pubKey⟩ := key
  obtain ⟨duty', pubKey'⟩ := key'
  by_cases hduty : duty' = duty
  · subst hduty
    have hpub : pubKey' ≠ pubKey := fun hpub => h (by rw [hpub])
    rw [get_eq_forDuty a]
    simp [get, fill, AList.lookup_insert_ne hpub]
  · simp [get, fill, AList.lookup_insert_ne hduty]

lemma get_evict_self (duty : Duty) (pubKey : PubKey) : (a.evict duty).get (duty, pubKey) = none := by
  simp [get, evict]

lemma get_evict_ne {duty : Duty} {key : Key} (h : key.1 ≠ duty) :
    (a.evict duty).get key = a.get key := by
  simp [get, evict, AList.lookup_erase_ne h]

end MemoryDBActor

end Lookups

/-- What holds in a turn that started with the actor `a`, as long as nothing is evicted. -/
structure Turn.Ok {D ρ : Type} (a : MemoryDBActor D ρ) (t : Turn D ρ) : Prop where
  get_eq : ∀ key, t.actor.get key = (a.get key).or (valuesAt key t.inserted).head?
  replied : ∀ r ∈ t.replies, t.actor.get r.key = some r.value
  unparked : ∀ key, t.actor.get key ≠ none → t.actor.waiters key = []

namespace Turn

variable {D ρ : Type} {a : MemoryDBActor D ρ} {t : Turn D ρ} {closed : ρ → Bool}

lemma ok_start (h : ∀ key, a.get key ≠ none → a.waiters key = []) : Ok a ⟨a, [], []⟩ where
  get_eq := by simp [valuesAt]
  replied := by simp
  unparked := h

lemma Ok.send (h : Ok a t) {key : Key} {value : D} (hget : t.actor.get key = some value)
    (readers : List ρ) : Ok a (t.send closed key value readers) := by
  refine { h with replied := fun r hr => ?_ }
  rcases List.mem_append.mp hr with hold | hnew
  · exact h.replied r hold
  · obtain ⟨reader, -, rfl⟩ := List.mem_map.mp hnew
    exact hget

lemma Ok.touch (h : Ok a t) (duty : Duty) : Ok a { t with actor := t.actor.touch duty } where
  get_eq := by simpa using h.get_eq
  replied := by simpa using h.replied
  unparked := fun key hfound => h.unparked key fun hnone => hfound (by simpa using hnone)

lemma Ok.insert (h : Ok a t) {key : Key} (vacant : t.actor.get key = none) (value : D) :
    Ok a (t.insert closed key value) := by
  obtain ⟨hstart, hwritten⟩ : a.get key = none ∧ (valuesAt key t.inserted).head? = none := by
    rw [← Option.or_eq_none_iff, ← h.get_eq key, vacant]
  apply Ok.send
  · refine ⟨fun key' => ?_, fun r hr => ?_, fun key' hfound => ?_⟩
    · simp only [valuesAt_append]
      by_cases heq : key' = key
      · subst heq
        rw [MemoryDBActor.get_fill_self, hstart, List.head?_eq_none_iff.mp hwritten, valuesAt_self]
        rfl
      · rw [MemoryDBActor.get_fill_ne heq, valuesAt_ne (Ne.symm heq), List.append_nil]
        exact h.get_eq key'
    · have hne : r.key ≠ key := by
        intro heq
        have hreplied := h.replied r hr
        rw [heq, vacant] at hreplied
        cases hreplied
      rw [MemoryDBActor.get_fill_ne hne]
      exact h.replied r hr
    · by_cases heq : key' = key
      · simp [MemoryDBActor.fill, heq]
      · rw [MemoryDBActor.get_fill_ne heq] at hfound
        simpa [MemoryDBActor.fill, heq] using h.unparked key' hfound
  · exact MemoryDBActor.get_fill_self key value

lemma Ok.waitFor (h : Ok a t) (key : Key) (response : ρ) : Ok a (t.waitFor closed key response) := by
  unfold Turn.waitFor
  cases hget : t.actor.get key with
  | some found => exact h.send hget _
  | none =>
    refine { h with unparked := fun key' hfound => ?_ }
    have hne : key' ≠ key := by
      rintro rfl
      exact hfound hget
    simpa [MemoryDBActor.park, hne] using h.unparked key' hfound

variable [DecidableEq D]

lemma keeps_storeEntry (duty : Duty) (entry : PubKey × D) :
    Attempt.Keeps (fun t t' => Ok a t → Ok a t') (storeEntry closed duty entry) := by
  intro t h
  rw [storeEntry, Attempt.exec_bind, Attempt.exec_get]
  cases hget : t.actor.get (duty, entry.1) with
  | none => simpa [hget] using h.insert hget entry.2
  | some existing =>
    by_cases heq : existing = entry.2
    · simpa [hget, heq] using h
    · simpa [hget, heq] using h

lemma keeps_store (duty : Duty) (set : SignedDataSet D) :
    Attempt.Keeps (fun t t' => Ok a t → Ok a t') (store closed duty set) := by
  have htrans : ∀ t₁ t₂ t₃ : Turn D ρ, (Ok a t₁ → Ok a t₂) → (Ok a t₂ → Ok a t₃) →
      Ok a t₁ → Ok a t₃ := fun _ _ _ h h' => h' ∘ h
  unfold store
  split
  · exact fun _ h => h
  · refine Attempt.Keeps.bind htrans (fun t h => h.touch duty) fun _ => ?_
    exact Attempt.Keeps.forM (fun _ => id) htrans fun entry _ => keeps_storeEntry duty entry

/-- An event other than an expiration. -/
lemma Ok.handle (h : Ok a t) (closed : ρ → Bool) {event : Event D ρ}
    (hevent : ∀ duty, event ≠ .expired duty) :
    Ok a (Attempt.exec (Turn.handle closed event) t).2 := by
  cases event with
  | expired duty => exact absurd rfl (hevent duty)
  | store duty set => exact keeps_store duty set t h
  | waitFor duty pubKey response => exact h.waitFor (duty, pubKey) response

end Turn

/-! ## Runs -/

section Runs

variable {D ρ : Type}

/-- The actor evicts the duty. -/
def Label.Evicts (duty : Duty) : Label D ρ → Prop
  | .turn (.expired expired) _ _ _ => expired = duty
  | _ => False

def Label.inserted : Label D ρ → List (Key × D)
  | .cancel _ => []
  | .turn _ _ inserted _ => inserted

def Label.replies : Label D ρ → List (Reply D ρ)
  | .cancel _ => []
  | .turn _ _ _ replies => replies

/-- The values stored for a key, oldest first. -/
def storedIn (key : Key) (tr : List (Label D ρ)) : List D :=
  tr.flatMap fun l => valuesAt key l.inserted

/-- The replies to the readers of a key. -/
def repliesIn (key : Key) (tr : List (Label D ρ)) : List D :=
  tr.flatMap fun l => (l.replies.filter fun r => r.key = key).map Reply.value

/-- The past ends with an eviction of the duty, or is empty. -/
def Begins (duty : Duty) (pre : List (Label D ρ)) : Prop :=
  pre = [] ∨ ∃ pre' l, pre = pre' ++ [l] ∧ l.Evicts duty

/-- What a step does to a key: it is evicted, or it keeps its value and gets one if it had none. -/
structure Effect (db : Db D ρ) (l : Label D ρ) (db' : Db D ρ) (key : Key) : Prop where
  evicted : l.Evicts key.1 → db'.actor.get key = none
  get_eq : ¬l.Evicts key.1 →
    db'.actor.get key = (db.actor.get key).or (valuesAt key l.inserted).head?
  replied : ¬l.Evicts key.1 → ∀ r ∈ l.replies, r.key = key → db'.actor.get key = some r.value
  unparked : db'.actor.get key ≠ none → db'.actor.waiters key = []

/-- The history since the last eviction of a duty, next to the state. -/
structure History (tr : List (Label D ρ)) (db : Db D ρ) : Prop where
  unparked : ∀ key, db.actor.get key ≠ none → db.actor.waiters key = []
  first : ∀ pre mid key, tr = pre ++ mid → Begins key.1 pre → (∀ l ∈ mid, ¬l.Evicts key.1) →
    db.actor.get key = (storedIn key mid).head? ∧
      ∀ v ∈ repliesIn key mid, db.actor.get key = some v

lemma history_start : History [] (Db.start D ρ) where
  unparked _ _ := rfl
  first pre mid key htr _ _ := by
    obtain ⟨rfl, rfl⟩ := List.append_eq_nil_iff.mp htr.symm
    exact ⟨rfl, nofun⟩

variable [DecidableEq D] [DecidableEq ρ]

lemma Db.Step.effect {db db' : Db D ρ} {l : Label D ρ} (h : Db.Step db l db')
    (hunparked : ∀ key, db.actor.get key ≠ none → db.actor.waiters key = []) (key : Key) :
    Effect db l db' key := by
  cases h with
  | cancel reader =>
    refine ⟨nofun, fun _ => ?_, fun _ => nofun, hunparked key⟩
    simp [Label.inserted, valuesAt]
  | @turn event result t sending trimming before later exec =>
    have htrim : ∀ key, (t.actor.trimReaders trimming).get key = t.actor.get key := fun _ => rfl
    by_cases hexpired : ∃ duty, event = .expired duty
    · obtain ⟨duty, rfl⟩ := hexpired
      obtain ⟨-, rfl⟩ : .ok () = result ∧ (⟨db.actor.evict duty, [], []⟩ : Turn D ρ) = t :=
        Prod.mk.inj exec
      refine ⟨fun hevicts => ?_, fun hother => ?_, fun _ => nofun, fun hfound => ?_⟩
      · obtain rfl : duty = key.1 := hevicts
        exact MemoryDBActor.get_evict_self _ _
      · rw [htrim, MemoryDBActor.get_evict_ne (Ne.symm hother)]
        simp [Label.inserted, valuesAt]
      · have hne : key.1 ≠ duty := by
          rintro rfl
          exact hfound (MemoryDBActor.get_evict_self _ _)
        rw [htrim, MemoryDBActor.get_evict_ne hne] at hfound
        simp [MemoryDBActor.trimReaders, MemoryDBActor.evict, hunparked key hfound]
    · have hok : Turn.Ok db.actor t := by
        have hstart := (Turn.ok_start hunparked).handle sending
          fun duty hduty => hexpired ⟨duty, hduty⟩
        rw [exec] at hstart
        exact hstart
      have hkept : ¬(Label.turn event result t.inserted t.replies).Evicts key.1 := by
        cases event with
        | expired duty => exact absurd ⟨duty, rfl⟩ hexpired
        | _ => exact id
      refine ⟨fun hevicts => absurd hevicts hkept, fun _ => hok.get_eq key, ?_, fun hfound => ?_⟩
      · rintro - r hr rfl
        exact hok.replied r hr
      · simp [MemoryDBActor.trimReaders, hok.unparked key hfound]

lemma History.step {tr : List (Label D ρ)} {db db' : Db D ρ} {l : Label D ρ} (h : History tr db)
    (hstep : Db.Step db l db') : History (tr ++ [l]) db' := by
  have heffect := hstep.effect h.unparked
  refine ⟨fun key => (heffect key).unparked, fun pre mid key htr hbegins hmid => ?_⟩
  rcases List.eq_nil_or_concat' mid with rfl | ⟨mid, last, rfl⟩
  · -- the last step is the eviction
    rw [List.append_nil] at htr
    rcases hbegins with rfl | ⟨pre', l', rfl, hevicts⟩
    · simp at htr
    · obtain ⟨-, hlast⟩ := List.append_inj' htr rfl
      obtain rfl : l = l' := List.singleton_inj.mp hlast
      exact ⟨(heffect key).evicted hevicts, nofun⟩
  · rw [← List.append_assoc] at htr
    obtain ⟨hpast, hlast⟩ := List.append_inj' htr rfl
    obtain rfl : l = last := List.singleton_inj.mp hlast
    have hother : ¬l.Evicts key.1 := hmid l (by simp)
    obtain ⟨hget, hreplies⟩ := h.first pre mid key hpast hbegins
      fun l' hl' => hmid l' (List.mem_append_left _ hl')
    have hnow := (heffect key).get_eq hother
    refine ⟨?_, fun v hv => ?_⟩
    · rw [hnow, hget, storedIn, storedIn, List.flatMap_append, List.head?_append]
      simp
    · rw [repliesIn, List.flatMap_append] at hv
      rcases List.mem_append.mp hv with hold | hnew
      · rw [hnow, hreplies v hold]
        rfl
      · obtain ⟨r, hr, rfl⟩ : ∃ r ∈ l.replies.filter (fun r => r.key = key), r.value = v := by
          simpa using hnew
        obtain ⟨hmem, hkey⟩ := List.mem_filter.mp hr
        exact (heffect key).replied hother r hmem (by simpa using hkey)

/-- **Single value and no parked reader.**  In every run: no reader is parked on a key that is in the
store; in a part of the run that begins with an eviction of the duty (or at the start) and contains
no other, all replies to the readers of a key are the first value stored for it in that part; and a
store that returns `MismatchingData` leaves every stored value as it is. -/
theorem single_value {tr : List (Label D ρ)} {db : Db D ρ} (run : Trace Db.Step (.start D ρ) tr db) :
    (∀ key, db.actor.get key ≠ none → db.actor.waiters key = []) ∧
    (∀ pre mid post key, tr = pre ++ mid ++ post → Begins key.1 pre →
      (∀ l ∈ mid, ¬l.Evicts key.1) →
      ∀ v ∈ repliesIn key mid, (storedIn key mid).head? = some v) ∧
    (∀ duty set inserted replies db',
      Db.Step db (.turn (.store duty set) (.error .mismatchingData) inserted replies) db' →
      ∀ key v, db.actor.get key = some v → db'.actor.get key = some v) := by
  have hhistory : ∀ {tr db}, Trace Db.Step (.start D ρ) tr db → History tr db := by
    intro tr db run
    exact Trace.induction (P := History) (E := fun _ => True) history_start
      (fun _ _ _ _ _ h hstep => h.step hstep) run fun _ _ => trivial
  have hunparked := (hhistory run).unparked
  refine ⟨hunparked, ?_, ?_⟩
  · intro pre mid post key htr hbegins hmid v hv
    subst htr
    obtain ⟨db₁, hpast, -⟩ := run.split
    obtain ⟨hget, hreplies⟩ := (hhistory hpast).first pre mid key rfl hbegins hmid
    rw [← hget]
    exact hreplies v hv
  · intro duty set inserted replies db' hstep key v hfound
    rw [(hstep.effect hunparked key).get_eq id, hfound]
    rfl

end Runs

/-! ### A reader that is parked before the store -/

namespace Parked

/-- A turn in which no reader gives up: its label and what it leaves. -/
def turnOf (db : Db ℕ ℕ) (event : Event ℕ ℕ) : Label ℕ ℕ × Db ℕ ℕ :=
  let (result, t) := Attempt.exec (Turn.handle db.closed event) ⟨db.actor, [], []⟩
  (.turn event result t.inserted t.replies, ⟨t.actor.trimReaders db.closed, db.closed⟩)

lemma step_turnOf (db : Db ℕ ℕ) (event : Event ℕ ℕ) :
    Db.Step db (turnOf db event).1 (turnOf db event).2 :=
  Db.Step.turn (fun _ => id) (fun _ => id) rfl

def key : Key := (⟨5, .attester⟩, ⟨List.replicate 48 0, by simp⟩)

def asked : Label ℕ ℕ × Db ℕ ℕ := turnOf (.start ℕ ℕ) (.waitFor key.1 key.2 0)

def stored : Label ℕ ℕ × Db ℕ ℕ :=
  turnOf asked.2 (.store key.1 ⟨[(key.2, 7)], List.nodup_singleton _⟩)

def askedAgain : Label ℕ ℕ × Db ℕ ℕ := turnOf stored.2 (.waitFor key.1 key.2 1)

def labels : List (Label ℕ ℕ) := [asked.1, stored.1, askedAgain.1]

lemma run : Trace Db.Step (.start ℕ ℕ) labels askedAgain.2 :=
  ((Trace.single (step_turnOf _ _)).snoc (step_turnOf _ _)).snoc (step_turnOf _ _)

end Parked

/-- Both readers get the value that was stored: the one parked before the store and the later one. -/
theorem single_value_parked :
    repliesIn Parked.key Parked.labels = [7, 7] ∧
      (storedIn Parked.key Parked.labels).head? = some 7 := by
  have hreplies : repliesIn Parked.key Parked.labels = [7, 7] := by decide
  have hkept : ∀ l ∈ Parked.labels, ¬l.Evicts Parked.key.1 := by
    rintro l hl
    rcases List.mem_cons.mp hl with rfl | hl
    · exact id
    rcases List.mem_pair.mp hl with rfl | rfl <;> exact id
  have hvalue := (single_value Parked.run).2.1 [] Parked.labels [] Parked.key (by simp) (.inl rfl)
    hkept 7 (by simp [hreplies])
  exact ⟨hreplies, hvalue⟩

end Pluto.Core.AggSigDb
