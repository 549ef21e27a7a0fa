import Pluto.Lib.Trace

/-!
# The private key lock

`crates/app/src/privkeylock.rs`: a file with a timestamp that keeps two processes from using one
private key.  `Service::new` reads the file, judges its age, and writes it; `run` writes it again
every second, and removes it when the service is closed.

The processes share the file and the clock.  Each access to the file and each look at the clock is a
step of its own (`Step`), so that between any two of them the other processes may take theirs.  A
process holds the lock from the write of `new` to the end of `close`; that a write of `run` fails,
which ends it, is left out.  `Kept` is what is expected of
those that hold it: the timestamp they wrote last is never older than `STALE_DURATION`.

Reading, judging and writing are not one step, and neither are removing the file and the end of
`close`.  So two processes that start together can both get the lock
(`two_processes_hold_the_lock`).  `mutual_exclusion` says what is needed to rule this out: nobody
writes the file between the read and the write of a `new` that succeeds, and none succeeds between
the removal and the end of a `close`.  To say so, a state counts the writes to the file.
-/

namespace Pluto.App.PrivKeyLock

/-- `STALE_DURATION`, in seconds. -/
def staleDuration : ℕ := 5

structure Metadata where
  command : String
  timestamp : ℕ
  deriving DecidableEq

/-- What is found at the path of the lock. -/
inductive File
  | absent
  /-- A file that is not JSON of a `Metadata`. -/
  | invalid
  | lock (metadata : Metadata)
  deriving DecidableEq

inductive PrivKeyLockError
  | io
  | json
  | activeLock (command : String)
  deriving DecidableEq

/-- The judgement of `Service::new` on the content it read. -/
def judge (content : File) (now : ℕ) : Except PrivKeyLockError Unit :=
  match content with
  | .absent => .ok ()
  | .invalid => .error .json
  | .lock metadata =>
    if now - metadata.timestamp ≤ staleDuration then .error (.activeLock metadata.command)
    else .ok ()

/-- A lock that is not stale is respected. -/
lemma judge_lock_ne_ok {metadata : Metadata} {now : ℕ}
    (h : now ≤ metadata.timestamp + staleDuration) : judge (.lock metadata) now ≠ .ok () := by
  simp only [judge]
  rw [if_pos (by omega)]
  exact fun h => by cases h

/-! ## Processes -/

inductive Phase
  | idle
  /-- `new` has read the file, after so many writes. -/
  | reading (content : File) (writes : ℕ)
  /-- `new` found no active lock. -/
  | passed (writes : ℕ)
  /-- `new` has looked at the clock and is about to write. -/
  | stamped (writes timestamp : ℕ)
  /-- `new` returned `Ok`, and `run` waits; with the timestamp written last. -/
  | holding (timestamp : ℕ)
  /-- `run` has looked at the clock and is about to write. -/
  | refreshing (timestamp next : ℕ)
  /-- `run` has removed the file, `close` has not returned. -/
  | removed
  | closed
  | failed (error : PrivKeyLockError)
  deriving DecidableEq

namespace Phase

/-- `new` returned `Ok` and `close` has not finished. -/
def Holds : Phase → Prop
  | .holding _ => True
  | .refreshing _ _ => True
  | .removed => True
  | _ => False

/-- The timestamp written last, as long as `run` keeps writing. -/
def lastStamp : Phase → Option ℕ
  | .holding timestamp => some timestamp
  | .refreshing timestamp _ => some timestamp
  | _ => none

/-- The writes a `new` has seen that is under way. -/
def seen : Phase → Option ℕ
  | .reading _ writes => some writes
  | .passed writes => some writes
  | .stamped writes _ => some writes
  | _ => none

/-- `new` found no active lock, and has not written yet. -/
def Cleared : Phase → Prop
  | .passed _ => True
  | .stamped _ _ => True
  | _ => False

lemma holds_of_lastStamp {ph : Phase} {t : ℕ} (h : ph.lastStamp = some t) : ph.Holds := by
  cases ph with
  | holding _ => trivial
  | refreshing _ _ => trivial
  | _ => cases h

lemma Holds.removed_or {ph : Phase} (h : ph.Holds) : ph = .removed ∨ ∃ t, ph.lastStamp = some t := by
  cases ph with
  | holding t => exact .inr ⟨t, rfl⟩
  | refreshing t _ => exact .inr ⟨t, rfl⟩
  | removed => exact .inl rfl
  | _ => exact absurd h id

end Phase

structure State (ι : Type) where
  file : File
  clock : ℕ
  phase : ι → Phase
  /-- How often the file was written. -/
  writes : ℕ := 0

inductive Action
  | read
  | readError
  | judge
  | stamp
  | create
  | createError
  | tick
  | refresh
  | remove
  | removeError
  | finish
  deriving DecidableEq

inductive Label (ι : Type)
  | clock (now : ℕ)
  | act (p : ι) (action : Action)

section Steps

variable {ι : Type} [DecidableEq ι] (command : ι → String)

def State.set (s : State ι) (p : ι) (ph : Phase) : State ι :=
  { s with phase := Function.update s.phase p ph }

def State.writeFile (s : State ι) (p : ι) (timestamp : ℕ) : State ι :=
  { s with file := .lock ⟨command p, timestamp⟩, writes := s.writes + 1 }

def Phase.judged (writes : ℕ) : Except PrivKeyLockError Unit → Phase
  | .ok () => .passed writes
  | .error e => .failed e

inductive Step : State ι → Label ι → State ι → Prop
  | clock {s : State ι} {now : ℕ} (le : s.clock ≤ now) : Step s (.clock now) { s with clock := now }
  | read {s : State ι} {p : ι} (idle : s.phase p = .idle) :
      Step s (.act p .read) (s.set p (.reading s.file s.writes))
  | readError {s : State ι} {p : ι} (idle : s.phase p = .idle) :
      Step s (.act p .readError) (s.set p (.failed .io))
  | judge {s : State ι} {p : ι} {content : File} {writes : ℕ}
      (reading : s.phase p = .reading content writes) :
      Step s (.act p .judge) (s.set p (.judged writes (judge content s.clock)))
  | stamp {s : State ι} {p : ι} {writes : ℕ} (passed : s.phase p = .passed writes) :
      Step s (.act p .stamp) (s.set p (.stamped writes s.clock))
  | create {s : State ι} {p : ι} {writes timestamp : ℕ}
      (stamped : s.phase p = .stamped writes timestamp) :
      Step s (.act p .create) ((s.writeFile command p timestamp).set p (.holding timestamp))
  | createError {s : State ι} {p : ι} {writes timestamp : ℕ}
      (stamped : s.phase p = .stamped writes timestamp) :
      Step s (.act p .createError) (s.set p (.failed .io))
  | tick {s : State ι} {p : ι} {timestamp : ℕ} (holding : s.phase p = .holding timestamp) :
      Step s (.act p .tick) (s.set p (.refreshing timestamp s.clock))
  | refresh {s : State ι} {p : ι} {timestamp next : ℕ}
      (refreshing : s.phase p = .refreshing timestamp next) :
      Step s (.act p .refresh) ((s.writeFile command p next).set p (.holding next))
  | remove {s : State ι} {p : ι} {timestamp : ℕ} (holding : s.phase p = .holding timestamp) :
      Step s (.act p .remove) ({ s with file := .absent }.set p .removed)
  | removeError {s : State ι} {p : ι} {timestamp : ℕ} (holding : s.phase p = .holding timestamp) :
      Step s (.act p .removeError) (s.set p .removed)
  | finish {s : State ι} {p : ι} (removed : s.phase p = .removed) :
      Step s (.act p .finish) (s.set p .closed)

/-- The processes that hold the lock keep its timestamp from getting stale. -/
def Kept (s : State ι) : Prop :=
  ∀ p, ∀ t ∈ (s.phase p).lastStamp, s.clock ≤ t + staleDuration

/-- A `new` that writes does so before anybody else has written since its read, and while no
`close` has removed the file without having finished. -/
def Undisturbed (s : State ι) : Label ι → Prop
  | .act p .create => ∀ writes timestamp, s.phase p = .stamped writes timestamp →
      writes = s.writes ∧ ∀ q, s.phase q ≠ .removed
  | _ => True

def KeptStep (s : State ι) (label : Label ι) (s' : State ι) : Prop :=
  Step command s label s' ∧ Kept s'

/-! ## Mutual exclusion -/

structure Inv (s : State ι) : Prop where
  exclusive : ∀ p q, (s.phase p).Holds → (s.phase q).Holds → p = q
  /-- The file is that of the process that keeps writing it. -/
  file : ∀ p t, (s.phase p).lastStamp = some t → ∃ cmd, s.file = .lock ⟨cmd, t⟩
  /-- What was read is still there, unless the file was written or nobody keeps writing it. -/
  reading : ∀ q content, s.phase q = .reading content s.writes →
    ∀ p t, (s.phase p).lastStamp = some t → content = s.file
  /-- Who found no active lock is right, unless the file was written. -/
  cleared : ∀ q, (s.phase q).Cleared → (s.phase q).seen = some s.writes →
    ∀ p, (s.phase p).lastStamp = none
  seen_le : ∀ q w, (s.phase q).seen = some w → w ≤ s.writes
  kept : Kept s

lemma State.phase_set_self (s : State ι) (p : ι) (ph : Phase) : (s.set p ph).phase p = ph :=
  Function.update_self ..

lemma State.phase_set_ne (s : State ι) {p q : ι} (ph : Phase) (h : q ≠ p) :
    (s.set p ph).phase q = s.phase q := Function.update_of_ne h ..

variable {s : State ι}

lemma State.forall_phase_set {p : ι} {ph : Phase} (P : ι → Phase → Prop)
    (hp : P p ph) (h : ∀ q ≠ p, P q (s.phase q)) (q : ι) : P q ((s.set p ph).phase q) := by
  by_cases hq : q = p
  · rw [hq, State.phase_set_self]
    exact hp
  · rw [State.phase_set_ne s ph hq]
    exact h q hq

lemma Inv.set (h : Inv s) {p : ι} {ph : Phase} (hholds : ph.Holds → (s.phase p).Holds)
    (hstamp : ∀ t, ph.lastStamp = some t → (s.phase p).lastStamp = some t)
    (hreading : ∀ content, ph = .reading content s.writes →
      ∀ q t, (s.phase q).lastStamp = some t → content = s.file)
    (hcleared : ph.Cleared → ph.seen = some s.writes → ∀ q, (s.phase q).lastStamp = none)
    (hseen : ∀ w, ph.seen = some w → w ≤ s.writes) : Inv (s.set p ph) := by
  have hholds' : ∀ q, ((s.set p ph).phase q).Holds → (s.phase q).Holds :=
    State.forall_phase_set (fun q ph => ph.Holds → (s.phase q).Holds) hholds fun q _ => id
  have hstamp' : ∀ q t, ((s.set p ph).phase q).lastStamp = some t → (s.phase q).lastStamp = some t :=
    State.forall_phase_set
      (fun q ph => ∀ t, ph.lastStamp = some t → (s.phase q).lastStamp = some t) hstamp
      fun q _ _ => id
  have hnone : ∀ q, (s.phase q).lastStamp = none → ((s.set p ph).phase q).lastStamp = none := by
    intro q hq
    by_contra hne
    obtain ⟨t, ht⟩ := Option.ne_none_iff_exists'.mp hne
    rw [hstamp' q t ht] at hq
    cases hq
  refine ⟨?_, ?_, ?_, ?_, ?_, ?_⟩
  · exact fun q r hq hr => h.exclusive q r (hholds' q hq) (hholds' r hr)
  · exact fun q t ht => h.file q t (hstamp' q t ht)
  · refine State.forall_phase_set (fun _ ph => ∀ content, ph = .reading content s.writes →
      ∀ q t, ((s.set p _).phase q).lastStamp = some t → content = s.file)
      (fun content hph q t ht => ?_) fun q _ content hq r t ht => ?_
    · exact hreading content hph q t (hstamp' q t ht)
    · exact h.reading q content hq r t (hstamp' r t ht)
  · refine State.forall_phase_set (fun _ ph => ph.Cleared → ph.seen = some s.writes →
      ∀ q, ((s.set p _).phase q).lastStamp = none) (fun hph hw q => ?_) fun q _ hq hw r => ?_
    · exact hnone q (hcleared hph hw q)
    · exact hnone r (h.cleared q hq hw r)
  · exact State.forall_phase_set (fun _ ph => ∀ w, ph.seen = some w → w ≤ s.writes) hseen
      fun q _ => h.seen_le q
  · exact fun q t ht => h.kept q t (hstamp' q t ht)

/-- A write by the only process that holds the lock, if any does. -/
lemma Inv.writeFile (h : Inv s) {p : ι} {t : ℕ} (honly : ∀ q, (s.phase q).Holds → q = p)
    (hkept : Kept ((s.writeFile command p t).set p (.holding t))) :
    Inv ((s.writeFile command p t).set p (.holding t)) := by
  have honly' : ∀ q, (((s.writeFile command p t).set p (.holding t)).phase q).Holds → q = p :=
    State.forall_phase_set (fun q ph => ph.Holds → q = p) (fun _ => rfl) fun q _ => honly q
  have hseen : ∀ q w, (((s.writeFile command p t).set p (.holding t)).phase q).seen = some w →
      w ≤ s.writes :=
    State.forall_phase_set (fun _ ph => ∀ w, ph.seen = some w → w ≤ s.writes)
      (fun w hw => by cases hw) fun q _ => h.seen_le q
  -- what was seen before is not the new number of writes
  have hne : ∀ q, (((s.writeFile command p t).set p (.holding t)).phase q).seen ≠
      some (s.writes + 1) := fun q hq => absurd (hseen q _ hq) (by omega)
  refine ⟨?_, ?_, ?_, ?_, ?_, hkept⟩
  · exact fun q r hq hr => (honly' q hq).trans (honly' r hr).symm
  · intro q t' ht'
    obtain rfl := honly' q (Phase.holds_of_lastStamp ht')
    rw [State.phase_set_self] at ht'
    obtain rfl := Option.some.inj ht'
    exact ⟨_, rfl⟩
  · exact fun q content hq => absurd (by rw [hq]; rfl) (hne q)
  · exact fun q _ hq => absurd hq (hne q)
  · exact fun q w hw => Nat.le_succ_of_le (hseen q w hw)

lemma Inv.remove (h : Inv s) {p : ι} (hp : (s.phase p).Holds) :
    Inv ({ s with file := .absent }.set p .removed) := by
  have hnone : ∀ q, (({ s with file := .absent }.set p .removed).phase q).lastStamp = none := by
    refine State.forall_phase_set (fun _ ph => ph.lastStamp = none) rfl fun q hq => ?_
    by_contra hne
    obtain ⟨t, ht⟩ := Option.ne_none_iff_exists'.mp hne
    exact hq (h.exclusive q p (Phase.holds_of_lastStamp ht) hp)
  have hholds : ∀ q, (({ s with file := .absent }.set p .removed).phase q).Holds →
      (s.phase q).Holds :=
    State.forall_phase_set (fun q ph => ph.Holds → (s.phase q).Holds) (fun _ => hp) fun q _ => id
  refine ⟨?_, ?_, ?_, fun _ _ _ => hnone, ?_, ?_⟩
  · exact fun q r hq hr => h.exclusive q r (hholds q hq) (hholds r hr)
  · exact fun q t ht => by rw [hnone q] at ht; cases ht
  · exact fun _ _ _ q t ht => by rw [hnone q] at ht; cases ht
  · exact State.forall_phase_set (fun _ ph => ∀ w, ph.seen = some w → w ≤ s.writes)
      (fun w hw => by cases hw) fun q _ => h.seen_le q
  · exact fun q t ht => by rw [hnone q] at ht; cases ht

omit [DecidableEq ι] in
/-- The judgement on a file that a process keeps writing. -/
lemma Inv.judge_ok (h : Inv s) {q : ι} {content : File}
    (hq : s.phase q = .reading content s.writes) (hjudge : judge content s.clock = .ok ()) (p : ι) :
    (s.phase p).lastStamp = none := by
  by_contra hne
  obtain ⟨t, ht⟩ := Option.ne_none_iff_exists'.mp hne
  obtain ⟨cmd, hfile⟩ := h.file p t ht
  rw [h.reading q content hq p t ht, hfile] at hjudge
  exact judge_lock_ne_ok (h.kept p t ht) hjudge

/-- A process that stops: it neither keeps writing the file nor is about to. -/
lemma Inv.stop (h : Inv s) {p : ι} {ph : Phase}
    (hholds : ph.Holds → (s.phase p).Holds) (hstamp : ph.lastStamp = none) (hseen : ph.seen = none) :
    Inv (s.set p ph) := by
  refine h.set hholds (fun t ht => ?_) (fun content heq => ?_) (fun _ hw => ?_) (fun w hw => ?_)
  · rw [hstamp] at ht
    cases ht
  · rw [heq] at hseen
    cases hseen
  · rw [hseen] at hw
    cases hw
  · rw [hseen] at hw
    cases hw

lemma Inv.clear (h : Inv s) {p : ι} {ph : Phase} {writes : ℕ}
    (hph : ph = .passed writes ∨ ∃ t, ph = .stamped writes t) (hle : (s.phase p).seen = some writes)
    (hnone : writes = s.writes → ∀ q, (s.phase q).lastStamp = none) : Inv (s.set p ph) := by
  have hseen : ph.seen = some writes := by
    rcases hph with rfl | ⟨t, rfl⟩ <;> rfl
  have hstamp : ph.lastStamp = none := by
    rcases hph with rfl | ⟨t, rfl⟩ <;> rfl
  refine h.set (fun hholds => ?_) (fun t ht => ?_) (fun content heq => ?_) (fun _ hw => ?_)
    (fun w hw => ?_)
  · rcases hph with rfl | ⟨t, rfl⟩ <;> exact absurd hholds id
  · rw [hstamp] at ht
    cases ht
  · rcases hph with rfl | ⟨t, rfl⟩ <;> cases heq
  · rw [hseen] at hw
    exact hnone (Option.some.inj hw)
  · rw [hseen] at hw
    exact h.seen_le p w (hle.trans hw)

/-- **Every undisturbed step keeps the invariant.** -/
lemma Inv.step {s s' : State ι} {label : Label ι} (h : Inv s) (hstep : KeptStep command s label s')
    (hundisturbed : Undisturbed s label) : Inv s' := by
  obtain ⟨hstep, hkept⟩ := hstep
  cases hstep with
  | clock hle => exact ⟨h.exclusive, h.file, h.reading, h.cleared, h.seen_le, hkept⟩
  | read hidle =>
    refine h.set (fun hf => absurd hf id) (fun t ht => by cases ht) ?_ (fun hf => absurd hf id) ?_
    · rintro content heq q t -
      obtain ⟨rfl, -⟩ := Phase.reading.inj heq
      rfl
    · rintro w hw
      exact Nat.le_of_eq (Option.some.inj hw).symm
  | readError hidle | createError hstamped | finish hremoved =>
    exact h.stop (fun hf => absurd hf id) rfl rfl
  | @judge p content writes hreading =>
    cases hjudge : judge content s.clock with
    | error e => exact h.stop (fun hf => absurd hf id) rfl rfl
    | ok u =>
      refine h.clear (.inl rfl) (by rw [hreading]; rfl) fun hwrites q => ?_
      exact h.judge_ok (hwrites ▸ hreading) hjudge q
  | @stamp p writes hpassed =>
    refine h.clear (.inr ⟨_, rfl⟩) (by rw [hpassed]; rfl) fun hwrites => ?_
    exact h.cleared p (by rw [hpassed]; trivial) (by rw [hpassed, hwrites]; rfl)
  | @create p writes timestamp hstamped =>
    obtain ⟨hwrites, hremoved⟩ := hundisturbed writes timestamp hstamped
    have hnone := h.cleared p (by rw [hstamped]; trivial) (by rw [hstamped, hwrites]; rfl)
    refine h.writeFile command (fun q hq => ?_) hkept
    -- nobody holds the lock
    rcases hq.removed_or with hq | ⟨t, ht⟩
    · exact absurd hq (hremoved q)
    · rw [hnone q] at ht
      cases ht
  | tick hholding =>
    refine h.set (fun _ => ?_) (fun t ht => ?_) (fun _ heq => by cases heq)
      (fun hf => absurd hf id) (fun w hw => by cases hw)
    · rw [hholding]
      trivial
    · rw [hholding]
      exact ht
  | @refresh p timestamp next hrefreshing =>
    refine h.writeFile command (fun q hq => h.exclusive q p hq ?_) hkept
    rw [hrefreshing]
    trivial
  | remove hholding =>
    refine h.remove ?_
    rw [hholding]
    trivial
  | removeError hholding =>
    refine h.stop (fun _ => ?_) rfl rfl
    rw [hholding]
    trivial

omit [DecidableEq ι] in
lemma inv_init (hidle : ∀ p, s.phase p = .idle) : Inv s := by
  refine ⟨fun p q hp => ?_, fun p t ht => ?_, fun p t hp => ?_, fun p hp => ?_, fun p w hw => ?_,
    fun p t ht => ?_⟩
  all_goals simp_all [Phase.Holds, Phase.lastStamp, Phase.Cleared, Phase.seen]

/-- **Mutual exclusion**, for any number of processes and any first content of the file: if the
holders keep the lock and no `new` is disturbed, two processes never hold it at the same time. -/
theorem mutual_exclusion {s₀ s : State ι} {tr : List (Label ι)} (hidle : ∀ p, s₀.phase p = .idle)
    (run : Trace (fun s label s' => KeptStep command s label s' ∧ Undisturbed s label) s₀ tr s)
    (p q : ι) (hp : (s.phase p).Holds) (hq : (s.phase q).Holds) : p = q := by
  have hinv : Inv s := Trace.invariant (I := Inv) (inv_init hidle)
    (fun _ _ _ h hstep => h.step command hstep.1 hstep.2) run
  exact hinv.exclusive p q hp hq

end Steps

/-! ### Two processes -/

instance {s : State Bool} : Decidable (Kept s) :=
  inferInstanceAs (Decidable (∀ p, ∀ t ∈ (s.phase p).lastStamp, s.clock ≤ t + staleDuration))

def commands (p : Bool) : String := if p then "charon run" else "charon dkg"

def twoIdle : State Bool := { file := .absent, clock := 100, phase := fun _ => .idle }

/-- The first process gets the lock, and the second one is refused five seconds later. -/
theorem mutual_exclusion_second_refused : ∃ tr s,
    Trace (fun s label s' => KeptStep commands s label s' ∧ Undisturbed s label) twoIdle tr s ∧
      s.phase true = .failed (.activeLock "charon dkg") ∧ (s.phase false).Holds ∧
      ∀ p, (s.phase p).Holds → p = false := by
  have hstart : Trace (fun s label s' => KeptStep commands s label s' ∧ Undisturbed s label)
    twoIdle [] twoIdle := .nil
  have hrun := hstart
    |>.snoc ⟨⟨.read (p := false) rfl, by decide⟩, trivial⟩
    |>.snoc ⟨⟨.judge (p := false) rfl, by decide⟩, trivial⟩
    |>.snoc ⟨⟨.stamp (p := false) rfl, by decide⟩, trivial⟩
    |>.snoc ⟨⟨.create (p := false) rfl, by decide⟩, fun _ _ h => by cases h; decide⟩
    |>.snoc ⟨⟨.clock (by decide : 100 ≤ 105), by decide⟩, trivial⟩
    |>.snoc ⟨⟨.read (p := true) rfl, by decide⟩, trivial⟩
    |>.snoc ⟨⟨.judge (p := true) rfl, by decide⟩, trivial⟩
  exact ⟨_, _, hrun, by decide, trivial, fun p hp =>
    mutual_exclusion commands (fun _ => rfl) hrun p false hp trivial⟩

/-- Both processes find no file, and both get the lock. -/
theorem two_processes_hold_the_lock : ∃ tr s,
    Trace (KeptStep commands) twoIdle tr s ∧ (s.phase false).Holds ∧ (s.phase true).Holds := by
  have hstart : Trace (KeptStep commands) twoIdle [] twoIdle := .nil
  have hrun := hstart
    |>.snoc ⟨.read (p := false) rfl, by decide⟩
    |>.snoc ⟨.read (p := true) rfl, by decide⟩
    |>.snoc ⟨.judge (p := false) rfl, by decide⟩
    |>.snoc ⟨.judge (p := true) rfl, by decide⟩
    |>.snoc ⟨.stamp (p := false) rfl, by decide⟩
    |>.snoc ⟨.stamp (p := true) rfl, by decide⟩
    |>.snoc ⟨.create (p := false) rfl, by decide⟩
    |>.snoc ⟨.create (p := true) rfl, by decide⟩
  exact ⟨_, _, hrun, trivial, trivial⟩

end Pluto.App.PrivKeyLock
