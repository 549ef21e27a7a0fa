import Pluto.Core.ParSigDb.Memory
import Pluto.Lib.Fallible

/-!
# The threshold of the ParSigDB

The subscribers should hear once that a message root has reached the threshold, and they should hear
of every one that has.  The code looks for a group of exactly `threshold` signatures each time one
is stored, and gives what it finds to the subscribers at the end of the call.

A root therefore fires again when a signature of another root arrives while it stands at the
threshold (`fires_twice`).  If that does not happen, a root fires when its group grows to the
threshold, which happens once before the duty is trimmed (`threshold_once`).

And what a call has found is lost when it fails for another public key (`threshold_lost`).
`threshold_not_lost` has the conditions under which nothing is lost: a call that completes a group
has no entry that is refused and no rival group at the threshold, the signatures under a `Signature`
duty are of one root, and the subscribers before the last one succeed.
-/

namespace Pluto.Core.ParSigDb

open Ssz

variable {S : SignedData} {sigs : List (ParSignedData S)} {value : ParSignedData S} {r : HashRoot}
  {threshold : ℕ}

/-! ## Groups -/

def ParSignedData.hasRoot (r : HashRoot) (sig : ParSignedData S) : Bool :=
  match sig.root with
  | .ok r' => r' = r
  | .error _ => false

/-- The signatures of a message root. -/
def withRoot (r : HashRoot) (sigs : List (ParSignedData S)) : List (ParSignedData S) :=
  sigs.filter (ParSignedData.hasRoot r)

lemma hasRoot_iff {sig : ParSignedData S} : sig.hasRoot r = true ↔ sig.root = .ok r := by
  unfold ParSignedData.hasRoot
  cases sig.root <;> simp

lemma withRoot_append (r : HashRoot) (sigs : List (ParSignedData S)) (value : ParSignedData S) :
    withRoot r (sigs ++ [value]) =
      if value.hasRoot r then withRoot r sigs ++ [value] else withRoot r sigs := by
  unfold withRoot
  by_cases h : value.hasRoot r = true <;> simp [List.filter_append, h]

/-- The loop that groups signatures appends each one to the group of its root. -/
lemma foldlM_groups {groups₀ groups : HashMap HashRoot (List (ParSignedData S))}
    (h : sigs.foldlM (fun groups sig => do
      let root ← sig.root
      return groups.push root sig) groups₀ = .ok groups) :
    (∀ sig ∈ sigs, ∃ r, sig.root = .ok r) ∧
      ∀ r, groups.listAt r = groups₀.listAt r ++ withRoot r sigs := by
  induction sigs generalizing groups₀ with
  | nil =>
    obtain rfl : groups₀ = groups := Except.ok.inj h
    simp [withRoot]
  | cons sig sigs ih =>
    rw [List.foldlM_cons] at h
    cases hroot : sig.root with
    | error e =>
      rw [hroot] at h
      exact absurd h (by simp [bind, Except.bind])
    | ok r₀ =>
      rw [hroot] at h
      obtain ⟨hroots, hgroups⟩ := ih h
      refine ⟨?_, fun r => ?_⟩
      · intro sig' hsig'
        rcases List.mem_cons.mp hsig' with rfl | hmem
        · exact ⟨r₀, hroot⟩
        · exact hroots sig' hmem
      · rw [hgroups r]
        by_cases hr : r = r₀
        · subst hr
          simp [withRoot, hasRoot_iff.mpr hroot]
        · have hne : sig.hasRoot r = false := by
            simp [ParSignedData.hasRoot, hroot, Ne.symm hr]
          simp [withRoot, hne, HashMap.listAt_push_ne groups₀ sig hr]

/-- Grouping succeeds when every signature has a root. -/
lemma foldlM_groups_ok (hroots : ∀ sig ∈ sigs, ∃ r, sig.root = .ok r)
    (groups₀ : HashMap HashRoot (List (ParSignedData S))) :
    ∃ groups, sigs.foldlM (fun groups sig => do
      let root ← sig.root
      return groups.push root sig) groups₀ = .ok groups := by
  induction sigs generalizing groups₀ with
  | nil => exact ⟨groups₀, rfl⟩
  | cons sig sigs ih =>
    obtain ⟨r, hr⟩ := hroots sig List.mem_cons_self
    rw [List.foldlM_cons, hr]
    exact ih (fun sig' hsig' => hroots sig' (List.mem_cons_of_mem _ hsig')) (groups₀.push r sig)

lemma groupByRoot_ok {groups : HashMap HashRoot (List (ParSignedData S))}
    (h : groupByRoot sigs = .ok groups) :
    (∀ sig ∈ sigs, ∃ r, sig.root = .ok r) ∧ ∀ r, groups.listAt r = withRoot r sigs := by
  obtain ⟨hroots, hgroups⟩ := foldlM_groups h
  refine ⟨hroots, fun r => ?_⟩
  rw [hgroups r]
  simp [HashMap.listAt]

/-- What is found is the group of a root, with exactly `threshold` signatures. -/
lemma getThresholdMatching_some {order : GroupOrder S} {typ : DutyType} (htyp : typ ≠ .signature)
    {psigs : List (ParSignedData S)}
    (h : getThresholdMatching order typ sigs threshold = .ok (some psigs)) :
    (∀ sig ∈ sigs, ∃ r, sig.root = .ok r) ∧
      ∃ r, psigs = withRoot r sigs ∧ psigs.length = threshold := by
  by_cases hlength : sigs.length < threshold
  · rw [getThresholdMatching, if_pos hlength] at h
    simp at h
  rw [getThresholdMatching, if_neg hlength, if_neg htyp] at h
  obtain ⟨groups, hgroups, hfind⟩ := Except.bind_ok_iff.mp h
  have hfind' : (groups.valuesIn order).find? (fun set => set.length = threshold) = some psigs :=
    Except.ok.inj hfind
  obtain ⟨hroots, hlists⟩ := groupByRoot_ok hgroups
  obtain ⟨r, hr⟩ := HashMap.mem_valuesIn.mp (List.mem_of_find?_eq_some hfind')
  refine ⟨hroots, r, ?_, by simpa using List.find?_some hfind'⟩
  rw [← hlists r, HashMap.listAt, hr]
  rfl

/-- For signatures without a root, the threshold is their number. -/
lemma getThresholdMatching_signature {order : GroupOrder S} {typ : DutyType}
    {psigs : List (ParSignedData S)} (htyp : typ = .signature)
    (h : getThresholdMatching order typ sigs threshold = .ok (some psigs)) :
    psigs = sigs ∧ psigs.length = threshold := by
  rw [getThresholdMatching] at h
  split_ifs at h with hlt heq
  · exact absurd (Except.ok.inj h) (by simp)
  · obtain rfl : sigs = psigs := Option.some.inj (Except.ok.inj h)
    exact ⟨rfl, heq⟩
  · exact absurd (Except.ok.inj h) (by simp)

/-- The group of a root is found if it has exactly `threshold` signatures and no other has. -/
lemma getThresholdMatching_of_group (order : GroupOrder S) {typ : DutyType}
    (htyp : typ ≠ .signature) (hroots : ∀ sig ∈ sigs, ∃ r, sig.root = .ok r)
    (hpos : 1 ≤ threshold) (hr : (withRoot r sigs).length = threshold)
    (hrival : ∀ r', r' ≠ r → (withRoot r' sigs).length ≠ threshold) :
    getThresholdMatching order typ sigs threshold = .ok (some (withRoot r sigs)) := by
  obtain ⟨groups, hgroups⟩ := foldlM_groups_ok hroots ∅
  have hlists := (groupByRoot_ok hgroups).2
  have hlength : ¬ sigs.length < threshold := by
    have hle : (withRoot r sigs).length ≤ sigs.length := List.length_filter_le _ _
    omega
  have hlookup : groups.lookup r = some (withRoot r sigs) := by
    have hlist := hlists r
    rw [HashMap.listAt] at hlist
    cases hgroup : groups.lookup r with
    | none =>
      rw [hgroup] at hlist
      rw [← hlist] at hr
      simp at hr
      omega
    | some set =>
      rw [hgroup] at hlist
      exact congrArg some hlist
  have hfind : (groups.valuesIn order).find? (fun set => set.length = threshold) =
      some (withRoot r sigs) := by
    cases hfound : (groups.valuesIn order).find? (fun set => set.length = threshold) with
    | none =>
      have hnone := List.find?_eq_none.mp hfound _ (HashMap.mem_valuesIn.mpr ⟨r, hlookup⟩)
      simp [hr] at hnone
    | some set =>
      obtain ⟨r', hr'⟩ := HashMap.mem_valuesIn.mp (List.mem_of_find?_eq_some hfound)
      have hset : withRoot r' sigs = set := by
        rw [← hlists r', HashMap.listAt, hr']
        rfl
      have hlen : set.length = threshold := by simpa using List.find?_some hfound
      have heq : r' = r := by
        by_contra hne
        exact hrival r' hne (by rw [hset, hlen])
      rw [← hset, heq]
  rw [getThresholdMatching, if_neg hlength, if_neg htyp]
  show (groupByRoot sigs >>= _) = _
  rw [show groupByRoot sigs = .ok groups from hgroups]
  exact congrArg Except.ok hfind

/-! ## One signature -/

/-- No signature of the share is there yet. -/
def Fresh (sigs : List (ParSignedData S)) (value : ParSignedData S) : Prop :=
  ∀ sig ∈ sigs, sig.shareIdx ≠ value.shareIdx

namespace MemDB

variable {db db' : MemDB S} {k k' : Key} {order : GroupOrder S}

@[simp] lemma sigs_push_self (db : MemDB S) (k : Key) (value : ParSignedData S) :
    (push k value db).sigs k = db.sigs k ++ [value] :=
  HashMap.listAt_push_self _ _ _

lemma sigs_push_ne (db : MemDB S) (value : ParSignedData S) (h : k' ≠ k) :
    (push k value db).sigs k' = db.sigs k' :=
  HashMap.listAt_push_ne _ _ h

/-- A key that is not listed for its duty has no signatures. -/
def Listed (db : MemDB S) : Prop := ∀ k, k ∉ db.keysByDuty.listAt k.duty → db.sigs k = []

lemma Listed.push (h : Listed db) (k : Key) (value : ParSignedData S) :
    Listed (push k value db) := by
  intro k' hk'
  rw [MemDB.push, HashMap.mem_listAt_push, not_or] at hk'
  have hne : k' ≠ k := by
    rintro rfl
    exact hk'.2 ⟨rfl, rfl⟩
  rw [sigs_push_ne db value hne]
  exact h k' hk'.1

/-- How `store` answers for a new signature. -/
def answer : Except S.RootError (Option (List (ParSignedData S))) →
    Except (MemDBError S) (StoreOutcome S)
  | .error e => .error (.signedDataError e)
  | .ok (some psigs) => .ok (.threshold psigs)
  | .ok none => .ok .stored

/-- What `store` makes of the signatures of a key: the value is there already, or another one of its
share is, or it is pushed. -/
def Stores (order : GroupOrder S) (threshold : ℕ) (k : Key) (sigs : List (ParSignedData S))
    (value : ParSignedData S) (result : Except (MemDBError S) (StoreOutcome S))
    (sigs' : List (ParSignedData S)) : Prop :=
  (value ∈ sigs ∧ result = .ok .duplicate ∧ sigs' = sigs) ∨
  ((∃ sig ∈ sigs, sig.shareIdx = value.shareIdx ∧ sig ≠ value) ∧
    result = .error (.parsigDataMismatch k.pubKey value.shareIdx) ∧ sigs' = sigs) ∨
  (Fresh sigs value ∧
    result = answer (getThresholdMatching order k.duty.dutyType (sigs ++ [value]) threshold) ∧
    sigs' = sigs ++ [value])

/-- The threshold is reached by a new signature. -/
lemma Stores.of_threshold {psigs sigs' : List (ParSignedData S)}
    (h : Stores order threshold k sigs value (.ok (.threshold psigs)) sigs') :
    Fresh sigs value ∧ getThresholdMatching order k.duty.dutyType (sigs ++ [value]) threshold =
      .ok (some psigs) ∧ sigs' = sigs ++ [value] := by
  rcases h with ⟨_, hresult, _⟩ | ⟨_, hresult, _⟩ | ⟨hfresh, hresult, hsigs⟩
  · simp at hresult
  · simp at hresult
  refine ⟨hfresh, ?_, hsigs⟩
  rcases hfound : getThresholdMatching order k.duty.dutyType (sigs ++ [value]) threshold with
    e | (_ | psigs') <;> rw [hfound] at hresult <;> simp [answer] at hresult
  rw [hresult]

/-- Only the signatures of its key are touched. -/
lemma exec_store (order : GroupOrder S) (threshold : ℕ) (k : Key) (value : ParSignedData S)
    (db : MemDB S) :
    Stores order threshold k (db.sigs k) value (Attempt.exec (store order threshold k value) db).1
        ((Attempt.exec (store order threshold k value) db).2.sigs k) ∧
      ((Attempt.exec (store order threshold k value) db).2 = db ∨
        (Attempt.exec (store order threshold k value) db).2 = push k value db) := by
  rw [store, Attempt.exec_bind, Attempt.exec_get]
  cases hfind : (db.sigs k).find? (fun s => s.shareIdx = value.shareIdx) with
  | some existing =>
    have hmem := List.mem_of_find?_eq_some hfind
    have hshare : existing.shareIdx = value.shareIdx := by simpa using List.find?_some hfind
    by_cases heq : existing = value
    · subst heq
      simp [hfind, Stores, hmem]
    · simp only [hfind, heq, if_false, Attempt.exec_throw]
      exact ⟨.inr (.inl ⟨⟨existing, hmem, hshare, heq⟩, rfl, rfl⟩), .inl trivial⟩
  | none =>
    have hfresh : Fresh (db.sigs k) value :=
      fun sig hsig => by simpa using List.find?_eq_none.mp hfind sig hsig
    simp only [hfind, Attempt.exec_bind, Attempt.exec_modify]
    rcases hmatch : getThresholdMatching order k.duty.dutyType (db.sigs k ++ [value]) threshold with
      e | (_ | psigs)
    all_goals
      refine ⟨.inr (.inr ⟨hfresh, ?_, sigs_push_self db k value⟩), .inr rfl⟩
      rw [hmatch]
      rfl

lemma sigs_store_ne (order : GroupOrder S) (threshold : ℕ) (value : ParSignedData S) (db : MemDB S)
    (h : k' ≠ k) : (Attempt.exec (store order threshold k value) db).2.sigs k' = db.sigs k' := by
  rcases (exec_store order threshold k value db).2 with hsame | hpush
  · rw [hsame]
  · rw [hpush]
    exact sigs_push_ne db value h

/-! ## A set of signatures -/

section Sets

variable {order : PubKey → GroupOrder S} {duty : Duty} {pubKey : PubKey}
  {entries : List (PubKey × ParSignedData S)}
  {output output' : HashMap PubKey (List (ParSignedData S))}

/-- What the loop of `store_external` adds to its output. -/
def collect (pubKey : PubKey) (output : HashMap PubKey (List (ParSignedData S))) :
    StoreOutcome S → HashMap PubKey (List (ParSignedData S))
  | .threshold psigs => output.insert pubKey psigs
  | _ => output

lemma lookup_collect_ne {pubKey' : PubKey} (h : pubKey' ≠ pubKey) (outcome : StoreOutcome S) :
    (collect pubKey output outcome).lookup pubKey' = output.lookup pubKey' := by
  cases outcome with
  | threshold psigs => exact AList.lookup_insert_ne h
  | _ => rfl

lemma exec_storeAll_cons (value : ParSignedData S) (db : MemDB S) :
    Attempt.exec (storeAll order threshold duty ((pubKey, value) :: entries) output) db =
      match Attempt.exec (store (order pubKey) threshold ⟨duty, pubKey⟩ value) db with
      | (.error e, db₁) => (.error e, db₁)
      | (.ok outcome, db₁) =>
        Attempt.exec (storeAll order threshold duty entries (collect pubKey output outcome))
          db₁ := by
  rw [storeAll, Attempt.exec_bind]
  rcases Attempt.exec (store (order pubKey) threshold ⟨duty, pubKey⟩ value) db with
    ⟨e | outcome, db₁⟩
  · rfl
  · cases outcome <;> rfl

/-- What the loop of `store_external` does: it touches the signatures of its entries only, and each
entry that it gets to is stored as it would be alone. -/
structure Loops (order : PubKey → GroupOrder S) (threshold : ℕ) (duty : Duty)
    (entries : List (PubKey × ParSignedData S)) (output : HashMap PubKey (List (ParSignedData S)))
    (db : MemDB S) (result : Except (MemDBError S) (HashMap PubKey (List (ParSignedData S))))
    (db' : MemDB S) : Prop where
  other : ∀ k : Key, (k.duty = duty → k.pubKey ∉ entries.map Prod.fst) → db'.sigs k = db.sigs k
  entry : ∀ pubKey value, (pubKey, value) ∈ entries →
    db'.sigs ⟨duty, pubKey⟩ = db.sigs ⟨duty, pubKey⟩ ∨ ∃ outcome,
      Stores (order pubKey) threshold ⟨duty, pubKey⟩ (db.sigs ⟨duty, pubKey⟩) value outcome
        (db'.sigs ⟨duty, pubKey⟩)
  noEntry : ∀ output', result = .ok output' → ∀ pubKey, pubKey ∉ entries.map Prod.fst →
    output'.lookup pubKey = output.lookup pubKey
  ok : ∀ output', result = .ok output' → ∀ pubKey value, (pubKey, value) ∈ entries → ∃ outcome,
    Stores (order pubKey) threshold ⟨duty, pubKey⟩ (db.sigs ⟨duty, pubKey⟩) value (.ok outcome)
        (db'.sigs ⟨duty, pubKey⟩) ∧
      output'.lookup pubKey = (collect pubKey output outcome).lookup pubKey
  error : ∀ e, result = .error e → ∃ pubKey value sigs', (pubKey, value) ∈ entries ∧
    Stores (order pubKey) threshold ⟨duty, pubKey⟩ (db.sigs ⟨duty, pubKey⟩) value (.error e) sigs'

lemma storeAll_loops (order : PubKey → GroupOrder S) (threshold : ℕ) (duty : Duty)
    (output : HashMap PubKey (List (ParSignedData S))) (hnodup : (entries.map Prod.fst).Nodup)
    (db : MemDB S) :
    Loops order threshold duty entries output db
      (Attempt.exec (storeAll order threshold duty entries output) db).1
      (Attempt.exec (storeAll order threshold duty entries output) db).2 := by
  induction entries generalizing db output with
  | nil =>
    refine ⟨fun _ _ => rfl, nofun, fun output' h _ _ => ?_, nofun, nofun⟩
    rw [Except.ok.inj h]
  | cons entry entries ih =>
    obtain ⟨pubKey, value⟩ := entry
    obtain ⟨hnotin, hnodup'⟩ := List.nodup_cons.mp hnodup
    have hstores := (exec_store (order pubKey) threshold ⟨duty, pubKey⟩ value db).1
    have hother := fun (k : Key) (hk : k ≠ ⟨duty, pubKey⟩) =>
      sigs_store_ne (order pubKey) threshold value db hk
    have hne : ∀ pubKey', pubKey' ∈ entries.map Prod.fst →
        pubKey' ≠ pubKey ∧ (⟨duty, pubKey'⟩ : Key) ≠ ⟨duty, pubKey⟩ := by
      intro pubKey' hmem
      have hne : pubKey' ≠ pubKey := fun heq => hnotin (heq ▸ hmem)
      exact ⟨hne, fun heq => hne (Key.mk.inj heq).2⟩
    rw [exec_storeAll_cons]
    rcases hexec : Attempt.exec (store (order pubKey) threshold ⟨duty, pubKey⟩ value) db with
      ⟨e | outcome, db₁⟩ <;> simp only [hexec] at hstores hother
    · refine ⟨fun k hk => hother k fun heq => ?_, fun pubKey' value' hmem => ?_, nofun, nofun,
        fun e' he => ?_⟩
      · subst heq
        exact hk rfl List.mem_cons_self
      · rcases List.mem_cons.mp hmem with heq | hmem
        · cases heq
          exact .inr ⟨_, hstores⟩
        · exact .inl (hother _ (hne pubKey' (List.mem_map_of_mem hmem)).2)
      · cases he
        exact ⟨pubKey, value, _, List.mem_cons_self, hstores⟩
    · have hrest := ih (collect pubKey output outcome) hnodup' db₁
      have hfirst := hrest.other ⟨duty, pubKey⟩ fun _ => hnotin
      have hsame : ∀ pubKey' value', (pubKey', value') ∈ entries →
          db₁.sigs ⟨duty, pubKey'⟩ = db.sigs ⟨duty, pubKey'⟩ := fun pubKey' value' hmem =>
        hother _ (hne pubKey' (List.mem_map_of_mem hmem)).2
      refine ⟨fun k hk => ?_, fun pubKey' value' hmem => ?_, fun output' hok pubKey' hk => ?_,
        fun output' hok pubKey' value' hmem => ?_, fun e he => ?_⟩
      · refine (hrest.other k fun hduty hmem => hk hduty (List.mem_cons_of_mem _ hmem)).trans
          (hother k fun heq => ?_)
        subst heq
        exact hk rfl List.mem_cons_self
      · rcases List.mem_cons.mp hmem with heq | hmem
        · cases heq
          exact .inr ⟨_, hfirst ▸ hstores⟩
        · exact hsame pubKey' value' hmem ▸ hrest.entry pubKey' value' hmem
      · obtain ⟨hpubKey, hentries⟩ := not_or.mp (mt List.mem_cons.mpr hk)
        exact (hrest.noEntry output' hok pubKey' hentries).trans (lookup_collect_ne hpubKey outcome)
      · rcases List.mem_cons.mp hmem with heq | hmem
        · cases heq
          exact ⟨outcome, hfirst ▸ hstores, hrest.noEntry output' hok pubKey hnotin⟩
        · obtain ⟨outcome', hstores', hlookup⟩ := hrest.ok output' hok pubKey' value' hmem
          refine ⟨outcome', hsame pubKey' value' hmem ▸ hstores', hlookup.trans ?_⟩
          cases outcome' with
          | threshold psigs => simp [collect]
          | _ => exact lookup_collect_ne (hne pubKey' (List.mem_map_of_mem hmem)).1 outcome
      · obtain ⟨pubKey', value', sigs', hmem, hfails⟩ := hrest.error e he
        exact ⟨pubKey', value', sigs', List.mem_cons_of_mem _ hmem,
          hsame pubKey' value' hmem ▸ hfails⟩

lemma listed_storeAll : Attempt.Keeps (fun db db' => Listed db → Listed db')
    (storeAll order threshold duty entries output) := by
  induction entries generalizing output with
  | nil => exact fun _ => id
  | cons entry entries ih =>
    refine Attempt.Keeps.bind (fun _ _ _ h h' => h' ∘ h) (fun db h => ?_) fun outcome => ?_
    · rcases (exec_store _ threshold _ entry.2 db).2 with hsame | hpush
      · rwa [hsame]
      · rw [hpush]
        exact h.push _ _
    · cases outcome <;> exact ih

/-- A key keeps its signatures, or gets the one that the set carries for it. -/
lemma sigs_storeAll (hnodup : (entries.map Prod.fst).Nodup) (db : MemDB S) (k : Key) :
    (Attempt.exec (storeAll order threshold duty entries output) db).2.sigs k = db.sigs k ∨
      ∃ value, k.duty = duty ∧ (k.pubKey, value) ∈ entries ∧ Fresh (db.sigs k) value ∧
        (Attempt.exec (storeAll order threshold duty entries output) db).2.sigs k =
          db.sigs k ++ [value] := by
  have hloops := storeAll_loops order threshold duty output hnodup db
  by_cases hk : k.duty = duty ∧ k.pubKey ∈ entries.map Prod.fst
  · obtain ⟨rfl, hmem⟩ := hk
    obtain ⟨⟨_, value⟩, hmem, heq⟩ := List.mem_map.mp hmem
    subst heq
    rcases hloops.entry _ value hmem with
      hsame | ⟨_, ⟨_, _, hsigs⟩ | ⟨_, _, hsigs⟩ | ⟨hfresh, _, hsigs⟩⟩
    · exact .inl hsame
    · exact .inl hsigs
    · exact .inl hsigs
    · exact .inr ⟨value, rfl, hmem, hfresh, hsigs⟩
  · exact .inl (hloops.other k fun hduty hmem => hk ⟨hduty, hmem⟩)

lemma storeAll_ok (hnodup : (entries.map Prod.fst).Nodup)
    (hexec : Attempt.exec (storeAll order threshold duty entries output) db = (.ok output', db')) :
    Loops order threshold duty entries output db (.ok output') db' := by
  have hloops := storeAll_loops order threshold duty output hnodup db
  rwa [hexec] at hloops

/-- An entry that `store` accepts: it is there already, or no signature of its share is and if the
threshold is looked for then every signature of the key has a message root. -/
def Accepts (threshold : ℕ) (typ : DutyType) (sigs : List (ParSignedData S))
    (value : ParSignedData S) : Prop :=
  value ∈ sigs ∨
    (Fresh sigs value ∧
      (typ ≠ .signature → threshold ≤ sigs.length + 1 →
        ∀ sig ∈ sigs ++ [value], ∃ r, sig.root = .ok r))

lemma getThresholdMatching_accepts (order : GroupOrder S) {typ : DutyType}
    (h : typ ≠ .signature → threshold ≤ sigs.length + 1 →
      ∀ sig ∈ sigs ++ [value], ∃ r, sig.root = .ok r) :
    ∃ found, getThresholdMatching order typ (sigs ++ [value]) threshold = .ok found := by
  by_cases hlength : (sigs ++ [value]).length < threshold
  · rw [getThresholdMatching, if_pos hlength]
    exact ⟨_, rfl⟩
  by_cases htyp : typ = .signature
  · rw [getThresholdMatching, if_neg hlength, if_pos htyp]
    exact ⟨_, rfl⟩
  have hroots := h htyp (by simpa using hlength)
  obtain ⟨groups, hgroups⟩ := foldlM_groups_ok hroots ∅
  rw [getThresholdMatching, if_neg hlength, if_neg htyp]
  show ∃ found, (groupByRoot (sigs ++ [value]) >>= _) = .ok found
  rw [show groupByRoot (sigs ++ [value]) = .ok groups from hgroups]
  exact ⟨_, rfl⟩

/-- A set whose entries are all accepted is stored. -/
lemma storeAll_succeeds (hnodup : (entries.map Prod.fst).Nodup)
    (h : ∀ pubKey value, (pubKey, value) ∈ entries →
      ((db.sigs ⟨duty, pubKey⟩).map ParSignedData.shareIdx).Nodup ∧
        Accepts threshold duty.dutyType (db.sigs ⟨duty, pubKey⟩) value) :
    ∃ output' db', Attempt.exec (storeAll order threshold duty entries output) db =
      (.ok output', db') := by
  have hloops := storeAll_loops order threshold duty output hnodup db
  rcases hexec : Attempt.exec (storeAll order threshold duty entries output) db with
    ⟨e | output', db'⟩
  · rw [hexec] at hloops
    obtain ⟨pubKey, value, sigs', hmem, hstores⟩ := hloops.error e rfl
    obtain ⟨hshares, haccepts⟩ := h pubKey value hmem
    rcases hstores with ⟨_, hresult, _⟩ | ⟨⟨sig, hsig, hshare, hne⟩, _, _⟩ | ⟨hnew, hresult, _⟩
    · cases hresult
    · rcases haccepts with hmem | ⟨hfresh, _⟩
      · exact absurd (List.inj_on_of_nodup_map hshares hsig hmem hshare) hne
      · exact absurd hshare (hfresh sig hsig)
    · rcases haccepts with hmem | ⟨_, hroots⟩
      · exact absurd rfl (hnew value hmem)
      · obtain ⟨found, hfound⟩ := getThresholdMatching_accepts (order pubKey) hroots
        rw [hfound] at hresult
        cases found <;> cases hresult
  · exact ⟨output', db', rfl⟩

end Sets

/-! ## Calls -/

section Calls

variable {duty : Duty} {set : ParSignedDataSet S} {subs : List (Except (MemDBError S) Unit)}
  {outcome : Outcome S} {l : Label S} {tr : List (Label S)}

/-- A call stores its set, and gives what it has found to the subscribers if it does not fail. -/
lemma Step.call_cases (h : Step threshold db (.call duty set subs outcome) db') :
    ∃ order, db' = (Attempt.exec (storeAll order threshold duty set.entries ∅) db).2 ∧
      ((outcome.output = ∅ ∧ outcome.called = 0 ∧
          ∀ output, Attempt.exec (storeAll order threshold duty set.entries ∅) db =
            (.ok output, db') → output.entries = []) ∨
        (Attempt.exec (storeAll order threshold duty set.entries ∅) db =
            (.ok outcome.output, db') ∧ outcome.called = (callSubs subs).2)) := by
  have hexternal : ∀ order : PubKey → GroupOrder S,
      ∀ external, storeExternal order threshold duty set subs db = external →
      external.2 = (Attempt.exec (storeAll order threshold duty set.entries ∅) db).2 ∧
      ((external.1.output = ∅ ∧ external.1.called = 0 ∧
          ∀ output, Attempt.exec (storeAll order threshold duty set.entries ∅) db =
            (.ok output, external.2) → output.entries = []) ∨
        (Attempt.exec (storeAll order threshold duty set.entries ∅) db =
            (.ok external.1.output, external.2) ∧ external.1.called = (callSubs subs).2)) := by
    rintro order external rfl
    rw [storeExternal]
    rcases hexec : Attempt.exec (storeAll order threshold duty set.entries ∅) db with
      ⟨e | output, db₁⟩
    · exact ⟨rfl, .inl ⟨rfl, rfl, fun output' heq => by simp at heq⟩⟩
    · by_cases hempty : output.entries = []
      · simp only [if_pos hempty]
        refine ⟨trivial, .inl ⟨trivial, trivial, fun output' heq => ?_⟩⟩
        obtain rfl : output = output' := Except.ok.inj (congrArg Prod.fst heq)
        exact hempty
      · simp only [if_neg hempty]
        exact ⟨trivial, .inr ⟨trivial, trivial⟩⟩
  cases h with
  | external order => exact ⟨order, hexternal order _ rfl⟩
  | internal order _ _ _ internalSubs =>
    refine ⟨order, ?_⟩
    have hext := hexternal order _ rfl
    rw [storeInternal]
    cases hresult : (storeExternal order threshold duty set subs db).1.result with
    | error e => simpa only [hresult] using hext
    | ok => simpa only [hresult] using hext

variable {order : PubKey → GroupOrder S}

/-- A call that succeeds leaves all signatures of its set in the database. -/
lemma mem_sigs_of_storeExternal_ok
    (h : (storeExternal order threshold duty set subs db).1.result = .ok ())
    {entry : PubKey × ParSignedData S} (hentry : entry ∈ set.entries) :
    entry.2 ∈ (storeExternal order threshold duty set subs db).2.sigs ⟨duty, entry.1⟩ := by
  rw [storeExternal] at h ⊢
  rcases hexec : Attempt.exec (storeAll order threshold duty set.entries ∅) db with
    ⟨e | output, db₁⟩
  · simp [hexec] at h
  obtain ⟨outcome, hstores, -⟩ := (storeAll_ok set.nodup hexec).ok _ rfl _ _ hentry
  have hmem : entry.2 ∈ db₁.sigs ⟨duty, entry.1⟩ := by
    rcases hstores with ⟨hmem, _, hsigs⟩ | ⟨_, hresult, _⟩ | ⟨_, _, hsigs⟩
    · rwa [hsigs]
    · cases hresult
    · rw [hsigs]
      exact List.mem_append_right _ List.mem_cons_self
  by_cases hempty : output.entries = []
  · simpa only [hexec, if_pos hempty] using hmem
  · simpa only [hexec, if_neg hempty] using hmem

lemma mem_sigs_of_storeInternal_ok {internalSubs : List (Except (MemDBError S) Unit)}
    (h : (storeInternal order threshold duty set subs internalSubs db).1.result = .ok ())
    {entry : PubKey × ParSignedData S} (hentry : entry ∈ set.entries) :
    entry.2 ∈ (storeInternal order threshold duty set subs internalSubs db).2.sigs
      ⟨duty, entry.1⟩ := by
  rw [storeInternal] at h ⊢
  cases hexternal : (storeExternal order threshold duty set subs db).1.result with
  | error e => simp [hexternal] at h
  | ok => simpa only [hexternal] using mem_sigs_of_storeExternal_ok hexternal hentry

/-- All subscribers are called if those before the last one succeed. -/
lemma callSubs_called (h : ∀ result ∈ subs.dropLast, result = .ok ()) :
    (callSubs subs).2 = subs.length := by
  induction subs with
  | nil => rfl
  | cons sub subs ih =>
    cases subs with
    | nil => cases sub <;> rfl
    | cons sub' subs =>
      rw [List.dropLast_cons_cons] at h
      obtain rfl : sub = .ok () := h sub List.mem_cons_self
      rw [callSubs, ih fun result hmem => h result (List.mem_cons_of_mem _ hmem)]
      rfl

/-- The keys that are listed for a duty are keys of that duty, and the signatures of a key are of
different shares. -/
structure Inv (db : MemDB S) : Prop where
  keys : ∀ duty, ∀ k ∈ db.keysByDuty.listAt duty, k.duty = duty
  shares : ∀ k, ((db.sigs k).map ParSignedData.shareIdx).Nodup

lemma inv_new : Inv (new S) where
  keys duty k hk := by simp [new, HashMap.listAt] at hk
  shares k := by simp [new, sigs, HashMap.listAt]

lemma keys_storeAll {entries : List (PubKey × ParSignedData S)}
    {output : HashMap PubKey (List (ParSignedData S))}
    (h : ∀ duty, ∀ k ∈ db.keysByDuty.listAt duty, k.duty = duty) :
    ∀ duty', ∀ k ∈
      (Attempt.exec (storeAll order threshold duty entries output) db).2.keysByDuty.listAt duty',
        k.duty = duty' := by
  induction entries generalizing db output with
  | nil => exact h
  | cons entry entries ih =>
    obtain ⟨pubKey, value⟩ := entry
    have hstore : ∀ duty', ∀ k ∈ (Attempt.exec (store (order pubKey) threshold ⟨duty, pubKey⟩ value)
        db).2.keysByDuty.listAt duty', k.duty = duty' := by
      rcases (exec_store (order pubKey) threshold ⟨duty, pubKey⟩ value db).2 with hsame | hpush
      · rw [hsame]
        exact h
      · rw [hpush]
        intro duty' k hk
        rcases HashMap.mem_listAt_push.mp hk with hold | ⟨rfl, rfl⟩
        · exact h duty' k hold
        · rfl
    rw [exec_storeAll_cons]
    rcases hexec : Attempt.exec (store (order pubKey) threshold ⟨duty, pubKey⟩ value) db with
      ⟨e | outcome, db₁⟩ <;> rw [hexec] at hstore
    · exact hstore
    · exact ih hstore

lemma sigs_trim (db : MemDB S) (duty : Duty) (k : Key) :
    (db.trim duty).sigs k = if k ∈ db.keysByDuty.listAt duty then [] else db.sigs k := by
  rw [sigs, HashMap.listAt, trim, HashMap.lookup_eraseAll]
  split <;> rfl

lemma Inv.step (h : Inv db) (hstep : Step threshold db l db') : Inv db' := by
  cases l with
  | call duty set subs outcome =>
    obtain ⟨order, rfl, -⟩ := hstep.call_cases
    refine ⟨keys_storeAll h.keys, fun k => ?_⟩
    rcases sigs_storeAll set.nodup db k with hsame | ⟨value, -, -, hfresh, hpush⟩
    · rw [hsame]
      exact h.shares k
    · rw [hpush, List.map_append, List.nodup_append]
      refine ⟨h.shares k, by simp, ?_⟩
      intro shareIdx hmem shareIdx' hmem'
      obtain ⟨sig, hsig, rfl⟩ := List.mem_map.mp hmem
      obtain rfl : shareIdx' = value.shareIdx := by simpa using hmem'
      exact hfresh sig hsig
  | trim duty =>
    cases hstep with
    | trim =>
      refine ⟨fun duty' k hk => h.keys duty' k (HashMap.mem_listAt_erase.mp hk).1, fun k => ?_⟩
      rw [sigs_trim]
      split
      · simp
      · exact h.shares k

/-- The subscribers are given a group of a message root. -/
def Fires (k : Key) (r : HashRoot) (l : Label S) : Prop :=
  ∃ set subs outcome psigs, l = .call k.duty set subs outcome ∧
    outcome.output.lookup k.pubKey = some psigs ∧ ∃ sig ∈ psigs, sig.root = .ok r

/-- The number of signatures of a message root. -/
def count (db : MemDB S) (k : Key) (r : HashRoot) : ℕ := (withRoot r (db.sigs k)).length

/-- No new signature of another root arrives while the root stands at the threshold. -/
def NoRival (threshold : ℕ) (k : Key) (r : HashRoot) (db : MemDB S) : Label S → Prop
  | .call duty set _ _ =>
    duty = k.duty → ∀ value r', (k.pubKey, value) ∈ set.entries → Fresh (db.sigs k) value →
      value.root = .ok r' → r' ≠ r → db.count k r ≠ threshold
  | .trim _ => True

/-- A call only appends signatures. -/
lemma Step.sigs_grow (h : Step threshold db (.call duty set subs outcome) db') (k : Key) :
    db.sigs k <+: db'.sigs k ∧ ∀ sig ∈ db'.sigs k, sig ∈ db.sigs k ∨
      (k.duty = duty ∧ (k.pubKey, sig) ∈ set.entries) := by
  obtain ⟨order, rfl, -⟩ := h.call_cases
  rcases sigs_storeAll set.nodup db k with hsame | ⟨value, hduty, hmem, -, hpush⟩
  · rw [hsame]
    exact ⟨List.prefix_rfl, fun sig hsig => .inl hsig⟩
  · rw [hpush]
    refine ⟨List.prefix_append _ _, fun sig hsig => ?_⟩
    rcases List.mem_append.mp hsig with hold | hnew
    · exact .inl hold
    · obtain rfl := List.mem_singleton.mp hnew
      exact .inr ⟨hduty, hmem⟩

/-- The output of a call comes from one of its entries. -/
lemma Step.output_cases {psigs : List (ParSignedData S)}
    (h : Step threshold db (.call duty set subs outcome) db') {pubKey : PubKey}
    (hlookup : outcome.output.lookup pubKey = some psigs) :
    ∃ order value, (pubKey, value) ∈ set.entries ∧
      Stores order threshold ⟨duty, pubKey⟩ (db.sigs ⟨duty, pubKey⟩) value
        (.ok (.threshold psigs)) (db'.sigs ⟨duty, pubKey⟩) := by
  obtain ⟨order, -, ⟨hempty, -⟩ | ⟨hexec, -⟩⟩ := h.call_cases
  · rw [hempty] at hlookup
    simp at hlookup
  have hloops := storeAll_ok set.nodup hexec
  have hentry : pubKey ∈ set.entries.map Prod.fst := by
    by_contra hnone
    rw [hloops.noEntry _ rfl pubKey hnone] at hlookup
    simp at hlookup
  obtain ⟨⟨_, value⟩, hvalue, rfl⟩ := List.mem_map.mp hentry
  obtain ⟨found, hstores, hfound⟩ := hloops.ok _ rfl _ value hvalue
  rw [hlookup] at hfound
  cases found with
  | threshold psigs' =>
    rw [collect, AList.lookup_insert] at hfound
    obtain rfl : psigs = psigs' := Option.some.inj hfound
    exact ⟨_, value, hvalue, hstores⟩
  | duplicate => simp [collect] at hfound
  | stored => simp [collect] at hfound

/-- Without a rival, a root fires when its group grows to the threshold. -/
lemma Step.fires (htyp : k.duty.dutyType ≠ .signature) (h : Step threshold db l db')
    (hrival : NoRival threshold k r db l) (hfires : Fires k r l) :
    db.count k r < threshold ∧ db'.count k r = threshold := by
  obtain ⟨set, subs, outcome, psigs, rfl, hlookup, sig, hsig, hroot⟩ := hfires
  obtain ⟨order, value, hvalue, hstores⟩ := h.output_cases hlookup
  obtain ⟨hfresh, hmatch, hsigs⟩ := hstores.of_threshold
  obtain ⟨hroots, r₀, hpsigs, hlength⟩ := getThresholdMatching_some htyp hmatch
  -- the group that is found is the one of the root that fires
  have hr₀ : sig.root = .ok r₀ := by
    rw [hpsigs] at hsig
    exact hasRoot_iff.mp (List.mem_filter.mp hsig).2
  obtain rfl : r₀ = r := Except.ok.inj (hr₀.symm.trans hroot)
  rw [hpsigs] at hlength
  have hafter : db'.count k r₀ = threshold := by
    rw [count, show db'.sigs k = _ from hsigs, hlength]
  refine ⟨?_, hafter⟩
  obtain ⟨r', hr'⟩ := hroots value (by simp)
  have hsame : r' = r₀ := by
    by_contra hne
    have hno : value.hasRoot r₀ = false := by simp [ParSignedData.hasRoot, hr', hne]
    rw [withRoot_append, hno] at hlength
    exact hrival rfl value r' hvalue hfresh hr' hne hlength
  rw [withRoot_append, hasRoot_iff.mpr (hsame ▸ hr')] at hlength
  have hgrown : db.count k r₀ + 1 = threshold := by simpa [count] using hlength
  omega

/-- Groups only grow, until their duty is trimmed. -/
lemma Step.count_mono (hinv : Inv db) (h : Step threshold db l db') (hl : l ≠ .trim k.duty) :
    db.count k r ≤ db'.count k r := by
  cases l with
  | call duty set subs outcome =>
    obtain ⟨order, rfl, -⟩ := h.call_cases
    rcases sigs_storeAll set.nodup db k with hsame | ⟨value, -, -, -, hpush⟩
    · rw [count, count, hsame]
    · rw [count, count, hpush]
      exact (List.Sublist.filter _ (List.sublist_append_left _ _)).length_le
  | trim duty =>
    cases h with
    | trim =>
      have hnotin : k ∉ db.keysByDuty.listAt duty := by
        intro hmem
        exact hl (by rw [hinv.keys duty k hmem])
      rw [count, count, sigs_trim, if_neg hnotin]

lemma count_mono_run (hinv : Inv db) (hrun : Trace (Step threshold) db tr db')
    (htrim : .trim k.duty ∉ tr) : Inv db' ∧ db.count k r ≤ db'.count k r := by
  refine hrun.induction (P := fun _ db' => Inv db' ∧ db.count k r ≤ db'.count k r)
    (E := fun l => l ≠ .trim k.duty) ⟨hinv, le_rfl⟩ ?_ fun l hl heq => htrim (heq ▸ hl)
  rintro - db₁ l db₂ hl ⟨hinv₁, hle⟩ hstep
  exact ⟨hinv₁.step hstep, hle.trans (hstep.count_mono hinv₁ hl)⟩

/-! ### Signatures of two validators -/

namespace Shares

/-- Data that carries its message root. -/
def signed : SignedData := ⟨HashRoot × UInt64, inferInstance, Empty, fun data => .ok data.1⟩

def root (n : UInt8) : HashRoot := ⟨List.replicate 32 n, by simp⟩

/-- The signature of a share for the `n`th message root. -/
def sig (shareIdx : UInt64) (n : UInt8) : ParSignedData signed := ⟨(root n, shareIdx), shareIdx⟩

def pubkey (n : UInt8) : PubKey := ⟨List.replicate 48 n, by simp⟩

def attester : Duty := ⟨5, .attester⟩

def one (value : ParSignedData signed) : ParSignedDataSet signed := ⟨[(pubkey 1, value)], by simp⟩

def two (value₁ value₂ : ParSignedData signed) : ParSignedDataSet signed :=
  ⟨[(pubkey 1, value₁), (pubkey 2, value₂)], show [pubkey 1, pubkey 2].Nodup by decide⟩

/-- A call with one subscriber. -/
def called (threshold : ℕ) (set : ParSignedDataSet signed) (db : MemDB signed) :
    Outcome signed × MemDB signed :=
  storeExternal (fun _ => .stored _) threshold attester set [.ok ()] db

/-- The state after some calls. -/
def stored (threshold : ℕ) (past : List (ParSignedDataSet signed)) : MemDB signed :=
  past.foldl (fun db set => (called threshold set db).2) (new signed)

/-- The call that comes after some others. -/
def next (threshold : ℕ) (past : List (ParSignedDataSet signed)) (set : ParSignedDataSet signed) :
    Label signed :=
  .call attester set [.ok ()] (called threshold set (stored threshold past)).1

lemma step_next (threshold : ℕ) (past : List (ParSignedDataSet signed))
    (set : ParSignedDataSet signed) :
    Step threshold (stored threshold past) (next threshold past set)
      (stored threshold (past ++ [set])) := by
  rw [stored, stored, List.foldl_append]
  exact .external _ _ _ _

end Shares

/-- **A threshold fires at most once** before its duty is trimmed, in every run in which no new
signature of another root arrives while the root stands at the threshold. -/
theorem threshold_once (htyp : k.duty.dutyType ≠ .signature) {t₁ mid t₂ : List (Label S)}
    {l l' : Label S}
    (hrun : Trace (fun db l db' => Step threshold db l db' ∧ NoRival threshold k r db l) (new S)
      (t₁ ++ l :: (mid ++ l' :: t₂)) db)
    (hl : Fires k r l) (hl' : Fires k r l') : .trim k.duty ∈ mid := by
  by_contra htrim
  obtain ⟨db₁, db₂, hpast, ⟨hstep, hrival⟩, hrest⟩ := hrun.split_cons
  obtain ⟨db₃, db₄, hmid, ⟨hstep', hrival'⟩, -⟩ := hrest.split_cons
  have hinv : Inv db₂ :=
    ((hpast.mono fun _ _ _ h => h.1).invariant inv_new fun _ _ _ h => h.step).step hstep
  have hreached := (hstep.fires htyp hrival hl).2
  have hbelow := (hstep'.fires htyp hrival' hl').1
  have hgrown := (count_mono_run (r := r) hinv (hmid.mono fun _ _ _ h => h.1) htrim).2
  omega

open Shares in
/-- Two shares sign one root, which fires.  When a third share signs another root, the first root
still stands at the threshold and fires again. -/
theorem fires_twice :
    Trace (Step 2) (new signed)
      [next 2 [] (one (sig 1 1)),
        next 2 [one (sig 1 1)] (one (sig 2 1)),
        next 2 [one (sig 1 1), one (sig 2 1)] (one (sig 3 2))]
      (stored 2 [one (sig 1 1), one (sig 2 1), one (sig 3 2)]) ∧
    Fires ⟨attester, pubkey 1⟩ (root 1) (next 2 [one (sig 1 1)] (one (sig 2 1))) ∧
    (called 2 (one (sig 2 1)) (stored 2 [one (sig 1 1)])).1.called = 1 ∧
    Fires ⟨attester, pubkey 1⟩ (root 1)
      (next 2 [one (sig 1 1), one (sig 2 1)] (one (sig 3 2))) ∧
    (called 2 (one (sig 3 2)) (stored 2 [one (sig 1 1), one (sig 2 1)])).1.called = 1 := by
  refine ⟨?_, ?_, by rfl, ?_, by rfl⟩
  · exact ((Trace.nil.snoc (step_next 2 [] _)).snoc (step_next 2 [_] _)).snoc (step_next 2 [_, _] _)
  · exact ⟨_, _, _, [sig 1 1, sig 2 1], rfl, by rfl, sig 1 1, by simp, rfl⟩
  · exact ⟨_, _, _, [sig 1 1, sig 2 1], rfl, by rfl, sig 1 1, by simp, rfl⟩

open Shares in
/-- The second share of a root makes it fire, and a third one comes late.  The duty is trimmed, and the
two shares make the root fire anew. -/
theorem threshold_once_trimmed :
    Label.trim attester ∈ [next 2 [one (sig 1 1), one (sig 2 1)] (one (sig 3 1)), .trim attester,
      next 2 [] (one (sig 1 1))] := by
  have hrival : ∀ shareIdx, ∀ db : MemDB signed, ∀ past, NoRival 2 ⟨attester, pubkey 1⟩ (root 1) db
      (next 2 past (one (sig shareIdx 1))) := by
    intro shareIdx db past _ value r' hvalue _ hroot hne
    obtain rfl : value = sig shareIdx 1 := by simpa [one] using hvalue
    exact absurd (Except.ok.inj hroot).symm hne
  have hfires : Fires ⟨attester, pubkey 1⟩ (root 1) (next 2 [one (sig 1 1)] (one (sig 2 1))) :=
    ⟨_, _, _, [sig 1 1, sig 2 1], rfl, by rfl, sig 1 1, by simp, rfl⟩
  have htrimmed : Step 2
      ((stored 2 [one (sig 1 1), one (sig 2 1), one (sig 3 1)]).trim attester)
      (next 2 [] (one (sig 1 1))) (stored 2 [one (sig 1 1)]) :=
    step_next 2 [] _
  have hrun : Trace (fun db l db' => Step 2 db l db' ∧
        NoRival 2 ⟨attester, pubkey 1⟩ (root 1) db l) (new signed)
      ([next 2 [] (one (sig 1 1))] ++ next 2 [one (sig 1 1)] (one (sig 2 1)) ::
        ([next 2 [one (sig 1 1), one (sig 2 1)] (one (sig 3 1)), .trim attester,
          next 2 [] (one (sig 1 1))] ++ next 2 [one (sig 1 1)] (one (sig 2 1)) :: []))
      (stored 2 [one (sig 1 1), one (sig 2 1)]) :=
    (((((Trace.nil.snoc ⟨step_next 2 [] _, hrival 1 _ _⟩).snoc
      ⟨step_next 2 [_] _, hrival 2 _ _⟩).snoc ⟨step_next 2 [_, _] _, hrival 3 _ _⟩).snoc
      ⟨.trim attester, trivial⟩).snoc ⟨htrimmed, hrival 1 _ _⟩).snoc
      ⟨step_next 2 [_] _, hrival 2 _ _⟩
  exact threshold_once (by decide) hrun hfires hfires

/-! ## Every threshold fires -/

/-- A call brings the group of a root to the threshold. -/
def Reached (threshold : ℕ) (k : Key) (r : HashRoot) (db db' : MemDB S) : Prop :=
  db.count k r ≠ threshold ∧ db'.count k r = threshold

/-- A set carries the signature that is missing from a group. -/
def Completes (threshold : ℕ) (k : Key) (r : HashRoot) (db : MemDB S) (set : ParSignedDataSet S) :
    Prop :=
  ∃ value, (k.pubKey, value) ∈ set.entries ∧ Fresh (db.sigs k) value ∧ value.root = .ok r ∧
    db.count k r + 1 = threshold

/-- Nothing keeps a call from handing on a group that it completes. -/
structure Undisturbed (threshold : ℕ) (k : Key) (r : HashRoot) (db : MemDB S)
    (set : ParSignedDataSet S) (subs : List (Except (MemDBError S) Unit)) : Prop where
  accepts : ∀ pubKey value, (pubKey, value) ∈ set.entries →
    Accepts threshold k.duty.dutyType (db.sigs ⟨k.duty, pubKey⟩) value
  noRival : k.duty.dutyType ≠ .signature → ∀ r', r' ≠ r → db.count k r' ≠ threshold
  oneRoot : k.duty.dutyType = .signature → ∀ sig ∈ db.sigs k, sig.root = .ok r
  subs : ∀ result ∈ subs.dropLast, result = .ok ()

lemma Reached.completes {output : HashMap PubKey _} (h : Reached threshold k r db
      (Attempt.exec (storeAll order threshold duty set.entries output) db).2) :
    k.duty = duty ∧ Completes threshold k r db set := by
  obtain ⟨hbefore, hafter⟩ := h
  rcases sigs_storeAll set.nodup db k with hsame | ⟨value, hduty, hvalue, hfresh, hpush⟩
  · exact absurd (by rw [← hafter, count, count, hsame]) hbefore
  rw [count, hpush, withRoot_append] at hafter
  by_cases hroot : value.hasRoot r = true
  · rw [if_pos hroot] at hafter
    exact ⟨hduty, value, hvalue, hfresh, hasRoot_iff.mp hroot, by simpa [count] using hafter⟩
  · rw [if_neg hroot] at hafter
    exact absurd hafter hbefore

/-- The completed group is found, if there is no rival. -/
lemma Undisturbed.getThresholdMatching_eq (h : Undisturbed threshold k r db set subs)
    (hvalue : (k.pubKey, value) ∈ set.entries) (hfresh : Fresh (db.sigs k) value)
    (hroot : value.root = .ok r) (hcount : db.count k r + 1 = threshold) (order : GroupOrder S) :
    getThresholdMatching order k.duty.dutyType (db.sigs k ++ [value]) threshold =
      .ok (some (withRoot r (db.sigs k ++ [value]))) := by
  have hgroup : (withRoot r (db.sigs k ++ [value])).length = threshold := by
    rw [withRoot_append, if_pos (hasRoot_iff.mpr hroot)]
    simpa [count] using hcount
  have hle : (withRoot r (db.sigs k)).length ≤ (db.sigs k).length := List.length_filter_le _ _
  by_cases htyp : k.duty.dutyType = .signature
  · have hall : withRoot r (db.sigs k ++ [value]) = db.sigs k ++ [value] := by
      refine List.filter_eq_self.mpr fun sig hsig => hasRoot_iff.mpr ?_
      rcases List.mem_append.mp hsig with hold | hnew
      · exact h.oneRoot htyp sig hold
      · rw [List.mem_singleton.mp hnew, hroot]
    rw [hall] at hgroup ⊢
    rw [getThresholdMatching, if_neg (by omega), if_pos htyp, if_pos hgroup]
  · have hroots : ∀ sig ∈ db.sigs k ++ [value], ∃ r, sig.root = .ok r := by
      rcases h.accepts k.pubKey value hvalue with hmem | ⟨_, hroots⟩
      · exact absurd rfl (hfresh value hmem)
      · rw [count] at hcount
        exact hroots htyp (show threshold ≤ (db.sigs k).length + 1 by omega)
    refine getThresholdMatching_of_group order htyp hroots (by omega) hgroup fun r' hne => ?_
    have hno : value.hasRoot r' = false := by
      simp [ParSignedData.hasRoot, hroot, Ne.symm hne]
    rw [withRoot_append, hno]
    exact h.noRival htyp r' hne

/-- **No reached threshold is lost.**  After every run, a call that brings the group of a root to
the threshold gives exactly that group to all subscribers, if it is not disturbed when it completes
the group. -/
theorem threshold_not_lost (hrun : Trace (Step threshold) (new S) tr db)
    (hstep : Step threshold db (.call duty set subs outcome) db')
    (hcond : k.duty = duty → Completes threshold k r db set →
      Undisturbed threshold k r db set subs)
    (hreached : Reached threshold k r db db') :
    ((withRoot r (db'.sigs k)).map ParSignedData.shareIdx).Nodup ∧
      outcome.output.lookup k.pubKey = some (withRoot r (db'.sigs k)) ∧
      outcome.called = subs.length := by
  have hinv : Inv db := hrun.invariant inv_new fun _ _ _ h => h.step
  have hshares := (hinv.step hstep).shares k
  refine ⟨hshares.sublist (List.filter_sublist.map _), ?_⟩
  obtain ⟨order, rfl, houtcome⟩ := hstep.call_cases
  obtain ⟨rfl, hcompletes⟩ := hreached.completes
  have hundisturbed := hcond rfl hcompletes
  obtain ⟨value, hvalue, hfresh, hroot, hcount⟩ := hcompletes
  obtain ⟨output, db₁, hexec⟩ : ∃ output db₁, Attempt.exec
      (storeAll order threshold k.duty set.entries ∅) db = (.ok output, db₁) :=
    storeAll_succeeds set.nodup fun pubKey value hmem =>
      ⟨hinv.shares _, hundisturbed.accepts pubKey value hmem⟩
  have hlookup : output.lookup k.pubKey = some (withRoot r (db₁.sigs k)) := by
    obtain ⟨found, hstores, hfound⟩ := (storeAll_ok set.nodup hexec).ok _ rfl _ value hvalue
    rcases hstores with ⟨hmem, _⟩ | ⟨⟨sig, hsig, hshare, _⟩, _⟩ | ⟨_, hresult, hsigs⟩
    · exact absurd rfl (hfresh value hmem)
    · exact absurd hshare (hfresh sig hsig)
    · have hmatch :=
        hundisturbed.getThresholdMatching_eq hvalue hfresh hroot hcount (order k.pubKey)
      rw [hmatch] at hresult
      obtain rfl := Except.ok.inj hresult
      rw [hfound, collect, AList.lookup_insert, show db₁.sigs k = _ from hsigs]
  rw [hexec] at houtcome ⊢
  rcases houtcome with ⟨-, -, hempty⟩ | ⟨houtput, hcalled⟩
  · have hnil : output = ∅ := AList.ext (hempty output rfl)
    rw [hnil] at hlookup
    simp at hlookup
  · obtain rfl : output = outcome.output := Except.ok.inj (congrArg Prod.fst houtput)
    exact ⟨hlookup, hcalled.trans (callSubs_called hundisturbed.subs)⟩

open Shares in
/-- The second share of the first validator completes a group.  The same set has another signature
of a share of the second validator, so the call fails, no subscriber is called, and the group is
never handed on. -/
theorem threshold_lost :
    Trace (Step 2) (new signed)
      [next 2 [] (two (sig 1 1) (sig 2 1)),
        next 2 [two (sig 1 1) (sig 2 1)] (two (sig 2 1) (sig 2 2))]
      (stored 2 [two (sig 1 1) (sig 2 1), two (sig 2 1) (sig 2 2)]) ∧
    Reached 2 ⟨attester, pubkey 1⟩ (root 1) (stored 2 [two (sig 1 1) (sig 2 1)])
      (stored 2 [two (sig 1 1) (sig 2 1), two (sig 2 1) (sig 2 2)]) ∧
    (called 2 (two (sig 2 1) (sig 2 2)) (stored 2 [two (sig 1 1) (sig 2 1)])).1 =
      ⟨.error (.parsigDataMismatch (pubkey 2) 2), ∅, 0⟩ := by
  refine ⟨?_, ⟨by decide, by rfl⟩, by rfl⟩
  exact (Trace.nil.snoc (step_next 2 [] _)).snoc (step_next 2 [_] _)

open Shares in
/-- Two shares of two validators, in two calls. -/
theorem threshold_not_lost_two :
    (called 2 (two (sig 2 1) (sig 2 1)) (stored 2 [two (sig 1 1) (sig 1 1)])).1.output.lookup
        (pubkey 1) = some [sig 1 1, sig 2 1] ∧
      (called 2 (two (sig 2 1) (sig 2 1)) (stored 2 [two (sig 1 1) (sig 1 1)])).1.called = 1 := by
  have hroots : ∀ value : ParSignedData signed, ∃ r, value.root = .ok r := fun value => ⟨_, rfl⟩
  have haccepts : ∀ k : PubKey, ∀ value,
      (k, value) ∈ (two (sig 2 1) (sig 2 1)).entries →
      Accepts 2 DutyType.attester ((stored 2 [two (sig 1 1) (sig 1 1)]).sigs ⟨attester, k⟩)
        value := by
    intro k value hmem
    refine .inr ⟨?_, fun _ _ sig _ => hroots sig⟩
    have hentry : (k = pubkey 1 ∧ value = sig 2 1) ∨ (k = pubkey 2 ∧ value = sig 2 1) := by
      simpa [two] using hmem
    rcases hentry with ⟨rfl, rfl⟩ | ⟨rfl, rfl⟩
    · show ∀ sig' ∈ [sig 1 1], sig'.shareIdx ≠ 2
      decide
    · show ∀ sig' ∈ [sig 1 1], sig'.shareIdx ≠ 2
      decide
  have hrival : ∀ r', (stored 2 [two (sig 1 1) (sig 1 1)]).count ⟨attester, pubkey 1⟩ r' ≠ 2 := by
    intro r'
    have hle : (withRoot r' [sig 1 1]).length ≤ 1 := List.length_filter_le _ _
    show (withRoot r' [sig 1 1]).length ≠ 2
    omega
  have hnotlost := threshold_not_lost (k := ⟨attester, pubkey 1⟩) (r := root 1)
    (Trace.nil.snoc (step_next 2 [] (two (sig 1 1) (sig 1 1))))
    (step_next 2 [two (sig 1 1) (sig 1 1)] (two (sig 2 1) (sig 2 1)))
    (fun _ _ => ⟨haccepts, fun _ r' _ => hrival r', fun htyp => absurd htyp (by decide), by simp⟩)
    ⟨hrival (root 1), by rfl⟩
  exact ⟨hnotlost.2.1, hnotlost.2.2⟩

/-! ## Trimming -/

lemma Listed.step (h : Listed db) (hstep : Step threshold db l db') : Listed db' := by
  cases l with
  | call duty set subs outcome =>
    obtain ⟨order, rfl, -⟩ := hstep.call_cases
    exact listed_storeAll db h
  | trim duty =>
    cases hstep
    intro k hk
    rw [sigs_trim]
    split_ifs with hgone
    · rfl
    · refine h k fun hmem => hk (HashMap.mem_listAt_erase.mpr ⟨hmem, ?_⟩)
      rintro rfl
      exact hgone hmem

/-- **Trimming is exact.**  In every run, trimming a duty removes its signatures and no others; also
those that a failed call has left behind. -/
theorem trim_exact (hrun : Trace (Step threshold) (new S) tr db) (duty : Duty) (k : Key) :
    (db.trim duty).sigs k = if k.duty = duty then [] else db.sigs k := by
  have hinv : Inv db := hrun.invariant inv_new fun _ _ _ h => h.step
  have hlisted : Listed db := hrun.invariant (fun _ _ => rfl) fun _ _ _ h => h.step
  rw [sigs_trim]
  by_cases heq : k.duty = duty
  · subst heq
    rw [if_pos rfl]
    split_ifs with hk
    · rfl
    · exact hlisted k hk
  · rw [if_neg heq, if_neg fun hk => heq (hinv.keys duty k hk)]

/-- A call fails half-way, and another one is for the next slot. -/
def Shares.twoDuties : MemDB signed :=
  (storeExternal (fun _ => .stored _) 2 ⟨6, .attester⟩ (one (sig 1 1)) [.ok ()]
    (stored 2 [two (sig 1 1) (sig 2 1), two (sig 2 1) (sig 2 2)])).2

open Shares in
/-- The signatures that the failed call has left are removed, and that of the other slot stays. -/
theorem trim_exact_two_duties :
    twoDuties.sigs ⟨attester, pubkey 1⟩ = [sig 1 1, sig 2 1] ∧
      (twoDuties.trim attester).sigs ⟨attester, pubkey 1⟩ = [] ∧
      (twoDuties.trim attester).sigs ⟨⟨6, .attester⟩, pubkey 1⟩ = [sig 1 1] := by
  have hrun : Trace (Step 2) (new signed) _ twoDuties :=
    ((Trace.nil.snoc (step_next 2 [] _)).snoc (step_next 2 [_] _)).snoc (.external _ _ _ _)
  refine ⟨by rfl, ?_, ?_⟩
  · exact trim_exact hrun attester _
  · rw [trim_exact hrun]
    rfl

end Calls

end MemDB

end Pluto.Core.ParSigDb
