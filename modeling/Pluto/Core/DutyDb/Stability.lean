import Pluto.Core.DutyDb.Waiters

/-!
# Answers that stay

An answer that a caller has been given must not change: two votes on different data are a slashing
offence.  A store only inserts (`grows_storeSet`), so an answer can change by an eviction alone, and
an eviction of a duty should only remove what belongs to the slot of the duty.  For proposals and
contributions it does.  An attestation is looked up by the slot of its data and evicted by the slot
of its attester duty, and nothing compares the two; `answer_changes` is a run in which the eviction
of one slot removes the attestation of another, and other data takes its place.

If the two slots of every stored attestation agree then the keys listed for a slot are keys of that
slot (`Indexed`), and `answers_stable` holds.
-/

namespace Pluto.Core.DutyDb

variable {P : Payloads} {ι : Type}

/-- The duty whose eviction removes what a query asks for; aggregates are queried by root. -/
def Query.duty? : Query → Option Duty
  | .proposal slot => some ⟨slot, .proposer⟩
  | .attestation slot _ => some ⟨slot, .attester⟩
  | .aggAttestation _ => none
  | .syncContribution slot _ _ => some ⟨slot, .syncContribution⟩

/-- Every attestation of the set has the slot of its attester duty. -/
def SlotsMatch (entries : List (PubKey × UnsignedDutyData P)) : Prop :=
  ∀ pubkey att, (pubkey, .attestation att) ∈ entries → att.data.slot = att.duty.slot

namespace State

variable {s : State P} {entries : List (PubKey × UnsignedDutyData P)}

/-! ## Stores -/

/-- A store keeps what is there, aggregates apart. -/
lemma grows_storeSet (dutyType : DutyType) (entries : List (PubKey × UnsignedDutyData P)) :
    Attempt.Keeps Grows (storeSet dutyType entries) := by
  by_cases hagg : dutyType = .aggregator
  · subst hagg
    refine Attempt.Keeps.forM Grows.refl Grows.trans ?_
    intro entry _ s
    rw [storeEntry_aggregator]
    rcases aggregate? entry.2 with _ | ⟨data, agg⟩
    · exact Grows.refl s
    · obtain ⟨hattestations, hpubKeys, hproposals, hcontributions⟩ := Grows.refl s
      exact ⟨hattestations, hpubKeys, hproposals, hcontributions⟩
  · rw [storeSet_eq_writes hagg]
    exact Write.keeps_forM Grows.refl Grows.trans (settles_setWrites dutyType entries)

/-- An answer stays along growth. -/
lemma Grows.answer? {s' : State P} (h : Grows s s') {q : Query} {duty : Duty}
    (hq : q.duty? = some duty) {answer : Answer P} (ha : (s.lookup q).answer? = some answer) :
    (s'.lookup q).answer? = some answer := by
  cases q with
  | aggAttestation root => simp [Query.duty?] at hq
  | proposal slot =>
    rw [answer?_proposal, Option.map_eq_some_iff] at ha ⊢
    obtain ⟨proposal, hproposal, rfl⟩ := ha
    exact ⟨proposal, h.proposals _ _ hproposal, rfl⟩
  | attestation slot committeeIndex =>
    rw [answer?_attestation, Option.map_eq_some_iff] at ha ⊢
    obtain ⟨data, hdata, rfl⟩ := ha
    exact ⟨data, h.attestations _ _ hdata, rfl⟩
  | syncContribution slot subcommitteeIndex root =>
    rw [answer?_syncContribution, Option.map_eq_some_iff] at ha ⊢
    obtain ⟨contrib, hcontrib, rfl⟩ := ha
    exact ⟨contrib, h.contributions _ _ hcontrib, rfl⟩

/-! ## Evictions -/

/-- The keys that are listed for a slot are keys of that slot. -/
structure Indexed (s : State P) : Prop where
  attestationKeys : ∀ slot, ∀ key ∈ s.attestationKeysBySlot.listAt slot, key.slot = slot
  contributionKeys : ∀ slot, ∀ key ∈ s.contribKeysBySlot.listAt slot, key.slot = slot

lemma indexed_empty : Indexed (empty P) where
  attestationKeys slot key hkey := by simp [empty, HashMap.listAt] at hkey
  contributionKeys slot key hkey := by simp [empty, HashMap.listAt] at hkey

lemma Indexed.evict (h : Indexed s) (duty : Duty) : Indexed (s.evict duty) := by
  obtain ⟨slot, dutyType⟩ := duty
  cases dutyType with
  | attester =>
    exact { h with
      attestationKeys := fun slot' key hkey =>
        h.attestationKeys slot' key (HashMap.mem_listAt_erase.mp hkey).1 }
  | syncContribution =>
    exact { h with
      contributionKeys := fun slot' key hkey =>
        h.contributionKeys slot' key (HashMap.mem_listAt_erase.mp hkey).1 }
  | _ => exact ⟨h.attestationKeys, h.contributionKeys⟩

/-- An answer stays under the eviction of another duty. -/
lemma Indexed.answer?_evict (h : Indexed s) {q : Query} {duty duty' : Duty}
    (hq : q.duty? = some duty) (hne : duty' ≠ duty) :
    ((s.evict duty').lookup q).answer? = (s.lookup q).answer? := by
  by_cases htype : q.dutyType = duty'.dutyType
  · obtain ⟨slot', dutyType'⟩ := duty'
    cases q with
    | aggAttestation root => simp [Query.duty?] at hq
    | proposal slot =>
      obtain rfl : (⟨slot, .proposer⟩ : Duty) = duty := Option.some.inj hq
      obtain rfl : DutyType.proposer = dutyType' := htype
      have hslot : slot ≠ slot' := by rintro rfl; exact hne rfl
      rw [answer?_proposal, answer?_proposal]
      exact congrArg _ (AList.lookup_erase_ne hslot)
    | attestation slot committeeIndex =>
      obtain rfl : (⟨slot, .attester⟩ : Duty) = duty := Option.some.inj hq
      obtain rfl : DutyType.attester = dutyType' := htype
      have hkept : (⟨slot, committeeIndex⟩ : AttKey) ∉
          (s.attestationKeysBySlot.listAt slot').map PkKey.attKey := by
        rintro hmem
        obtain ⟨key, hkey, heq⟩ := List.mem_map.mp hmem
        have hslot := h.attestationKeys slot' key hkey
        obtain rfl : slot = slot' := (congrArg AttKey.slot heq).symm.trans hslot
        exact hne rfl
      rw [answer?_attestation, answer?_attestation]
      show Option.map _ ((s.attestationDuties.eraseAll
        ((s.attestationKeysBySlot.listAt slot').map PkKey.attKey)).lookup _) = _
      rw [HashMap.lookup_eraseAll, if_neg hkept]
    | syncContribution slot subcommitteeIndex root =>
      obtain rfl : (⟨slot, .syncContribution⟩ : Duty) = duty := Option.some.inj hq
      obtain rfl : DutyType.syncContribution = dutyType' := htype
      have hkept : (⟨slot, subcommitteeIndex, root⟩ : ContribKey) ∉
          s.contribKeysBySlot.listAt slot' := by
        intro hmem
        obtain rfl : slot = slot' := h.contributionKeys slot' _ hmem
        exact hne rfl
      rw [answer?_syncContribution, answer?_syncContribution]
      show Option.map _ ((s.contribDuties.eraseAll
        (s.contribKeysBySlot.listAt slot')).lookup _) = _
      rw [HashMap.lookup_eraseAll, if_neg hkept]
  · rw [lookup_eq_of_without (without_evict duty' s) htype]

lemma indexed_storeSet {dutyType : DutyType} (hslots : dutyType = .attester → SlotsMatch entries) :
    Attempt.Keeps (fun s s' => Indexed s → Indexed s') (storeSet (P := P) dutyType entries) := by
  have hrefl : ∀ s : State P, Indexed s → Indexed s := fun _ h => h
  have htrans : ∀ s₁ s₂ s₃ : State P, (Indexed s₁ → Indexed s₂) → (Indexed s₂ → Indexed s₃) →
      Indexed s₁ → Indexed s₃ := fun _ _ _ h₁ h₂ h => h₂ (h₁ h)
  by_cases hagg : dutyType = .aggregator
  · subst hagg
    refine Attempt.Keeps.forM hrefl htrans ?_
    intro entry _ s h
    rw [storeEntry_aggregator]
    rcases aggregate? entry.2 with _ | ⟨data, agg⟩
    · exact h
    · exact ⟨h.attestationKeys, h.contributionKeys⟩
  · have hinsert : ∀ w ∈ setWrites dutyType entries, ∀ s, Indexed s → Indexed (w.insert s) := by
      refine forall_setWrites (fun _ _ h => h) ?_ ?_ ?_
      · rintro htype pubkey att hmem w hw s h
        obtain ⟨committeeIndex, -, rfl | ⟨_, -, rfl⟩⟩ := mem_attestationWrites hw
        · refine { h with attestationKeys := fun slot key hkey => ?_ }
          rcases HashMap.mem_listAt_push.mp hkey with hold | ⟨rfl, rfl⟩
          · exact h.attestationKeys slot key hold
          · exact hslots htype pubkey att hmem
        · exact ⟨h.attestationKeys, h.contributionKeys⟩
      · rintro - pubkey proposal - s h
        exact ⟨h.attestationKeys, h.contributionKeys⟩
      · rintro - pubkey contrib - s h
        refine { h with contributionKeys := fun slot key hkey => ?_ }
        rcases HashMap.mem_listAt_push.mp hkey with hold | ⟨rfl, rfl⟩
        · exact h.contributionKeys slot key hold
        · rfl
    rw [storeSet_eq_writes hagg]
    exact Attempt.Keeps.forM hrefl htrans
      fun w hw => Write.keeps_run hrefl fun s _ => hinsert w hw s

/-- After a successful store the data of every attestation of the set agrees with what is held for
its committee. -/
lemma storeSet_attester_ok {s' : State P}
    (h : Attempt.exec (storeSet .attester entries) s = (.ok (), s')) {pubkey : PubKey}
    {att : UnsignedAttestation} (hmem : (pubkey, .attestation att) ∈ entries) :
    ∃ held, s'.attestationDuties.lookup ⟨att.data.slot, att.duty.committeeIndex⟩ = some held ∧
      agreesFully held att.data = true := by
  rw [storeSet_eq_writes (by simp)] at h
  have hw : attDataWrite ⟨att.data.slot, att.duty.committeeIndex⟩ agreesFully att.data ∈
      setWrites (P := P) .attester entries :=
    List.mem_flatMap.mpr ⟨_, hmem, by simp [entryWrites, attestationWrites, committeeWrites]⟩
  have hheld := Write.forM_held Grows.refl Grows.trans (settles_setWrites .attester entries) h _ hw
  exact Standing.against_eq_held.mp hheld

end State

/-! ## Runs -/

namespace Db

variable [DecidableEq ι] {db db' : Db P ι} {l : Label P ι} {tr : List (Label P ι)}

/-- The condition on a step: stored attestations have the slot of their attester duty. -/
def Matching : Label P ι → Prop
  | .insert duty entries _ => duty.dutyType = .attester → SlotsMatch entries
  | _ => True

lemma indexed_step (h : db.state.Indexed) (hmatching : Matching l) (hstep : Step db l db') :
    db'.state.Indexed := by
  rcases hstep.state_cases with ⟨duty, entries, result, rfl, hexec⟩ | ⟨duty, result, rfl, hstate⟩ |
    hstate
  · have hkeeps := State.indexed_storeSet hmatching db.state h
    rwa [hexec] at hkeeps
  · rw [hstate]
    exact h.evict duty
  · rwa [hstate]

lemma indexed_run (run : Trace Step (start P ι) tr db) (hmatching : ∀ l ∈ tr, Matching l) :
    db.state.Indexed :=
  run.induction (P := fun _ db => db.state.Indexed) State.indexed_empty
    (fun _ _ _ _ hl h hstep => indexed_step h hl hstep) hmatching

/-- A step other than the eviction of its duty keeps an answer. -/
lemma answer_step (h : db.state.Indexed) {q : Query} {duty : Duty} (hq : q.duty? = some duty)
    (hevict : ∀ result, l ≠ .evict duty result) {answer : Answer P}
    (ha : (db.state.lookup q).answer? = some answer) (hstep : Step db l db') :
    (db'.state.lookup q).answer? = some answer := by
  rcases hstep.state_cases with ⟨duty', entries, result, rfl, hexec⟩ |
    ⟨duty', result, rfl, hstate⟩ | hstate
  · have hgrows := State.grows_storeSet duty'.dutyType entries db.state
    rw [hexec] at hgrows
    exact hgrows.answer? hq ha
  · have hne : duty' ≠ duty := by
      rintro rfl
      exact hevict result rfl
    rw [hstate, h.answer?_evict hq hne]
    exact ha
  · rwa [hstate]

/-- An answer stays until its duty is evicted. -/
lemma answer_run (run : Trace Step db tr db') (h : db.state.Indexed)
    (hmatching : ∀ l ∈ tr, Matching l) {q : Query} {duty : Duty} (hq : q.duty? = some duty)
    (hevict : ∀ result, .evict duty result ∉ tr) {answer : Answer P}
    (ha : (db.state.lookup q).answer? = some answer) :
    (db'.state.lookup q).answer? = some answer := by
  have hboth : db'.state.Indexed ∧ (db'.state.lookup q).answer? = some answer := by
    refine run.induction
      (P := fun _ db' => db'.state.Indexed ∧ (db'.state.lookup q).answer? = some answer)
      (E := fun l => Matching l ∧ ∀ result, l ≠ .evict duty result) ⟨h, ha⟩ ?_ ?_
    · rintro _ db₁ l db₂ ⟨hl, hother⟩ ⟨h₁, ha₁⟩ hstep
      exact ⟨indexed_step h₁ hl hstep, answer_step h₁ hq hother ha₁ hstep⟩
    · intro l hl
      refine ⟨hmatching l hl, fun result heq => ?_⟩
      exact hevict result (heq ▸ hl)
  exact hboth.2

/-- A caller has been given the answer, and the duty has not been evicted since. -/
def AnsweredSince (tr : List (Label P ι)) (q : Query) (duty : Duty) (answer : Answer P) : Prop :=
  ∃ t₁ t₂ c, tr = t₁ ++ .look c q (.found answer) :: t₂ ∧ ∀ result, .evict duty result ∉ t₂

/-- A validator of the committee has been stored successfully with the data, and the attester duty
of the slot has not been evicted since. -/
def StoredSince (tr : List (Label P ι)) (key : AttKey) (data : AttestationData) : Prop :=
  ∃ t₁ t₂ duty entries pubkey att, tr = t₁ ++ .insert duty entries (.ok ()) :: t₂ ∧
    duty.dutyType = .attester ∧ (pubkey, .attestation att) ∈ entries ∧
    att.duty.committeeIndex = key.committeeIndex ∧ att.data.slot = key.slot ∧ att.data = data ∧
    ∀ result, .evict ⟨key.slot, .attester⟩ result ∉ t₂

lemma answered_answer? (run : Trace Step (start P ι) tr db) (hmatching : ∀ l ∈ tr, Matching l)
    {q : Query} {duty : Duty} (hq : q.duty? = some duty) {answer : Answer P}
    (h : AnsweredSince tr q duty answer) : (db.state.lookup q).answer? = some answer := by
  obtain ⟨t₁, t₂, c, rfl, hevict⟩ := h
  obtain ⟨db₁, db₂, hpast, hlook, hsince⟩ := run.split_cons
  obtain ⟨hfound, hstate⟩ := hlook.look_eq
  have hindexed : db₂.state.Indexed := by
    rw [hstate]
    exact indexed_run hpast fun l hl => hmatching l (by simp [hl])
  refine answer_run hsince hindexed (fun l hl => hmatching l (by simp [hl])) hq hevict ?_
  rw [hstate, ← hfound]
  rfl

lemma stored_held (run : Trace Step (start P ι) tr db) (hmatching : ∀ l ∈ tr, Matching l)
    {key : AttKey} {data : AttestationData} (h : StoredSince tr key data) :
    ∃ held, (db.state.lookup (.attestation key.slot key.committeeIndex)).answer? =
      some (.attestation held) ∧ State.agreesFully held data = true := by
  obtain ⟨t₁, t₂, duty, entries, pubkey, att, rfl, htype, hmem, hindex, hslot, rfl, hevict⟩ := h
  obtain ⟨db₁, db₂, hpast, hinsert, hsince⟩ := run.split_cons
  have hindexed : db₂.state.Indexed := by
    refine indexed_step (indexed_run hpast fun l hl => hmatching l (by simp [hl])) ?_ hinsert
    exact hmatching _ (by simp)
  have hexec : Attempt.exec (State.storeSet duty.dutyType entries) db₁.state =
      (.ok (), db₂.state) := by
    cases hinsert with
    | insert inserting exec => exact exec
  rw [htype] at hexec
  obtain ⟨held, hheld, hagrees⟩ := State.storeSet_attester_ok hexec hmem
  refine ⟨held, answer_run hsince hindexed (fun l hl => hmatching l (by simp [hl])) rfl hevict ?_,
    hagrees⟩
  rw [State.answer?_attestation, ← hslot, ← hindex, hheld]
  rfl

/-- **Stability.**  If every stored attestation has the slot of its attester duty then, as long as
the duty is not evicted, all answers to a query are the same, and the validators stored for a
committee agree on source, target and head. -/
theorem answers_stable (run : Trace Step (start P ι) tr db) (hmatching : ∀ l ∈ tr, Matching l) :
    (∀ q duty answer answer', q.duty? = some duty → AnsweredSince tr q duty answer →
      AnsweredSince tr q duty answer' → answer = answer') ∧
    (∀ key data data', StoredSince tr key data → StoredSince tr key data' →
      data.source = data'.source ∧ data.target = data'.target ∧
        data.beaconBlockRoot = data'.beaconBlockRoot) := by
  constructor
  · intro q duty answer answer' hq h h'
    have ha := answered_answer? run hmatching hq h
    have ha' := answered_answer? run hmatching hq h'
    exact Option.some.inj (ha.symm.trans ha')
  · intro key data data' h h'
    obtain ⟨held, hheld, hagrees⟩ := stored_held run hmatching h
    obtain ⟨held', hheld', hagrees'⟩ := stored_held run hmatching h'
    obtain rfl : held = held' :=
      Answer.attestation.inj (Option.some.inj (hheld.symm.trans hheld'))
    simp only [State.agreesFully, decide_eq_true_eq] at hagrees hagrees'
    exact ⟨hagrees.1.symm.trans hagrees'.1, hagrees.2.1.symm.trans hagrees'.2.1,
      hagrees.2.2.symm.trans hagrees'.2.2⟩

end Db

/-! ## An answer that changes -/

namespace Moved

open Clash

/-- An attestation of slot 5 whose attester duty is of slot 3. -/
def moved : PubKey × UnsignedDutyData .plain := (pubkey 1, .attestation ⟨data 0, ⟨3, 1, 1⟩⟩)

def served : State .plain :=
  (Attempt.exec (State.storeSet .attester [moved]) (State.empty .plain)).2

/-- What the eviction of slot 3 leaves of it. -/
def evicted : State .plain := served.evict ⟨3, .attester⟩

/-- The validator comes again, with another source. -/
def replaced : State .plain := (Attempt.exec (State.storeSet .attester [entry 1 1 1]) evicted).2

/-- The attestation is stored and looked up; a later store drains the duty of slot 3; the validator
comes again and is looked up. -/
def labels : List (Label .plain Unit) :=
  Db.storeLabels duty [moved] [] ++
    ([.call () (.attestation 5 1), .look () (.attestation 5 1) (.found (.attestation (data 0)))] ++
      (Db.storeLabels duty [] [⟨3, .attester⟩] ++
        (Db.storeLabels duty [entry 1 1 1] [] ++
          [.call () (.attestation 5 1),
            .look () (.attestation 5 1) (.found (.attestation (data 1)))])))

end Moved

open Clash Moved in
/-- The duty of slot 5 is never evicted, and two answers for its committee 1 differ. -/
theorem answer_changes : ∃ db, Trace Db.Step (Db.start .plain Unit) labels db ∧
    Db.AnsweredSince labels (.attestation 5 1) ⟨5, .attester⟩ (.attestation (data 0)) ∧
    Db.AnsweredSince labels (.attestation 5 1) ⟨5, .attester⟩ (.attestation (data 1)) ∧
    (data 0).source ≠ (data 1).source := by
  have hserved : Trace Db.Step (Db.start .plain Unit) (labels.take 7)
      ⟨served, none, fun _ => .idle⟩ :=
    .cons (.lock rfl (by decide)) <| .cons (.answer rfl) <| .cons (.insert rfl rfl) <|
      .cons (.notify rfl) <| .cons (.finish rfl) <| .cons (.call rfl) <| .single (.look rfl rfl)
  have hevicted : Trace Db.Step (⟨served, none, fun _ => .idle⟩ : Db .plain Unit)
      (Db.storeLabels duty [] [⟨3, .attester⟩]) ⟨evicted, none, fun _ => .idle⟩ :=
    .cons (.lock rfl (by decide)) <| .cons (.answer rfl) <| .cons (.insert rfl rfl) <|
      .cons (.notify rfl) <| .cons (.evict rfl rfl) <| .cons (.notify rfl) <| .single (.finish rfl)
  have hrun : Trace Db.Step (Db.start .plain Unit) labels ⟨replaced, none, fun _ => .idle⟩ :=
    hserved.append <| hevicted.append <| .cons (.lock rfl (by decide)) <| .cons (.answer rfl) <|
      .cons (.insert rfl rfl) <| .cons (.notify rfl) <| .cons (.finish rfl) <|
      .cons (.call rfl) <| .single (.look rfl rfl)
  refine ⟨_, hrun, ⟨labels.take 6, labels.drop 7, (), rfl, ?_⟩,
    ⟨labels.take 20, [], (), rfl, by simp⟩, by decide⟩
  simp [labels, Db.storeLabels]

open Clash in
/-- With the slots matching, the eviction of slot 3 leaves the answer for slot 5. -/
theorem answers_stable_eviction : ∃ (tr : List (Label .plain Unit)) (db : Db .plain Unit)
    (answer : Answer .plain), Trace Db.Step (Db.start .plain Unit) tr db ∧
    (∀ l ∈ tr, Db.Matching l) ∧ .evict ⟨3, .attester⟩ (.ok ()) ∈ tr ∧
    Db.AnsweredSince tr (.attestation 5 2) ⟨5, .attester⟩ answer ∧
    ∀ answer', Db.AnsweredSince tr (.attestation 5 2) ⟨5, .attester⟩ answer' →
      answer = answer' := by
  let tr : List (Label .plain Unit) := Db.storeLabels duty [entry 1 2 0] [⟨3, .attester⟩] ++
    [.call () (.attestation 5 2), .look () (.attestation 5 2) (.found (.attestation (data 0)))]
  obtain ⟨db, hrun⟩ : ∃ db, Trace Db.Step (Db.start .plain Unit) tr db :=
    ⟨_, .cons (.lock rfl (by decide)) <| .cons (.answer rfl) <| .cons (.insert rfl rfl) <|
      .cons (.notify rfl) <| .cons (.evict rfl rfl) <| .cons (.notify rfl) <| .cons (.finish rfl) <|
      .cons (.call rfl) <| .single (.look rfl rfl)⟩
  have hmatching : ∀ l ∈ tr, Db.Matching l := by
    simp [tr, Db.storeLabels, Db.Matching, SlotsMatch, entry, data]
  have hanswered : Db.AnsweredSince tr (.attestation 5 2) ⟨5, .attester⟩ (.attestation (data 0)) :=
    ⟨tr.take 8, [], (), rfl, by simp⟩
  refine ⟨tr, db, _, hrun, hmatching, by simp [tr, Db.storeLabels], hanswered, fun answer' h' => ?_⟩
  exact (Db.answers_stable hrun hmatching).1 _ _ _ _ rfl hanswered h'

end Pluto.Core.DutyDb
