import Pluto.Qbft.Classify

/-!
# How far F+1 ROUND-CHANGEs jump

`get_fplus1_round_changes` finds F+1 sources if there are as many, and one ROUND-CHANGE of each.  It is
documented to return the highest round per process, but it stops at the message that brings the number
of sources to F+1.  What it returns is the highest round of a source among the messages up to this one
(`readPart`), and `getFplus1RoundChanges_iff` says when this is the highest round of all.
-/

namespace Pluto.Qbft

variable {V : Type}

/-- A ROUND-CHANGE above a round. -/
def Above (round : ℤ) (msg : Msg V) : Prop := msg.type = .roundChange ∧ round < msg.round

instance (round : ℤ) (msg : Msg V) : Decidable (Above round msg) := inferInstanceAs (Decidable (_ ∧ _))

/-- The sources with a ROUND-CHANGE above a round. -/
def sourcesAbove (round : ℤ) (msgs : List (Msg V)) : Finset ℤ :=
  ((msgs.filter fun m => Above round m).map Msg.source).toFinset

lemma mem_sourcesAbove {round : ℤ} {msgs : List (Msg V)} {source : ℤ} :
    source ∈ sourcesAbove round msgs ↔ ∃ m ∈ msgs, Above round m ∧ m.source = source := by
  simp [sourcesAbove, and_assoc]

lemma sourcesAbove_mono {round : ℤ} {msgs msgs' : List (Msg V)} (h : ∀ m ∈ msgs, m ∈ msgs') :
    sourcesAbove round msgs ⊆ sourcesAbove round msgs' := by
  intro source hsource
  obtain ⟨m, hm, hrest⟩ := mem_sourcesAbove.mp hsource
  exact mem_sourcesAbove.mpr ⟨m, h m hm, hrest⟩

/-- The messages up to the one that brings the number of sources to F+1, after some others. -/
def readPart (d : Definition) (round : ℤ) : List (Msg V) → List (Msg V) → List (Msg V)
  | _, [] => []
  | before, msg :: msgs =>
    if (sourcesAbove round (before ++ [msg])).card = d.faultyPlusOneCount then [msg]
    else msg :: readPart d round (before ++ [msg]) msgs

/-- No source that is found by then has a higher round later. -/
def NoLateJump (d : Definition) (round : ℤ) (all : List (Msg V)) : Prop :=
  ∀ m ∈ all, Above round m → m.source ∈ sourcesAbove round (readPart d round [] all) →
    ∃ m' ∈ readPart d round [] all, Above round m' ∧ m'.source = m.source ∧ m.round ≤ m'.round

instance (d : Definition) (round : ℤ) (all : List (Msg V)) : Decidable (NoLateJump d round all) :=
  inferInstanceAs (Decidable (∀ m ∈ all, _ → _ → ∃ m' ∈ readPart d round [] all, _ ∧ _ ∧ _))

/-- The map has the highest ROUND-CHANGE of each source. -/
structure Highest (round : ℤ) (msgs : List (Msg V)) (highest : HashMap ℤ (Msg V)) : Prop where
  found : ∀ source, source ∈ sourcesAbove round msgs ↔ ∃ m, highest.lookup source = some m
  mem : ∀ source m, highest.lookup source = some m → m ∈ msgs ∧ Above round m ∧ m.source = source
  le : ∀ source m, highest.lookup source = some m → ∀ m' ∈ msgs, Above round m' →
    m'.source = source → m'.round ≤ m.round

namespace Highest

variable {round : ℤ} {msgs : List (Msg V)} {highest : HashMap ℤ (Msg V)} {msg : Msg V}

lemma empty : Highest round ([] : List (Msg V)) ∅ :=
  ⟨by simp [sourcesAbove], by simp, by simp⟩

lemma size_eq (h : Highest round msgs highest) : highest.size = (sourcesAbove round msgs).card :=
  HashMap.size_eq_card h.found

/-- A message that the loop passes over. -/
lemma skip (h : Highest round msgs highest)
    (hmsg : Above round msg → ∃ m, highest.lookup msg.source = some m ∧ msg.round ≤ m.round) :
    Highest round (msgs ++ [msg]) highest where
  found source := by
    rw [← h.found, mem_sourcesAbove, mem_sourcesAbove]
    constructor
    · rintro ⟨m, hm, habove, rfl⟩
      rcases List.mem_append.mp hm with hm | hm
      · exact ⟨m, hm, habove, rfl⟩
      · obtain rfl := List.mem_singleton.mp hm
        obtain ⟨m', hm', -⟩ := hmsg habove
        obtain ⟨hmem, habove', hsource⟩ := h.mem _ m' hm'
        exact ⟨m', hmem, habove', hsource⟩
    · rintro ⟨m, hm, hrest⟩
      exact ⟨m, List.mem_append_left _ hm, hrest⟩
  mem source m hm := by
    obtain ⟨hmem, hrest⟩ := h.mem source m hm
    exact ⟨List.mem_append_left _ hmem, hrest⟩
  le source m hm m' hm' habove hsource := by
    rcases List.mem_append.mp hm' with hm' | hm'
    · exact h.le source m hm m' hm' habove hsource
    · obtain rfl := List.mem_singleton.mp hm'
      obtain ⟨m'', hm'', hle⟩ := hmsg habove
      rw [hsource, hm] at hm''
      exact Option.some.inj hm'' ▸ hle

/-- A message that the loop takes. -/
lemma insert (h : Highest round msgs highest) (habove : Above round msg)
    (hhigh : ∀ m, highest.lookup msg.source = some m → m.round ≤ msg.round) :
    Highest round (msgs ++ [msg]) (highest.insert msg.source msg) where
  found source := by
    by_cases hsource : source = msg.source
    · subst hsource
      exact iff_of_true (mem_sourcesAbove.mpr ⟨msg, by simp, habove, rfl⟩)
        ⟨msg, AList.lookup_insert _⟩
    · rw [AList.lookup_insert_ne hsource, ← h.found, mem_sourcesAbove, mem_sourcesAbove]
      constructor
      · rintro ⟨m, hm, hrest⟩
        rcases List.mem_append.mp hm with hm | hm
        · exact ⟨m, hm, hrest⟩
        · obtain rfl := List.mem_singleton.mp hm
          exact absurd hrest.2.symm hsource
      · rintro ⟨m, hm, hrest⟩
        exact ⟨m, List.mem_append_left _ hm, hrest⟩
  mem source m hm := by
    rcases HashMap.lookup_insert_eq_some hm with ⟨rfl, rfl⟩ | hold
    · exact ⟨by simp, habove, rfl⟩
    · obtain ⟨hmem, hrest⟩ := h.mem source m hold
      exact ⟨List.mem_append_left _ hmem, hrest⟩
  le source m hm m' hm' habove' hsource := by
    by_cases hnew : source = msg.source
    · subst hnew
      rw [AList.lookup_insert] at hm
      obtain rfl := Option.some.inj hm
      rcases List.mem_append.mp hm' with hm' | hm'
      · -- the one before was the highest, and is not higher
        obtain ⟨m₀, hm₀⟩ := (h.found _).mp (mem_sourcesAbove.mpr ⟨m', hm', habove', hsource⟩)
        exact (h.le _ m₀ hm₀ m' hm' habove' hsource).trans (hhigh m₀ hm₀)
      · exact (List.mem_singleton.mp hm') ▸ le_refl _
    · rw [AList.lookup_insert_ne hnew] at hm
      rcases List.mem_append.mp hm' with hm' | hm'
      · exact h.le source m hm m' hm' habove' hsource
      · obtain rfl := List.mem_singleton.mp hm'
        exact absurd hsource.symm hnew

end Highest

/-! ## The loop -/

variable {before msgs : List (Msg V)}

lemma readPart_subset {d : Definition} {round : ℤ} :
    ∀ m ∈ readPart d round before msgs, m ∈ msgs := by
  induction msgs generalizing before with
  | nil => exact fun m hm => hm
  | cons msg msgs ih =>
    intro m hm
    rw [readPart] at hm
    split_ifs at hm
    · exact (List.mem_singleton.mp hm) ▸ List.mem_cons_self
    · rcases List.mem_cons.mp hm with rfl | hm
      · exact List.mem_cons_self
      · exact List.mem_cons_of_mem _ (ih m hm)

variable {highest : HashMap ℤ (Msg V)}

/-- A message is passed over if there is one that is higher. -/
lemma exists_higher {msg : Msg V}
    (h : ((highest.lookup msg.source).any fun h => msg.round < h.round) = true) :
    ∃ m, highest.lookup msg.source = some m ∧ msg.round < m.round := by
  cases hm : highest.lookup msg.source with
  | none =>
    rw [hm] at h
    cases h
  | some m =>
    rw [hm] at h
    exact ⟨m, rfl, by simpa using h⟩

/-- A message is not passed over if there is none that is higher. -/
lemma not_lower {msg : Msg V}
    (h : ¬((highest.lookup msg.source).any fun h => msg.round < h.round) = true) :
    ∀ m, highest.lookup msg.source = some m → m.round ≤ msg.round := by
  intro m hm
  rw [hm] at h
  simpa using h

/-- The loop has the highest ROUND-CHANGE of each source in what it reads. -/
lemma highest_highestBySource {d : Definition} {round : ℤ} (h : Highest round before highest)
    (hcard : (sourcesAbove round before).card ≠ d.faultyPlusOneCount) :
    Highest round (before ++ readPart d round before msgs)
      (highestBySource d round highest msgs) := by
  induction msgs generalizing before highest with
  | nil =>
    rw [readPart, List.append_nil]
    exact h
  | cons msg msgs ih =>
    have hassoc : ∀ l, before ++ msg :: l = before ++ [msg] ++ l := fun l => by simp
    -- A message that is passed over brings no new source.
    have hskip : (Above round msg →
          ∃ m, highest.lookup msg.source = some m ∧ msg.round ≤ m.round) →
        Highest round (before ++ readPart d round before (msg :: msgs))
          (highestBySource d round highest msgs) := by
      intro hmsg
      have hnext := h.skip hmsg
      have hsame : (sourcesAbove round (before ++ [msg])).card ≠ d.faultyPlusOneCount := by
        rwa [← hnext.size_eq, h.size_eq]
      rw [readPart, if_neg hsame, hassoc]
      exact ih hnext hsame
    rw [highestBySource]
    dsimp only
    split_ifs with htype hround hlower hsize
    · exact hskip fun habove => absurd habove.1 htype
    · exact hskip fun habove => absurd habove.2 (not_lt.mpr hround)
    · refine hskip fun _ => ?_
      obtain ⟨m, hm, hlt⟩ := exists_higher hlower
      exact ⟨m, hm, hlt.le⟩
    · have hnext := h.insert ⟨not_not.mp htype, not_le.mp hround⟩ (not_lower hlower)
      rw [readPart, if_pos (hnext.size_eq ▸ hsize)]
      exact hnext
    · have hnext := h.insert ⟨not_not.mp htype, not_le.mp hround⟩ (not_lower hlower)
      have hne : (sourcesAbove round (before ++ [msg])).card ≠ d.faultyPlusOneCount :=
        hnext.size_eq ▸ hsize
      rw [readPart, if_neg hne, hassoc]
      exact ih hnext hne

/-- The loop reads until there are F+1 sources, or to the end. -/
lemma card_readPart {d : Definition} {round : ℤ}
    (hcard : (sourcesAbove round before).card < d.faultyPlusOneCount) :
    (sourcesAbove round (before ++ readPart d round before msgs)).card =
      min (sourcesAbove round (before ++ msgs)).card d.faultyPlusOneCount := by
  induction msgs generalizing before with
  | nil =>
    rw [readPart, List.append_nil]
    exact (min_eq_left hcard.le).symm
  | cons msg msgs ih =>
    have hassoc : ∀ l, before ++ msg :: l = before ++ [msg] ++ l := fun l => by simp
    rw [readPart, hassoc msgs]
    split_ifs with hfull
    · have hsub : sourcesAbove round (before ++ [msg]) ⊆
          sourcesAbove round (before ++ [msg] ++ msgs) :=
        sourcesAbove_mono fun m hm => List.mem_append_left _ hm
      rw [min_eq_right (hfull ▸ Finset.card_le_card hsub), hfull]
    · -- one message brings at most one source
      have hone : (sourcesAbove round (before ++ [msg])).card ≤
          (sourcesAbove round before).card + 1 := by
        have hsub : sourcesAbove round (before ++ [msg]) ⊆
            insert msg.source (sourcesAbove round before) := by
          intro source hsource
          obtain ⟨m, hm, habove, rfl⟩ := mem_sourcesAbove.mp hsource
          rcases List.mem_append.mp hm with hm | hm
          · exact Finset.mem_insert_of_mem (mem_sourcesAbove.mpr ⟨m, hm, habove, rfl⟩)
          · exact (List.mem_singleton.mp hm) ▸ Finset.mem_insert_self _ _
        exact (Finset.card_le_card hsub).trans (Finset.card_insert_le _ _)
      rw [hassoc]
      exact ih (by omega)

/-! ## What is returned -/

lemma faultyPlusOneCount_pos (d : Definition) : 0 < d.faultyPlusOneCount := by
  have hnodes := d.nodes_pos
  simp only [Definition.faultyPlusOneCount, Definition.faulty]
  omega

/-- **How far F+1 ROUND-CHANGEs jump.**  If F+1 sources have a ROUND-CHANGE above the round, then as many
of these are returned, from different sources.  They have the highest round of their source exactly if no
source has a higher round after the message at which F+1 sources are found.  Otherwise nothing is
returned. -/
theorem getFplus1RoundChanges_iff (d : Definition) (order : HashOrder V) (all : List (Msg V))
    (round : ℤ) :
    (d.faultyPlusOneCount ≤ (sourcesAbove round all).card →
      ∃ frc, getFplus1RoundChanges d order all round = some frc ∧
        frc.length = d.faultyPlusOneCount ∧ (frc.map Msg.source).Nodup ∧
        (∀ m ∈ frc, m ∈ all ∧ m.type = .roundChange ∧ round < m.round) ∧
        ((∀ m ∈ frc, ∀ m' ∈ all, m'.type = .roundChange → m'.source = m.source →
          m'.round ≤ m.round) ↔ NoLateJump d round all)) ∧
    ((sourcesAbove round all).card < d.faultyPlusOneCount →
      getFplus1RoundChanges d order all round = none) := by
  have hpos := faultyPlusOneCount_pos d
  have hempty : (sourcesAbove round ([] : List (Msg V))).card < d.faultyPlusOneCount := by
    simpa [sourcesAbove] using hpos
  have hread : Highest round (readPart d round [] all) (highestBySource d round ∅ all) :=
    highest_highestBySource .empty hempty.ne
  have hcard : (highestBySource d round ∅ all).size =
      min (sourcesAbove round all).card d.faultyPlusOneCount :=
    hread.size_eq.trans (card_readPart hempty)
  constructor
  · intro henough
    rw [min_eq_right henough] at hcard
    refine ⟨HashMap.valuesIn order.values (highestBySource d round ∅ all), ?_, ?_, ?_, ?_, ?_, ?_⟩
    · rw [getFplus1RoundChanges]
      exact if_neg (by omega)
    · rw [HashMap.length_valuesIn, hcard]
    · exact HashMap.nodup_map_valuesIn fun source m hm => (hread.mem source m hm).2.2
    · intro m hm
      obtain ⟨source, hsource⟩ := HashMap.mem_valuesIn.mp hm
      obtain ⟨hmem, habove, -⟩ := hread.mem source m hsource
      exact ⟨readPart_subset m hmem, habove⟩
    · intro hhighest m hm habove hsource
      obtain ⟨m', hm'⟩ := (hread.found _).mp hsource
      obtain ⟨hmem, habove', hsame⟩ := hread.mem _ m' hm'
      exact ⟨m', hmem, habove', hsame, hhighest m' (HashMap.mem_valuesIn.mpr ⟨_, hm'⟩) m hm habove.1
        hsame.symm⟩
    · intro hlate m hm m' hm' htype hsame
      obtain ⟨source, hsource⟩ := HashMap.mem_valuesIn.mp hm
      obtain ⟨hmem, habove, rfl⟩ := hread.mem source m hsource
      by_cases hround : round < m'.round
      · obtain ⟨m'', hm'', habove'', hsame'', hle⟩ := hlate m' hm' ⟨htype, hround⟩
          ((hread.found _).mpr ⟨m, hsame ▸ hsource⟩)
        exact hle.trans (hread.le _ m hsource m'' hm'' habove'' (hsame''.trans hsame))
      · exact (not_lt.mp hround).trans habove.2.le
  · intro hfew
    rw [min_eq_left hfew.le] at hcard
    rw [getFplus1RoundChanges]
    exact if_pos (by omega)

/-! ### Four nodes -/

def fourProcesses : Definition where
  isLeader round process := (round - 1) % 4 == process
  nodes := 4
  fifoLimit := 10
  valid := by decide
  quorum_isSome := quorum_four

def roundChange (source round : ℤ) : Msg ℕ := ⟨.roundChange, source, round, 0, 0, 0, []⟩

/-- Two sources with one ROUND-CHANGE each are found with their round. -/
theorem getFplus1RoundChanges_iff_two_sources :
    ∃ frc, getFplus1RoundChanges fourProcesses (.stored ℕ) [roundChange 1 2, roundChange 2 3] 1 =
        some frc ∧
      ∀ m ∈ frc, ∀ m' ∈ [roundChange 1 2, roundChange 2 3], m'.type = .roundChange →
        m'.source = m.source → m'.round ≤ m.round := by
  have hcard : fourProcesses.faultyPlusOneCount ≤
      (sourcesAbove 1 [roundChange 1 2, roundChange 2 3]).card := by decide
  obtain ⟨frc, hfrc, -, -, -, hiff⟩ := (getFplus1RoundChanges_iff fourProcesses (.stored ℕ) _ 1).1 hcard
  exact ⟨frc, hfrc, hiff.mpr (by decide)⟩

/-- Source 1 has a ROUND-CHANGE for round 5 after the one for round 2.  Since source 2 comes in between,
the one for round 2 is returned. -/
theorem late_jump_missed :
    fourProcesses.faultyPlusOneCount ≤
      (sourcesAbove 1 [roundChange 1 2, roundChange 2 2, roundChange 1 5]).card ∧
      ∃ frc, getFplus1RoundChanges fourProcesses (.stored ℕ)
          [roundChange 1 2, roundChange 2 2, roundChange 1 5] 1 = some frc ∧
        ∃ m ∈ frc, ∃ m' ∈ [roundChange 1 2, roundChange 2 2, roundChange 1 5],
          m'.type = .roundChange ∧ m'.source = m.source ∧ m.round < m'.round :=
  ⟨by decide, [roundChange 2 2, roundChange 1 2], rfl, by decide⟩

end Pluto.Qbft
