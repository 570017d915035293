import HamZaboon.Lexicon.Sampling
import HamZaboon.Library.ReservoirOdds

/-! # Where the lines of an index go

Which of its exits the loop of `sample` takes for a line depends on the keys seen
before and on the line, not on the reservoirs or the generator.  An accepted line is
offered to the reservoirs, and each exit moves one counter (`visit_moves`).  So the
loop fills reservoirs with the accepted lines (`run_core`). -/

namespace HamZaboon
open Library

inductive LineExit
  | blank
  | bad
  | duplicate
  | phrase
  | shape
  | frequency
  | validity
  | seen (level : CefrLevel)
  deriving DecidableEq, Repr

/-- An accepted line: its entry, and its level. -/
structure Candidate where
  entry : IndexEntry
  level : CefrLevel

def exitCount (seen : CefrLevel → Nat) (counters : SampleCounters) : LineExit → Nat
  | .blank => 0
  | .bad => counters.badIndexLines
  | .duplicate => counters.duplicates
  | .phrase => counters.phraseCandidates
  | .shape => counters.skippedShape
  | .frequency => counters.skippedNoFreq
  | .validity => counters.skippedValidity
  | .seen level => seen level

namespace SampleTally
variable {R : Type}

def count (t : SampleTally R) : LineExit → Nat := exitCount t.seen t.counters

def core (t : SampleTally R) : Reservoirs CefrLevel SampleRecord R := ⟨t.seen, t.reservoirs, t.rng⟩

end SampleTally

namespace SampleJob
variable {R : Type} (job : SampleJob R)

/-- The exit of an entry whose shape is kept; `none` for an exception that is not caught. -/
def wordExit (e : IndexEntry) : Option LineExit :=
  match job.lib.classify job.pack e.word e.pos with
  | none => some .frequency
  | some level =>
      (job.lib.sieve e.offset e.length).map fun keep => if keep then .seen level else .validity

def entryExit (e : IndexEntry) : Option LineExit :=
  match job.lib.shapeVerdict e.word with
  | .phrase => some .phrase
  | .keep => job.wordExit e
  | .drop reason =>
      if reason = "no_vowel" ∧ job.lib.isVowellessAllowlisted job.pack e.word e.pos then
        job.wordExit e
      else some .shape

def lineExit (known : List String) (line : String) : Option LineExit :=
  match job.lib.readLine line with
  | .blank => some .blank
  | .bad => some .bad
  | .entry e => if e.key ∈ known then some .duplicate else job.entryExit e

def learn (known : List String) (line : String) : List String :=
  match job.lib.readLine line with
  | .entry e => if e.key ∈ known then known else e.key :: known
  | _ => known

def exits : List String → List String → List (Option LineExit)
  | _, [] => []
  | known, line :: lines => job.lineExit known line :: exits (job.learn known line) lines

def accepts (known : List String) (line : String) : Option Candidate :=
  match job.lib.readLine line with
  | .entry e =>
      if e.key ∈ known then none
      else
        match job.entryExit e with
        | some (.seen level) => some ⟨e, level⟩
        | _ => none
  | _ => none

def candidates : List String → List String → List Candidate
  | _, [] => []
  | known, line :: lines =>
      (job.accepts known line).toList ++ candidates (job.learn known line) lines

end SampleJob

def Candidate.record (c : Candidate) : SampleRecord := SampleJob.record c.entry c.level

def offered (cs : List Candidate) : List (CefrLevel × SampleRecord) :=
  cs.map fun c => (c.level, c.record)

/-! ## One line -/

namespace SampleJob
variable {R : Type} {job : SampleJob R}

/-- From one tally to the next a line is counted at its exit, and offered if accepted. -/
structure Moves (job : SampleJob R) (exit : LineExit) (cs : List Candidate)
    (t t' : SampleTally R) : Prop where
  counts : ∀ e, t'.count e = t.count e + if e = exit ∧ e ≠ .blank then 1 else 0
  core : t'.core = Reservoirs.run job.cap job.lib.randrange t.core (offered cs)

theorem moves_count {exit : LineExit} {t t' : SampleTally R} (hcore : t'.core = t.core)
    (hcounts : ∀ e, t'.count e = t.count e + if e = exit ∧ e ≠ .blank then 1 else 0) :
    Moves job exit [] t t' :=
  ⟨hcounts, hcore⟩

theorem moves_blank (t : SampleTally R) : Moves job .blank [] t t :=
  moves_count rfl fun e => by cases e <;> rfl

theorem moves_bad (t : SampleTally R) : Moves job .bad [] t t.addBad :=
  moves_count rfl fun e => by cases e <;> rfl

theorem moves_duplicate (t : SampleTally R) : Moves job .duplicate [] t t.addDuplicate :=
  moves_count rfl fun e => by cases e <;> rfl

theorem moves_phrase (t : SampleTally R) : Moves job .phrase [] t t.addPhrase :=
  moves_count rfl fun e => by cases e <;> rfl

theorem moves_shape (t : SampleTally R) : Moves job .shape [] t t.addShape :=
  moves_count rfl fun e => by cases e <;> rfl

theorem moves_noFreq (t : SampleTally R) : Moves job .frequency [] t t.addNoFreq :=
  moves_count rfl fun e => by cases e <;> rfl

theorem moves_validity (t : SampleTally R) : Moves job .validity [] t t.addValidity :=
  moves_count rfl fun e => by cases e <;> rfl

theorem Moves.of_vowelless {exit : LineExit} {cs : List Candidate} {t t' : SampleTally R}
    (h : Moves job exit cs t.addVowelless t') : Moves job exit cs t t' := by
  refine ⟨fun e => ?_, h.core⟩
  rw [h.counts e]
  cases e <;> rfl

theorem count_addSeen (t : SampleTally R) (level : CefrLevel) (e : LineExit) :
    (t.addSeen level).count e = t.count e + if e = .seen level ∧ e ≠ .blank then 1 else 0 := by
  cases e with
  | seen other =>
    by_cases h : other = level
    · subst h
      simp [SampleTally.count, exitCount, SampleTally.addSeen]
    · simp [SampleTally.count, exitCount, SampleTally.addSeen, h]
  | _ => rfl

theorem count_draw (t : SampleTally R) (lib : SampleLib R) (cap : Nat) (r : SampleRecord)
    (e : LineExit) : (t.draw lib cap r).count e = t.count e := by
  unfold SampleTally.draw
  dsimp only
  split <;> rfl

theorem moves_admitAt {e : IndexEntry} {level : CefrLevel} (t : SampleTally R)
    (hkeep : job.lib.sieve e.offset e.length = some true) :
    ∃ y, job.admitAt e level t = some y ∧ Moves job (.seen level) [⟨e, level⟩] t y.1 := by
  have hrun : Reservoirs.run job.cap job.lib.randrange t.core (offered [⟨e, level⟩]) =
      Reservoirs.offer job.cap job.lib.randrange t.core level (record e level) := rfl
  rw [admitAt, hkeep]
  dsimp only
  split
  · rename_i hcap
    refine ⟨_, rfl, count_addSeen t level, ?_⟩
    rw [hrun, Reservoirs.offer, if_pos (Or.inl hcap), Reservoirs.addHeld, if_pos hcap]
    rfl
  · rename_i hcap
    refine ⟨_, rfl, fun e' => ?_, ?_⟩
    · rw [count_draw, count_addSeen]
    · rw [hrun]
      unfold SampleTally.draw Reservoirs.offer
      have hlevel : (record e level).level = level := rfl
      have hheld : (t.addSeen level).reservoirs level = t.core.held level := rfl
      dsimp only
      rw [hlevel, hheld]
      by_cases hroom : (t.core.held level).length < job.cap level
      · rw [if_pos hroom, if_pos (Or.inr hroom), Reservoirs.addHeld, if_neg hcap]
        rfl
      · have hfull : ¬ (job.cap level = 0 ∨ (t.core.held level).length < job.cap level) :=
          not_or.mpr ⟨hcap, hroom⟩
        rw [if_neg hroom, if_neg hfull]
        have hseen : (t.addSeen level).seen level = t.core.seen level + 1 :=
          Function.update_self ..
        rw [hseen]
        rfl

variable (job) in
theorem admitWord_exit (e : IndexEntry) (t : SampleTally R) :
    (job.wordExit e = none → job.admitWord e t = none) ∧
      ∀ exit, job.wordExit e = some exit → ∃ y, job.admitWord e t = some y ∧
        Moves job exit (match exit with | .seen level => [⟨e, level⟩] | _ => []) t y.1 := by
  unfold wordExit admitWord
  cases job.lib.classify job.pack e.word e.pos with
  | none =>
    refine ⟨fun h => (Option.some_ne_none _ h).elim, fun exit h => ?_⟩
    obtain rfl := Option.some.inj h
    exact ⟨_, rfl, moves_noFreq t⟩
  | some level =>
    dsimp only
    cases hsieve : job.lib.sieve e.offset e.length with
    | none =>
      refine ⟨fun _ => ?_, fun exit h => (Option.some_ne_none _ h.symm).elim⟩
      rw [admitAt, hsieve]
    | some keep =>
      refine ⟨fun h => (Option.some_ne_none _ h).elim, fun exit h => ?_⟩
      obtain rfl := Option.some.inj h
      cases keep with
      | false =>
        rw [admitAt, hsieve]
        exact ⟨_, rfl, moves_validity t⟩
      | true => exact moves_admitAt t hsieve

variable (job) in
theorem admitEntry_exit (e : IndexEntry) (t : SampleTally R) :
    (job.entryExit e = none → job.admitEntry e t = none) ∧
      ∀ exit, job.entryExit e = some exit → ∃ y, job.admitEntry e t = some y ∧
        Moves job exit (match exit with | .seen level => [⟨e, level⟩] | _ => []) t y.1 := by
  unfold entryExit admitEntry
  cases job.lib.shapeVerdict e.word with
  | phrase =>
    refine ⟨fun h => (Option.some_ne_none _ h).elim, fun exit h => ?_⟩
    obtain rfl := Option.some.inj h
    exact ⟨_, rfl, moves_phrase t⟩
  | keep => exact admitWord_exit job e t
  | drop reason =>
    dsimp only
    split
    · obtain ⟨hnone, hsome⟩ := admitWord_exit job e t.addVowelless
      refine ⟨hnone, fun exit h => ?_⟩
      obtain ⟨y, hy, hmoves⟩ := hsome exit h
      exact ⟨y, hy, hmoves.of_vowelless⟩
    · refine ⟨fun h => (Option.some_ne_none _ h).elim, fun exit h => ?_⟩
      obtain rfl := Option.some.inj h
      exact ⟨_, rfl, moves_shape t⟩

variable (job) in
theorem visit_moves (known : List String) (t : SampleTally R) (line : String) :
    (job.lineExit known line = none → job.dedup.step (known, t) line = none) ∧
      ∀ exit, job.lineExit known line = some exit →
        ∃ t', job.dedup.step (known, t) line = some (job.learn known line, t') ∧
          Moves job exit (job.accepts known line).toList t t' := by
  rw [← map_scanLine]
  unfold lineExit scanLine learn accepts
  cases job.lib.readLine line with
  | blank =>
    refine ⟨fun h => (Option.some_ne_none _ h).elim, fun exit h => ?_⟩
    obtain rfl := Option.some.inj h
    exact ⟨t, rfl, moves_blank t⟩
  | bad =>
    refine ⟨fun h => (Option.some_ne_none _ h).elim, fun exit h => ?_⟩
    obtain rfl := Option.some.inj h
    exact ⟨_, rfl, moves_bad t⟩
  | entry e =>
    dsimp only
    split
    · refine ⟨fun h => (Option.some_ne_none _ h).elim, fun exit h => ?_⟩
      obtain rfl := Option.some.inj h
      exact ⟨_, rfl, moves_duplicate t⟩
    · obtain ⟨hnone, hsome⟩ := admitEntry_exit job e t
      refine ⟨fun h => ?_, fun exit h => ?_⟩
      · rw [hnone h]
        rfl
      · obtain ⟨y, hy, hmoves⟩ := hsome exit h
        rw [hy, h]
        refine ⟨y.1, rfl, ?_⟩
        cases exit <;> exact hmoves

/-! ## The pass -/

theorem offered_append (a b : List Candidate) : offered (a ++ b) = offered a ++ offered b :=
  List.map_append ..

variable (job) in
/-- The pass ends with an exception at a line whose exit is one, and else with the
reservoirs that the accepted lines fill. -/
theorem run_core (lines : List String) (known : List String) (t : SampleTally R) :
    (none ∈ job.exits known lines → job.dedup.run (known, t) lines = none) ∧
      (none ∉ job.exits known lines → ∃ y, job.dedup.run (known, t) lines = some y ∧
        y.2.core = Reservoirs.run job.cap job.lib.randrange t.core
          (offered (job.candidates known lines))) := by
  induction lines generalizing known t with
  | nil => exact ⟨fun h => absurd h List.not_mem_nil, fun _ => ⟨(known, t), rfl, rfl⟩⟩
  | cons line lines ih =>
    obtain ⟨hnone, hsome⟩ := visit_moves job known t line
    rw [exits, DedupScan.run, List.mem_cons]
    cases hexit : job.lineExit known line with
    | none =>
      rw [hnone hexit]
      exact ⟨fun _ => rfl, fun h => absurd (Or.inl rfl) h⟩
    | some exit =>
      obtain ⟨t', hstep, hmoves⟩ := hsome exit hexit
      obtain ⟨hraise, hend⟩ := ih (job.learn known line) t'
      rw [hstep, Option.bind_some]
      refine ⟨fun h => hraise (h.resolve_left (Option.some_ne_none exit).symm), fun h => ?_⟩
      obtain ⟨y, hy, hcore⟩ := hend fun hmem => h (Or.inr hmem)
      refine ⟨y, hy, ?_⟩
      rw [hcore, hmoves.core, candidates, offered_append, Reservoirs.run_append]

/-! ## Accepted lines -/

theorem accepts_eq_some {known : List String} {line : String} {c : Candidate}
    (h : job.accepts known line = some c) :
    job.lib.readLine line = .entry c.entry ∧ c.entry.key ∉ known ∧
      job.entryExit c.entry = some (.seen c.level) := by
  unfold accepts at h
  split at h
  · rename_i e he
    split at h
    · cases h
    · rename_i hnew
      split at h
      · rename_i level hexit
        obtain rfl := Option.some.inj h
        exact ⟨he, hnew, hexit⟩
      · cases h
  · cases h

theorem mem_learn {known : List String} {key : String} (h : key ∈ known) (line : String) :
    key ∈ job.learn known line := by
  unfold learn
  split
  · split
    · exact h
    · exact List.mem_cons_of_mem _ h
  · exact h

theorem mem_learn_of_accepts {known : List String} {line : String} {c : Candidate}
    (h : job.accepts known line = some c) : c.entry.key ∈ job.learn known line := by
  obtain ⟨he, hnew, -⟩ := accepts_eq_some h
  rw [learn, he]
  dsimp only
  rw [if_neg hnew]
  exact List.mem_cons_self ..

theorem mem_candidates {known lines : List String} {c : Candidate}
    (h : c ∈ job.candidates known lines) :
    c.entry.key ∉ known ∧ (∃ line, job.lib.readLine line = .entry c.entry) ∧
      job.entryExit c.entry = some (.seen c.level) := by
  induction lines generalizing known with
  | nil => exact absurd h List.not_mem_nil
  | cons line lines ih =>
    rcases List.mem_append.mp h with h | h
    · obtain ⟨he, hnew, hexit⟩ := accepts_eq_some (Option.mem_toList.mp h)
      exact ⟨hnew, ⟨line, he⟩, hexit⟩
    · obtain ⟨hnew, hrest⟩ := ih h
      exact ⟨fun hmem => hnew (mem_learn hmem line), hrest⟩

theorem nodup_keys (lines known : List String) :
    ((job.candidates known lines).map fun c => c.entry.key).Nodup := by
  induction lines generalizing known with
  | nil => exact List.nodup_nil
  | cons line lines ih =>
    rw [candidates, List.map_append]
    refine List.Nodup.append ?_ (ih _) ?_
    · cases job.accepts known line with
      | none => exact List.nodup_nil
      | some c => exact List.nodup_singleton _
    · intro key hkey hlater
      obtain ⟨c, hc, rfl⟩ := List.mem_map.mp hkey
      obtain ⟨d, hd, hkeys⟩ := List.mem_map.mp hlater
      refine (mem_candidates hd).1 ?_
      rw [hkeys]
      exact mem_learn_of_accepts (Option.mem_toList.mp hc)

theorem word_of_seen {e : IndexEntry} {level : CefrLevel}
    (h : job.entryExit e = some (.seen level)) : ∃ word, e.word = .str word := by
  cases hw : e.word with
  | str word => exact ⟨word, rfl⟩
  | _ =>
    have hshape : job.lib.shapeVerdict e.word = .drop "non_string" := by
      rw [hw]
      rfl
    rw [entryExit, hshape] at h
    simp at h

/-! ## The keys of rows -/

def lemmaKeyOf (job : SampleJob R) (row : String × String × CefrLevel) : Option String :=
  (job.rowKey row).map (·.2)

end SampleJob

/-- The part of speech is neither empty nor a text: it is in the key of the line, and the
record has none. -/
def IndexEntry.oddPos (e : IndexEntry) : Bool :=
  match e.pos with
  | .str _ => false
  | pos => pos.truthy

def Candidate.row (c : Candidate) : String × String × CefrLevel :=
  (wordText c.entry.word, wordText c.entry.pos, c.level)

namespace SampleJob
variable {R : Type} {job : SampleJob R}

theorem indexKey_of_readLine {lib : SampleLib R} {line : String} {e : IndexEntry} {word : String}
    (h : lib.readLine line = .entry e) (hword : e.word = .str word) :
    ∃ lemma', lib.normalizeLemma (some word) = .ok lemma' ∧
      (e.pos.truthy = false → e.key = lemma' ++ "|") := by
  obtain ⟨l, hl, hkey⟩ := key_of_word h hword
  refine ⟨l, hl, fun hfalsy => ?_⟩
  rwa [hfalsy, if_neg Bool.false_ne_true] at hkey

theorem lemmaKeyOf_empty {word lemma' : String} (level : CefrLevel)
    (h : job.lib.normalizeLemma (some word) = .ok lemma') :
    job.lemmaKeyOf (word, "", level) = some (lemma' ++ "|") := by
  unfold lemmaKeyOf rowKey
  dsimp only
  rw [if_neg (not_not_intro rfl), h]
  rfl

theorem lemmaKeyOf_text {word pos key : String} (level : CefrLevel) (hne : pos ≠ "")
    (h : job.lib.lemmaKeyFor (some word) (some pos) = .ok key) :
    job.lemmaKeyOf (word, pos, level) = some key := by
  unfold lemmaKeyOf rowKey
  dsimp only
  rw [if_pos hne, h]
  rfl

theorem lemmaKeyOf_candidate {known lines : List String} {c : Candidate}
    (h : c ∈ job.candidates known lines) :
    (job.lemmaKeyOf c.row).isSome ∧
      (c.entry.oddPos = false → job.lemmaKeyOf c.row = some c.entry.key) := by
  obtain ⟨-, ⟨line, hline⟩, hexit⟩ := mem_candidates h
  obtain ⟨word, hword⟩ := word_of_seen hexit
  obtain ⟨lemma', hlemma, hfalsy⟩ := indexKey_of_readLine hline hword
  have hwordText : wordText c.entry.word = word := by rw [hword, wordText]
  rw [Candidate.row, hwordText]
  cases hpos : c.entry.pos with
  | str pos =>
    by_cases hne : pos = ""
    · subst hne
      have hkey := hfalsy (by rw [hpos]; rfl)
      rw [wordText, lemmaKeyOf_empty c.level hlemma, hkey]
      exact ⟨rfl, fun _ => rfl⟩
    · rw [wordText, lemmaKeyOf_text c.level hne (lemmaKeyFor_of_entry hline hword hpos hne)]
      exact ⟨rfl, fun _ => rfl⟩
  | _ =>
    -- the record has no part of speech
    rw [wordText, lemmaKeyOf_empty c.level hlemma]
    · refine ⟨rfl, fun hodd => ?_⟩
      rw [IndexEntry.oddPos, hpos] at hodd
      rw [hfalsy (by rw [hpos]; exact hodd)]
    · exact fun _ heq => JsonValue.noConfusion heq

end SampleJob

end HamZaboon
