import HamZaboon.Factory.Registry
import HamZaboon.Library.Json
import HamZaboon.Library.Resume
import Mathlib.Data.List.Sort

/-! # Sampling lemmas

`sample` of `factory/lexicon/sample_lemmas.py`: one pass over an index file that fills
a reservoir for each level, with checkpoints that hold the reservoirs, the counters
and the generator, but not the keys seen.  A resumed session rebuilds these from the
reservoirs and from the lines before the checkpoint.  It learns the keys of lines that
the pass counts as bad for their offset or length, and it stops at a record without a
part of speech; apart from that, sessions end like one straight pass
(`resumed_sampling_iff`).
-/

namespace HamZaboon
open Library

/-- `LEVEL_ORDER`. -/
inductive CefrLevel
  | a1 | a2 | b1 | b2 | c1 | c2
  deriving DecidableEq, Repr

namespace CefrLevel

def order : List CefrLevel := [.a1, .a2, .b1, .b2, .c1, .c2]

/-- `LEVEL_RANK`. -/
def rank : CefrLevel → Nat
  | .a1 => 0 | .a2 => 1 | .b1 => 2 | .b2 => 3 | .c1 => 4 | .c2 => 5

theorem mem_order (level : CefrLevel) : level ∈ order := by
  cases level <;> simp [order]

end CefrLevel

/-- What sampling takes from Python, from `wordfreq`, from the dump and from the random
generator, whose states are `R`. -/
structure SampleLib (R : Type) extends RegistryLib where
  /-- `json.loads`; `none` for the `ValueError`. -/
  loads : String → Option JsonValue
  /-- `str` of a value that is no text; `none` for the `ValueError`. -/
  display : JsonValue → Option String
  intOfStr : String → Option Int
  isDigit : Char → Bool
  isAlpha : Char → Bool
  /-- `zipf_frequency`; `none` where `wordfreq` is not there. -/
  zipf : Option (String → ℚ)
  /-- Whether the validity sieve keeps what `fetch` reads, or fails to read, at an offset;
  `none` for an exception that is not caught. -/
  sieve : Int → Int → Option Bool
  /-- `rng.randrange`. -/
  randrange : R → Nat → Nat × R

/-- What `load_pack` gathers. -/
structure PackData where
  cefrjFallback : String → Option CefrLevel
  evpIndex : String → List CefrLevel
  evpLemmaIndex : String → List CefrLevel
  zipfCutoffs : List ℚ

/-- What `shape_verdict` says. -/
inductive ShapeVerdict
  | keep
  | phrase
  | drop (reason : String)
  deriving DecidableEq, Repr

structure SampleRecord where
  word : String
  pos : String
  level : CefrLevel
  offset : Int
  length : Int
  deriving DecidableEq, Repr

structure SampleCounters where
  badIndexLines : Nat := 0
  duplicates : Nat := 0
  skippedNoFreq : Nat := 0
  skippedShape : Nat := 0
  allowedVowelless : Nat := 0
  skippedValidity : Nat := 0
  phraseCandidates : Nat := 0
  pilotRows : Nat := 0
  pilotBadRows : Nat := 0
  pilotDupes : Nat := 0
  deriving DecidableEq, Repr

/-- A line of the index whose key, offset and length can be used. -/
structure IndexEntry where
  key : String
  word : JsonValue
  pos : JsonValue
  offset : Int
  length : Int

inductive IndexLine
  | blank
  | bad
  | entry (e : IndexEntry)

/-- What the pass carries besides the keys it has seen. -/
structure SampleTally (R : Type) where
  seen : CefrLevel → Nat
  counters : SampleCounters
  reservoirs : CefrLevel → List SampleRecord
  rng : R

/-! ## Lines -/

namespace SampleLib
variable {R : Type} (lib : SampleLib R)

/-- The argument of `normalize_lemma` and `normalize_pos`. -/
def textOf : JsonValue → Except RegistryError (Option String)
  | .null => .ok none
  | .str s => .ok (some s)
  | value =>
      match lib.display value with
      | some s => .ok (some s)
      | none => .error (.valueError "str")

/-- `normalize_lemma`, of a decoded value. -/
def lemmaOf (word : JsonValue) : Except RegistryError String := do
  lib.normalizeLemma (← lib.textOf word)

/-- `normalize_pos`, of a decoded value. -/
def posOf (pos : JsonValue) : Except RegistryError String := do
  lib.normalizePos (← lib.textOf pos)

def indexKey : JsonValue → Option String
  | .obj entry =>
      match entry.lookup "word" with
      | none => none
      | some word =>
          let pos := Dict.get entry "pos"
          if pos.truthy then
            ((lib.lemmaOf word).bind fun lemma' =>
              (lib.posOf pos).map fun pos => lemma' ++ "|" ++ pos).toOption
          else ((lib.lemmaOf word).map fun lemma' => lemma' ++ "|").toOption
  | _ => none

/-- `int(value)`; `none` for an error that is caught. -/
def intOf : JsonValue → Option Int
  | .bool b => some (if b then 1 else 0)
  | .int n => some n
  | .float q => some (q.num.tdiv q.den)
  | .str s => lib.intOfStr s
  | _ => none

/-- `not line.strip()`. -/
def isBlankLine (line : String) : Bool := lib.strip line = ""

/-- A line as the scan reads it. -/
def readLine (line : String) : IndexLine :=
  if lib.isBlankLine line then .blank
  else
    match lib.loads line with
    | none => .bad
    | some value =>
        match lib.indexKey value, value with
        | some key, .obj entry =>
            match (entry.lookup "offset").bind lib.intOf, (entry.lookup "length").bind lib.intOf with
            | some offset, some length =>
                .entry ⟨key, Dict.get entry "word", Dict.get entry "pos", offset, length⟩
            | _, _ => .bad
        | _, _ => .bad

/-- A line as the replay reads it. -/
def replayKey (line : String) : Option String :=
  if lib.isBlankLine line then none else (lib.loads line).bind lib.indexKey

/-! ## Verdicts -/

def apostrophes : List Char := [Char.ofNat 39, Char.ofNat 8217]

def shapeVerdict : JsonValue → ShapeVerdict
  | .str word =>
      let text := (lib.strip word).toList
      if text.head? = some '-' ∨ text.getLast? = some '-' then .drop "affix"
      else if text.any lib.isDigit then .drop "digit"
      else if text.any (fun c => c ∈ apostrophes) then .drop "apostrophe"
      else if '.' ∈ text then .drop "period"
      else if text.length < 2 then .drop "single_char"
      else if text.any lib.isSpace then .phrase
      else if !text.all lib.isAlpha then .drop "non_alpha"
      else if !text.any (fun c => c ∈ "aeiouAEIOU".toList) then .drop "no_vowel"
      else .keep
  | _ => .drop "non_string"

/-- The levels of an entry in the pack's index. -/
def evpLevels (pack : PackData) (lemma' pos : String) : List CefrLevel :=
  if pos ≠ "" then pack.evpIndex (lemma' ++ "|" ++ pos) else pack.evpLemmaIndex lemma'

/-- `normalize_pos(pos)`, or nothing. -/
def posOrEmpty (pos : JsonValue) : String := (lib.posOf pos).toOption.getD ""

def packHasCefrHit (pack : PackData) (word pos : JsonValue) : Bool :=
  match (lib.lemmaOf word).toOption with
  | none => false
  | some lemma' =>
      let pos := lib.posOrEmpty pos
      (pack.cefrjFallback (lemma' ++ "|" ++ pos)).isSome || !(evpLevels pack lemma' pos).isEmpty

def isVowellessAllowlisted (pack : PackData) (word pos : JsonValue) : Bool :=
  lib.packHasCefrHit pack word pos ||
    match (lib.lemmaOf word).toOption, lib.zipf with
    | some lemma', some zipf => 3 < zipf lemma'
    | _, _ => false

def zipfToCefr (z : ℚ) (cutoffs : List ℚ) : CefrLevel :=
  (((cutoffs.zip [CefrLevel.a1, .a2, .b1, .b2, .c1]).find? fun c => c.1 ≤ z).map (·.2)).getD .c2

/-- The lowest level, the first of its rank. -/
def bestLevel (levels : List CefrLevel) : Option CefrLevel :=
  levels.foldl (fun best level =>
    match best with
    | none => some level
    | some b => if level.rank < b.rank then some level else some b) none

def classify (pack : PackData) (word pos : JsonValue) : Option CefrLevel :=
  match (lib.lemmaOf word).toOption with
  | none => none
  | some lemma' =>
      let pos := lib.posOrEmpty pos
      match pack.cefrjFallback (lemma' ++ "|" ++ pos), bestLevel (evpLevels pack lemma' pos) with
      | some hit, _ => some hit
      | none, some best => some best
      | none, none =>
          match lib.zipf with
          | none => none
          | some zipf =>
              if zipf lemma' ≤ 0 then none else some (zipfToCefr (zipf lemma') pack.zipfCutoffs)

end SampleLib

/-! ## One pass -/

/-- The arguments of `sample`, with no limit and not as a dry run. -/
structure SampleJob (R : Type) where
  lib : SampleLib R
  pack : PackData
  quotas : CefrLevel → Nat
  rng : R
  pilot : List (String × String × CefrLevel)
  batch : Nat
  lines : List String
  batch_pos : 0 < batch

/-- What `write_progress` writes, besides the header. -/
structure Checkpoint (R : Type) where
  linesDone : Nat
  tally : SampleTally R

/-- What `sample` returns of a finished pass. -/
structure SampleResult (R : Type) where
  rows : List (String × String × CefrLevel)
  seen : CefrLevel → Nat
  reservoirs : List SampleRecord
  counters : SampleCounters
  linesDone : Nat
  rng : R

namespace SampleTally
variable {R : Type} (t : SampleTally R)

def addBad : SampleTally R :=
  { t with counters := { t.counters with badIndexLines := t.counters.badIndexLines + 1 } }

def addDuplicate : SampleTally R :=
  { t with counters := { t.counters with duplicates := t.counters.duplicates + 1 } }

def addPhrase : SampleTally R :=
  { t with counters := { t.counters with phraseCandidates := t.counters.phraseCandidates + 1 } }

def addShape : SampleTally R :=
  { t with counters := { t.counters with skippedShape := t.counters.skippedShape + 1 } }

def addVowelless : SampleTally R :=
  { t with counters := { t.counters with allowedVowelless := t.counters.allowedVowelless + 1 } }

def addNoFreq : SampleTally R :=
  { t with counters := { t.counters with skippedNoFreq := t.counters.skippedNoFreq + 1 } }

def addValidity : SampleTally R :=
  { t with counters := { t.counters with skippedValidity := t.counters.skippedValidity + 1 } }

/-- `seen[level] += 1`. -/
def addSeen (level : CefrLevel) : SampleTally R :=
  { t with seen := Function.update t.seen level (t.seen level + 1) }

/-- The reservoir of a level, with a new record if it is drawn. -/
def draw (lib : SampleLib R) (cap : Nat) (record : SampleRecord) : SampleTally R :=
  let held := t.reservoirs record.level
  if held.length < cap then
    { t with reservoirs := Function.update t.reservoirs record.level (held ++ [record]) }
  else
    let (pick, rng) := lib.randrange t.rng (t.seen record.level)
    { t with
      reservoirs := Function.update t.reservoirs record.level
        (if pick < cap then held.set pick record else held)
      rng := rng }

end SampleTally

/-- The word of an entry that has passed as a text. -/
def wordText : JsonValue → String
  | .str word => word
  | _ => ""

namespace SampleJob
variable {R : Type} (job : SampleJob R)

/-- `pilot_counts[level]`. -/
def pilotCount (level : CefrLevel) : Nat := job.pilot.countP fun row => row.2.2 = level

/-- `caps[level]`, where the pilot does not exceed the quota. -/
def cap (level : CefrLevel) : Nat := job.quotas level - job.pilotCount level

def record (e : IndexEntry) (level : CefrLevel) : SampleRecord :=
  ⟨wordText e.word, wordText e.pos, level, e.offset, e.length⟩

/-- An entry whose frequency level is known: the sieve and the reservoir. -/
def admitAt (e : IndexEntry) (level : CefrLevel) (t : SampleTally R) :
    Option (SampleTally R × Bool) :=
  match job.lib.sieve e.offset e.length with
  | none => none
  | some false => some (t.addValidity, false)
  | some true =>
      if job.cap level = 0 then some (t.addSeen level, false)
      else some ((t.addSeen level).draw job.lib (job.cap level) (record e level), true)

/-- An entry whose shape is kept. -/
def admitWord (e : IndexEntry) (t : SampleTally R) : Option (SampleTally R × Bool) :=
  match job.lib.classify job.pack e.word e.pos with
  | none => some (t.addNoFreq, false)
  | some level => job.admitAt e level t

/-- The loop's body for an entry with a new key: the tally, and whether the body is run
to its end. -/
def admitEntry (e : IndexEntry) (t : SampleTally R) : Option (SampleTally R × Bool) :=
  match job.lib.shapeVerdict e.word with
  | .phrase => some (t.addPhrase, false)
  | .keep => job.admitWord e t
  | .drop reason =>
      if reason = "no_vowel" ∧ job.lib.isVowellessAllowlisted job.pack e.word e.pos then
        job.admitWord e t.addVowelless
      else some (t.addShape, false)

/-- The loop's body: the keys seen and the tally, and whether the body is run to its end. -/
def scanLine (x : List String × SampleTally R) (line : String) :
    Option ((List String × SampleTally R) × Bool) :=
  match job.lib.readLine line with
  | .blank => some (x, false)
  | .bad => some ((x.1, x.2.addBad), false)
  | .entry e =>
      if e.key ∈ x.1 then some ((x.1, x.2.addDuplicate), false)
      else (job.admitEntry e x.2).map fun y => ((e.key :: x.1, y.1), y.2)

/-- The loop, from a number of lines done and of lines processed on: the checkpoints it
writes, and what it ends with. -/
def scan : List String → List String × SampleTally R → Nat → Nat →
    List (Checkpoint R) × Option (List String × SampleTally R)
  | [], x, _, _ => ([], some x)
  | line :: lines, x, linesDone, processed =>
      match job.scanLine x line with
      | none => ([], none)
      | some (y, reached) =>
          let rest := scan lines y (linesDone + 1) (processed + 1)
          (if reached ∧ (processed + 1) % job.batch = 0 then ⟨linesDone + 1, y.2⟩ :: rest.1
            else rest.1, rest.2)

/-- The keys of the pilot; `none` where one has no key. -/
def pilotKeys : Option (List String) :=
  job.pilot.mapM fun row => (job.lib.lemmaKeyFor (some row.1) (some row.2.1)).toOption

/-- The tally before the first line. -/
def emptyTally : SampleTally R where
  seen _ := 0
  counters := { pilotRows := job.pilot.length }
  reservoirs _ := []
  rng := job.rng

/-- The keys of the restored reservoirs; `none` for the `SystemExit` at a record that has
none. -/
def reservoirKeys (t : SampleTally R) : Option (List String) :=
  (CefrLevel.order.flatMap t.reservoirs).mapM fun r =>
    (job.lib.lemmaKeyFor (some r.word) (some r.pos)).toOption

/-- The keys of the lines before a checkpoint. -/
def replayKeys (linesDone : Nat) : List String :=
  (job.lines.take linesDone).filterMap job.lib.replayKey

/-- Where a session starts: the keys seen, the tally and the number of lines done. -/
def enter (pilot : List String) : Option (Checkpoint R) →
    Option ((List String × SampleTally R) × Nat)
  | none => some ((pilot, job.emptyTally), 0)
  | some c => (job.reservoirKeys c.tally).map fun keys =>
      ((pilot ++ keys ++ job.replayKeys c.linesDone, { c.tally with
        counters := { c.tally.counters with
          pilotRows := job.pilot.length, pilotBadRows := 0, pilotDupes := 0 } }), c.linesDone)

def rowKey (row : String × String × CefrLevel) : Option (Nat × String) :=
  (if row.2.1 ≠ "" then job.lib.lemmaKeyFor (some row.1) (some row.2.1)
    else (job.lib.normalizeLemma (some row.1)).map fun lemma' => lemma' ++ "|").toOption.map
    fun key => (row.2.2.rank, key)

/-- `(rank, key) <= (rank, key)`. -/
def rowKeyLe (a b : Nat × String) : Prop := a.1 < b.1 ∨ a.1 = b.1 ∧ a.2 ≤ b.2

instance (a b : Nat × String) : Decidable (rowKeyLe a b) :=
  inferInstanceAs (Decidable (a.1 < b.1 ∨ a.1 = b.1 ∧ a.2 ≤ b.2))

/-- The rows, sorted; `none` where one has no key. -/
def sortedRows (t : SampleTally R) : Option (List (String × String × CefrLevel)) :=
  let rows := job.pilot ++
    (CefrLevel.order.flatMap t.reservoirs).map fun r => (r.word, r.pos, r.level)
  (rows.mapM fun row => (job.rowKey row).map fun key => (key, row)).map fun keyed =>
    (keyed.insertionSort fun a b => rowKeyLe a.1 b.1).map (·.2)

def result (t : SampleTally R) : Option (SampleResult R) :=
  (job.sortedRows t).map fun rows =>
    ⟨rows, t.seen, CefrLevel.order.flatMap t.reservoirs, t.counters, job.lines.length, t.rng⟩

/-- `sample`, from the progress file on: the checkpoints it writes, and what it returns;
`none` for an exception or a `SystemExit`. -/
def session (progress : Option (Checkpoint R)) : List (Checkpoint R) × Option (SampleResult R) :=
  match job.pilotKeys with
  | none => ([], none)
  | some pilot =>
      match job.enter pilot progress with
      | none => ([], none)
      | some (x, linesDone) =>
          if CefrLevel.order.any fun level => job.quotas level < job.pilotCount level then ([], none)
          else
            let out := job.scan (job.lines.drop linesDone) x linesDone 0
            (out.1, out.2.bind fun y => job.result y.2)

/-! ## What the loop's body does -/

variable {job}

/-- What an entry with a new key may do to the tally. -/
structure Admits (e : IndexEntry) (t t' : SampleTally R) : Prop where
  duplicates : t'.counters.duplicates = t.counters.duplicates
  pilotRows : t'.counters.pilotRows = t.counters.pilotRows
  pilotBadRows : t'.counters.pilotBadRows = t.counters.pilotBadRows
  pilotDupes : t'.counters.pilotDupes = t.counters.pilotDupes
  records : ∀ level, ∀ r ∈ t'.reservoirs level,
    r ∈ t.reservoirs level ∨ (∃ word, e.word = .str word) ∧ ∃ level', r = record e level'

theorem Admits.trans {e : IndexEntry} {t t' t'' : SampleTally R} (h : Admits e t t')
    (h' : Admits e t' t'') : Admits e t t'' where
  duplicates := h'.duplicates.trans h.duplicates
  pilotRows := h'.pilotRows.trans h.pilotRows
  pilotBadRows := h'.pilotBadRows.trans h.pilotBadRows
  pilotDupes := h'.pilotDupes.trans h.pilotDupes
  records level r hr := (h'.records level r hr).elim (h.records level r) Or.inr

theorem admits_of_reservoirs {e : IndexEntry} {t t' : SampleTally R}
    (h : t'.reservoirs = t.reservoirs) (hd : t'.counters.duplicates = t.counters.duplicates)
    (hr : t'.counters.pilotRows = t.counters.pilotRows)
    (hb : t'.counters.pilotBadRows = t.counters.pilotBadRows)
    (hp : t'.counters.pilotDupes = t.counters.pilotDupes) : Admits e t t' :=
  ⟨hd, hr, hb, hp, fun _ _ hmem => Or.inl (h ▸ hmem)⟩

theorem admits_draw (lib : SampleLib R) (cap : Nat) {e : IndexEntry}
    (hword : ∃ word, e.word = .str word) (level : CefrLevel) (t : SampleTally R) :
    Admits e t (t.draw lib cap (record e level)) := by
  have hlevel : (record e level).level = level := rfl
  unfold SampleTally.draw
  dsimp only
  rw [hlevel]
  split
  · refine ⟨rfl, rfl, rfl, rfl, fun level' r hr => ?_⟩
    dsimp only at hr
    by_cases heq : level' = level
    · subst heq
      rw [Function.update_self] at hr
      rcases List.mem_append.mp hr with hr | hr
      · exact Or.inl hr
      · exact Or.inr ⟨hword, level', List.mem_singleton.mp hr⟩
    · rw [Function.update_of_ne heq] at hr
      exact Or.inl hr
  · refine ⟨rfl, rfl, rfl, rfl, fun level' r hr => ?_⟩
    dsimp only at hr
    by_cases heq : level' = level
    · subst heq
      rw [Function.update_self] at hr
      split at hr
      · exact (List.mem_or_eq_of_mem_set hr).imp_right fun h => ⟨hword, level', h⟩
      · exact Or.inl hr
    · rw [Function.update_of_ne heq] at hr
      exact Or.inl hr

theorem admits_of_admitAt {e : IndexEntry} {level : CefrLevel} {t : SampleTally R}
    {y : SampleTally R × Bool} (hword : ∃ word, e.word = .str word)
    (h : job.admitAt e level t = some y) : Admits e t y.1 := by
  unfold admitAt at h
  split at h
  · cases h
  · obtain rfl := Option.some.inj h
    exact admits_of_reservoirs rfl rfl rfl rfl rfl
  · have hseen : Admits e t (t.addSeen level) := admits_of_reservoirs rfl rfl rfl rfl rfl
    split at h
    · obtain rfl := Option.some.inj h
      exact hseen
    · obtain rfl := Option.some.inj h
      exact hseen.trans (admits_draw job.lib (job.cap level) hword level _)

theorem admits_of_admitWord {e : IndexEntry} {t : SampleTally R} {y : SampleTally R × Bool}
    (hword : ∃ word, e.word = .str word) (h : job.admitWord e t = some y) : Admits e t y.1 := by
  unfold admitWord at h
  split at h
  · obtain rfl := Option.some.inj h
    exact admits_of_reservoirs rfl rfl rfl rfl rfl
  · exact admits_of_admitAt hword h

theorem admits_of_admit {e : IndexEntry} {t : SampleTally R} {y : SampleTally R × Bool}
    (h : job.admitEntry e t = some y) : Admits e t y.1 := by
  -- only texts get past the shape
  have hword : ∀ verdict, job.lib.shapeVerdict e.word = verdict →
      verdict = .keep ∨ verdict = .drop "no_vowel" → ∃ word, e.word = .str word := by
    intro verdict hverdict hkept
    cases hw : e.word with
    | str word => exact ⟨word, rfl⟩
    | _ =>
      rw [hw] at hverdict
      obtain rfl : ShapeVerdict.drop "non_string" = verdict := hverdict
      exact absurd hkept (by decide)
  unfold admitEntry at h
  split at h
  · obtain rfl := Option.some.inj h
    exact admits_of_reservoirs rfl rfl rfl rfl rfl
  · rename_i hverdict
    exact admits_of_admitWord (hword _ hverdict (Or.inl rfl)) h
  · rename_i reason hverdict
    split at h
    · rename_i hallowed
      have hvowel : Admits e t t.addVowelless := admits_of_reservoirs rfl rfl rfl rfl rfl
      refine hvowel.trans (admits_of_admitWord (hword _ hverdict (Or.inr ?_)) h)
      rw [hallowed.1]
    · obtain rfl := Option.some.inj h
      exact admits_of_reservoirs rfl rfl rfl rfl rfl

theorem readLine_eq_entry {lib : SampleLib R} {line : String} {e : IndexEntry}
    (h : lib.readLine line = .entry e) : lib.replayKey line = some e.key ∧
      ∃ entry, lib.indexKey (.obj entry) = some e.key ∧ e.word = Dict.get entry "word" ∧
        e.pos = Dict.get entry "pos" := by
  unfold SampleLib.readLine at h
  unfold SampleLib.replayKey
  split at h
  · cases h
  · rename_i hblank
    rw [if_neg hblank]
    cases hvalue : lib.loads line with
    | none =>
      rw [hvalue] at h
      cases h
    | some value =>
      rw [hvalue] at h
      dsimp only at h
      split at h
      · rename_i key entry hkey
        split at h
        · injection h with h
          subst h
          exact ⟨hkey, entry, hkey, rfl, rfl⟩
        · cases h
      · cases h

theorem lemmaOf_str (lib : SampleLib R) (word : String) :
    lib.lemmaOf (.str word) = lib.normalizeLemma (some word) := by
  simp only [SampleLib.lemmaOf, SampleLib.textOf, bind, Except.bind]

theorem posOf_str (lib : SampleLib R) (pos : String) :
    lib.posOf (.str pos) = lib.normalizePos (some pos) := by
  simp only [SampleLib.posOf, SampleLib.textOf, bind, Except.bind]

theorem key_of_word {lib : SampleLib R} {line : String} {e : IndexEntry} {word : String}
    (h : lib.readLine line = .entry e) (hword : e.word = .str word) :
    ∃ lemma', lib.normalizeLemma (some word) = .ok lemma' ∧
      if e.pos.truthy then ∃ pos, lib.posOf e.pos = .ok pos ∧ e.key = lemma' ++ "|" ++ pos
      else e.key = lemma' ++ "|" := by
  obtain ⟨-, entry, hkey, hw, hp⟩ := readLine_eq_entry h
  simp only [SampleLib.indexKey, ← hp] at hkey
  cases hlookup : entry.lookup "word" with
  | none =>
    rw [hlookup] at hkey
    cases hkey
  | some value =>
    have hvalue : value = .str word := by
      rw [← hword, hw, Dict.get, hlookup, Option.getD_some]
    simp only [hlookup, hvalue, lemmaOf_str] at hkey
    cases hl : lib.normalizeLemma (some word) with
    | error err => simp [hl, Except.bind, Except.map, Except.toOption] at hkey
    | ok l =>
      refine ⟨l, rfl, ?_⟩
      split
      · rename_i htruthy
        rw [if_pos htruthy, hl] at hkey
        cases hq : lib.posOf e.pos with
        | error err => simp [hq, Except.bind, Except.map, Except.toOption] at hkey
        | ok q =>
          rw [hq] at hkey
          exact ⟨q, rfl, (Option.some.inj hkey).symm⟩
      · rename_i hfalsy
        rw [if_neg hfalsy, hl] at hkey
        exact (Option.some.inj hkey).symm

theorem lemmaKeyFor_of_entry {lib : SampleLib R} {line : String} {e : IndexEntry}
    {word pos : String} (h : lib.readLine line = .entry e) (hword : e.word = .str word)
    (hpos : e.pos = .str pos) (hne : pos ≠ "") :
    lib.lemmaKeyFor (some word) (some pos) = .ok e.key := by
  obtain ⟨l, hl, hkey⟩ := key_of_word h hword
  have htruthy : (JsonValue.str pos).truthy = true := by simp [JsonValue.truthy, hne]
  rw [hpos, if_pos htruthy, posOf_str] at hkey
  obtain ⟨q, hq, hkey⟩ := hkey
  rw [RegistryLib.lemmaKeyFor, hl, hkey]
  simp only [bind, Except.bind, hq, pure, Except.pure]

/-! ## The pass as a scan -/

variable (job)

/-- The key of a line that the pass can use. -/
def usableKey (line : String) : Option String :=
  match job.lib.readLine line with
  | .entry e => some e.key
  | _ => none

/-- The tally after a line with a new key. -/
def freshLine (line : String) (t : SampleTally R) : Option (SampleTally R) :=
  match job.lib.readLine line with
  | .entry e => (job.admitEntry e t).map (·.1)
  | _ => none

/-- The tally after a line without a key. -/
def skipLine (line : String) (t : SampleTally R) : SampleTally R :=
  match job.lib.readLine line with
  | .bad => t.addBad
  | _ => t

variable {job}

theorem usableKey_eq_some {line key : String} (h : job.usableKey line = some key) :
    ∃ e, job.lib.readLine line = .entry e ∧ e.key = key := by
  unfold usableKey at h
  split at h
  · rename_i e he
    exact ⟨e, he, Option.some.inj h⟩
  · cases h

theorem freshLine_eq_some {line : String} {t t' : SampleTally R}
    (h : job.freshLine line t = some t') :
    ∃ e, job.lib.readLine line = .entry e ∧ Admits e t t' := by
  unfold freshLine at h
  split at h
  · rename_i e he
    obtain ⟨y, hy, rfl⟩ := Option.map_eq_some_iff.mp h
    exact ⟨e, he, admits_of_admit hy⟩
  · cases h

variable (job)

/-- The pass, as a scan that knows its keys. -/
def dedup : DedupScan String String (SampleTally R) where
  key := job.usableKey
  fresh := job.freshLine
  again := SampleTally.addDuplicate
  skip := job.skipLine
  loose := job.lib.replayKey
  dups t := t.counters.duplicates
  loose_of_key line key h := by
    obtain ⟨e, he, rfl⟩ := usableKey_eq_some h
    exact (readLine_eq_entry he).1
  dups_fresh line t t' h := by
    obtain ⟨e, -, hadmits⟩ := freshLine_eq_some h
    exact hadmits.duplicates
  dups_again _ := rfl
  dups_skip line t := by
    unfold skipLine
    split <;> rfl

variable {job}

@[simp] theorem dedup_key : job.dedup.key = job.usableKey := by rw [dedup]
@[simp] theorem dedup_fresh : job.dedup.fresh = job.freshLine := by rw [dedup]
@[simp] theorem dedup_again : job.dedup.again = SampleTally.addDuplicate := by rw [dedup]
@[simp] theorem dedup_skip : job.dedup.skip = job.skipLine := by rw [dedup]
@[simp] theorem dedup_loose : job.dedup.loose = job.lib.replayKey := by rw [dedup]

theorem dedup_looseKeys (lines : List String) :
    job.dedup.looseKeys lines = lines.filterMap job.lib.replayKey := by
  rw [DedupScan.looseKeys, dedup_loose]

theorem dedup_step_cases {x y : List String × SampleTally R} {line : String}
    (h : job.dedup.step x line = some y) :
    y = (x.1, job.skipLine line x.2) ∨ y = (x.1, x.2.addDuplicate) ∨
      ∃ e t, job.lib.readLine line = .entry e ∧ Admits e x.2 t ∧ y = (e.key :: x.1, t) := by
  have hcases := DedupScan.step_cases h
  simp only [dedup_key, dedup_fresh, dedup_again, dedup_skip] at hcases
  obtain ⟨-, rfl⟩ | ⟨k, -, -, rfl⟩ | ⟨k, -, hkey, t, ht, rfl⟩ := hcases
  · exact .inl rfl
  · exact .inr (.inl rfl)
  · obtain ⟨e, he, hadmits⟩ := freshLine_eq_some ht
    obtain ⟨e', he', rfl⟩ := usableKey_eq_some hkey
    obtain rfl : e = e' := IndexLine.entry.inj (he.symm.trans he')
    exact .inr (.inr ⟨e, t, he, hadmits, rfl⟩)

theorem map_scanLine (x : List String × SampleTally R) (line : String) :
    (job.scanLine x line).map (·.1) = job.dedup.step x line := by
  unfold scanLine DedupScan.step
  simp only [dedup, usableKey, freshLine, skipLine]
  cases job.lib.readLine line with
  | blank => rfl
  | bad => rfl
  | entry e =>
    dsimp only
    split
    · rfl
    · rw [Option.map_map, Option.map_map]
      rfl

theorem scan_result (lines : List String) (x : List String × SampleTally R)
    (linesDone processed : Nat) :
    (job.scan lines x linesDone processed).2 = job.dedup.run x lines := by
  induction lines generalizing x linesDone processed with
  | nil => rfl
  | cons line lines ih =>
    rw [DedupScan.run, ← map_scanLine, scan]
    cases job.scanLine x line with
    | none => rfl
    | some y => exact ih y.1 (linesDone + 1) (processed + 1)

/-! ## Sessions -/

variable (job)

/-- The keys a resumed session knows at a line. -/
def rebuild (pilot : List String) (linesDone : Nat) (t : SampleTally R) : Option (List String) :=
  (job.reservoirKeys t).map fun keys => pilot ++ keys ++ job.replayKeys linesDone

/-- What sessions reach at a line, and the lines at which they were resumed. -/
abbrev Reached (pilot : List String) : List Nat → Nat → List String × SampleTally R → Prop :=
  job.dedup.Lineage (job.rebuild pilot) job.lines (pilot, job.emptyTally)

/-- Each session is killed after one of its checkpoints, and the next starts from there. -/
def Killed : Option (Checkpoint R) → List (Checkpoint R) → Prop
  | _, [] => True
  | progress, c :: cs => c ∈ (job.session progress).1 ∧ Killed (some c) cs

/-- The progress file that the last session finds. -/
def lastProgress : Option (Checkpoint R) → List (Checkpoint R) → Option (Checkpoint R)
  | progress, [] => progress
  | _, c :: cs => lastProgress (some c) cs

/-- The quotas cannot hold the pilot. -/
def overfull : Bool := CefrLevel.order.any fun level => job.quotas level < job.pilotCount level

variable {job}
variable {pilot : List String}

theorem session_eq (hpilot : job.pilotKeys = some pilot) (hover : job.overfull = false)
    (progress : Option (Checkpoint R)) :
    job.session progress =
      match job.enter pilot progress with
      | none => ([], none)
      | some (x, linesDone) =>
          ((job.scan (job.lines.drop linesDone) x linesDone 0).1,
            (job.scan (job.lines.drop linesDone) x linesDone 0).2.bind fun y => job.result y.2) := by
  unfold session
  unfold overfull at hover
  rw [hpilot]
  dsimp only
  cases job.enter pilot progress with
  | none => rfl
  | some y =>
    dsimp only
    rw [hover]
    rfl

/-- The counters of the pilot's rows are what they were. -/
def PilotCounted (job : SampleJob R) (t : SampleTally R) : Prop :=
  t.counters.pilotRows = job.pilot.length ∧ t.counters.pilotBadRows = 0 ∧ t.counters.pilotDupes = 0

theorem pilotCounted_step {x y : List String × SampleTally R} {line : String}
    (h : PilotCounted job x.2) (hstep : job.dedup.step x line = some y) :
    PilotCounted job y.2 := by
  obtain rfl | rfl | ⟨e, t, -, hadmits, rfl⟩ := dedup_step_cases hstep
  · simp only [skipLine]
    split
    · exact h
    · exact h
  · exact h
  · exact ⟨hadmits.pilotRows.trans h.1, hadmits.pilotBadRows.trans h.2.1,
      hadmits.pilotDupes.trans h.2.2⟩

theorem Reached.pilotCounted {points : List Nat} {n : Nat} {x : List String × SampleTally R}
    (h : job.Reached pilot points n x) : PilotCounted job x.2 := by
  induction h with
  | start => exact ⟨rfl, rfl, rfl⟩
  | item _ _ hstep ih => exact pilotCounted_step ih hstep
  | resume _ _ ih => exact ih

theorem Reached.scan {points : List Nat} {lines : List String} {linesDone processed : Nat}
    {x : List String × SampleTally R} (h : job.Reached pilot points linesDone x)
    (hlines : job.lines.drop linesDone = lines) :
    (∀ c ∈ (job.scan lines x linesDone processed).1,
        ∃ known, job.Reached pilot points c.linesDone (known, c.tally)) ∧
      ∀ y, (job.scan lines x linesDone processed).2 = some y →
        job.Reached pilot points job.lines.length y := by
  induction lines generalizing x linesDone processed with
  | nil =>
    refine ⟨fun c hc => (nomatch hc), fun y hy => ?_⟩
    obtain rfl := Option.some.inj hy
    have hle := h.le_length
    have hge := List.drop_eq_nil_iff.mp hlines
    rwa [Nat.le_antisymm hge hle]
  | cons line lines ih =>
    have hget : job.lines[linesDone]? = some line := by
      rw [← List.head?_drop, hlines]
      rfl
    have hrest : job.lines.drop (linesDone + 1) = lines := by
      rw [← List.tail_drop, hlines]
      rfl
    unfold SampleJob.scan
    cases hscan : job.scanLine x line with
    | none => exact ⟨fun c hc => (nomatch hc), fun y hy => (nomatch hy)⟩
    | some out =>
      obtain ⟨y, reached⟩ := out
      have hstep : job.dedup.step x line = some y := by
        rw [← map_scanLine, hscan]
        rfl
      have hnext : job.Reached pilot points (linesDone + 1) y := .item h hget hstep
      obtain ⟨hcheckpoints, hend⟩ := ih hnext hrest
      refine ⟨fun c hc => ?_, hend⟩
      dsimp only at hc
      split at hc
      · rcases List.mem_cons.mp hc with rfl | hc
        · exact ⟨y.1, hnext⟩
        · exact hcheckpoints c hc
      · exact hcheckpoints c hc

/-- Where a session starts was reached. -/
def Entered (job : SampleJob R) (pilot : List String) (progress : Option (Checkpoint R))
    (points : List Nat) : Prop :=
  ∀ x linesDone, job.enter pilot progress = some (x, linesDone) →
    job.Reached pilot points linesDone x

theorem entered_none : Entered job pilot none [] := by
  rintro x linesDone ⟨⟩
  exact .start

theorem enter_some {points : List Nat} {c : Checkpoint R} {known : List String}
    (h : job.Reached pilot points c.linesDone (known, c.tally)) :
    job.enter pilot (some c) =
      (job.rebuild pilot c.linesDone c.tally).map fun keys => ((keys, c.tally), c.linesDone) := by
  obtain ⟨hrows, hbad, hdupes⟩ := h.pilotCounted
  have hsame : { c.tally with
      counters := { c.tally.counters with
        pilotRows := job.pilot.length, pilotBadRows := 0, pilotDupes := 0 } } = c.tally := by
    obtain ⟨linesDone, seen, ⟨⟩, reservoirs, rng⟩ := c
    dsimp only at hrows hbad hdupes
    subst hrows hbad hdupes
    rfl
  rw [enter, hsame, rebuild, Option.map_map]
  rfl

theorem entered_some {points : List Nat} {c : Checkpoint R} {known : List String}
    (h : job.Reached pilot points c.linesDone (known, c.tally)) :
    Entered job pilot (some c) (c.linesDone :: points) := by
  intro x linesDone hx
  rw [enter_some h] at hx
  obtain ⟨keys, hkeys, heq⟩ := Option.map_eq_some_iff.mp hx
  obtain ⟨rfl, rfl⟩ := Prod.mk.inj heq
  exact .resume h hkeys

/-- The checkpoints and the start of the last session were reached, resumed at no other
lines than those of the checkpoints. -/
theorem killed_reached (hpilot : job.pilotKeys = some pilot) (hover : job.overfull = false)
    {progress : Option (Checkpoint R)} {points : List Nat} {cs : List (Checkpoint R)}
    (hentered : Entered job pilot progress points) (hkilled : job.Killed progress cs) :
    (∃ points', Entered job pilot (lastProgress progress cs) points' ∧
      ∀ n, n ∈ points' ↔ n ∈ points ∨ ∃ c ∈ cs, c.linesDone = n) ∧
      ∀ c ∈ cs, ∃ points' known, job.Reached pilot points' c.linesDone (known, c.tally) ∧
        ∀ n ∈ points', n ∈ points ∨ ∃ c' ∈ cs, c'.linesDone = n := by
  induction cs generalizing progress points with
  | nil => exact ⟨⟨points, hentered, by simp⟩, fun c hc => (nomatch hc)⟩
  | cons c cs ih =>
    obtain ⟨hc, hrest⟩ := hkilled
    rw [session_eq hpilot hover] at hc
    cases henter : job.enter pilot progress with
    | none =>
      rw [henter] at hc
      cases hc
    | some start =>
      obtain ⟨x, linesDone⟩ := start
      rw [henter] at hc
      obtain ⟨known, hreached⟩ := ((hentered x linesDone henter).scan rfl).1 c hc
      obtain ⟨⟨points', hentered', hmem⟩, hall⟩ := ih (entered_some hreached) hrest
      have hpoints : ∀ n, (n ∈ c.linesDone :: points ∨ ∃ c' ∈ cs, c'.linesDone = n) ↔
          n ∈ points ∨ ∃ c' ∈ c :: cs, c'.linesDone = n := by
        intro n
        simp only [List.mem_cons, exists_eq_or_imp, eq_comm (a := n)]
        exact or_assoc.trans or_left_comm
      refine ⟨⟨points', hentered', fun n => (hmem n).trans (hpoints n)⟩, fun c' hc' => ?_⟩
      rcases List.mem_cons.mp hc' with rfl | hc'
      · exact ⟨points, known, hreached, fun n hn => Or.inl hn⟩
      · obtain ⟨points'', known', hreached', hsub⟩ := hall c' hc'
        exact ⟨points'', known', hreached', fun n hn => (hpoints n).mp (hsub n hn)⟩

theorem lastProgress_mem (progress : Option (Checkpoint R)) (cs : List (Checkpoint R)) :
    lastProgress progress cs = progress ∨ ∃ c ∈ cs, lastProgress progress cs = some c := by
  induction cs generalizing progress with
  | nil => exact Or.inl rfl
  | cons c cs ih =>
    rcases ih (some c) with hlast | ⟨c', hc', hlast⟩
    · exact Or.inr ⟨c, List.mem_cons_self .., hlast⟩
    · exact Or.inr ⟨c', List.mem_cons_of_mem _ hc', hlast⟩

theorem enter_ne_none (hpilot : job.pilotKeys = some pilot) (hover : job.overfull = false)
    {progress : Option (Checkpoint R)} {cs : List (Checkpoint R)}
    (hkilled : job.Killed progress cs) (hreturns : (job.session (lastProgress progress cs)).2 ≠ none) :
    job.enter pilot progress ≠ none ∧ ∀ c ∈ cs, job.enter pilot (some c) ≠ none := by
  induction cs generalizing progress with
  | nil =>
    refine ⟨fun hnone => hreturns ?_, fun c hc => (nomatch hc)⟩
    rw [lastProgress, session_eq hpilot hover, hnone]
  | cons c cs ih =>
    obtain ⟨hc, hrest⟩ := hkilled
    obtain ⟨hfirst, hall⟩ := ih hrest hreturns
    refine ⟨fun hnone => ?_, fun c' hc' => ?_⟩
    · rw [session_eq hpilot hover, hnone] at hc
      cases hc
    · rcases List.mem_cons.mp hc' with rfl | hc'
      · exact hfirst
      · exact hall c' hc'

/-! ## Rebuilding the keys -/

/-- Every record of a checkpoint has a part of speech. -/
def Restorable (c : Checkpoint R) : Prop := ∀ level, ∀ r ∈ c.tally.reservoirs level, r.pos ≠ ""

theorem mem_records {t : SampleTally R} {r : SampleRecord} :
    r ∈ CefrLevel.order.flatMap t.reservoirs ↔ ∃ level, r ∈ t.reservoirs level := by
  rw [List.mem_flatMap]
  exact ⟨fun ⟨level, _, hr⟩ => ⟨level, hr⟩, fun ⟨level, hr⟩ => ⟨level, level.mem_order, hr⟩⟩

theorem lemmaKeyFor_empty (lib : RegistryLib) (word : Option String) :
    (lib.lemmaKeyFor word (some "")).toOption = none := by
  have hstrip : lib.strip "" = "" := by
    rw [UnicodeLib.strip, String.toList_empty]
    exact String.ofList_nil
  have hblank : lib.isBlank (some "") = true := decide_eq_true hstrip
  have hpos : lib.normalizePos (some "") = .error (.valueError "normalize_pos: empty pos") :=
    if_pos hblank
  unfold RegistryLib.lemmaKeyFor
  cases lib.normalizeLemma word with
  | error err => rfl
  | ok l => simp only [bind, Except.bind, hpos, Except.toOption]

theorem pos_ne_empty_of_reservoirKeys {t : SampleTally R} {keys : List String}
    (h : job.reservoirKeys t = some keys) {level : CefrLevel} {r : SampleRecord}
    (hr : r ∈ t.reservoirs level) : r.pos ≠ "" := by
  intro hpos
  obtain ⟨key, -, hkey⟩ := exists_right_of_forall₂ (forall₂_of_mapM h) (mem_records.mpr ⟨level, hr⟩)
  rw [hpos, lemmaKeyFor_empty] at hkey
  cases hkey

/-- The straight pass knows the keys of its records. -/
def RecordsKnown (job : SampleJob R) (x : List String × SampleTally R) : Prop :=
  ∀ level, ∀ r ∈ x.2.reservoirs level, r.pos ≠ "" →
    ∃ key ∈ x.1, job.lib.lemmaKeyFor (some r.word) (some r.pos) = .ok key

theorem recordsKnown_step (x : List String × SampleTally R) (line : String)
    (y : List String × SampleTally R) (h : RecordsKnown job x)
    (hstep : job.dedup.step x line = some y) : RecordsKnown job y := by
  obtain rfl | rfl | ⟨e, t, he, hadmits, rfl⟩ := dedup_step_cases hstep
  · simp only [skipLine]
    split
    · exact h
    · exact h
  · exact h
  · intro level r hr hpos
    rcases hadmits.records level r hr with hr | ⟨⟨word, hword⟩, level', rfl⟩
    · obtain ⟨key, hmem, hok⟩ := h level r hr hpos
      exact ⟨key, List.mem_cons_of_mem _ hmem, hok⟩
    · refine ⟨e.key, List.mem_cons_self .., ?_⟩
      cases hp : e.pos with
      | str pos =>
        have hne : pos ≠ "" := by simpa [record, wordText, hp] using hpos
        simpa [record, wordText, hp, hword] using lemmaKeyFor_of_entry he hword hp hne
      | _ => simp [record, wordText, hp] at hpos

theorem recordsKnown_run {lines : List String} {y : List String × SampleTally R}
    (h : job.dedup.run (pilot, job.emptyTally) lines = some y) : RecordsKnown job y := by
  refine DedupScan.run_keeps recordsKnown_step ?_ h
  intro level r hr
  cases hr

theorem mem_rebuild {n : Nat} {t : SampleTally R} {known : List String}
    (h : job.rebuild pilot n t = some known) {key : String}
    (hkey : key ∈ pilot ∨ key ∈ job.dedup.looseKeys (job.lines.take n)) : key ∈ known := by
  obtain ⟨keys, -, rfl⟩ := Option.map_eq_some_iff.mp h
  rw [dedup_looseKeys] at hkey
  rw [List.mem_append, List.mem_append]
  exact hkey.imp_left Or.inl

theorem rebuild_straight {n : Nat} {y : List String × SampleTally R} {known : List String}
    (hy : job.dedup.run (pilot, job.emptyTally) (job.lines.take n) = some y)
    (h : job.rebuild pilot n y.2 = some known) {key : String} (hkey : key ∈ known) :
    key ∈ pilot ∨ key ∈ job.dedup.looseKeys (job.lines.take n) := by
  obtain ⟨keys, hkeys, rfl⟩ := Option.map_eq_some_iff.mp h
  rcases List.mem_append.mp hkey with hkey | hkey
  · rcases List.mem_append.mp hkey with hkey | hkey
    · exact Or.inl hkey
    · obtain ⟨r, hr, hrkey⟩ := exists_left_of_forall₂ (forall₂_of_mapM hkeys) hkey
      obtain ⟨level, hlevel⟩ := mem_records.mp hr
      obtain ⟨key', hmem, hok⟩ := recordsKnown_run hy level r hlevel
        (pos_ne_empty_of_reservoirKeys hkeys hlevel)
      rw [hok] at hrkey
      obtain rfl : key' = key := Option.some.inj hrkey
      exact ((DedupScan.mem_run hy key').mp hmem).imp_right DedupScan.keys_subset_looseKeys
  · exact Or.inr ((dedup_looseKeys _).symm ▸ hkey)

theorem rebuild_isSome {n : Nat} {y : List String × SampleTally R}
    (hy : job.dedup.run (pilot, job.emptyTally) (job.lines.take n) = some y)
    (hpos : ∀ level, ∀ r ∈ y.2.reservoirs level, r.pos ≠ "") :
    ∃ known, job.rebuild pilot n y.2 = some known := by
  obtain ⟨keys, hkeys⟩ : ∃ keys, job.reservoirKeys y.2 = some keys := by
    refine exists_mapM fun r hr => ?_
    obtain ⟨level, hlevel⟩ := mem_records.mp hr
    obtain ⟨key, -, hok⟩ := recordsKnown_run hy level r hlevel (hpos level r hlevel)
    rw [hok]
    rfl
  rw [rebuild, hkeys]
  exact ⟨_, rfl⟩

/-! ## Resumed and straight sampling -/

/-- The last session returns, with the rows, the seen counts and the counters of one
uninterrupted pass. -/
def SameAsStraight (job : SampleJob R) (cs : List (Checkpoint R)) : Prop :=
  ∃ straight last, (job.session none).2 = some straight ∧
    (job.session (lastProgress none cs)).2 = some last ∧
      last.rows = straight.rows ∧ last.seen = straight.seen ∧ last.counters = straight.counters

/-- Every key of a line before a checkpoint that a later line can use is one of the
pilot or is used before the checkpoint already. -/
def KeysUsed (job : SampleJob R) (c : Checkpoint R) : Prop :=
  job.dedup.Harmless (job.pilotKeys.getD []) job.lines c.linesDone

theorem scanned_of_returns (hpilot : job.pilotKeys = some pilot) (hover : job.overfull = false)
    {progress : Option (Checkpoint R)} {out : SampleResult R}
    (h : (job.session progress).2 = some out) :
    ∃ x linesDone y, job.enter pilot progress = some (x, linesDone) ∧
      (job.scan (job.lines.drop linesDone) x linesDone 0).2 = some y ∧
        job.result y.2 = some out := by
  rw [session_eq hpilot hover] at h
  cases henter : job.enter pilot progress with
  | none =>
    rw [henter] at h
    cases h
  | some start =>
    obtain ⟨x, linesDone⟩ := start
    rw [henter] at h
    obtain ⟨y, hy, hout⟩ := Option.bind_eq_some_iff.mp h
    exact ⟨x, linesDone, y, rfl, hy, hout⟩

theorem straight_of_returns {straight : SampleResult R}
    (h : (job.session none).2 = some straight) :
    ∃ pilot final, job.pilotKeys = some pilot ∧ job.overfull = false ∧
      job.dedup.run (pilot, job.emptyTally) job.lines = some final ∧
        job.result final.2 = some straight := by
  cases hpilot : job.pilotKeys with
  | none =>
    unfold session at h
    rw [hpilot] at h
    cases h
  | some pilot =>
    cases hover : job.overfull with
    | true =>
      unfold session at h
      unfold overfull at hover
      rw [hpilot] at h
      simp [enter, hover] at h
    | false =>
      obtain ⟨x, linesDone, final, henter, hfinal, hresult⟩ := scanned_of_returns hpilot hover h
      obtain ⟨rfl, rfl⟩ := Prod.mk.inj (Option.some.inj henter)
      rw [scan_result] at hfinal
      exact ⟨pilot, final, rfl, rfl, hfinal, hresult⟩

theorem result_eq_some {t : SampleTally R} {out : SampleResult R} (h : job.result t = some out) :
    out.seen = t.seen ∧ out.counters = t.counters := by
  obtain ⟨rows, -, rfl⟩ := Option.map_eq_some_iff.mp h
  exact ⟨rfl, rfl⟩

theorem restorable_of_enter {points : List Nat} {c : Checkpoint R} {known : List String}
    (h : job.Reached pilot points c.linesDone (known, c.tally))
    (hstart : job.enter pilot (some c) ≠ none) : Restorable c := by
  intro level r hr
  rw [enter_some h] at hstart
  have hrebuild : job.rebuild pilot c.linesDone c.tally ≠ none := by
    intro hnone
    rw [hnone] at hstart
    exact hstart rfl
  obtain ⟨known', hknown'⟩ := Option.ne_none_iff_exists'.mp hrebuild
  obtain ⟨keys, hkeys, -⟩ := Option.map_eq_some_iff.mp hknown'
  exact pos_ne_empty_of_reservoirKeys hkeys hr

theorem enter_of_restorable {points : List Nat} {c : Checkpoint R} {known : List String}
    {final : List String × SampleTally R}
    (h : job.Reached pilot points c.linesDone (known, c.tally))
    (hrun : job.dedup.run (pilot, job.emptyTally) job.lines = some final)
    (hharmless : ∀ n ∈ points, job.dedup.Harmless pilot job.lines n) (hpos : Restorable c) :
    job.enter pilot (some c) ≠ none := by
  obtain ⟨y, hy, hsame, -⟩ := h.alike hrun
    (fun n y known hy hknown k => ⟨rebuild_straight hy hknown, mem_rebuild hknown⟩) hharmless
  have htally : y.2 = c.tally := hsame
  obtain ⟨known', hknown'⟩ := rebuild_isSome hy (htally.symm ▸ hpos)
  rw [enter_some h, ← htally, hknown']
  exact Option.some_ne_none _

theorem session_of_harmless (hpilot : job.pilotKeys = some pilot) (hover : job.overfull = false)
    {final : List String × SampleTally R} {straight : SampleResult R}
    (hrun : job.dedup.run (pilot, job.emptyTally) job.lines = some final)
    (hresult : job.result final.2 = some straight)
    {progress : Option (Checkpoint R)} {points : List Nat}
    (hentered : Entered job pilot progress points)
    (hharmless : ∀ n ∈ points, job.dedup.Harmless pilot job.lines n)
    (hstart : job.enter pilot progress ≠ none) : (job.session progress).2 = some straight := by
  obtain ⟨⟨x, linesDone⟩, henter⟩ := Option.ne_none_iff_exists'.mp hstart
  obtain ⟨y, hy, htally, hknown⟩ := (hentered x linesDone henter).alike hrun
    (fun n y known hy hknown k => ⟨rebuild_straight hy hknown, mem_rebuild hknown⟩) hharmless
  rw [← List.take_append_drop linesDone job.lines, DedupScan.run_append, hy,
    Option.bind_some] at hrun
  obtain ⟨x', hx', hfinal⟩ := DedupScan.run_alike hrun htally hknown
  rw [session_eq hpilot hover, henter]
  dsimp only
  rw [scan_result, hx', Option.bind_some, ← hfinal, hresult]

theorem harmless_of_counters (hpilot : job.pilotKeys = some pilot) (hover : job.overfull = false)
    {final : List String × SampleTally R} {straight last : SampleResult R}
    (hrun : job.dedup.run (pilot, job.emptyTally) job.lines = some final)
    (hresult : job.result final.2 = some straight)
    {progress : Option (Checkpoint R)} {points : List Nat}
    (hentered : Entered job pilot progress points)
    (hlast : (job.session progress).2 = some last) (hcounters : last.counters = straight.counters) :
    ∀ n ∈ points, job.dedup.Harmless pilot job.lines n := by
  obtain ⟨x, linesDone, y, henter, hy, hout⟩ := scanned_of_returns hpilot hover hlast
  have hend := ((hentered x linesDone henter).scan rfl).2 y hy
  have hdups : job.dedup.dups y.2 = job.dedup.dups final.2 := by
    show y.2.counters.duplicates = final.2.counters.duplicates
    rw [← (result_eq_some hout).2, ← (result_eq_some hresult).2, hcounters]
  exact (hend.resumed_iff hrun (fun n t known hknown key => mem_rebuild hknown)
    (fun n y known hy hknown key => rebuild_straight hy hknown)).2 hdups

/-- **Resumed sampling.**  Where one uninterrupted pass returns, the last of several
sessions, each killed after a checkpoint, returns the same rows, seen counts and
counters exactly when every checkpoint has a part of speech in each record, and no
key of a bad line before it is first used after it. -/
theorem resumed_sampling_iff (job : SampleJob R) {cs : List (Checkpoint R)}
    (hstraight : (job.session none).2 ≠ none) (hkilled : job.Killed none cs) :
    SameAsStraight job cs ↔ ∀ c ∈ cs, Restorable c ∧ KeysUsed job c := by
  obtain ⟨straight, hs⟩ := Option.ne_none_iff_exists'.mp hstraight
  obtain ⟨pilot, final, hpilot, hover, hrun, hresult⟩ := straight_of_returns hs
  obtain ⟨⟨points, hentered, hpoints⟩, hcheckpoints⟩ :=
    killed_reached hpilot hover entered_none hkilled
  have hmem : ∀ n, n ∈ points ↔ ∃ c ∈ cs, c.linesDone = n := by
    intro n
    rw [hpoints]
    simp
  have hkeys : ∀ c, KeysUsed job c ↔ job.dedup.Harmless pilot job.lines c.linesDone := by
    intro c
    rw [KeysUsed, hpilot]
    rfl
  constructor
  · rintro ⟨straight', last, hs', hlast, -, -, hcounters⟩ c hc
    obtain rfl := Option.some.inj (hs.symm.trans hs')
    have hharmless := harmless_of_counters hpilot hover hrun hresult hentered hlast hcounters
    refine ⟨?_, (hkeys c).mpr (hharmless _ ((hmem _).mpr ⟨c, hc, rfl⟩))⟩
    have hreturns : (job.session (lastProgress none cs)).2 ≠ none := by
      rw [hlast]
      exact Option.some_ne_none last
    obtain ⟨points', known, hreached, -⟩ := hcheckpoints c hc
    exact restorable_of_enter hreached ((enter_ne_none hpilot hover hkilled hreturns).2 c hc)
  · intro hall
    have hharmless : ∀ n, (∃ c ∈ cs, c.linesDone = n) →
        job.dedup.Harmless pilot job.lines n := by
      rintro n ⟨c, hc, rfl⟩
      exact (hkeys c).mp (hall c hc).2
    have hstart : job.enter pilot (lastProgress none cs) ≠ none := by
      rcases lastProgress_mem none cs with hnone | ⟨c, hc, hlast⟩
      · rw [hnone]
        exact Option.some_ne_none _
      · obtain ⟨points', known, hreached, hsub⟩ := hcheckpoints c hc
        rw [hlast]
        refine enter_of_restorable hreached hrun (fun n hn => hharmless n ?_) (hall c hc).1
        exact (hsub n hn).resolve_left List.not_mem_nil
    exact ⟨straight, straight, hs, session_of_harmless hpilot hover hrun hresult hentered
      (fun n hn => hharmless n ((hmem n).mp hn)) hstart, rfl, rfl, rfl⟩

/-! ## A resumed pass that differs -/

/-- Index lines for words in a fixed dump, decoded by hand. -/
def indexLine : String → Option JsonValue
  | "\x7b\"word\": \"dog\", \"pos\": \"noun\", \"length\": 5\x7d" =>
      some (.obj [("word", .str "dog"), ("pos", .str "noun"), ("length", .int 5)])
  | "\x7b\"word\": \"cat\", \"pos\": \"noun\", \"offset\": 0, \"length\": 5\x7d" =>
      some (.obj [("word", .str "cat"), ("pos", .str "noun"), ("offset", .int 0), ("length", .int 5)])
  | "\x7b\"word\": \"dog\", \"pos\": \"noun\", \"offset\": 5, \"length\": 5\x7d" =>
      some (.obj [("word", .str "dog"), ("pos", .str "noun"), ("offset", .int 5), ("length", .int 5)])
  | _ => none

/-- Two lines of one word, the first without an offset, and a line of another word
between them. -/
def catAndDog : SampleJob Unit where
  lib :=
    { toRegistryLib := .ascii
      loads := indexLine
      display := fun _ => none
      intOfStr := fun _ => none
      isDigit := Char.isDigit
      isAlpha := Char.isAlpha
      zipf := none
      sieve := fun _ _ => some true
      randrange := fun rng _ => (0, rng) }
  pack := ⟨fun _ => some .a1, fun _ => [], fun _ => [], []⟩
  quotas _ := 5
  rng := ()
  pilot := []
  batch := 1
  lines :=
    ["\x7b\"word\": \"dog\", \"pos\": \"noun\", \"length\": 5\x7d",
      "\x7b\"word\": \"cat\", \"pos\": \"noun\", \"offset\": 0, \"length\": 5\x7d",
      "\x7b\"word\": \"dog\", \"pos\": \"noun\", \"offset\": 5, \"length\": 5\x7d"]
  batch_pos := Nat.one_pos

theorem catAndDog_checkpoints : 0 < (catAndDog.session none).1.length := by decide +kernel

theorem catAndDog_returns : (catAndDog.session none).2 ≠ none := fun h =>
  absurd (congrArg Option.isSome h) (by decide +kernel)

/-- The checkpoint after the line of the other word. -/
def catAndDogCheckpoint : Checkpoint Unit :=
  (catAndDog.session none).1.get ⟨0, catAndDog_checkpoints⟩

theorem resumed_sampling_catAndDog :
    SameAsStraight catAndDog [catAndDogCheckpoint] ↔
      ∀ c ∈ [catAndDogCheckpoint], Restorable c ∧ KeysUsed catAndDog c :=
  resumed_sampling_iff catAndDog catAndDog_returns ⟨List.get_mem _ _, trivial⟩

/-- The resumed session knows the key of the line without an offset and counts the later
line of that word as a duplicate. -/
theorem bad_line_hides_word :
    catAndDog.Killed none [catAndDogCheckpoint] ∧ (catAndDog.session none).2 ≠ none ∧
      ¬ SameAsStraight catAndDog [catAndDogCheckpoint] := by
  refine ⟨⟨List.get_mem _ _, trivial⟩, catAndDog_returns, ?_⟩
  rintro ⟨straight, last, hs, hlast, -, -, hcounters⟩
  have hstraight : (catAndDog.session none).2.map (·.counters.duplicates) = some 0 := by
    decide +kernel
  have hresumed : (catAndDog.session (some catAndDogCheckpoint)).2.map (·.counters.duplicates) =
      some 1 := by decide +kernel
  have hcheckpoint : lastProgress none [catAndDogCheckpoint] = some catAndDogCheckpoint := rfl
  rw [hs] at hstraight
  rw [← hcheckpoint, hlast] at hresumed
  have hzero : straight.counters.duplicates = 0 := Option.some.inj hstraight
  have hone : last.counters.duplicates = 1 := Option.some.inj hresumed
  rw [hcounters, hzero] at hone
  cases hone

end SampleJob

end HamZaboon
