import HamZaboon.Library.Ranking
import HamZaboon.Precard.Glosses
import HamZaboon.Precard.Judge

/-! # The anchor of an item

`anchor.py`: the senses of an item's dictionary entries are scored, the first one anchors
the item, and a window of them goes to the judge.  A gloss that only refers to another
word anchors the item at that word.

The scores are floating-point numbers, and their comparison is no order: `list.sort` may
bring the senses into any arrangement.
-/

namespace HamZaboon
open Library

/-! ## The dictionary -/

/-- An example of a sense, which may be a text or a record with one. -/
inductive KaikkiExample
  | text (s : String)
  | record (text : Option String)
  deriving DecidableEq, Repr

structure KaikkiSense where
  glosses : List String
  tags : List String
  /-- The words of `form_of`. -/
  formOf : List String
  synonyms : List String
  examples : List KaikkiExample
  deriving DecidableEq, Repr

structure KaikkiEntry where
  pos : String
  senses : List KaikkiSense
  deriving DecidableEq, Repr

/-- A row of the index: the part of speech and the place of an entry. -/
structure IndexRow where
  pos : String
  place : Nat
  deriving DecidableEq, Repr

/-- The index and the file behind it; none for an entry that cannot be read. -/
structure Dictionary where
  index : String → Option (List IndexRow)
  read : IndexRow → Option KaikkiEntry

/-- `index.get(key, [])`. -/
def Dictionary.rows (d : Dictionary) (key : String) : List IndexRow := (d.index key).getD []

/-- `<word>#<file-order index>`. -/
structure SenseId where
  word : String
  index : Nat
  deriving DecidableEq, Repr

def SenseId.text (id : SenseId) : String := id.word ++ "#" ++ toString id.index

/-- An item of the sample, with the parts of speech and the level of its pool. -/
structure AnchorItem extends SampleItem where
  pos : List String
  poolLevel : String
  deriving DecidableEq, Repr

/-! ## Scores -/

structure GlossedSense where
  entryPos : String
  entry : KaikkiEntry
  sense : KaikkiSense
  gloss : String
  deriving DecidableEq, Repr

structure ScoredSense (F : Type) where
  score : F
  index : Nat
  entry : KaikkiEntry
  sense : KaikkiSense
  gloss : String
  freq : F
  isMeta : Bool
  isStub : Bool
  deriving DecidableEq, Repr

/-- The floating-point side of the scores, and `list.sort` under a comparison. -/
structure Scorer (F : Type) where
  /-- `_decay_prescore`, the register penalty and the factor of the parts of speech in. -/
  prescore : Nat → GlossedSense → String → F
  /-- `_freq_norm` of the senses of a lemma, at an index. -/
  freqNorm : String → List GlossedSense → Nat → F
  /-- `abs(a - b) >= FREQ_TIE_EPS`. -/
  apart : F → F → Bool
  /-- `abs(a - b) >= 1e-12`. -/
  uneven : F → F → Bool
  /-- `a > b`. -/
  above : F → F → Bool
  sort : (ScoredSense F → ScoredSense F → Int) → List (ScoredSense F) → List (ScoredSense F)
  sort_perm : ∀ cmp l, (sort cmp l).Perm l

section Scores
variable (py : GlossText) {F : Type} (scorer : Scorer F) (d : Dictionary)

def posAliases : List (String × String) :=
  [("adjective", "adj"), ("adverb", "adv"), ("preposition", "prep"), ("prep_phrase", "prep"),
    ("pronoun", "pron"), ("conjunction", "conj"), ("determiner", "det"), ("number", "num")]

/-- `normalize_pos` of a text. -/
def normalizePos (pos : String) : String :=
  let key := py.casefold (py.strip pos)
  (posAliases.lookup key).getD key

/-- `normalize_pos` of the parts of speech of a pool, of which the first counts. -/
def normalizePool (pool : List String) : String := normalizePos py (pool.headD "")

def normalizeTags (tags : List String) : List String :=
  ((tags.filter fun t => py.strip t ≠ "").map fun t => py.casefold (py.strip t)).dedup

def isFormofSense (sense : KaikkiSense) : Bool :=
  "form-of" ∈ normalizeTags py sense.tags || !sense.formOf.isEmpty

def isStubSense (sense : KaikkiSense) (gloss : String) : Bool :=
  isFormofSense py sense || isInflectionGloss py.toPyText gloss ||
    isSuperlativeGloss py.toPyText gloss

def entrySenses (row : IndexRow) (entry : KaikkiEntry) : List GlossedSense :=
  entry.senses.filterMap fun sense =>
    ((sense.glosses.map py.strip).find? (· ≠ "")).map fun gloss =>
      ⟨if entry.pos = "" then row.pos else entry.pos, entry, sense, gloss⟩

def collectKaikkiSenses (rows : List IndexRow) : List GlossedSense :=
  rows.flatMap fun row =>
    match d.read row with
    | none => []
    | some entry => entrySenses py row entry

/-- `_cmp` of `score_senses`. -/
def compareScored (a b : ScoredSense F) : Int :=
  let ad := a.isMeta || a.isStub
  let bd := b.isMeta || b.isStub
  if ad ≠ bd then if ad then 1 else -1
  else if scorer.apart a.score b.score then if scorer.above a.score b.score then -1 else 1
  else if scorer.uneven a.freq b.freq then if scorer.above a.freq b.freq then -1 else 1
  else if a.index ≠ b.index then if a.index < b.index then -1 else 1
  else 0

def scoredInFileOrder (text : String) (rows : List IndexRow) (pool : List String) :
    List (ScoredSense F) :=
  let senses := collectKaikkiSenses py d rows
  senses.zipIdx.map fun (s, index) =>
    ⟨scorer.prescore index s (normalizePool py pool), index, s.entry, s.sense, s.gloss,
      scorer.freqNorm (py.strip text) senses index, isMetaGloss py s.gloss,
      isStubSense py s.sense s.gloss⟩

def scoreSenses (text : String) (rows : List IndexRow) (pool : List String) :
    List (ScoredSense F) :=
  scorer.sort (compareScored scorer) (scoredInFileOrder py scorer d text rows pool)

/-! ## The window -/

/-- `_pos_of`. -/
def scoredPos (t : ScoredSense F) : String := normalizePos py t.entry.pos

def candidateBucketCap (poolLevel : String) : Nat :=
  if py.upper (py.strip poolLevel) ∈ ["A1", "A2"] then 6 else 10

/-- `live`, or all senses where there is none. -/
def liveSenses (scored : List (ScoredSense F)) : List (ScoredSense F) :=
  if (scored.filter (!·.isStub)).isEmpty then scored else scored.filter (!·.isStub)

/-- The senses of the bucket, in the order of the scores. -/
def bucketWindow (bucket : Nat) (scored : List (ScoredSense F)) : List (ScoredSense F) :=
  let ids := ((sortBy (·.index) scored).take bucket).map (·.index)
  let window := scored.filter (·.index ∈ ids)
  if window.isEmpty then scored else window

/-- The bucket, or all senses where none of the bucket has a wanted part of speech. -/
def widenWindow (want : String) (scored window : List (ScoredSense F)) : List (ScoredSense F) :=
  if want ≠ "" ∧ ¬ window.any (fun t => scoredPos py t = want) then scored else window

/-- The first sense of each part of speech that the window lacks. -/
def coverPos (scored window : List (ScoredSense F)) : List (ScoredSense F) :=
  ((scored.map (scoredPos py)).filter (· ≠ "")).foldl (fun window pos =>
    if window.any (fun t => scoredPos py t = pos) then window
    else window ++ (scored.find? fun t => scoredPos py t = pos).toList) window

/-- The first sense of each index. -/
def distinctSenses (window : List (ScoredSense F)) : List (ScoredSense F) :=
  window.foldl (fun out t => if t.index ∈ out.map (·.index) then out else out ++ [t]) []

def selectCandidateWindow (scored : List (ScoredSense F)) (pool : List String) (poolLevel : String)
    (cap : Nat) : List (ScoredSense F) :=
  let scored := liveSenses scored
  let window := bucketWindow (candidateBucketCap py poolLevel) scored
  let window := widenWindow py (if pool = [] then "" else normalizePool py pool) scored window
  let window := coverPos py scored window
  (sortBy (fun t => scored.findIdx (·.index = t.index)) (distinctSenses window)).take cap

def judgeWindowCap : Nat := 10

/-- `top_sense_candidates` of the width of the judge's window. -/
def topSenseCandidates (text : String) (rows : List IndexRow) (pool : List String)
    (poolLevel : String) : List (ScoredSense F) :=
  selectCandidateWindow py (scoreSenses py scorer d text rows pool) pool poolLevel judgeWindowCap

/-! ## The anchor -/

/-- What `pick_anchor_sense_full` returns. -/
structure AnchorPick where
  id : SenseId
  gloss : String
  sense : KaikkiSense
  entry : KaikkiEntry
  deriving DecidableEq, Repr

def pickOf (key : String) (t : ScoredSense F) : AnchorPick := ⟨⟨key, t.index⟩, t.gloss, t.sense, t.entry⟩

def wordKey (text : String) : String := py.lower (py.strip text)

def firstToken (key : String) : String :=
  (((key.toList.splitOnP py.isSpace).filter (· ≠ [])).map String.ofList).headD ""

/-- The key of the rows of a target: the target as a whole, or its first word. -/
def targetKey (target : String) : String :=
  if (d.index (wordKey py target)).isSome then wordKey py target
  else firstToken py (wordKey py target)

def targetRows (target : String) : List IndexRow :=
  if target = "" then [] else d.rows (targetKey py d target)

/-- `resolve_xref_anchor`: one step, and to no other cross-reference. -/
def resolveXrefAnchor (target : String) (pool : List String) : Option AnchorPick :=
  let rows := targetRows py d target
  if rows = [] then none
  else
    match scoreSenses py scorer d (targetKey py d target) rows pool with
    | [] => none
    | t :: _ =>
      if (detectXref py.toPyText t.gloss).isSome then none else some (pickOf (targetKey py d target) t)

/-- `pick_anchor_sense_full`, with the index where cross-references are resolved. -/
def pickAnchorSenseFull (resolve : Bool) (text : String) (rows : List IndexRow)
    (pool : List String) : Option AnchorPick :=
  (scoreSenses py scorer d text rows pool).head?.map fun t =>
    match if resolve then detectXref py.toPyText t.gloss else none with
    | none => pickOf (wordKey py text) t
    | some target => (resolveXrefAnchor py scorer d target pool).getD (pickOf (wordKey py text) t)

/-- `sorted(set(key.split()), key=lambda t: (-len(t), t))`. -/
def longestTokens (key : String) : List String :=
  let tokens := (((key.toList.splitOnP py.isSpace).filter (· ≠ [])).map String.ofList).dedup
  tokens.insertionSort fun a b => b.length < a.length ∨ (a.length = b.length ∧ a ≤ b)

/-- The rows that an item is anchored in: those of its text, or of the first of its words
that has an anchor. -/
def anchorRows (item : AnchorItem) : List IndexRow × List String :=
  let key := wordKey py item.text
  if item.kind = "word" then (d.rows key, item.pos)
  else
    match d.index key with
    | some rows => (rows, [])
    | none =>
      let found := (longestTokens py key).find? fun token =>
        (pickAnchorSenseFull py scorer d true (py.strip item.text) (d.rows token) []).any
          (·.gloss ≠ "")
      (found.elim [] d.rows, [])

/-- What `anchor_item_en` finds. -/
structure AnchorProbe (F : Type) where
  pick : Option AnchorPick
  /-- `xref_resolved_from` is set. -/
  resolved : Bool
  xrefUnresolvable : Bool
  window : List (ScoredSense F)
  /-- The word of the ids of the window. -/
  word : String

/-- `anchor_item_en`, at the width of the judge's window. -/
def anchorItemEn (item : AnchorItem) : AnchorProbe F :=
  let text := py.strip item.text
  let (rows, pool) := anchorRows py scorer d item
  let pick := pickAnchorSenseFull py scorer d true text rows pool
  let idWord := (pick.map (·.id.word)).getD ""
  let level := if item.poolLevel = "" then "A1" else item.poolLevel
  if idWord ≠ "" ∧ idWord ≠ py.lower text then
    { pick
      resolved := true
      xrefUnresolvable := false
      window := topSenseCandidates py scorer d idWord (targetRows py d idWord) pool level
      word := wordKey py idWord }
  else
    { pick
      resolved := false
      xrefUnresolvable := pick.any fun p => (detectXref py.toPyText p.gloss).isSome
      window := topSenseCandidates py scorer d text rows pool level
      word := wordKey py text }

/-! ## The ranked entry -/

def entriesFor (item : AnchorItem) : List IndexRow × List String :=
  let key := wordKey py item.text
  if item.kind = "" ∨ item.kind = "word" then (d.rows key, item.pos)
  else
    match d.index key with
    | some rows => (rows, [])
    | none => ((((longestTokens py key).map d.rows).find? (· ≠ [])).getD [], [])

/-- The part of speech of an entry, as it is compared. -/
def entryPosText (entry : KaikkiEntry) : String := py.casefold (py.strip entry.pos)

/-- `anchor_entry_pos_for_entries`. -/
def anchorEntryPos (text : String) (rows : List IndexRow) (pool : List String) : String :=
  ((pickAnchorSenseFull py scorer d false text rows pool).map (entryPosText py ·.entry)).getD ""

/-- A candidate of the judge, or a top. -/
structure AnchorTop where
  id : SenseId
  gloss : String
  deriving DecidableEq, Repr

/-- What `anchor_rank_item` returns. -/
structure Ranked where
  candidates : List AnchorTop
  top : Option AnchorTop
  enDef : String
  anchorPos : String
  anchorTags : List String
  xrefUnresolvable : Bool
  deriving DecidableEq, Repr

def AnchorProbe.candidates (probe : AnchorProbe F) : List AnchorTop :=
  probe.window.map fun t => ⟨⟨probe.word, t.index⟩, t.gloss⟩

def anchorRankItem (item : AnchorItem) : Ranked :=
  let probe := anchorItemEn py scorer d item
  let (rows, pool) := entriesFor py d item
  let probePos := (probe.pick.map (entryPosText py ·.entry)).getD ""
  { candidates := probe.candidates
    top := probe.candidates.head?
    enDef := (probe.pick.map (·.gloss)).getD ""
    anchorPos := if probePos = "" then anchorEntryPos py scorer d item.text rows pool else probePos
    anchorTags := (probe.pick.map (normalizeTags py ·.sense.tags)).getD []
    xrefUnresolvable := probe.xrefUnresolvable }

end Scores

end HamZaboon
