import HamZaboon.Library.Tiers
import HamZaboon.Precard.AnchorVerdict
import HamZaboon.Precard.Examples

/-! # The examples of an enriched sense

`enrich_item` looks for examples in three tiers: those of the picked sense, those of all
senses of its entries, and the sentences of Tatoeba for the item.  The tiers are merged,
candidates that pass the cloze gates come first, and two are kept.

Only the later tiers are kept free of repeats, and the row names the first tier with an
accepted example, whether or not one of it is kept.  So a sense with a repeated example may
show it twice, and one whose examples all fail the gates is named for examples that come
from elsewhere.  `examples_honest_iff` says when neither happens.
-/

namespace HamZaboon
open Library

/-- The tables, with `int` of a text. -/
structure EnrichText extends GlossText where
  /-- `int(s)`; `none` for the `ValueError`. -/
  intOfStr : String → Option Int

/-- The values of `example_fallback`. -/
inductive ExampleSource
  | sense
  | lemmaLevel
  | pool
  | syntheticNeeded
  deriving DecidableEq, Repr

def ExampleSource.text : ExampleSource → String
  | .sense => "sense"
  | .lemmaLevel => "lemma"
  | .pool => "pool"
  | .syntheticNeeded => "synthetic-needed"

/-- What `enrich_item` says of the examples of a sense. -/
structure EnrichedExamples where
  senseId : String
  datasetExamples : List String
  exampleFallback : ExampleSource
  exampleSyntheticNeeded : Bool
  deriving DecidableEq, Repr

def nExamples : Nat := 2

/-! ## The tiers -/

section Tiers
variable (py : EnrichText)

def senseExampleTexts (sense : KaikkiSense) : List String :=
  sense.examples.filterMap fun raw =>
    let cand := match raw with
      | .text s => some s
      | .record text => text
    (cand.map py.strip).filter (· ≠ "")

/-- The examples of all senses of the entries that can be read. -/
def entryExampleTexts (d : Dictionary) (rows : List IndexRow) : List String :=
  rows.flatMap fun row => (d.read row).elim [] fun entry => entry.senses.flatMap (senseExampleTexts py)

def lemmaFallbackExamples (d : Dictionary) (rows : List IndexRow) (seen : List String)
    (keep : String → Bool) : List String :=
  addNew [] (((entryExampleTexts py d rows).filter keep).filter (· ∉ seen))

def tatoebaCandidates (pool : String → Option (List String)) (text kind : String) : List String :=
  let key := wordKey py.toGlossText text
  if key = "" then []
  else
    match pool key with
    | some texts => texts
    | none =>
      if kind = "phrase" then
        (longestTokens py.toGlossText key).flatMap fun token => (pool token).getD []
      else []

def preferClozePassing (passes : String → Bool) (candidates : List String) (limit : Nat) :
    List String :=
  (prefer passes (candidates.filter fun cand => py.strip cand ≠ "")).take limit

/-- `int(sid.split("#")[-1])`. -/
def wantIndex (sid : String) : Option Int :=
  py.intOfStr (String.ofList (sid.toList.rtakeWhile (· ≠ '#')))

/-- `sid.rpartition("#")[0]`, and an empty text for an id without `#`. -/
def pickWord (sid : String) : String := String.ofList (sid.toList.rdropWhile (· ≠ '#')).dropLast

end Tiers

/-! ## One item -/

/-- What the examples of a pick are made from. -/
structure EnrichInput (F : Type) where
  py : EnrichText
  scorer : Scorer F
  index : Dictionary
  tatoeba : String → Option (List String)
  /-- The frequencies of words that are known. -/
  zipf : String → Option ℚ
  item : AnchorItem
  /-- The sense id of the pick; empty for a pick without one. -/
  senseId : String

namespace EnrichInput
variable {F : Type} (e : EnrichInput F)

/-- `item.get("kind") or "word"`. -/
def kind : String := if e.item.kind = "" then "word" else e.item.kind

/-- The rows of the pick and the parts of speech for them; of the id only the word counts. -/
def entries : List IndexRow × List String :=
  resolvePickEntries e.py.toGlossText e.index e.item ⟨pickWord e.senseId, 0⟩

def pickedSense : Option KaikkiSense := do
  let want ← wantIndex e.py e.senseId
  let word := wordKey e.py.toGlossText (pickWord e.senseId)
  let scored := scoreSenses e.py.toGlossText e.scorer e.index
    (if word = "" then e.item.text else word) e.entries.1 e.entries.2
  (scored.find? fun t => (t.index : Int) = want).map (·.sense)

/-- `_q3_keep`. -/
def keep (text : String) : Bool :=
  exampleAccepted e.py.toGlossText text e.item.text e.kind e.item.poolLevel

/-- `cloze_check_example` finds nothing. -/
def passes (text : String) : Bool :=
  (clozeCheckExample e.py.toGlossText e.zipf text e.item.text e.kind e.item.poolLevel).isNone

def senseTexts : List String := (e.pickedSense.elim [] (senseExampleTexts e.py)).filter e.keep

def lemmaTexts : List String := lemmaFallbackExamples e.py e.index e.entries.1 e.senseTexts e.keep

/-- `extra`. -/
def poolTexts : List String := (tatoebaCandidates e.py e.tatoeba e.item.text e.kind).filter e.keep

def candidates : List String := addNew (addNew e.senseTexts e.lemmaTexts) e.poolTexts

def enrichItem : EnrichedExamples :=
  if e.senseId = "" then ⟨"", [], .syntheticNeeded, true⟩
  else
    let picked := (preferClozePassing e.py e.passes e.candidates nExamples).take nExamples
    { senseId := e.senseId
      datasetExamples := picked
      exampleFallback :=
        if e.senseTexts ≠ [] then .sense
        else if e.lemmaTexts ≠ [] then .lemmaLevel
        else if e.poolTexts.filter (· ∈ e.candidates) ≠ [] then .pool
        else .syntheticNeeded
      exampleSyntheticNeeded := picked = [] }

/-! ## Honest examples -/

def accepted : ExampleSource → List String
  | .sense => e.senseTexts
  | .lemmaLevel => (entryExampleTexts e.py e.index e.entries.1).filter e.keep
  | .pool => e.poolTexts
  | .syntheticNeeded => []

/-- The examples are few, distinct, accepted and the best there are, and the row says where
one of them is from. -/
structure Honest (row : EnrichedExamples) : Prop where
  few : row.datasetExamples.length ≤ nExamples
  distinct : row.datasetExamples.Nodup
  accepted : ∀ text ∈ row.datasetExamples, e.keep text = true
  best : (∃ text ∈ row.datasetExamples, e.passes text = false) →
    ∀ tier, ∀ cand ∈ e.accepted tier, e.passes cand = true → cand ∈ row.datasetExamples
  synthetic : row.exampleSyntheticNeeded = true ↔ ∀ tier, e.accepted tier = []
  attributed : row.exampleSyntheticNeeded = false →
    ∃ text ∈ row.datasetExamples, text ∈ e.accepted row.exampleFallback

def firstTier : Option ExampleSource :=
  [.sense, .lemmaLevel, .pool].find? fun tier => e.accepted tier ≠ []

def passing : Nat := (e.candidates.filter e.passes).length

/-- The sense does not repeat an example in the places that may be its own, and the first tier
gets one of the places. -/
structure GetsItsPlace : Prop where
  passing_distinct : ((e.senseTexts.filter e.passes).take nExamples).Nodup
  failing_distinct :
    ((e.senseTexts.filter fun text => !e.passes text).take (nExamples - e.passing)).Nodup
  first : ∀ tier, e.firstTier = some tier →
    (∃ text ∈ e.accepted tier, e.passes text = true) ∨ e.passing < nExamples

variable {e}

@[simp] theorem accepted_sense : e.accepted .sense = e.senseTexts := rfl

@[simp] theorem accepted_pool : e.accepted .pool = e.poolTexts := rfl

theorem mem_lemmaTexts {text : String} :
    text ∈ e.lemmaTexts ↔ text ∈ e.accepted .lemmaLevel ∧ text ∉ e.senseTexts := by
  simp [lemmaTexts, lemmaFallbackExamples, accepted, mem_addNew, and_assoc, and_comm]

theorem nodup_lemmaTexts : e.lemmaTexts.Nodup := nodup_addNew .nil

theorem mem_candidates {text : String} :
    text ∈ e.candidates ↔ ∃ tier, text ∈ e.accepted tier := by
  rw [candidates, mem_addNew, mem_addNew, mem_lemmaTexts]
  constructor
  · rintro ((h | h) | h)
    · exact ⟨.sense, h⟩
    · exact ⟨.lemmaLevel, h.1⟩
    · exact ⟨.pool, h⟩
  · rintro ⟨tier, h⟩
    cases tier with
    | sense => exact .inl (.inl h)
    | lemmaLevel =>
      by_cases hsense : text ∈ e.senseTexts
      · exact .inl (.inl hsense)
      · exact .inl (.inr ⟨h, hsense⟩)
    | pool => exact .inr h
    | syntheticNeeded => cases h

theorem keep_of_mem_candidates {text : String} (h : text ∈ e.candidates) : e.keep text = true := by
  obtain ⟨tier, htier⟩ := mem_candidates.mp h
  cases tier with
  | sense => exact List.of_mem_filter htier
  | lemmaLevel => exact List.of_mem_filter htier
  | pool => exact List.of_mem_filter htier
  | syntheticNeeded => cases htier

theorem candidates_eq_nil_iff : e.candidates = [] ↔ ∀ tier, e.accepted tier = [] := by
  simp only [List.eq_nil_iff_forall_not_mem, mem_candidates, not_exists]
  exact forall_comm

theorem exists_later (e : EnrichInput F) : ∃ later : List String,
    e.candidates = e.senseTexts ++ later ∧ later.Nodup ∧ ∀ text ∈ later, text ∉ e.senseTexts := by
  obtain ⟨later, heq, hnodup, hmem⟩ := addNew_eq e.senseTexts (e.lemmaTexts ++ e.poolTexts)
  rw [addNew_append] at heq
  exact ⟨later, heq, hnodup, fun text h => ((hmem text).mp h).2⟩

theorem picked_eq : (preferClozePassing e.py e.passes e.candidates nExamples).take nExamples =
    (prefer e.passes e.candidates).take nExamples := by
  have hall : (e.candidates.filter fun cand => e.py.strip cand ≠ "") = e.candidates := by
    refine List.filter_eq_self.mpr fun text h => ?_
    have hkeep := keep_of_mem_candidates h
    simp only [keep, exampleAccepted, Bool.and_eq_true] at hkeep
    exact hkeep.1.1.1.1
  rw [preferClozePassing, hall, List.take_take, min_self]

theorem lemmaTexts_eq_nil_iff (hsense : e.senseTexts = []) :
    e.lemmaTexts = [] ↔ e.accepted .lemmaLevel = [] := by
  simp [List.eq_nil_iff_forall_not_mem, mem_lemmaTexts, hsense]

theorem exists_front {tier : ExampleSource} (h : e.firstTier = some tier) :
    ∃ front later, e.candidates = front ++ later ∧ front ≠ [] ∧
      ∀ text, text ∈ front ↔ text ∈ e.accepted tier := by
  simp only [firstTier, List.find?_cons, List.find?_nil] at h
  by_cases hsense : e.senseTexts = []
  · by_cases hlemma : e.accepted .lemmaLevel = []
    · by_cases hpool : e.poolTexts = []
      · simp [hsense, hlemma, hpool] at h
      · obtain rfl : ExampleSource.pool = tier := by simpa [hsense, hlemma, hpool] using h
        refine ⟨e.candidates, [], (List.append_nil _).symm, ?_, fun text => ?_⟩
        · rw [Ne, candidates_eq_nil_iff]
          exact fun hall => hpool (hall .pool)
        · rw [candidates, hsense, (lemmaTexts_eq_nil_iff hsense).mpr hlemma, mem_addNew]
          simp [accepted, addNew]
    · obtain rfl : ExampleSource.lemmaLevel = tier := by simpa [hsense, hlemma] using h
      obtain ⟨later, heq, -, -⟩ := addNew_eq e.lemmaTexts e.poolTexts
      refine ⟨e.lemmaTexts, later, ?_, mt (lemmaTexts_eq_nil_iff hsense).mp hlemma, fun text => ?_⟩
      · rw [candidates, hsense, addNew_of_nodup nodup_lemmaTexts (by simp), List.nil_append, heq]
      · rw [mem_lemmaTexts, hsense]
        simp
  · obtain rfl : ExampleSource.sense = tier := by simpa [hsense] using h
    obtain ⟨later, heq, -, -⟩ := e.exists_later
    exact ⟨e.senseTexts, later, heq, hsense, fun _ => Iff.rfl⟩

theorem exists_picked_iff {tier : ExampleSource} (h : e.firstTier = some tier) :
    (∃ text ∈ (prefer e.passes e.candidates).take nExamples, text ∈ e.accepted tier) ↔
      (∃ text ∈ e.accepted tier, e.passes text = true) ∨ e.passing < nExamples := by
  obtain ⟨front, later, heq, hne, hmem⟩ := exists_front h
  have hplace := exists_mem_take_prefer (r := later) e.passes hne (show 0 < nExamples by decide)
  simp only [← heq, hmem] at hplace
  exact hplace

/-! ## The law -/

theorem enrichItem_of_unlinked (h : e.senseId = "") :
    e.enrichItem = ⟨"", [], .syntheticNeeded, true⟩ := if_pos h

theorem honest_of_unlinked (h : e.senseId = "") :
    e.Honest e.enrichItem ↔ ∀ tier, e.accepted tier = [] := by
  rw [enrichItem_of_unlinked h]
  constructor
  · exact fun hhonest => hhonest.synthetic.mp rfl
  · exact fun hall => ⟨Nat.zero_le _, .nil, nofun, nofun, ⟨fun _ => hall, fun _ => rfl⟩, nofun⟩

theorem exampleFallback_eq (h : e.senseId ≠ "") :
    e.enrichItem.exampleFallback = e.firstTier.getD .syntheticNeeded := by
  have hpool : e.poolTexts.filter (· ∈ e.candidates) = e.poolTexts :=
    List.filter_eq_self.mpr fun text htext => by simpa using mem_candidates.mpr ⟨.pool, htext⟩
  simp only [enrichItem, if_neg h, hpool, firstTier, List.find?_cons, List.find?_nil]
  by_cases hsense : e.senseTexts = []
  · by_cases hlemma : e.accepted .lemmaLevel = []
    · by_cases hnone : e.poolTexts = [] <;>
        simp [hsense, hlemma, hnone, (lemmaTexts_eq_nil_iff hsense).mpr hlemma]
    · simp [hsense, hlemma, mt (lemmaTexts_eq_nil_iff hsense).mp hlemma]
  · simp [hsense]

theorem datasetExamples_eq (h : e.senseId ≠ "") :
    e.enrichItem.datasetExamples = (prefer e.passes e.candidates).take nExamples := by
  rw [enrichItem, if_neg h, ← picked_eq]

theorem synthetic_iff (h : e.senseId ≠ "") :
    e.enrichItem.exampleSyntheticNeeded = true ↔ ∀ tier, e.accepted tier = [] := by
  have hpicked : e.enrichItem.exampleSyntheticNeeded = decide (e.enrichItem.datasetExamples = []) := by
    rw [enrichItem, if_neg h]
  rw [hpicked, decide_eq_true_eq, datasetExamples_eq h, ← candidates_eq_nil_iff, List.take_eq_nil_iff,
    or_iff_right (by decide : nExamples ≠ 0)]
  simp only [List.eq_nil_iff_forall_not_mem, mem_prefer]

theorem firstTier_isSome_iff : e.firstTier.isSome = true ↔ ¬ ∀ tier, e.accepted tier = [] := by
  rw [firstTier, List.find?_isSome]
  constructor
  · rintro ⟨tier, -, hne⟩ hall
    simp [hall tier] at hne
  · intro hne
    obtain ⟨tier, htier⟩ := not_forall.mp hne
    refine ⟨tier, ?_, by simpa using htier⟩
    cases tier with
    | syntheticNeeded => exact absurd rfl htier
    | _ => decide

theorem honest_of_linked (h : e.senseId ≠ "") : e.Honest e.enrichItem ↔ e.GetsItsPlace := by
  obtain ⟨later, heq, hnodup, hnew⟩ := e.exists_later
  have hdistinct := nodup_take_prefer e.passes (n := nExamples) hnodup hnew
  rw [← heq] at hdistinct
  constructor
  · intro hhonest
    have hpart := hhonest.distinct
    rw [datasetExamples_eq h, hdistinct] at hpart
    refine ⟨hpart.1, hpart.2, fun tier hfirst => (exists_picked_iff hfirst).mp ?_⟩
    have hneeded : e.enrichItem.exampleSyntheticNeeded = false := by
      rw [← Bool.not_eq_true, synthetic_iff h, ← firstTier_isSome_iff, hfirst]
      rfl
    obtain ⟨text, hpicked, hfrom⟩ := hhonest.attributed hneeded
    rw [datasetExamples_eq h] at hpicked
    rw [exampleFallback_eq h, hfirst] at hfrom
    exact ⟨text, hpicked, hfrom⟩
  · intro hplace
    refine ⟨?_, ?_, fun text htext => ?_, ?_, synthetic_iff h, fun hneeded => ?_⟩
    · rw [datasetExamples_eq h]
      exact List.length_take_le _ _
    · rw [datasetExamples_eq h]
      exact hdistinct.mpr ⟨hplace.passing_distinct, hplace.failing_distinct⟩
    · rw [datasetExamples_eq h] at htext
      exact keep_of_mem_candidates (mem_prefer.mp (List.mem_of_mem_take htext))
    · rw [datasetExamples_eq h]
      rintro ⟨text, htext, hfails⟩ tier cand hcand hpasses
      exact mem_take_prefer_of_lt (length_lt_of_mem_take_prefer htext hfails)
        (mem_candidates.mpr ⟨tier, hcand⟩) hpasses
    · have hsome : e.firstTier.isSome = true := by
        rw [firstTier_isSome_iff, ← synthetic_iff h, hneeded]
        decide
      obtain ⟨tier, hfirst⟩ := Option.isSome_iff_exists.mp hsome
      obtain ⟨text, hpicked, hfrom⟩ := (exists_picked_iff hfirst).mpr (hplace.first tier hfirst)
      rw [datasetExamples_eq h, exampleFallback_eq h, hfirst]
      exact ⟨text, hpicked, hfrom⟩

/-- **The examples of a row are what it says of them exactly when** the sense does not repeat
one in the places it may get, and the first tier gets a place; and, for a pick without a
sense, when there is nothing to show. -/
theorem examples_honest_iff : e.Honest e.enrichItem ↔
    (e.senseId = "" → ∀ tier, e.accepted tier = []) ∧ (e.senseId ≠ "" → e.GetsItsPlace) := by
  by_cases h : e.senseId = ""
  · simp only [honest_of_unlinked h, h, true_implies, ne_eq, not_true_eq_false, false_implies, and_true]
  · simp only [honest_of_linked h, h, false_implies, ne_eq, not_false_eq_true, true_implies, true_and]

end EnrichInput

/-! ## A sense with an example twice -/

/-- The tables on ASCII texts, with `int` of digits. -/
def EnrichText.ascii : EnrichText where
  toGlossText := .ascii
  intOfStr s :=
    if s ≠ "" ∧ s.toList.all Char.isDigit then
      some (s.toList.foldl (fun n c => 10 * n + (c.toNat - '0'.toNat)) 0 : Nat)
    else none

def nounWithExamples (word gloss : String) (examples : List String) : Dictionary where
  index key := if key = word then some [⟨"noun", 0⟩] else none
  read _ := some ⟨"noun", [{ plainSense gloss with examples := examples.map .text }]⟩

/-- The noun, picked in its only sense, which has an example twice. -/
def repeatedDog : EnrichInput Int where
  py := .ascii
  scorer := tenThousandths
  index := nounWithExamples "dog" "A mammal." ["Her brown dog chased another animal.",
    "Her brown dog chased another animal.", "That hungry dog found some bread."]
  tatoeba _ := none
  zipf _ := none
  item := nounItem "dog"
  senseId := "dog#0"

theorem repeated_example_is_shown_twice : ¬ repeatedDog.Honest repeatedDog.enrichItem :=
  fun h => absurd h.distinct (by decide +kernel)

end HamZaboon
