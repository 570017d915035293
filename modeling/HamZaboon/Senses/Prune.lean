import HamZaboon.Library.GroupSum
import HamZaboon.Library.Screening
import HamZaboon.Senses.Sense
import Mathlib.Data.Prod.Lex
import Mathlib.Data.String.Basic

/-! # The pruning of senses

`prune_senses` of `factory/precard/prune.py`: proper nouns, dead and referential
senses and niche senses are dropped, then of the senses with one gloss the one
with the richest examples is kept and takes over the topics and categories of
the others; last, dialectal senses are flagged.
-/

namespace HamZaboon
open Library

/-- The row `_drop` gives a dropped sense. -/
structure SenseDrop where
  senseId : String
  reason : String
  gloss : String
  deriving DecidableEq, Repr

abbrev SensePair := String × JsonValue

/-- `stats`; the counts stand in the order of what is counted. -/
structure PruneStats where
  total : Nat
  kept : Nat
  dropped : Nat
  topicsSeen : List (String × Nat)
  reasonCounts : List (String × Nat)
  withExample : Nat
  zeroExample : Nat
  deriving DecidableEq, Repr

/-- A sense in the twin screen: its position, and its gloss. -/
structure TwinEntry where
  index : Nat
  senseId : String
  sense : JsonValue
  gloss : String

/-- What the entries of a cluster are ranked by, richest first. -/
def TwinEntry.rank (e : TwinEntry) : OrderDual ((Nat ×ₗ Nat) ×ₗ Int) :=
  OrderDual.toDual (toLex (toLex (PyText.exampleRichness e.sense), -(e.index : Int)))

def twinOfPrefix : String := "twin-of:"

/-- The key a reason is counted under. -/
def reasonBase (reason : String) : String :=
  if twinOfPrefix.toList.isPrefixOf reason.toList then "twin-of" else reason

namespace PyText
variable (py : PyText)

/-! ## The screens -/

/-- `_proper_pairs` on one sense. -/
def properVerdict (pair : SensePair) : Option (Option SenseDrop) := do
  let gloss ← py.senseGloss pair.2
  let acronym ← py.isObscureAcronym pair.2 gloss
  return if acronym then some ⟨pair.1, "DROP_OBSCURE_ACRONYM", gloss⟩
    else if py.posIsName pair.2 then some ⟨pair.1, "DROP_PROPER_NOUN", gloss⟩
    else none

/-- `_hard_pairs` on one sense. -/
def hardVerdict (pair : SensePair) : Option (Option SenseDrop) := do
  let gloss ← py.senseGloss pair.2
  let tags ← py.senseTags pair.2
  return if tags.any (· ∈ py.obsoleteSet) then some ⟨pair.1, "obsolete", gloss⟩
    else if py.isFormofSense pair.2 then some ⟨pair.1, "form-of", gloss⟩
    else if (py.detectXref gloss).isSome then some ⟨pair.1, "xref", gloss⟩
    else none

/-- The topics are there and are niche topics only. -/
def solelyNiche (topics : List String) : Bool := topics ≠ [] && topics.all (· ∈ nicheTopics)

/-- `_niche_pairs` on one sense. -/
def nicheVerdict (pair : SensePair) : Option (Option SenseDrop) := do
  let topics ← py.senseTopics pair.2
  if solelyNiche topics then
    let gloss ← py.senseGloss pair.2
    return some ⟨pair.1, "niche", gloss⟩
  else return none

/-! ## Twins -/

/-- `_union_topics`; the first of `sources` is the winner's value. -/
def unionTopics (sources : List JsonValue) : List JsonValue :=
  let values := sources.flatMap fun source => source.listItems.getD []
  (values.filterMap py.rawText).eraseDups.map .str

/-- The loop of `_union_categories`. -/
def unionCategoryItems (seenValues : List String) (seenBlobs : List JsonValue) :
    List JsonValue → List JsonValue
  | [] => []
  | value :: values =>
    match py.rawText (categoryName value) with
    | some name =>
      if name ∈ seenValues then unionCategoryItems seenValues seenBlobs values
      else value :: unionCategoryItems (name :: seenValues) seenBlobs values
    | none =>
      match value with
      | .str _ => unionCategoryItems seenValues seenBlobs values
      | _ =>
        if seenBlobs.any (value.pyEq ·) then unionCategoryItems seenValues seenBlobs values
        else value :: unionCategoryItems seenValues (value :: seenBlobs) values

def unionCategories (sources : List JsonValue) : List JsonValue :=
  py.unionCategoryItems [] [] (sources.flatMap fun source => source.listItems.getD [])

/-- `s.get(key) if isinstance(s, dict) else None`. -/
def fieldOf (field : String) : JsonValue → JsonValue
  | .obj sense => Dict.get sense field
  | _ => .null

/-- One field of `_twin_union_copy`. -/
def uniteField (field : String) (unite : List JsonValue → List JsonValue) (winner : Dict)
    (losers : List JsonValue) (enriched : Dict) : Dict :=
  let sources := winner.get field :: losers.map (fieldOf field)
  if sources.any (·.listItems.isSome) then enriched.set field (.arr (unite sources)) else enriched

def twinUnionCopy (winner : Dict) (losers : List JsonValue) : Dict :=
  uniteField "categories" py.unionCategories winner losers
    (uniteField "topics" py.unionTopics winner losers winner)

/-- The senses with their positions and glosses. -/
def twinEntries : Nat → List SensePair → Option (List TwinEntry)
  | _, [] => some []
  | index, (sid, sense) :: pairs => do
    let gloss ← py.senseGloss sense
    let entries ← twinEntries (index + 1) pairs
    return ⟨index, sid, sense, gloss⟩ :: entries

/-- The key of a cluster; an empty one is none. -/
def twinKey (e : TwinEntry) : Option String :=
  if py.normalizeGloss e.gloss = "" then none else some (py.normalizeGloss e.gloss)

/-- The clusters of two entries and more, the winner of each apart. -/
def twinContests (entries : List TwinEntry) : List (TwinEntry × List TwinEntry) :=
  contests py.twinKey TwinEntry.rank entries

def dropAt (entries : List TwinEntry) : List (Nat × String) :=
  (py.twinContests entries).flatMap fun c =>
    c.2.map fun loser => (loser.index, twinOfPrefix ++ c.1.senseId)

def unionAt (entries : List TwinEntry) : List (Nat × JsonValue) :=
  (py.twinContests entries).filterMap fun c =>
    match c.1.sense with
    | .obj winner =>
      let losers := (sortBy TwinEntry.index c.2).map TwinEntry.sense
      some (c.1.index, .obj (py.twinUnionCopy winner losers))
    | _ => none

/-- What the loops of `_twins_pairs` give back for the entries. -/
def splitTwins (entries : List TwinEntry) : List SensePair × List SenseDrop :=
  (entries.filterMap fun e =>
      match (py.dropAt entries).lookup e.index with
      | some _ => none
      | none => some (e.senseId, ((py.unionAt entries).lookup e.index).getD e.sense),
    entries.filterMap fun e =>
      ((py.dropAt entries).lookup e.index).map fun reason => ⟨e.senseId, reason, e.gloss⟩)

def twinsPairs (pairs : List SensePair) : Option (List SensePair × List SenseDrop) :=
  (py.twinEntries 0 pairs).map py.splitTwins

/-! ## The chain -/

def pairUp (senses : List JsonValue) (headword : String) : List SensePair :=
  senses.zipIdx.map fun s => (py.senseId s.1 s.2 headword, s.1)

def collectTopicStats (senses : List JsonValue) : Option (List (String × Nat)) :=
  (senses.mapM py.senseTopics).map fun topics => groupAdd [] (topics.flatten.map (·, 1))

/-- The four screens in a row. -/
def pruneChain (pairs : List SensePair) : Option (List SensePair × List SenseDrop) := do
  let (kept, proper) ← screen py.properVerdict pairs
  let (kept, hard) ← screen py.hardVerdict kept
  let (kept, niche) ← screen py.nicheVerdict kept
  let (kept, twins) ← py.twinsPairs kept
  return (kept, proper ++ hard ++ niche ++ twins)

/-- The `stats` of `prune_senses`. -/
def pruneStats (senses kept : List JsonValue) (dropped : List SenseDrop)
    (topicsSeen : List (String × Nat)) : PruneStats :=
  let withExample := (senses.filter fun s => 0 < (exampleRichness s).1).length
  { total := senses.length
    kept := kept.length
    dropped := dropped.length
    topicsSeen := topicsSeen
    reasonCounts := groupAdd [] (dropped.map fun drop => (reasonBase drop.reason, 1))
    withExample := withExample
    zeroExample := senses.length - withExample }

def pruneSenses (senses : List JsonValue) (headword : String) :
    Option (List JsonValue × List SenseDrop × PruneStats) := do
  let topicsSeen ← py.collectTopicStats senses
  let (keptPairs, dropped) ← py.pruneChain (py.pairUp senses headword)
  let kept ← keptPairs.mapM fun pair => py.withDialectalFlags pair.2
  return (kept, dropped, pruneStats senses kept dropped topicsSeen)

end PyText

end HamZaboon
