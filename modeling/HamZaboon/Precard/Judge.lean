import Mathlib.Data.List.Basic
import Mathlib.Logic.Function.Basic

/-! # The sense judge

The items of a sample and what `judge.py` makes of the judge's replies: the
fallback to the first candidate of the anchor, and the veto that takes a pick of
a mere inflection to the first candidate that is none.  Which glosses are
inflections is a parameter.
-/

namespace HamZaboon

def maxFanout : Nat := 4

structure SampleItem where
  kind : String
  text : String
  deriving DecidableEq, Repr

def sourceItemKey (item : SampleItem) : String :=
  (if item.kind = "word" then "w:" else "p:") ++ item.text

/-- A candidate of the anchor, or a pick of the judge. -/
structure SensePick where
  senseId : String
  gloss : String
  deriving DecidableEq, Repr

/-- An entry of the `sense_judge` stage. -/
structure JudgeEntry where
  senseId : String
  gloss : String
  picks : List SensePick
  model : String
  deriving DecidableEq, Repr

/-- `arbiter_fallback`, on the candidates of the anchor. -/
def arbiterFallback : List SensePick → JudgeEntry
  | [] => ⟨"", "", [], "s1-fallback-empty"⟩
  | first :: _ => ⟨first.senseId, first.gloss, [first], "s1-fallback"⟩

section Veto
variable (isStub : String → Bool) (candidates : List SensePick)

def vetoInflectionPick (pick : SensePick) : SensePick :=
  if pick.senseId = "" ∨ pick.gloss = "" ∨ isStub pick.gloss = false then pick
  else
    match candidates.find? fun c => c.senseId ≠ "" ∧ isStub c.gloss = false with
    | some c => c
    | none => pick

/-- The picks of an entry, each sense once. -/
def vetoPicks (picks : List SensePick) : List SensePick :=
  picks.foldl (fun vetoed pick =>
    let veto := vetoInflectionPick isStub candidates pick
    if vetoed.any (·.senseId = veto.senseId) then vetoed else vetoed ++ [veto]) []

/-- `apply_inflection_veto`, for one entry. -/
def applyInflectionVeto (entry : JudgeEntry) : JudgeEntry :=
  match vetoPicks isStub candidates entry.picks with
  | [] =>
    let veto := vetoInflectionPick isStub candidates ⟨entry.senseId, entry.gloss⟩
    { entry with senseId := veto.senseId, gloss := veto.gloss }
  | first :: rest =>
    { entry with senseId := first.senseId, gloss := first.gloss, picks := first :: rest }

/-- What `arbiter_batch` returns for an item of a rejected batch. -/
def vetoedFallback : JudgeEntry :=
  applyInflectionVeto isStub candidates (arbiterFallback candidates)

end Veto

end HamZaboon
