import HamZaboon.Library.Trim
import HamZaboon.Texts.PyFloat
import Mathlib.Algebra.Order.Ring.Rat
import Mathlib.Data.List.Infix

/-! # The gates of the linker

`factory/linking/gates.py`: three enforcing vetoes and one that is only logged,
over a context of arbitrary values.  Missing and invalid signals are to leave a
row alone.  They do so except where the signal was what kept a veto quiet: the
headword guard of the low-rank veto, a negative count of failed votes, and texts
that are there but hold no gloss (`missing_never_routes_iff`).
-/

namespace HamZaboon
open Library

/-! ## Values -/

inductive PyValue
  | none
  | bool (b : Bool)
  | int (n : Int)
  | float (x : PyFloat)
  | str (s : String)
  | list (items : List PyValue)
  | tuple (items : List PyValue)
  | dict (entries : List (PyValue × PyValue))

/-- What Python makes of texts and numbers. -/
structure GateLib where
  /-- `int(s)`; `none` for the `ValueError`. -/
  intOfStr : String → Option Int
  /-- `float(s)`; `none` for the `ValueError`. -/
  floatOfStr : String → Option PyFloat
  /-- `str` of a value that is no text; `none` for the `ValueError` of an integer
  with too many digits, in the value or inside it. -/
  display : PyValue → Option String
  isSpace : Char → Bool
  lower : String → String
  lower_empty : lower "" = ""

namespace PyValue

/-- `bool(value)`. -/
def truthy : PyValue → Bool
  | .none => false
  | .bool b => b
  | .int n => n ≠ 0
  | .float x => x.truthy
  | .str s => s ≠ ""
  | .list items => !items.isEmpty
  | .tuple items => !items.isEmpty
  | .dict entries => !entries.isEmpty

/-- `value or ""`. -/
def orEmpty (value : PyValue) : PyValue := if value.truthy then value else .str ""

/-- An entry of a dictionary; any other context has none. -/
def get? : PyValue → String → Option PyValue
  | .dict entries, key => entries.findSome? fun
    | (.str k, value) => if k = key then some value else Option.none
    | _ => Option.none
  | _, _ => Option.none

/-- `ctx.get(key)`. -/
def get (ctx : PyValue) (key : String) : PyValue := (ctx.get? key).getD .none

/-- `ctx.get("failed", 0)`. -/
def failed (ctx : PyValue) : PyValue := (ctx.get? "failed").getD (.int 0)

end PyValue

namespace GateLib
variable (lib : GateLib)

/-- `str(value)`. -/
def pyStr : PyValue → Option String
  | .str s => some s
  | value => lib.display value

def strip (s : String) : String := String.ofList (trim lib.isSpace s.toList)

@[simp] theorem strip_empty : lib.strip "" = "" := rfl

/-! ## Coercions -/

/-- From here on `float` of an integer overflows. -/
def floatLimit : Nat := 2 ^ 1024 - 2 ^ 970

/-- The value, where a share can lie. -/
def inUnit : PyFloat → Option ℚ
  | .finite q => if 0 ≤ q ∧ q ≤ 1 then some q else none
  | _ => none

/-- `_as_int`; `none` for the `OverflowError` that it lets through. -/
def asInt : PyValue → Option (Option Int)
  | .bool _ => some none
  | .int n => some (some n)
  | .float x => x.toInt
  | .str s => some (lib.intOfStr s)
  | _ => some none

/-- `_as_float`; `none` for the `OverflowError` that it lets through.  An integer is
rounded only beyond the range. -/
def asFloat : PyValue → Option (Option ℚ)
  | .bool _ => some none
  | .int n => if n.natAbs < floatLimit then some (inUnit (.finite n)) else none
  | .float x => some (inUnit x)
  | .str s => some ((lib.floatOfStr s).bind inUnit)
  | _ => some none

/-- One fire of `_fire_list`. -/
def fireText (fire : PyValue) : Option String := (lib.pyStr fire.orEmpty).map lib.strip

/-- `_fire_list`; `none` where a fire cannot be written out. -/
def fireList : PyValue → Option (List String)
  | .list items => (items.mapM lib.fireText).map fun fires => fires.filter (· ≠ "")
  | .tuple items => (items.mapM lib.fireText).map fun fires => fires.filter (· ≠ "")
  | _ => some []

/-! ## The gloss in the evidence -/

/-- `re.sub(r"\([^)]*\)", " ", text)`: `pending` holds the text from an open
parenthesis on, in reverse. -/
def dropParens : Option (List Char) → List Char → List Char
  | none, [] => []
  | some pending, [] => pending.reverse
  | none, c :: rest => if c = '(' then dropParens (some ['(']) rest else c :: dropParens none rest
  | some pending, c :: rest =>
      if c = ')' then ' ' :: dropParens none rest else dropParens (some (c :: pending)) rest

/-- `re.sub(r"\s+", " ", text)`. -/
def squeeze : Bool → List Char → List Char
  | _, [] => []
  | inRun, c :: rest =>
      if lib.isSpace c then (if inRun then [] else [' ']) ++ squeeze true rest
      else c :: squeeze false rest

/-- A text with its spaces collapsed, stripped and in lower case. -/
def folded (text : List Char) : String := lib.lower (lib.strip (String.ofList (lib.squeeze false text)))

/-- `text in str(wordnet_evidence).lower()`, of a text that is not empty. -/
def quotedIn (text : String) (evidence : PyValue) : Option Bool :=
  if text = "" then some false
  else (lib.pyStr evidence).map fun found => decide (text.toList <:+: (lib.lower found).toList)

/-- `gloss_in_evidence`: every exception counts as no. -/
def glossInEvidence (gloss evidence : PyValue) : Bool :=
  if !gloss.truthy || !evidence.truthy then false
  else
    ((lib.pyStr gloss).bind fun text =>
      (lib.quotedIn (lib.folded (dropParens none text.toList)) evidence).bind fun quoted =>
        if quoted then some true else lib.quotedIn (lib.folded text.toList) evidence).getD false

/-! ## Vetoes -/

/-- `(lemma or "").strip().lower()`; `none` where the lemma is no text. -/
def lemmaText (lemmaValue : PyValue) : Option String :=
  match lemmaValue.orEmpty with
  | .str s => some (lib.lower (lib.strip s))
  | _ => none

def fireHeads (fire : String) : List String :=
  ((fire.toList.drop 3).splitOn ',').map fun head => lib.lower (lib.strip (String.ofList head))

/-- `fire.startswith(tag)`. -/
def tagged (tag fire : String) : Bool := tag.toList.isPrefixOf fire.toList

def shortGlossHeadEqualsLemma (lemmaValue winnerFires : PyValue) : Option Bool :=
  match lib.lemmaText lemmaValue with
  | none => some false
  | some lowered =>
      if lowered = "" then some false
      else (lib.fireList winnerFires).map fun fires =>
        fires.any fun fire => tagged "Sb:" fire && (lib.fireHeads fire).contains lowered

def lowRankZeroOverlapVeto (rankIndex j lemmaValue winnerFires : PyValue) :
    Option (Bool × String) :=
  (lib.asInt rankIndex).bind fun rank =>
    (lib.asFloat j).bind fun overlap =>
      match rank, overlap with
      | some rank, some overlap =>
          if 0 < overlap then some (false, "guard:j>0:preserve")
          else (lib.shortGlossHeadEqualsLemma lemmaValue winnerFires).map fun head =>
            if head then (false, "guard:short-gloss-head-equals-lemma:preserve")
            else if 2 ≤ rank ∧ overlap ≤ 0 then (true, "rank>=2&j<=0")
            else (false, "keep")
      | _, _ => some (false, "no-rank-or-j:preserve")

/-- `BAILOUT_J`: the double of 0.20. -/
def bailoutJ : ℚ := 3602879701896397 / 2 ^ 54

def evidenceGlossMismatchVeto (gloss evidence j : PyValue) : Option (Bool × String) :=
  (lib.asFloat j).map fun
    | none => (false, "invalid-j:preserve")
    | some overlap =>
        if bailoutJ ≤ overlap then (false, "bailout:j>=0.20:skip")
        else if !gloss.truthy || !evidence.truthy then
          (false, "missing-gloss-or-evidence:preserve")
        else if lib.glossInEvidence gloss evidence then (false, "gloss-quoted")
        else (true, "evidence-lacks-gloss")

/-- `split_vote_veto`, once the tallies are numbers. -/
def splitVote (agreed total bad : Option Int) : Bool × String :=
  match agreed, total with
  | some agreed, some total =>
      if total ≤ 0 then (false, "no-vote-tally:preserve")
      else if agreed < 0 ∨ total < agreed ∨ bad.getD 0 < 0 then (false, "invalid-tally:preserve")
      else if 0 < bad.getD 0 then (true, "failed-vote-present:split")
      else if agreed ≠ total then (true, "non-unanimous:split")
      else (false, "unanimous:keep")
  | _, _ => (false, "no-vote-tally:preserve")

def splitVoteVeto (votesFor votesTotal failed : PyValue) : Option (Bool × String) :=
  (lib.asInt votesFor).bind fun agreed =>
    (lib.asInt votesTotal).bind fun total =>
      (lib.asInt failed).map fun bad => splitVote agreed total bad

def hasQualitySignal (fires : PyValue) : Option Bool :=
  (lib.fireList fires).map fun cleaned =>
    cleaned.any fun fire => tagged "Sb:" fire || tagged "Sd:topic=" fire

def isGenericOnly (fires : PyValue) : Option Bool :=
  (lib.fireList fires).map fun cleaned => !cleaned.isEmpty && cleaned.all (tagged "Sd:hyp=")

def shadowSignalQualityVeto (rank1Fires rank2Fires : PyValue) : Option (Bool × String) := do
  let rank1 ← lib.fireList rank1Fires
  let rank2 ← lib.fireList rank2Fires
  if rank1.isEmpty && rank2.isEmpty then return (false, "no-fires:quiet")
  if ← lib.isGenericOnly (.list (rank1.map .str)) then return (true, "rank1-generic-only")
  if ← lib.hasQualitySignal (.list (rank2.map .str)) then
    if !(← lib.hasQualitySignal (.list (rank1.map .str))) then
      return (true, "rank2-higher-quality-beats-rank1")
  return (false, "keep")

end GateLib

/-! ## The verdict -/

/-- `LINK`. -/
def gateLink : String := "LINK"

/-- `ESCALATE`. -/
def gateEscalate : String := "ESCALATE:HUMAN_QUEUE"

/-- What `apply_v08_gates` returns. -/
structure GateVerdict where
  verdict : String
  fires : List String
  reasons : List (String × String)
  signalQualityWouldFire : Bool
  signalQualityReason : String

namespace GateLib
variable (lib : GateLib) (ctx : PyValue)

def lowRankOf : Option (Bool × String) :=
  lib.lowRankZeroOverlapVeto (ctx.get "rank_index") (ctx.get "winner_jaccard") (ctx.get "lemma")
    (ctx.get "winner_fires")

def mismatchOf : Option (Bool × String) :=
  lib.evidenceGlossMismatchVeto (ctx.get "winner_gloss") (ctx.get "wordnet_evidence")
    (ctx.get "winner_jaccard")

def splitOf : Option (Bool × String) :=
  lib.splitVoteVeto (ctx.get "votes_for") (ctx.get "votes_total") ctx.failed

/-- The logged veto on a context. -/
def qualityOf : Option (Bool × String) :=
  lib.shadowSignalQualityVeto (ctx.get "rank1_fires") (ctx.get "rank2_fires")

/-- `apply_v08_gates`; `none` for an exception. -/
def applyV08Gates : Option GateVerdict := do
  let lowRank ← lib.lowRankOf ctx
  let mismatch ← lib.mismatchOf ctx
  let split ← lib.splitOf ctx
  let quality ← lib.qualityOf ctx
  let fires := (if lowRank.1 then ["LowRankZeroOverlapVeto"] else []) ++
    (if mismatch.1 then ["EvidenceGlossMismatchVeto"] else []) ++
    (if split.1 then ["SplitVoteVeto"] else [])
  return {
    verdict := if fires.isEmpty then gateLink else gateEscalate
    fires := fires
    reasons := [("LowRankZeroOverlapVeto", lowRank.2), ("EvidenceGlossMismatchVeto", mismatch.2),
      ("SplitVoteVeto", split.2)]
    signalQualityWouldFire := quality.1
    signalQualityReason := quality.2 }

/-! ## What the vetoes see -/

/-- A rank of two or more, and no overlap. -/
def LowRank : Prop :=
  (∃ rank, lib.asInt (ctx.get "rank_index") = some (some rank) ∧ 2 ≤ rank) ∧
    lib.asFloat (ctx.get "winner_jaccard") = some (some 0)

/-- A short gloss of the winner is headed by the lemma. -/
def HeadIsLemma : Prop :=
  lib.shortGlossHeadEqualsLemma (ctx.get "lemma") (ctx.get "winner_fires") = some true

/-- An overlap below the bailout, and an evidence without the gloss. -/
def LacksGloss : Prop :=
  (∃ j, lib.asFloat (ctx.get "winner_jaccard") = some (some j) ∧ j < bailoutJ) ∧
    (ctx.get "winner_gloss").truthy = true ∧ (ctx.get "wordnet_evidence").truthy = true ∧
      lib.glossInEvidence (ctx.get "winner_gloss") (ctx.get "wordnet_evidence") = false

/-- A number of agreeing votes among a positive number of votes. -/
def Tally (agreed total : Int) : Prop :=
  lib.asInt (ctx.get "votes_for") = some (some agreed) ∧
    lib.asInt (ctx.get "votes_total") = some (some total) ∧ 0 < total ∧ 0 ≤ agreed ∧ agreed ≤ total

/-- A tally with a failed or a dissenting vote. -/
def Splits : Prop :=
  ∃ agreed total bad, lib.Tally ctx agreed total ∧ lib.asInt ctx.failed = some bad ∧
    0 ≤ bad.getD 0 ∧ (0 < bad.getD 0 ∨ agreed ≠ total)

/-- Nothing for an enforcing veto. -/
def Quiet : Prop :=
  ¬ ((lib.LowRank ctx ∧ ¬ lib.HeadIsLemma ctx) ∨ lib.LacksGloss ctx ∨ lib.Splits ctx)

/-- The low-rank veto comes to read the fires of the winner. -/
def ReadsFires : Prop :=
  (∃ rank, lib.asInt (ctx.get "rank_index") = some (some rank)) ∧
    lib.asFloat (ctx.get "winner_jaccard") = some (some 0) ∧
      ∃ lowered, lib.lemmaText (ctx.get "lemma") = some lowered ∧ lowered ≠ ""

/-- No infinity where an integer is expected, no integer that overflows as a share,
and no fire that cannot be written out. -/
structure Readable : Prop where
  rank : lib.asInt (ctx.get "rank_index") ≠ none
  overlap : lib.asFloat (ctx.get "winner_jaccard") ≠ none
  votesFor : lib.asInt (ctx.get "votes_for") ≠ none
  votesTotal : lib.asInt (ctx.get "votes_total") ≠ none
  failed : lib.asInt ctx.failed ≠ none
  winnerFires : lib.ReadsFires ctx → lib.fireList (ctx.get "winner_fires") ≠ none
  rank1Fires : lib.fireList (ctx.get "rank1_fires") ≠ none
  rank2Fires : lib.fireList (ctx.get "rank2_fires") ≠ none

variable {lib ctx}

theorem inUnit_nonneg {x : PyFloat} {q : ℚ} (h : inUnit x = some q) : 0 ≤ q := by
  cases x with
  | finite r =>
    by_cases hr : 0 ≤ r ∧ r ≤ 1
    · obtain rfl := Option.some.inj ((if_pos hr).symm.trans h)
      exact hr.1
    · cases (if_neg hr).symm.trans h
  | inf => cases h
  | negInf => cases h
  | nan => cases h

theorem asFloat_nonneg {value : PyValue} {q : ℚ} (h : lib.asFloat value = some (some q)) :
    0 ≤ q := by
  cases value with
  | int n =>
    simp only [asFloat] at h
    generalize floatLimit = limit at h
    split at h
    · exact inUnit_nonneg (Option.some.inj h)
    · cases h
  | float x => exact inUnit_nonneg (Option.some.inj h)
  | str s =>
    obtain ⟨x, -, hx⟩ := Option.bind_eq_some_iff.mp (Option.some.inj h)
    exact inUnit_nonneg hx
  | none => cases h
  | bool b => cases h
  | list items => cases h
  | tuple items => cases h
  | dict entries => cases h

/-! ## One veto at a time -/

theorem shortGloss_eq_none_iff (lemmaValue fires : PyValue) :
    lib.shortGlossHeadEqualsLemma lemmaValue fires = none ↔
      (∃ lowered, lib.lemmaText lemmaValue = some lowered ∧ lowered ≠ "") ∧
        lib.fireList fires = none := by
  unfold shortGlossHeadEqualsLemma
  cases lib.lemmaText lemmaValue with
  | none => simp
  | some lowered => by_cases h : lowered = "" <;> simp [h]

theorem lowRankOf_eq_some {fired : Bool × String} (h : lib.lowRankOf ctx = some fired) :
    fired.1 = true ↔ lib.LowRank ctx ∧ ¬ lib.HeadIsLemma ctx := by
  unfold lowRankOf lowRankZeroOverlapVeto at h
  obtain ⟨rank, hrank, h⟩ := Option.bind_eq_some_iff.mp h
  obtain ⟨overlap, hoverlap, h⟩ := Option.bind_eq_some_iff.mp h
  unfold LowRank HeadIsLemma
  rw [hrank, hoverlap]
  cases rank with
  | none =>
    obtain rfl := Option.some.inj h
    simp
  | some rank =>
    cases overlap with
    | none =>
      obtain rfl := Option.some.inj h
      simp
    | some overlap =>
      dsimp only at h
      split at h
      · rename_i hpos
        obtain rfl := Option.some.inj h
        have hne : overlap ≠ 0 := hpos.ne'
        simp [hne]
      · rename_i hpos
        have hzero : overlap = 0 := le_antisymm (not_lt.mp hpos) (asFloat_nonneg hoverlap)
        obtain ⟨head, hhead, h⟩ := Option.map_eq_some_iff.mp h
        rw [hhead]
        cases head with
        | true =>
          obtain rfl := h
          simp
        | false =>
          by_cases hrank2 : 2 ≤ rank
          · simp only [hzero, hrank2, le_refl, and_self, if_true, Bool.false_eq_true, if_false] at h
            obtain rfl := h
            simp [hzero, hrank2]
          · simp only [hrank2, false_and, if_false, Bool.false_eq_true] at h
            obtain rfl := h
            simp [hrank2]

theorem mismatchOf_eq_some {fired : Bool × String} (h : lib.mismatchOf ctx = some fired) :
    fired.1 = true ↔ lib.LacksGloss ctx := by
  unfold mismatchOf evidenceGlossMismatchVeto at h
  obtain ⟨overlap, hoverlap, h⟩ := Option.map_eq_some_iff.mp h
  unfold LacksGloss
  rw [hoverlap]
  cases overlap with
  | none =>
    obtain rfl := h
    simp
  | some overlap =>
    dsimp only at h
    by_cases hbail : bailoutJ ≤ overlap
    · rw [if_pos hbail] at h
      obtain rfl := h
      simp [hbail]
    · rw [if_neg hbail] at h
      by_cases hgloss : (ctx.get "winner_gloss").truthy = true
      · by_cases hevidence : (ctx.get "wordnet_evidence").truthy = true
        · simp only [hgloss, hevidence, Bool.not_true, Bool.or_self, Bool.false_eq_true,
            if_false] at h
          split at h
          · rename_i hquoted
            obtain rfl := h
            simp [hquoted]
          · rename_i hquoted
            obtain rfl := h
            simpa [hgloss, hevidence, hquoted] using hbail
        · simp only [hevidence, Bool.not_false, Bool.or_true, if_true] at h
          obtain rfl := h
          simp [hevidence]
      · simp only [hgloss, Bool.not_false, Bool.true_or, if_true] at h
        obtain rfl := h
        simp [hgloss]

theorem splitOf_eq_some {fired : Bool × String} (h : lib.splitOf ctx = some fired) :
    fired.1 = true ↔ lib.Splits ctx := by
  unfold splitOf splitVoteVeto at h
  obtain ⟨agreed, hagreed, h⟩ := Option.bind_eq_some_iff.mp h
  obtain ⟨total, htotal, h⟩ := Option.bind_eq_some_iff.mp h
  obtain ⟨bad, hbad, rfl⟩ := Option.map_eq_some_iff.mp h
  unfold Splits Tally
  rw [hagreed, htotal, hbad]
  cases agreed with
  | none => simp [splitVote]
  | some agreed =>
    cases total with
    | none => simp [splitVote]
    | some total =>
      have htally : (∃ agreed' total' bad', (some (some agreed) = some (some agreed') ∧
          some (some total) = some (some total') ∧ 0 < total' ∧ 0 ≤ agreed' ∧ agreed' ≤ total') ∧
          some bad = some bad' ∧ 0 ≤ bad'.getD 0 ∧ (0 < bad'.getD 0 ∨ agreed' ≠ total')) ↔
          (0 < total ∧ 0 ≤ agreed ∧ agreed ≤ total) ∧ 0 ≤ bad.getD 0 ∧
            (0 < bad.getD 0 ∨ agreed ≠ total) := by
        constructor
        · rintro ⟨_, _, _, ⟨⟨⟩, ⟨⟩, hcounts⟩, ⟨⟩, hbad, hsplit⟩
          exact ⟨hcounts, hbad, hsplit⟩
        · rintro ⟨hcounts, hbad, hsplit⟩
          exact ⟨agreed, total, bad, ⟨rfl, rfl, hcounts⟩, rfl, hbad, hsplit⟩
      rw [htally]
      simp only [splitVote]
      generalize bad.getD 0 = failures
      by_cases htotal : total ≤ 0
      · have hno : ¬ 0 < total := by omega
        simp [htotal, hno]
      · by_cases hinvalid : agreed < 0 ∨ total < agreed ∨ failures < 0
        · rw [if_neg htotal, if_pos hinvalid]
          constructor
          · rintro ⟨⟩
          · omega
        · rw [if_neg htotal, if_neg hinvalid]
          have hvalid : (0 < total ∧ 0 ≤ agreed ∧ agreed ≤ total) ∧ 0 ≤ failures := by omega
          rw [← and_assoc, and_iff_right hvalid]
          by_cases hfailed : 0 < failures
          · simp [hfailed]
          · by_cases hdissent : agreed = total <;> simp [hfailed, hdissent]

/-! ## The verdict -/

theorem mapM_fireText_str (fires : List String) :
    (fires.map PyValue.str).mapM lib.fireText = some (fires.map lib.strip) := by
  induction fires with
  | nil => rfl
  | cons fire fires ih =>
    have hfire : lib.fireText (.str fire) = some (lib.strip fire) := by
      by_cases hempty : fire = ""
      · simp [fireText, PyValue.orEmpty, PyValue.truthy, pyStr, hempty]
      · simp [fireText, PyValue.orEmpty, PyValue.truthy, pyStr, hempty]
    rw [List.map_cons, List.mapM_cons, hfire, ih]
    rfl

theorem qualityOf_ne_none_iff : lib.qualityOf ctx ≠ none ↔
    lib.fireList (ctx.get "rank1_fires") ≠ none ∧ lib.fireList (ctx.get "rank2_fires") ≠ none := by
  have hgeneric : ∀ fires : List String, lib.isGenericOnly (.list (fires.map .str)) ≠ none := by
    intro fires
    rw [isGenericOnly, fireList, mapM_fireText_str]
    simp
  have hquality : ∀ fires : List String, lib.hasQualitySignal (.list (fires.map .str)) ≠ none := by
    intro fires
    rw [hasQualitySignal, fireList, mapM_fireText_str]
    simp
  unfold qualityOf shadowSignalQualityVeto
  cases lib.fireList (ctx.get "rank1_fires") with
  | none => simp
  | some rank1 =>
    cases lib.fireList (ctx.get "rank2_fires") with
    | none => simp
    | some rank2 =>
      obtain ⟨generic, hg⟩ := Option.ne_none_iff_exists'.mp (hgeneric rank1)
      obtain ⟨q1, hq1⟩ := Option.ne_none_iff_exists'.mp (hquality rank1)
      obtain ⟨q2, hq2⟩ := Option.ne_none_iff_exists'.mp (hquality rank2)
      simp only [Option.bind_eq_bind, Option.bind_some, hg, hq1, hq2]
      cases generic <;> cases q1 <;> cases q2 <;> simp <;> split <;> simp

theorem lowRankOf_ne_none_iff : lib.lowRankOf ctx ≠ none ↔
    lib.asInt (ctx.get "rank_index") ≠ none ∧ lib.asFloat (ctx.get "winner_jaccard") ≠ none ∧
      (lib.ReadsFires ctx → lib.fireList (ctx.get "winner_fires") ≠ none) := by
  unfold lowRankOf lowRankZeroOverlapVeto ReadsFires
  cases lib.asInt (ctx.get "rank_index") with
  | none => simp
  | some rank =>
    cases hoverlap : lib.asFloat (ctx.get "winner_jaccard") with
    | none => simp
    | some overlap =>
      cases rank with
      | none => simp
      | some rank =>
        cases overlap with
        | none => simp
        | some overlap =>
          by_cases hpos : 0 < overlap
          · simp [hpos, hpos.ne']
          · have hzero : overlap = 0 := le_antisymm (not_lt.mp hpos) (asFloat_nonneg hoverlap)
            have hnone : lib.shortGlossHeadEqualsLemma _ _ = none ↔ _ :=
              shortGloss_eq_none_iff (ctx.get "lemma") (ctx.get "winner_fires")
            subst hzero
            simp [hnone]

theorem applyV08Gates_ne_none_iff : lib.applyV08Gates ctx ≠ none ↔ lib.Readable ctx := by
  have hmismatch : lib.mismatchOf ctx ≠ none ↔ lib.asFloat (ctx.get "winner_jaccard") ≠ none := by
    simp [mismatchOf, evidenceGlossMismatchVeto]
  have hsplit : lib.splitOf ctx ≠ none ↔ lib.asInt (ctx.get "votes_for") ≠ none ∧
      lib.asInt (ctx.get "votes_total") ≠ none ∧ lib.asInt ctx.failed ≠ none := by
    unfold splitOf splitVoteVeto
    cases lib.asInt (ctx.get "votes_for") <;> cases lib.asInt (ctx.get "votes_total") <;> simp
  have hall : lib.applyV08Gates ctx ≠ none ↔ lib.lowRankOf ctx ≠ none ∧ lib.mismatchOf ctx ≠ none ∧
      lib.splitOf ctx ≠ none ∧ lib.qualityOf ctx ≠ none := by
    unfold applyV08Gates
    cases lib.lowRankOf ctx <;> cases lib.mismatchOf ctx <;> cases lib.splitOf ctx <;>
      cases lib.qualityOf ctx <;> simp
  rw [hall, hmismatch, hsplit, lowRankOf_ne_none_iff, qualityOf_ne_none_iff]
  constructor
  · rintro ⟨⟨hrank, hoverlap, hfires⟩, -, ⟨hfor, htotal, hfailed⟩, h1, h2⟩
    exact ⟨hrank, hoverlap, hfor, htotal, hfailed, hfires, h1, h2⟩
  · intro h
    exact ⟨⟨h.rank, h.overlap, h.winnerFires⟩, h.overlap,
      ⟨h.votesFor, h.votesTotal, h.failed⟩, h.rank1Fires, h.rank2Fires⟩

/-- **The verdict** is to escalate exactly when an enforcing veto has something. -/
theorem applyV08Gates_eq_some {out : GateVerdict} (h : lib.applyV08Gates ctx = some out) :
    out.verdict = (if out.fires = [] then gateLink else gateEscalate) ∧
      (out.fires = [] ↔ lib.Quiet ctx) := by
  unfold applyV08Gates at h
  obtain ⟨lowRank, hlow, h⟩ := Option.bind_eq_some_iff.mp h
  obtain ⟨mismatch, hmismatch, h⟩ := Option.bind_eq_some_iff.mp h
  obtain ⟨split, hsplit, h⟩ := Option.bind_eq_some_iff.mp h
  obtain ⟨quality, -, h⟩ := Option.bind_eq_some_iff.mp h
  obtain rfl := Option.some.inj h
  refine ⟨by simp only [List.isEmpty_iff], ?_⟩
  rw [Quiet, ← lowRankOf_eq_some hlow, ← mismatchOf_eq_some hmismatch, ← splitOf_eq_some hsplit]
  cases lowRank.1 <;> cases mismatch.1 <;> cases split.1 <;> simp

theorem verdict_eq_link_iff {out : GateVerdict} (h : lib.applyV08Gates ctx = some out) :
    out.verdict = gateLink ↔ lib.Quiet ctx := by
  obtain ⟨hverdict, hfires⟩ := applyV08Gates_eq_some h
  rw [← hfires, hverdict]
  have hne : gateEscalate ≠ gateLink := by decide
  by_cases hempty : out.fires = []
  · simp [hempty]
  · simp [hempty, hne]

theorem verdict_eq_escalate_iff {out : GateVerdict} (h : lib.applyV08Gates ctx = some out) :
    out.verdict = gateEscalate ↔ ¬ lib.Quiet ctx := by
  obtain ⟨hverdict, hfires⟩ := applyV08Gates_eq_some h
  rw [← hfires, hverdict]
  have hne : gateLink ≠ gateEscalate := by decide
  by_cases hempty : out.fires = []
  · simp [hempty, hne]
  · simp [hempty]

/-! ## Missing data -/

/-- What the code takes for no signal: a number or a list of fires that its coercion
refuses or finds empty, a tally that it calls invalid, a lemma or a text that is
blank or no text.  Under a key that it does not read, anything. -/
def Invalid (lib : GateLib) (key : String) (value : PyValue) : Prop :=
  (key = "rank_index" → ∀ n, lib.asInt value ≠ some (some n)) ∧
  (key = "winner_jaccard" → ∀ q, lib.asFloat value ≠ some (some q)) ∧
  (key = "lemma" → ∀ lowered, lib.lemmaText value = some lowered → lowered = "") ∧
  (key ∈ ["winner_fires", "rank1_fires", "rank2_fires"] →
    ∀ fires, lib.fireList value = some fires → fires = []) ∧
  (key ∈ ["winner_gloss", "wordnet_evidence"] → ∀ s, value = .str s → lib.strip s = "") ∧
  (key = "votes_for" → ∀ n, lib.asInt value = some (some n) → n < 0) ∧
  (key = "votes_total" → ∀ n, lib.asInt value = some (some n) → n ≤ 0) ∧
  (key = "failed" → ∀ n, lib.asInt value = some (some n) → n < 0)

/-- `ctx'` is `ctx` without a key, or with an invalid value under it. -/
structure Degraded (lib : GateLib) (ctx ctx' : PyValue) (key : String) : Prop where
  others : ∀ k, k ≠ key → ctx'.get? k = ctx.get? k
  invalid : ∀ value, ctx'.get? key = some value → Invalid lib key value

def EnforcingFired (lib : GateLib) (ctx : PyValue) : Prop :=
  ∃ veto ∈ [lib.lowRankOf ctx, lib.mismatchOf ctx, lib.splitOf ctx],
    ∃ reason, veto = some (true, reason)

/-- The gates return a verdict, which is to escalate exactly when an enforcing veto
fired, and is not to link where the degraded context escalates. -/
def MissingNeverRoutes (lib : GateLib) (ctx ctx' : PyValue) : Prop :=
  ∃ out, lib.applyV08Gates ctx = some out ∧
    (out.verdict = gateEscalate ↔ EnforcingFired lib ctx) ∧
      (out.verdict = gateLink →
        ∀ out', lib.applyV08Gates ctx' = some out' → out'.verdict ≠ gateEscalate)

/-- Of a low-ranked winner without overlap, the signal that kept the row. -/
def GuardLost (lib : GateLib) (ctx : PyValue) (key : String) : Prop :=
  (key = "lemma" ∨ key = "winner_fires") ∧ lib.LowRank ctx

/-- A text that is there and yet not the gloss, or does not hold it. -/
def GlossLost (lib : GateLib) (ctx' : PyValue) (key : String) : Prop :=
  (key = "winner_gloss" ∨ key = "wordnet_evidence") ∧ lib.LacksGloss ctx'

/-- The negative count of failed votes that kept a split tally from counting. -/
def TallyMended (lib : GateLib) (ctx ctx' : PyValue) (key : String) : Prop :=
  key = "failed" ∧ (∃ agreed total, lib.Tally ctx agreed total ∧ agreed < total) ∧
    (∃ n, lib.asInt ctx.failed = some (some n) ∧ n < 0) ∧
      ∀ n, lib.asInt ctx'.failed = some (some n) → 0 ≤ n

namespace Degraded
variable {ctx' : PyValue} {key : String}

theorem get_eq (h : Degraded lib ctx ctx' key) {k : String} (hk : k ≠ key) :
    ctx'.get k = ctx.get k := by
  rw [PyValue.get, PyValue.get, h.others k hk]

theorem failed_eq (h : Degraded lib ctx ctx' key) (hk : "failed" ≠ key) :
    ctx'.failed = ctx.failed := by
  rw [PyValue.failed, PyValue.failed, h.others _ hk]

theorem get_cases (h : Degraded lib ctx ctx' key) :
    ctx'.get key = .none ∨ Invalid lib key (ctx'.get key) := by
  unfold PyValue.get
  cases hvalue : ctx'.get? key with
  | none => exact Or.inl rfl
  | some value => exact Or.inr (h.invalid value hvalue)

theorem lowRank (h : Degraded lib ctx ctx' key) (hlow : lib.LowRank ctx') : lib.LowRank ctx := by
  obtain ⟨⟨rank, hrank, hle⟩, hoverlap⟩ := hlow
  have hkey : "rank_index" ≠ key := by
    rintro rfl
    rcases h.get_cases with hnone | hinvalid
    · rw [hnone] at hrank
      cases hrank
    · exact hinvalid.1 rfl rank hrank
  have hkey' : "winner_jaccard" ≠ key := by
    rintro rfl
    rcases h.get_cases with hnone | hinvalid
    · rw [hnone] at hoverlap
      cases hoverlap
    · exact hinvalid.2.1 rfl 0 hoverlap
  exact ⟨⟨rank, h.get_eq hkey ▸ hrank, hle⟩, h.get_eq hkey' ▸ hoverlap⟩

theorem lowRank_of (h : Degraded lib ctx ctx' key) (hkey : key = "lemma" ∨ key = "winner_fires")
    (hlow : lib.LowRank ctx) : lib.LowRank ctx' := by
  have hrank : "rank_index" ≠ key := by
    rintro rfl
    simp at hkey
  have hoverlap : "winner_jaccard" ≠ key := by
    rintro rfl
    simp at hkey
  unfold LowRank
  rw [h.get_eq hrank, h.get_eq hoverlap]
  exact hlow

theorem not_headIsLemma (h : Degraded lib ctx ctx' key)
    (hkey : key = "lemma" ∨ key = "winner_fires") : ¬ lib.HeadIsLemma ctx' := by
  intro hhead
  unfold HeadIsLemma shortGlossHeadEqualsLemma at hhead
  cases hlemma : lib.lemmaText (ctx'.get "lemma") with
  | none =>
    rw [hlemma] at hhead
    cases hhead
  | some lowered =>
    rw [hlemma] at hhead
    by_cases hempty : lowered = ""
    · simp [hempty] at hhead
    · simp only [hempty, if_false, Option.map_eq_some_iff] at hhead
      obtain ⟨fires, hfires, hany⟩ := hhead
      rcases hkey with rfl | rfl
      · rcases h.get_cases with hnone | hinvalid
        · rw [hnone] at hlemma
          have hblank : lib.lemmaText .none = some "" := by
            rw [← lib.lower_empty, ← lib.strip_empty]
            rfl
          rw [hblank] at hlemma
          exact hempty (Option.some.inj hlemma).symm
        · exact hempty (hinvalid.2.2.1 rfl lowered hlemma)
      · have hnil : fires = [] := by
          rcases h.get_cases with hnone | hinvalid
          · rw [hnone] at hfires
            exact (Option.some.inj hfires).symm
          · exact hinvalid.2.2.2.1 (by decide) fires hfires
        rw [hnil] at hany
        cases hany

theorem lacksGloss_cases (h : Degraded lib ctx ctx' key) (hlacks : lib.LacksGloss ctx') :
    lib.LacksGloss ctx ∨ GlossLost lib ctx' key := by
  by_cases hkey : key = "winner_gloss" ∨ key = "wordnet_evidence"
  · exact Or.inr ⟨hkey, hlacks⟩
  · obtain ⟨hgloss, hevidence⟩ := not_or.mp hkey
    have hoverlap : "winner_jaccard" ≠ key := by
      rintro rfl
      obtain ⟨⟨j, hj, -⟩, -⟩ := hlacks
      rcases h.get_cases with hnone | hinvalid
      · rw [hnone] at hj
        cases hj
      · exact hinvalid.2.1 rfl j hj
    unfold LacksGloss at hlacks
    rw [h.get_eq hoverlap, h.get_eq (Ne.symm hgloss), h.get_eq (Ne.symm hevidence)] at hlacks
    exact Or.inl hlacks

theorem tally (h : Degraded lib ctx ctx' key) {agreed total : Int}
    (htally : lib.Tally ctx' agreed total) : lib.Tally ctx agreed total := by
  obtain ⟨hagreed, htotal, hpos, hnonneg, hle⟩ := htally
  have hfor : "votes_for" ≠ key := by
    rintro rfl
    rcases h.get_cases with hnone | hinvalid
    · rw [hnone] at hagreed
      cases hagreed
    · have hneg := hinvalid.2.2.2.2.2.1 rfl agreed hagreed
      omega
  have hof : "votes_total" ≠ key := by
    rintro rfl
    rcases h.get_cases with hnone | hinvalid
    · rw [hnone] at htotal
      cases htotal
    · have hneg := hinvalid.2.2.2.2.2.2.1 rfl total htotal
      omega
  exact ⟨h.get_eq hfor ▸ hagreed, h.get_eq hof ▸ htotal, hpos, hnonneg, hle⟩

theorem failed_getD (h : Degraded lib ctx ctx' "failed") {bad : Option Int}
    (hbad : lib.asInt ctx'.failed = some bad) (hnonneg : 0 ≤ bad.getD 0) : bad.getD 0 = 0 := by
  unfold PyValue.failed at hbad
  cases hvalue : ctx'.get? "failed" with
  | none =>
    rw [hvalue] at hbad
    obtain rfl := Option.some.inj hbad
    rfl
  | some value =>
    rw [hvalue] at hbad
    cases bad with
    | none => rfl
    | some n =>
      have hneg := (h.invalid value hvalue).2.2.2.2.2.2.2 rfl n hbad
      change 0 ≤ n at hnonneg
      omega

theorem splits_cases (h : Degraded lib ctx ctx' key) (hread : lib.Readable ctx)
    (hsplits : lib.Splits ctx') : lib.Splits ctx ∨ TallyMended lib ctx ctx' key := by
  obtain ⟨agreed, total, bad, htally, hbad, hnonneg, hsplit⟩ := hsplits
  by_cases hkey : key = "failed"
  · subst hkey
    have hzero := h.failed_getD hbad hnonneg
    have hne : agreed ≠ total := hsplit.resolve_left (by omega)
    obtain ⟨own, hown⟩ := Option.ne_none_iff_exists'.mp hread.failed
    by_cases hneg : 0 ≤ own.getD 0
    · exact Or.inl ⟨agreed, total, own, h.tally htally, hown, hneg, Or.inr hne⟩
    · right
      have hlt : agreed < total := lt_of_le_of_ne htally.2.2.2.2 hne
      refine ⟨rfl, ⟨agreed, total, h.tally htally, hlt⟩, ?_, ?_⟩
      · cases own with
        | none => exact absurd le_rfl hneg
        | some n => exact ⟨n, hown, not_le.mp hneg⟩
      · intro n hn
        obtain rfl := Option.some.inj (hbad.symm.trans hn)
        exact hnonneg
  · exact Or.inl ⟨agreed, total, bad, h.tally htally, h.failed_eq (Ne.symm hkey) ▸ hbad, hnonneg,
      hsplit⟩

theorem splits_of_tallyMended (h : Degraded lib ctx ctx' key) (hread' : lib.Readable ctx')
    (hmended : TallyMended lib ctx ctx' key) : lib.Splits ctx' := by
  obtain ⟨rfl, ⟨agreed, total, ⟨hagreed, htotal, hcounts⟩, hlt⟩, -, hnonneg⟩ := hmended
  obtain ⟨bad, hbad⟩ := Option.ne_none_iff_exists'.mp hread'.failed
  have hfor := h.get_eq (k := "votes_for") (by decide)
  have hof := h.get_eq (k := "votes_total") (by decide)
  refine ⟨agreed, total, bad, ⟨hfor ▸ hagreed, hof ▸ htotal, hcounts⟩, hbad, ?_, Or.inr hlt.ne⟩
  cases bad with
  | none => exact le_rfl
  | some n => exact hnonneg n hbad

theorem not_quiet_iff (h : Degraded lib ctx ctx' key) (hread : lib.Readable ctx)
    (hread' : lib.Readable ctx') (hquiet : lib.Quiet ctx) :
    ¬ lib.Quiet ctx' ↔
      GuardLost lib ctx key ∨ GlossLost lib ctx' key ∨ TallyMended lib ctx ctx' key := by
  obtain ⟨hguarded, hrest⟩ := not_or.mp hquiet
  obtain ⟨hgloss, hsplit⟩ := not_or.mp hrest
  constructor
  · intro hloud
    rcases not_not.mp hloud with ⟨hlow', hhead'⟩ | hlacks | hsplits
    · have hlow := h.lowRank hlow'
      refine Or.inl ⟨?_, hlow⟩
      -- the guard held in the context, so what it reads is under the key
      by_contra hkey
      obtain ⟨hlemma, hfires⟩ := not_or.mp hkey
      refine hguarded ⟨hlow, fun hhead => hhead' ?_⟩
      unfold HeadIsLemma
      rw [h.get_eq (Ne.symm hlemma), h.get_eq (Ne.symm hfires)]
      exact hhead
    · exact Or.inr (Or.inl ((h.lacksGloss_cases hlacks).resolve_left hgloss))
    · exact Or.inr (Or.inr ((h.splits_cases hread hsplits).resolve_left hsplit))
  · rintro (⟨hkey, hlow⟩ | ⟨-, hlacks⟩ | hmended) hquiet'
    · exact hquiet' (Or.inl ⟨h.lowRank_of hkey hlow, h.not_headIsLemma hkey⟩)
    · exact hquiet' (Or.inr (Or.inl hlacks))
    · exact hquiet' (Or.inr (Or.inr (h.splits_of_tallyMended hread' hmended)))

end Degraded

theorem enforcingFired_iff {out : GateVerdict} (h : lib.applyV08Gates ctx = some out) :
    EnforcingFired lib ctx ↔ ¬ lib.Quiet ctx := by
  unfold applyV08Gates at h
  obtain ⟨lowRank, hlow, h⟩ := Option.bind_eq_some_iff.mp h
  obtain ⟨mismatch, hmismatch, h⟩ := Option.bind_eq_some_iff.mp h
  obtain ⟨split, hsplit, -⟩ := Option.bind_eq_some_iff.mp h
  rw [Quiet, not_not, ← lowRankOf_eq_some hlow, ← mismatchOf_eq_some hmismatch,
    ← splitOf_eq_some hsplit, EnforcingFired, hlow, hmismatch, hsplit]
  have hfired : ∀ fired : Bool × String,
      (∃ reason, some fired = some (true, reason)) ↔ fired.1 = true := by
    intro fired
    refine ⟨fun ⟨reason, hreason⟩ => by rw [Option.some.inj hreason], fun htrue => ⟨fired.2, ?_⟩⟩
    rw [← htrue]
  simp only [List.mem_cons, List.not_mem_nil, or_false, exists_eq_or_imp, exists_eq_left, hfired]

/-- **Missing data never routes a row**, exactly when the context is readable and, if
nothing escalates in it and the degraded context is readable too, the key is not a
signal of the headword guard of a low-ranked winner without overlap, no text that is
there but lacks the gloss has come under it, and it is not a negative count of failed
votes over a split tally. -/
theorem missing_never_routes_iff (lib : GateLib) {ctx ctx' : PyValue} {key : String}
    (h : Degraded lib ctx ctx' key) :
    MissingNeverRoutes lib ctx ctx' ↔ lib.Readable ctx ∧
      (lib.Quiet ctx → lib.Readable ctx' → ¬ GuardLost lib ctx key ∧ ¬ GlossLost lib ctx' key ∧
        ¬ TallyMended lib ctx ctx' key) := by
  constructor
  · rintro ⟨out, hout, -, hkept⟩
    have hread : lib.Readable ctx :=
      applyV08Gates_ne_none_iff.mp (by rw [hout]; exact Option.some_ne_none out)
    refine ⟨hread, fun hquiet hread' => ?_⟩
    obtain ⟨out', hout'⟩ := Option.ne_none_iff_exists'.mp (applyV08Gates_ne_none_iff.mpr hread')
    have hlink := hkept ((verdict_eq_link_iff hout).mpr hquiet) out' hout'
    rw [ne_eq, verdict_eq_escalate_iff hout', h.not_quiet_iff hread hread' hquiet] at hlink
    simpa only [not_or] using hlink
  · rintro ⟨hread, hkept⟩
    obtain ⟨out, hout⟩ := Option.ne_none_iff_exists'.mp (applyV08Gates_ne_none_iff.mpr hread)
    refine ⟨out, hout, ?_, fun hlink out' hout' => ?_⟩
    · rw [verdict_eq_escalate_iff hout, enforcingFired_iff hout]
    · have hquiet := (verdict_eq_link_iff hout).mp hlink
      have hread' : lib.Readable ctx' :=
        applyV08Gates_ne_none_iff.mp (by rw [hout']; exact Option.some_ne_none out')
      rw [ne_eq, verdict_eq_escalate_iff hout', h.not_quiet_iff hread hread' hquiet]
      simpa only [not_or] using hkept hquiet hread'

def ascii : GateLib where
  intOfStr s := s.toInt?
  floatOfStr s := s.toInt?.map fun n => .finite n
  display _ := some ""
  isSpace := Char.isWhitespace
  lower s := String.ofList (s.toList.map Char.toLower)
  lower_empty := rfl

/-- The signals of a winner of rank two without overlap. -/
def catSignals : List (PyValue × PyValue) :=
  [(.str "winner_jaccard", .float (.finite 0)), (.str "lemma", .str "cat")]

/-- A short gloss of it is headed by the lemma. -/
def catContext : PyValue :=
  .dict ((.str "rank_index", .int 2) :: (.str "winner_fires", .list [.str "Sb:cat"]) :: catSignals)

/-- The same without the fires. -/
def firelessCat : PyValue := .dict ((.str "rank_index", .int 2) :: catSignals)

/-- The same without the rank. -/
def ranklessCat : PyValue :=
  .dict ((.str "winner_fires", .list [.str "Sb:cat"]) :: catSignals)

/-- Without its rank the row stays. -/
theorem missing_rank_never_routes : MissingNeverRoutes ascii catContext ranklessCat := by
  have hdegraded : Degraded ascii catContext ranklessCat "rank_index" := by
    refine ⟨fun k hk => ?_, fun value hvalue => ?_⟩
    · simp [PyValue.get?, catContext, ranklessCat, List.findSome?_cons, Ne.symm hk]
    · have hnone : ranklessCat.get? "rank_index" = none := by decide +kernel
      rw [hnone] at hvalue
      cases hvalue
  have hread : ascii.Readable catContext := by
    have hfires : ascii.fireList (catContext.get "winner_fires") ≠ none := by decide +kernel
    refine ⟨?_, ?_, ?_, ?_, ?_, fun _ => hfires, ?_, ?_⟩ <;> decide +kernel
  refine (missing_never_routes_iff ascii hdegraded).mpr ⟨hread, fun _ _ => ⟨?_, ?_, ?_⟩⟩
  · rintro ⟨hkey, -⟩
    simp at hkey
  · rintro ⟨hkey, -⟩
    simp at hkey
  · rintro ⟨hkey, -⟩
    simp at hkey

/-- Without its fires the row goes to the queue. -/
theorem missing_fires_route : Degraded ascii catContext firelessCat "winner_fires" ∧
    ¬ MissingNeverRoutes ascii catContext firelessCat := by
  refine ⟨⟨fun k hk => ?_, fun value hvalue => ?_⟩, ?_⟩
  · simp [PyValue.get?, catContext, firelessCat, List.findSome?_cons, Ne.symm hk]
  · have hnone : firelessCat.get? "winner_fires" = none := by decide +kernel
    rw [hnone] at hvalue
    cases hvalue
  · rintro ⟨out, hout, -, hkept⟩
    have hlink : (ascii.applyV08Gates catContext).map (·.verdict) = some gateLink := by
      decide +kernel
    have hescalate : (ascii.applyV08Gates firelessCat).map (·.verdict) = some gateEscalate := by
      decide +kernel
    obtain ⟨out', hout', hverdict'⟩ := Option.map_eq_some_iff.mp hescalate
    rw [hout] at hlink
    exact hkept (Option.some.inj hlink) out' hout' hverdict'

end GateLib

end HamZaboon
