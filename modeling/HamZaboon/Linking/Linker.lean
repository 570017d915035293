import HamZaboon.Library.Numerals
import HamZaboon.Library.Trim
import HamZaboon.Texts.PyFloat
import Mathlib.Algebra.Order.Floor.Defs
import Mathlib.Data.Finset.Lattice.Basic
import Mathlib.Data.Finset.Sort
import Mathlib.Data.Rat.Floor
import Mathlib.Data.String.Basic

/-! # The arbitration of the linker

`arbitrate_link` of `factory/linking/linker.py`, and the readers of the rows made of
what it returns: `validate_table_rows`, `link_stats`, and the signals and their count in
`flow_trace_data`.  The decision and its evidence travel as texts; each reader takes them
apart by rules of its own.
-/

namespace HamZaboon
open Library

/-- What the module takes from Python's texts. -/
structure LinkLib where
  lower : String → String
  /-- `unicodedata.normalize("NFKC", text)`. -/
  nfkc : String → String
  isSpace : Char → Bool
  isSpace_alphanum : ∀ c : Char, c.isAlphanum = true → isSpace c = false
  isSpace_colon : isSpace ':' = false

def LinkLib.ascii : LinkLib where
  lower s := String.ofList (s.toList.map Char.toLower)
  nfkc := id
  isSpace := Char.isWhitespace
  isSpace_alphanum c hc := by
    by_contra hspace
    have hspace : c.isWhitespace = true := eq_true_of_ne_false hspace
    simp only [Char.isWhitespace, Bool.or_eq_true, decide_eq_true_eq] at hspace
    rcases hspace with ((rfl | rfl) | rfl) | rfl
    all_goals cases hc
  isSpace_colon := rfl

/-- `text.startswith(tag)`. -/
def hasTag (tag : String) (text : String) : Bool := tag.toList.isPrefixOf text.toList

/-- `part in text`. -/
def holdsText (part : String) (text : String) : Bool := decide (part.toList <:+: text.toList)

/-! ## Words -/

def apostrophe : Char := Char.ofNat 39

/-- The light deplural of `norm_tokens`. -/
def deplural (tok : List Char) : List Char :=
  if "ies".toList.isSuffixOf tok ∧ 4 < tok.length then tok.dropLast.dropLast.dropLast ++ ['y']
  else if "ses".toList.isSuffixOf tok ∧ 4 < tok.length then tok.dropLast.dropLast
  else if "s".toList.isSuffixOf tok ∧ ¬ "ss".toList.isSuffixOf tok ∧ 3 < tok.length then tok.dropLast
  else tok

def genericVerbs : Finset String := {"move", "make", "carry", "put", "go", "cause"}

/-- `QUARANTINE`. -/
def quarantined : List String := ["en-book-en-verb-hoaZwz7Y"]

/-- `SE_VETO_FLOOR`: the double of 0.35. -/
def seVetoFloor : ℚ := 3152519739159347 / 2 ^ 53

/-- `value < bound`. -/
def PyFloat.below (x : PyFloat) (bound : ℚ) : Bool :=
  match x with
  | .finite q => q < bound
  | .negInf => true
  | _ => false

/-- The nearest number of thousandths, an even one between two. -/
def thousandths (q : ℚ) : Nat :=
  let scaled := |q| * 1000
  let low := ⌊scaled⌋.toNat
  if scaled - low < 1 / 2 ∨ scaled - low = 1 / 2 ∧ low % 2 = 0 then low else low + 1

/-- `"%.3f" % x`. -/
def PyFloat.fixed : PyFloat → String
  | .finite q =>
      (if q < 0 then "-" else "") ++ String.ofList (Nat.toDigits 10 (thousandths q / 1000)) ++ "." ++
        String.ofList (pad 3 (thousandths q % 1000))
  | .inf => "inf"
  | .negInf => "-inf"
  | .nan => "nan"

/-! ## What is arbitrated -/

/-- The arguments of `arbitrate_link`. -/
structure LinkInput where
  kid : String
  bestKey : String
  fires : List String
  ultraShort : Bool := false
  isTwin : Bool := false
  twinCefr : List String := []
  isExact : Bool := false
  seValue : Option PyFloat := none
  saWords : Finset String := ∅
  selfFormSet : Finset String := ∅
  linkMin : Int := 2
  edge : Option String := none
  manualNone : Option String := none
  /-- The sensekey and the tag. -/
  judgeLink : Option (String × String) := none
  /-- The sensekey and the evidence. -/
  manualOverride : Option (String × String) := none
  provisional : Bool := false

/-- What `arbitrate_link` returns. -/
structure LinkDecision where
  sensekey : String
  method : String
  evidence : String
  flags : List String
  deriving DecidableEq

/-- A row of a table; `none` for a key that is not there. -/
structure LinkTableRow where
  kaikkiSenseId : Option String := none
  wordnetSensekey : Option String := none
  method : Option String := none
  evidence : Option String := none
  flags : Option String := none

namespace LinkLib
variable (lib : LinkLib)

def strip (s : String) : String := String.ofList (trim lib.isSpace s.toList)

def normTokens (text : String) : List String :=
  let runs := (lib.nfkc (lib.lower text)).toList.splitOnP fun c => !(c.isLower || c == apostrophe)
  ((runs.map (trim (· == apostrophe))).filter (2 ≤ ·.length)).map fun tok =>
    String.ofList (deplural tok)

/-- The words of a fire as one text; none of an overlap. -/
def fireWords (fire : String) : Option (List Char) :=
  if hasTag "Sb:" fire ∨ hasTag "Sc:" fire then some (fire.toList.drop 3)
  else if hasTag "Sd:" fire ∧ '=' ∈ fire.toList then some ((fire.toList.dropWhile (· ≠ '=')).drop 1)
  else none

def evidenceFamilies (fires : List String) (saWords selfForms : Finset String) : Finset String :=
  (saWords ∪ ((fires.filterMap fireWords).flatMap fun words =>
    (words.splitOn ',').flatMap fun part => lib.normTokens (String.ofList part)).toFinset) \ selfForms

def preWords (fires : List String) (saWords : Finset String) : Finset String :=
  saWords ∪ ((fires.filterMap fireWords).flatMap fun words =>
    lib.normTokens (String.ofList words)).toFinset

def operationalSignalVeto (seValue : Option PyFloat) (families : Finset String)
    (genericFree isExact : Bool) : Bool :=
  !isExact && genericFree && decide (families.card ≤ 1) &&
    (seValue.map fun value => value.below seVetoFloor).getD false

def quarantineCheck (kid method : String) : Option String :=
  if hasTag "LINK" method ∧ kid ∈ quarantined then some "quarantined-known-false" else none

def linkMethod (isExact : Bool) (signals : Nat) : String :=
  (if isExact then "LINK:exact-sensekey+" else "LINK:") ++ toString signals ++ "-sig"

def seTag (seValue : Option PyFloat) : String :=
  match seValue with
  | none => ""
  | some value => "+Se:" ++ value.fixed

/-- `operational_signal_veto`, of what is arbitrated. -/
def vetoed (i : LinkInput) : Bool :=
  operationalSignalVeto i.seValue (lib.evidenceFamilies i.fires i.saWords i.selfFormSet)
    (decide (Disjoint (lib.preWords i.fires i.saWords) genericVerbs)) i.isExact

/-- `arbitrate_link`, where the fires decide. -/
def arbitrateFires (i : LinkInput) : LinkDecision :=
  let evidence := "+".intercalate i.fires
  if i.linkMin ≤ i.fires.length then
    let method := linkMethod i.isExact i.fires.length
    if lib.vetoed i then
      ⟨i.bestKey, "JUDGE-PENDING", evidence ++ seTag i.seValue ++ "+se-veto", []⟩
    else
      match quarantineCheck i.kid method with
      | some known =>
          ⟨i.bestKey, known, evidence ++ seTag i.seValue ++ "+judge-first", ["quarantined-known-false"]⟩
      | none => ⟨i.bestKey, method, evidence ++ seTag i.seValue, []⟩
  else if i.fires = [] then ⟨i.bestKey, "UNMAPPED", "0sig", []⟩
  else ⟨i.bestKey, "JUDGE-PENDING", evidence, []⟩

def arbitrateLink (i : LinkInput) : LinkDecision :=
  let evidence := "+".intercalate i.fires
  if i.edge.getD "" ≠ "" then ⟨"-", "UNMAPPED", i.edge.getD "", []⟩
  else
    match i.manualNone, i.manualOverride, i.judgeLink with
    | some reason, _, _ => ⟨"-", "MANUAL-NONE", reason, ["manual-none"]⟩
    | none, some (sensekey, reason), _ => ⟨sensekey, "LINK:manual-override", reason, []⟩
    | none, none, some (sensekey, tag) =>
        ⟨sensekey, "LINK:judge-v2", (if evidence ≠ "" then evidence ++ "+" else "") ++ tag,
          if i.provisional then ["provisional_consensus"] else []⟩
    | none, none, none =>
        if i.isTwin then
          ⟨i.bestKey, "twin-pending",
            "best-cand-twinned;tsv-cefr=" ++ ",".intercalate (i.twinCefr.insertionSort (· ≤ ·)),
            ["twin-pending"]⟩
        else if i.ultraShort then
          ⟨i.bestKey, "JUDGE-PENDING",
            "short-gloss:" ++ (if i.fires ≠ [] then evidence else "0sig"), []⟩
        else lib.arbitrateFires i

def rowOf (kid : String) (d : LinkDecision) : LinkTableRow where
  kaikkiSenseId := some kid
  wordnetSensekey := some d.sensekey
  method := some d.method
  evidence := some d.evidence
  flags := some ("+".intercalate d.flags)

/-! ## Validation -/

/-- `validate_table_rows`, of a row. -/
def rowViolations (row : LinkTableRow) : List String :=
  let kid := row.kaikkiSenseId.getD "?"
  let method := row.method.getD ""
  (if hasTag "LINK" method ∧ lib.strip (row.evidence.getD "") = "" then
      ["LINK without evidence: " ++ kid] else []) ++
    if method ∈ ["twin-pending", "quarantined-known-false", "MANUAL-NONE"] then
      (if hasTag "LINK" method then ["flagged row LINKs: " ++ kid] else []) ++
        if method = "MANUAL-NONE" ∧ row.wordnetSensekey.getD "" ≠ "-" then
          ["MANUAL-NONE without '-' sensekey: " ++ kid] else []
    else []

def validateTableRows (rows : List LinkTableRow) : List String := rows.flatMap lib.rowViolations

end LinkLib

/-! ## Statistics -/

/-- The codes of the signals that are written with a colon. -/
def signalCodes : List String := ["Sa", "Sb", "Sc", "Sd", "Se"]

def linkMethodVocab : List String :=
  ["LINK:2-sig", "LINK:3-sig", "LINK:exact-sensekey+2-sig", "LINK:judge-v2", "LINK:manual-override",
    "twin-pending", "quarantined-known-false", "MANUAL-NONE", "UNMAPPED", "JUDGE-PENDING",
    "JUDGE-NONE", "JUDGE-REVIEW", "absent"]

/-- A bucket of `stage`, but for `provisional`. -/
inductive LinkStage where
  | link
  | none
  | pending
  | unmapped
  | twin
  | quarantine
  | other
  deriving DecidableEq, Repr

def statsStage (method : String) : LinkStage :=
  if hasTag "LINK" method then .link
  else if method ∈ ["JUDGE-NONE", "MANUAL-NONE"] then .none
  else if method ∈ ["JUDGE-PENDING", "JUDGE-REVIEW"] then .pending
  else if method = "UNMAPPED" then .unmapped
  else if method = "twin-pending" then .twin
  else if method = "quarantined-known-false" then .quarantine
  else .other

/-- What `link_stats` returns. -/
structure LinkStats where
  total : Nat
  methodCounts : List (String × Nat)
  unknownMethods : List String
  stage : LinkStage → Nat
  provisional : Nat
  signals : String → Nat
  flags : List (String × Nat)

/-- How often each text occurs, in the order of the first times. -/
def countTexts (texts : List String) : List (String × Nat) :=
  texts.eraseDups.map fun text => (text, texts.count text)

/-- The part of an evidence before its first bar. -/
def ruleHalf (evidence : String) : List Char := evidence.toList.takeWhile (· ≠ '|')

namespace LinkLib
variable (lib : LinkLib)

def plusParts (text : List Char) : List String :=
  (text.splitOn '+').map fun part => lib.strip (String.ofList part)

/-- The signal of a part of an evidence, in `_stats_signals`. -/
def statsSignal (tok : String) : Option String :=
  match signalCodes.find? fun code => hasTag (code ++ ":") tok with
  | some code => some code
  | none =>
      if holdsText "short-gloss" tok then some "short-gloss"
      else if tok = "0sig" then some "zero-sig"
      else none

def statsSignals (evidence : String) : List String :=
  let rule := ruleHalf evidence
  let tail := evidence.toList.drop (rule.length + 1)
  (lib.plusParts rule).filterMap statsSignal ++
    if holdsText "judge:" (String.ofList tail) ∨ holdsText "judge:" (String.ofList rule) then ["judge"]
    else []

def linkStats (rows : List LinkTableRow) : LinkStats :=
  let methods := rows.map fun row => row.method.getD ""
  { total := rows.length
    methodCounts := countTexts methods
    unknownMethods := ((countTexts methods).map (·.1)).filter (· ∉ linkMethodVocab) |>.insertionSort (· ≤ ·)
    stage := fun stage => methods.countP fun method => statsStage method = stage
    provisional := rows.countP fun row => holdsText "provisional" (row.flags.getD "") ||
      holdsText "provisional" (row.evidence.getD "")
    signals := fun signal => rows.countP fun row => signal ∈ lib.statsSignals (row.evidence.getD "")
    flags := countTexts (rows.flatMap fun row =>
      (lib.plusParts (row.flags.getD "").toList).filter (· ≠ "")) }

end LinkLib

/-! ## The flow trace -/

/-- The names in `SIGNAL_VOCAB`. -/
def signalVocab : List (String × String) :=
  [("Sa", "lexical-overlap"), ("Sb", "synonym-crossfire"), ("Sc", "example-crossfire"),
    ("Sd", "hypernym-topic"), ("Se", "meaning-similarity"), ("short-gloss", "short-definition"),
    ("zero-sig", "no-signal"), ("judge", "judge-vote")]

/-- The name that `signal_vocab` gives a code. -/
def signalName (code : String) : String :=
  (signalVocab.lookup (if code = "0sig" then "zero-sig" else code)).getD code

def canonRuleSignalNames : List String :=
  (signalVocab.map (·.2)).filter (· ∉ ["no-signal", "judge-vote"])

def flowSignalCode (tok : String) : String :=
  match signalCodes.find? fun code => hasTag (code ++ ":") tok with
  | some code => code
  | none =>
      if holdsText "short-gloss" tok then "short-gloss"
      else if tok ∈ ["0sig", "zero-sig"] then "zero-sig"
      else if holdsText "judge:" tok then "judge"
      else tok

/-- A signal of `flow_trace_data`. -/
structure FlowSignal where
  code : String
  name : String
  aliasText : String
  fired : Bool
  deriving DecidableEq

/-- The signal of a part of an evidence. -/
def flowSignal (tok : String) : FlowSignal where
  code := flowSignalCode tok
  name := signalName (flowSignalCode tok)
  aliasText := tok
  fired := signalName (flowSignalCode tok) ≠ "no-signal"

namespace LinkLib
variable (lib : LinkLib)

/-- The signals of `flow_trace_data`. -/
def flowSignals (evidence : String) : List FlowSignal :=
  let signals := ((lib.plusParts (ruleHalf evidence)).filter (· ≠ "")).map flowSignal
  if signals = [] then [⟨"zero-sig", "no-signal", "0sig", false⟩] else signals

/-- `n_fires` of `flow_trace_data`. -/
def nFires (evidence : String) : Nat :=
  (lib.flowSignals evidence).countP fun s => s.fired && decide (s.name ∈ canonRuleSignalNames)

end LinkLib

end HamZaboon
