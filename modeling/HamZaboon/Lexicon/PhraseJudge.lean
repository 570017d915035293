import HamZaboon.Precard.Replies
import HamZaboon.Precard.Transport
import HamZaboon.Texts.PyFloat

/-! # The phrase judge

`factory/lexicon/phrase_judge.py`: a batch of phrases is graded, or typed, by the first
reply that validates, over two attempts on each of five models and over a ring of keys that
is turned at every 429.  What the transport answers to each call is the script; the prompts
and the telemetry are left out.

Any other HTTP status is raised again and leaves the batch, and so does the error of a
confidence that no float can hold.  A run of batches fails over and closes exactly where no
call is answered so (`phrase_judge_fails_over_iff`).
-/

namespace HamZaboon
open Library

/-- `LEVELS`. -/
def phraseLevels : List String := ["A1", "A2", "B1", "B2", "C1", "C2"]

/-- `MODELS`. -/
def phraseModels : List String :=
  ["muse-spark-1.3-contributor-free", "muse-spark-1.2-contributor-free", "ling-3.0-flash-fin-free",
    "mimo-v2.5-free", "nemotron-3.5-lightning-free"]

def phraseTypes : List String :=
  ["idiom", "phrasal-verb", "collocation", "proverb", "slang", "applied", "proper-noun", "term",
    "abbreviation", "other"]

def appliedKeepTypes : List String :=
  ["idiom", "phrasal-verb", "collocation", "proverb", "slang", "applied"]

def appliedKeepTypesEnExtra : List String := ["abbreviation"]

/-- `applied_keep_for`, for its default language. -/
def appliedKeepFor (phraseType : String) : Bool :=
  phraseType ∈ appliedKeepTypes || phraseType ∈ appliedKeepTypesEnExtra

/-! ## Validation -/

/-- What `float` comes to: a float, a `TypeError` or `ValueError`, or an `OverflowError`. -/
inductive FloatCall
  | value (x : PyFloat)
  | rejects
  | overflows

/-- What the judge takes from Python. -/
structure PhraseLib where
  limits : ScanLimits
  /-- `float(n)`; `none` for the `OverflowError`. -/
  ofInt : Int → Option ℚ
  ofLiteral : List Char → PyFloat
  /-- `float(s)`; `none` for the `ValueError`. -/
  ofText : List Nat → Option PyFloat

/-- `float(value)`. -/
def PhraseLib.float (lib : PhraseLib) : JsonTree → FloatCall
  | .bool value => .value (.finite (if value then 1 else 0))
  | .int n =>
    match lib.ofInt n with
    | some q => .value (.finite q)
    | none => .overflows
  | .float literal => .value (lib.ofLiteral literal)
  | .str s =>
    match lib.ofText s with
    | some x => .value x
    | none => .rejects
  | .null | .arr _ | .obj _ => .rejects

/-- What becomes of an item of a reply. -/
inductive RowCheck (V : Type)
  | ok (verdict : V)
  | rejects
  | raises

/-- What becomes of a reply: verdicts, another attempt, or an exception. -/
inductive PhraseReading (V : Type)
  | accepted (verdicts : List V)
  | rejected
  | raised

/-- A verdict of `validate_results`. -/
structure PhraseVerdict where
  phrase : String
  level : String
  confidence : ℚ
  literal : Bool

/-- A verdict of `validate_type_results`. -/
structure TypeVerdict where
  phrase : String
  phraseType : String
  properNoun : Bool
  appliedKeep : Bool

/-- The body of the loop of `validate_results`. -/
def checkPhrase (lib : PhraseLib) (item : JsonTree) (phrase : String) : RowCheck PhraseVerdict :=
  match item with
  | .obj row =>
    match asId [phrase] (getEntry row "phrase"), asId phraseLevels (getEntry row "level") with
    | some _, some level =>
      match lib.float (getEntry row "confidence"), getEntry row "literal" with
      | .overflows, _ => .raises
      | .value (.finite confidence), .bool literal =>
        if 0 ≤ confidence ∧ confidence ≤ 1 then .ok ⟨phrase, level, confidence, literal⟩ else .rejects
      | _, _ => .rejects
    | _, _ => .rejects
  | _ => .rejects

/-- The body of the loop of `validate_type_results`. -/
def checkType (item : JsonTree) (phrase : String) : RowCheck TypeVerdict :=
  match item with
  | .obj row =>
    match asId [phrase] (getEntry row "phrase"), asId phraseTypes (getEntry row "phrase_type"),
      getEntry row "proper_noun" with
    | some _, some phraseType, .bool properNoun =>
      .ok ⟨phrase, phraseType, properNoun, appliedKeepFor phraseType⟩
    | _, _, _ => .rejects
  | _ => .rejects

/-- A pass over a batch: how an item is checked for a phrase. -/
structure PhrasePass (V : Type) where
  check : JsonTree → String → RowCheck V
  phrase : V → String
  phrase_check : ∀ item want verdict, check item want = .ok verdict → phrase verdict = want

/-- The pass of `grade_batch`. -/
def gradePass (lib : PhraseLib) : PhrasePass PhraseVerdict where
  check := checkPhrase lib
  phrase := PhraseVerdict.phrase
  phrase_check item want verdict h := by
    unfold checkPhrase at h
    split at h
    · split at h
      · split at h
        · cases h
        · split at h
          · obtain rfl := RowCheck.ok.inj h
            rfl
          · cases h
        · cases h
      · cases h
    · cases h

/-- The pass of `grade_type_batch`. -/
def typePass : PhrasePass TypeVerdict where
  check := checkType
  phrase := TypeVerdict.phrase
  phrase_check item want verdict h := by
    unfold checkType at h
    split at h
    · split at h
      · obtain rfl := RowCheck.ok.inj h
        rfl
      · cases h
    · cases h

namespace PhrasePass
variable {V : Type} (pass : PhrasePass V)

/-- The loop over the items and the phrases. -/
def checkRows : List (JsonTree × String) → PhraseReading V
  | [] => .accepted []
  | (item, phrase) :: rows =>
    match pass.check item phrase with
    | .ok verdict =>
      match checkRows rows with
      | .accepted verdicts => .accepted (verdict :: verdicts)
      | failed => failed
    | .rejects => .rejected
    | .raises => .raised

/-- `validate_results`, or `validate_type_results`. -/
def validate (data : Entries) (want : List String) : PhraseReading V :=
  match getEntry data "results" with
  | .arr items => if items.length = want.length then pass.checkRows (items.zip want) else .rejected
  | _ => .rejected

/-- `extract_json` and the validation. -/
def read (limits : ScanLimits) (want : List String) (raw : String) : PhraseReading V :=
  match extractJson limits raw.toList with
  | .ok data => pass.validate data want
  | .error _ => .rejected

end PhrasePass

/-! ## Calls over the ring -/

/-- What the transport answers: a text, an HTTP error, or another exception. -/
inductive PhraseAnswer
  | reply (raw : String)
  | httpError (code : Int)
  | failed
  deriving DecidableEq

/-- A call of the transport: the key, the model and the number of the attempt on it. -/
structure PhraseAttempt where
  key : Option Nat
  model : String
  no : Nat
  answer : PhraseAnswer
  deriving DecidableEq

/-- The ring, and the calls so far. -/
structure PhraseState where
  ring : Option KeyRing
  log : List PhraseAttempt

def PhraseState.called (s : PhraseState) (model : String) (no : Nat) (answer : PhraseAnswer) :
    PhraseState :=
  { s with log := s.log ++ [⟨s.ring.map (·.idx), model, no, answer⟩] }

/-- How `call_with_backoff` ends. -/
inductive PhraseCallEnd
  | text (raw : String)
  | httpError (code : Int)
  | rateLimited
  | failed

/-- `call_with_backoff`. -/
def phraseCall (script : Nat → PhraseAnswer) (model : String) (no : Nat) (s : PhraseState) :
    PhraseState × PhraseCallEnd :=
  let called := s.called model no (script s.log.length)
  match script s.log.length with
  | .reply raw => ({ called with ring := s.ring.map KeyRing.settled }, .text raw)
  | .failed => (called, .failed)
  | .httpError code =>
    match _hring : s.ring with
    | none => (called, .httpError code)
    | some ring =>
      if code = 429 then
        if _h : ring.rotate.2 = true then
          phraseCall script model no { called with ring := some ring.rotate.1 }
        else ({ called with ring := some ring.rotate.1 }, .rateLimited)
      else (called, .httpError code)
termination_by (s.ring.map KeyRing.left).getD 0
decreasing_by
  rw [_hring]
  exact KeyRing.left_rotate _h

/-! ## Batches -/

/-- The exceptions that nobody expects. -/
inductive PhraseEscape
  | httpError (code : Int)
  | overflowError
  deriving DecidableEq

/-- What a batch returns; each verdict has the number of the attempt. -/
structure PhraseReturn (V : Type) where
  verdicts : List V
  attempts : Nat
  model : String
  calls : List (String × Nat)

/-- How a batch ends. -/
inductive PhraseEnd (V : Type)
  | returned (result : PhraseReturn V)
  | authError
  | rateLimited
  | lookupError
  | escaped (e : PhraseEscape)

def raiseForAuth {V : Type} (code : Int) : PhraseEnd V :=
  if code = 401 ∨ code = 403 then .authError else .escaped (.httpError code)

def phraseAttempts : List (String × Nat) := phraseModels.flatMap fun model => [(model, 1), (model, 2)]

section Batches
variable {V : Type} (lib : PhraseLib) (script : Nat → PhraseAnswer)

/-- The loops over the models and the prompts. -/
def phraseLoop (pass : PhrasePass V) (want : List String) :
    List (String × Nat) → PhraseState → PhraseState × PhraseEnd V
  | [], s => (s, .lookupError)
  | (model, no) :: rest, s =>
    match phraseCall script model no s with
    | (s, .httpError code) => (s, raiseForAuth code)
    | (s, .rateLimited) => (s, .rateLimited)
    | (s, .failed) => phraseLoop pass want rest s
    | (s, .text raw) =>
      match pass.read lib.limits want raw with
      | .accepted verdicts => (s, .returned ⟨verdicts, no, model, [(model, 1)]⟩)
      | .rejected => phraseLoop pass want rest s
      | .raised => (s, .escaped .overflowError)

def gradeBatch (want : List String) (s : PhraseState) : PhraseState × PhraseEnd PhraseVerdict :=
  phraseLoop lib script (gradePass lib) want phraseAttempts s

def gradeTypeBatch (want : List String) (s : PhraseState) : PhraseState × PhraseEnd TypeVerdict :=
  phraseLoop lib script typePass want phraseAttempts s

end Batches

/-- A batch of phrases, to be graded or to be typed. -/
inductive PhraseJob
  | grade (phrases : List String)
  | type (phrases : List String)

/-- A batch on the ring that the batches before it have left. -/
def phraseStep (lib : PhraseLib) (script : Nat → PhraseAnswer) (s : PhraseState) : PhraseJob → PhraseState
  | .grade phrases => (gradeBatch lib script phrases s).1
  | .type phrases => (gradeTypeBatch lib script phrases s).1

/-- A ring without a streak, or no ring, and no calls. -/
def PhraseState.start (ring : Option KeyRing) : PhraseState := ⟨ring.map KeyRing.settled, []⟩

/-! ## What is asked of a batch -/

/-- The keys that answered 429 since the last reply, with one more call. -/
def limitedStep (since : List Nat) (a : PhraseAttempt) : List Nat :=
  match a.answer with
  | .reply _ => []
  | .httpError code => if code = 429 then since ++ a.key.toList else since
  | .failed => since

/-- The keys that have answered 429 since the last reply. -/
def limitedSince (log : List PhraseAttempt) : List Nat := log.foldl limitedStep []

/-- The attempts that calls belong to; a 429 leaves its attempt to the next call. -/
def attemptsOf (log : List PhraseAttempt) : List (String × Nat) :=
  (log.filter fun a => a.answer ≠ .httpError 429).map fun a => (a.model, a.no)

section Outcomes
variable {V : Type} (lib : PhraseLib) (pass : PhrasePass V) (want : List String)

/-- The call is answered with a reply that validates. -/
def Validates (a : PhraseAttempt) (verdicts : List V) : Prop :=
  ∃ raw, a.answer = .reply raw ∧ pass.read lib.limits want raw = .accepted verdicts

/-- An answer that leaves the batch: an HTTP status that is not 401, not 403 and no 429 with
another key, or a reply whose validation raises. -/
def Escapes (ringed : Bool) : PhraseAnswer → Prop
  | .reply raw => pass.read lib.limits want raw = .raised
  | .httpError code => code ≠ 401 ∧ code ≠ 403 ∧ ¬ (code = 429 ∧ ringed = true)
  | .failed => False

structure FailsOver (s s' : PhraseState) (e : PhraseEnd V) : Prop where
  /-- Verdicts for the phrases of the batch, from the first reply that validates. -/
  returned : ∀ result, e = .returned result → result.verdicts.map pass.phrase = want ∧
    ∃ before last, s'.log = s.log ++ before ++ [last] ∧
      Validates lib pass want last result.verdicts ∧
      (∀ a ∈ before, ∀ verdicts, ¬ Validates lib pass want a verdicts) ∧
      last.model = result.model ∧ last.no = result.attempts ∧ result.calls = [(result.model, 1)]
  auth : e = .authError → ∃ before last, s'.log = s.log ++ before ++ [last] ∧
    (last.answer = .httpError 401 ∨ last.answer = .httpError 403)
  limited : e = .rateLimited → ∃ ring, s'.ring = some ring ∧
    ∀ i < ring.keys.length, i ∈ limitedSince s'.log
  /-- Both attempts on every model have failed. -/
  lookup : e = .lookupError → ∃ new, s'.log = s.log ++ new ∧ attemptsOf new = phraseAttempts ∧
    ∀ a ∈ new, ∀ verdicts, ¬ Validates lib pass want a verdicts
  /-- No attempt is left out on the way. -/
  order : ∃ new, s'.log = s.log ++ new ∧ attemptsOf new <+: phraseAttempts
  closed : ∀ escape, e ≠ .escaped escape

/-- The batch gets no answer that leaves it. -/
def Spared (s s' : PhraseState) : Prop :=
  ∀ a ∈ s'.log.drop s.log.length, ¬ Escapes lib pass want s.ring.isSome a.answer

end Outcomes

/-- A batch of a run fails over and closes. -/
def JobFailsOver (lib : PhraseLib) (script : Nat → PhraseAnswer) (s : PhraseState) : PhraseJob → Prop
  | .grade phrases =>
    FailsOver lib (gradePass lib) phrases s (gradeBatch lib script phrases s).1
      (gradeBatch lib script phrases s).2
  | .type phrases =>
    FailsOver lib typePass phrases s (gradeTypeBatch lib script phrases s).1
      (gradeTypeBatch lib script phrases s).2

/-- A batch of a run gets no answer that leaves it. -/
def JobSpared (lib : PhraseLib) (script : Nat → PhraseAnswer) (s : PhraseState) : PhraseJob → Prop
  | .grade phrases => Spared lib (gradePass lib) phrases s (gradeBatch lib script phrases s).1
  | .type phrases => Spared lib typePass phrases s (gradeTypeBatch lib script phrases s).1

/-! ## Validation keeps the phrases -/

section Validation
variable {V : Type} {pass : PhrasePass V}

theorem phrases_checkRows {rows : List (JsonTree × String)} {verdicts : List V}
    (h : pass.checkRows rows = .accepted verdicts) : verdicts.map pass.phrase = rows.map (·.2) := by
  induction rows generalizing verdicts with
  | nil =>
    obtain rfl := PhraseReading.accepted.inj h
    rfl
  | cons row rows ih =>
    obtain ⟨item, phrase⟩ := row
    unfold PhrasePass.checkRows at h
    split at h
    · rename_i verdict hverdict
      split at h
      · rename_i rest hrest
        obtain rfl := PhraseReading.accepted.inj h
        rw [List.map_cons, List.map_cons, ih hrest, pass.phrase_check item phrase verdict hverdict]
      · rename_i hrest
        exact absurd h (hrest verdicts)
    · cases h
    · cases h

theorem phrases_read {limits : ScanLimits} {want : List String} {raw : String} {verdicts : List V}
    (h : pass.read limits want raw = .accepted verdicts) : verdicts.map pass.phrase = want := by
  unfold PhrasePass.read at h
  split at h
  · unfold PhrasePass.validate at h
    split at h
    · split at h
      · rename_i hlength
        rw [phrases_checkRows h, List.map_snd_zip (Nat.le_of_eq hlength.symm)]
      · cases h
    · cases h
  · cases h

end Validation

/-! ## One call -/

def PhraseCallEnd.answer : PhraseCallEnd → PhraseAnswer
  | .text raw => .reply raw
  | .httpError code => .httpError code
  | .rateLimited => .httpError 429
  | .failed => .failed

/-- The streak of the ring is covered by the keys that answered 429 since the last reply. -/
def PhraseState.Covered (s : PhraseState) : Prop :=
  ∀ ring, s.ring = some ring → StreakCovered ring (limitedSince s.log)

theorem limitedSince_append (log : List PhraseAttempt) (a : PhraseAttempt) :
    limitedSince (log ++ [a]) = limitedStep (limitedSince log) a := List.foldl_concat ..

/-- What a call leaves behind: calls that were answered 429 and the one that ends it. -/
structure CallFacts (model : String) (no : Nat) (s s' : PhraseState) (e : PhraseCallEnd) : Prop where
  log : ∃ refused last, s'.log = s.log ++ refused ++ [last] ∧
    (∀ a ∈ refused, a.answer = .httpError 429 ∧ s.ring.isSome = true) ∧
    last.model = model ∧ last.no = no ∧ last.answer = e.answer
  ringed : s'.ring.isSome = s.ring.isSome
  http : ∀ code, e = .httpError code → ¬ (code = 429 ∧ s.ring.isSome = true)
  covered : s.Covered → s'.Covered
  limited : e = .rateLimited → s.ring.isSome = true ∧
    (s.Covered → ∃ ring, s'.ring = some ring ∧ ∀ i < ring.keys.length, i ∈ limitedSince s'.log)

section Calls
variable {script : Nat → PhraseAnswer} {model : String} {no : Nat} {s : PhraseState}

theorem covered_called {answer : PhraseAnswer} (h : s.Covered)
    (hanswer : limitedStep (limitedSince s.log) ⟨s.ring.map (·.idx), model, no, answer⟩ =
      limitedSince s.log) : (s.called model no answer).Covered := by
  intro ring hring
  show StreakCovered ring (limitedSince (s.log ++ [_]))
  rw [limitedSince_append, hanswer]
  exact h ring hring

theorem limitedSince_refused {ring : KeyRing} (hring : s.ring = some ring) :
    limitedSince (s.called model no (.httpError 429)).log = limitedSince s.log ++ [ring.idx] := by
  show limitedSince (s.log ++ [_]) = _
  rw [limitedSince_append, hring]
  rfl

theorem covered_rotated {ring : KeyRing} (h : s.Covered) (hring : s.ring = some ring) :
    PhraseState.Covered ⟨some ring.rotate.1, (s.called model no (.httpError 429)).log⟩ := by
  intro ring' hring'
  obtain rfl := Option.some.inj hring'
  show StreakCovered _ (limitedSince (s.called model no (.httpError 429)).log)
  rw [limitedSince_refused hring]
  by_cases hmore : ring.rotate.2 = true
  · exact (h ring hring).rotate hmore
  · exact .of_fresh (by rw [KeyRing.used_rotate, if_neg hmore])

theorem callFacts_first {ring : Option KeyRing} {e : PhraseCallEnd}
    (hringed : ring.isSome = s.ring.isSome)
    (hhttp : ∀ code, e = .httpError code → ¬ (code = 429 ∧ s.ring.isSome = true))
    (hcovered : s.Covered → PhraseState.Covered ⟨ring, (s.called model no e.answer).log⟩)
    (hlimited : e = .rateLimited → s.ring.isSome = true ∧ (s.Covered → ∃ ring', ring = some ring' ∧
      ∀ i < ring'.keys.length, i ∈ limitedSince (s.called model no e.answer).log)) :
    CallFacts model no s ⟨ring, (s.called model no e.answer).log⟩ e where
  log := ⟨[], ⟨s.ring.map (·.idx), model, no, e.answer⟩, by rw [List.append_nil]; rfl, nofun, rfl, rfl, rfl⟩
  ringed := hringed
  http := hhttp
  covered := hcovered
  limited := hlimited

theorem CallFacts.after {ring : KeyRing} {s' : PhraseState} {e : PhraseCallEnd}
    (hring : s.ring = some ring)
    (h : CallFacts model no ⟨some ring.rotate.1, (s.called model no (.httpError 429)).log⟩ s' e) :
    CallFacts model no s s' e := by
  have hringed : s.ring.isSome = true := by rw [hring]; rfl
  obtain ⟨refused, last, hlog, hrefused, hlast⟩ := h.log
  refine ⟨⟨⟨s.ring.map (·.idx), model, no, .httpError 429⟩ :: refused, last, ?_, ?_, hlast⟩,
    h.ringed.trans hringed.symm, fun code he hcode => h.http code he ⟨hcode.1, rfl⟩,
    fun hs => h.covered (covered_rotated hs hring),
    fun he => ⟨hringed, fun hs => (h.limited he).2 (covered_rotated hs hring)⟩⟩
  · rw [hlog]
    simp [PhraseState.called]
  · intro a ha
    rcases List.mem_cons.mp ha with rfl | ha
    · exact ⟨rfl, hringed⟩
    · exact ⟨(hrefused a ha).1, hringed⟩

theorem callFacts (script : Nat → PhraseAnswer) (model : String) (no : Nat) (s : PhraseState) :
    CallFacts model no s (phraseCall script model no s).1 (phraseCall script model no s).2 := by
  fun_induction phraseCall script model no s with
  | case1 s called raw hraw =>
    have hcalled : called = s.called model no (.reply raw) := congrArg (s.called model no) hraw
    clear_value called
    subst hcalled
    refine callFacts_first (e := .text raw) (by simp) nofun (fun _ ring hring => ?_) nofun
    obtain ⟨ring, -, rfl⟩ := Option.map_eq_some_iff.mp hring
    exact .of_fresh rfl
  | case2 s called hfailed =>
    have hcalled : called = s.called model no .failed := congrArg (s.called model no) hfailed
    clear_value called
    subst hcalled
    exact callFacts_first (e := .failed) rfl nofun (fun h => covered_called h rfl) nofun
  | case3 s called code hcode hnone =>
    have hcalled : called = s.called model no (.httpError code) := congrArg (s.called model no) hcode
    clear_value called
    subst hcalled
    refine callFacts_first (e := .httpError code) rfl (fun _ _ h => ?_) (fun h => ?_) nofun
    · rw [hnone] at h
      cases h.2
    · refine covered_called h ?_
      rw [hnone]
      show (if code = 429 then limitedSince s.log ++ [] else _) = _
      rw [List.append_nil, ite_self]
  | case4 s called ring hring hmore hcode ih =>
    have hcalled : called = s.called model no (.httpError 429) := congrArg (s.called model no) hcode
    clear_value called
    subst hcalled
    exact ih.after hring
  | case5 s called ring hring hlast hcode =>
    have hcalled : called = s.called model no (.httpError 429) := congrArg (s.called model no) hcode
    clear_value called
    subst hcalled
    refine callFacts_first (e := .rateLimited) (by rw [hring]; rfl) nofun
      (fun h => covered_rotated h hring) fun _ => ⟨by rw [hring]; rfl, fun h => ?_⟩
    refine ⟨_, rfl, ?_⟩
    show ∀ i < ring.rotate.1.keys.length, i ∈ limitedSince (s.called model no (.httpError 429)).log
    rw [limitedSince_refused hring, KeyRing.keys_rotate]
    exact (h ring hring).all hlast
  | case6 s called code hcode ring hring hother =>
    have hcalled : called = s.called model no (.httpError code) := congrArg (s.called model no) hcode
    clear_value called
    subst hcalled
    refine callFacts_first (e := .httpError code) rfl ?_ (fun h => covered_called h (if_neg hother)) nofun
    rintro _ he ⟨rfl, -⟩
    exact hother (PhraseCallEnd.httpError.inj he)

end Calls

/-! ## One batch -/

section Loop
variable {V : Type} {lib : PhraseLib} {pass : PhrasePass V} {want : List String}
  {script : Nat → PhraseAnswer} {s s' s'' : PhraseState} {model : String} {no : Nat}

/-- An answer after which the batch goes on. -/
def PassesOn (lib : PhraseLib) (pass : PhrasePass V) (want : List String) (ringed : Bool) :
    PhraseAnswer → Prop
  | .reply raw => pass.read lib.limits want raw = .rejected
  | .httpError code => code = 429 ∧ ringed = true
  | .failed => True

/-- How the call is answered that a batch ends with. -/
def EndsWith (lib : PhraseLib) (pass : PhrasePass V) (want : List String) (ringed : Bool) :
    PhraseEnd V → PhraseAttempt → Prop
  | .returned result, a => Validates lib pass want a result.verdicts ∧ a.model = result.model ∧
      a.no = result.attempts ∧ result.calls = [(result.model, 1)]
  | .authError, a => a.answer = .httpError 401 ∨ a.answer = .httpError 403
  | .rateLimited, a => a.answer = .httpError 429 ∧ ringed = true
  | .lookupError, _ => False
  | .escaped _, a => Escapes lib pass want ringed a.answer

/-- What the loop leaves behind: calls after which it goes on, and the one it ends with,
unless the attempts are used up. -/
structure PhraseLoopFacts (lib : PhraseLib) (pass : PhrasePass V) (want : List String)
    (attempts : List (String × Nat)) (s s' : PhraseState) (e : PhraseEnd V) : Prop where
  log : ∃ passed, (∀ a ∈ passed, PassesOn lib pass want s.ring.isSome a.answer) ∧
    ((e = .lookupError ∧ s'.log = s.log ++ passed ∧ attemptsOf passed = attempts) ∨
      ∃ last rest, s'.log = s.log ++ passed ++ [last] ∧ EndsWith lib pass want s.ring.isSome e last ∧
        attempts = attemptsOf passed ++ (last.model, last.no) :: rest)
  ringed : s'.ring.isSome = s.ring.isSome
  covered : s.Covered → s'.Covered
  limited : e = .rateLimited → s.Covered →
    ∃ ring, s'.ring = some ring ∧ ∀ i < ring.keys.length, i ∈ limitedSince s'.log

theorem attemptsOf_refused {refused : List PhraseAttempt}
    (h : ∀ a ∈ refused, a.answer = .httpError 429) : attemptsOf refused = [] := by
  unfold attemptsOf
  rw [List.filter_eq_nil_iff.mpr fun a ha => by simp [h a ha]]
  rfl

theorem attemptsOf_singleton (a : PhraseAttempt) :
    attemptsOf [a] = if a.answer = .httpError 429 then [] else [(a.model, a.no)] := by
  by_cases h : a.answer = .httpError 429 <;> simp [attemptsOf, h]

theorem attemptsOf_append (a b : List PhraseAttempt) :
    attemptsOf (a ++ b) = attemptsOf a ++ attemptsOf b := by
  rw [attemptsOf, List.filter_append, List.map_append]
  rfl

theorem CallFacts.ends {e : PhraseCallEnd} (h : CallFacts model no s s' e) {ended : PhraseEnd V}
    {rest : List (String × Nat)}
    (hends : ∀ last : PhraseAttempt, last.model = model → last.no = no → last.answer = e.answer →
      EndsWith lib pass want s.ring.isSome ended last)
    (hlimited : ended = .rateLimited → e = .rateLimited) :
    PhraseLoopFacts lib pass want ((model, no) :: rest) s s' ended := by
  obtain ⟨refused, last, hlog, hrefused, hmodel, hno, hanswer⟩ := h.log
  refine ⟨⟨refused, fun a ha => ?_, Or.inr ⟨last, rest, hlog, hends last hmodel hno hanswer, ?_⟩⟩,
    h.ringed, h.covered, fun he => (h.limited (hlimited he)).2⟩
  · rw [(hrefused a ha).1]
    exact ⟨rfl, (hrefused a ha).2⟩
  · rw [attemptsOf_refused fun a ha => (hrefused a ha).1, hmodel, hno]
    rfl

theorem CallFacts.goes_on {e : PhraseCallEnd} (h : CallFacts model no s s' e)
    (hpass : PassesOn lib pass want s.ring.isSome e.answer) (hnot : e.answer ≠ .httpError 429)
    {ended : PhraseEnd V} {rest : List (String × Nat)}
    (hrest : PhraseLoopFacts lib pass want rest s' s'' ended) :
    PhraseLoopFacts lib pass want ((model, no) :: rest) s s'' ended := by
  obtain ⟨refused, last, hlog, hrefused, hmodel, hno, hanswer⟩ := h.log
  obtain ⟨passed, hpassed, hend⟩ := hrest.log
  have hattempts : attemptsOf (refused ++ [last] ++ passed) = (model, no) :: attemptsOf passed := by
    rw [attemptsOf_append, attemptsOf_append, attemptsOf_refused fun a ha => (hrefused a ha).1]
    have hlast : attemptsOf [last] = [(model, no)] := by
      rw [attemptsOf_singleton, hanswer, if_neg hnot, hmodel, hno]
    rw [hlast]
    rfl
  refine ⟨⟨refused ++ [last] ++ passed, fun a ha => ?_, ?_⟩, hrest.ringed.trans h.ringed,
    fun hs => hrest.covered (h.covered hs), fun he hs => hrest.limited he (h.covered hs)⟩
  · rcases List.mem_append.mp ha with ha | ha
    · rcases List.mem_append.mp ha with ha | ha
      · rw [(hrefused a ha).1]
        exact ⟨rfl, (hrefused a ha).2⟩
      · obtain rfl := List.mem_singleton.mp ha
        exact hanswer ▸ hpass
    · exact h.ringed ▸ hpassed a ha
  · rw [hattempts]
    rcases hend with ⟨he, hlog', hrest'⟩ | ⟨last', rest', hlog', hends, hrest'⟩
    · exact Or.inl ⟨he, by rw [hlog', hlog]; simp, by rw [hrest']⟩
    · exact Or.inr ⟨last', rest', by rw [hlog', hlog]; simp, h.ringed ▸ hends, by rw [hrest']; rfl⟩

variable (lib pass) in
theorem phraseLoopFacts (attempts : List (String × Nat)) (s : PhraseState) :
    PhraseLoopFacts lib pass want attempts s (phraseLoop lib script pass want attempts s).1
      (phraseLoop lib script pass want attempts s).2 := by
  induction attempts generalizing s with
  | nil =>
    exact ⟨⟨[], nofun, Or.inl ⟨rfl, (List.append_nil _).symm, rfl⟩⟩, rfl, id, nofun⟩
  | cons attempt rest ih =>
    obtain ⟨model, no⟩ := attempt
    have hcall := callFacts script model no s
    unfold phraseLoop
    split
    · rename_i s' code heq
      rw [heq] at hcall
      unfold raiseForAuth
      split
      · rename_i hauth
        refine hcall.ends (fun last _ _ hanswer => ?_) nofun
        rcases hauth with rfl | rfl
        · exact Or.inl hanswer
        · exact Or.inr hanswer
      · rename_i hother
        obtain ⟨h401, h403⟩ := not_or.mp hother
        refine hcall.ends (fun last _ _ hanswer => ?_) nofun
        show Escapes lib pass want _ last.answer
        rw [hanswer]
        exact ⟨h401, h403, hcall.http code rfl⟩
    · rename_i s' heq
      rw [heq] at hcall
      exact hcall.ends (fun last _ _ hanswer => ⟨hanswer, (hcall.limited rfl).1⟩) fun _ => rfl
    · rename_i s' heq
      rw [heq] at hcall
      exact hcall.goes_on trivial nofun (ih s')
    · rename_i s' raw heq
      rw [heq] at hcall
      split
      · rename_i verdicts hread
        exact hcall.ends (fun last hmodel hno hanswer => ⟨⟨raw, hanswer, hread⟩, hmodel, hno, rfl⟩) nofun
      · rename_i hread
        exact hcall.goes_on hread nofun (ih s')
      · rename_i hread
        refine hcall.ends (fun last _ _ hanswer => ?_) nofun
        show Escapes lib pass want _ last.answer
        rw [hanswer]
        exact hread

theorem PassesOn.not_validates {ringed : Bool} {a : PhraseAttempt}
    (h : PassesOn lib pass want ringed a.answer) (verdicts : List V) :
    ¬ Validates lib pass want a verdicts := by
  rintro ⟨raw, hanswer, hread⟩
  rw [hanswer] at h
  cases hread.symm.trans h

theorem PassesOn.not_escapes {ringed : Bool} {answer : PhraseAnswer}
    (h : PassesOn lib pass want ringed answer) : ¬ Escapes lib pass want ringed answer := by
  cases answer with
  | reply raw => exact fun hraised => by cases hraised.symm.trans h
  | httpError code => exact fun hescapes => hescapes.2.2 h
  | failed => exact id

theorem EndsWith.escapes_iff {ringed : Bool} {e : PhraseEnd V} {a : PhraseAttempt}
    (h : EndsWith lib pass want ringed e a) :
    Escapes lib pass want ringed a.answer ↔ ∃ escape, e = .escaped escape := by
  cases e with
  | returned result =>
    obtain ⟨⟨raw, hanswer, hread⟩, -⟩ := h
    rw [hanswer]
    exact iff_of_false (fun hraised => by cases hraised.symm.trans hread) (by simp)
  | authError =>
    refine iff_of_false ?_ (by simp)
    rcases h with hanswer | hanswer
    · rw [hanswer]
      exact fun hescapes => hescapes.1 rfl
    · rw [hanswer]
      exact fun hescapes => hescapes.2.1 rfl
  | rateLimited =>
    rw [h.1]
    exact iff_of_false (fun hescapes => hescapes.2.2 ⟨rfl, h.2⟩) (by simp)
  | lookupError => exact h.elim
  | escaped escape => exact iff_of_true h ⟨escape, rfl⟩

theorem PhraseLoopFacts.spared_iff {attempts : List (String × Nat)} {e : PhraseEnd V}
    (h : PhraseLoopFacts lib pass want attempts s s' e) :
    Spared lib pass want s s' ↔ ∀ escape, e ≠ .escaped escape := by
  obtain ⟨passed, hpassed, ⟨rfl, hlog, -⟩ | ⟨last, rest, hlog, hends, -⟩⟩ := h.log
  · refine iff_of_true ?_ nofun
    unfold Spared
    rw [hlog, List.drop_left]
    exact fun a ha => (hpassed a ha).not_escapes
  · have hlast : Escapes lib pass want s.ring.isSome last.answer ↔ ∃ escape, e = .escaped escape :=
      hends.escapes_iff
    unfold Spared
    rw [hlog, List.append_assoc, List.drop_left, List.forall_mem_append]
    simp only [List.forall_mem_singleton, hlast, not_exists]
    exact and_iff_right fun a ha => (hpassed a ha).not_escapes

theorem PhraseLoopFacts.failsOver_iff {e : PhraseEnd V}
    (h : PhraseLoopFacts lib pass want phraseAttempts s s' e) (hs : s.Covered) :
    FailsOver lib pass want s s' e ↔ Spared lib pass want s s' := by
  rw [h.spared_iff]
  refine ⟨fun hfails => hfails.closed, fun hclosed => ?_⟩
  obtain ⟨passed, hpassed, ⟨rfl, hlog, hattempts⟩ | ⟨last, rest, hlog, hends, hattempts⟩⟩ := h.log
  · refine ⟨nofun, nofun, nofun, fun _ => ?_, ?_, hclosed⟩
    · exact ⟨passed, hlog, hattempts, fun a ha => (hpassed a ha).not_validates⟩
    · exact ⟨passed, hlog, hattempts ▸ List.prefix_rfl⟩
  · have horder : ∃ new, s'.log = s.log ++ new ∧ attemptsOf new <+: phraseAttempts := by
      refine ⟨passed ++ [last], by rw [hlog, List.append_assoc], ?_⟩
      rw [attemptsOf_append, hattempts, attemptsOf_singleton, List.prefix_append_right_inj]
      split
      · exact List.nil_prefix
      · exact ⟨rest, rfl⟩
    refine ⟨?_, ?_, fun he => h.limited he hs, ?_, horder, hclosed⟩
    · rintro result rfl
      obtain ⟨⟨raw, hanswer, hread⟩, hmodel, hno, hcalls⟩ := hends
      exact ⟨phrases_read hread, passed, last, hlog, ⟨raw, hanswer, hread⟩,
        fun a ha => (hpassed a ha).not_validates, hmodel, hno, hcalls⟩
    · rintro rfl
      exact ⟨passed, last, hlog, hends⟩
    · rintro rfl
      exact hends.elim

end Loop

/-! ## Runs of batches -/

theorem covered_start (ring : Option KeyRing) : (PhraseState.start ring).Covered := by
  intro settled hsettled
  obtain ⟨ring, -, rfl⟩ := Option.map_eq_some_iff.mp hsettled
  exact .of_fresh rfl

/-- **Failing over.**  From a ring without a streak, or with one key and no ring, every batch
of a run fails over and closes exactly where none gets an answer that leaves it. -/
theorem phrase_judge_fails_over_iff (lib : PhraseLib) (script : Nat → PhraseAnswer)
    (ring : Option KeyRing) (jobs : List PhraseJob) :
    Meets (phraseStep lib script) (JobFailsOver lib script) (.start ring) jobs ↔
      Meets (phraseStep lib script) (JobSpared lib script) (.start ring) jobs := by
  refine meets_iff_of_invariant (phraseStep lib script) (I := PhraseState.Covered) ?_ ?_
    (covered_start ring) jobs
  · intro s job hs
    cases job with
    | grade phrases => exact (phraseLoopFacts lib _ phraseAttempts s).failsOver_iff hs
    | type phrases => exact (phraseLoopFacts lib _ phraseAttempts s).failsOver_iff hs
  · intro s job hs _
    cases job with
    | grade phrases => exact (phraseLoopFacts lib (gradePass lib) phraseAttempts s).covered hs
    | type phrases => exact (phraseLoopFacts lib typePass phraseAttempts s).covered hs

/-- Limits for short replies, and no number that is a confidence. -/
def shortReplies : PhraseLib where
  limits := ⟨100, 4300⟩
  ofInt _ := none
  ofLiteral _ := .nan
  ofText _ := none

/-- A server error, and after it nothing but replies. -/
def firstFails : Nat → PhraseAnswer
  | 0 => .httpError 500
  | _ + 1 => .reply "\x7b\x7d"

/-- A server error on the first call leaves the batch, and no other model is tried. -/
theorem server_error_leaves_batch :
    (gradeBatch shortReplies firstFails ["take care"] (.start (some twoKeys))).2 =
        .escaped (.httpError 500) ∧
      (gradeBatch shortReplies firstFails ["take care"] (.start (some twoKeys))).1.log.length = 1 ∧
      ¬ Meets (phraseStep shortReplies firstFails) (JobFailsOver shortReplies firstFails)
        (.start (some twoKeys)) [.grade ["take care"]] := by
  have hcall : ∀ model no, phraseCall firstFails model no (.start (some twoKeys)) =
      ((PhraseState.start (some twoKeys)).called model no (.httpError 500), .httpError 500) := by
    intro model no
    rw [phraseCall]
    rfl
  have hbatch : gradeBatch shortReplies firstFails ["take care"] (.start (some twoKeys)) =
      ((PhraseState.start (some twoKeys)).called "muse-spark-1.3-contributor-free" 1 (.httpError 500),
        .escaped (.httpError 500)) := by
    show phraseLoop _ _ _ _ (("muse-spark-1.3-contributor-free", 1) :: _) _ = _
    rw [phraseLoop, hcall]
    rfl
  refine ⟨by rw [hbatch], by rw [hbatch]; rfl, fun h => ?_⟩
  exact h.1.closed (.httpError 500) (by rw [hbatch])

end HamZaboon
