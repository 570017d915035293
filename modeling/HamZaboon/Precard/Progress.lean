import HamZaboon.Library.Json
import HamZaboon.Library.Results
import Mathlib.Logic.Function.Basic

/-! # Progress files

The seven stages of the pre-card pipeline keep their progress in a file each.  A
session looks for the file under its new name and then under the names of older
versions; what it loads it writes back under the new names.

The fallback takes the first old file there is, whichever stage it was written
for.  A session resumes each stage from its own file exactly when it is blocked
by a file it cannot read or every stage without its new file is the stage of that
first old file (`resumes_own_iff`).
-/

namespace HamZaboon
open Library

/-- `STAGES`. -/
inductive Stage
  | preprocess
  | inflectionReview
  | anchorRank
  | senseJudge
  | topicVectors
  | topicLabel
  | enrich
  deriving DecidableEq, Repr

namespace Stage

def all : List Stage :=
  [preprocess, inflectionReview, anchorRank, senseJudge, topicVectors, topicLabel, enrich]

theorem mem_all (stage : Stage) : stage ∈ all := by cases stage <;> decide

/-- `FILES`. -/
def file : Stage → String
  | preprocess => "preprocess.json"
  | inflectionReview => "inflection-review.json"
  | anchorRank => "anchor.json"
  | senseJudge => "sense-judge.json"
  | topicVectors => "vectors.json"
  | topicLabel => "topic-label.json"
  | enrich => "enrich.json"

theorem file_injective {a b : Stage} (h : a.file = b.file) : a = b := by
  cases a <;> cases b <;> first | rfl | exact absurd h (by decide)

def legacy : List (String × Stage) :=
  [("s0", preprocess), ("s0b", inflectionReview), ("s1", anchorRank), ("s2", senseJudge),
    ("s3", topicVectors), ("s4", topicLabel), ("s5", enrich), ("inflection", inflectionReview),
    ("inflection-review", inflectionReview), ("anchor", anchorRank), ("judge", senseJudge),
    ("sense-judge", senseJudge), ("davarie-mana", senseJudge), ("vectors", topicVectors),
    ("label", topicLabel), ("topic-label", topicLabel), ("enrich", enrich)]

end Stage

def oldFiles : List String :=
  ["s0.json", "s0b.json", "s1.json", "s2.json", "s3.json", "s4.json", "s5.json",
    "inflection.json", "judge.json", "label.json"]

/-- The stage a file was written for: by its new name, or by its legacy id. -/
def fileStage (name : String) : Option Stage :=
  match Stage.all.find? (·.file = name) with
  | some stage => some stage
  | none => (Stage.legacy.find? fun e => e.1 ++ ".json" = name).map (·.2)

@[simp] theorem fileStage_file (stage : Stage) : fileStage stage.file = some stage := by
  cases stage <;> decide

/-- What `exists()` says of a path, and what `read_text` and `json.loads` make of
a file that is there. -/
inductive FileStatus
  | missing
  | unreachable
  | present (content : Except String JsonValue)

structure ProgressDir where
  path : String
  file : String → FileStatus

structure StageState where
  done : Dict := []
  failed : List JsonValue := []
  backoffs : List JsonValue := []

abbrev Progress := Stage → StageState

/-- How a load ends that does not: with `_preflight_exit`, or with an exception of
a path or of a file that holds no such object. -/
inductive LoadStop
  | preflight (message : String)
  | raised
  deriving DecidableEq, Repr

namespace StageState

/-- `loaded.get(field, {})`. -/
def dictField (loaded : Dict) (field : String) : Except LoadStop Dict :=
  match loaded.lookup field with
  | none => .ok []
  | some (.obj entries) => .ok entries
  | some _ => .error .raised

/-- `loaded.get(field, [])`. -/
def listField (loaded : Dict) (field : String) : Except LoadStop (List JsonValue) :=
  match loaded.lookup field with
  | none => .ok []
  | some (.arr items) => .ok items
  | some _ => .error .raised

/-- The state a file holds. -/
def decode : JsonValue → Except LoadStop StageState
  | .obj loaded => do
    let done ← dictField loaded "done"
    let failed ← listField loaded "failed"
    let backoffs ← listField loaded "backoffs"
    return { done, failed, backoffs }
  | _ => .error .raised

/-- What `write_progress` writes. -/
def encode (s : StageState) : JsonValue :=
  .obj [("done", .obj s.done), ("failed", .arr s.failed), ("backoffs", .arr s.backoffs)]

@[simp] theorem decode_encode (s : StageState) : decode s.encode = .ok s := rfl

end StageState

namespace ProgressDir

/-- `path.exists()`, where it does not raise. -/
def has (d : ProgressDir) (name : String) : Bool :=
  match d.file name with
  | .present _ => true
  | _ => false

def findStageFile (d : ProgressDir) (stage : Stage) : String :=
  match d.file stage.file with
  | .missing => (oldFiles.find? d.has).getD stage.file
  | _ => stage.file

def loadStage (resume : Bool) (d : ProgressDir) (stage : Stage) : Except LoadStop StageState :=
  let name := d.findStageFile stage
  if resume then
    match d.file name with
    | .missing => .ok {}
    | .unreachable => .error .raised
    | .present (.error exc) => .error (.preflight
        s!"corrupt progress {d.path}/{name}: {exc} (re-run with --no-resume to start fresh; the file is kept, never auto-discarded)")
    | .present (.ok value) => StageState.decode value
  else .ok {}

/-- The load of all stages, one after the other. -/
def loadStates (resume : Bool) (d : ProgressDir) : Except LoadStop Progress :=
  Stage.all.foldlM (fun states stage => do
    let state ← d.loadStage resume stage
    return Function.update states stage state) fun _ => {}

def writeProgress (d : ProgressDir) (name : String) (state : StageState) : ProgressDir :=
  { d with file := Function.update d.file name (.present (.ok state.encode)) }

def flush (d : ProgressDir) (states : Progress) : ProgressDir :=
  Stage.all.foldl (fun d stage => d.writeProgress stage.file (states stage)) d

/-! ## What resuming promises -/

/-- The file of a stage: its new one, or the first of its old ones. -/
def ownFile (d : ProgressDir) (stage : Stage) : Option String :=
  (stage.file :: oldFiles).find? fun name => fileStage name = some stage ∧ d.has name

def recorded (d : ProgressDir) (stage : Stage) : Option StageState :=
  match d.ownFile stage with
  | none => some {}
  | some name =>
    match d.file name with
    | .present (.ok value) => (StageState.decode value).toOption
    | _ => none

/-- A session that resumes loads each stage from a file of that stage, no two
stages from the same file, and what it writes back without computing anything is
what was recorded. -/
def ResumesOwn (d : ProgressDir) : Prop :=
  ∀ states, d.loadStates true = .ok states →
    (∀ stage, d.has (d.findStageFile stage) = true →
      fileStage (d.findStageFile stage) = some stage) ∧
    (∀ a b, a ≠ b → d.has (d.findStageFile a) = true → d.findStageFile a ≠ d.findStageFile b) ∧
    ∀ stage, (d.flush states).recorded stage = d.recorded stage

/-- A file that ends the session that loads it. -/
def Unloadable : FileStatus → Prop
  | .missing => False
  | .unreachable => True
  | .present (.error _) => True
  | .present (.ok value) => ∀ state, StageState.decode value ≠ .ok state

/-- The new file of a stage cannot be loaded, or it is missing and the first old
file cannot be. -/
def Blocked (d : ProgressDir) : Prop :=
  ∃ stage : Stage, Unloadable (d.file stage.file) ∨
    d.file stage.file = .missing ∧ ∃ old, oldFiles.find? d.has = some old ∧ Unloadable (d.file old)

/-- The first old file, if there is one, is of each stage that lacks its new one. -/
def ScanHitsOwn (d : ProgressDir) : Prop :=
  ∀ stage : Stage, d.file stage.file = .missing →
    ∀ old, oldFiles.find? d.has = some old → fileStage old = some stage

/-! ## Loading and writing back -/

section Load
variable {d : ProgressDir} {stage : Stage} {resume : Bool} {states : Progress}

theorem has_iff {name : String} : d.has name = true ↔ ∃ content, d.file name = .present content := by
  unfold has
  cases d.file name <;> simp

theorem loadStates_eq_ok :
    d.loadStates resume = .ok states ↔ ∀ stage, d.loadStage resume stage = .ok (states stage) := by
  rw [loadStates, foldlM_update]
  exact ⟨fun h stage => h.1 stage (Stage.mem_all stage),
    fun h => ⟨fun stage _ => h stage, fun stage hstage => absurd (Stage.mem_all stage) hstage⟩⟩

theorem foldl_writeProgress (stages : List Stage) (d : ProgressDir) :
    (stages.foldl (fun d stage => d.writeProgress stage.file (states stage)) d).file stage.file =
      if stage ∈ stages then .present (.ok (states stage).encode) else d.file stage.file := by
  induction stages generalizing d with
  | nil => rfl
  | cons stage' stages ih =>
    rw [List.foldl_cons, ih, writeProgress]
    by_cases hrest : stage ∈ stages
    · simp [hrest]
    · by_cases hsame : stage = stage'
      · simp [hsame]
      · have hfile : stage.file ≠ stage'.file := fun h => hsame (Stage.file_injective h)
        simp [hrest, hsame, hfile]

@[simp] theorem flush_file (d : ProgressDir) (states : Progress) (stage : Stage) :
    (d.flush states).file stage.file = .present (.ok (states stage).encode) := by
  rw [flush, foldl_writeProgress, if_pos (Stage.mem_all stage)]

@[simp] theorem findStageFile_flush (d : ProgressDir) (states : Progress) (stage : Stage) :
    (d.flush states).findStageFile stage = stage.file := by
  rw [findStageFile, flush_file]

theorem loadStates_flush (d : ProgressDir) (states : Progress) :
    (d.flush states).loadStates true = .ok states := by
  refine loadStates_eq_ok.mpr fun stage => ?_
  simp only [loadStage, findStageFile_flush, flush_file, if_true, StageState.decode_encode]

theorem ownFile_of_has (h : d.has stage.file = true) : d.ownFile stage = some stage.file := by
  rw [ownFile, List.find?_cons_of_pos]
  simpa using h

@[simp] theorem recorded_flush (d : ProgressDir) (states : Progress) (stage : Stage) :
    (d.flush states).recorded stage = some (states stage) := by
  rw [recorded, ownFile_of_has (has_iff.mpr ⟨_, flush_file d states stage⟩)]
  simp only [flush_file, StageState.decode_encode]
  rfl

theorem ownFile_of_scan (hmissing : d.file stage.file = .missing)
    (hown : ∀ old, oldFiles.find? d.has = some old → fileStage old = some stage) :
    d.ownFile stage = oldFiles.find? d.has := by
  have hnew : d.has stage.file = false := by rw [has, hmissing]
  rw [ownFile, List.find?_cons_of_neg (by simp [hnew])]
  cases hscan : oldFiles.find? d.has with
  | none =>
    rw [List.find?_eq_none] at hscan ⊢
    intro old hold
    simp [hscan old hold]
  | some old =>
    obtain ⟨hhas, pre, post, heq, hpre⟩ := List.find?_eq_some_iff_append.mp hscan
    refine List.find?_eq_some_iff_append.mpr ⟨?_, pre, post, heq, fun x hx => ?_⟩
    · simpa [hown old hscan] using hhas
    · have hfirst : d.has x = false := by simpa using hpre x hx
      simp [hfirst]

theorem findStageFile_of_missing (h : d.file stage.file = .missing) :
    d.findStageFile stage = (oldFiles.find? d.has).getD stage.file := by
  rw [findStageFile, h]

theorem findStageFile_of_ne (h : d.file stage.file ≠ .missing) :
    d.findStageFile stage = stage.file := by
  unfold findStageFile
  split
  · rename_i hmissing
    exact absurd hmissing h
  · rfl

theorem recorded_of_loadStage {state : StageState} (hload : d.loadStage true stage = .ok state)
    (hown : d.file stage.file = .missing →
      ∀ old, oldFiles.find? d.has = some old → fileStage old = some stage) :
    d.recorded stage = some state := by
  have hread : ∀ name, d.findStageFile stage = name → d.ownFile stage = some name →
      d.has name = true → d.recorded stage = some state := by
    intro name hname howned hhas
    obtain ⟨content, hcontent⟩ := has_iff.mp hhas
    simp only [loadStage, hname, hcontent, if_true] at hload
    simp only [recorded, howned, hcontent]
    cases content with
    | error exc => cases hload
    | ok value =>
      simp only at hload ⊢
      rw [hload]
      rfl
  cases hfile : d.file stage.file with
  | missing =>
    have howned := ownFile_of_scan hfile (hown hfile)
    have hname := findStageFile_of_missing hfile
    cases hscan : oldFiles.find? d.has with
    | none =>
      rw [hscan] at howned hname
      simp only [loadStage, hname, Option.getD_none, hfile, if_true] at hload
      rw [recorded, howned, Except.ok.inj hload]
    | some old =>
      rw [hscan] at howned hname
      exact hread old hname howned (List.find?_some hscan)
  | unreachable =>
    have hne : d.file stage.file ≠ .missing := by simp [hfile]
    simp only [loadStage, findStageFile_of_ne hne, hfile, if_true] at hload
    cases hload
  | present content =>
    have hne : d.file stage.file ≠ .missing := by simp [hfile]
    have hhas : d.has stage.file = true := has_iff.mpr ⟨content, hfile⟩
    exact hread stage.file (findStageFile_of_ne hne) (ownFile_of_has hhas) hhas

theorem exists_loadStage_iff :
    (∃ state, d.loadStage true stage = .ok state) ↔
      ¬ Unloadable (d.file (d.findStageFile stage)) := by
  rw [loadStage]
  rcases d.file (d.findStageFile stage) with _ | _ | (exc | value)
  · simp [Unloadable]
  · simp [Unloadable]
  · simp [Unloadable]
  · simp [Unloadable]

theorem blocked_iff : d.Blocked ↔ ∃ stage, Unloadable (d.file (d.findStageFile stage)) := by
  refine exists_congr fun stage => ?_
  by_cases hfile : d.file stage.file = .missing
  · rw [findStageFile_of_missing hfile]
    cases hscan : oldFiles.find? d.has with
    | none => simp [hfile, Unloadable]
    | some old => simp [hfile, Unloadable]
  · rw [findStageFile_of_ne hfile]
    simp [hfile]

theorem exists_loadStates_iff : (∃ states, d.loadStates true = .ok states) ↔ ¬ d.Blocked := by
  simp only [loadStates_eq_ok, blocked_iff, not_exists, ← exists_loadStage_iff]
  constructor
  · rintro ⟨states, h⟩ stage
    exact ⟨states stage, h stage⟩
  · intro h
    choose states hstates using h
    exact ⟨states, hstates⟩

theorem fileStage_findStageFile (h : d.ScanHitsOwn)
    (hhas : d.has (d.findStageFile stage) = true) :
    fileStage (d.findStageFile stage) = some stage := by
  by_cases hfile : d.file stage.file = .missing
  · have hname := findStageFile_of_missing hfile
    cases hscan : oldFiles.find? d.has with
    | none =>
      rw [hname, hscan, Option.getD_none, has, hfile] at hhas
      cases hhas
    | some old =>
      rw [hname, hscan]
      exact h stage hfile old hscan
  · rw [findStageFile_of_ne hfile, fileStage_file]

theorem resumesOwn_of_scan (hscan : d.ScanHitsOwn) : d.ResumesOwn := by
  intro states hstates
  have hown : ∀ stage, d.has (d.findStageFile stage) = true →
      fileStage (d.findStageFile stage) = some stage :=
    fun stage => fileStage_findStageFile hscan
  refine ⟨hown, fun a b hne hhas hsame => ?_, fun stage => ?_⟩
  · have ha := hown a hhas
    rw [hsame] at hhas ha
    exact hne (Option.some.inj (ha.symm.trans (hown b hhas)))
  · rw [recorded_flush]
    exact (recorded_of_loadStage (loadStates_eq_ok.mp hstates stage) (hscan stage)).symm

end Load

/-- **Resuming.**  A session that resumes reads each stage's own progress and no
other exactly when it is blocked or the first old file is of every stage that
lacks its new one. -/
theorem resumes_own_iff (d : ProgressDir) : d.ResumesOwn ↔ d.Blocked ∨ d.ScanHitsOwn := by
  constructor
  · intro h
    refine or_iff_not_imp_left.mpr fun hblocked stage hfile old hscan => ?_
    obtain ⟨states, hstates⟩ := exists_loadStates_iff.mpr hblocked
    have hname := findStageFile_of_missing hfile
    rw [hscan, Option.getD_some] at hname
    have hown := (h states hstates).1 stage
    rw [hname] at hown
    exact hown (List.find?_some hscan)
  · rintro (hblocked | hscan)
    · intro states hstates
      exact absurd hblocked (exists_loadStates_iff.mp ⟨states, hstates⟩)
    · exact resumesOwn_of_scan hscan

/-- A directory an older version left: a file for each stage, with one word in the
preprocess stage. -/
def olderVersion : ProgressDir where
  path := "progress_precard"
  file name :=
    if name = "s0.json" then
      .present (.ok (.obj [("done", .obj [("w:cat", .obj [("kept", .bool true)])])]))
    else if name ∈ oldFiles then .present (.ok (.obj []))
    else .missing

theorem anchor_loaded_from_preprocess : ¬ olderVersion.ResumesOwn := by
  intro h
  have hblocked : ¬ olderVersion.Blocked := by
    rw [blocked_iff]
    rintro ⟨stage, hstage⟩
    cases stage <;> exact hstage _ rfl
  obtain ⟨states, hstates⟩ := exists_loadStates_iff.mpr hblocked
  exact absurd ((h states hstates).1 .anchorRank (by decide)) (by decide)

end ProgressDir

end HamZaboon
