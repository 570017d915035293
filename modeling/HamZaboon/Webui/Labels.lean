import HamZaboon.Texts.Decoded

/-! # The label store

`labels.py`: the judgments of the operators, one record on a line.  `validate_label`
makes a label of the fields of a request, `save_label` stamps it and appends its
record, and `load_labels` reads the store with `splitlines`.

A verdict is `link` exactly when there is a target, so a label is its target, and
the verdict follows.
-/

namespace HamZaboon
open Library

structure Label where
  senseId : String
  word : String
  target : Option String
  stratum : String
  annotator : String
  deriving DecidableEq, Repr

namespace Label

def verdict (label : Label) : String := if label.target.isSome then "link" else "none"

def targetTree (target : Option String) : JsonTree := (target.map textTree).getD .null

def record (label : Label) (createdAt : String) : JsonTree :=
  .obj [(points "sense_id", textTree label.senseId), (points "lemma", textTree label.word),
    (points "target_synset", targetTree label.target), (points "verdict", textTree label.verdict),
    (points "stratum", textTree label.stratum), (points "annotator", textTree label.annotator),
    (points "created_at", textTree createdAt)]

/-- The texts of the record that come from the request. -/
def texts (label : Label) : List String :=
  [label.senseId, label.word, label.target.getD "", label.stratum, label.annotator]

end Label

section Labels
variable (py : PyText) (display : JsonTree → String) (lower : String → String)

/-- `target_synset`, or `target` where there is none: a text with more than spaces,
or null for a blank one. -/
def labelTarget (fields : JsonTree) : Except String (Option String) :=
  let raw := match fields with
    | .obj entries =>
      if (entries.lookup (points "target_synset")).isSome then treeGet fields "target_synset"
      else treeGet fields "target"
    | _ => .null
  match raw with
  | .null => .ok none
  | .str text =>
    if py.strip (pointsText text) = "" then .ok none else .ok (some (py.strip (pointsText text)))
  | _ => .error "target_synset must be a string id or null"

def validateLabel (fields : JsonTree) : Except String Label :=
  if isObject fields = false then .error "label must be an object"
  else
    let senseId := cleanTree py display (treeGet fields "sense_id")
    let word := cleanTree py display (treeGet fields "lemma")
    let verdict := lower (cleanTree py display (treeGet fields "verdict"))
    let stratum := cleanTree py display (treeGet fields "stratum")
    let annotator := cleanTree py display (treeGet fields "annotator")
    if senseId = "" then .error "sense_id is required"
    else if word = "" then .error "lemma is required"
    else if verdict ∉ ["link", "none"] then .error "verdict must be one of link/none"
    else if stratum = "" then .error "stratum is required"
    else if annotator = "" then .error "annotator is required"
    else
      match labelTarget py fields with
      | .error message => .error message
      | .ok target =>
        if verdict = "link" ∧ target = none then
          .error "verdict link needs a target_synset (none has null)"
        else if verdict = "none" ∧ target ≠ none then
          .error "verdict none needs target_synset null"
        else .ok ⟨senseId, word, target, stratum, annotator⟩

variable (limits : ScanLimits)

/-- `save_label` at this time: the record and the store with its line. -/
def saveLabel (fields : JsonTree) (now : String) (store : List Char) :
    Except String (JsonTree × List Char) :=
  match validateLabel py display lower fields with
  | .error message => .error message
  | .ok label =>
    match jsonDumps limits (label.record now) with
    | none => .error "label not JSON-serializable"
    | some blob => .ok (label.record now, store ++ blob ++ ['\n'])

/-- What `load_labels` keeps of the values on the lines. -/
def labelRecords (values : List JsonTree) : List JsonTree :=
  values.filter fun rec => isObject rec && treeTruthy (treeGet rec "sense_id")

def loadLabels (store : List Char) : Except Unit (List JsonTree) :=
  (loadLines limits (splitLines .splitlines store)).map labelRecords

end Labels

/-! ## What a label is -/

section Laws
variable {py : PyText} {display : JsonTree → String} {lower : String → String} {fields : JsonTree}
  {label : Label}

theorem validateLabel_ok (h : validateLabel py display lower fields = .ok label) :
    label.senseId ≠ "" ∧ label.word ≠ "" ∧
      lower (cleanTree py display (treeGet fields "verdict")) = label.verdict ∧
      label.senseId = cleanTree py display (treeGet fields "sense_id") := by
  unfold validateLabel at h
  split at h
  · cases h
  simp only at h
  split at h
  · cases h
  rename_i hsense
  split at h
  · cases h
  rename_i hword
  split at h
  · cases h
  rename_i hverdict
  split at h
  · cases h
  split at h
  · cases h
  split at h
  · cases h
  rename_i target htarget
  split at h
  · cases h
  rename_i hlink
  split at h
  · cases h
  rename_i hnone
  obtain rfl := Except.ok.inj h
  refine ⟨hsense, hword, ?_, rfl⟩
  rw [not_not] at hverdict
  simp only [List.mem_cons, List.not_mem_nil, or_false] at hverdict
  cases target with
  | none => exact hverdict.resolve_left fun heq => hlink ⟨heq, rfl⟩
  | some target => exact hverdict.resolve_right fun heq => hnone ⟨heq, Option.some_ne_none target⟩

theorem jsonDumps_record {limits : ScanLimits} {createdAt : String} :
    (jsonDumps limits (label.record createdAt)).isSome = true ↔ 0 < limits.depth := by
  have htext : ∀ (depth : Nat) (s : String), fits limits depth (textTree s) = true := by
    intro depth s
    rw [textTree, fits, isText_points]
  have htarget : ∀ depth, fits limits depth (Label.targetTree label.target) = true := by
    intro depth
    cases label.target with
    | none => rfl
    | some target => exact htext depth target
  cases hdepth : limits.depth with
  | zero => exact iff_of_false (by rw [jsonDumps, hdepth]; exact Bool.false_ne_true) (lt_irrefl 0)
  | succ depth =>
    refine iff_of_true ?_ (Nat.succ_pos depth)
    have hfits : fits limits (depth + 1) (label.record createdAt) = true := by
      rw [Label.record, fits, Bool.and_eq_true]
      refine ⟨rfl, fitsEntries_iff.mpr ?_⟩
      simp only [List.forall_mem_cons, isText_points, htext, htarget, List.not_mem_nil,
        false_imp_iff, implies_true, and_self]
    rw [jsonDumps, hdepth, if_pos hfits]
    rfl

theorem labelRecords_record (hsense : label.senseId ≠ "") (createdAt : String)
    (values : List JsonTree) :
    labelRecords (label.record createdAt :: values) =
      label.record createdAt :: labelRecords values := by
  have hget : treeGet (label.record createdAt) "sense_id" = textTree label.senseId := rfl
  have htruthy : treeTruthy (textTree label.senseId) = true := by
    simp [treeTruthy, textTree, points_eq_nil, hsense]
  exact List.filter_cons_of_pos (by rw [hget, htruthy]; rfl)

theorem unbroken_record_iff {createdAt : String} :
    Unbroken .splitlines (label.record createdAt) ↔
      ∀ s ∈ createdAt :: label.texts, keepsLine s = true := by
  have hkey : ∀ s, keepsLine s = true → Unbroken .splitlines (.str (points s)) :=
    fun s h => unbroken_points.mpr h
  have htarget : Unbroken .splitlines (Label.targetTree label.target) ↔
      keepsLine (label.target.getD "") = true := by
    cases label.target with
    | none => exact iff_of_true (fun c _ hmem => by cases hmem) rfl
    | some target => exact unbroken_textTree
  have hverdict : keepsLine label.verdict = true := by
    unfold Label.verdict
    split <;> rfl
  rw [Label.record, unbroken_obj_iff]
  simp only [List.forall_mem_cons, List.not_mem_nil, false_imp_iff, implies_true, and_true,
    unbroken_textTree, unbroken_points, htarget, hverdict, Label.texts]
  have hkeys : keepsLine "sense_id" = true ∧ keepsLine "lemma" = true ∧
      keepsLine "target_synset" = true ∧ keepsLine "verdict" = true ∧ keepsLine "stratum" = true ∧
      keepsLine "annotator" = true ∧ keepsLine "created_at" = true := by decide
  obtain ⟨h₁, h₂, h₃, h₄, h₅, h₆, h₇⟩ := hkeys
  simp only [h₁, h₂, h₃, h₄, h₅, h₆, h₇, true_and]
  tauto

end Laws

/-! ## Runs of saves -/

section Runs
variable (py : PyText) (display : JsonTree → String) (lower : String → String) (limits : ScanLimits)

/-- Saves one behind the other into a new store. -/
def saveLabels (calls : List (JsonTree × String)) : Except String (List JsonTree × List Char) :=
  saveAll (fun call store => saveLabel py display lower limits call.1 call.2 store) calls

variable {py display lower limits}

def RecordOf (py : PyText) (display : JsonTree → String) (lower : String → String)
    (call : JsonTree × String) (rec : JsonTree) : Prop :=
  ∃ label, validateLabel py display lower call.1 = .ok label ∧ rec = label.record call.2

theorem saveLabel_appends :
    Appends (fun call store => saveLabel py display lower limits call.1 call.2 store) limits
      (RecordOf py display lower) := by
  intro call store rec store' h
  simp only [saveLabel] at h
  split at h
  · cases h
  · rename_i label hlabel
    split at h
    · cases h
    · rename_i blob hblob
      obtain ⟨rfl, rfl⟩ := Prod.mk.inj (Except.ok.inj h)
      exact ⟨⟨label, hlabel, rfl⟩, blob, hblob, rfl⟩

/-- The texts that the calls give the store end no line. -/
def KeepLines (py : PyText) (display : JsonTree → String) (lower : String → String)
    (calls : List (JsonTree × String)) : Prop :=
  ∀ call ∈ calls, ∀ label, validateLabel py display lower call.1 = .ok label →
    ∀ s ∈ call.2 :: label.texts, keepsLine s = true

theorem unbroken_records_iff {calls : List (JsonTree × String)} {records : List JsonTree}
    (h : List.Forall₂ (RecordOf py display lower) calls records) :
    (∀ rec ∈ records, Unbroken .splitlines rec) ↔ KeepLines py display lower calls := by
  induction h with
  | nil => simp [KeepLines]
  | @cons call rec calls records hrec _ ih =>
    obtain ⟨label, hlabel, rfl⟩ := hrec
    rw [KeepLines, List.forall_mem_cons, List.forall_mem_cons, ih, KeepLines, unbroken_record_iff]
    refine and_congr_left fun _ => ⟨fun hall label' hlabel' => ?_, fun hall => hall label hlabel⟩
    obtain rfl := Except.ok.inj (hlabel.symm.trans hlabel')
    exact hall

theorem labelRecords_eq {calls : List (JsonTree × String)} {records : List JsonTree}
    (h : List.Forall₂ (RecordOf py display lower) calls records) :
    labelRecords records = records := by
  induction h with
  | nil => rfl
  | cons hrec _ ih =>
    obtain ⟨label, hlabel, rfl⟩ := hrec
    rw [labelRecords_record (validateLabel_ok hlabel).1, ih]

/-- The lines of the label store are those of the records, and `load_labels` returns
these. -/
def LabelsLossless (limits : ScanLimits) (records : List JsonTree) (store : List Char) : Prop :=
  Written limits records (splitLines .splitlines store) ∧ loadLabels limits store = .ok records

/-- **The label store is lossless exactly when no text given to it ends a line.** -/
theorem labelsLossless_iff {calls : List (JsonTree × String)} {records : List JsonTree}
    {store : List Char} (h : saveLabels py display lower limits calls = .ok (records, store)) :
    LabelsLossless limits records store ↔ KeepLines py display lower calls := by
  obtain ⟨hstored, hrecords⟩ := saveAll_ok saveLabel_appends h
  rw [← unbroken_records_iff hrecords, ← hstored.lossless_iff, LabelsLossless, Lossless, loadLabels]
  refine and_congr_right fun hlines => ?_
  rw [hlines.loadLines]
  exact iff_of_true (congrArg Except.ok (labelRecords_eq hrecords)) rfl

end Runs

end HamZaboon
