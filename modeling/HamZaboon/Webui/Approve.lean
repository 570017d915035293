import HamZaboon.Webui.AnswerSheet
import HamZaboon.Webui.BatchRuns
import HamZaboon.Webui.Labels

/-! # Approving a batch

`approve` writes three files one behind the other: it appends the labels of the approved
ids to the label store, writes the meta of the batch with its new status, and writes the
payload.  Each write can fail, and leave its file as it was, cut short or whole; the
operator then tries again with the same ids.

A second try knows of the first by the status alone.  Where a failed write has not put
anything into the label store before the meta is whole, and leaves no file that cannot be
read, any number of tries labels each approved id once (`approved_once`).
-/

namespace HamZaboon
open Library

/-- What `approve` raises. -/
inductive ApproveError
  | unknownBatch (id : String)
  | refused (e : SheetError)
  | writeFailed
  deriving DecidableEq, Repr

def BatchStatus.text : BatchStatus → String
  | .exported => "exported"
  | .inReview => "in_review"
  | .imported => "imported"
  | .cancelled => "cancelled"

/-! ## The files -/

/-- `batch.json`. -/
structure ReviewMeta where
  id : String
  status : BatchStatus
  model : String
  approved : Nat
  returned : Nat
  approvedIds : List String
  returnedIds : List String
  senseIds : List String
  reviewedBy : String
  approvedAt : String
  deriving DecidableEq, Repr

/-- `batch.json-data`. -/
structure ReviewPayload where
  items : List JsonTree
  status : BatchStatus

/-- The files of an approval; a file that cannot be read is none. -/
structure ReviewFiles where
  labels : List Char
  info : Option ReviewMeta
  payload : Option ReviewPayload
  /-- The latest answers. -/
  staged : List StagedVerdict

/-- What a failed write leaves of a file. -/
inductive FileWrite
  | untouched
  | torn
  | whole
  deriving DecidableEq, Repr

def FileWrite.leaves {α : Type} : FileWrite → Option α → α → Option α
  | .untouched, old, _ => old
  | .torn, _, _ => none
  | .whole, _, new => some new

inductive WriteFault
  /-- The append, behind so many characters. -/
  | labels (written : Nat)
  | info (left : FileWrite)
  | payload (left : FileWrite)
  deriving DecidableEq, Repr

/-- What `_stamp` gives, call after call. -/
structure Clock where
  stamp : Nat → String
  keeps : ∀ n, keepsLine (stamp n) = true

/-- A call of `approve`. -/
structure ApproveCall where
  ids : List String
  reviewer : String
  clock : Clock
  fault : Option WriteFault

/-! ## The checks -/

def refuse {α : Type} (message : String) (failingIds : List String) : Except ApproveError α :=
  (reject message failingIds).mapError .refused

def insist (c : Prop) [Decidable c] (message : String) (failingIds : List String) :
    Except ApproveError Unit :=
  if c then .ok () else refuse message failingIds

/-- What a call is going to write. -/
structure ApprovalWrites where
  records : List JsonTree
  lines : List (List Char)
  info : ReviewMeta
  payload : ReviewPayload

/-- `staged_by_id.get(id)`: the last verdict of an id. -/
def verdictOf (staged : List StagedVerdict) (id : String) : Option StagedVerdict :=
  staged.reverse.find? fun v => v.senseId ≠ "" ∧ v.senseId = id

def itemHasId (id : String) (item : JsonTree) : Bool :=
  match treeGet item "sense_id" with
  | .str text => text ≠ [] ∧ pointsText text = id
  | _ => false

/-- `lemma_by_id.get(id, "")`: the lemma of the last item of an id. -/
def wordOf (items : List JsonTree) (id : String) : JsonTree :=
  match items.reverse.find? (itemHasId id) with
  | some item => treeGet item "lemma"
  | none => textTree ""

def sameIds (a b : List String) : Bool := a.all (· ∈ b) && b.all (· ∈ a)

section Approve
variable (py : PyText) (display : JsonTree → String) (lower : String → String) (limits : ScanLimits)

/-- `_check_id`. -/
def checkBatchId (batchId : String) : Except ApproveError String :=
  if py.strip batchId = "" ∨ '/' ∈ batchId.toList ∨ '\\' ∈ batchId.toList ∨
      py.strip batchId ∈ [".", ".."] then .error (.unknownBatch batchId)
  else .ok (py.strip batchId)

/-- `_load_batch`. -/
def ReviewFiles.load (files : ReviewFiles) (bid : String) :
    Except ApproveError (ReviewMeta × ReviewPayload) :=
  match files.info, files.payload with
  | some info, some payload =>
    if info.id = bid then .ok (info, payload) else .error (.unknownBatch bid)
  | _, _ => .error (.unknownBatch bid)

def annotatorOf (bid : String) (info : ReviewMeta) : String :=
  (if py.strip info.model = "" then "unknown" else py.strip info.model) ++ ":" ++ bid

/-- The fields of the label of an approved id. -/
def labelFields (bid : String) (info : ReviewMeta) (items : List JsonTree) (v : StagedVerdict)
    (id : String) : JsonTree :=
  .obj [(points "sense_id", textTree id), (points "lemma", wordOf items id),
    (points "target_synset", Label.targetTree v.target), (points "verdict", textTree v.verdict),
    (points "stratum", textTree "supervised"),
    (points "annotator", textTree (annotatorOf py bid info))]

def labelFor (bid : String) (info : ReviewMeta) (items : List JsonTree)
    (staged : List StagedVerdict) (id : String) : Except ApproveError Label :=
  match verdictOf staged id with
  -- The ids without a verdict are refused before.
  | none => refuse ("شناسه «" ++ id ++ "» در پاسخ ثبت‌شده این بچ نیست.") [id]
  | some v =>
    match validateLabel py display lower (labelFields py bid info items v id) with
    | .ok label => .ok label
    | .error message => refuse ("برچسب " ++ id ++ " نامعتبر است (" ++ message ++ ").") [id]

/-- The line of a record; a record has texts only, so nothing but its nesting can raise. -/
def recordLine (record : JsonTree) : Except ApproveError (List Char) :=
  match jsonDumps limits record with
  | some line => .ok line
  | none => .error (.refused .tooDeep)

def stampRecords (clock : Clock) (labels : List Label) : List JsonTree :=
  labels.zipIdx.map fun (label, n) => label.record (clock.stamp n)

/-- `returned`. -/
def returnedIds (staged : List StagedVerdict) (want : List String) : List String :=
  (staged.map (·.senseId)).filter (· ∉ want)

def ReviewMeta.approve (info : ReviewMeta) (want returned : List String)
    (reviewer approvedAt : String) : ReviewMeta :=
  { info with
    status := .imported
    approved := want.length
    returned := returned.length
    reviewedBy := reviewer
    approvedAt
    approvedIds := want
    returnedIds := returned
    senseIds := want }

/-- What is written for approved ids of a batch under review. -/
def approvalWrites (files : ReviewFiles) (bid : String) (info : ReviewMeta)
    (payload : ReviewPayload) (call : ApproveCall) : Except ApproveError ApprovalWrites := do
  let want := wantedIds py call.ids
  let labels ← want.mapM (labelFor py display lower bid info payload.items files.staged)
  let records := stampRecords call.clock labels
  let lines ← records.mapM (recordLine limits)
  let info := info.approve want (returnedIds files.staged want) (py.strip call.reviewer)
    (call.clock.stamp want.length)
  return ⟨records, lines, info, { payload with status := .imported }⟩

/-- `_approve_locked` up to its first write: the stored counts of an imported batch, or
what it writes. -/
def approvePlan (files : ReviewFiles) (bid : String) (call : ApproveCall) :
    Except ApproveError ((Nat × Nat) ⊕ ApprovalWrites) := do
  let loaded ← files.load bid
  insist (files.staged.any (·.senseId ≠ "") = true) "پاسخ ثبت‌شده‌ای برای این بچ پیدا نشد." []
  let want := wantedIds py call.ids
  insist (want ≠ []) "هیچ موردی انتخاب نشده است (ids خالی است)." []
  let unknown := want.filter fun id => (verdictOf files.staged id).isNone
  insist (unknown = [])
    ("شناسه «" ++ ", ".intercalate unknown ++ "» در پاسخ ثبت‌شده این بچ نیست.") unknown
  if loaded.1.status = .imported then
    insist (sameIds loaded.1.approvedIds want = true)
      "این بچ پیش‌تر نهایی شده است (تکرار با شناسه‌های متفاوت مجاز نیست)." []
    return .inl (loaded.1.approved, loaded.1.returned)
  else
    insist (loaded.1.status = .inReview)
      ("بچ در وضعیت «" ++ loaded.1.status.text ++ "» است؛ اول باید پاسخ‌نامه ثبت (stage) شود.") []
    let writes ← approvalWrites py display lower limits files bid loaded.1 loaded.2 call
    return .inr writes

def ReviewFiles.write (files : ReviewFiles) (w : ApprovalWrites) :
    Option WriteFault → ReviewFiles × Except ApproveError (Nat × Nat)
  | some (.labels written) =>
    ({ files with labels := files.labels ++ (joinLines w.lines).take written }, .error .writeFailed)
  | some (.info left) =>
    ({ files with
        labels := files.labels ++ joinLines w.lines
        info := left.leaves files.info w.info }, .error .writeFailed)
  | some (.payload left) =>
    ({ files with
        labels := files.labels ++ joinLines w.lines
        info := some w.info
        payload := left.leaves files.payload w.payload }, .error .writeFailed)
  | none =>
    ({ files with
        labels := files.labels ++ joinLines w.lines
        info := some w.info
        payload := some w.payload }, .ok (w.info.approved, w.info.returned))

/-- `approve`: the files, and the counts. -/
def approve (batchId : String) (files : ReviewFiles) (call : ApproveCall) :
    ReviewFiles × Except ApproveError (Nat × Nat) :=
  let plan := do
    let bid ← checkBatchId py batchId
    insist (py.strip call.reviewer ≠ "") "نام داور (reviewer) خالی است." []
    approvePlan py display lower limits files bid call
  match plan with
  | .error e => (files, .error e)
  | .ok (.inl counts) => (files, .ok counts)
  | .ok (.inr w) => files.write w call.fault

def approveStep (batchId : String) (files : ReviewFiles) (call : ApproveCall) : ReviewFiles :=
  (approve py display lower limits batchId files call).1

end Approve

/-! ## Harmless failures -/

/-- Nothing is in the label store before the meta is whole, and no file is cut short. -/
def WriteFault.harmless : WriteFault → Bool
  | .labels written => written = 0
  | .info left => left = .whole
  | .payload left => left ≠ .torn

/-- A call that writes does not fail, or fails harmlessly. -/
def ReviewFiles.harmless (files : ReviewFiles) (call : ApproveCall) : Bool :=
  files.info.any (·.status = .imported) || call.fault.all WriteFault.harmless

section Laws
variable {py : PyText} {display : JsonTree → String} {lower : String → String} {limits : ScanLimits}

@[simp] theorem insist_eq_ok {c : Prop} [Decidable c] {message : String} {failingIds : List String}
    {u : Unit} : insist c message failingIds = .ok u ↔ c := by
  unfold insist refuse
  split
  · exact iff_of_true rfl ‹_›
  · exact iff_of_false nofun ‹_›

/-! ## The ids -/

theorem nodup_distinctIds (ids : List String) : (distinctIds ids).Nodup := by
  have hloop : ∀ (ids out : List String), out.Nodup →
      (ids.foldl (fun out id => if id ∈ out then out else out ++ [id]) out).Nodup := by
    intro ids
    induction ids with
    | nil => exact fun _ h => h
    | cons id ids ih =>
      intro out hout
      rw [List.foldl_cons]
      refine ih _ ?_
      split
      · exact hout
      · rename_i hid
        rw [List.nodup_append_comm, List.singleton_append, List.nodup_cons]
        exact ⟨hid, hout⟩
  exact hloop ids [] List.nodup_nil

theorem strip_of_mem_wantedIds {ids : List String} {id : String} (h : id ∈ wantedIds py ids) :
    py.strip id = id := by
  obtain ⟨hmem, -⟩ := List.mem_filter.mp (mem_distinctIds.mp h)
  obtain ⟨raw, -, rfl⟩ := List.mem_map.mp hmem
  exact UnicodeLib.strip_strip _ raw

theorem sameIds_iff {a b : List String} : sameIds a b = true ↔ ∀ x, x ∈ a ↔ x ∈ b := by
  simp only [sameIds, Bool.and_eq_true, List.all_eq_true, decide_eq_true_eq]
  exact ⟨fun h x => ⟨h.1 x, h.2 x⟩, fun h => ⟨fun x => (h x).mp, fun x => (h x).mpr⟩⟩

theorem returnedIds_congr {staged : List StagedVerdict} {a b : List String}
    (h : ∀ x, x ∈ a ↔ x ∈ b) : returnedIds staged a = returnedIds staged b :=
  List.filter_congr fun x _ => by rw [decide_eq_decide, h x]

/-! ## The records -/

theorem recordLine_eq_ok {record : JsonTree} {line : List Char} :
    recordLine limits record = .ok line ↔ jsonDumps limits record = some line := by
  unfold recordLine
  cases jsonDumps limits record with
  | none => exact iff_of_false nofun nofun
  | some text => simp

theorem mapM_recordLine {records : List JsonTree} {lines : List (List Char)} :
    records.mapM (recordLine limits) = .ok lines ↔ Written limits records lines := by
  constructor
  · intro h
    have hlines := forall₂_of_mapM_ok h
    clear h
    induction hlines with
    | nil => exact .nil
    | cons hline _ ih => exact .cons (recordLine_eq_ok.mp hline) ih
  · intro h
    refine mapM_ok_of_forall₂ ?_
    induction h with
    | nil => exact .nil
    | cons hline _ ih => exact .cons (recordLine_eq_ok.mpr hline) ih

theorem labelFor_ok {bid : String} {info : ReviewMeta} {items : List JsonTree}
    {staged : List StagedVerdict} {id : String} {label : Label}
    (h : labelFor py display lower bid info items staged id = .ok label) :
    label.senseId ≠ "" ∧ label.senseId = py.strip id := by
  unfold labelFor at h
  split at h
  · cases h
  · split at h
    · rename_i v _ label' hlabel
      obtain rfl := Except.ok.inj h
      obtain ⟨hne, -, -, hid⟩ := validateLabel_ok hlabel
      refine ⟨hne, hid.trans ?_⟩
      exact cleanTree_textTree id
    · cases h

theorem senseIds_of_labelFor {bid : String} {info : ReviewMeta} {items : List JsonTree}
    {staged : List StagedVerdict} {ids : List String} {labels : List Label}
    (h : List.Forall₂ (fun id label =>
      labelFor py display lower bid info items staged id = .ok label) ids labels)
    (hstrip : ∀ id ∈ ids, py.strip id = id) : labels.map (·.senseId) = ids := by
  induction h with
  | nil => rfl
  | cons hlabel _ ih =>
    rw [List.map_cons, (labelFor_ok hlabel).2, hstrip _ List.mem_cons_self,
      ih fun id hid => hstrip id (List.mem_cons_of_mem _ hid)]

theorem load_ok {files : ReviewFiles} {bid : String} {info : ReviewMeta} {payload : ReviewPayload}
    (h : files.load bid = .ok (info, payload)) :
    files.info = some info ∧ files.payload = some payload ∧ info.id = bid := by
  unfold ReviewFiles.load at h
  split at h
  · rename_i hinfo hpayload
    split at h
    · rename_i hid
      obtain ⟨rfl, rfl⟩ := Prod.mk.inj (Except.ok.inj h)
      exact ⟨hinfo, hpayload, hid⟩
    · cases h
  · cases h

/-- The approved ids have labels, and the files say that the batch is under review. -/
structure Approvable (py : PyText) (display : JsonTree → String) (lower : String → String)
    (limits : ScanLimits) (bid : String) (want : List String) (files : ReviewFiles)
    (info : ReviewMeta) (payload : ReviewPayload) : Prop where
  load : files.load bid = .ok (info, payload)
  status : info.status = .inReview
  staged : files.staged.any (·.senseId ≠ "") = true
  wanted : want ≠ []
  labels : ∀ id ∈ want, ∃ label,
    labelFor py display lower bid info payload.items files.staged id = .ok label
  depth : 0 < limits.depth

/-- The texts of the labels of approved ids end no line. -/
def LabelsKeepLines (py : PyText) (display : JsonTree → String) (lower : String → String)
    (bid : String) (want : List String) (files : ReviewFiles) : Prop :=
  ∀ info payload, files.load bid = .ok (info, payload) → ∀ id ∈ want, ∀ label,
    labelFor py display lower bid info payload.items files.staged id = .ok label →
      ∀ s ∈ label.texts, keepsLine s = true

/-- What an approval writes: a record of each approved id, and the meta that stops the next
one. -/
structure WritesOnce (limits : ScanLimits) (bid : String) (want : List String)
    (staged : List StagedVerdict) (w : ApprovalWrites) : Prop where
  written : Written limits w.records w.lines
  ids : (w.records.map (treeGet · "sense_id")).Perm (want.map textTree)
  read : labelRecords w.records = w.records
  unbroken : ∀ record ∈ w.records, Unbroken .splitlines record
  id : w.info.id = bid
  status : w.info.status = .imported
  approvedIds : ∀ x, x ∈ w.info.approvedIds ↔ x ∈ want
  approved : w.info.approved = want.length
  returned : w.info.returned = (returnedIds staged want).length

theorem map_senseId_stampRecords (clock : Clock) (labels : List Label) :
    (stampRecords clock labels).map (treeGet · "sense_id") =
      labels.map fun label => textTree label.senseId := by
  rw [stampRecords, List.map_map]
  calc labels.zipIdx.map ((treeGet · "sense_id") ∘ fun p => p.1.record (clock.stamp p.2))
      = labels.zipIdx.map ((fun label => textTree label.senseId) ∘ Prod.fst) := rfl
    _ = labels.map fun label => textTree label.senseId := by
        rw [← List.map_map, List.zipIdx_map_fst]

theorem mem_stampRecords {clock : Clock} {labels : List Label} {record : JsonTree}
    (h : record ∈ stampRecords clock labels) :
    ∃ label ∈ labels, ∃ n, record = label.record (clock.stamp n) := by
  obtain ⟨⟨label, n⟩, hmem, rfl⟩ := List.mem_map.mp h
  exact ⟨label, List.fst_mem_of_mem_zipIdx hmem, n, rfl⟩

theorem labelRecords_eq_self {records : List JsonTree}
    (h : ∀ record ∈ records, ∃ label : Label, label.senseId ≠ "" ∧ ∃ s, record = label.record s) :
    labelRecords records = records := by
  induction records with
  | nil => rfl
  | cons record records ih =>
    obtain ⟨label, hlabel, s, rfl⟩ := h record List.mem_cons_self
    rw [labelRecords_record hlabel, ih fun r hr => h r (List.mem_cons_of_mem _ hr)]

section Plan
variable {bid : String} {want : List String} {files : ReviewFiles} {info : ReviewMeta}
  {payload : ReviewPayload} {call : ApproveCall}

theorem Approvable.known (h : Approvable py display lower limits bid want files info payload)
    (hsame : ∀ x, x ∈ wantedIds py call.ids ↔ x ∈ want) :
    wantedIds py call.ids ≠ [] ∧
      (wantedIds py call.ids).filter (fun id => (verdictOf files.staged id).isNone) = [] := by
  constructor
  · obtain ⟨id, hid⟩ := List.exists_mem_of_ne_nil _ h.wanted
    exact List.ne_nil_of_mem ((hsame id).mpr hid)
  · rw [List.filter_eq_nil_iff]
    intro id hid hnone
    obtain ⟨label, hlabel⟩ := h.labels id ((hsame id).mp hid)
    rw [labelFor, Option.isNone_iff_eq_none.mp hnone] at hlabel
    cases hlabel

theorem exists_lines (hdepth : 0 < limits.depth) (clock : Clock) (labels : List Label) :
    ∃ lines, (stampRecords clock labels).mapM (recordLine limits) = .ok lines := by
  have hrecords : ∀ record ∈ stampRecords clock labels, ∃ line,
      recordLine limits record = .ok line := by
    intro record hrecord
    obtain ⟨label, -, n, rfl⟩ := mem_stampRecords hrecord
    obtain ⟨line, hline⟩ := Option.isSome_iff_exists.mp (jsonDumps_record.mpr hdepth)
    exact ⟨line, recordLine_eq_ok.mpr hline⟩
  obtain ⟨lines, hlines⟩ := exists_forall₂ hrecords
  exact ⟨lines, mapM_ok_of_forall₂ hlines⟩

/-- **An approval of the same ids is going to write their labels.** -/
theorem Approvable.plan (h : Approvable py display lower limits bid want files info payload)
    (hkeep : LabelsKeepLines py display lower bid want files)
    (hsame : ∀ x, x ∈ wantedIds py call.ids ↔ x ∈ want) (hnodup : want.Nodup) :
    ∃ w, approvePlan py display lower limits files bid call = .ok (.inr w) ∧
      WritesOnce limits bid want files.staged w := by
  have hperm : (wantedIds py call.ids).Perm want :=
    (List.perm_ext_iff_of_nodup (nodup_distinctIds _) hnodup).mpr hsame
  obtain ⟨labels, hlabels⟩ := exists_forall₂ (l := wantedIds py call.ids)
    fun id hid => h.labels id ((hsame id).mp hid)
  have hof : ∀ label ∈ labels, ∃ id ∈ wantedIds py call.ids,
      labelFor py display lower bid info payload.items files.staged id = .ok label :=
    fun label hlabel => exists_left_of_forall₂ hlabels hlabel
  obtain ⟨lines, hlines⟩ := exists_lines h.depth call.clock labels
  refine ⟨⟨stampRecords call.clock labels, lines,
    info.approve (wantedIds py call.ids) (returnedIds files.staged (wantedIds py call.ids))
      (py.strip call.reviewer) (call.clock.stamp (wantedIds py call.ids).length),
    { payload with status := .imported }⟩, ?_, ?_⟩
  · obtain ⟨hwanted, hunknown⟩ := h.known hsame
    simp only [approvePlan, bind_eq_ok, insist_eq_ok, exists_and_left, exists_const]
    refine ⟨_, h.load, h.staged, hwanted, hunknown, ?_⟩
    rw [if_neg (by rw [h.status]; nofun)]
    simp only [bind_eq_ok, insist_eq_ok, exists_and_left, exists_const]
    refine ⟨h.status, _, ?_, rfl⟩
    simp only [approvalWrites, mapM_ok_of_forall₂ hlabels, bind_eq_ok]
    exact ⟨labels, rfl, lines, hlines, rfl⟩
  · refine ⟨mapM_recordLine.mp hlines, ?_, ?_, ?_, ?_, rfl, hsame, hperm.length_eq, ?_⟩
    · rw [map_senseId_stampRecords]
      have hids : labels.map (fun label => textTree label.senseId) =
          (wantedIds py call.ids).map textTree := by
        rw [← senseIds_of_labelFor hlabels fun id hid => strip_of_mem_wantedIds hid, List.map_map]
        rfl
      rw [hids]
      exact hperm.map textTree
    · refine labelRecords_eq_self fun record hrecord => ?_
      obtain ⟨label, hlabel, n, rfl⟩ := mem_stampRecords hrecord
      obtain ⟨id, -, hid⟩ := hof label hlabel
      exact ⟨label, (labelFor_ok hid).1, _, rfl⟩
    · intro record hrecord
      obtain ⟨label, hlabel, n, rfl⟩ := mem_stampRecords hrecord
      obtain ⟨id, hmem, hid⟩ := hof label hlabel
      rw [unbroken_record_iff, List.forall_mem_cons]
      exact ⟨call.clock.keeps n, hkeep info payload h.load id ((hsame id).mp hmem) label hid⟩
    · exact (load_ok h.load).2.2
    · exact congrArg List.length (returnedIds_congr hsame)

end Plan

/-! ## The tries -/

/-- The first successful approval of these ids. -/
structure Imported (limits : ScanLimits) (bid : String) (want : List String)
    (start files : ReviewFiles) : Prop where
  staged : files.staged = start.staged
  payload : files.payload.isSome = true
  writes : ∃ w, WritesOnce limits bid want start.staged w ∧ files.info = some w.info ∧
    files.labels = start.labels ++ joinLines w.lines

section Tries
variable {batchId bid : String} {want : List String} {start files : ReviewFiles} {info : ReviewMeta}
  {payload : ReviewPayload} {call : ApproveCall}

theorem approve_noReviewer (h : ¬ py.strip call.reviewer ≠ "") :
    ∃ e, approve py display lower limits batchId files call = (files, .error e) := by
  have hinsist : insist (py.strip call.reviewer ≠ "") "نام داور (reviewer) خالی است." [] =
      refuse "نام داور (reviewer) خالی است." [] := if_neg h
  rw [approve, hinsist]
  cases checkBatchId py batchId with
  | error e => exact ⟨e, rfl⟩
  | ok bid => exact ⟨_, rfl⟩

theorem approve_eq (hid : checkBatchId py batchId = .ok bid)
    (hreviewer : py.strip call.reviewer ≠ "") :
    approve py display lower limits batchId files call =
      match approvePlan py display lower limits files bid call with
      | .error e => (files, .error e)
      | .ok (.inl counts) => (files, .ok counts)
      | .ok (.inr w) => files.write w call.fault := by
  rw [approve, hid, insist, if_pos hreviewer]
  rfl

theorem write_ok {w : ApprovalWrites} {fault : Option WriteFault} {counts : Nat × Nat}
    {done : ReviewFiles} (h : files.write w fault = (done, .ok counts)) :
    (w.info.approved, w.info.returned) = counts := by
  cases fault with
  | none => exact Except.ok.inj (Prod.mk.inj h).2
  | some fault => cases fault <;> cases (Prod.mk.inj h).2

theorem approvable_of_ok {counts : Nat × Nat} {done : ReviewFiles}
    (h : approve py display lower limits batchId files call = (done, .ok counts))
    (hreview : files.info.any (·.status = .inReview) = true) :
    ∃ bid info payload, checkBatchId py batchId = .ok bid ∧
      Approvable py display lower limits bid (wantedIds py call.ids) files info payload ∧
      counts = ((wantedIds py call.ids).length,
        (returnedIds files.staged (wantedIds py call.ids)).length) := by
  cases hid : checkBatchId py batchId with
  | error e =>
    rw [approve, hid] at h
    cases (Prod.mk.inj h).2
  | ok bid =>
    by_cases hreviewer : py.strip call.reviewer ≠ ""
    · rw [approve_eq hid hreviewer] at h
      cases hplan : approvePlan py display lower limits files bid call with
      | error e =>
        rw [hplan] at h
        cases (Prod.mk.inj h).2
      | ok plan =>
        have hsteps := hplan
        simp only [approvePlan, bind_eq_ok, insist_eq_ok, exists_and_left, exists_const] at hsteps
        obtain ⟨⟨info, payload⟩, hload, hstaged, hwanted, -, hrest⟩ := hsteps
        obtain ⟨hinfo, -, -⟩ := load_ok hload
        have hstatus : info.status = .inReview := by simpa [hinfo] using hreview
        rw [if_neg (by rw [hstatus]; nofun)] at hrest
        simp only [approvalWrites, bind_eq_ok, insist_eq_ok, exists_and_left, exists_const] at hrest
        obtain ⟨-, w, ⟨labels, hlabels, lines, hlines, hw⟩, hright⟩ := hrest
        obtain rfl := Except.ok.inj hw
        obtain rfl := Except.ok.inj hright
        have hlabels := forall₂_of_mapM_ok hlabels
        refine ⟨bid, info, payload, rfl, ⟨hload, hstatus, hstaged, hwanted, fun id hid => ?_, ?_⟩,
          ?_⟩
        · obtain ⟨label, -, hlabel⟩ := exists_right_of_forall₂ hlabels hid
          exact ⟨label, hlabel⟩
        · obtain ⟨id, hid⟩ := List.exists_mem_of_ne_nil _ hwanted
          obtain ⟨label, hlabel, -⟩ := exists_right_of_forall₂ hlabels hid
          obtain ⟨n, hn⟩ := List.mem_iff_getElem?.mp hlabel
          have hrecord : label.record (call.clock.stamp n) ∈ stampRecords call.clock labels :=
            List.mem_map.mpr ⟨(label, n), List.mk_mem_zipIdx_iff_getElem?.mpr hn, rfl⟩
          obtain ⟨line, -, hline⟩ := exists_right_of_forall₂ (forall₂_of_mapM_ok hlines) hrecord
          exact jsonDumps_record.mp (Option.isSome_iff_exists.mpr ⟨line, recordLine_eq_ok.mp hline⟩)
        · rw [hplan] at h
          exact (write_ok h).symm
    · obtain ⟨e, he⟩ : ∃ e, approve py display lower limits batchId files call = (files, .error e) :=
        approve_noReviewer hreviewer
      rw [he] at h
      cases (Prod.mk.inj h).2

/-- **A try whose failure is harmless leaves the files as they were, or imports the
batch.** -/
theorem Approvable.step (h : Approvable py display lower limits bid want start info payload)
    (hkeep : LabelsKeepLines py display lower bid want start) (hnodup : want.Nodup)
    (hid : checkBatchId py batchId = .ok bid)
    (hsame : ∀ x, x ∈ wantedIds py call.ids ↔ x ∈ want) (hharmless : start.harmless call = true) :
    approveStep py display lower limits batchId start call = start ∨
      Imported limits bid want start (approveStep py display lower limits batchId start call) := by
  obtain ⟨hinfo, hpayload, -⟩ := load_ok h.load
  by_cases hreviewer : py.strip call.reviewer ≠ ""
  · obtain ⟨w, hplan, hw⟩ := h.plan hkeep hsame hnodup
    have hfault : call.fault.all WriteFault.harmless = true := by
      simpa [ReviewFiles.harmless, hinfo, h.status] using hharmless
    rw [approveStep, approve_eq hid hreviewer, hplan]
    cases hcall : call.fault with
    | none => exact .inr ⟨rfl, rfl, w, hw, rfl, rfl⟩
    | some fault =>
      rw [hcall, Option.all_some] at hfault
      cases fault with
      | labels written =>
        obtain rfl : written = 0 := of_decide_eq_true hfault
        exact .inl (by simp [ReviewFiles.write])
      | info left =>
        obtain rfl : left = .whole := of_decide_eq_true hfault
        exact .inr ⟨rfl, by simp [ReviewFiles.write, hpayload], w, hw, rfl, rfl⟩
      | payload left =>
        have hleft : left ≠ .torn := of_decide_eq_true hfault
        refine .inr ⟨rfl, ?_, w, hw, rfl, rfl⟩
        cases left with
        | untouched => simp [ReviewFiles.write, FileWrite.leaves, hpayload]
        | torn => exact absurd rfl hleft
        | whole => rfl
  · obtain ⟨e, he⟩ : ∃ e, approve py display lower limits batchId start call = (start, .error e) :=
      approve_noReviewer hreviewer
    rw [approveStep, he]
    exact .inl rfl

/-- **A try of an imported batch with its ids returns the counts and writes nothing.** -/
theorem Imported.repeated (h : Imported limits bid want start files)
    (hfirst : Approvable py display lower limits bid want start info payload)
    (hid : checkBatchId py batchId = .ok bid) (hreviewer : py.strip call.reviewer ≠ "")
    (hsame : ∀ x, x ∈ wantedIds py call.ids ↔ x ∈ want) :
    approve py display lower limits batchId files call =
      (files, .ok (want.length, (returnedIds start.staged want).length)) := by
  obtain ⟨w, hw, hinfo, -⟩ := h.writes
  obtain ⟨payload', hpayload⟩ := Option.isSome_iff_exists.mp h.payload
  have hload : files.load bid = .ok (w.info, payload') := by
    rw [ReviewFiles.load, hinfo, hpayload]
    exact if_pos hw.id
  obtain ⟨hwanted, hknown⟩ := hfirst.known hsame
  rw [← h.staged] at hknown
  have hplan : approvePlan py display lower limits files bid call =
      .ok (.inl (w.info.approved, w.info.returned)) := by
    simp only [approvePlan, bind_eq_ok, insist_eq_ok, exists_and_left, exists_const]
    refine ⟨_, hload, by rw [h.staged]; exact hfirst.staged, hwanted, hknown, ?_⟩
    rw [if_pos hw.status]
    simp only [bind_eq_ok, insist_eq_ok, exists_and_left, exists_const]
    refine ⟨sameIds_iff.mpr fun x => ?_, rfl⟩
    rw [hw.approvedIds x, hsame x]
  rw [approve_eq hid hreviewer, hplan, hw.approved, hw.returned]

theorem Imported.loadLabels (h : Imported limits bid want start files) {old : List JsonTree}
    (hold : loadLabels limits start.labels = .ok old) (hstart : atLineStart start.labels = true) :
    ∃ records, loadLabels limits files.labels = .ok (old ++ records) ∧
      (records.map (treeGet · "sense_id")).Perm (want.map textTree) := by
  obtain ⟨w, hw, -, hlabels⟩ := h.writes
  obtain ⟨values, hvalues, rfl⟩ := map_eq_ok.mp hold
  refine ⟨w.records, ?_, hw.ids⟩
  rw [HamZaboon.loadLabels, hlabels, splitLines_append hstart, loadLines_append, hvalues,
    loadLines_stored hw.written hw.unbroken]
  have hfilter : labelRecords (values ++ w.records) = labelRecords values ++ w.records := by
    rw [labelRecords, List.filter_append]
    exact congrArg _ hw.read
  exact congrArg Except.ok hfilter

theorem Approvable.tries (h : Approvable py display lower limits bid want start info payload)
    (hkeep : LabelsKeepLines py display lower bid want start) (hnodup : want.Nodup)
    (hid : checkBatchId py batchId = .ok bid) {calls : List ApproveCall}
    (hsame : ∀ call ∈ calls, ∀ x, x ∈ wantedIds py call.ids ↔ x ∈ want)
    (hharmless : Meets (approveStep py display lower limits batchId)
      (fun files call => files.harmless call = true) start calls) :
    run (approveStep py display lower limits batchId) start calls = start ∨
      Imported limits bid want start
        (run (approveStep py display lower limits batchId) start calls) := by
  have himported : ∀ (calls : List ApproveCall) (files : ReviewFiles),
      (∀ call ∈ calls, ∀ x, x ∈ wantedIds py call.ids ↔ x ∈ want) →
      Imported limits bid want start files →
      run (approveStep py display lower limits batchId) files calls = files := by
    intro calls
    induction calls with
    | nil => exact fun _ _ _ => rfl
    | cons call calls ih =>
      intro files hsame hfiles
      have hstay : approveStep py display lower limits batchId files call = files := by
        by_cases hreviewer : py.strip call.reviewer ≠ ""
        · rw [approveStep, hfiles.repeated h hid hreviewer (hsame call List.mem_cons_self)]
        · obtain ⟨e, he⟩ :
              ∃ e, approve py display lower limits batchId files call = (files, .error e) :=
            approve_noReviewer hreviewer
          rw [approveStep, he]
      rw [run_cons, hstay]
      exact ih files (fun c hc => hsame c (List.mem_cons_of_mem _ hc)) hfiles
  induction calls with
  | nil => exact .inl rfl
  | cons call calls ih =>
    have hrest : ∀ c ∈ calls, ∀ x, x ∈ wantedIds py c.ids ↔ x ∈ want :=
      fun c hc => hsame c (List.mem_cons_of_mem _ hc)
    rw [run_cons]
    rcases h.step hkeep hnodup hid (hsame call List.mem_cons_self) hharmless.1 with hstay | hfiles
    · rw [hstay]
      exact ih hrest (hstay ▸ hharmless.2)
    · rw [himported calls _ hrest hfiles]
      exact .inr hfiles

end Tries

/-- **Where failures are harmless, tries with the same ids approve once.**  Let one call
succeed on a batch under review, and its labels keep lines, as the store does.  After any
tries with the same ids that fail harmlessly, a call that does not fail gives the same
counts, and the store holds what it held and one record of each approved id. -/
theorem approved_once {batchId : String} {start done : ReviewFiles} {first last : ApproveCall}
    {counts : Nat × Nat} {old : List JsonTree} {calls : List ApproveCall}
    (hreview : start.info.any (·.status = .inReview) = true)
    (hfirst : approve py display lower limits batchId start first = (done, .ok counts))
    (hold : loadLabels limits start.labels = .ok old) (hstart : atLineStart start.labels = true)
    (hkeep : LabelsKeepLines py display lower (py.strip batchId) (wantedIds py first.ids) start)
    (hsame : ∀ call ∈ last :: calls, ∀ x, x ∈ wantedIds py call.ids ↔ x ∈ wantedIds py first.ids)
    (hharmless : Meets (approveStep py display lower limits batchId)
      (fun files call => files.harmless call = true) start calls)
    (hreviewer : py.strip last.reviewer ≠ "") (hlast : last.fault = none) :
    ∃ files records,
      approve py display lower limits batchId
        (run (approveStep py display lower limits batchId) start calls) last =
          (files, .ok counts) ∧
      loadLabels limits files.labels = .ok (old ++ records) ∧
      (records.map (treeGet · "sense_id")).Perm ((wantedIds py first.ids).map textTree) := by
  obtain ⟨bid, info, payload, hid, hready, rfl⟩ := approvable_of_ok hfirst hreview
  have hbid : py.strip batchId = bid := by
    unfold checkBatchId at hid
    split at hid
    · cases hid
    · exact Except.ok.inj hid
  rw [hbid] at hkeep
  have hnodup : (wantedIds py first.ids).Nodup := nodup_distinctIds _
  have hlastSame := hsame last List.mem_cons_self
  have hrest : ∀ call ∈ calls, ∀ x, x ∈ wantedIds py call.ids ↔ x ∈ wantedIds py first.ids :=
    fun call hcall => hsame call (List.mem_cons_of_mem _ hcall)
  rcases hready.tries hkeep hnodup hid hrest hharmless with hstay | himported
  · obtain ⟨w, hplan, hw⟩ := hready.plan hkeep hlastSame hnodup
    have hfiles : Imported limits bid (wantedIds py first.ids) start (start.write w none).1 :=
      ⟨rfl, rfl, w, hw, rfl, rfl⟩
    obtain ⟨records, hload, hperm⟩ := hfiles.loadLabels hold hstart
    refine ⟨_, records, ?_, hload, hperm⟩
    rw [hstay, approve_eq hid hreviewer, hplan, hlast, ← hw.approved, ← hw.returned]
    rfl
  · obtain ⟨records, hload, hperm⟩ := himported.loadLabels hold hstart
    exact ⟨_, records, himported.repeated hready hid hreviewer hlastSame, hload, hperm⟩

end Laws

def twoReviewed : ReviewFiles where
  labels := []
  info := some ⟨"b1", .inReview, "m", 0, 0, [], [], ["s1", "s2"], "", ""⟩
  payload := some
    ⟨[.obj [(points "sense_id", textTree "s1"), (points "lemma", textTree "cat")],
      .obj [(points "sense_id", textTree "s2"), (points "lemma", textTree "dog")]], .inReview⟩
  staged := [⟨"s1", "none", none⟩, ⟨"s2", "none", none⟩]

def approveFirst (fault : Option WriteFault) : ApproveCall :=
  ⟨["s1"], "r", ⟨fun _ => "t", fun _ => rfl⟩, fault⟩

theorem twoReviewed_approved_once : ∃ files records,
    approve .ascii (fun _ => "") id ⟨100, 4300⟩ "b1"
      (run (approveStep .ascii (fun _ => "") id ⟨100, 4300⟩ "b1") twoReviewed
        [approveFirst (some (.labels 0)), approveFirst (some (.payload .untouched))])
      (approveFirst none) = (files, .ok (1, 1)) ∧
    loadLabels ⟨100, 4300⟩ files.labels = .ok ([] ++ records) ∧
    (records.map (treeGet · "sense_id")).Perm
      ((wantedIds .ascii (approveFirst none).ids).map textTree) := by
  have hfirst : approve .ascii (fun _ => "") id ⟨100, 4300⟩ "b1" twoReviewed (approveFirst none) =
      ((approve .ascii (fun _ => "") id ⟨100, 4300⟩ "b1" twoReviewed (approveFirst none)).1,
        .ok (1, 1)) := rfl
  refine approved_once rfl hfirst rfl rfl ?_ ?_ ?_ ?_ rfl
  · intro info payload hload id hid label hlabel
    obtain ⟨rfl, rfl⟩ := Prod.mk.inj (Except.ok.inj hload)
    obtain rfl := List.mem_singleton.mp hid
    obtain rfl := Except.ok.inj hlabel
    decide
  · intro call hcall x
    simp only [List.mem_cons, List.not_mem_nil, or_false] at hcall
    rcases hcall with rfl | rfl | rfl <;> rfl
  · exact ⟨rfl, rfl, trivial⟩
  · decide

/-- The meta cannot be written, and the second try appends the label again. -/
theorem approved_labels_twice :
    let step := approveStep .ascii (fun _ => "") id ⟨100, 4300⟩ "b1"
    let files := run step twoReviewed [approveFirst (some (.info .untouched)), approveFirst none]
    (approve .ascii (fun _ => "") id ⟨100, 4300⟩ "b1"
        (step twoReviewed (approveFirst (some (.info .untouched)))) (approveFirst none)).2 =
      .ok (1, 1) ∧
    (loadLabels ⟨100, 4300⟩ files.labels).map
      (·.map fun record => cleanTree .ascii (fun _ => "") (treeGet record "sense_id")) =
        .ok ["s1", "s1"] := by
  decide +kernel

end HamZaboon
