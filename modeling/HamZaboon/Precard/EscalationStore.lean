import HamZaboon.Library.Latest
import HamZaboon.Library.Ranking
import HamZaboon.Precard.HumanQueue
import HamZaboon.Webui.Labels
import Mathlib.Data.Prod.Lex
import Mathlib.Data.String.Basic

/-! # The file of the escalation queue

`enqueue_escalation` on a record of any shape and `load_queue_deduped`: a record
becomes one line at the end of the file, and the reader keeps the last record of each
queue id.

Like the label store, the file is lossless exactly when no text in it ends a line
(`escalationsLossless_iff`).  A queue id flattens the lemma, the part of speech and
the sense id of a record; where two of them share one, a record is lost.
-/

namespace HamZaboon
open Library

section Queue
variable (py : PyText) (display : JsonTree → String)

/-! ## Lines -/

/-- The lemma, the part of speech and the sense id of a record. -/
structure SenseIdentity where
  word : String
  pos : String
  senseId : String
  deriving DecidableEq, Repr

/-- What a record says it is about. -/
def identityOf (record : JsonTree) : SenseIdentity where
  word := cleanTree py display (treeGet record "lemma")
  pos := cleanTree py display (treeGet record "pos")
  senseId := cleanTree py display (treeGet record "sense_id")

/-- `out.setdefault(key, value)`. -/
def setDefault (entries : List (List Nat × JsonTree)) (key : String) (value : JsonTree) :
    List (List Nat × JsonTree) :=
  if (entries.lookup (points key)).isSome then entries else entries ++ [(points key, value)]

def sourceEntry (record : JsonTree) (identity : SenseIdentity) : JsonTree :=
  match treeGet record "source_entry" with
  | .obj entry =>
    .obj (setDefault (setDefault (setDefault entry "lemma" (textTree identity.word))
      "pos" (textTree identity.pos)) "sense_id" (textTree identity.senseId))
  | .null =>
    let gloss := match treeGet record "gloss" with
      | .null => treeGet record "winner_gloss"
      | gloss => gloss
    let minimal := [(points "lemma", textTree identity.word), (points "pos", textTree identity.pos),
      (points "sense_id", textTree identity.senseId)]
    .obj (if cleanTree py display gloss = "" then minimal
      else minimal ++ [(points "gloss", textTree (cleanTree py display gloss))])
  | _ => .null

/-- `_trace`: the first of the fields that is not null. -/
def traceField (record : JsonTree) : List String → JsonTree
  | [] => .null
  | name :: names =>
    match treeGet record name with
    | .null => traceField record names
    | value => value

/-- What `enqueue_escalation` raises. -/
inductive QueueError
  | notADict
  | identityRequired
  | notSerializable
  deriving DecidableEq, Repr

/-- The stamp of a record: its own, or the time. -/
def createdAtOf (record : JsonTree) (now : String) : String :=
  let own := cleanTree py display (treeGet record "created_at")
  if own = "" then now else own

/-- The value that `enqueue_escalation` writes at this time. -/
def queueLine (record : JsonTree) (now : String) : Except QueueError JsonTree :=
  if isObject record = false then .error .notADict
  else
    let identity := identityOf py display record
    let reason := cleanTree py display (treeGet record "escalation_reason")
    if identity.word = "" ∨ identity.pos = "" ∨ identity.senseId = "" ∨ reason = "" then
      .error .identityRequired
    else
      match buildQueueId py identity.word identity.pos identity.senseId with
      | none => .error .identityRequired
      | some queueId =>
        .ok (.obj [(points "queue_id", textTree queueId),
          (points "created_at", textTree (createdAtOf py display record now)),
          (points "escalation_reason", textTree reason),
          (points "source_entry", sourceEntry py display record identity),
          (points "candidates", traceField record ["candidates"]),
          (points "signals_trace", traceField record ["signals_trace", "signals"]),
          (points "arbiter_trace", traceField record ["arbiter_trace", "arbiter"]),
          (points "human_resolution", textTree "PENDING")])

variable (limits : ScanLimits)

/-- `enqueue_escalation`: the value it writes and the file with its line. -/
def enqueueEscalation (record : JsonTree) (now : String) (sink : List Char) :
    Except QueueError (JsonTree × List Char) :=
  match queueLine py display record now with
  | .error e => .error e
  | .ok line =>
    match jsonDumps limits line with
    | none => .error .notSerializable
    | some blob => .ok (line, sink ++ blob ++ ['\n'])

/-! ## The reader -/

/-- The queue id of a value, unless it is skipped. -/
def queueIdOf (value : JsonTree) : Option String :=
  if isObject value then
    let queueId := cleanTree py display (treeGet value "queue_id")
    if queueId = "" then none else some queueId
  else none

def stampOf (value : JsonTree) : String := cleanTree py display (treeGet value "created_at")

/-- The loop over the lines: of two values with one queue id the one with the later
stamp stays, of equal stamps the later line.  A value comes with its place. -/
def keepLatest (latest : List (String × (Nat × JsonTree))) (place : Nat) (value : JsonTree) :
    List (String × (Nat × JsonTree)) :=
  match queueIdOf py display value with
  | none => latest
  | some queueId =>
    match latest.lookup queueId with
    | none => setEntry latest queueId (place, value)
    | some (_, prev) =>
      if stampOf py display prev ≤ stampOf py display value then
        setEntry latest queueId (place, value)
      else latest

/-- What is returned of the values on the lines, in the order of the stamps. -/
def dedupeQueue (values : List JsonTree) : List JsonTree :=
  let latest := values.zipIdx.foldl (fun latest v => keepLatest py display latest v.2 v.1) []
  (sortBy (fun e : String × (Nat × JsonTree) =>
    toLex (stampOf py display e.2.2, toLex (e.2.1, e.1))) latest).map fun e => e.2.2

def loadQueueDeduped (sink : List Char) : Except Unit (List JsonTree) :=
  (loadLines limits (splitLines .splitlines sink)).map (dedupeQueue py display)

/-- Calls one behind the other on a new file. -/
def enqueueAll (calls : List (JsonTree × String)) :
    Except QueueError (List JsonTree × List Char) :=
  saveAll (fun call sink => enqueueEscalation py display limits call.1 call.2 sink) calls

end Queue

section Laws
variable {py : PyText} {display : JsonTree → String} {limits : ScanLimits}

/-! ## The file is lossless -/

theorem enqueueEscalation_appends :
    Appends
      (fun (call : JsonTree × String) sink =>
        enqueueEscalation py display limits call.1 call.2 sink)
      limits (fun call line => queueLine py display call.1 call.2 = .ok line) := by
  intro call sink line sink' h
  simp only [enqueueEscalation] at h
  split at h
  · cases h
  · rename_i line' hline
    split at h
    · cases h
    · rename_i blob hblob
      obtain ⟨rfl, rfl⟩ := Prod.mk.inj (Except.ok.inj h)
      exact ⟨hline, blob, hblob, rfl⟩

/-- No text of the lines that the calls write ends a line for the reader. -/
def QueueKeepsLines (py : PyText) (display : JsonTree → String) (calls : List (JsonTree × String)) :
    Prop :=
  ∀ call ∈ calls, ∀ line, queueLine py display call.1 call.2 = .ok line →
    ∀ n ∈ textPoints line, n ∉ [0x85, 0x2028, 0x2029]

theorem queueKeepsLines_iff {calls : List (JsonTree × String)} {lines : List JsonTree}
    (h : List.Forall₂ (fun call line => queueLine py display call.1 call.2 = .ok line) calls lines) :
    (∀ line ∈ lines, Unbroken .splitlines line) ↔ QueueKeepsLines py display calls := by
  induction h with
  | nil => simp [QueueKeepsLines]
  | @cons call line calls lines hline _ ih =>
    rw [QueueKeepsLines, List.forall_mem_cons, List.forall_mem_cons, ih, QueueKeepsLines,
      unbroken_splitlines_iff]
    refine and_congr_left fun _ => ⟨fun hall line' hline' => ?_, fun hall => hall line hline⟩
    obtain rfl := Except.ok.inj (hline.symm.trans hline')
    exact hall

/-- **The queue is lossless exactly when no text in its lines ends one.** -/
theorem escalationsLossless_iff {calls : List (JsonTree × String)} {lines : List JsonTree}
    {sink : List Char} (h : enqueueAll py display limits calls = .ok (lines, sink)) :
    Lossless limits .splitlines lines sink ↔ QueueKeepsLines py display calls := by
  obtain ⟨hstored, hlines⟩ := saveAll_ok enqueueEscalation_appends h
  rw [hstored.lossless_iff, queueKeepsLines_iff hlines]

/-- **Both stores are lossless exactly when no text that comes into them ends a
line.** -/
theorem stores_lossless_iff {lower : String → String} {saves calls : List (JsonTree × String)}
    {records lines : List JsonTree} {store sink : List Char}
    (hsaves : saveLabels py display lower limits saves = .ok (records, store))
    (hcalls : enqueueAll py display limits calls = .ok (lines, sink)) :
    (LabelsLossless limits records store ↔ KeepLines py display lower saves) ∧
      (Lossless limits .splitlines lines sink ↔ QueueKeepsLines py display calls) :=
  ⟨labelsLossless_iff hsaves, escalationsLossless_iff hcalls⟩

end Laws

def textFields (fields : List (String × String)) : JsonTree :=
  .obj (fields.map fun e => (points e.1, textTree e.2))

def wordLabel (word : String) : JsonTree × String :=
  (textFields [("sense_id", "s1"), ("lemma", word), ("verdict", "none"), ("stratum", "a"),
    ("annotator", "me")], "2025-01-01")

def wordEscalation (word : String) : JsonTree × String :=
  (textFields [("lemma", word), ("pos", "noun"), ("sense_id", "s1"),
    ("escalation_reason", "veto")], "2025-01-01")

/-- The stores of a word with a line separator in it. -/
theorem separated_stores_lossless_iff : ∃ records store lines sink,
    saveLabels .ascii (fun _ => "") id ⟨100, 4300⟩ [wordLabel "a\u2028b"] = .ok (records, store) ∧
      enqueueAll .ascii (fun _ => "") ⟨100, 4300⟩ [wordEscalation "a\u2028b"] = .ok (lines, sink) ∧
      (LabelsLossless ⟨100, 4300⟩ records store ↔
        KeepLines .ascii (fun _ => "") id [wordLabel "a\u2028b"]) ∧
      (Lossless ⟨100, 4300⟩ .splitlines lines sink ↔
        QueueKeepsLines .ascii (fun _ => "") [wordEscalation "a\u2028b"]) :=
  ⟨_, _, _, _, rfl, rfl, stores_lossless_iff rfl rfl⟩

/-- Its label is saved, and no label is read. -/
theorem separated_label_lost : ∃ records store,
    saveLabels .ascii (fun _ => "") id ⟨100, 4300⟩ [wordLabel "a\u2028b"] = .ok (records, store) ∧
      loadLabels ⟨100, 4300⟩ store = .ok [] ∧ ¬ LabelsLossless ⟨100, 4300⟩ records store := by
  refine ⟨_, _, rfl, rfl, ?_⟩
  rintro ⟨-, hread⟩
  cases hread

end HamZaboon
