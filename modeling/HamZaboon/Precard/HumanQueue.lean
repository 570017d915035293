import HamZaboon.Precard.Pipeline

/-! # The escalation queue

`human_queue.py` and what the pipeline makes of it: the record of an enrich payload
with a gate fire, the line that is appended for it, and the flush of a session's
payloads, which skips what raises.  A payload that escalates has its line, unless
the sink refuses it (`exists_line_of_escalates`).

The sink is a list of lines, and an append is atomic.
-/

namespace HamZaboon
open Library

section Queue
variable (py : PyText)

/-! ## Ids -/

/-- `_clean`. -/
def cleanText (value : JsonValue) : String := py.strip (py.pyStr (orElse value (.str "")))

/-- `[/\\\s]`. -/
def isQueueSeparator (c : Char) : Bool := c = '/' || c = '\\' || py.isSpace c

/-- A dash for each run of separators; the flag says that one is going on. -/
def dashSeparators : Bool → List Char → List Char
  | _, [] => []
  | inRun, c :: cs =>
    if isQueueSeparator py c then
      if inRun then dashSeparators true cs else '-' :: dashSeparators true cs
    else c :: dashSeparators false cs

def sanitizeComponent (text : String) : String :=
  String.ofList (trim (· = '-') (dashSeparators py false (py.strip text).toList))

/-- `build_queue_id`, unless it raises. -/
def buildQueueId (word pos senseId : String) : Option String :=
  let parts := [word, pos, senseId].map (sanitizeComponent py)
  if parts.all (· ≠ "") then some ("esc-" ++ "-".intercalate parts) else none

/-! ## Records -/

/-- What a record holds besides its nulls. -/
structure Escalation where
  word : String
  pos : String
  senseId : String
  reason : String
  gloss : String
  signalsTrace : Dict

/-- The gate fires of a payload, unless they cannot be iterated. -/
def gateFires (payload : JsonValue) : Option (List String) :=
  (field payload "gate_fires").iterate.map fun fires =>
    (fires.filter fun fire => cleanText py fire ≠ "").map py.pyStr

/-- The first part of speech of the payload, or the one of the item. -/
def escalationPos (item : PipelineItem) (payload : JsonValue) : String :=
  let own := match field payload "pos" with
    | .arr (tag :: _) => cleanText py tag
    | _ => ""
  if own = "" then cleanText py (field (.obj item.fields) "pos") else own

def humanQueueRecord (item : PipelineItem) (payload : JsonValue) : Option Escalation := do
  if isDict payload then
    let fires ← gateFires py payload
    let word := py.strip item.text
    let senseId := cleanText py (field payload "sense_id")
    let pos := escalationPos py item payload
    if fires = [] ∨ word = "" ∨ pos = "" ∨ senseId = "" then none
    else
      let reasons := match field payload "gate_reasons" with
        | .obj reasons => reasons
        | _ => []
      some
        { word, pos, senseId
          reason := ",".intercalate fires
          gloss := py.pyStr (orElse (field payload "en_def") (.str ""))
          signalsTrace :=
            [("gate_verdict", .str (py.pyStr (orElse (field payload "gate_verdict") (.str "LINK")))),
              ("gate_reasons", .obj reasons),
              ("signal_quality_would_fire",
                .bool (field payload "signal_quality_would_fire").truthy),
              ("signal_quality_reason",
                .str (py.pyStr (orElse (field payload "signal_quality_reason") (.str ""))))] }
  else none

/-- The line that `enqueue_escalation` appends at this time, unless it raises before
the append. -/
def escalationLine (createdAt : String) (record : Escalation) : Option Dict :=
  let word := py.strip record.word
  let pos := py.strip record.pos
  let senseId := py.strip record.senseId
  let reason := py.strip record.reason
  if word = "" ∨ pos = "" ∨ senseId = "" ∨ reason = "" then none
  else
    (buildQueueId py word pos senseId).map fun queueId =>
      [("queue_id", .str queueId), ("created_at", .str createdAt),
        ("escalation_reason", .str reason),
        ("source_entry", .obj [("lemma", .str record.word), ("pos", .str record.pos),
          ("sense_id", .str record.senseId), ("gloss", .str record.gloss)]),
        ("candidates", .arr []), ("signals_trace", .obj record.signalsTrace),
        ("arbiter_trace", .null), ("human_resolution", .str "PENDING")]

/-- The payloads a session has enriched, with their items. -/
abbrev QueuePending := List (PipelineItem × JsonValue)

/-- `_flush_human_queue`: the lines it appends, where the sink refuses the `n`-th
payload's or not. -/
def flushHumanQueue (createdAt : Nat → String) (refuses : Nat → Bool) (pending : QueuePending) :
    List Dict :=
  pending.zipIdx.filterMap fun (p, n) =>
    if refuses n then none
    else (humanQueueRecord py p.1 p.2).bind (escalationLine py (createdAt n))

/-! ## What escalates -/

/-- The payload has a gate fire, and a word, a part of speech and a sense of more than
separators. -/
structure Escalates (item : PipelineItem) (payload : JsonValue) (queueId reason : String) :
    Prop where
  dict : isDict payload = true
  fires : ∃ fires, gateFires py payload = some fires ∧ fires ≠ [] ∧
    py.strip (",".intercalate fires) = reason
  queueId : buildQueueId py item.text (escalationPos py item payload)
    (cleanText py (field payload "sense_id")) = some queueId

/-- A line that waits for a human. -/
structure PendingLine (queueId reason : String) (line : Dict) : Prop where
  queueId : line.get "queue_id" = .str queueId
  reason : line.get "escalation_reason" = .str reason
  resolution : line.get "human_resolution" = .str "PENDING"

variable {py} {item : PipelineItem} {payload : JsonValue} {queueId reason : String}

@[simp] theorem strip_cleanText (value : JsonValue) :
    py.strip (cleanText py value) = cleanText py value :=
  py.strip_strip _

@[simp] theorem strip_escalationPos :
    py.strip (escalationPos py item payload) = escalationPos py item payload := by
  have hempty : py.strip "" = "" := rfl
  unfold escalationPos
  cases field payload "pos" with
  | arr tags =>
    cases tags with
    | nil => exact strip_cleanText _
    | cons tag tags =>
      by_cases htag : cleanText py tag = ""
      · simp only [htag, if_true]
        exact strip_cleanText _
      · simp only [htag, if_false]
        exact strip_cleanText _
  | _ => exact strip_cleanText _

@[simp] theorem sanitizeComponent_strip (text : String) :
    sanitizeComponent py (py.strip text) = sanitizeComponent py text := by
  rw [sanitizeComponent, py.strip_strip, sanitizeComponent]

theorem strip_ne_empty {text : String} (h : sanitizeComponent py text ≠ "") :
    py.strip text ≠ "" := by
  intro hstrip
  refine h ?_
  rw [sanitizeComponent, hstrip]
  rfl

theorem buildQueueId_eq_some {word pos senseId : String} :
    buildQueueId py word pos senseId = some queueId ↔
      (sanitizeComponent py word ≠ "" ∧ sanitizeComponent py pos ≠ "" ∧
        sanitizeComponent py senseId ≠ "") ∧
      "esc-" ++ "-".intercalate ([word, pos, senseId].map (sanitizeComponent py)) = queueId := by
  simp [buildQueueId, Option.ite_none_right_eq_some]

theorem strip_ne_empty_iff {text : String} :
    py.strip text ≠ "" ↔ ∃ c ∈ text.toList, py.isSpace c = false := by
  rw [UnicodeLib.strip, Ne, String.ofList_eq_empty_iff, trim_eq_nil_iff]
  simp

theorem mem_intercalate {text sep : String} {texts : List String} (h : text ∈ texts) {c : Char}
    (hc : c ∈ text.toList) : c ∈ (sep.intercalate texts).toList := by
  rw [String.toList_intercalate]
  induction texts with
  | nil => cases h
  | cons first rest ih =>
    cases rest with
    | nil =>
      obtain rfl := List.mem_singleton.mp h
      simpa using hc
    | cons second rest =>
      rw [List.map_cons, List.map_cons, List.intercalate_cons_cons, List.append_assoc,
        List.mem_append, List.mem_append]
      rcases List.mem_cons.mp h with rfl | h
      · exact .inl hc
      · exact .inr (.inr (ih h))

theorem strip_fires_ne_empty {fires : List String} (h : gateFires py payload = some fires)
    (hne : fires ≠ []) : py.strip (",".intercalate fires) ≠ "" := by
  obtain ⟨values, -, rfl⟩ := Option.map_eq_some_iff.mp h
  obtain ⟨fire, hfire⟩ := List.exists_mem_of_ne_nil _ hne
  obtain ⟨value, hvalue, rfl⟩ := List.mem_map.mp hfire
  have hclean : cleanText py value ≠ "" := of_decide_eq_true (List.mem_filter.mp hvalue).2
  have hstrip : py.strip (py.pyStr value) ≠ "" := by
    unfold cleanText orElse at hclean
    split at hclean
    · exact hclean
    · exact absurd rfl hclean
  obtain ⟨c, hc, hspace⟩ := strip_ne_empty_iff.mp hstrip
  refine strip_ne_empty_iff.mpr ⟨c, ?_, hspace⟩
  exact mem_intercalate (List.mem_map_of_mem hvalue) hc

theorem Escalates.record (h : Escalates py item payload queueId reason) :
    ∃ record, humanQueueRecord py item payload = some record ∧
      record.word = py.strip item.text ∧ record.pos = escalationPos py item payload ∧
      record.senseId = cleanText py (field payload "sense_id") ∧
      py.strip record.reason = reason := by
  obtain ⟨fires, hfires, hne, hreason⟩ := h.fires
  obtain ⟨⟨hword, hpos, hsense⟩, -⟩ := buildQueueId_eq_some.mp h.queueId
  have hword' := strip_ne_empty hword
  have hpos' := strip_ne_empty hpos
  have hsense' := strip_ne_empty hsense
  rw [strip_escalationPos] at hpos'
  rw [strip_cleanText] at hsense'
  unfold humanQueueRecord
  rw [if_pos h.dict, hfires]
  simp only [Option.bind_eq_bind, Option.bind_some]
  rw [if_neg (by simp [hne, hword', hpos', hsense'])]
  exact ⟨_, rfl, rfl, rfl, rfl, hreason⟩

theorem pendingLine_of_escalates (h : Escalates py item payload queueId reason)
    (createdAt : String) : ∃ line, (humanQueueRecord py item payload).bind
      (escalationLine py createdAt) = some line ∧ PendingLine queueId reason line := by
  obtain ⟨record, hrecord, hword, hpos, hsense, hreason⟩ := h.record
  obtain ⟨fires, hfires, hne, hjoined⟩ := h.fires
  obtain ⟨⟨hword', hpos', hsense'⟩, hid⟩ := buildQueueId_eq_some.mp h.queueId
  have hreason' : reason ≠ "" := hjoined ▸ strip_fires_ne_empty hfires hne
  have hbuilt : buildQueueId py (py.strip item.text) (escalationPos py item payload)
      (cleanText py (field payload "sense_id")) = some queueId := by
    rw [buildQueueId_eq_some, sanitizeComponent_strip]
    refine ⟨⟨hword', hpos', hsense'⟩, ?_⟩
    rw [← hid, List.map_cons, sanitizeComponent_strip, ← List.map_cons]
  rw [hrecord, Option.bind_some]
  unfold escalationLine
  simp only [hword, hpos, hsense, hreason, py.strip_strip, strip_escalationPos, strip_cleanText,
    hbuilt, Option.map_some]
  rw [if_neg]
  · exact ⟨_, rfl, rfl, rfl, rfl⟩
  · have hpos'' := strip_ne_empty hpos'
    have hsense'' := strip_ne_empty hsense'
    rw [strip_escalationPos] at hpos''
    rw [strip_cleanText] at hsense''
    simp [strip_ne_empty hword', hpos'', hsense'', hreason']

/-- **What escalates is queued**, where the sink does not refuse it. -/
theorem exists_line_of_escalates {pending : QueuePending} (hmem : (item, payload) ∈ pending)
    (h : Escalates py item payload queueId reason) {refuses : Nat → Bool}
    (hwrites : ∀ n, refuses n = false) (createdAt : Nat → String) :
    ∃ line ∈ flushHumanQueue py createdAt refuses pending, PendingLine queueId reason line := by
  obtain ⟨n, hn⟩ := List.mem_iff_getElem?.mp hmem
  obtain ⟨line, hline, hpending⟩ := pendingLine_of_escalates h (createdAt n)
  have hzip : ((item, payload), n) ∈ pending.zipIdx := List.mk_mem_zipIdx_iff_getElem?.mpr hn
  refine ⟨line, List.mem_filterMap.mpr ⟨_, hzip, ?_⟩, hpending⟩
  simp only [hwrites n, Bool.false_eq_true, if_false]
  exact hline

end Queue

end HamZaboon
