import HamZaboon.Webui.AnswerSheet
import HamZaboon.Webui.Labels

/-! # Batches for supervised judging

`batches.py`: `build_batch` takes the first screened senses that are not judged yet, and
`render_markdown` prints them with a template for the answer sheet.

A sense that is screened twice comes twice into a batch and its template, and the
checker takes an id only once: the template can be answered exactly when the senses
taken are different (`batch_answerable_iff`).
-/

namespace HamZaboon
open Library

/-! ## Screened senses -/

structure ScreenedRow where
  word : String
  senseId : String
  fullId : String
  definition : String
  example' : String
  tags : List String
  deriving DecidableEq, Repr

/-- `for item in value or []`, unless the value cannot be iterated. -/
def iterateTree : JsonTree → Option (List JsonTree)
  | .str text => some (text.map fun n => .str [n])
  | .arr items => some items
  | .obj entries => some (entries.map fun e => .str e.1)
  | value => if treeTruthy value then none else some []

section Screened
variable (py : PyText) (display : JsonTree → String) (limits : ScanLimits)

def firstGloss (sense : JsonTree) : Option String :=
  (iterateTree (treeGet sense "glosses")).map fun glosses =>
    ((glosses.map (stripText py)).find? (· ≠ "")).getD (stripText py (treeGet sense "gloss"))

def firstExample (sense : JsonTree) : Option String :=
  (iterateTree (treeGet sense "examples")).map fun items =>
    ((items.map fun item => stripText py (if isObject item then treeGet item "text" else item)).find?
      (· ≠ "")).getD ""

def cleanTags (raw : JsonTree) : List String :=
  match raw with
  | .arr tags =>
    tags.foldl (fun out tag =>
      let text := cleanTree py display tag
      if text = "" ∨ text ∈ out then out else out ++ [text]) []
  | _ => []

/-- The row of a value, or none where it is skipped. -/
def screenedRow (value : JsonTree) : Except Unit (Option ScreenedRow) :=
  let sense := treeGet value "sense"
  let senseId := stripText py (treeGet sense "sense_id")
  if senseId = "" then .ok none
  else
    match firstGloss py sense, firstExample py sense with
    | some definition, some text =>
      .ok (some
        { word := if treeTruthy (treeGet value "lemma") then treeStr display (treeGet value "lemma") else ""
          senseId
          fullId := stripText py (treeGet sense "id")
          definition
          example' := text
          tags := cleanTags py display (treeGet sense "tags") })
    | _, _ => .error ()

def readScreened (screened : List Char) : Except Unit (List ScreenedRow) := do
  let values ← loadLines limits (splitLines .universal screened)
  let rows ← values.mapM (screenedRow py display)
  return rows.filterMap id

end Screened

/-! ## What is judged -/

section Judged
variable (py : PyText) (display : JsonTree → String)

/-- `str(meta.get("status") or "")`. -/
def statusOf (batch : JsonTree) : String :=
  if treeTruthy (treeGet batch "status") then treeStr display (treeGet batch "status") else ""

def strippedIds (ids : List JsonTree) : List String :=
  (ids.map (stripText py)).filter (· ≠ "")

/-- `judged_ids`, from the labels and the metas of the batches. -/
def judgedIds (labels metas : List JsonTree) : Except Unit (List String) := do
  let held ← (metas.filter fun batch => isObject batch && statusOf display batch ≠ "cancelled").mapM
    fun batch => ((iterateTree (treeGet batch "sense_ids")).elim (.error ()) .ok : Except Unit _)
  return strippedIds py (labels.map fun rec => treeGet rec "sense_id") ++ strippedIds py held.flatten

def activeBatches (metas : List JsonTree) : List JsonTree :=
  metas.filter fun batch => isObject batch && statusOf display batch ∉ ["imported", "cancelled"]

end Judged

/-! ## Building -/

structure LinkRow where
  kaikkiSenseId : String
  wordnetSensekey : String

/-- The prompt file: `prompt_hash` is a `hexdigest`. -/
structure PromptFile where
  text : String
  hash : String
  hash_ne : hash ≠ ""
  hash_hex : ∀ c ∈ hash.toList, c.isAlphanum = true

structure BatchItem extends ScreenedRow where
  candidates : List String
  deriving DecidableEq, Repr

structure BatchRecord where
  id : String
  size : Nat
  status : String
  promptVersion : String
  promptHash : String
  createdAt : String
  items : List BatchItem
  deriving DecidableEq, Repr

/-- What `build_batch` raises. -/
inductive BuildError
  | validation (message : String)
  /-- A `TypeError` or a `RecursionError` of what it reads. -/
  | raised

/-- `candidates_for_ids`: the synset ids under the full and the short id. -/
def candidatesForIds (py : PyText) (table : List LinkRow) (shortId fullId : String) : List String :=
  ([fullId, shortId].filter (· ≠ "")).foldl (fun out kid =>
    (table.filter (·.kaikkiSenseId = kid)).foldl (fun out row =>
      let skey := py.strip row.wordnetSensekey
      if skey = "" ∨ skey = "-" ∨ skey ∈ out then out else out ++ [skey]) out) []

def checkSize : JsonTree → Except BuildError Nat
  | .null => .ok 25
  | .int size =>
    if size < 10 ∨ 50 < size then
      .error (.validation ("VALIDATION-size: size must be in 10-50 (got " ++ toString size ++ ")"))
    else .ok size.toNat
  | _ => .error (.validation "VALIDATION-size: size must be an int in 10-50")

/-- What `build_batch` is called with and what it finds. -/
structure BuildInput where
  screened : List Char
  screenedPath : String
  size : JsonTree
  table : List LinkRow
  labels : List Char
  /-- The metas of the batches that can be read. -/
  metas : List JsonTree
  prompt : PromptFile
  newId : String
  now : String

section Build
variable (py : PyText) (display : JsonTree → String) (limits : ScanLimits)

def unjudgedRows (input : BuildInput) : Except Unit (List ScreenedRow) := do
  let rows ← readScreened py display limits input.screened
  let labels ← loadLabels limits input.labels
  let done ← judgedIds py display labels input.metas
  return rows.filter (·.senseId ∉ done)

def batchItem (table : List LinkRow) (row : ScreenedRow) : BatchItem :=
  { row with candidates := candidatesForIds py table row.senseId row.fullId }

def buildBatch (input : BuildInput) : Except BuildError BatchRecord :=
  match checkSize input.size with
  | .error e => .error e
  | .ok want =>
    if activeBatches display input.metas ≠ [] then
      .error (.validation ("VALIDATION-active-batch: cancel the active batch before exporting a " ++
        "new one (anti-rework)"))
    else
      match unjudgedRows py display limits input with
      | .error () => .error .raised
      | .ok [] =>
        .error (.validation ("VALIDATION-empty-queue: no unjudged senses in " ++ input.screenedPath))
      | .ok (row :: rows) =>
        .ok
          { id := input.newId
            size := want
            status := "exported"
            promptVersion := "v1"
            promptHash := input.prompt.hash
            createdAt := input.now
            items := ((row :: rows).take want).map (batchItem py input.table) }

end Build

/-! ## Printing -/

namespace BatchItem

def tree (item : BatchItem) : JsonTree :=
  .obj [(points "sense_id", textTree item.senseId), (points "lemma", textTree item.word),
    (points "definition", textTree item.definition), (points "example", textTree item.example'),
    (points "tags", .arr (item.tags.map textTree)),
    (points "candidates", .arr (item.candidates.map fun skey =>
      .obj [(points "synset_id", textTree skey), (points "definition", textTree ""),
        (points "example", textTree ""), (points "tags", .arr [])]))]

/-- Its lines; the candidates of the vendor table have no definition or example. -/
def lines (item : BatchItem) (pos : Nat) : List String :=
  ["", "### " ++ toString pos ++ ". " ++ item.senseId ++ " — " ++ item.word] ++
    (if item.definition = "" then [] else ["definition: " ++ item.definition]) ++
    (if item.example' = "" then [] else ["example: " ++ item.example']) ++
    (if item.tags = [] then [] else ["tags: " ++ ", ".intercalate item.tags]) ++
    (if item.candidates = [] then ["candidates: (none — verdict must be none)"]
      else "candidates:" :: item.candidates.map ("- " ++ ·))

def templateRow (item : BatchItem) : JsonTree :=
  .obj [(points "sense_id", textTree item.senseId), (points "verdict", textTree "link|none"),
    (points "target_synset", textTree "<synset_id or null>")]

end BatchItem

namespace BatchRecord

def view (batch : BatchRecord) : BatchView
  | "id" => textTree batch.id
  | "size" => .int batch.size
  | "status" => textTree batch.status
  | "prompt_version" => textTree batch.promptVersion
  | "prompt_hash" => textTree batch.promptHash
  | "created_at" => textTree batch.createdAt
  | "items" => .arr (batch.items.map BatchItem.tree)
  | _ => .null

def template (batch : BatchRecord) : JsonTree :=
  .obj [(points "model", textTree "<your model name>"),
    (points "prompt_hash", textTree batch.promptHash),
    (points "verdicts", .arr (batch.items.map BatchItem.templateRow))]

/-- `render_markdown`. -/
def markdown (batch : BatchRecord) (py : PyText) (prompt : String) : String :=
  "\n".intercalate (
    ["# Supervised arbitration batch " ++ batch.id, "", "prompt_version: " ++ batch.promptVersion,
      "prompt_hash: " ++ batch.promptHash, "created_at: " ++ batch.createdAt,
      "size: " ++ toString batch.size, "", "## System prompt (copy into the AI chat first)", "",
      "```text", py.strip prompt, "```", "", "## Items (" ++ toString batch.items.length ++ ")"] ++
    (batch.items.zipIdx 1).flatMap (fun e => e.1.lines e.2) ++
    ["", "## Answer sheet template (reply with EXACTLY this JSON shape)", "", "```json",
      String.ofList (dump .indented 0 batch.template), "```", ""])

end BatchRecord

/-- A row of the template with the verdict none. -/
def fillRow : JsonTree → JsonTree
  | .obj entries =>
    .obj (entries.map fun e =>
      if e.1 = points "verdict" then (e.1, textTree "none")
      else if e.1 = points "target_synset" then (e.1, .null)
      else e)
  | value => value

/-- A template with a model name and the verdict none in each row. -/
def fillTemplate (model : String) : JsonTree → JsonTree
  | .obj entries =>
    .obj (entries.map fun e =>
      if e.1 = points "model" then (e.1, textTree model)
      else
        match e.2 with
        | .arr rows => (e.1, .arr (rows.map fillRow))
        | _ => e)
  | value => value

/-! ## Batches that can be answered -/

section Laws
variable {py : PyText} {display : JsonTree → String} {lower : String → String} {limits : ScanLimits}

@[simp] theorem stripText_textTree (s : String) : stripText py (textTree s) = py.strip s := by
  rw [textTree, stripText, pointsText_points]

@[simp] theorem strip_stripText (value : JsonTree) :
    py.strip (stripText py value) = stripText py value := by
  cases value with
  | str text => exact py.strip_strip _
  | _ => rfl

theorem strip_alphanum (hletters : ∀ c : Char, c.isAlphanum = true → py.isSpace c = false) {s : String}
    (h : ∀ c ∈ s.toList, c.isAlphanum = true) : py.strip s = s := by
  rw [UnicodeLib.strip, ← String.toList_inj, String.toList_ofList]
  cases hs : s.toList with
  | nil => rfl
  | cons c cs =>
    rw [hs] at h
    exact trim_eq_self (hletters c (h c List.mem_cons_self)) fun d hd =>
      hletters d (h d (List.mem_of_mem_getLast? hd))

theorem screenedRow_ok {value : JsonTree} {row : ScreenedRow}
    (h : screenedRow py display value = .ok (some row)) :
    row.senseId ≠ "" ∧ py.strip row.senseId = row.senseId := by
  simp only [screenedRow] at h
  split at h
  · cases h
  · rename_i hid
    split at h
    · obtain rfl := Option.some.inj (Except.ok.inj h)
      exact ⟨hid, strip_stripText _⟩
    · cases h

theorem unjudgedRows_ok {input : BuildInput} {rows : List ScreenedRow}
    (h : unjudgedRows py display limits input = .ok rows) :
    ∀ row ∈ rows, row.senseId ≠ "" ∧ py.strip row.senseId = row.senseId := by
  obtain ⟨screened, hscreened, h⟩ := bind_eq_ok.mp h
  obtain ⟨labels, -, h⟩ := bind_eq_ok.mp h
  obtain ⟨done, -, h⟩ := bind_eq_ok.mp h
  obtain rfl := Except.ok.inj h
  obtain ⟨values, -, hrows⟩ := bind_eq_ok.mp hscreened
  obtain ⟨found, hfound, hrows⟩ := bind_eq_ok.mp hrows
  obtain rfl := Except.ok.inj hrows
  intro row hrow
  obtain ⟨row', hrow', rfl⟩ := List.mem_filterMap.mp (List.mem_filter.mp hrow).1
  obtain ⟨value, -, hvalue⟩ := exists_left_of_forall₂ (forall₂_of_mapM_ok hfound) hrow'
  exact screenedRow_ok hvalue

/-- The first unjudged rows, as many as the batch is large. -/
def takenRows (py : PyText) (display : JsonTree → String) (limits : ScanLimits) (input : BuildInput) :
    List ScreenedRow :=
  match checkSize input.size, unjudgedRows py display limits input with
  | .ok want, .ok rows => rows.take want
  | _, _ => []

theorem buildBatch_ok {input : BuildInput} {batch : BatchRecord}
    (h : buildBatch py display limits input = .ok batch) :
    batch.promptHash = input.prompt.hash ∧
      batch.items = (takenRows py display limits input).map (batchItem py input.table) ∧
      ∀ row ∈ takenRows py display limits input, row.senseId ≠ "" ∧
        py.strip row.senseId = row.senseId := by
  simp only [buildBatch] at h
  split at h
  · cases h
  rename_i want hwant
  split at h
  · cases h
  split at h
  · cases h
  · cases h
  · rename_i row rows hrows
    obtain rfl := Except.ok.inj h
    have htaken : takenRows py display limits input = (row :: rows).take want := by
      simp only [takenRows, hwant, hrows]
    refine ⟨rfl, by rw [htaken], fun row' hrow' => unjudgedRows_ok hrows row' ?_⟩
    rw [htaken] at hrow'
    exact (List.take_sublist _ _).subset hrow'

/-! ## The template that is filled in -/

def noneRow (item : BatchItem) : JsonTree :=
  .obj [(points "sense_id", textTree item.senseId), (points "verdict", textTree "none"),
    (points "target_synset", .null)]

theorem fillTemplate_template (batch : BatchRecord) (model : String) :
    fillTemplate model batch.template =
      .obj [(points "model", textTree model), (points "prompt_hash", textTree batch.promptHash),
        (points "verdicts", .arr (batch.items.map noneRow))] := by
  have hrow : ∀ item : BatchItem, fillRow item.templateRow = noneRow item := by
    intro item
    simp [BatchItem.templateRow, fillRow, noneRow]
  simp [BatchRecord.template, fillTemplate, textTree, Function.comp_def, hrow]

theorem fits_textTree (depth : Nat) (s : String) : fits limits depth (textTree s) = true := by
  cases depth <;> exact isText_points s

theorem fits_filled (hlevels : 3 ≤ limits.depth) (batch : BatchRecord) (model : String) :
    fits limits limits.depth (fillTemplate model batch.template) = true := by
  obtain ⟨depth, hdepth⟩ : ∃ depth, limits.depth = depth + 3 := ⟨limits.depth - 3, by omega⟩
  have hrow : ∀ item : BatchItem, fits limits (depth + 1) (noneRow item) = true := by
    intro item
    rw [noneRow, fits, Bool.and_eq_true]
    refine ⟨rfl, fitsEntries_iff.mpr ?_⟩
    simp only [List.forall_mem_cons, List.not_mem_nil, false_imp_iff, implies_true, and_true,
      isText_points, fits_textTree, true_and]
    cases depth <;> rfl
  have hrows : fits limits (depth + 2) (.arr (batch.items.map noneRow)) = true := by
    rw [fits, fitsItems_iff]
    exact List.forall_mem_map.mpr fun item _ => hrow item
  rw [fillTemplate_template, hdepth, fits, Bool.and_eq_true]
  refine ⟨rfl, fitsEntries_iff.mpr ?_⟩
  simp only [List.forall_mem_cons, List.not_mem_nil, false_imp_iff, implies_true, and_true,
    isText_points, fits_textTree, hrows]

theorem foldl_indexItem {items : List JsonTree} {byId : List (String × JsonTree)}
    (hitems : ∀ item ∈ items, isObject item = true ∧ senseIdOf py item ≠ "")
    (hnodup : (byId.map (·.1) ++ items.map (senseIdOf py)).Nodup) :
    items.foldl (indexItem py) byId = byId ++ items.map fun item => (senseIdOf py item, item) := by
  induction items generalizing byId with
  | nil => exact (List.append_nil _).symm
  | cons item items ih =>
    obtain ⟨⟨hobject, hid⟩, hitems⟩ := List.forall_mem_cons.mp hitems
    have hnew : senseIdOf py item ∉ byId.map (·.1) := fun hmem =>
      (List.nodup_append.mp hnodup).2.2 _ hmem _ List.mem_cons_self rfl
    have hindex : indexItem py byId item = byId ++ [(senseIdOf py item, item)] :=
      if_pos ⟨hobject, hid, hnew⟩
    rw [List.foldl_cons, hindex, ih hitems, List.append_assoc]
    · rfl
    · rw [List.map_append, List.append_assoc]
      exact hnodup

theorem batchIds_view {batch : BatchRecord}
    (hids : ∀ item ∈ batch.items, item.senseId ≠ "" ∧ py.strip item.senseId = item.senseId)
    (hnodup : (batch.items.map (·.senseId)).Nodup) :
    batchIds py batch.view = batch.items.map (·.senseId) := by
  have hsense : ∀ item ∈ batch.items, senseIdOf py item.tree = item.senseId := fun item hitem =>
    (stripText_textTree item.senseId).trans (hids item hitem).2
  have hmap : (batch.items.map BatchItem.tree).map (senseIdOf py) = batch.items.map (·.senseId) := by
    rw [List.map_map]
    exact List.map_congr_left hsense
  have hindex : (batch.items.map BatchItem.tree).foldl (indexItem py) [] =
      [] ++ (batch.items.map BatchItem.tree).map fun item => (senseIdOf py item, item) :=
    foldl_indexItem (List.forall_mem_map.mpr fun item hitem =>
        ⟨rfl, (hsense item hitem).symm ▸ (hids item hitem).1⟩)
      (by rw [List.map_nil, List.nil_append, hmap]; exact hnodup)
  have hitems : itemsById py batch.view = (batch.items.map BatchItem.tree).foldl (indexItem py) [] :=
    rfl
  rw [batchIds, hitems, hindex, List.nil_append, List.map_map, ← hmap]
  rfl

/-- **A batch has different ids, and its template can be answered, exactly when the
unjudged rows that are taken have different ids.** -/
theorem batch_answerable_iff (hletters : ∀ c : Char, c.isAlphanum = true → py.isSpace c = false)
    (hlower : lower "none" = "none") (hlevels : 3 ≤ limits.depth) {input : BuildInput}
    {batch : BatchRecord} (h : buildBatch py display limits input = .ok batch) :
    ((batch.items.map (·.senseId)).Nodup ∧ ∀ model, py.strip model ≠ "" →
        ∃ staged, validateAnswerSheet py display lower limits batch.view
          (dump .indented 0 (fillTemplate model batch.template)) = .ok staged) ↔
      ((takenRows py display limits input).map (·.senseId)).Nodup := by
  obtain ⟨hhash, hitems, hrows⟩ := buildBatch_ok h
  have hmap : batch.items.map (·.senseId) = (takenRows py display limits input).map (·.senseId) := by
    rw [hitems, List.map_map]
    rfl
  have hids : ∀ item ∈ batch.items, item.senseId ≠ "" ∧ py.strip item.senseId = item.senseId := by
    rw [hitems]
    exact List.forall_mem_map.mpr hrows
  rw [← hmap]
  refine ⟨And.left, fun hnodup => ⟨hnodup, fun model hmodel => accepted_iff.mpr ?_⟩⟩
  have hloads : extractJsonBlock limits (dump .indented 0 (fillTemplate model batch.template)) =
      .ok (fillTemplate model batch.template) := by
    rw [extractJsonBlock, loads_dump (fits_filled hlevels batch model)]
  refine ⟨_, hloads, ?_⟩
  have hprompt : py.strip batch.promptHash = batch.promptHash := by
    rw [hhash]
    exact strip_alphanum hletters input.prompt.hash_hex
  have hfield : batchField py batch.view ["prompt_hash", "hash"] = batch.promptHash := by
    have hne : batch.promptHash ≠ "" := hhash ▸ input.prompt.hash_ne
    have hview : stripText py (batch.view "prompt_hash") = batch.promptHash :=
      (stripText_textTree _).trans hprompt
    rw [batchField, hview, if_neg hne]
  have hsense : ∀ item ∈ batch.items, senseIdOf py (noneRow item) = item.senseId := fun item hitem =>
    (stripText_textTree item.senseId).trans (hids item hitem).2
  have hnone : lower (py.strip "none") = "none" := by
    rw [strip_alphanum hletters (List.all_eq_true.mp (by decide)), hlower]
  rw [fillTemplate_template]
  refine ⟨rfl, ?_, ⟨?_, ?_⟩, .inl rfl, batch.items.map noneRow, rfl, ?_, ?_⟩
  · exact (stripText_textTree model).symm ▸ hmodel
  · exact ((stripText_textTree _).trans hprompt).symm ▸ hhash ▸ input.prompt.hash_ne
  · exact ((stripText_textTree _).trans hprompt).trans hfield.symm
  · rw [List.map_map, batchIds_view hids hnodup]
    exact List.Perm.of_eq (List.map_congr_left hsense)
  · refine List.forall_mem_map.mpr fun item _ => ⟨rfl, .inr ⟨?_, rfl⟩⟩
    have hverdict : verdictText py lower (noneRow item) =
        lower (py.strip (pointsText (points "none"))) := rfl
    rw [hverdict, pointsText_points, hnone]

end Laws

theorem ascii_alphanum (c : Char) (hc : c.isAlphanum = true) : PyText.ascii.isSpace c = false := by
  by_contra hspace
  have hspace : c.isWhitespace = true := eq_true_of_ne_false hspace
  simp only [Char.isWhitespace, Bool.or_eq_true, decide_eq_true_eq] at hspace
  rcases hspace with ((rfl | rfl) | rfl) | rfl
  all_goals cases hc

/-- A sense that was screened this many times. -/
def screenedTimes (n : Nat) : BuildInput where
  screened := joinLines (List.replicate n
    "\x7b\"lemma\":\"cat\",\"sense\":\x7b\"sense_id\":\"s1\"\x7d\x7d".toList)
  screenedPath := "screened.jsonl"
  size := .null
  table := []
  labels := []
  metas := []
  prompt := ⟨"", "ab12", by decide, List.all_eq_true.mp (by decide)⟩
  newId := "b1"
  now := ""

/-- The batch of a sense that was screened once. -/
theorem screenedOnce_answerable_iff : ∃ batch,
    buildBatch .ascii (fun _ => "") ⟨100, 4300⟩ (screenedTimes 1) = .ok batch ∧
      (((batch.items.map (·.senseId)).Nodup ∧ ∀ model, PyText.ascii.strip model ≠ "" →
          ∃ staged, validateAnswerSheet .ascii (fun _ => "") id ⟨100, 4300⟩ batch.view
            (dump .indented 0 (fillTemplate model batch.template)) = .ok staged) ↔
        ((takenRows .ascii (fun _ => "") ⟨100, 4300⟩ (screenedTimes 1)).map (·.senseId)).Nodup) :=
  ⟨_, rfl, batch_answerable_iff ascii_alphanum rfl (by decide +kernel) rfl⟩

/-- The batch of a sense that was screened twice has its id twice, and its template is
rejected. -/
theorem screenedTwice_unanswerable : ∃ batch,
    buildBatch .ascii (fun _ => "") ⟨100, 4300⟩ (screenedTimes 2) = .ok batch ∧
      batch.items.map (·.senseId) = ["s1", "s1"] ∧
      validateAnswerSheet .ascii (fun _ => "") id ⟨100, 4300⟩ batch.view
          (dump .indented 0 (fillTemplate "m" batch.template)) =
        reject "شناسه تکراری «s1» در پاسخ‌نامه." ["s1"] :=
  ⟨_, rfl, by decide +kernel, by decide +kernel⟩

end HamZaboon
