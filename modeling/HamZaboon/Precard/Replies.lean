import HamZaboon.Library.JsonText
import HamZaboon.Precard.Judge

/-! # Replies of the judge

What the two judges make of a reply of the model: `arbiter_batch`, which looks
for an object in the text, and `judge_batch_async`, which takes the whole text as
JSON.  Behind that both validate the picks, stamp the model and apply the veto.

So a reply with anything around its object counts for the synchronous judge only
(`repliesAgree_iff`).
-/

namespace HamZaboon
open Library

abbrev Entries := List (List Nat × JsonTree)

/-- `d.get(key)`; null is `None` like a missing key. -/
def getEntry (entries : Entries) (key : String) : JsonTree :=
  (entries.lookup (points key)).getD .null

/-- `extract_json`: the first object that begins anywhere in the text. -/
def extractJson (limits : ScanLimits) : List Char → Except ScanError Entries
  | [] => .error .invalid
  | c :: s =>
    if c = '{' then
      match rawDecode limits (c :: s) with
      | .ok (.obj entries, _) => .ok entries
      | .ok _ | .error .invalid => extractJson limits s
      | .error .tooDeep => .error .tooDeep
    else extractJson limits s

/-! ## Validation -/

def levelN : List (String × Nat) := [("beginner", 2), ("intermediate", 3), ("advanced", 4)]

/-- The id that a decoded value is. -/
def asId (ids : List String) : JsonTree → Option String
  | .str sid => ids.find? fun id => points id = sid
  | _ => none

def validatePicks (picks : Entries) (inputIds : List String) : Bool :=
  levelN.all fun (lvl, n) =>
    match getEntry picks lvl with
    | .arr lst =>
      lst.length = min n inputIds.length && lst.all (fun i => (asId inputIds i).isSome) &&
        (lst.filterMap (asId inputIds)).Nodup
    | _ => false

def firstLevel (picks : Entries) : List JsonTree :=
  (levelN.findSome? fun (lvl, _) =>
    match getEntry picks lvl with
    | .arr (first :: rest) => some (first :: rest)
    | _ => none).getD []

structure ValidPicks where
  senseId : String
  gloss : String
  picks : List SensePick
  deriving DecidableEq, Repr

section Validation
variable (normalizeIdPart : String → String)

/-- `gloss_of[sid]`: of two candidates with one id the later gloss. -/
def glossOf (cands : List SensePick) (sid : String) : String :=
  ((cands.reverse.find? (·.senseId = sid)).map (·.gloss)).getD ""

/-- The loop over the picks of a row: each id and each gloss once. -/
def takePick (cands : List SensePick) (picks : List SensePick) (sid : JsonTree) : List SensePick :=
  match asId (cands.map (·.senseId)) sid with
  | none => picks
  | some id =>
    let gloss := glossOf cands id
    if picks.any (·.senseId = id) then picks
    else if picks.length < maxFanout then
      if picks.any fun p => normalizeIdPart p.gloss = normalizeIdPart gloss then picks
      else picks ++ [⟨id, gloss⟩]
    else picks

/-- `raw_picks` of a row, where it is a list in the end. -/
def rawPicks (cands : List SensePick) (row : Entries) : Option (List JsonTree) :=
  match getEntry row "picks", getEntry row "pick" with
  | .null, .null => none
  | .null, pick => some [pick]
  | .arr items, _ => some items
  | .obj levels, _ =>
    if validatePicks levels (cands.map (·.senseId)) then
      match firstLevel levels with
      | [] => none
      | first :: _ => some [first]
    else none
  | _, _ => none

def isNonemptyText : JsonTree → Bool
  | .str sid => sid ≠ []
  | _ => false

/-- The entry of a row, unless it is left out. -/
def validRow (cands : List SensePick) (row : Entries) : Option ValidPicks :=
  match rawPicks cands row with
  | none => none
  | some raw =>
    match raw.foldl (takePick normalizeIdPart cands) [] with
    | first :: rest => some ⟨first.senseId, first.gloss, first :: rest⟩
    | [] => if cands = [] ∧ ¬ raw.any isNonemptyText then some ⟨"", "", []⟩ else none

/-- A row under its key, the last one of a key counts; a key that cannot be hashed
raises.  Keys that are no texts are never looked up. -/
def indexRow (byKey : List (List Nat × Entries)) (row : JsonTree) :
    Except Unit (List (List Nat × Entries)) :=
  match row with
  | .obj entries =>
    match entries.lookup (points "key") with
    | none => .ok byKey
    | some (.str key) => .ok (setEntry byKey key entries)
    | some (.arr _) | some (.obj _) => .error ()
    | some _ => .ok byKey
  | _ => .ok byKey

variable (anchor : String → List SensePick)

/-- The entries of the items that have a valid row. -/
def validItems (byKey : List (List Nat × Entries)) (batch : List SampleItem) :
    List (String × ValidPicks) :=
  batch.foldl (fun out item =>
    let key := sourceItemKey item
    match (byKey.lookup (points key)).bind (validRow normalizeIdPart (anchor key)) with
    | some entry => setEntry out key entry
    | none => out) []

/-- `arbiter_validate_multi`, on a decoded value or `None`. -/
def arbiterValidateMulti (data : JsonTree) (batch : List SampleItem) :
    Except Unit (Option (List (String × ValidPicks))) :=
  match data with
  | .obj entries =>
    match getEntry entries "results" with
    | .arr rows => do
      let byKey ← rows.foldlM indexRow []
      let out := validItems normalizeIdPart anchor byKey batch
      return if ∀ item ∈ batch, sourceItemKey item ∈ out.map (·.1) then some out else none
    | _ => return none
  | _ => return none

/-! ## The two judges -/

variable (isStub : String → Bool) (model : String)

/-- The mapping with the model's stamp, vetoed item by item. -/
def stampAndVeto (batch : List SampleItem) (valid : List (String × ValidPicks)) :
    List (String × JudgeEntry) :=
  batch.foldl (fun out item => out.map fun entry =>
      if entry.1 = sourceItemKey item then
        (entry.1, applyInflectionVeto isStub (anchor entry.1) entry.2)
      else entry)
    (valid.map fun entry => (entry.1, ⟨entry.2.senseId, entry.2.gloss, entry.2.picks, model⟩))

/-- What the first attempt of `arbiter_batch` makes of a reply, unless it is
rejected; whatever is raised on the way rejects it. -/
def arbiterReply (limits : ScanLimits) (batch : List SampleItem) (text : List Char) :
    Option (List (String × JudgeEntry)) :=
  match extractJson limits text with
  | .error _ => none
  | .ok data =>
    match arbiterValidateMulti normalizeIdPart anchor (.obj data) batch with
    | .ok (some valid) => some (stampAndVeto anchor isStub model batch valid)
    | .ok none | .error _ => none

/-- What `judge_batch_async` makes of a reply: a text that is no JSON is `None` for
the validator, and a `RecursionError` is raised. -/
def judgeReplyAsync (limits : ScanLimits) (batch : List SampleItem) (text : List Char) :
    Except ScanError (List (String × JudgeEntry)) :=
  if batch = [] then .ok []
  else
    match jsonLoads limits text with
    | .error .tooDeep => .error .tooDeep
    | loaded =>
      match arbiterValidateMulti normalizeIdPart anchor (loaded.toOption.getD .null) batch with
      | .ok (some valid) => .ok (stampAndVeto anchor isStub model batch valid)
      | .ok none | .error _ => .ok []

/-- Both judges accept the reply with the same mapping, or it is rejected and the
asynchronous mapping is empty. -/
def RepliesAgree (limits : ScanLimits) (batch : List SampleItem) (text : List Char) : Prop :=
  judgeReplyAsync normalizeIdPart anchor isStub model limits batch text =
    .ok ((arbiterReply normalizeIdPart anchor isStub model limits batch text).getD [])

/-! ## When they agree -/

/-- An object of the text that the scanner finds first is a valid reply. -/
def HoldsValidReply (limits : ScanLimits) (batch : List SampleItem) (text : List Char) : Prop :=
  ∃ data valid, extractJson limits text = .ok data ∧
    arbiterValidateMulti normalizeIdPart anchor (.obj data) batch = .ok (some valid)

def IsWholeObject (limits : ScanLimits) (text : List Char) : Prop :=
  ∃ data, jsonLoads limits text = .ok (.obj data)

theorem extractJson_of_rawDecode {limits : ScanLimits} {text rest : List Char} {data : Entries}
    (h : rawDecode limits (skipSpace text) = .ok (.obj data, rest)) :
    extractJson limits text = .ok data := by
  induction text with
  | nil => cases head_of_rawDecode h
  | cons c s ih =>
    rw [extractJson]
    cases hc : isJsonSpace c with
    | true =>
      rw [if_neg (by rintro rfl; cases hc)]
      rw [skipSpace, List.dropWhile_cons_of_pos hc] at h
      exact ih h
    | false =>
      rw [skipSpace, List.dropWhile_cons_of_neg (by rw [hc]; exact Bool.false_ne_true)] at h
      rw [if_pos (Option.some.inj (head_of_rawDecode h)), h]

theorem extractJson_of_loads {limits : ScanLimits} {text : List Char} {data : Entries}
    (h : jsonLoads limits text = .ok (.obj data)) : extractJson limits text = .ok data := by
  obtain ⟨rest, hraw⟩ := rawDecode_of_loads h
  exact extractJson_of_rawDecode hraw

theorem arbiterValidateMulti_of_not_obj {data : JsonTree} {batch : List SampleItem}
    (h : ∀ entries, data ≠ .obj entries) :
    arbiterValidateMulti normalizeIdPart anchor data batch = .ok none := by
  cases data with
  | obj entries => exact absurd rfl (h entries)
  | _ => rfl

theorem arbiterReply_of_valid {limits : ScanLimits} {batch : List SampleItem} {text : List Char}
    {data : Entries} {valid : List (String × ValidPicks)} (hdata : extractJson limits text = .ok data)
    (hvalid : arbiterValidateMulti normalizeIdPart anchor (.obj data) batch = .ok (some valid)) :
    arbiterReply normalizeIdPart anchor isStub model limits batch text =
      some (stampAndVeto anchor isStub model batch valid) := by
  rw [arbiterReply, hdata]
  simp only [hvalid]

theorem arbiterReply_of_rejected {limits : ScanLimits} {batch : List SampleItem} {text : List Char}
    (h : ¬ HoldsValidReply normalizeIdPart anchor limits batch text) :
    arbiterReply normalizeIdPart anchor isStub model limits batch text = none := by
  unfold arbiterReply
  split
  · rfl
  · rename_i data hdata
    split
    · rename_i valid hvalid
      exact absurd ⟨data, valid, hdata, hvalid⟩ h
    · rfl
    · rfl

theorem valid_ne_nil {data : JsonTree} {batch : List SampleItem}
    {valid : List (String × ValidPicks)} (hbatch : batch ≠ [])
    (h : arbiterValidateMulti normalizeIdPart anchor data batch = .ok (some valid)) : valid ≠ [] := by
  unfold arbiterValidateMulti at h
  split at h
  · split at h
    · obtain ⟨byKey, -, h⟩ := bind_eq_ok.mp h
      obtain ⟨item, hitem⟩ := List.exists_mem_of_ne_nil _ hbatch
      have hsome := Except.ok.inj h
      split at hsome
      · rename_i hall
        have hkey := hall item hitem
        rw [Option.some.inj hsome] at hkey
        rintro rfl
        cases hkey
      · cases hsome
    · cases h
  · cases h

theorem valid_of_nil {data : JsonTree} {valid : List (String × ValidPicks)}
    (h : arbiterValidateMulti normalizeIdPart anchor data [] = .ok (some valid)) : valid = [] := by
  unfold arbiterValidateMulti at h
  split at h
  · split at h
    · obtain ⟨byKey, -, h⟩ := bind_eq_ok.mp h
      exact (Option.some.inj (Except.ok.inj h)).symm
    · cases h
  · cases h

theorem length_foldl_map {α β : Type} (f : β → α → α) (batch : List β) (out : List α) :
    (batch.foldl (fun out item => out.map (f item)) out).length = out.length := by
  induction batch generalizing out with
  | nil => rfl
  | cons item batch ih => rw [List.foldl_cons, ih, List.length_map]

theorem length_stampAndVeto (batch : List SampleItem) (valid : List (String × ValidPicks)) :
    (stampAndVeto anchor isStub model batch valid).length = valid.length := by
  rw [stampAndVeto, length_foldl_map (fun item entry => if entry.1 = sourceItemKey item then
    (entry.1, applyInflectionVeto isStub (anchor entry.1) entry.2) else entry), List.length_map]

theorem judgeReplyAsync_of_object {limits : ScanLimits} {batch : List SampleItem}
    {text : List Char} (hbatch : batch ≠ []) (h : IsWholeObject limits text) :
    RepliesAgree normalizeIdPart anchor isStub model limits batch text := by
  obtain ⟨data, hload⟩ := h
  rw [RepliesAgree, judgeReplyAsync, if_neg hbatch, arbiterReply, extractJson_of_loads hload, hload]
  simp only [Except.toOption, Option.getD_some]
  split
  · rfl
  · rfl
  · rfl

theorem judgeReplyAsync_of_other {limits : ScanLimits} {batch : List SampleItem}
    {text : List Char} (hbatch : batch ≠ []) (hdeep : jsonLoads limits text ≠ .error .tooDeep)
    (h : ¬ IsWholeObject limits text) :
    judgeReplyAsync normalizeIdPart anchor isStub model limits batch text = .ok [] := by
  have hnone : ∀ data : JsonTree, (∀ entries, data ≠ .obj entries) →
      (match arbiterValidateMulti normalizeIdPart anchor data batch with
        | .ok (some valid) => .ok (stampAndVeto anchor isStub model batch valid)
        | .ok none | .error _ => .ok []) = (.ok [] : Except ScanError _) := by
    intro data hdata
    rw [arbiterValidateMulti_of_not_obj normalizeIdPart anchor hdata]
  rw [judgeReplyAsync, if_neg hbatch]
  cases hload : jsonLoads limits text with
  | error e =>
    cases e with
    | tooDeep => exact absurd hload hdeep
    | invalid => exact hnone .null nofun
  | ok value => exact hnone value fun entries heq => h ⟨entries, heq ▸ hload⟩

theorem arbiterReply_nil (limits : ScanLimits) (text : List Char) :
    (arbiterReply normalizeIdPart anchor isStub model limits [] text).getD [] = [] := by
  by_cases h : HoldsValidReply normalizeIdPart anchor limits [] text
  · obtain ⟨data, valid, hdata, hvalid⟩ := h
    rw [arbiterReply_of_valid normalizeIdPart anchor isStub model hdata hvalid]
    rw [valid_of_nil normalizeIdPart anchor hvalid]
    rfl
  · rw [arbiterReply_of_rejected normalizeIdPart anchor isStub model h]
    rfl

/-- **The two judges agree on a reply exactly when the batch is empty, or the
interpreter can scan the text, and the text is one object as a whole or holds no
valid reply.** -/
theorem repliesAgree_iff (limits : ScanLimits) (batch : List SampleItem) (text : List Char) :
    RepliesAgree normalizeIdPart anchor isStub model limits batch text ↔
      batch = [] ∨ (jsonLoads limits text ≠ .error .tooDeep ∧
        (IsWholeObject limits text ∨ ¬ HoldsValidReply normalizeIdPart anchor limits batch text)) := by
  by_cases hbatch : batch = []
  · subst hbatch
    refine iff_of_true ?_ (.inl rfl)
    rw [RepliesAgree, arbiterReply_nil]
    rfl
  rw [or_iff_right hbatch]
  by_cases hdeep : jsonLoads limits text = .error .tooDeep
  · refine iff_of_false (fun h => ?_) fun h => h.1 hdeep
    rw [RepliesAgree, judgeReplyAsync, if_neg hbatch, hdeep] at h
    cases h
  rw [and_iff_right hdeep]
  by_cases hwhole : IsWholeObject limits text
  · exact iff_of_true
      (judgeReplyAsync_of_object normalizeIdPart anchor isStub model hbatch hwhole) (.inl hwhole)
  rw [or_iff_right hwhole, RepliesAgree,
    judgeReplyAsync_of_other normalizeIdPart anchor isStub model hbatch hdeep hwhole]
  by_cases hholds : HoldsValidReply normalizeIdPart anchor limits batch text
  · -- the synchronous mapping has every item of the batch
    obtain ⟨data, valid, hdata, hvalid⟩ := id hholds
    refine iff_of_false (fun h => ?_) fun h => h hholds
    rw [arbiterReply_of_valid normalizeIdPart anchor isStub model hdata hvalid, Option.getD_some] at h
    have hlength := length_stampAndVeto anchor isStub model batch valid
    rw [← Except.ok.inj h] at hlength
    exact valid_ne_nil normalizeIdPart anchor hbatch hvalid
      (List.length_eq_zero_iff.mp hlength.symm)
  · rw [arbiterReply_of_rejected normalizeIdPart anchor isStub model hholds]
    exact iff_of_true rfl hholds

end Validation

/-- A reply with a word before its object: the item has no candidates, and the
empty pick is the one to make. -/
def prefixedReply : List Char :=
  "ok \x7b\"results\":[\x7b\"key\":\"w:a\",\"pick\":\"\"\x7d]\x7d".toList

/-- The synchronous judge accepts the reply, the asynchronous one does not. -/
theorem prefixed_reply_lost :
    arbiterReply id (fun _ => []) (fun _ => false) "m" ⟨100, 4300⟩ [⟨"word", "a"⟩] prefixedReply =
        some [("w:a", ⟨"", "", [], "m"⟩)] ∧
      ¬ RepliesAgree id (fun _ => []) (fun _ => false) "m" ⟨100, 4300⟩ [⟨"word", "a"⟩]
        prefixedReply := by
  have hsync : arbiterReply id (fun _ => []) (fun _ => false) "m" ⟨100, 4300⟩ [⟨"word", "a"⟩]
      prefixedReply = some [("w:a", ⟨"", "", [], "m"⟩)] := rfl
  have hasync : judgeReplyAsync id (fun _ => []) (fun _ => false) "m" ⟨100, 4300⟩ [⟨"word", "a"⟩]
      prefixedReply = .ok [] := rfl
  refine ⟨hsync, fun h => ?_⟩
  rw [RepliesAgree, hsync, hasync] at h
  cases h

end HamZaboon
