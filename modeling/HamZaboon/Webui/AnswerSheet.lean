import HamZaboon.Library.Results
import HamZaboon.Texts.Decoded

/-! # Answer sheets

`validate_answer_sheet`: the reply of a model to a batch is taken as a whole or not at
all.  The sheet names the model and the prompt, and gives each sense of the batch one
verdict.

A sheet passes exactly when it follows the rules of the checker (`sheet_accepted_iff`).
The prompt asks for more: there a link names a candidate of its sense.
-/

namespace HamZaboon
open Library

/-- What `validate_answer_sheet` raises. -/
inductive SheetError
  | rejected (message : String) (failingIds : List String)
  /-- A text that nests too deep. -/
  | tooDeep
  deriving DecidableEq, Repr

def reject {α : Type} (message : String) (failingIds : List String) : Except SheetError α :=
  .error (.rejected ("کل بسته رد شد: " ++ message) failingIds)

def demand (c : Prop) [Decidable c] (message : String) (failingIds : List String) :
    Except SheetError Unit :=
  if c then .ok () else reject message failingIds

/-- A batch as its fields: the keys of a dict or the attributes of a record. -/
abbrev BatchView := String → JsonTree

structure StagedVerdict where
  senseId : String
  verdict : String
  target : Option String
  deriving DecidableEq, Repr

/-! ## The text -/

/-- The characters up to the brace that closes the first one; `inText` inside a string,
`escaped` behind its backslash. -/
def blockUpTo : Nat → Bool → Bool → List Char → Option (List Char)
  | _, _, _, [] => none
  | depth, true, escaped, c :: s =>
    (blockUpTo depth (escaped || c ≠ '"') (!escaped && c = '\\') s).map (c :: ·)
  | depth, false, _, c :: s =>
    if c = '"' then (blockUpTo depth true false s).map (c :: ·)
    else if c = '{' then (blockUpTo (depth + 1) false false s).map (c :: ·)
    else if c = '}' then
      if depth = 1 then some ['}'] else (blockUpTo (depth - 1) false false s).map (c :: ·)
    else (blockUpTo depth false false s).map (c :: ·)

def extractJsonBlock (limits : ScanLimits) (text : List Char) : Except SheetError JsonTree :=
  match jsonLoads limits text with
  | .ok payload => .ok payload
  | .error .tooDeep => .error .tooDeep
  | .error .invalid =>
    match blockUpTo 0 false false (text.dropWhile (· ≠ '{')) with
    | none => reject "بلوک JSON در پاسخ‌نامه پیدا نشد." []
    | some block =>
      match jsonLoads limits block with
      | .ok payload => .ok payload
      | .error .tooDeep => .error .tooDeep
      | .error .invalid => reject "بلوک JSON پاسخ‌نامه خراب است." []

section Sheet
variable (py : PyText) (display : JsonTree → String) (lower : String → String)

/-! ## Fields -/

/-- A text without the spaces around it; what is no text counts as a blank one. -/
def stripText : JsonTree → String
  | .str text => py.strip (pointsText text)
  | _ => ""

/-- `_batch_field`: the first of the fields with a text. -/
def batchField (batch : BatchView) : List String → String
  | [] => ""
  | name :: names =>
    if stripText py (batch name) = "" then batchField batch names else stripText py (batch name)

/-- The items under their ids, the first one of each id. -/
def indexItem (byId : List (String × JsonTree)) (item : JsonTree) : List (String × JsonTree) :=
  let senseId := stripText py (treeGet item "sense_id")
  if isObject item = true ∧ senseId ≠ "" ∧ senseId ∉ byId.map (·.1) then byId ++ [(senseId, item)]
  else byId

/-- `by_id`, with its keys in `order`. -/
def itemsById (batch : BatchView) : List (String × JsonTree) :=
  match batch "items" with
  | .arr items => items.foldl (indexItem py) []
  | _ => []

def senseIdOf (entry : JsonTree) : String := stripText py (treeGet entry "sense_id")

def verdictText (entry : JsonTree) : String :=
  match treeGet entry "verdict" with
  | .str text => lower (py.strip (pointsText text))
  | _ => ""

/-- The target of an entry, null for a blank one, unless it is neither null nor a text. -/
def targetOf (entry : JsonTree) : Option (Option String) :=
  match treeGet entry "target_synset" with
  | .null => some none
  | .str text =>
    some (if py.strip (pointsText text) = "" then none else some (py.strip (pointsText text)))
  | _ => none

/-! ## The checks -/

/-- One entry of the verdicts, where some ids have their verdict. -/
def checkVerdict (byId : List (String × JsonTree)) (seen : List String) (entry : JsonTree) :
    Except SheetError StagedVerdict := do
  demand (isObject entry = true) "هر verdict باید یک آبجکت JSON باشد." []
  let senseId := senseIdOf py entry
  demand (senseId ≠ "") "یک verdict بدون sense_id است." []
  demand (senseId ∈ byId.map (·.1))
    ("شناسه ناشناس «" ++ senseId ++ "» در پاسخ‌نامه (جزو این بچ نیست).") [senseId]
  demand (senseId ∉ seen) ("شناسه تکراری «" ++ senseId ++ "» در پاسخ‌نامه.") [senseId]
  let verdict := verdictText py lower entry
  demand (verdict ∈ ["link", "none"])
    ("verdict نامعتبر «" ++ treeStr display (treeGet entry "verdict") ++ "» برای " ++ senseId ++
      " (فقط link یا none).") [senseId]
  match targetOf py entry with
  | none => reject ("target_synset برای " ++ senseId ++ " باید شناسه یا null باشد.") [senseId]
  | some target =>
    demand (¬ (verdict = "link" ∧ target = none))
      ("verdict=link برای " ++ senseId ++ " بدون target_synset است.") [senseId]
    demand (¬ (verdict = "none" ∧ target ≠ none))
      ("verdict=none برای " ++ senseId ++ " باید target_synset=null داشته باشد.") [senseId]
    return ⟨senseId, verdict, target⟩

def checkVerdicts (byId : List (String × JsonTree)) (staged : List StagedVerdict)
    (entries : List JsonTree) : Except SheetError (List StagedVerdict) :=
  entries.foldlM (fun staged entry => do
    let verdict ← checkVerdict py display lower byId (staged.map (·.senseId)) entry
    return staged ++ [verdict]) staged

/-- The rest of `validate_answer_sheet`, from the payload on. -/
def validatePayload (batch : BatchView) (payload : JsonTree) :
    Except SheetError (List StagedVerdict) := do
  demand (isObject payload = true) "پاسخ‌نامه باید یک آبجکت JSON باشد." []
  demand (stripText py (treeGet payload "model") ≠ "")
    "فیلد model خالی است (نام مدل هوش مصنوعی الزامی است)." []
  let gotHash := stripText py (treeGet payload "prompt_hash")
  demand (gotHash ≠ "" ∧ gotHash = batchField py batch ["prompt_hash", "hash"])
    "prompt_hash پاسخ‌نامه با این بچ نمی‌خواند (نسخه پرامپت اشتباه است)." []
  let wantVersion := batchField py batch ["prompt_version", "version"]
  let gotVersion := stripText py (treeGet payload "prompt_version")
  demand (gotVersion = "" ∨ wantVersion = "" ∨ gotVersion = wantVersion)
    ("prompt_version پاسخ‌نامه (" ++ gotVersion ++ ") با این بچ (" ++ wantVersion ++
      ") نمی‌خواند.") []
  match treeGet payload "verdicts" with
  | .arr entries =>
    let byId := itemsById py batch
    let staged ← checkVerdicts py display lower byId [] entries
    let missing := (byId.map (·.1)).filter (· ∉ staged.map (·.senseId))
    demand (missing = [])
      ("verdict برای " ++ ", ".intercalate missing ++ " جا افتاده (پوشش باید دقیق و کامل باشد).")
      missing
    return byId.filterMap fun e => staged.find? (·.senseId = e.1)
  | _ => reject "فیلد verdicts باید لیست باشد." []

def validateAnswerSheet (limits : ScanLimits) (batch : BatchView) (text : List Char) :
    Except SheetError (List StagedVerdict) := do
  let payload ← extractJsonBlock limits text
  validatePayload py display lower batch payload

/-! ## The rules -/

def candidateIds (item : JsonTree) : List String :=
  match treeGet item "candidates" with
  | .arr candidates => candidates.map fun candidate => stripText py (treeGet candidate "synset_id")
  | _ => []

def batchIds (batch : BatchView) : List String := (itemsById py batch).map (·.1)

/-- An entry links its item to a target that may be named for it, or has no target. -/
def VerdictRule (mayTarget : JsonTree → String → Prop) (batch : BatchView) (entry : JsonTree) :
    Prop :=
  (verdictText py lower entry = "link" ∧ ∃ item target, (senseIdOf py entry, item) ∈
    itemsById py batch ∧ targetOf py entry = some (some target) ∧ mayTarget item target) ∨
  (verdictText py lower entry = "none" ∧ targetOf py entry = some none)

structure SheetRules (mayTarget : JsonTree → String → Prop) (batch : BatchView)
    (payload : JsonTree) : Prop where
  object : isObject payload = true
  model : stripText py (treeGet payload "model") ≠ ""
  hash : stripText py (treeGet payload "prompt_hash") ≠ "" ∧
    stripText py (treeGet payload "prompt_hash") = batchField py batch ["prompt_hash", "hash"]
  version : stripText py (treeGet payload "prompt_version") = "" ∨
    batchField py batch ["prompt_version", "version"] = "" ∨
    stripText py (treeGet payload "prompt_version") =
      batchField py batch ["prompt_version", "version"]
  verdicts : ∃ entries, treeGet payload "verdicts" = .arr entries ∧
    (entries.map (senseIdOf py)).Perm (batchIds py batch) ∧
    ∀ entry ∈ entries, isObject entry = true ∧ VerdictRule py lower mayTarget batch entry

/-- A link has one of its item's candidates as target. -/
def OwnCandidate (item : JsonTree) (target : String) : Prop := target ∈ candidateIds py item

end Sheet

section Laws
variable {py : PyText} {display : JsonTree → String} {lower : String → String}

@[simp] theorem demand_eq_ok {c : Prop} [Decidable c] {message : String} {failingIds : List String}
    {u : Unit} : demand c message failingIds = .ok u ↔ c := by
  unfold demand reject
  split
  · exact iff_of_true rfl ‹_›
  · exact iff_of_false nofun ‹_›

/-! ## The items of a batch -/

theorem nodup_itemsById (batch : BatchView) :
    (batchIds py batch).Nodup ∧ "" ∉ batchIds py batch := by
  have hloop : ∀ (items : List JsonTree) (byId : List (String × JsonTree)),
      (byId.map (·.1)).Nodup ∧ "" ∉ byId.map (·.1) →
      ((items.foldl (indexItem py) byId).map (·.1)).Nodup ∧
        "" ∉ (items.foldl (indexItem py) byId).map (·.1) := by
    intro items
    induction items with
    | nil => exact fun _ h => h
    | cons item items ih =>
      rintro byId ⟨hnodup, hblank⟩
      rw [List.foldl_cons]
      refine ih _ ?_
      simp only [indexItem]
      split
      · rename_i hitem
        rw [List.map_append, List.map_singleton]
        refine ⟨?_, ?_⟩
        · rw [List.nodup_append_comm, List.singleton_append, List.nodup_cons]
          exact ⟨hitem.2.2, hnodup⟩
        · rw [List.mem_append, List.mem_singleton, not_or]
          exact ⟨hblank, fun heq => hitem.2.1 heq.symm⟩
      · exact ⟨hnodup, hblank⟩
  unfold batchIds itemsById
  split
  · exact hloop _ _ ⟨List.nodup_nil, List.not_mem_nil⟩
  · exact ⟨List.nodup_nil, List.not_mem_nil⟩

/-! ## One verdict -/

/-- What an entry says that passes the checks. -/
structure SaysVerdict (py : PyText) (lower : String → String) (byId : List (String × JsonTree))
    (entry : JsonTree) (v : StagedVerdict) : Prop where
  object : isObject entry = true
  senseId : senseIdOf py entry = v.senseId
  named : v.senseId ≠ ""
  known : v.senseId ∈ byId.map (·.1)
  verdict : verdictText py lower entry = v.verdict
  target : targetOf py entry = some v.target
  rule : (v.verdict = "link" ∧ v.target ≠ none) ∨ (v.verdict = "none" ∧ v.target = none)

/-- **An entry passes when it says a verdict, of an id that has none yet.** -/
theorem checkVerdict_eq_ok {byId : List (String × JsonTree)} {seen : List String} {entry : JsonTree}
    {v : StagedVerdict} :
    checkVerdict py display lower byId seen entry = .ok v ↔
      SaysVerdict py lower byId entry v ∧ v.senseId ∉ seen := by
  simp only [checkVerdict, bind_eq_ok, demand_eq_ok, exists_and_left, exists_const]
  constructor
  · rintro ⟨hobject, hnamed, hknown, hnew, henum, h⟩
    split at h
    · cases h
    · rename_i target htarget
      simp only [bind_eq_ok, demand_eq_ok, exists_and_left, exists_const] at h
      obtain ⟨hlink, hnone, h⟩ := h
      obtain rfl := Except.ok.inj h
      refine ⟨⟨hobject, rfl, hnamed, hknown, rfl, htarget, ?_⟩, hnew⟩
      simp only [List.mem_cons, List.not_mem_nil, or_false] at henum
      rcases henum with hverdict | hverdict
      · exact .inl ⟨hverdict, fun heq => hlink ⟨hverdict, heq⟩⟩
      · refine .inr ⟨hverdict, ?_⟩
        by_contra hne
        exact hnone ⟨hverdict, hne⟩
  · rintro ⟨⟨hobject, hsense, hnamed, hknown, hverdict, htarget, hrule⟩, hnew⟩
    obtain ⟨senseId, verdict, target⟩ := v
    simp only at hsense hnamed hknown hverdict htarget hrule hnew
    subst hsense hverdict
    refine ⟨hobject, hnamed, hknown, hnew, ?_, ?_⟩
    · rcases hrule with ⟨hverdict, -⟩ | ⟨hverdict, -⟩
      · exact hverdict ▸ List.mem_cons_self
      · exact hverdict ▸ List.mem_cons_of_mem _ List.mem_cons_self
    · rw [htarget]
      simp only [bind_eq_ok, demand_eq_ok, exists_and_left, exists_const]
      refine ⟨?_, ?_, rfl⟩
      · rintro ⟨hlink, hnil⟩
        rcases hrule with ⟨-, hne⟩ | ⟨hnone, -⟩
        · exact hne hnil
        · exact absurd (hlink.symm.trans hnone) (by decide)
      · rintro ⟨hnone, hne⟩
        rcases hrule with ⟨hlink, -⟩ | ⟨-, hnil⟩
        · exact absurd (hlink.symm.trans hnone) (by decide)
        · exact hne hnil

theorem checkVerdicts_eq_ok {byId : List (String × JsonTree)} {entries : List JsonTree}
    {staged out : List StagedVerdict} :
    checkVerdicts py display lower byId staged entries = .ok out ↔
      ∃ added, out = staged ++ added ∧ List.Forall₂ (SaysVerdict py lower byId) entries added ∧
        (added.map (·.senseId)).Nodup ∧
        ∀ v ∈ added, v.senseId ∉ staged.map (·.senseId) := by
  induction entries generalizing staged with
  | nil =>
    rw [checkVerdicts, List.foldlM_nil]
    constructor
    · intro h
      obtain rfl := Except.ok.inj h
      exact ⟨[], (List.append_nil _).symm, .nil, List.nodup_nil, nofun⟩
    · rintro ⟨added, rfl, h, -, -⟩
      cases h
      rw [List.append_nil]
      rfl
  | cons entry entries ih =>
    have hstep : checkVerdicts py display lower byId staged (entry :: entries) = .ok out ↔
        ∃ v, (SaysVerdict py lower byId entry v ∧ v.senseId ∉ staged.map (·.senseId)) ∧
          checkVerdicts py display lower byId (staged ++ [v]) entries = .ok out := by
      rw [checkVerdicts, List.foldlM_cons, bind_eq_ok]
      constructor
      · rintro ⟨staged', hstaged, hrest⟩
        obtain ⟨v, hv, heq⟩ := bind_eq_ok.mp hstaged
        obtain rfl := Except.ok.inj heq
        exact ⟨v, checkVerdict_eq_ok.mp hv, hrest⟩
      · rintro ⟨v, hv, hrest⟩
        exact ⟨staged ++ [v], bind_eq_ok.mpr ⟨v, checkVerdict_eq_ok.mpr hv, rfl⟩, hrest⟩
    rw [hstep]
    constructor
    · rintro ⟨v, ⟨hsaid, hnew⟩, hrest⟩
      obtain ⟨added, rfl, hadded, hnodup, hdisjoint⟩ := ih.mp hrest
      refine ⟨v :: added, by simp, .cons hsaid hadded, ?_, ?_⟩
      · rw [List.map_cons, List.nodup_cons]
        refine ⟨fun hmem => ?_, hnodup⟩
        obtain ⟨w, hw, heq⟩ := List.mem_map.mp hmem
        exact hdisjoint w hw (by simp [heq])
      · refine List.forall_mem_cons.mpr ⟨hnew, fun w hw hmem => hdisjoint w hw ?_⟩
        rw [List.map_append]
        exact List.mem_append_left _ hmem
    · rintro ⟨added, rfl, hadded, hnodup, hdisjoint⟩
      cases hadded with
      | @cons _ v _ added hsaid hadded =>
        rw [List.map_cons, List.nodup_cons] at hnodup
        obtain ⟨hfirst, hdisjoint⟩ := List.forall_mem_cons.mp hdisjoint
        refine ⟨v, ⟨hsaid, hfirst⟩, ih.mpr ⟨added, by simp, hadded, hnodup.2, fun w hw => ?_⟩⟩
        rw [List.map_append, List.mem_append, not_or]
        refine ⟨hdisjoint w hw, fun hmem => hnodup.1 ?_⟩
        have heq : w.senseId = v.senseId := List.mem_singleton.mp hmem
        exact heq ▸ List.mem_map_of_mem hw

/-! ## The sheet -/

theorem senseIds_of_says {byId : List (String × JsonTree)} {entries : List JsonTree}
    {staged : List StagedVerdict} (h : List.Forall₂ (SaysVerdict py lower byId) entries staged) :
    staged.map (·.senseId) = entries.map (senseIdOf py) := by
  induction h with
  | nil => rfl
  | cons hsaid _ ih => rw [List.map_cons, List.map_cons, ih, hsaid.senseId]

theorem validatePayload_eq_ok {batch : BatchView} {payload : JsonTree} {out : List StagedVerdict} :
    validatePayload py display lower batch payload = .ok out ↔
      isObject payload = true ∧ stripText py (treeGet payload "model") ≠ "" ∧
      (stripText py (treeGet payload "prompt_hash") ≠ "" ∧
        stripText py (treeGet payload "prompt_hash") = batchField py batch ["prompt_hash", "hash"]) ∧
      (stripText py (treeGet payload "prompt_version") = "" ∨
        batchField py batch ["prompt_version", "version"] = "" ∨
        stripText py (treeGet payload "prompt_version") =
          batchField py batch ["prompt_version", "version"]) ∧
      ∃ entries staged, treeGet payload "verdicts" = .arr entries ∧
        List.Forall₂ (SaysVerdict py lower (itemsById py batch)) entries staged ∧
        (staged.map (·.senseId)).Nodup ∧
        (∀ id ∈ batchIds py batch, id ∈ staged.map (·.senseId)) ∧
        out = (itemsById py batch).filterMap fun e => staged.find? (·.senseId = e.1) := by
  simp only [validatePayload, bind_eq_ok, demand_eq_ok, exists_and_left, exists_const]
  refine and_congr_right fun _ => and_congr_right fun _ => and_congr_right fun _ =>
    and_congr_right fun _ => ?_
  constructor
  · intro h
    split at h
    · rename_i entries hentries
      simp only [bind_eq_ok, demand_eq_ok, exists_and_left, exists_const] at h
      obtain ⟨staged, hstaged, hmissing, hout⟩ := h
      obtain ⟨added, heq, hsaid, hnodup, -⟩ := checkVerdicts_eq_ok.mp hstaged
      rw [List.nil_append] at heq
      subst heq
      refine ⟨entries, hentries, staged, hsaid, hnodup, fun id hid => ?_, (Except.ok.inj hout).symm⟩
      by_contra hnot
      have hmem : id ∈ ((itemsById py batch).map (·.1)).filter (· ∉ staged.map (·.senseId)) :=
        List.mem_filter.mpr ⟨hid, decide_eq_true hnot⟩
      rw [hmissing] at hmem
      cases hmem
    · cases h
  · rintro ⟨entries, hentries, staged, hsaid, hnodup, hall, rfl⟩
    rw [hentries]
    simp only [bind_eq_ok, demand_eq_ok, exists_and_left, exists_const]
    refine ⟨staged, checkVerdicts_eq_ok.mpr ⟨staged, rfl, hsaid, hnodup, nofun⟩, ?_, rfl⟩
    rw [List.filter_eq_nil_iff]
    intro id hid
    simpa using hall id hid

/-- **A payload passes exactly when it follows the rules.** -/
theorem validatePayload_iff {batch : BatchView} {payload : JsonTree} :
    (∃ staged, validatePayload py display lower batch payload = .ok staged) ↔
      SheetRules py lower (fun _ _ => True) batch payload := by
  have hids : (batchIds py batch).Nodup ∧ "" ∉ batchIds py batch := nodup_itemsById batch
  constructor
  · rintro ⟨out, h⟩
    obtain ⟨hobject, hmodel, hhash, hversion, entries, staged, hentries, hsaid, hnodup, hall, -⟩ :=
      validatePayload_eq_ok.mp h
    refine ⟨hobject, hmodel, hhash, hversion, entries, hentries, ?_, fun entry hentry => ?_⟩
    · rw [← senseIds_of_says hsaid, List.perm_ext_iff_of_nodup hnodup hids.1]
      intro id
      refine ⟨fun hid => ?_, hall id⟩
      obtain ⟨v, hv, rfl⟩ := List.mem_map.mp hid
      obtain ⟨entry, -, hsay⟩ := exists_left_of_forall₂ hsaid hv
      exact hsay.known
    · obtain ⟨v, -, hsay⟩ := exists_right_of_forall₂ hsaid hentry
      refine ⟨hsay.object, ?_⟩
      rcases hsay.rule with ⟨hverdict, htarget⟩ | ⟨hverdict, htarget⟩
      · obtain ⟨⟨id, item⟩, hitem, heq⟩ := List.mem_map.mp hsay.known
        obtain ⟨target, hsome⟩ := Option.ne_none_iff_exists'.mp htarget
        refine .inl ⟨hsay.verdict.trans hverdict, item, target, ?_, hsome ▸ hsay.target, trivial⟩
        rw [hsay.senseId, ← heq]
        exact hitem
      · exact .inr ⟨hsay.verdict.trans hverdict, htarget ▸ hsay.target⟩
  · rintro ⟨hobject, hmodel, hhash, hversion, entries, hentries, hperm, hrules⟩
    let staged := entries.map fun entry =>
      (⟨senseIdOf py entry, verdictText py lower entry, (targetOf py entry).getD none⟩ :
        StagedVerdict)
    have hsaid : List.Forall₂ (SaysVerdict py lower (itemsById py batch)) entries staged := by
      refine List.forall₂_map_right_iff.mpr (List.forall₂_same.mpr fun entry hentry => ?_)
      obtain ⟨hentry', hrule⟩ := hrules entry hentry
      have hknown : senseIdOf py entry ∈ batchIds py batch :=
        hperm.subset (List.mem_map_of_mem hentry)
      have hnamed : senseIdOf py entry ≠ "" := fun heq => hids.2 (heq ▸ hknown)
      rcases hrule with ⟨hverdict, item, target, -, htarget, -⟩ | ⟨hverdict, htarget⟩
      · exact ⟨hentry', rfl, hnamed, hknown, rfl, by rw [htarget]; rfl,
          .inl ⟨hverdict, by simp [htarget]⟩⟩
      · exact ⟨hentry', rfl, hnamed, hknown, rfl, by rw [htarget]; rfl,
          .inr ⟨hverdict, by simp [htarget]⟩⟩
    have hstaged := senseIds_of_says hsaid
    refine ⟨_, validatePayload_eq_ok.mpr ⟨hobject, hmodel, hhash, hversion, entries, staged,
      hentries, hsaid, ?_, fun id hid => ?_, rfl⟩⟩
    · rw [hstaged]
      exact hperm.nodup_iff.mpr hids.1
    · rw [hstaged]
      exact hperm.symm.subset hid

theorem senseIds_validatePayload {batch : BatchView} {payload : JsonTree}
    {out : List StagedVerdict} (h : validatePayload py display lower batch payload = .ok out) :
    out.map (·.senseId) = batchIds py batch := by
  obtain ⟨-, -, -, -, entries, staged, -, -, -, hall, rfl⟩ := validatePayload_eq_ok.mp h
  have hfound : ∀ items : List (String × JsonTree),
      (∀ e ∈ items, e.1 ∈ staged.map (·.senseId)) →
      (items.filterMap fun e => staged.find? (·.senseId = e.1)).map (·.senseId) =
        items.map (·.1) := by
    intro items
    induction items with
    | nil => exact fun _ => rfl
    | cons e items ih =>
      intro hitems
      obtain ⟨hmem, hitems⟩ := List.forall_mem_cons.mp hitems
      obtain ⟨v, hv, heq⟩ := List.mem_map.mp hmem
      cases hfind : staged.find? (·.senseId = e.1) with
      | none =>
        have hne := List.find?_eq_none.mp hfind v hv
        simp [heq] at hne
      | some w =>
        have hw : w.senseId = e.1 := by simpa using List.find?_some hfind
        rw [List.filterMap_cons, hfind, List.map_cons, List.map_cons, ih hitems, hw]
  exact hfound _ fun e he => hall _ (List.mem_map_of_mem he)

theorem accepted_iff {limits : ScanLimits} {batch : BatchView} {text : List Char} :
    (∃ staged, validateAnswerSheet py display lower limits batch text = .ok staged) ↔
      ∃ payload, extractJsonBlock limits text = .ok payload ∧
        SheetRules py lower (fun _ _ => True) batch payload := by
  simp only [validateAnswerSheet, bind_eq_ok, ← @validatePayload_iff py display lower]
  constructor
  · rintro ⟨staged, payload, hpayload, hstaged⟩
    exact ⟨payload, hpayload, staged, hstaged⟩
  · rintro ⟨payload, hpayload, staged, hstaged⟩
    exact ⟨staged, payload, hpayload, hstaged⟩

/-- **A sheet is accepted exactly by the rules**, where a link may name any target; what
is staged has the order of the batch, with one verdict for each id. -/
theorem sheet_accepted_iff (py : PyText) (display : JsonTree → String) (lower : String → String)
    (limits : ScanLimits) (batch : BatchView) (text : List Char) :
    ((∃ staged, validateAnswerSheet py display lower limits batch text = .ok staged) ↔
      ∃ payload, extractJsonBlock limits text = .ok payload ∧
        SheetRules py lower (fun _ _ => True) batch payload) ∧
    ∀ staged, validateAnswerSheet py display lower limits batch text = .ok staged →
      staged.map (·.senseId) = batchIds py batch ∧ (batchIds py batch).Nodup := by
  refine ⟨accepted_iff, fun staged h => ?_⟩
  obtain ⟨payload, -, hstaged⟩ := bind_eq_ok.mp h
  exact ⟨senseIds_validatePayload hstaged, (nodup_itemsById batch).1⟩

end Laws

def oneSense : BatchView :=
  treeGet (.obj [(points "prompt_hash", textTree "h"), (points "items", .arr [
    .obj [(points "sense_id", textTree "s1"), (points "candidates", .arr [
      .obj [(points "synset_id", textTree "cat%1")]])]])])

/-- A sheet that links it elsewhere. -/
def foreignSheet : List Char :=
  ("\x7b\"model\":\"m\",\"prompt_hash\":\"h\",\"verdicts\":[\x7b\"sense_id\":\"s1\"," ++
    "\"verdict\":\"link\",\"target_synset\":\"dog%1\"\x7d]\x7d").toList

/-- It is accepted against the rule of the prompt. -/
theorem foreignSheet_accepted :
    validateAnswerSheet .ascii (fun _ => "") id ⟨100, 4300⟩ oneSense foreignSheet =
        .ok [⟨"s1", "link", some "dog%1"⟩] ∧
      ¬ ∃ payload, extractJsonBlock ⟨100, 4300⟩ foreignSheet = .ok payload ∧
        SheetRules .ascii id (OwnCandidate .ascii) oneSense payload := by
  refine ⟨by decide +kernel, ?_⟩
  rintro ⟨payload, hpayload, hrules⟩
  obtain ⟨entries, hentries, -, hverdicts⟩ := hrules.verdicts
  obtain rfl := Except.ok.inj hpayload.symm
  obtain rfl := JsonTree.arr.inj hentries.symm
  rcases (hverdicts _ List.mem_cons_self).2 with ⟨-, item, target, hitem, htarget, hown⟩ | ⟨hnone, -⟩
  · obtain rfl := (Prod.mk.inj (List.mem_singleton.mp hitem)).2
    obtain rfl := Option.some.inj (Option.some.inj htarget.symm)
    exact absurd (show "dog%1" ∈ ["cat%1"] from hown) (by decide)
  · exact absurd (show "link" = "none" from hnone) (by decide)

end HamZaboon
