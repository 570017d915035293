import HamZaboon.Library.Results
import HamZaboon.Library.Sha1
import HamZaboon.Precard.Recompute

/-! # The rows of a key

`enrich_item`, as far as a row is told from another by it, and
`_build_precard_row`.  A key has one row for each pick of its judge's entry.  The
rows are filled from the entries that are stored for the key: whether they carry
the picks is whether the enrich entry was made for these (`MadeFor`), as it is when
the session computes it.
-/

namespace HamZaboon
open Library

/-! ## Ids -/

section Ids
variable (normalizeIdPart : String → String)

/-- What an id is the digest of. -/
def preCardText (word pos enDef : String) : String :=
  s!"{normalizeIdPart word}|{normalizeIdPart pos}|{normalizeIdPart enDef}"

def computePreCardId (word pos enDef : String) : String :=
  String.ofList ((sha1Hex (preCardText normalizeIdPart word pos enDef)).toList.take 16)

theorem computePreCardId_ne_empty (word pos enDef : String) :
    computePreCardId normalizeIdPart word pos enDef ≠ "" := by
  intro h
  have hlength : (computePreCardId normalizeIdPart word pos enDef).toList.length = 16 := by
    simp [computePreCardId]
  rw [h] at hlength
  cases hlength

variable {normalizeIdPart}

theorem preCardText_ne {word pos pos' enDef enDef' : String}
    (hpos : '|' ∉ (normalizeIdPart pos).toList) (hpos' : '|' ∉ (normalizeIdPart pos').toList)
    (h : normalizeIdPart enDef ≠ normalizeIdPart enDef') :
    preCardText normalizeIdPart word pos enDef ≠ preCardText normalizeIdPart word pos' enDef' := by
  intro heq
  have hlists := congrArg String.toList heq
  simp only [preCardText, toString, String.toList_append, List.append_assoc] at hlists
  have hrest := List.append_cancel_left (List.append_cancel_left hlists)
  -- behind the next bar is the gloss
  have hgloss : ∀ {p g : String}, '|' ∉ p.toList →
      (p.toList ++ ('|' :: g.toList)).dropWhile (· ≠ '|') = '|' :: g.toList := by
    intro p g hp
    have hne : ∀ c ∈ p.toList, decide (c ≠ '|') = true := by
      intro c hc
      exact decide_eq_true (ne_of_mem_of_not_mem hc hp)
    rw [List.dropWhile_append_of_pos hne]
    rfl
  have hsame := congrArg (List.dropWhile (· ≠ '|')) hrest
  exact h (String.toList_inj.mp (List.cons.inj ((hgloss hpos).symm.trans (hsame.trans (hgloss hpos')))).2)

end Ids

/-! ## `enrich_item` -/

/-- What the dictionaries give for a pick: its parts of speech, and the fields
besides these, the sense, its gloss and the id.  The extras are not among them. -/
structure EnrichData where
  posTags : List String
  rest : Dict
  noExtra : rest.lookup "extra" = none

/-- What a row is made of that is not of its key. -/
structure RowContext where
  packId : String
  labelCalls : Dict
  data : Progress → PipelineItem → SensePick → Except LegError EnrichData

def enrichItem (s : PipelineSession) (ctx : RowContext) (states : Progress) (item : PipelineItem)
    (judgePick : JsonValue) : Except LegError Dict := do
  let sid := textField judgePick "sense_id"
  let gloss := textField judgePick "gloss"
  let data ← ctx.data states item ⟨sid, gloss⟩
  -- without a sense there is no entry to take the parts of speech from
  let posTags := if sid = "" then [] else data.posTags
  let idPos := posTags.headD (textField (.obj item.fields) "pos")
  pure ([("sense_id", .str sid), ("en_def", .str gloss), ("pos", .arr (posTags.map .str)),
    ("pre_card_id",
      .str (computePreCardId s.legs.normalizeIdPart (s.py.strip item.text) idPos gloss))] ++
    data.rest)

/-! ## The picks of an entry -/

section Picks
variable (s : PipelineSession)

/-- Two picks of an entry differ in their sense and in their normalized gloss. -/
def Distinct (a b : SensePick) : Prop :=
  a.senseId ≠ b.senseId ∧ s.legs.normalizeIdPart a.gloss ≠ s.legs.normalizeIdPart b.gloss

theorem pairwise_addPick {out : List SensePick} (value : JsonValue)
    (hout : out.Pairwise (Distinct s)) : (addPick s out value).Pairwise (Distinct s) := by
  unfold addPick
  dsimp only
  split
  · exact hout
  · rename_i hnew
    rw [not_or, List.any_eq_true, not_exists] at hnew
    refine List.pairwise_append.mpr ⟨hout, List.pairwise_singleton _ _, fun p hp q hq => ?_⟩
    obtain rfl := List.mem_singleton.mp hq
    have hp' := hnew.2 p
    simp only [hp, true_and, decide_eq_true_eq, not_or] at hp'
    exact hp'

theorem senseId_of_mem_addPick {out : List SensePick} (value : JsonValue)
    (hout : ∀ p ∈ out, p.senseId ≠ "") : ∀ p ∈ addPick s out value, p.senseId ≠ "" := by
  unfold addPick
  dsimp only
  split
  · exact hout
  · rename_i hnew
    intro p hp
    rcases List.mem_append.mp hp with hp | hp
    · exact hout p hp
    · obtain rfl := List.mem_singleton.mp hp
      exact fun h => hnew (.inl h)

theorem pairwise_arbiterFanoutPicks (entry : JsonValue) :
    (arbiterFanoutPicks s entry).Pairwise (Distinct s) := by
  have hfold : ∀ (picks : List JsonValue) (out : List SensePick), out.Pairwise (Distinct s) →
      (picks.foldl (addPick s) out).Pairwise (Distinct s) := by
    intro picks
    induction picks with
    | nil => exact fun _ h => h
    | cons value picks ih => exact fun out h => ih _ (pairwise_addPick s value h)
  unfold arbiterFanoutPicks
  dsimp only
  split
  · split
    · exact List.pairwise_singleton _ _
    · exact hfold _ [] .nil
  · exact List.pairwise_singleton _ _

theorem senseId_of_mem_tail (entry : JsonValue) :
    ∀ sub ∈ (arbiterFanoutPicks s entry).tail, sub.senseId ≠ "" := by
  have hfold : ∀ (picks : List JsonValue) (out : List SensePick), (∀ p ∈ out, p.senseId ≠ "") →
      ∀ p ∈ picks.foldl (addPick s) out, p.senseId ≠ "" := by
    intro picks
    induction picks with
    | nil => exact fun _ h => h
    | cons value picks ih => exact fun out h => ih _ (senseId_of_mem_addPick s value h)
  unfold arbiterFanoutPicks
  dsimp only
  split
  · split
    · exact nofun
    · exact fun sub hsub => hfold _ [] nofun sub (List.mem_of_mem_tail hsub)
  · exact nofun

theorem rowPicks_eq (entry : JsonValue) : rowPicks s entry = arbiterFanoutPicks s entry := by
  unfold rowPicks
  split
  · rename_i hnil
    unfold arbiterFanoutPicks at hnil
    dsimp only at hnil
    split at hnil
    · split at hnil
      · cases hnil
      · rename_i hout
        exact absurd hnil hout
    · cases hnil
  · rfl

end Picks

/-! ## Payloads -/

/-- A payload, or a row, of this pick: it has its sense, its gloss, and an id that is
hashed from the gloss and is not empty. -/
structure PayloadOf (normalizeIdPart : String → String) (word : String) (payload : JsonValue)
    (pick : SensePick) : Prop where
  senseId : field payload "sense_id" = .str pick.senseId
  enDef : field payload "en_def" = .str pick.gloss
  preCardId : ∃ pos, field payload "pre_card_id" =
    .str (computePreCardId normalizeIdPart word pos pick.gloss)
  identified : textField payload "pre_card_id" ≠ ""

theorem PayloadOf.of_fields {normalizeIdPart : String → String} {word : String}
    {payload : JsonValue} {pick : SensePick} (pos : String)
    (hsense : field payload "sense_id" = .str pick.senseId)
    (hgloss : field payload "en_def" = .str pick.gloss)
    (hid : field payload "pre_card_id" =
      .str (computePreCardId normalizeIdPart word pos pick.gloss)) :
    PayloadOf normalizeIdPart word payload pick := by
  refine ⟨hsense, hgloss, ⟨pos, hid⟩, ?_⟩
  rw [textField, hid]
  exact computePreCardId_ne_empty _ _ _ _

/-- The enrich entry is one for these picks: itself of the first one, and with an
extra for each of the others. -/
structure MadeFor (normalizeIdPart : String → String) (word : String) (entry : JsonValue)
    (picks : List SensePick) : Prop where
  first : ∀ pick ∈ picks.head?, PayloadOf normalizeIdPart word entry pick
  extras : ∀ sub ∈ picks.tail, PayloadOf normalizeIdPart word (extraOf entry sub.senseId) sub

/-! ## `_build_precard_row` -/

/-- `value.get(name, default)`. -/
def fieldOr (value : JsonValue) (name : String) (default : JsonValue) : JsonValue :=
  match value with
  | .obj entries => (entries.lookup name).getD default
  | _ => default

/-- `bool(value.get(name, default))`. -/
def truthField (value : JsonValue) (name : String) (default : Bool) : JsonValue :=
  .bool (fieldOr value name (.bool default)).truthy

/-- `stage_calls["s0"]`. -/
def preprocessCall (py : PyText) (view : JsonValue) : String :=
  if (field view "type_pending").truthy then "kept:type-pending"
  else if (field view "quarantine").truthy then
    "kept:quarantine-" ++ py.pyStr (field view "quarantine")
  else "kept"

/-- The fields that only some rows have. -/
def optionalFields (py : PyText) (parts : RowParts) : Dict :=
  (if (field parts.preprocess "type_pending").truthy then [("type_pending", .bool true)] else []) ++
  (if (field parts.preprocess "quarantine").truthy then
    [("quarantine", field parts.preprocess "quarantine")] else []) ++
  (if (field parts.judge "proper_route").truthy then
    [("proper_route", field parts.judge "proper_route")] else []) ++
  (if hasField parts.enrich "signal_quality_reason" then
    [("signal_quality_reason",
      .str (py.pyStr (orElse (field parts.enrich "signal_quality_reason") (.str ""))))] else [])

/-- The fields of `_build_precard_row` besides those that `PrecardRow` has. -/
def buildPrecardRow (py : PyText) (ctx : RowContext) (item : PipelineItem) (parts : RowParts) :
    Dict :=
  let enrich := parts.enrich
  let label := parts.label
  let anchor := parts.anchor
  [("pool_level", fieldOr (.obj item.fields) "pool_level" (.str "")),
    ("sense_id", fieldOr enrich "sense_id" (.str "")),
    ("en_def", fieldOr enrich "en_def" (.str "")),
    ("circular_def", truthField enrich "circular_def" false),
    ("ipa", fieldOr enrich "ipa" (.str "")),
    ("ipa_src", fieldOr enrich "ipa_src" (.str "model")),
    ("dataset_examples", fieldOr enrich "dataset_examples" (.arr [])),
    ("example_fallback", fieldOr enrich "example_fallback" (.str "synthetic-needed")),
    ("example_synthetic_needed",
      truthField enrich "example_synthetic_needed" !(field enrich "dataset_examples").truthy),
    ("abbrev_expansion", fieldOr enrich "abbrev_expansion" (.str "")),
    ("pos", fieldOr enrich "pos" (.arr [])),
    ("pos_src", fieldOr enrich "pos_src" (.str "none")),
    ("lexical_type", fieldOr enrich "lexical_type" (.str "word")),
    ("register", fieldOr enrich "register" (.str "neutral")),
    ("sense_cefr", field enrich "sense_cefr"),
    ("sense_cefr_method", fieldOr enrich "sense_cefr_method" (.str "unmapped")),
    ("pre_card_id", fieldOr enrich "pre_card_id" (.str "")),
    ("origin_pack_id", .str ctx.packId),
    ("mother_lemma", orElse (field anchor "mother_lemma") (.str "")),
    ("mother_lemmas", orElse (field anchor "mother_lemmas") (.arr [])),
    ("mother_multi", truthField anchor "mother_multi" false),
    ("topic_vector", parts.vector),
    ("topic_method", orElse (field label "method") (.str "live16")),
    ("topic_path", orElse (field label "topic_path") (.str "")),
    ("topic_guarded", truthField label "topic_guarded" false),
    ("gate_verdict", fieldOr enrich "gate_verdict" (.str "LINK")),
    ("gate_fires", orElse (field enrich "gate_fires") (.arr [])),
    ("gate_reasons", orElse (field enrich "gate_reasons") (.obj [])),
    ("signal_quality_would_fire", truthField enrich "signal_quality_would_fire" false),
    ("drop_reason", .null),
    ("stage_calls", .obj
      [("s0", .str (preprocessCall py parts.preprocess)),
        ("s0b", orElse (field parts.s0b "reason") (.str "kept")),
        ("s2", fieldOr parts.judge "model" (.str "")),
        ("s3", fieldOr parts.vec3 "model" (.str "")),
        ("s4", fieldOr label "method" (.str "")),
        ("s4_path", orElse (field label "topic_path") (.str "")),
        ("s4_models", .obj ctx.labelCalls),
        ("s5", fieldOr enrich "enrich_path" (.str ""))])] ++ optionalFields py parts

/-- The session, enriching items and building rows as the source does. -/
def PipelineSession.withRows (s : PipelineSession) (ctx : RowContext) : PipelineSession :=
  { s with
    legs := { s.legs with
      enrichItem := enrichItem s ctx
      rowFields := buildPrecardRow s.py ctx } }

/-! ## The enrich stage -/

/-- The entry of a primary payload and its extras. -/
def enrichEntry (primary : Dict) (extras : List Dict) : JsonValue :=
  .obj (if extras = [] then primary else primary.set "extra" (.arr (extras.map .obj)))

theorem moves_enrichOne {s : PipelineSession} (item : PipelineItem) :
    Moves (fun w w' =>
      (needsEnrich s ((w.states .enrich).entry item.key) ((w.states .senseJudge).entry item.key) =
        false ∧ w' = w) ∨
      ∃ primary extras,
        s.legs.enrichItem w.states item ((w.states .senseJudge).entryOr item.key) = .ok primary ∧
        List.Forall₂ (fun sub extra => s.legs.enrichItem w.states item (pickJson sub) = .ok extra)
          ((arbiterFanoutPicks s ((w.states .senseJudge).entryOr item.key)).tail.filter
            (·.senseId ≠ "")) extras ∧
        w' = ⟨Function.update w.states .enrich
          ((w.states .enrich).put item.key (enrichEntry primary extras)), w.dir, w.out⟩)
      (enrichOne s item) := by
  intro w
  apply Ends.bind
  apply Ends.get
  cases hneeds : needsEnrich s ((w.states .enrich).entry item.key)
      ((w.states .senseJudge).entry item.key) with
  | false =>
    simp only [hneeds, Bool.false_eq_true, if_false]
    exact Ends.pure (.inl ⟨trivial, rfl⟩)
  | true =>
    simp only [hneeds, if_true]
    apply Ends.bind
    refine (ends_runLeg _).mono ?_ fun _ _ _ => trivial
    rintro primary _ ⟨hprimary, rfl⟩
    apply Ends.bind
    refine (ends_runLeg _).mono ?_ fun _ _ _ => trivial
    rintro extras _ ⟨hextras, rfl⟩
    refine Ends.modify (.inr ⟨primary, extras, hprimary, forall₂_of_mapM_ok hextras, ?_⟩)
    unfold enrichEntry
    split <;> rfl

section Made
variable {s : PipelineSession} {ctx : RowContext} {states : Progress} {item : PipelineItem}

theorem payloadOf_enrichItem {judgePick : JsonValue} {payload : Dict}
    (h : enrichItem s ctx states item judgePick = .ok payload) (extras : List Dict) :
    PayloadOf s.legs.normalizeIdPart (s.py.strip item.text) (enrichEntry payload extras)
      ⟨textField judgePick "sense_id", textField judgePick "gloss"⟩ := by
  obtain ⟨data, -, hpayload⟩ := bind_eq_ok.mp h
  obtain rfl := (Except.ok.inj hpayload).symm
  have hextra : ∀ name, name ≠ "extra" → ∀ d : Dict,
      field (enrichEntry d extras) name = Dict.get d name := by
    intro name hname d
    unfold enrichEntry
    split
    · rfl
    · change Dict.get (Dict.set _ _ _) name = _
      rw [Dict.get, Dict.lookup_set, if_neg hname, Dict.get]
  refine PayloadOf.of_fields
    ((if textField judgePick "sense_id" = "" then [] else data.posTags).headD
      (textField (.obj item.fields) "pos")) ?_ ?_ ?_
  · rw [hextra _ (by decide)]
    rfl
  · rw [hextra _ (by decide)]
    rfl
  · rw [hextra _ (by decide)]
    rfl

theorem payloadOf_extraOf {subs : List SensePick} {extras : List Dict} {primary : Dict}
    (hdistinct : subs.Pairwise (Distinct s)) (hsense : ∀ sub ∈ subs, sub.senseId ≠ "")
    (hextras : List.Forall₂ (fun sub extra => enrichItem s ctx states item (pickJson sub) = .ok extra)
      subs extras) {sub : SensePick} (hsub : sub ∈ subs) :
    PayloadOf s.legs.normalizeIdPart (s.py.strip item.text)
      (extraOf (enrichEntry primary extras) sub.senseId) sub := by
  -- an extra has the sense of the pick it is made of
  have hmade : ∀ {sub : SensePick} {extra : Dict},
      enrichItem s ctx states item (pickJson sub) = .ok extra →
        PayloadOf s.legs.normalizeIdPart (s.py.strip item.text) (.obj extra) sub :=
    fun hok => payloadOf_enrichItem hok []
  have hid : ∀ {payload : JsonValue} {sub : SensePick},
      PayloadOf s.legs.normalizeIdPart (s.py.strip item.text) payload sub →
        textField payload "sense_id" = sub.senseId := by
    intro payload sub h
    rw [textField, h.senseId]
  obtain ⟨own, hown, hok⟩ := exists_right_of_forall₂ hextras hsub
  have hne : extras ≠ [] := List.ne_nil_of_mem hown
  have hfield : field (enrichEntry primary extras) "extra" = .arr (extras.map .obj) := by
    rw [enrichEntry, if_neg hne]
    change Dict.get (Dict.set _ _ _) _ = _
    rw [Dict.get_set_self]
  have hfilter : JsonValue.obj own ∈ (extras.map JsonValue.obj).filter fun e =>
      isDict e ∧ textField e "sense_id" = sub.senseId ∧ sub.senseId ≠ "" :=
    List.mem_filter.mpr ⟨List.mem_map.mpr ⟨own, hown, rfl⟩,
      decide_eq_true ⟨rfl, hid (hmade hok), hsense sub hsub⟩⟩
  obtain ⟨last, hlast⟩ := Option.isSome_iff_exists.mp
    (List.getLast?_isSome.mpr (List.ne_nil_of_mem hfilter))
  obtain ⟨hmem, htest⟩ := List.mem_filter.mp (List.mem_of_getLast? hlast)
  obtain ⟨extra, hextra, rfl⟩ := List.mem_map.mp hmem
  obtain ⟨sub', hsub', hok'⟩ := exists_left_of_forall₂ hextras hextra
  have hsame : sub'.senseId = sub.senseId := (hid (hmade hok')).symm.trans (of_decide_eq_true htest).2.1
  have hnodup : (subs.map (·.senseId)).Nodup := List.pairwise_map.mpr (hdistinct.imp fun h => h.1)
  obtain rfl := List.inj_on_of_nodup_map hnodup hsub' hsub hsame
  rw [extraOf, hfield]
  simp only [hlast, Option.getD_some]
  exact hmade hok'

/-- The judge's entry has its first pick as its own. -/
def Leads (s : PipelineSession) (judged : JsonValue) : Prop :=
  (arbiterFanoutPicks s judged).head? =
    some ⟨textField judged "sense_id", textField judged "gloss"⟩

theorem leads_judgeJson {entry : JudgeEntry} (h : ∀ first ∈ entry.picks.head?,
    first = ⟨entry.senseId, entry.gloss⟩ ∧ first.senseId ≠ "") : Leads s (judgeJson entry) := by
  have hkeep : ∀ (picks : List JsonValue) (first : SensePick) (out : List SensePick),
      ∃ rest, picks.foldl (addPick s) (first :: out) = first :: rest := by
    intro picks
    induction picks with
    | nil => exact fun first out => ⟨out, rfl⟩
    | cons value picks ih =>
      intro first out
      rw [List.foldl_cons, addPick]
      dsimp only
      split
      · exact ih first out
      · exact ih first (out ++ _)
  have hpicks : field (judgeJson entry) "picks" = .arr (entry.picks.map pickJson) := rfl
  unfold Leads arbiterFanoutPicks
  rw [hpicks]
  dsimp only
  cases hentry : entry.picks with
  | nil => rfl
  | cons first rest =>
    rw [hentry] at h
    obtain ⟨hfirst, hsense⟩ := h first rfl
    have hadd : addPick s [] (pickJson first) = [first] := by
      have hnew : ¬ (first.senseId = "" ∨ ([] : List SensePick).any fun p =>
          p.senseId = first.senseId ∨
            s.legs.normalizeIdPart p.gloss = s.legs.normalizeIdPart first.gloss) := by
        simpa using hsense
      exact if_neg hnew
    have hfold : ∃ others, ((List.map pickJson (first :: rest)).take maxFanout).foldl (addPick s) [] =
        first :: others := by
      rw [List.map_cons, maxFanout, List.take_succ_cons, List.foldl_cons, hadd]
      exact hkeep _ first []
    obtain ⟨others, hothers⟩ := hfold
    rw [hothers, hfirst]
    rfl

theorem madeFor_enrichEntry {judged : JsonValue} {primary : Dict} {extras : List Dict}
    (hleads : Leads s judged) (hprimary : enrichItem s ctx states item judged = .ok primary)
    (hextras : List.Forall₂ (fun sub extra => enrichItem s ctx states item (pickJson sub) = .ok extra)
      ((arbiterFanoutPicks s judged).tail.filter (·.senseId ≠ "")) extras) :
    MadeFor s.legs.normalizeIdPart (s.py.strip item.text) (enrichEntry primary extras)
      (arbiterFanoutPicks s judged) := by
  have hsense := senseId_of_mem_tail s judged
  rw [List.filter_eq_self.mpr fun sub hsub => decide_eq_true (hsense sub hsub)] at hextras
  refine ⟨fun pick hpick => ?_, fun sub hsub => ?_⟩
  · rw [Leads] at hleads
    rw [hleads, Option.mem_some_iff] at hpick
    obtain rfl := hpick
    exact payloadOf_enrichItem hprimary extras
  · exact payloadOf_extraOf (pairwise_arbiterFanoutPicks s judged).tail hsense hextras hsub

/-- The enrich entry of the key is one for the picks of its judge's entry. -/
def MadeAt (s : PipelineSession) (key : String) (w : PipelineWorld) : Prop :=
  ∃ word, MadeFor s.legs.normalizeIdPart word ((w.states .enrich).entryOr key)
    (arbiterFanoutPicks s ((w.states .senseJudge).entryOr key))

/-- The entry is still to be made, or it is made. -/
def DueOrMade (s : PipelineSession) (key : String) (w : PipelineWorld) : Prop :=
  Leads s ((w.states .senseJudge).entryOr key) ∧
    (needsEnrich s ((w.states .enrich).entry key) ((w.states .senseJudge).entry key) = true ∨
      MadeAt s key w)

/-- It is made, of an entry with its first pick as its own. -/
def LedAndMade (s : PipelineSession) (key : String) (w : PipelineWorld) : Prop :=
  Leads s ((w.states .senseJudge).entryOr key) ∧ MadeAt s key w

variable (s ctx) in
theorem moves_made (item : PipelineItem) (key : String) :
    Moves (fun w w' => (DueOrMade (s.withRows ctx) key w → DueOrMade (s.withRows ctx) key w') ∧
      (LedAndMade (s.withRows ctx) key w → LedAndMade (s.withRows ctx) key w') ∧
      (item.key = key → DueOrMade (s.withRows ctx) key w → LedAndMade (s.withRows ctx) key w'))
      (enrichOne (s.withRows ctx) item) := by
  intro w
  refine (moves_enrichOne item w).mono ?_ fun _ _ _ => trivial
  rintro _ w' (⟨hneeds, rfl⟩ | ⟨primary, extras, hprimary, hextras, rfl⟩)
  · refine ⟨id, id, ?_⟩
    rintro rfl ⟨hleads, hdue | hmade⟩
    · rw [hneeds] at hdue
      cases hdue
    · exact ⟨hleads, hmade⟩
  · -- the stage writes neither the judge's entries nor those of other keys
    have hne : Stage.senseJudge ≠ .enrich := by decide
    have hjudge : (Function.update w.states .enrich ((w.states .enrich).put item.key
        (enrichEntry primary extras))) .senseJudge = w.states .senseJudge :=
      Function.update_of_ne hne _ _
    have hentry : ∀ k, ((w.states .enrich).put item.key (enrichEntry primary extras)).entry k =
        if k = item.key then some (enrichEntry primary extras) else (w.states .enrich).entry k :=
      fun k => StageState.entry_put _ _ _ _
    by_cases hkey : item.key = key
    · subst hkey
      have hmade : Leads (s.withRows ctx) ((w.states .senseJudge).entryOr item.key) →
          LedAndMade (s.withRows ctx) item.key ⟨Function.update w.states .enrich
            ((w.states .enrich).put item.key (enrichEntry primary extras)), w.dir, w.out⟩ := by
        intro hleads
        refine ⟨by simpa only [hjudge] using hleads, s.py.strip item.text, ?_⟩
        simp only [Function.update_self, hjudge, StageState.entryOr, hentry, if_true,
          Option.getD_some]
        exact madeFor_enrichEntry hleads hprimary hextras
      exact ⟨fun h => ⟨(hmade h.1).1, .inr (hmade h.1).2⟩, fun h => hmade h.1, fun _ h => hmade h.1⟩
    · have hsame : ((w.states .enrich).put item.key (enrichEntry primary extras)).entry key =
          (w.states .enrich).entry key := by
        rw [hentry, if_neg (Ne.symm hkey)]
      refine ⟨?_, ?_, fun h => absurd h hkey⟩
      · intro h
        simpa only [DueOrMade, MadeAt, StageState.entryOr, Function.update_self, hjudge, hsame]
          using h
      · intro h
        simpa only [LedAndMade, MadeAt, StageState.entryOr, Function.update_self, hjudge, hsame]
          using h

theorem made_enrichStage {items : List PipelineItem}
    (hselected : s.selection.selected .enrich = true) (hitem : item ∈ items) :
    Moves (fun w w' => DueOrMade (s.withRows ctx) item.key w →
      LedAndMade (s.withRows ctx) item.key w') (enrichStage (s.withRows ctx) items) := by
  have hturn := fun b : PipelineItem => moves_made s ctx b item.key
  have hdue : ∀ batch : List PipelineItem, Moves (fun w w' => DueOrMade (s.withRows ctx) item.key w →
      DueOrMade (s.withRows ctx) item.key w') (batch.forM (enrichOne (s.withRows ctx))) := by
    intro batch
    exact Moves.forM_invariant fun b _ w => (hturn b w).mono (fun _ _ h => h.1) fun _ _ _ => trivial
  have hmade : ∀ batch : List PipelineItem, Moves (fun w w' => LedAndMade (s.withRows ctx) item.key w →
      LedAndMade (s.withRows ctx) item.key w') (batch.forM (enrichOne (s.withRows ctx))) := by
    intro batch
    exact Moves.forM_invariant fun b _ w => (hturn b w).mono (fun _ _ h => h.2.1) fun _ _ _ => trivial
  have hflush : ∀ {m : Pipeline Unit} {I T : PipelineWorld → Prop},
      (∀ w, T w → T (flushStates w)) → Moves (fun w w' => I w → T w') m →
        Moves (fun w w' => I w → T w') (m >>= fun _ => flushNow) := by
    intro m I T hT hm w
    apply Ends.bind
    refine (hm w).mono (fun _ w₁ h₁ => ?_) fun _ _ _ => trivial
    exact Ends.modify fun h => hT w₁ (h₁ h)
  have hbatch : ∃ b ∈ stageBatches true items batchWidth, item ∈ b.2 :=
    mem_stageBatches (by decide) hitem
  rw [← hselected] at hbatch
  obtain ⟨b, hb, hmem⟩ := hbatch
  refine Moves.forM_reaches hb (fun b' _ => hflush (fun _ h => h) (hdue b'.2))
    (hflush (fun _ h => h) ?_) fun b' _ => hflush (fun _ h => h) (hmade b'.2)
  refine Moves.forM_reaches hmem (fun b' _ w => (hturn b' w).mono (fun _ _ h => h.1)
    fun _ _ _ => trivial) (fun w => (hturn item w).mono (fun _ _ h => h.2.2 rfl) fun _ _ _ => trivial)
    fun b' _ w => (hturn b' w).mono (fun _ _ h => h.2.1) fun _ _ _ => trivial

end Made

/-! ## The rows of the picks -/

/-- The picks that the judge's entry of a key fans out to. -/
def picksOf (s : PipelineSession) (states : Progress) (key : String) : List SensePick :=
  arbiterFanoutPicks s ((states .senseJudge).entryOr key)

/-- The enrich entry of a key is one for its picks. -/
def Made (s : PipelineSession) (states : Progress) (key word : String) : Prop :=
  MadeFor s.legs.normalizeIdPart word ((states .enrich).entryOr key) (picksOf s states key)

/-- The rows of a key are those of the picks of its judge's entry, one for each and
in their order. -/
structure RowsOfPicks (s : PipelineSession) (states : Progress) (key : String)
    (rows : List PrecardRow) : Prop where
  count : rows.length = (picksOf s states key).length
  place : ∀ (i : Nat) (row : PrecardRow), rows[i]? = some row →
    row.pickIndex = i ∧ row.fanoutN = rows.length
  topic : ∀ (i : Nat) (row : PrecardRow) (pick : SensePick), rows[i]? = some row →
    (picksOf s states key)[i]? = some pick →
      field (.obj row.fields) "topic_vector" = (rowParts states key i pick).vector ∧
      field (.obj row.fields) "topic_method" =
        orElse (field (rowParts states key i pick).label "method") (.str "live16") ∧
      field (.obj row.fields) "topic_path" =
        orElse (field (rowParts states key i pick).label "topic_path") (.str "")
  /-- A later row has the label of its own sense, or none. -/
  own : ∀ i pick, 0 < i → (rowParts states key i pick).label = .obj [] ∨
    textField (rowParts states key i pick).label "sense_id" = pick.senseId
  carries : ∀ word, Made s states key word → ∀ (i : Nat) (row : PrecardRow) (pick : SensePick),
    rows[i]? = some row → (picksOf s states key)[i]? = some pick →
      PayloadOf s.legs.normalizeIdPart word (.obj row.fields) pick
  /-- The ids of two rows are hashed from two texts. -/
  distinct : ∀ word, Made s states key word → ∀ (i j : Nat) (a b : PrecardRow), i ≠ j →
    rows[i]? = some a → rows[j]? = some b → ∃ pos pos' enDef enDef',
      field (.obj a.fields) "pre_card_id" =
        .str (computePreCardId s.legs.normalizeIdPart word pos enDef) ∧
      field (.obj b.fields) "pre_card_id" =
        .str (computePreCardId s.legs.normalizeIdPart word pos' enDef') ∧
      ('|' ∉ (s.legs.normalizeIdPart pos).toList → '|' ∉ (s.legs.normalizeIdPart pos').toList →
        preCardText s.legs.normalizeIdPart word pos enDef ≠
          preCardText s.legs.normalizeIdPart word pos' enDef')
  blank : (states .enrich).entry key = none → ∀ row ∈ rows,
    field (.obj row.fields) "sense_id" = .str "" ∧ field (.obj row.fields) "en_def" = .str "" ∧
      field (.obj row.fields) "pre_card_id" = .str ""

section Rows
variable {s : PipelineSession} {ctx : RowContext} {states : Progress} {item : PipelineItem}

theorem fieldOr_of_field {value default : JsonValue} {name text : String}
    (h : field value name = .str text) : fieldOr value name default = .str text := by
  cases value with
  | obj entries =>
    change (entries.lookup name).getD .null = .str text at h
    change (entries.lookup name).getD default = .str text
    cases hlookup : entries.lookup name with
    | none =>
      rw [hlookup] at h
      cases h
    | some v =>
      rw [hlookup] at h
      exact h
  | _ => cases h

theorem extraOf_own (entry : JsonValue) (senseId : String) :
    extraOf entry senseId = .obj [] ∨ textField (extraOf entry senseId) "sense_id" = senseId := by
  unfold extraOf
  split
  · rename_i extras _
    cases hlast : (extras.filter fun e => isDict e ∧ textField e "sense_id" = senseId ∧
        senseId ≠ "").getLast? with
    | none => exact .inl rfl
    | some last =>
      have htest := (List.mem_filter.mp (List.mem_of_getLast? hlast)).2
      exact .inr (of_decide_eq_true htest).2.1
  · exact .inl rfl

theorem getElem?_rowsOf {i : Nat} {row : PrecardRow}
    (h : (rowsOf (s.withRows ctx) states item)[i]? = some row) :
    ∃ pick, (picksOf (s.withRows ctx) states item.key)[i]? = some pick ∧ row.pickIndex = i ∧
      row.fanoutN = (picksOf (s.withRows ctx) states item.key).length ∧
      row.fields = buildPrecardRow s.py ctx item (rowParts states item.key i pick) := by
  unfold rowsOf at h
  rw [rowPicks_eq] at h
  simp only [List.getElem?_map, List.getElem?_zipIdx, Option.map_map, Option.map_eq_some_iff] at h
  obtain ⟨pick, hpick, rfl⟩ := h
  exact ⟨pick, hpick, Nat.zero_add i, rfl, by simp [PipelineSession.withRows]⟩

theorem payloadOf_rowParts {word : String} (hmade : Made s states item.key word) {i : Nat}
    {pick : SensePick} (hpick : (picksOf s states item.key)[i]? = some pick) :
    PayloadOf s.legs.normalizeIdPart word (rowParts states item.key i pick).enrich pick := by
  cases i with
  | zero =>
    refine hmade.first pick ?_
    rw [Option.mem_def, List.head?_eq_getElem?]
    exact hpick
  | succ i =>
    refine hmade.extras pick (List.mem_of_getElem? (i := i) ?_)
    rw [List.getElem?_tail]
    exact hpick

theorem carries_rowsOf {word : String} (hmade : Made (s.withRows ctx) states item.key word) {i : Nat}
    {row : PrecardRow} {pick : SensePick}
    (hrow : (rowsOf (s.withRows ctx) states item)[i]? = some row)
    (hpick : (picksOf (s.withRows ctx) states item.key)[i]? = some pick) :
    PayloadOf s.legs.normalizeIdPart word (.obj row.fields) pick := by
  obtain ⟨pick', hpick', -, -, hfields⟩ := getElem?_rowsOf hrow
  obtain rfl := Option.some.inj (hpick'.symm.trans hpick)
  have hpayload := payloadOf_rowParts hmade hpick
  obtain ⟨pos, hid⟩ := hpayload.preCardId
  rw [hfields]
  exact PayloadOf.of_fields pos (fieldOr_of_field hpayload.senseId) (fieldOr_of_field hpayload.enDef)
    (fieldOr_of_field hid)

theorem blank_rowsOf (hnone : (states .enrich).entry item.key = none) {row : PrecardRow}
    (hrow : row ∈ rowsOf (s.withRows ctx) states item) :
    field (.obj row.fields) "sense_id" = .str "" ∧ field (.obj row.fields) "en_def" = .str "" ∧
      field (.obj row.fields) "pre_card_id" = .str "" := by
  obtain ⟨i, hi⟩ := List.mem_iff_getElem?.mp hrow
  obtain ⟨pick, -, -, -, hfields⟩ := getElem?_rowsOf hi
  have hempty : (rowParts states item.key i pick).enrich = .obj [] := by
    unfold rowParts
    dsimp only
    rw [StageState.entryOr, hnone, Option.getD_none]
    split
    · rfl
    · rfl
  have hblank : ∀ name, fieldOr (rowParts states item.key i pick).enrich name (.str "") = .str "" := by
    intro name
    rw [hempty]
    rfl
  rw [hfields]
  exact ⟨hblank "sense_id", hblank "en_def", hblank "pre_card_id"⟩

variable (s ctx states item) in
/-- **A key has the rows of its picks.** -/
theorem rowsOfPicks_rowsOf :
    RowsOfPicks (s.withRows ctx) states item.key (rowsOf (s.withRows ctx) states item) := by
  have hlength : (rowsOf (s.withRows ctx) states item).length =
      (picksOf (s.withRows ctx) states item.key).length := by
    simp [rowsOf, rowPicks_eq, picksOf]
  refine ⟨hlength, fun i row hrow => ?_, fun i row pick hrow hpick => ?_, fun i pick hpos => ?_,
    fun word hmade i row pick hrow hpick => carries_rowsOf hmade hrow hpick,
    fun word hmade i j a b hne ha hb => ?_, fun hnone row hrow => blank_rowsOf hnone hrow⟩
  · obtain ⟨pick, -, hindex, hfanout, -⟩ := getElem?_rowsOf hrow
    exact ⟨hindex, hfanout.trans hlength.symm⟩
  · obtain ⟨pick', hpick', -, -, hfields⟩ := getElem?_rowsOf hrow
    obtain rfl := Option.some.inj (hpick'.symm.trans hpick)
    rw [hfields]
    exact ⟨rfl, rfl, rfl⟩
  · have hlabel : (rowParts states item.key i pick).label =
        extraOf ((states .topicLabel).entryOr item.key) pick.senseId := if_neg (by omega)
    rw [hlabel]
    exact extraOf_own _ _
  · obtain ⟨p, hp, -, -, -⟩ := getElem?_rowsOf ha
    obtain ⟨q, hq, -, -, -⟩ := getElem?_rowsOf hb
    obtain ⟨pos, hid⟩ := (carries_rowsOf hmade ha hp).preCardId
    obtain ⟨pos', hid'⟩ := (carries_rowsOf hmade hb hq).preCardId
    refine ⟨pos, pos', p.gloss, q.gloss, hid, hid', fun hbar hbar' => preCardText_ne hbar hbar' ?_⟩
    have hpairwise := pairwise_arbiterFanoutPicks (s.withRows ctx)
      ((states .senseJudge).entryOr item.key)
    rw [List.pairwise_iff_getElem] at hpairwise
    obtain ⟨hi, hp⟩ := List.getElem?_eq_some_iff.mp hp
    obtain ⟨hj, hq⟩ := List.getElem?_eq_some_iff.mp hq
    rw [← hp, ← hq]
    rcases Nat.lt_or_gt_of_ne hne with hlt | hgt
    · exact (hpairwise i j hi hj hlt).2
    · exact (hpairwise j i hj hi hgt).2.symm

end Rows

/-- **The rows that a session writes.**  A surviving key has the rows of its picks,
and its enrich entry is made for these wherever the session computes it, of an entry
of the judge with its first pick as its own. -/
theorem rows_carry_picks (s : PipelineSession) (ctx : RowContext) (f : PipelineFiles)
    (hdry : s.dryRun = false) (hreturns : ((s.withRows ctx).run f).2 = true) :
    ∃ r : SessionRun (s.withRows ctx) f, ∃ rows, ((s.withRows ctx).run f).1.out = some rows ∧
      progressOf ((s.withRows ctx).run f).1.dir = r.enriched.states ∧
      ∀ item ∈ r.survivors,
        RowsOfPicks (s.withRows ctx) r.enriched.states item.key
          (rows.filter (·.key = item.key)) ∧
        (r.Recomputed .enrich item.key →
          Leads (s.withRows ctx) ((r.enriched.states .senseJudge).entryOr item.key) →
            ∃ word, Made (s.withRows ctx) r.enriched.states item.key word) := by
  have hrun : (s.withRows ctx).dryRun = false := hdry
  obtain ⟨r, hprogress, hout⟩ := exists_sessionRun hrun hreturns
  refine ⟨r, _, hout, hprogress, fun item hitem => ⟨?_, fun hcomputed hleads => ?_⟩⟩
  · obtain ⟨first, hfirst⟩ := find?_key_of_mem hitem
    have hkey : first.key = item.key := by simpa using List.find?_some hfirst
    rw [filter_emitRows_assemble, hfirst, Option.map_some, Option.getD_some, ← hkey]
    exact rowsOfPicks_rowsOf s ctx r.enriched.states first
  · obtain ⟨hselected, ⟨first, hfirst, hkey⟩, hdue, -⟩ := hcomputed
    have hjudge : r.enriched.states .senseJudge = r.labelled.states .senseJudge :=
      r.enriched_states nofun
    have hstage : Moves (fun w w' => DueOrMade (s.withRows ctx) first.key w →
        LedAndMade (s.withRows ctx) first.key w')
        (enrichStage (s.withRows ctx) (r.itemsAt .enrich)) := made_enrichStage hselected hfirst
    have hdueOrMade : DueOrMade (s.withRows ctx) first.key r.labelled := by
      rw [hkey]
      refine ⟨?_, .inl hdue⟩
      rwa [hjudge] at hleads
    have hmade := (hstage.run r.enrich_ok hdueOrMade).2
    rw [hkey] at hmade
    exact hmade

/-- Dictionaries in which everything is a noun without examples. -/
def nounContext : RowContext where
  packId := ""
  labelCalls := []
  data _ _ _ := .ok ⟨["noun"],
    [("example_fallback", .str "synthetic-needed"), ("sense_cefr_method", .str "unmapped")], rfl⟩

theorem rows_carry_picks_fresh :
    ∃ r : SessionRun ((catAndDog 0 silentJudge).withRows nounContext) noFiles,
      ∀ item ∈ r.survivors, ∃ rows,
        RowsOfPicks ((catAndDog 0 silentJudge).withRows nounContext) r.enriched.states item.key rows := by
  obtain ⟨r, rows, -, -, hrows⟩ :=
    rows_carry_picks (catAndDog 0 silentJudge) nounContext noFiles rfl (by decide +kernel)
  exact ⟨r, fun item hitem => ⟨_, (hrows item hitem).1⟩⟩

def EveryRowCarries (s : PipelineSession) (f : PipelineFiles) : Prop :=
  ∃ rows, f.out = some rows ∧ ∀ row ∈ rows, ∃ word pick,
    (picksOf s (progressOf f.dir) row.key)[row.pickIndex]? = some pick ∧
      PayloadOf s.legs.normalizeIdPart word (.obj row.fields) pick

/-- A session that only ranks the anchors, over a directory without progress. -/
def onlyAnchors : PipelineSession :=
  { catAndDog 0 silentJudge with selection := .only .anchorRank }.withRows nounContext

/-- The survivors make rows without an id. -/
theorem skipped_stages_leave_blanks :
    (onlyAnchors.run noFiles).2 = true ∧ ¬ EveryRowCarries onlyAnchors (onlyAnchors.run noFiles).1 := by
  refine ⟨by decide +kernel, ?_⟩
  rintro ⟨rows, hrows, hcarry⟩
  have hids : (onlyAnchors.run noFiles).1.out.map
      (·.map fun row => textField (.obj row.fields) "pre_card_id") = some ["", ""] := by
    decide +kernel
  rw [hrows, Option.map_some] at hids
  have hmem : "" ∈ rows.map fun row => textField (.obj row.fields) "pre_card_id" :=
    Option.some.inj hids ▸ List.mem_cons_self
  obtain ⟨row, hrow, hblank⟩ := List.mem_map.mp hmem
  obtain ⟨word, pick, -, hpayload⟩ := hcarry row hrow
  exact hpayload.identified hblank

end HamZaboon
