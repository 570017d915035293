import HamZaboon.Precard.SessionRun

/-! # No sample item vanishes

Every item a session processes leaves a trace: a drop verdict in the progress it
has flushed, or rows under its key in `precard.jsonl`, which are those of the
first item with that key (`no_item_vanishes`).

The four filters of a session read the states of four stages, which later stages
leave alone, but for the tags that the judge adds to anchor entries.  So at the end
the survivors are what the flushed states say (`SessionRun.survivors_eq`).
-/

namespace HamZaboon
open Library

/-! ## The survivors -/

/-- The items that the stages within the `try` leave, by these states. -/
def laterSurvivors (s : PipelineSession) (states : Progress) (items : List PipelineItem) :
    List PipelineItem :=
  dropMarked (states .senseJudge) properDropped
    (dropMarked (states .anchorRank) anchorDropped
      ((dropMarked (states .inflectionReview) notKept items).map
        (redirect s (states .inflectionReview))))

/-- The items that a session leaves, by these states. -/
def survivingItems (s : PipelineSession) (states : Progress) : List PipelineItem :=
  laterSurvivors s states (dropMarked (states .preprocess) notKept s.processed)

theorem SessionRun.survivors_eq {s : PipelineSession} {f : PipelineFiles} (r : SessionRun s f) :
    r.survivors = survivingItems s r.enriched.states := by
  have hpreprocess : r.enriched.states .preprocess = r.preprocessed.states .preprocess :=
    r.enriched_states_after nofun
  have hreviewed : r.enriched.states .inflectionReview = r.reviewed.states .inflectionReview :=
    r.enriched_states_after nofun
  have hjudged : r.enriched.states .senseJudge = r.judged.states .senseJudge :=
    r.enriched_states_after nofun
  -- the judge adds tags to the anchor entries, and drops none
  have hanchor : (r.enriched.states .anchorRank).marked anchorDropped =
      (r.ranked.states .anchorRank).marked anchorDropped := by
    have henriched : r.enriched.states .anchorRank = _ := r.enriched_states nofun
    have hlabelled : r.labelled.states .anchorRank = _ := r.labelled_states nofun
    have hvectored : r.vectored.states .anchorRank = _ := r.vectored_states nofun
    rw [henriched, hlabelled, hvectored]
    exact congrArg Prod.snd ((keeps_judgeStage _).run r.judge_ok)
  rw [survivingItems, laterSurvivors, hpreprocess, hreviewed, hjudged, dropMarked_congr hanchor]
  rfl

/-! ## The rows -/

section Rows
variable {s : PipelineSession} {states : Progress} {item : PipelineItem} {key : String}

variable (s states item) in
theorem rowsOf_ne_nil : rowsOf s states item ≠ [] := by
  have hpicks : ∀ judged, rowPicks s judged ≠ [] := by
    intro judged
    unfold rowPicks
    split
    · exact List.cons_ne_nil _ _
    · rename_i picks hpicks
      exact fun h => hpicks (by rw [h])
  simp [rowsOf, hpicks]

theorem key_of_mem_rowsOf {row : PrecardRow} (h : row ∈ rowsOf s states item) :
    row.key = item.key := by
  obtain ⟨_, -, rfl⟩ := List.mem_map.mp h
  rfl

theorem lookup_assemble (items : List PipelineItem) :
    (assemble s states items).lookup key =
      (items.find? (·.key = key)).map (rowsOf s states) := by
  have hfold : ∀ precards : Precards, (items.foldl (fun precards item =>
      if (precards.lookup item.key).isSome then precards
      else precards ++ [(item.key, rowsOf s states item)]) precards).lookup key =
      (precards.lookup key).or ((items.find? (·.key = key)).map (rowsOf s states)) := by
    induction items with
    | nil => simp
    | cons item items ih =>
      intro precards
      rw [List.foldl_cons, ih]
      by_cases hkey : item.key = key
      · subst hkey
        cases hlookup : precards.lookup item.key with
        | some rows => simp [hlookup]
        | none => simp [hlookup, List.lookup_append]
      · rw [List.find?_cons_of_neg (by simpa using hkey)]
        split
        · rfl
        · have hother : List.lookup key [(item.key, rowsOf s states item)] = none := by
            simp [List.lookup_cons, beq_false_of_ne (Ne.symm hkey)]
          rw [List.lookup_append, hother, Option.or_none]
  exact hfold []

theorem key_of_mem_getD {precards : Precards}
    (hkeys : ∀ k rows, precards.lookup k = some rows → ∀ row ∈ rows, row.key = k)
    {row : PrecardRow} (hrow : row ∈ (precards.lookup key).getD []) : row.key = key := by
  cases hlookup : precards.lookup key with
  | none =>
    rw [hlookup] at hrow
    cases hrow
  | some rows =>
    rw [hlookup] at hrow
    exact hkeys key rows hlookup row hrow

theorem filter_emitRows {precards : Precards}
    (hkeys : ∀ k rows, precards.lookup k = some rows → ∀ row ∈ rows, row.key = k)
    (items : List PipelineItem) (seen : List String) :
    (emitRows precards seen items).filter (·.key = key) =
      if key ∉ seen ∧ ∃ item ∈ items, item.key = key then (precards.lookup key).getD []
      else [] := by
  induction items generalizing seen with
  | nil => simp [emitRows]
  | cons item items ih =>
    unfold emitRows
    by_cases hseen : item.key ∈ seen
    · rw [if_pos hseen, ih]
      refine if_congr (and_congr_right fun hnot => ?_) rfl rfl
      have hne : item.key ≠ key := fun h => hnot (h ▸ hseen)
      simp [hne]
    · rw [if_neg hseen, List.filter_append, ih]
      by_cases hkey : item.key = key
      · subst hkey
        have hall : ((precards.lookup item.key).getD []).filter (·.key = item.key) =
            (precards.lookup item.key).getD [] :=
          List.filter_eq_self.mpr fun row hrow => decide_eq_true (key_of_mem_getD hkeys hrow)
        rw [hall, if_neg (by simp), List.append_nil, if_pos ⟨hseen, item, by simp, rfl⟩]
      · have hnone : ((precards.lookup item.key).getD []).filter (·.key = key) = [] := by
          refine List.filter_eq_nil_iff.mpr fun row hrow => ?_
          rw [key_of_mem_getD hkeys hrow]
          simpa using hkey
        rw [hnone, List.nil_append]
        refine if_congr (and_congr ?_ ?_) rfl rfl
        · simp [Ne.symm hkey]
        · simp [hkey]

variable (s states key) in
theorem filter_emitRows_assemble (items : List PipelineItem) :
    (emitRows (assemble s states items) [] items).filter (·.key = key) =
      ((items.find? (·.key = key)).map (rowsOf s states)).getD [] := by
  have hkeys : ∀ k rows, (assemble s states items).lookup k = some rows →
      ∀ row ∈ rows, row.key = k := by
    intro k rows hrows row hrow
    rw [lookup_assemble, Option.map_eq_some_iff] at hrows
    obtain ⟨first, hfirst, rfl⟩ := hrows
    have hkey := List.find?_some hfirst
    rw [key_of_mem_rowsOf hrow]
    simpa using hkey
  rw [filter_emitRows hkeys, lookup_assemble]
  cases hfind : items.find? (·.key = key) with
  | none => simp
  | some first =>
    have hmem := List.mem_of_find?_eq_some hfind
    have hkey : first.key = key := by simpa using List.find?_some hfind
    rw [if_pos ⟨List.not_mem_nil, first, hmem, hkey⟩]

theorem find?_key_of_mem {items : List PipelineItem} (h : item ∈ items) :
    ∃ first, items.find? (·.key = item.key) = some first :=
  Option.isSome_iff_exists.mp (List.find?_isSome.mpr ⟨item, h, by simp⟩)

theorem exists_row_of_mem {items : List PipelineItem} (h : item ∈ items) :
    ∃ row ∈ emitRows (assemble s states items) [] items, row.key = item.key := by
  obtain ⟨first, hfirst⟩ := find?_key_of_mem h
  have hrows := filter_emitRows_assemble s states item.key items
  rw [hfirst] at hrows
  obtain ⟨row, hrow⟩ := List.exists_mem_of_ne_nil _ (rowsOf_ne_nil s states first)
  have hmem : row ∈ (emitRows (assemble s states items) [] items).filter (·.key = item.key) := by
    rw [hrows]
    exact hrow
  obtain ⟨hmem, hkey⟩ := List.mem_filter.mp hmem
  exact ⟨row, hmem, by simpa using hkey⟩

theorem first_of_row {items : List PipelineItem} {row : PrecardRow}
    (h : row ∈ emitRows (assemble s states items) [] items) :
    ∃ first, items.find? (·.key = row.key) = some first ∧
      (emitRows (assemble s states items) [] items).filter (·.key = row.key) =
        rowsOf s states first := by
  have hrows := filter_emitRows_assemble s states row.key items
  have hmem : row ∈ (emitRows (assemble s states items) [] items).filter (·.key = row.key) :=
    List.mem_filter.mpr ⟨h, by simp⟩
  cases hfind : items.find? (·.key = row.key) with
  | none =>
    rw [hrows, hfind] at hmem
    cases hmem
  | some first =>
    rw [hfind] at hrows
    exact ⟨first, rfl, hrows⟩

end Rows

/-! ## Every item leaves a trace -/

def keyAfter (s : PipelineSession) (states : Progress) (item : PipelineItem) : String :=
  (redirect s (states .inflectionReview) item).key

/-- A stage has dropped the item, under the key it has there. -/
inductive DropVerdict (s : PipelineSession) (states : Progress) (item : PipelineItem) : Prop
  | preprocess (h : (states .preprocess).marked notKept item.key = true)
  | inflection (h : (states .inflectionReview).marked notKept item.key = true)
  | anchor (h : (states .anchorRank).marked anchorDropped (keyAfter s states item) = true)
  | proper (h : (states .senseJudge).marked properDropped (keyAfter s states item) = true)

def firstWithKey (s : PipelineSession) (states : Progress) (items : List PipelineItem)
    (key : String) : Option PipelineItem :=
  items.find? fun item => !(states .preprocess).marked notKept item.key &&
    !(states .inflectionReview).marked notKept item.key && decide (keyAfter s states item = key)

/-- Each of the items has a drop verdict in the progress or rows in
`precard.jsonl`, and the rows of a key are those of the first item with it. -/
def NothingVanishes (s : PipelineSession) (items : List PipelineItem) (f : PipelineFiles) : Prop :=
  ∃ rows, f.out = some rows ∧
    (∀ item ∈ items, DropVerdict s (progressOf f.dir) item ∨
      ∃ row ∈ rows, row.key = keyAfter s (progressOf f.dir) item) ∧
    ∀ row ∈ rows, ∃ first, firstWithKey s (progressOf f.dir) items row.key = some first ∧
      rows.filter (·.key = row.key) = rowsOf s (progressOf f.dir)
        (redirect s (progressOf f.dir .inflectionReview) first)

section Trace
variable {s : PipelineSession} {states : Progress} {item : PipelineItem} {key : String}

theorem redirect_mem_survivingItems (hitem : item ∈ s.processed) (h : ¬ DropVerdict s states item) :
    redirect s (states .inflectionReview) item ∈ survivingItems s states := by
  have hkept : ∀ {b : Bool}, (b = true → DropVerdict s states item) → b = false := by
    intro b hb
    cases b with
    | false => rfl
    | true => exact absurd (hb rfl) h
  refine mem_dropMarked.mpr ⟨mem_dropMarked.mpr ⟨List.mem_map.mpr ⟨item, ?_, rfl⟩, ?_⟩, ?_⟩
  · exact mem_dropMarked.mpr ⟨mem_dropMarked.mpr ⟨hitem, hkept .preprocess⟩, hkept .inflection⟩
  · exact hkept .anchor
  · exact hkept .proper

theorem find?_survivingItems (hanchor : (states .anchorRank).marked anchorDropped key = false)
    (hproper : (states .senseJudge).marked properDropped key = false) :
    (survivingItems s states).find? (·.key = key) =
      (firstWithKey s states s.processed key).map (redirect s (states .inflectionReview)) := by
  simp only [survivingItems, laterSurvivors, dropMarked, List.find?_filter, List.find?_map, firstWithKey]
  congr 2
  funext item
  by_cases hkey : keyAfter s states item = key
  · have hredirect : (redirect s (states .inflectionReview) item).key = key := hkey
    simp [hkey, hredirect, hanchor, hproper]
  · have hredirect : (redirect s (states .inflectionReview) item).key ≠ key := hkey
    simp [hkey, hredirect]

theorem run_returned (hdry : s.dryRun = false) {f : PipelineFiles} (h : (s.run f).2 = true) :
    (s.run f).1.out = some (emitRows
      (assemble s (progressOf (s.run f).1.dir) (survivingItems s (progressOf (s.run f).1.dir))) []
      (survivingItems s (progressOf (s.run f).1.dir))) := by
  obtain ⟨r, hprogress, hout⟩ := exists_sessionRun hdry h
  rw [hout, hprogress, r.survivors_eq]

end Trace

/-- **No sample item vanishes.**  After any sessions over a progress directory, a
session that returns 0 and is no dry run leaves, for each item it processes, a
drop verdict or rows under the key of the item, and the rows of a key are those of
the first item with it. -/
theorem no_item_vanishes (sessions : List PipelineSession) (s : PipelineSession)
    (f : PipelineFiles) (hdry : s.dryRun = false)
    (hreturns : (s.run (runSessions sessions f)).2 = true) :
    NothingVanishes s s.processed (s.run (runSessions sessions f)).1 := by
  have hout := run_returned hdry hreturns
  generalize (s.run (runSessions sessions f)).1 = left at hout
  generalize hstates : progressOf left.dir = states at hout
  refine ⟨_, hout, fun item hitem => ?_, fun row hrow => ?_⟩
  · rw [hstates]
    exact or_iff_not_imp_left.mpr fun hdrop =>
      exists_row_of_mem (redirect_mem_survivingItems hitem hdrop)
  · rw [hstates]
    obtain ⟨first, hfirst, hrows⟩ := first_of_row hrow
    have hkey : first.key = row.key := by simpa using List.find?_some hfirst
    -- the survivor has passed the last two filters under the key
    obtain ⟨hsurvives, hproper⟩ := mem_dropMarked.mp (List.mem_of_find?_eq_some hfirst)
    have hanchor := (mem_dropMarked.mp hsurvives).2
    rw [hkey] at hproper hanchor
    rw [find?_survivingItems hanchor hproper, Option.map_eq_some_iff] at hfirst
    obtain ⟨item, hitem, rfl⟩ := hfirst
    exact ⟨item, hitem, hrows⟩

/-- Legs that keep every item and find nothing to say of it. -/
def plainLegs (judge : AskJudge) : PipelineLegs where
  classify _ := .ok (.obj [("kept", .bool true)])
  needsReview _ := none
  review := none
  superlativeBase _ := ""
  anchor _ := .ok (.obj [("candidates", .arr []), ("anchor_pos", .str "noun"),
    ("anchor_tags", .arr []), ("xref_unresolvable", .bool false)])
  isNameGloss _ := false
  candidateTags _ _ := none
  judge := judge
  judgeAsync := none
  properRoute _ _ _ := .ok ⟨"", ""⟩
  vectors _ _ _ := { reply := .ok fun _ => none }
  label _ _ _ := { reply := .ok fun _ => some (.obj []) }
  enrichItem _ _ _ := .ok []
  normalizeIdPart := id
  rowFields _ _ := []

def catAndDog (limit : Nat) (judge : AskJudge) : PipelineSession where
  py := PyText.ascii
  lower := id
  samplePath := "sample.json"
  sample := [⟨⟨"word", "cat"⟩, [], .null, .null, ""⟩, ⟨⟨"word", "dog"⟩, [], .null, .null, ""⟩]
  limit := limit
  dryRun := false
  resume := true
  selection := .all
  rekeyed := []
  indexFails := none
  providersFail := none
  legs := plainLegs judge
  hint _ := "wait for quota reset then re-run"
  outFails := none

def noFiles : PipelineFiles where
  dir := { path := "progress_precard", file := fun _ => .missing }
  out := none

/-- A judge that is out of quota, and one that finds no verdict. -/
def limitedJudge : AskJudge := fun _ _ _ => { reply := .error (.rateLimited "429") }

def silentJudge : AskJudge := fun _ _ _ => { reply := .ok fun _ => none }

theorem no_item_vanishes_after_stop :
    NothingVanishes (catAndDog 0 silentJudge) (catAndDog 0 silentJudge).processed
      ((catAndDog 0 silentJudge).run (runSessions [catAndDog 0 limitedJudge] noFiles)).1 :=
  no_item_vanishes [catAndDog 0 limitedJudge] (catAndDog 0 silentJudge) noFiles rfl
    (by decide +kernel)

/-- Of two words a session with a limit of one processes the first. -/
theorem limit_leaves_item_out :
    ((catAndDog 1 silentJudge).run noFiles).2 = true ∧
      ¬ NothingVanishes (catAndDog 1 silentJudge) (catAndDog 1 silentJudge).sample
        ((catAndDog 1 silentJudge).run noFiles).1 := by
  refine ⟨by decide +kernel, ?_⟩
  rintro ⟨rows, hrows, hitems, -⟩
  have hkeys : ((catAndDog 1 silentJudge).run noFiles).1.out.map (·.map (·.key)) =
      some ["w:cat"] := by decide +kernel
  rcases hitems ⟨⟨"word", "dog"⟩, [], .null, .null, ""⟩ (by simp [catAndDog]) with
    hdrop | ⟨row, hrow, hkey⟩
  · cases hdrop with
    | preprocess h => exact absurd h (by decide +kernel)
    | inflection h => exact absurd h (by decide +kernel)
    | anchor h => exact absurd h (by decide +kernel)
    | proper h => exact absurd h (by decide +kernel)
  · rw [hrows] at hkeys
    have hcat : row.key ∈ ["w:cat"] := by
      rw [← Option.some.inj hkeys]
      exact List.mem_map.mpr ⟨row, hrow, rfl⟩
    rw [hkey] at hcat
    exact absurd hcat (by decide +kernel)

end HamZaboon
