import HamZaboon.Precard.Coverage
import HamZaboon.Precard.DroppedKeys
import HamZaboon.Precard.SessionRun

/-! # Entries that are computed again

A stage computes the entries that its items lack and those that are of an older
version.  Keys to redo lose their entries in the selected stages and downstream of
these (`_DOWNSTREAM`), so nothing built on the old entries is left.  An entry that
is missing, or old, is computed again with no such eviction, and an item that the
inflection review redirects carries another key than the one to redo
(`recomputed_iff`).
-/

namespace HamZaboon
open Library

theorem SessionRun.covers {s : PipelineSession} {f : PipelineFiles} (r : SessionRun s f)
    {stage : Stage} (hselected : s.selection.selected stage = true) :
    Covers stage (r.itemsAt stage) (r.after stage) := by
  have hends : ∀ {m : Pipeline Unit} {w w' : PipelineWorld} {items : List PipelineItem},
      Ends m w (fun _ w' => Covers stage items w') (fun _ _ => True) → m w = .ok ⟨⟩ w' →
        Covers stage items w' := by
    intro m w w' items h hm
    unfold Ends at h
    rwa [hm] at h
  cases stage with
  | preprocess => exact hends (covers_preprocessStage hselected) r.preprocess_ok
  | inflectionReview => exact hends (covers_inflectionStage hselected) r.review_ok
  | anchorRank => exact hends (covers_anchorStage hselected) r.rank_ok
  | senseJudge => exact hends (covers_judgeStage hselected) r.judge_ok
  | topicVectors => exact hends (covers_vectorsStage hselected) r.vectors_ok
  | topicLabel => exact hends (covers_labelStage hselected) r.label_ok
  | enrich => exact hends (covers_enrichStage hselected) r.enrich_ok

/-! ## What is computed again -/

/-- A stage comes after another one. -/
def Stage.Later (stage later : Stage) : Prop := Stage.all.idxOf stage < Stage.all.idxOf later

instance (stage later : Stage) : Decidable (stage.Later later) :=
  inferInstanceAs (Decidable (_ < _))

theorem mem_downstream_iff {stage later : Stage} : later ∈ stage.downstream ↔
    stage ≠ .preprocess ∧ stage ≠ .inflectionReview ∧ stage.Later later := by
  cases stage <;> cases later <;> decide

theorem anchor_later {stage later : Stage} (hpreprocess : stage ≠ .preprocess)
    (hreview : stage ≠ .inflectionReview) (h : stage.Later later) :
    Stage.anchorRank.Later later := by
  have hstage : Stage.all.idxOf Stage.anchorRank ≤ Stage.all.idxOf stage := by
    revert hpreprocess hreview
    cases stage <;> decide
  exact Nat.lt_of_le_of_lt hstage h

/-- The test by which a stage computes an entry: it is missing, or old. -/
def recomputes (s : PipelineSession) (stage : Stage) (entry judged : Option JsonValue) : Bool :=
  match stage with
  | .anchorRank => needsRank s entry
  | .topicLabel => entry.isNone || needsFanout s entry judged
  | .enrich => needsEnrich s entry judged
  | _ => entry.isNone

namespace SessionRun
variable {s : PipelineSession} {f : PipelineFiles} (r : SessionRun s f) {stage later : Stage}
  {key : String}

/-- The stage computes the entry of the key, and has it after it. -/
structure Recomputed (stage : Stage) (key : String) : Prop where
  selected : s.selection.selected stage = true
  item : ∃ item ∈ r.itemsAt stage, item.key = key
  due : recomputes s stage (((r.before stage).states stage).entry key)
    (((r.before stage).states .senseJudge).entry key) = true
  there : (((r.after stage).states stage).entry key).isSome = true

/-- An entry that the stage has after it is one of this session: it was not there,
or it is computed again. -/
def Fresh (stage : Stage) (key : String) : Prop :=
  ((r.before stage).states stage).entry key = none ∨ r.Recomputed stage key

def carried (stage : Stage) (item : PipelineItem) : PipelineItem :=
  match stage with
  | .preprocess | .inflectionReview => item
  | _ => redirect s (r.reviewed.states .inflectionReview) item

/-- What is built on a computed entry is computed after it, and an item to redo is
computed again in each selected stage it comes to. -/
structure Invalidates : Prop where
  built : ∀ item ∈ r.survivors, ∀ stage later, stage ≠ .preprocess → stage ≠ .inflectionReview →
    stage.Later later → r.Recomputed stage item.key →
      ((r.enriched.states later).entry item.key).isSome = true → r.Fresh later item.key
  redone : ∀ item ∈ s.processed, item.key ∈ s.rekeyed → ∀ stage,
    s.selection.selected stage = true → r.carried stage item ∈ r.itemsAt stage →
      r.Recomputed stage (r.carried stage item).key

def judgedEntry (key : String) : Option JsonValue := (r.enriched.states .senseJudge).entry key

/-- Of the progress that is loaded: no key that is not to be redone has an entry
that is missing or old while a later stage keeps its own, and no item to redo comes
by a redirect to a key with an entry that a selected stage keeps. -/
structure UpToDate : Prop where
  built : ∀ item ∈ r.survivors, item.key ∉ s.rekeyed → ∀ stage later, stage ≠ .preprocess →
    stage ≠ .inflectionReview → stage.Later later → s.selection.selected stage = true →
      recomputes s stage ((r.loaded stage).entry item.key) (r.judgedEntry item.key) = true →
        (r.loaded later).entry item.key = none ∨ s.selection.selected later = true ∧
          recomputes s later ((r.loaded later).entry item.key) (r.judgedEntry item.key) = true
  redirected : ∀ item ∈ s.processed, item.key ∈ s.rekeyed → ∀ stage,
    s.selection.selected stage = true → r.carried stage item ∈ r.itemsAt stage →
      (r.carried stage item).key ∉ s.rekeyed →
        recomputes s stage ((r.loaded stage).entry (r.carried stage item).key)
          (r.judgedEntry (r.carried stage item).key) = true

/-! ### What a stage finds -/

theorem found_entry (h : key ∉ s.rekeyed) :
    (r.found.states stage).entry key = (r.loaded stage).entry key := by
  change ((rekeyStates s r.loaded) stage).entry key = _
  unfold rekeyStates
  split
  · exact StageState.entry_evict_of_notMem _ _ h
  · rfl

theorem found_entry_of_rekeyed (h : key ∈ s.rekeyed)
    (hstage : s.selection.selected stage = true ∨
      ∃ up, s.selection.selected up = true ∧ stage ∈ up.downstream) :
    (r.found.states stage).entry key = none := by
  change ((rekeyStates s r.loaded) stage).entry key = _
  unfold rekeyStates
  rw [if_pos]
  · exact StageState.entry_evict _ _ h
  · rcases hstage with hselected | ⟨up, hselected, hdown⟩
    · exact .inl hselected
    · refine .inr (List.any_eq_true.mpr ⟨up, Stage.mem_all up, ?_⟩)
      rw [hselected, Bool.true_and]
      exact decide_eq_true hdown

theorem recomputes_before (entry : Option JsonValue) :
    recomputes s stage entry (((r.before stage).states .senseJudge).entry key) =
      recomputes s stage entry (r.judgedEntry key) := by
  have hlabelled : r.enriched.states .senseJudge = r.labelled.states .senseJudge :=
    r.enriched_states nofun
  have hvectored : r.labelled.states .senseJudge = r.vectored.states .senseJudge :=
    r.labelled_states nofun
  cases stage with
  | topicLabel =>
    rw [judgedEntry, hlabelled, hvectored]
    rfl
  | enrich =>
    rw [judgedEntry, hlabelled]
    rfl
  | _ => rfl

theorem recomputes_of_none (judged : Option JsonValue) : recomputes s stage none judged = true := by
  cases stage <;> rfl

theorem recomputed_iff_found : r.Recomputed stage key ↔ s.selection.selected stage = true ∧
    (∃ item ∈ r.itemsAt stage, item.key = key) ∧
      recomputes s stage ((r.found.states stage).entry key) (r.judgedEntry key) = true := by
  constructor
  · rintro ⟨hselected, hitem, hdue, -⟩
    rw [r.recomputes_before, r.before_states] at hdue
    exact ⟨hselected, hitem, hdue⟩
  · rintro ⟨hselected, ⟨item, hitem, rfl⟩, hdue⟩
    refine ⟨hselected, ⟨item, hitem, rfl⟩, ?_, r.covers hselected item hitem⟩
    rwa [r.recomputes_before, r.before_states]

theorem isSome_enriched (hstage : Stage.anchorRank.Later stage)
    (h : ((r.found.states stage).entry key).isSome = true) :
    ((r.enriched.states stage).entry key).isSome = true := by
  have hgrows : Grows stage (r.before stage) (r.after stage) := by
    cases stage with
    | preprocess => exact absurd hstage (by decide)
    | inflectionReview => exact absurd hstage (by decide)
    | anchorRank => exact absurd hstage (by decide)
    | senseJudge => exact (grows_judgeStage _).run r.judge_ok
    | topicVectors => exact (grows_vectorsStage _).run r.vectors_ok
    | topicLabel => exact (grows_labelStage _).run r.label_ok
    | enrich => exact (grows_enrichStage _).run r.enrich_ok
  have hanchor : stage ≠ .anchorRank := by
    rintro rfl
    exact absurd hstage (by decide)
  rw [r.enriched_states_after hanchor]
  refine hgrows key ?_
  rwa [r.before_states]

theorem Invalidates.upToDate (h : r.Invalidates) : r.UpToDate := by
  refine ⟨fun item hitem hkey stage later hpreprocess hreview hlater hselected hdue => ?_,
    fun item hitem hkey stage hselected hcarried hother => ?_⟩
  · refine or_iff_not_imp_left.mpr fun hsome => ?_
    have hcomputed : r.Recomputed stage item.key := by
      refine r.recomputed_iff_found.mpr ⟨hselected,
        ⟨item, r.mem_itemsAt_of_survivor hitem hpreprocess hreview, rfl⟩, ?_⟩
      rwa [r.found_entry hkey]
    rw [← r.found_entry hkey] at hsome ⊢
    have hafter := r.isSome_enriched (anchor_later hpreprocess hreview hlater)
      (Option.isSome_iff_ne_none.mpr hsome)
    rcases h.built item hitem stage later hpreprocess hreview hlater hcomputed hafter with
      hnone | hagain
    · rw [r.before_states] at hnone
      exact absurd hnone hsome
    · obtain ⟨hselected, -, hdue⟩ := r.recomputed_iff_found.mp hagain
      exact ⟨hselected, hdue⟩
  · obtain ⟨-, -, hdue⟩ :=
      r.recomputed_iff_found.mp (h.redone item hitem hkey stage hselected hcarried)
    rwa [r.found_entry hother] at hdue

theorem UpToDate.fresh (h : r.UpToDate) {item : PipelineItem} (hitem : item ∈ r.survivors)
    (hpreprocess : stage ≠ .preprocess) (hreview : stage ≠ .inflectionReview)
    (hlater : stage.Later later) (hcomputed : r.Recomputed stage item.key) :
    r.Fresh later item.key := by
  obtain ⟨hselected, -, hdue⟩ := r.recomputed_iff_found.mp hcomputed
  by_cases hkey : item.key ∈ s.rekeyed
  · -- the eviction has taken everything downstream
    left
    rw [r.before_states]
    exact r.found_entry_of_rekeyed hkey
      (.inr ⟨stage, hselected, mem_downstream_iff.mpr ⟨hpreprocess, hreview, hlater⟩⟩)
  · rw [r.found_entry hkey] at hdue
    rcases h.built item hitem hkey stage later hpreprocess hreview hlater hselected hdue with
      hnone | ⟨hselectedLater, hdueLater⟩
    · left
      rwa [r.before_states, r.found_entry hkey]
    · right
      refine r.recomputed_iff_found.mpr ⟨hselectedLater, ⟨item, ?_, rfl⟩, ?_⟩
      · have hanchor := anchor_later hpreprocess hreview hlater
        refine r.mem_itemsAt_of_survivor hitem ?_ ?_
        · rintro rfl
          exact absurd hanchor (by decide)
        · rintro rfl
          exact absurd hanchor (by decide)
      · rwa [r.found_entry hkey]

/-- **What is computed again.** -/
theorem invalidates_iff_upToDate : r.Invalidates ↔ r.UpToDate := by
  refine ⟨Invalidates.upToDate r, fun h => ⟨fun item hitem stage later hpreprocess hreview hlater
    hcomputed _ => h.fresh r hitem hpreprocess hreview hlater hcomputed,
    fun item hitem hkey stage hselected hcarried => ?_⟩⟩
  refine r.recomputed_iff_found.mpr ⟨hselected, ⟨_, hcarried, rfl⟩, ?_⟩
  by_cases hother : (r.carried stage item).key ∈ s.rekeyed
  · rw [r.found_entry_of_rekeyed hother (.inl hselected)]
    exact recomputes_of_none _
  · rw [r.found_entry hother]
    exact h.redirected item hitem hkey stage hselected hcarried hother

end SessionRun

/-- **Exactly the loaded progress decides what is left stale.**  A session that
returns computes anew whatever is built on an entry it computes, and what it is to
redo, where no loaded entry is in the way. -/
theorem recomputed_iff (s : PipelineSession) (f : PipelineFiles) (hdry : s.dryRun = false)
    (hreturns : (s.run f).2 = true) :
    ∃ r : SessionRun s f, progressOf (s.run f).1.dir = r.enriched.states ∧
      (s.run f).1.out =
        some (emitRows (assemble s r.enriched.states r.survivors) [] r.survivors) ∧
      (r.Invalidates ↔ r.UpToDate) := by
  obtain ⟨r, hprogress, hout⟩ := exists_sessionRun hdry hreturns
  exact ⟨r, hprogress, hout, r.invalidates_iff_upToDate⟩

theorem loaded_noFiles {s : PipelineSession} (r : SessionRun s noFiles) (stage : Stage) :
    r.loaded stage = {} := by
  have hload := ProgressDir.loadStates_eq_ok.mp r.load_ok stage
  cases stage <;> cases hresume : s.resume <;> rw [hresume] at hload <;>
    exact (Except.ok.inj hload).symm

/-- Nothing is loaded by the first session. -/
theorem recomputed_first : ∃ r : SessionRun (catAndDog 0 silentJudge) noFiles, r.Invalidates := by
  obtain ⟨r, -, -, hiff⟩ := recomputed_iff (catAndDog 0 silentJudge) noFiles rfl (by decide +kernel)
  refine ⟨r, hiff.mpr ⟨fun item _ _ stage later _ _ _ _ _ => ?_, nofun⟩⟩
  rw [loaded_noFiles]
  exact .inl rfl

/-- A session whose anchor entries are of a version without tags. -/
def tagless : PipelineSession :=
  { catAndDog 0 silentJudge with
    legs := { plainLegs silentJudge with
      anchor := fun _ => .ok (.obj [("candidates", .arr []), ("anchor_pos", .str "noun")]) } }

/-- The words are ranked again, and what was judged by the old ranks is kept. -/
theorem ranked_again_judged_before :
    ((catAndDog 0 silentJudge).run (runSessions [tagless] noFiles)).2 = true ∧
      ∃ r : SessionRun (catAndDog 0 silentJudge) (runSessions [tagless] noFiles),
        ¬ r.Invalidates := by
  have hreturns : ((catAndDog 0 silentJudge).run (runSessions [tagless] noFiles)).2 = true := by
    decide +kernel
  obtain ⟨r, -, hout⟩ := exists_sessionRun rfl hreturns
  refine ⟨hreturns, r, fun hinvalidates => ?_⟩
  -- the cat survives
  have hkeys : ((catAndDog 0 silentJudge).run (runSessions [tagless] noFiles)).1.out.map
      (·.map (·.key)) = some ["w:cat", "w:dog"] := by decide +kernel
  rw [hout] at hkeys
  obtain ⟨row, hrow, hcat⟩ : ∃ row ∈ emitRows (assemble (catAndDog 0 silentJudge)
      r.enriched.states r.survivors) [] r.survivors, row.key = "w:cat" := by
    have hmem : "w:cat" ∈ ["w:cat", "w:dog"] := List.mem_cons_self
    rw [← Option.some.inj hkeys] at hmem
    exact List.mem_map.mp hmem
  obtain ⟨cat, hfind, -⟩ := first_of_row hrow
  have hkey : cat.key = "w:cat" := by simpa [hcat] using List.find?_some hfind
  -- it has an old anchor entry and a judge's entry
  have hload := ProgressDir.loadStates_eq_ok.mp r.load_ok
  have hold : needsRank (catAndDog 0 silentJudge) ((r.loaded .anchorRank).entry "w:cat") = true := by
    have hdecide : ((runSessions [tagless] noFiles).dir.loadStage true .anchorRank).toOption.any
        (fun st => needsRank (catAndDog 0 silentJudge) (st.entry "w:cat")) = true := by
      decide +kernel
    have hanchor : (runSessions [tagless] noFiles).dir.loadStage true .anchorRank = _ :=
      hload .anchorRank
    rwa [hanchor] at hdecide
  have hjudged : ((r.loaded .senseJudge).entry "w:cat").isSome = true := by
    have hdecide : ((runSessions [tagless] noFiles).dir.loadStage true .senseJudge).toOption.any
        (fun st => (st.entry "w:cat").isSome) = true := by
      decide +kernel
    have hjudge : (runSessions [tagless] noFiles).dir.loadStage true .senseJudge = _ :=
      hload .senseJudge
    rwa [hjudge] at hdecide
  have hbuilt := (r.invalidates_iff_upToDate.mp hinvalidates).built cat
    (List.mem_of_find?_eq_some hfind) nofun .anchorRank .senseJudge nofun nofun (by decide) rfl
  rw [hkey] at hbuilt
  rcases hbuilt hold with hnone | ⟨-, hdue⟩
  · rw [hnone] at hjudged
    cases hjudged
  · have hnone : ((r.loaded .senseJudge).entry "w:cat").isNone = true := hdue
    rw [Option.isNone_iff_eq_none] at hnone
    rw [hnone] at hjudged
    cases hjudged

end HamZaboon
