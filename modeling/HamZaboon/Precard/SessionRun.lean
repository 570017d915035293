import HamZaboon.Precard.Frames

/-! # A session, stage by stage

The worlds between the stages of a session that comes to its assembly, and which
states are the same in them: each stage writes its own.
-/

namespace HamZaboon
open Library

/-! ## The items of a stage -/

/-- The items that `preprocess` keeps. -/
def keptItems (s : PipelineSession) (w : PipelineWorld) : List PipelineItem :=
  dropMarked (w.states .preprocess) notKept s.processed

/-- The items that the inflection review keeps, redirected. -/
def redirectedItems (s : PipelineSession) (w : PipelineWorld) (items : List PipelineItem) :
    List PipelineItem :=
  (dropMarked (w.states .inflectionReview) notKept items).map
    (redirect s (w.states .inflectionReview))

/-- The items whose anchor is not dropped. -/
def rankedItems (w : PipelineWorld) (items : List PipelineItem) : List PipelineItem :=
  dropMarked (w.states .anchorRank) anchorDropped items

def judgedItems (w : PipelineWorld) (items : List PipelineItem) : List PipelineItem :=
  dropMarked (w.states .senseJudge) properDropped items

/-- A session that comes to its assembly: the progress it loads, and the world
that each stage leaves. -/
structure SessionRun (s : PipelineSession) (f : PipelineFiles) where
  loaded : Progress
  preprocessed : PipelineWorld
  reviewed : PipelineWorld
  ranked : PipelineWorld
  judged : PipelineWorld
  vectored : PipelineWorld
  labelled : PipelineWorld
  enriched : PipelineWorld
  load_ok : f.dir.loadStates s.resume = .ok loaded
  preprocess_ok :
    preprocessStage s s.processed ⟨rekeyStates s loaded, f.dir, f.out⟩ = .ok ⟨⟩ preprocessed
  review_ok : inflectionStage s (keptItems s preprocessed) preprocessed = .ok ⟨⟩ reviewed
  rank_ok : anchorStage s (redirectedItems s reviewed (keptItems s preprocessed)) reviewed =
    .ok ⟨⟩ ranked
  judge_ok : judgeStage s
    (rankedItems ranked (redirectedItems s reviewed (keptItems s preprocessed))) ranked =
      .ok ⟨⟩ judged
  vectors_ok : vectorsStage s (judgedItems judged
    (rankedItems ranked (redirectedItems s reviewed (keptItems s preprocessed)))) judged =
      .ok ⟨⟩ vectored
  label_ok : labelStage s (judgedItems judged
    (rankedItems ranked (redirectedItems s reviewed (keptItems s preprocessed)))) vectored =
      .ok ⟨⟩ labelled
  enrich_ok : enrichStage s (judgedItems judged
    (rankedItems ranked (redirectedItems s reviewed (keptItems s preprocessed)))) labelled =
      .ok ⟨⟩ enriched

namespace SessionRun
variable {s : PipelineSession} {f : PipelineFiles} (r : SessionRun s f)

/-- The states that the stages find: loaded, without the keys to redo. -/
def found : PipelineWorld := ⟨rekeyStates s r.loaded, f.dir, f.out⟩

def itemsAt : Stage → List PipelineItem
  | .preprocess => s.processed
  | .inflectionReview => keptItems s r.preprocessed
  | .anchorRank => redirectedItems s r.reviewed (keptItems s r.preprocessed)
  | .senseJudge => rankedItems r.ranked (redirectedItems s r.reviewed (keptItems s r.preprocessed))
  | .topicVectors | .topicLabel | .enrich => judgedItems r.judged
      (rankedItems r.ranked (redirectedItems s r.reviewed (keptItems s r.preprocessed)))

def survivors : List PipelineItem := r.itemsAt .enrich

def before : Stage → PipelineWorld
  | .preprocess => r.found
  | .inflectionReview => r.preprocessed
  | .anchorRank => r.reviewed
  | .senseJudge => r.ranked
  | .topicVectors => r.judged
  | .topicLabel => r.vectored
  | .enrich => r.labelled

def after : Stage → PipelineWorld
  | .preprocess => r.preprocessed
  | .inflectionReview => r.reviewed
  | .anchorRank => r.ranked
  | .senseJudge => r.judged
  | .topicVectors => r.vectored
  | .topicLabel => r.labelled
  | .enrich => r.enriched

end SessionRun

/-! ## A session that returns -/

def progressOf (d : ProgressDir) : Progress := fun stage => (d.recorded stage).getD {}

section Returns
variable {s : PipelineSession} {w w' : PipelineWorld}

theorem ends_loadProgress (w : PipelineWorld) :
    Ends (loadProgress s) w (fun _ w' => ∃ states, w.dir.loadStates s.resume = .ok states ∧
      w' = ⟨states, w.dir, w.out⟩) fun _ _ => True := by
  apply Ends.bind
  apply Ends.get
  split
  · rename_i states hload
    exact ⟨states, hload, rfl⟩
  · trivial
  · trivial

theorem ends_exitIf {α : Type} {message : Option String} {k : Unit → Pipeline α}
    {Q : α → PipelineWorld → Prop} (h : Ends (k ⟨⟩) w Q fun _ _ => True) :
    Ends (exitIf message >>= k) w Q fun _ _ => True := by
  apply Ends.bind
  have hkeeps : Keeps id (exitIf message) := keeps_exitIf message
  refine (hkeeps w).mono (fun _ w₁ h₁ => ?_) fun _ _ _ => trivial
  obtain rfl : w₁ = w := h₁
  exact h

theorem ends_runLeg {α : Type} (reply : Except LegError α) :
    Ends (runLeg reply) w (fun a w' => reply = .ok a ∧ w' = w) fun _ _ => True := by
  cases reply with
  | ok a => exact Ends.pure ⟨rfl, rfl⟩
  | error e => exact Ends.throw trivial

theorem ends_onInterrupt {α : Type} (stop : PipelineStop) {Q : α → PipelineWorld → Prop} :
    Ends (onInterrupt stop) w Q fun _ _ => True := by
  cases stop with
  | exit message => exact trivial
  | raised e => cases e <;> exact trivial

theorem ends_writeRows {rows : List PrecardRow} {Q : Unit → PipelineWorld → Prop}
    (h : Q ⟨⟩ ⟨w.states, w.dir, some rows⟩) : Ends (writeRows s rows) w Q fun _ _ => True := by
  unfold writeRows
  split
  · exact trivial
  · exact h

theorem ends_laterStages {f : PipelineFiles} {loaded : Progress}
    (load_ok : f.dir.loadStates s.resume = .ok loaded)
    (preprocess_ok :
      preprocessStage s s.processed ⟨rekeyStates s loaded, f.dir, f.out⟩ = .ok ⟨⟩ w) :
    Ends (laterStages s (keptItems s w)) w (fun p w' => ∃ r : SessionRun s f, w' = r.enriched ∧
      p = (r.survivors, assemble s r.enriched.states r.survivors)) fun _ _ => True := by
  unfold laterStages
  apply Ends.bind_run
  intro _ reviewed review_ok
  apply Ends.bind
  apply Ends.get
  apply Ends.bind_run
  intro _ ranked rank_ok
  apply Ends.bind
  apply Ends.get
  apply Ends.bind_run
  intro _ judged judge_ok
  apply Ends.bind
  apply Ends.get
  apply Ends.bind_run
  intro _ vectored vectors_ok
  apply Ends.bind_run
  intro _ labelled label_ok
  apply Ends.bind_run
  intro _ enriched enrich_ok
  apply Ends.bind
  apply Ends.get
  apply Ends.pure
  exact ⟨⟨loaded, w, reviewed, ranked, judged, vectored, labelled, enriched, load_ok,
    preprocess_ok, review_ok, rank_ok, judge_ok, vectors_ok, label_ok, enrich_ok⟩, rfl, rfl⟩

theorem ends_sessionRun (hdry : s.dryRun = false) (f : PipelineFiles) :
    Ends s.main ⟨fun _ => {}, f.dir, f.out⟩ (fun _ w => ∃ r : SessionRun s f,
      (∃ d : ProgressDir, w.dir = d.flush r.enriched.states) ∧
        w.out = some (emitRows (assemble s r.enriched.states r.survivors) [] r.survivors))
      fun _ _ => True := by
  rw [PipelineSession.main, hdry, if_neg Bool.false_ne_true]
  apply Ends.bind
  refine (ends_loadProgress _).mono ?_ fun _ _ _ => trivial
  rintro _ _ ⟨loaded, load_ok, rfl⟩
  apply ends_exitIf
  apply Ends.bind
  apply Ends.modify
  apply Ends.bind
  apply Ends.get
  apply ends_exitIf
  apply ends_exitIf
  apply Ends.bind_run
  intro _ preprocessed preprocess_ok
  apply Ends.bind
  apply Ends.get
  apply ends_exitIf
  apply Ends.bind
  apply Ends.withCleanup
  apply Ends.tryCatch
  refine (ends_laterStages load_ok preprocess_ok).mono ?_ fun stop _ _ => ends_onInterrupt stop
  rintro _ _ ⟨r, rfl, rfl⟩
  exact ends_writeRows ⟨r, ⟨r.enriched.dir, rfl⟩, rfl⟩

theorem exists_sessionRun (hdry : s.dryRun = false) {f : PipelineFiles}
    (hreturns : (s.run f).2 = true) : ∃ r : SessionRun s f,
      progressOf (s.run f).1.dir = r.enriched.states ∧
        (s.run f).1.out =
          some (emitRows (assemble s r.enriched.states r.survivors) [] r.survivors) := by
  have hmain := ends_sessionRun hdry f
  unfold Ends at hmain
  unfold PipelineSession.run at hreturns ⊢
  cases hend : s.main ⟨fun _ => {}, f.dir, f.out⟩ with
  | error stop w =>
    rw [hend] at hreturns
    cases hreturns
  | ok _ w =>
    rw [hend] at hmain
    obtain ⟨r, ⟨d, hdir⟩, hout⟩ := hmain
    have hprogress : progressOf w.dir = r.enriched.states := by
      funext stage
      rw [progressOf, hdir, ProgressDir.recorded_flush, Option.getD_some]
    exact ⟨r, hprogress, hout⟩

end Returns

/-! ## The states between the stages -/

namespace SessionRun
variable {s : PipelineSession} {f : PipelineFiles} (r : SessionRun s f) {stage : Stage}

theorem preprocessed_states (h : stage ≠ .preprocess) :
    r.preprocessed.states stage = r.found.states stage :=
  states_of_statesBut ((keeps_preprocessStage _).run r.preprocess_ok) h

theorem reviewed_states (h : stage ≠ .inflectionReview) :
    r.reviewed.states stage = r.preprocessed.states stage :=
  states_of_statesBut ((keeps_inflectionStage _).run r.review_ok) h

theorem ranked_states (h : stage ≠ .anchorRank) :
    r.ranked.states stage = r.reviewed.states stage :=
  states_of_statesBut ((keeps_anchorStage _).run r.rank_ok) h

theorem judged_states (hjudge : stage ≠ .senseJudge) (hanchor : stage ≠ .anchorRank) :
    r.judged.states stage = r.ranked.states stage :=
  states_of_judgeView ((keeps_judgeStage _).run r.judge_ok) hjudge hanchor

theorem vectored_states (h : stage ≠ .topicVectors) :
    r.vectored.states stage = r.judged.states stage :=
  states_of_statesBut ((keeps_vectorsStage _).run r.vectors_ok) h

theorem labelled_states (h : stage ≠ .topicLabel) :
    r.labelled.states stage = r.vectored.states stage :=
  states_of_statesBut ((keeps_labelStage _).run r.label_ok) h

theorem enriched_states (h : stage ≠ .enrich) :
    r.enriched.states stage = r.labelled.states stage :=
  states_of_statesBut ((keeps_enrichStage _).run r.enrich_ok) h

variable (stage) in
theorem before_states : (r.before stage).states stage = r.found.states stage := by
  have hreviewed : stage ≠ .preprocess → stage ≠ .inflectionReview →
      r.reviewed.states stage = r.found.states stage := fun hpreprocess hreview =>
    (r.reviewed_states hreview).trans (r.preprocessed_states hpreprocess)
  have hranked : stage ≠ .preprocess → stage ≠ .inflectionReview → stage ≠ .anchorRank →
      r.ranked.states stage = r.found.states stage := fun hpreprocess hreview hanchor =>
    (r.ranked_states hanchor).trans (hreviewed hpreprocess hreview)
  have hjudged : stage ≠ .preprocess → stage ≠ .inflectionReview → stage ≠ .anchorRank →
      stage ≠ .senseJudge → r.judged.states stage = r.found.states stage :=
    fun hpreprocess hreview hanchor hjudge =>
      (r.judged_states hjudge hanchor).trans (hranked hpreprocess hreview hanchor)
  cases stage with
  | preprocess => rfl
  | inflectionReview =>
    have hpreprocessed : r.preprocessed.states .inflectionReview = _ := r.preprocessed_states nofun
    exact hpreprocessed
  | anchorRank => exact hreviewed nofun nofun
  | senseJudge => exact hranked nofun nofun nofun
  | topicVectors => exact hjudged nofun nofun nofun nofun
  | topicLabel =>
    have hvectored : r.vectored.states .topicLabel = _ := r.vectored_states nofun
    exact hvectored.trans (hjudged nofun nofun nofun nofun)
  | enrich =>
    have hvectored : r.vectored.states .enrich = _ := r.vectored_states nofun
    have hlabelled : r.labelled.states .enrich = _ := r.labelled_states nofun
    exact hlabelled.trans (hvectored.trans (hjudged nofun nofun nofun nofun))

theorem enriched_states_after (h : stage ≠ .anchorRank) :
    r.enriched.states stage = (r.after stage).states stage := by
  have hjudged : stage ≠ .topicVectors → stage ≠ .topicLabel → stage ≠ .enrich →
      r.enriched.states stage = r.judged.states stage := fun hvectors hlabel henrich =>
    (r.enriched_states henrich).trans ((r.labelled_states hlabel).trans (r.vectored_states hvectors))
  have hranked : stage ≠ .topicVectors → stage ≠ .topicLabel → stage ≠ .enrich →
      stage ≠ .senseJudge → r.enriched.states stage = r.ranked.states stage :=
    fun hvectors hlabel henrich hjudge =>
      (hjudged hvectors hlabel henrich).trans (r.judged_states hjudge h)
  cases stage with
  | preprocess =>
    have hreviewed : r.reviewed.states .preprocess = _ := r.reviewed_states nofun
    have hsame : r.ranked.states .preprocess = _ := r.ranked_states nofun
    exact (hranked nofun nofun nofun nofun).trans (hsame.trans hreviewed)
  | inflectionReview =>
    have hsame : r.ranked.states .inflectionReview = _ := r.ranked_states nofun
    exact (hranked nofun nofun nofun nofun).trans hsame
  | anchorRank => exact absurd rfl h
  | senseJudge => exact hjudged nofun nofun nofun
  | topicVectors =>
    have hlabelled : r.labelled.states .topicVectors = _ := r.labelled_states nofun
    have henriched : r.enriched.states .topicVectors = _ := r.enriched_states nofun
    exact henriched.trans hlabelled
  | topicLabel =>
    have henriched : r.enriched.states .topicLabel = _ := r.enriched_states nofun
    exact henriched
  | enrich => rfl

theorem mem_itemsAt_of_survivor {item : PipelineItem} (h : item ∈ r.survivors)
    (hstage : stage ≠ .preprocess) (hreview : stage ≠ .inflectionReview) :
    item ∈ r.itemsAt stage := by
  have hranked : item ∈ r.itemsAt .senseJudge := (mem_dropMarked.mp h).1
  cases stage with
  | preprocess => exact absurd rfl hstage
  | inflectionReview => exact absurd rfl hreview
  | anchorRank => exact (mem_dropMarked.mp hranked).1
  | senseJudge => exact hranked
  | topicVectors => exact h
  | topicLabel => exact h
  | enrich => exact h

end SessionRun

end HamZaboon
