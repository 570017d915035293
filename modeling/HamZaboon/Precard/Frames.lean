import HamZaboon.Precard.Pipeline

/-! # What the stages leave alone

Each stage writes its own state, but for the tags that the judge adds to anchor
entries.
-/

namespace HamZaboon
open Library

def statesBut (stage : Stage) (w : PipelineWorld) : Progress :=
  fun t => if t = stage then {} else w.states t

/-- What the judge leaves alone: the states of the other stages, and which anchor
entries are dropped. -/
def judgeView (w : PipelineWorld) : Progress × (String → Bool) :=
  (fun t => if t = .senseJudge ∨ t = .anchorRank then {} else w.states t,
    (w.states .anchorRank).marked anchorDropped)

section Frames
variable {γ : Type} {view : PipelineWorld → γ} {s : PipelineSession} {stage : Stage}

theorem keeps_flushNow (h : ∀ w, view (flushStates w) = view w) : Keeps view flushNow :=
  Keeps.modify h

theorem keeps_runLeg {α : Type} (reply : Except LegError α) : Keeps view (runLeg reply) := by
  cases reply with
  | ok a => exact Keeps.pure a
  | error e => exact Keeps.throw _

theorem keeps_requireDicts (stage : Stage) : Keeps view (requireDicts stage) := by
  apply Keeps.bind Keeps.get
  intro w
  apply Keeps.ite (Keeps.pure _)
  exact Keeps.throw _

theorem keeps_exitIf (message : Option String) : Keeps view (exitIf message) := by
  cases message with
  | none => exact Keeps.pure _
  | some message => exact Keeps.throw _

theorem keeps_callLeg {α : Type} {tag : String} {batchNo : Nat} {call : LegCall α}
    (hflush : ∀ w, view (flushStates w) = view w)
    (hupdate : ∀ f, Keeps view (updateState stage f)) :
    Keeps view (callLeg s stage tag batchNo call) := by
  apply Keeps.bind (hupdate _)
  intro _
  cases call.reply with
  | ok a => exact Keeps.pure a
  | error e =>
    cases e with
    | rateLimited text =>
      apply Keeps.bind (keeps_flushNow hflush)
      exact fun _ => Keeps.throw _
    | auth text => exact Keeps.throw _
    | other name => exact Keeps.throw _
    | interrupted => exact Keeps.throw _

theorem keeps_overBatches {width : Nat} {items : List PipelineItem}
    {body : Nat → List PipelineItem → Pipeline Unit}
    (hflush : ∀ w, view (flushStates w) = view w) (hbody : ∀ n batch, Keeps view (body n batch)) :
    Keeps view (overBatches s stage width items body) := by
  apply Keeps.forM
  rintro ⟨batchNo, batch⟩ -
  apply Keeps.bind (hbody batchNo batch)
  exact fun _ => keeps_flushNow hflush

theorem statesBut_flush (stage : Stage) (w : PipelineWorld) :
    statesBut stage (flushStates w) = statesBut stage w := rfl

theorem keeps_updateState (stage : Stage) (f : StageState → StageState) :
    Keeps (statesBut stage) (updateState stage f) := by
  refine Keeps.modify fun w => funext fun t => ?_
  unfold statesBut
  split
  · rfl
  · rename_i hne
    exact Function.update_of_ne hne _ _

theorem keeps_stage {width : Nat} {items : List PipelineItem}
    {body : Nat → List PipelineItem → Pipeline Unit}
    (hbody : ∀ n batch, Keeps (statesBut stage) (body n batch)) :
    Keeps (statesBut stage) (overBatches s stage width items body) :=
  keeps_overBatches (statesBut_flush stage) hbody

theorem keeps_call {α : Type} {tag : String} {batchNo : Nat} {call : LegCall α} :
    Keeps (statesBut stage) (callLeg s stage tag batchNo call) :=
  keeps_callLeg (statesBut_flush stage) (keeps_updateState stage)

theorem keeps_preprocessStage (items : List PipelineItem) :
    Keeps (statesBut .preprocess) (preprocessStage s items) := by
  apply Keeps.bind (keeps_stage fun _ batch => Keeps.forM fun item _ => ?_) fun _ =>
    keeps_requireDicts _
  apply Keeps.bind Keeps.get
  intro w
  refine Keeps.ite ?_ (Keeps.pure _)
  apply Keeps.bind (keeps_runLeg _)
  intro verdict
  apply Keeps.bind (keeps_updateState _ _)
  exact fun _ => Keeps.ite (Keeps.pure _) (keeps_updateState _ _)

theorem keeps_recordReview (verdicts : String → Option ReviewVerdict) (entry : ReviewEntry) :
    Keeps (statesBut .inflectionReview) (recordReview s verdicts entry) := by
  unfold recordReview
  exact keeps_updateState _ _

theorem keeps_inflectionStage (items : List PipelineItem) :
    Keeps (statesBut .inflectionReview) (inflectionStage s items) := by
  apply Keeps.bind (keeps_stage fun batchNo batch => ?_) fun _ => keeps_requireDicts _
  apply Keeps.bind Keeps.get
  intro w
  apply Keeps.bind (Keeps.forM fun _ _ => keeps_updateState _ _)
  intro _
  apply Keeps.ite (Keeps.pure _)
  split
  · apply Keeps.bind keeps_call
    intro verdicts
    exact Keeps.forM fun entry _ => keeps_recordReview verdicts entry
  · exact Keeps.forM fun _ _ => keeps_updateState _ _

theorem keeps_anchorStage (items : List PipelineItem) :
    Keeps (statesBut .anchorRank) (anchorStage s items) := by
  refine keeps_stage fun _ batch => Keeps.forM fun item _ => ?_
  apply Keeps.bind Keeps.get
  intro w
  refine Keeps.ite ?_ (Keeps.pure _)
  split
  · exact keeps_updateState _ _
  · exact Keeps.throw _
  · exact keeps_updateState _ _

theorem keeps_vectorsStage (items : List PipelineItem) :
    Keeps (statesBut .topicVectors) (vectorsStage s items) := by
  apply Keeps.bind (keeps_stage fun batchNo batch => ?_) fun _ => keeps_requireDicts _
  apply Keeps.bind Keeps.get
  intro w
  apply Keeps.ite (Keeps.pure _)
  apply Keeps.bind keeps_call
  intro vecs
  refine Keeps.forM fun item _ => ?_
  apply Keeps.bind Keeps.get
  exact fun _ => keeps_updateState _ _

theorem keeps_labelStage (items : List PipelineItem) :
    Keeps (statesBut .topicLabel) (labelStage s items) := by
  refine keeps_stage fun batchNo batch => ?_
  apply Keeps.bind Keeps.get
  intro w
  apply Keeps.ite (Keeps.pure _)
  apply Keeps.bind keeps_call
  intro assigned
  refine Keeps.forM fun item _ => ?_
  unfold recordLabel
  split
  · exact keeps_updateState _ _
  · exact Keeps.throw _

theorem keeps_enrichStage (items : List PipelineItem) :
    Keeps (statesBut .enrich) (enrichStage s items) := by
  refine keeps_stage fun _ batch => Keeps.forM fun item _ => ?_
  apply Keeps.bind Keeps.get
  intro w
  refine Keeps.ite ?_ (Keeps.pure _)
  apply Keeps.bind (keeps_runLeg _)
  intro primary
  apply Keeps.bind (keeps_runLeg _)
  exact fun extras => keeps_updateState _ _

/-! ### The judge -/

theorem keeps_updateJudge (f : StageState → StageState) :
    Keeps judgeView (updateState .senseJudge f) := by
  refine Keeps.modify fun w => Prod.ext (funext fun t => ?_) rfl
  unfold judgeView
  by_cases ht : t = .senseJudge ∨ t = .anchorRank
  · simp only [ht, if_true]
  · simp only [ht, if_false]
    exact Function.update_of_ne (fun h => ht (Or.inl h)) _ _

theorem lookup_tagCandidates (item : PipelineItem) (e : Dict) :
    (tagCandidates s item e).lookup "dropped" = e.lookup "dropped" := by
  unfold tagCandidates
  split
  · split
    · rw [Dict.lookup_set, if_neg (by decide)]
    · rfl
  · rfl

theorem anchorDropped_tagEntry (item : PipelineItem) (entry : JsonValue) :
    anchorDropped (tagEntry s item entry) = anchorDropped entry := by
  cases entry with
  | obj e =>
    simp only [tagEntry]
    by_cases hbackfill : needsTagBackfill (.obj e) = true
    · rw [if_pos hbackfill]
      simp only [anchorDropped, isDict, field, Dict.get, lookup_tagCandidates]
    · rw [if_neg hbackfill]
  | _ => rfl

theorem keeps_backfillTags (item : PipelineItem) : Keeps judgeView (backfillTags s item) := by
  refine Keeps.modify fun w => Prod.ext (funext fun t => ?_) (funext fun key => ?_)
  · unfold judgeView
    by_cases ht : t = .senseJudge ∨ t = .anchorRank
    · simp only [ht, if_true]
    · simp only [ht, if_false]
      exact Function.update_of_ne (fun h => ht (Or.inr h)) _ _
  · simp only [judgeView, Function.update_self]
    cases hentry : (w.states .anchorRank).entry item.key with
    | none => rfl
    | some entry =>
      simp only [StageState.marked, StageState.entry, StageState.put, Dict.lookup_set] at hentry ⊢
      by_cases hkey : key = item.key
      · rw [if_pos hkey, hkey, hentry, Option.any_some, Option.any_some, anchorDropped_tagEntry]
      · rw [if_neg hkey]

theorem judgeView_flush (w : PipelineWorld) : judgeView (flushStates w) = judgeView w := rfl

theorem keeps_judgeAhead (items : List PipelineItem) : Keeps judgeView (judgeAhead s items) := by
  unfold judgeAhead
  split
  · exact Keeps.pure _
  · apply Keeps.bind Keeps.get
    intro w
    apply Keeps.bind (Keeps.forM fun u _ => Keeps.forM fun item _ => keeps_backfillTags item)
    intro _
    apply Keeps.bind Keeps.get
    intro w'
    apply Keeps.bind (Keeps.forM fun mapping _ => ?_)
    · intro _
      apply Keeps.bind (keeps_runLeg _)
      rintro ⟨maps, terminal⟩
      apply Keeps.bind (Keeps.forM fun m _ => keeps_updateJudge _)
      exact fun _ => Keeps.pure _
    · apply Keeps.bind (keeps_updateJudge _)
      exact fun _ => keeps_flushNow judgeView_flush

theorem keeps_judgeOneBatch (ask : AskJudge) (batchNo : Nat) (batch : List PipelineItem) :
    Keeps judgeView (judgeOneBatch s ask batchNo batch) := by
  apply Keeps.bind Keeps.get
  intro w
  apply Keeps.ite (Keeps.pure _)
  apply Keeps.bind (Keeps.forM fun item _ => keeps_backfillTags item)
  intro _
  apply Keeps.bind Keeps.get
  intro w'
  apply Keeps.bind (keeps_callLeg judgeView_flush keeps_updateJudge)
  intro verdicts
  refine Keeps.forM fun item _ => ?_
  apply Keeps.bind Keeps.get
  exact fun _ => keeps_updateJudge _

theorem keeps_properPass (items : List PipelineItem) : Keeps judgeView (properPass s items) := by
  apply Keeps.bind Keeps.get
  intro w
  apply Keeps.bind (Keeps.forM fun item _ => ?_)
  · intro _
    exact Keeps.ite (keeps_flushNow judgeView_flush) (Keeps.pure _)
  · apply Keeps.bind Keeps.get
    intro w'
    refine Keeps.ite ?_ (Keeps.pure _)
    apply Keeps.bind (keeps_runLeg _)
    exact fun verdict => keeps_updateJudge _

theorem keeps_judgeStage (items : List PipelineItem) : Keeps judgeView (judgeStage s items) := by
  apply Keeps.bind (keeps_judgeAhead items)
  intro ask
  apply Keeps.bind (keeps_overBatches judgeView_flush (keeps_judgeOneBatch ask))
  intro _
  apply Keeps.bind (keeps_requireDicts _)
  exact fun _ => keeps_properPass items

end Frames

section Same
variable {w w' : PipelineWorld} {stage t : Stage}

theorem states_of_statesBut (h : statesBut stage w' = statesBut stage w) (ht : t ≠ stage) :
    w'.states t = w.states t := by
  have := congrFun h t
  simpa only [statesBut, ht, if_false] using this

theorem states_of_judgeView (h : judgeView w' = judgeView w) (hjudge : t ≠ .senseJudge)
    (hanchor : t ≠ .anchorRank) : w'.states t = w.states t := by
  have := congrFun (congrArg Prod.fst h) t
  simpa only [judgeView, hjudge, hanchor, or_self, if_false] using this

theorem dropMarked_congr {a b : StageState} {p : JsonValue → Bool} (h : a.marked p = b.marked p)
    (items : List PipelineItem) : dropMarked a p items = dropMarked b p items := by
  rw [dropMarked, dropMarked, h]

end Same

theorem mem_dropMarked {item : PipelineItem} {state : StageState} {p : JsonValue → Bool}
    {items : List PipelineItem} :
    item ∈ dropMarked state p items ↔ item ∈ items ∧ state.marked p item.key = false := by
  simp [dropMarked]

end HamZaboon
