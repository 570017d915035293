import HamZaboon.Library.Views
import HamZaboon.Precard.HumanQueue
import HamZaboon.Precard.Rows

/-! # Sessions and the escalation queue

A session notes the payloads it enriches, and appends their lines once its enrich
stage is over; the progress of the stage is flushed after every batch.  Seen without
the queue it is the session of the pipeline (`run_files`).

A session that is killed leaves the files in some state, and has appended some lines.
-/

namespace HamZaboon
open Library

/-! ## A session with a queue -/

/-- The world of the pipeline, what is to be queued, and the queue. -/
structure QueueWorld where
  base : PipelineWorld
  pending : QueuePending
  queue : List Dict

abbrev QueuePipeline := EStateM PipelineStop QueueWorld

def onBase {α : Type} : Pipeline α → QueuePipeline α :=
  onPart QueueWorld.base fun w base => ⟨base, w.pending, w.queue⟩

/-- A session and its sink: the times of the lines, and the payloads it refuses. -/
structure QueueSession where
  given : PipelineSession
  ctx : RowContext
  createdAt : Nat → String
  sinkRefuses : Nat → Bool

namespace QueueSession
variable (q : QueueSession)

def session : PipelineSession := q.given.withRows q.ctx

/-- An item is enriched, and its payloads are noted. -/
def enrichOne (item : PipelineItem) : QueuePipeline Unit := do
  let w ← onBase get
  let judged := (w.states .senseJudge).entry item.key
  if needsEnrich q.session ((w.states .enrich).entry item.key) judged then do
    let entry := (w.states .senseJudge).entryOr item.key
    let primary ← onBase <| runLeg (q.session.legs.enrichItem w.states item entry)
    let extras ← onBase <| runLeg <|
      ((arbiterFanoutPicks q.session entry).tail.filter (·.senseId ≠ "")).mapM
        fun sub => q.session.legs.enrichItem w.states item (pickJson sub)
    let primary := if extras = [] then primary else primary.set "extra" (.arr (extras.map .obj))
    onBase <| updateState .enrich (·.put item.key (.obj primary))
    modify fun w => ⟨w.base, w.pending ++
      (item, .obj primary) :: extras.map (fun extra => (item, .obj extra)), w.queue⟩
  else pure ()

def enrichStage (items : List PipelineItem) : QueuePipeline Unit :=
  (stageBatches (q.session.selection.selected .enrich) items batchWidth).forM fun (_, batch) => do
    batch.forM q.enrichOne
    onBase flushNow

/-- The lines are appended, and what raises is skipped. -/
def flushQueue : QueuePipeline Unit :=
  modify fun w => ⟨w.base, w.pending,
    w.queue ++ flushHumanQueue q.session.py q.createdAt q.sinkRefuses w.pending⟩

def laterStages (items : List PipelineItem) :
    QueuePipeline (List PipelineItem × Precards) := do
  onBase (inflectionStage q.session items)
  let w ← onBase get
  let items := redirectedItems q.session w items
  onBase (anchorStage q.session items)
  let w ← onBase get
  let items := rankedItems w items
  onBase (judgeStage q.session items)
  let w ← onBase get
  let items := judgedItems w items
  onBase (vectorsStage q.session items)
  onBase (labelStage q.session items)
  q.enrichStage items
  q.flushQueue
  let w ← onBase get
  pure (items, assemble q.session w.states items)

def main : QueuePipeline Unit :=
  if q.session.dryRun then pure ()
  else do
    onBase (loadProgress q.session)
    onBase (exitIf (rekeyError q.session))
    onBase (modify fun w => { w with states := rekeyStates q.session w.states })
    let w ← onBase get
    onBase (exitIf (refuseEmptyUpstream q.session w.states))
    onBase (exitIf q.session.indexFails)
    onBase (preprocessStage q.session q.session.processed)
    let w ← onBase get
    let items := keptItems q.session w
    onBase (exitIf q.session.providersFail)
    let (items, precards) ←
      withCleanup (tryCatch (q.laterStages items) fun stop => onBase (onInterrupt stop))
        fun w => ⟨flushStates w.base, w.pending, w.queue⟩
    onBase (writeRows q.session (emitRows precards [] items))

end QueueSession

structure QueueFiles where
  files : PipelineFiles
  queue : List Dict

/-- A session, and whether it returns 0. -/
def QueueSession.run (q : QueueSession) (f : QueueFiles) : QueueFiles × Bool :=
  match q.main ⟨⟨fun _ => {}, f.files.dir, f.files.out⟩, [], f.queue⟩ with
  | .ok _ w => (⟨⟨w.base.dir, w.base.out⟩, w.queue⟩, true)
  | .error _ w => (⟨⟨w.base.dir, w.base.out⟩, w.queue⟩, false)

/-! ## The session of the pipeline -/

theorem simulates_onBase {α : Type} (m : Pipeline α) : Simulates QueueWorld.base (onBase m) m :=
  Simulates.onPart (fun _ _ => rfl) m

namespace QueueSession
variable (q : QueueSession)

theorem simulates_enrichOne (item : PipelineItem) :
    Simulates QueueWorld.base (q.enrichOne item) (HamZaboon.enrichOne q.session item) := by
  apply Simulates.bind (simulates_onBase get)
  intro w
  refine Simulates.ite ?_ (Simulates.pure _)
  apply Simulates.bind (simulates_onBase _)
  intro primary
  apply Simulates.bind (simulates_onBase _)
  intro extras
  exact Simulates.bind_silent (simulates_onBase _) fun _ => Simulates.silent fun _ => rfl

theorem simulates_enrichStage (items : List PipelineItem) :
    Simulates QueueWorld.base (q.enrichStage items) (HamZaboon.enrichStage q.session items) := by
  apply Simulates.forM
  rintro ⟨batchNo, batch⟩ -
  apply Simulates.bind (Simulates.forM fun item _ => q.simulates_enrichOne item)
  exact fun _ => simulates_onBase flushNow

theorem simulates_laterStages (items : List PipelineItem) :
    Simulates QueueWorld.base (q.laterStages items) (HamZaboon.laterStages q.session items) := by
  apply Simulates.bind (simulates_onBase _)
  intro _
  apply Simulates.bind (simulates_onBase get)
  intro reviewed
  apply Simulates.bind (simulates_onBase _)
  intro _
  apply Simulates.bind (simulates_onBase get)
  intro ranked
  apply Simulates.bind (simulates_onBase _)
  intro _
  apply Simulates.bind (simulates_onBase get)
  intro judged
  apply Simulates.bind (simulates_onBase _)
  intro _
  apply Simulates.bind (simulates_onBase _)
  intro _
  apply Simulates.bind (q.simulates_enrichStage _)
  intro _
  -- the flush of the queue is not seen
  refine Simulates.silent_bind (Simulates.silent fun _ => rfl) ?_
  apply Simulates.bind (simulates_onBase get)
  exact fun _ => Simulates.pure _

theorem simulates_main : Simulates QueueWorld.base q.main q.session.main := by
  refine Simulates.ite (Simulates.pure _) ?_
  apply Simulates.bind (simulates_onBase _)
  intro _
  apply Simulates.bind (simulates_onBase _)
  intro _
  apply Simulates.bind (simulates_onBase _)
  intro _
  apply Simulates.bind (simulates_onBase get)
  intro _
  apply Simulates.bind (simulates_onBase _)
  intro _
  apply Simulates.bind (simulates_onBase _)
  intro _
  apply Simulates.bind (simulates_onBase _)
  intro _
  apply Simulates.bind (simulates_onBase get)
  intro _
  apply Simulates.bind (simulates_onBase _)
  intro _
  refine Simulates.bind (Simulates.withCleanup (Simulates.tryCatch (q.simulates_laterStages _)
    fun stop => simulates_onBase _) fun _ => rfl) fun p => simulates_onBase _

/-- **Without the queue** the session is that of the pipeline. -/
theorem run_files (f : QueueFiles) :
    ((q.run f).1.files, (q.run f).2) = q.session.run f.files := by
  have hmain := q.simulates_main ⟨⟨fun _ => {}, f.files.dir, f.files.out⟩, [], f.queue⟩
  unfold run PipelineSession.run
  rw [← hmain]
  cases q.main ⟨⟨fun _ => {}, f.files.dir, f.files.out⟩, [], f.queue⟩ with
  | ok _ w => rfl
  | error _ w => rfl

end QueueSession

/-! ## What a session notes -/

/-- The payloads of an enrich entry: itself and its extras. -/
def payloadsOf (entry : JsonValue) : List JsonValue :=
  entry :: match field entry "extra" with
    | .arr extras => extras
    | _ => []

def Sampled (s : PipelineSession) (item : PipelineItem) : Prop :=
  ∃ given ∈ s.processed, item.kind = given.kind ∧ item.fields = given.fields

/-- Every entry was found, or its payloads are noted for an item of its key. -/
def Noted (s : PipelineSession) (found enrich : StageState) (pending : QueuePending) : Prop :=
  ∀ key entry, enrich.entry key = some entry → found.entry key = some entry ∨
    ∃ item, item.key = key ∧ Sampled s item ∧ ∀ payload ∈ payloadsOf entry, (item, payload) ∈ pending

section Payloads
variable {s : PipelineSession} {ctx : RowContext} {states : Progress} {item : PipelineItem}

theorem lookup_extra_enrichItem {judgePick : JsonValue} {payload : Dict}
    (h : enrichItem s ctx states item judgePick = .ok payload) : payload.lookup "extra" = none := by
  obtain ⟨data, -, hpayload⟩ := bind_eq_ok.mp h
  obtain rfl := (Except.ok.inj hpayload).symm
  exact data.noExtra

theorem payloadsOf_enrichEntry {primary : Dict} (h : primary.lookup "extra" = none)
    (extras : List Dict) :
    payloadsOf (enrichEntry primary extras) = enrichEntry primary extras :: extras.map .obj := by
  unfold payloadsOf
  congr 1
  by_cases hextras : extras = []
  · have hfield : field (enrichEntry primary extras) "extra" = .null := by
      rw [enrichEntry, if_pos hextras]
      change (primary.lookup "extra").getD .null = .null
      rw [h, Option.getD_none]
    rw [hfield, hextras]
    rfl
  · have hfield : field (enrichEntry primary extras) "extra" = .arr (extras.map .obj) := by
      rw [enrichEntry, if_neg hextras]
      change Dict.get (Dict.set _ _ _) _ = _
      rw [Dict.get_set_self]
    rw [hfield]

theorem sampled_of_mem_dropMarked {state : StageState} {p : JsonValue → Bool}
    {items : List PipelineItem} (h : ∀ item ∈ items, Sampled s item) :
    ∀ item ∈ dropMarked state p items, Sampled s item :=
  fun item hitem => h item (mem_dropMarked.mp hitem).1

theorem sampled_redirect {reviewed : StageState} (h : Sampled s item) :
    Sampled s (redirect s reviewed item) := by
  obtain ⟨given, hgiven, hkind, hfields⟩ := h
  refine ⟨given, hgiven, ?_⟩
  unfold redirect
  dsimp only
  split
  · split
    · exact ⟨hkind, hfields⟩
    · exact ⟨hkind, hfields⟩
  · exact ⟨hkind, hfields⟩

theorem Noted.put {found enrich : StageState} {pending : QueuePending} {primary : Dict}
    (h : Noted s found enrich pending) (hitem : Sampled s item)
    (hextra : primary.lookup "extra" = none) (extras : List Dict) :
    Noted s found (enrich.put item.key (enrichEntry primary extras)) (pending ++
      (item, enrichEntry primary extras) :: extras.map fun extra => (item, .obj extra)) := by
  intro key entry hentry
  rw [StageState.entry_put] at hentry
  by_cases hkey : key = item.key
  · rw [if_pos hkey] at hentry
    obtain rfl := Option.some.inj hentry
    refine .inr ⟨item, hkey.symm, hitem, fun payload hpayload => ?_⟩
    rw [payloadsOf_enrichEntry hextra] at hpayload
    refine List.mem_append_right _ ?_
    rcases List.mem_cons.mp hpayload with rfl | hpayload
    · exact List.mem_cons_self
    · obtain ⟨extra, hmem, rfl⟩ := List.mem_map.mp hpayload
      exact List.mem_cons_of_mem _ (List.mem_map.mpr ⟨extra, hmem, rfl⟩)
  · -- another entry is as it was, and nothing that was noted goes
    rw [if_neg hkey] at hentry
    refine (h key entry hentry).imp_right ?_
    rintro ⟨other, hother, hsampled, hpending⟩
    exact ⟨other, hother, hsampled, fun payload hpayload =>
      List.mem_append_left _ (hpending payload hpayload)⟩

end Payloads

namespace QueueSession
variable (q : QueueSession)

theorem noted_enrichOne (found : StageState) (queue : List Dict) {item : PipelineItem}
    (hitem : Sampled q.session item) :
    Moves (fun w w' =>
      w.queue = queue ∧ Noted q.session found (w.base.states .enrich) w.pending →
        w'.queue = queue ∧ Noted q.session found (w'.base.states .enrich) w'.pending)
      (q.enrichOne item) := by
  intro w
  apply Ends.bind
  apply Ends.onPart
  apply Ends.get
  cases hneeds : needsEnrich q.session ((w.base.states .enrich).entry item.key)
      ((w.base.states .senseJudge).entry item.key) with
  | false =>
    simp only [hneeds, Bool.false_eq_true, if_false]
    exact Ends.pure id
  | true =>
    simp only [hneeds, if_true]
    apply Ends.bind
    apply Ends.onPart
    refine (ends_runLeg _).mono ?_ fun _ _ _ => trivial
    rintro primary _ ⟨hprimary, rfl⟩
    apply Ends.bind
    apply Ends.onPart
    refine (ends_runLeg _).mono ?_ fun _ _ _ => trivial
    rintro extras _ ⟨-, rfl⟩
    apply Ends.bind
    apply Ends.onPart
    apply Ends.modify
    apply Ends.modify
    rintro ⟨hqueue, hnoted⟩
    refine ⟨hqueue, ?_⟩
    simp only [Function.update_self]
    exact hnoted.put hitem (lookup_extra_enrichItem hprimary) extras

theorem noted_enrichStage (found : StageState) (queue : List Dict) {items : List PipelineItem}
    (hitems : ∀ item ∈ items, Sampled q.session item) :
    Moves (fun w w' =>
      w.queue = queue ∧ Noted q.session found (w.base.states .enrich) w.pending →
        w'.queue = queue ∧ Noted q.session found (w'.base.states .enrich) w'.pending)
      (q.enrichStage items) := by
  refine Moves.forM_invariant ?_
  rintro ⟨batchNo, batch⟩ hbatch w
  -- the flush after the batch writes files, and no state
  have hmem : ∀ item ∈ batch, Sampled q.session item := by
    intro item hitem
    obtain ⟨n, -, heq⟩ := List.mem_map.mp hbatch
    obtain rfl := congrArg Prod.snd heq
    exact hitems item (List.mem_of_mem_drop (List.mem_of_mem_take hitem))
  apply Ends.bind
  have hloop := Moves.forM_invariant fun item hitem =>
    q.noted_enrichOne found queue (hmem item hitem)
  refine (hloop w).mono (fun _ w₁ h₁ => ?_) fun _ _ _ => trivial
  apply Ends.onPart
  exact Ends.modify fun h => h₁ h

theorem ends_before {α β : Type} {m : Pipeline α} {k : α → QueuePipeline β} {w : QueueWorld}
    {Q : β → QueueWorld → Prop} (hm : Keeps (fun w : PipelineWorld => w.states .enrich) m)
    (hk : ∀ a base, base.states .enrich = w.base.states .enrich →
      Ends (k a) ⟨base, w.pending, w.queue⟩ Q fun _ _ => True) :
    Ends (onBase m >>= k) w Q fun _ _ => True := by
  apply Ends.bind
  apply Ends.onPart
  exact (hm w.base).mono (fun a base hbase => hk a base hbase) fun _ _ _ => trivial

theorem keeps_enrich {α : Type} {stage : Stage} {m : Pipeline α} (h : Keeps (statesBut stage) m)
    (hne : Stage.enrich ≠ stage) : Keeps (fun w : PipelineWorld => w.states .enrich) m :=
  fun w => (h w).mono (fun _ _ hsame => states_of_statesBut hsame hne) fun _ _ _ => trivial

theorem ends_laterStages {items : List PipelineItem} (w : QueueWorld)
    (hitems : ∀ item ∈ items, Sampled q.session item) :
    Ends (q.laterStages items) w (fun _ w' =>
      w'.queue = w.queue ++ flushHumanQueue q.session.py q.createdAt q.sinkRefuses w'.pending ∧
        Noted q.session (w.base.states .enrich) (w'.base.states .enrich) w'.pending)
      fun _ _ => True := by
  apply ends_before (keeps_enrich (keeps_inflectionStage items) nofun)
  intro _ reviewed hreviewed
  apply Ends.bind
  apply Ends.onPart
  apply Ends.get
  apply ends_before (keeps_enrich (keeps_anchorStage _) nofun)
  intro _ ranked hranked
  apply Ends.bind
  apply Ends.onPart
  apply Ends.get
  apply ends_before (fun w => (keeps_judgeStage _ w).mono
    (fun _ _ hsame => states_of_judgeView hsame nofun nofun) fun _ _ _ => trivial)
  intro _ judged hjudged
  apply Ends.bind
  apply Ends.onPart
  apply Ends.get
  apply ends_before (keeps_enrich (keeps_vectorsStage _) nofun)
  intro _ vectored hvectored
  apply ends_before (keeps_enrich (keeps_labelStage _) nofun)
  intro _ labelled hlabelled
  -- up to here the entries are those that the stages began with, and nothing is pending
  have hfound : labelled.states .enrich = w.base.states .enrich :=
    hlabelled.trans (hvectored.trans (hjudged.trans (hranked.trans hreviewed)))
  apply Ends.bind
  refine (q.noted_enrichStage (w.base.states .enrich) w.queue ?_ _).mono
    (fun _ w₁ h₁ => ?_) fun _ _ _ => trivial
  · refine sampled_of_mem_dropMarked (sampled_of_mem_dropMarked fun item hitem => ?_)
    obtain ⟨given, hgiven, rfl⟩ := List.mem_map.mp hitem
    exact sampled_redirect (hitems given (mem_dropMarked.mp hgiven).1)
  · obtain ⟨hqueue, hnoted⟩ := h₁ ⟨rfl, fun key entry hentry => .inl (hfound ▸ hentry)⟩
    apply Ends.bind
    apply Ends.modify
    apply Ends.bind
    apply Ends.onPart
    apply Ends.get
    apply Ends.pure
    exact ⟨by rw [hqueue], hnoted⟩

theorem ends_main (hdry : q.session.dryRun = false) (f : QueueFiles) :
    Ends q.main ⟨⟨fun _ => {}, f.files.dir, f.files.out⟩, [], f.queue⟩ (fun _ w =>
      ∃ loaded states pending, f.files.dir.loadStates q.session.resume = .ok loaded ∧
        (∃ d : ProgressDir, w.base.dir = d.flush states) ∧
        w.queue =
          f.queue ++ flushHumanQueue q.session.py q.createdAt q.sinkRefuses pending ∧
        Noted q.session (rekeyStates q.session loaded .enrich) (states .enrich) pending)
      fun _ _ => True := by
  rw [main, hdry, if_neg Bool.false_ne_true]
  apply Ends.bind
  apply Ends.onPart
  refine (ends_loadProgress _).mono ?_ fun _ _ _ => trivial
  rintro _ _ ⟨loaded, hload, rfl⟩
  apply ends_before (keeps_exitIf _)
  intro _ base hbase
  apply Ends.bind
  apply Ends.onPart
  apply Ends.modify
  apply Ends.bind
  apply Ends.onPart
  apply Ends.get
  apply ends_before (keeps_exitIf _)
  intro _ base₁ h₁
  apply ends_before (keeps_exitIf _)
  intro _ base₂ h₂
  apply ends_before (keeps_enrich (keeps_preprocessStage _) nofun)
  intro _ base₃ h₃
  apply Ends.bind
  apply Ends.onPart
  apply Ends.get
  apply ends_before (keeps_exitIf _)
  intro _ base₄ h₄
  apply Ends.bind
  apply Ends.withCleanup
  apply Ends.tryCatch
  have hitems : ∀ item ∈ keptItems q.session base₃, Sampled q.session item :=
    sampled_of_mem_dropMarked fun item hitem => ⟨item, hitem, rfl, rfl⟩
  refine (q.ends_laterStages ⟨base₄, [], f.queue⟩ hitems).mono ?_ fun stop _ _ => ?_
  · rintro ⟨survivors, precards⟩ w ⟨hqueue, hnoted⟩
    -- no step before them has written an entry of the enrich stage, but for the eviction
    have hfound : base₄.states .enrich = rekeyStates q.session loaded .enrich := by
      rw [h₄, h₃, h₂, h₁]
      change rekeyStates q.session base.states .enrich = _
      rw [rekeyStates, hbase, rekeyStates]
    rw [hfound] at hnoted
    apply Ends.onPart
    exact ends_writeRows
      ⟨loaded, w.base.states, w.pending, hload, ⟨w.base.dir, rfl⟩, hqueue, hnoted⟩
  · apply Ends.onPart
    exact ends_onInterrupt stop

end QueueSession

/-! ## The queue grows -/

/-- No line of the queue is taken away. -/
def QueueGrows (w w' : QueueWorld) : Prop := w.queue <+: w'.queue

theorem QueueGrows.refl (w : QueueWorld) : QueueGrows w w := List.prefix_refl w.queue

theorem QueueGrows.trans (a b c : QueueWorld) (hab : QueueGrows a b) (hbc : QueueGrows b c) :
    QueueGrows a c := List.IsPrefix.trans hab hbc

theorem bothEnds_onBase {α : Type} (m : Pipeline α) : BothEnds QueueGrows (onBase m) :=
  BothEnds.onPart fun w _ => List.prefix_refl w.queue

theorem bothEnds_bind {α β : Type} {m : QueuePipeline α} {k : α → QueuePipeline β}
    (hm : BothEnds QueueGrows m) (hk : ∀ a, BothEnds QueueGrows (k a)) : BothEnds QueueGrows (m >>= k) :=
  BothEnds.bind QueueGrows.trans hm hk

namespace QueueSession
variable (q : QueueSession)

theorem bothEnds_enrichOne (item : PipelineItem) : BothEnds QueueGrows (q.enrichOne item) := by
  apply bothEnds_bind (bothEnds_onBase get)
  intro w
  refine BothEnds.ite ?_ (BothEnds.pure QueueGrows.refl _)
  apply bothEnds_bind (bothEnds_onBase _)
  intro primary
  apply bothEnds_bind (bothEnds_onBase _)
  intro extras
  apply bothEnds_bind (bothEnds_onBase _)
  exact fun _ => BothEnds.modify fun w => List.prefix_refl w.queue

theorem bothEnds_enrichStage (items : List PipelineItem) :
    BothEnds QueueGrows (q.enrichStage items) := by
  apply BothEnds.forM QueueGrows.refl QueueGrows.trans
  rintro ⟨batchNo, batch⟩ -
  refine bothEnds_bind ?_ fun _ => bothEnds_onBase _
  exact BothEnds.forM QueueGrows.refl QueueGrows.trans fun item _ => q.bothEnds_enrichOne item

theorem bothEnds_flushQueue : BothEnds QueueGrows q.flushQueue :=
  BothEnds.modify fun _ => List.prefix_append _ _

theorem bothEnds_laterStages (items : List PipelineItem) :
    BothEnds QueueGrows (q.laterStages items) := by
  apply bothEnds_bind (bothEnds_onBase _)
  intro _
  apply bothEnds_bind (bothEnds_onBase get)
  intro reviewed
  apply bothEnds_bind (bothEnds_onBase _)
  intro _
  apply bothEnds_bind (bothEnds_onBase get)
  intro ranked
  apply bothEnds_bind (bothEnds_onBase _)
  intro _
  apply bothEnds_bind (bothEnds_onBase get)
  intro judged
  apply bothEnds_bind (bothEnds_onBase _)
  intro _
  apply bothEnds_bind (bothEnds_onBase _)
  intro _
  apply bothEnds_bind (q.bothEnds_enrichStage _)
  intro _
  apply bothEnds_bind q.bothEnds_flushQueue
  intro _
  apply bothEnds_bind (bothEnds_onBase get)
  exact fun w => BothEnds.pure QueueGrows.refl _

theorem bothEnds_main : BothEnds QueueGrows q.main := by
  refine BothEnds.ite (BothEnds.pure QueueGrows.refl _) ?_
  apply bothEnds_bind (bothEnds_onBase _)
  intro _
  apply bothEnds_bind (bothEnds_onBase _)
  intro _
  apply bothEnds_bind (bothEnds_onBase _)
  intro _
  apply bothEnds_bind (bothEnds_onBase get)
  intro _
  apply bothEnds_bind (bothEnds_onBase _)
  intro _
  apply bothEnds_bind (bothEnds_onBase _)
  intro _
  apply bothEnds_bind (bothEnds_onBase _)
  intro _
  apply bothEnds_bind (bothEnds_onBase get)
  intro _
  apply bothEnds_bind (bothEnds_onBase _)
  intro _
  refine bothEnds_bind ?_ fun p => bothEnds_onBase _
  refine BothEnds.withCleanup QueueGrows.trans ?_ fun w => List.prefix_refl w.queue
  exact BothEnds.tryCatch QueueGrows.trans (q.bothEnds_laterStages _) fun stop => bothEnds_onBase _

theorem queue_run (f : QueueFiles) : f.queue <+: (q.run f).1.queue := by
  have hmain := q.bothEnds_main ⟨⟨fun _ => {}, f.files.dir, f.files.out⟩, [], f.queue⟩
  unfold Ends at hmain
  unfold run
  cases hend : q.main ⟨⟨fun _ => {}, f.files.dir, f.files.out⟩, [], f.queue⟩ with
  | ok _ w =>
    rw [hend] at hmain
    exact hmain
  | error _ w =>
    rw [hend] at hmain
    exact hmain

end QueueSession

/-! ## Sessions one after the other -/

/-- A session, or one that is killed: with the files it leaves, and the lines it has
appended. -/
inductive QueueEvent
  | session (q : QueueSession)
  | killed (files : PipelineFiles) (lines : List Dict)

namespace QueueEvent

def run : QueueEvent → QueueFiles → QueueFiles
  | session q, f => (q.run f).1
  | killed files lines, f => ⟨files, f.queue ++ lines⟩

/-- The session returns, and its sink has taken every line. -/
def Completes (f : QueueFiles) : QueueEvent → Prop
  | session q => (q.run f).2 = true ∧ ∀ n, q.sinkRefuses n = false
  | killed _ _ => False

theorem queue_run (e : QueueEvent) (f : QueueFiles) : f.queue <+: (e.run f).queue := by
  cases e with
  | session q => exact q.queue_run f
  | killed files lines => exact List.prefix_append _ _

end QueueEvent

def runEvents (events : List QueueEvent) (f : QueueFiles) : QueueFiles :=
  events.foldl (fun f e => e.run f) f

/-- The payload is in the progress that a session resumes from. -/
def Stored (f : QueueFiles) (key : String) (payload : JsonValue) : Prop :=
  ∃ states entry, f.files.dir.loadStates true = .ok states ∧
    (states .enrich).entry key = some entry ∧ payload ∈ payloadsOf entry

/-- Where the payload escalates, for an item of its key, a line waits for a human. -/
def Recorded (q : QueueSession) (key : String) (payload : JsonValue) (f : QueueFiles) : Prop :=
  ∃ item, item.key = key ∧ Sampled q.session item ∧
    ∀ queueId reason, Escalates q.session.py item payload queueId reason →
      ∃ line ∈ f.queue, PendingLine queueId reason line

/-- The payload was stored before the first session, or by one that does not
complete. -/
def StoredOutside (events : List QueueEvent) (f : QueueFiles) (key : String)
    (payload : JsonValue) : Prop :=
  Stored f key payload ∨ ∃ before e after, events = before ++ e :: after ∧
    ¬ e.Completes (runEvents before f) ∧ ¬ Stored (runEvents before f) key payload ∧
      Stored (e.run (runEvents before f)) key payload

section Runs
variable {f : QueueFiles} {key : String} {payload : JsonValue}

theorem Recorded.grow {q : QueueSession} {f' : QueueFiles} (h : Recorded q key payload f)
    (hgrow : f.queue <+: f'.queue) : Recorded q key payload f' := by
  obtain ⟨item, hkey, hsampled, hlines⟩ := h
  refine ⟨item, hkey, hsampled, fun queueId reason hescalates => ?_⟩
  obtain ⟨line, hline, hpending⟩ := hlines queueId reason hescalates
  exact ⟨line, hgrow.subset hline, hpending⟩

theorem entry_of_rekeyStates {s : PipelineSession} {states : Progress} {stage : Stage}
    {entry : JsonValue} (h : (rekeyStates s states stage).entry key = some entry) :
    (states stage).entry key = some entry := by
  unfold rekeyStates at h
  split at h
  · by_cases hkey : key ∈ s.rekeyed
    · rw [StageState.entry_evict _ _ hkey] at h
      cases h
    · rwa [StageState.entry_evict_of_notMem _ _ hkey] at h
  · exact h

theorem stored_of_loaded {resume : Bool} {loaded : Progress} {entry : JsonValue}
    (hload : f.files.dir.loadStates resume = .ok loaded)
    (hentry : (loaded .enrich).entry key = some entry) (hpayload : payload ∈ payloadsOf entry) :
    Stored f key payload := by
  cases resume with
  | true => exact ⟨loaded, entry, hload, hentry, hpayload⟩
  | false =>
    have hfresh : ({} : StageState) = loaded .enrich :=
      Except.ok.inj (ProgressDir.loadStates_eq_ok.mp hload .enrich)
    rw [← hfresh] at hentry
    cases hentry

theorem stored_or_recorded {q : QueueSession} (hcompletes : (QueueEvent.session q).Completes f)
    (h : Stored (q.run f).1 key payload) :
    Stored f key payload ∨ Recorded q key payload (q.run f).1 := by
  obtain ⟨hreturns, hwrites⟩ := hcompletes
  obtain ⟨states, entry, hload, hentry, hpayload⟩ := h
  by_cases hdry : q.session.dryRun = true
  · -- a dry run leaves the files
    have hsame : (q.run f).1 = f := by
      rw [QueueSession.run, QueueSession.main, if_pos hdry]
      rfl
    rw [hsame] at hload
    exact .inl ⟨states, entry, hload, hentry, hpayload⟩
  have hmain := q.ends_main (by simpa using hdry) f
  unfold Ends at hmain
  unfold QueueSession.run at hreturns hload ⊢
  cases hend : q.main ⟨⟨fun _ => {}, f.files.dir, f.files.out⟩, [], f.queue⟩ with
  | error stop w =>
    rw [hend] at hreturns
    cases hreturns
  | ok _ w =>
    rw [hend] at hmain hload
    obtain ⟨loaded, left, pending, hfound, ⟨d, hdir⟩, hqueue, hnoted⟩ := hmain
    obtain rfl : left = states := by
      change w.base.dir.loadStates true = .ok states at hload
      rw [hdir, ProgressDir.loadStates_flush] at hload
      exact Except.ok.inj hload
    rcases hnoted key entry hentry with hbefore | ⟨item, hkey, hsampled, hpending⟩
    · exact .inl (stored_of_loaded hfound (entry_of_rekeyStates hbefore) hpayload)
    · refine .inr ⟨item, hkey, hsampled, fun queueId reason hescalates => ?_⟩
      obtain ⟨line, hline, hwaits⟩ :=
        exists_line_of_escalates (hpending payload hpayload) hescalates hwrites q.createdAt
      refine ⟨line, ?_, hwaits⟩
      change line ∈ w.queue
      rw [hqueue]
      exact List.mem_append_right _ hline

theorem StoredOutside.extend {events : List QueueEvent} (h : StoredOutside events f key payload)
    (e : QueueEvent) : StoredOutside (events ++ [e]) f key payload := by
  refine h.imp_right ?_
  rintro ⟨before, e', after, rfl, hrest⟩
  exact ⟨before, e', after ++ [e], by simp, hrest⟩

end Runs

/-- **Escalations.**  After any sessions, some of them killed, a payload in the
progress is recorded, unless one that does not complete has stored it. -/
theorem stored_payloads_recorded (events : List QueueEvent) (f : QueueFiles) (key : String)
    (payload : JsonValue) (h : Stored (runEvents events f) key payload) :
    StoredOutside events f key payload ∨
      ∃ q, QueueEvent.session q ∈ events ∧ Recorded q key payload (runEvents events f) := by
  induction events using List.reverseRecOn with
  | nil => exact .inl (.inl h)
  | append_singleton events e ih =>
    have hrun : runEvents (events ++ [e]) f = e.run (runEvents events f) := by
      rw [runEvents, List.foldl_append]
      rfl
    rw [hrun] at h ⊢
    by_cases hbefore : Stored (runEvents events f) key payload
    · refine (ih hbefore).imp (fun houtside => houtside.extend e) ?_
      rintro ⟨q, hq, hrecorded⟩
      exact ⟨q, List.mem_append_left _ hq, hrecorded.grow (e.queue_run _)⟩
    · by_cases hcompletes : e.Completes (runEvents events f)
      · cases e with
        | session q =>
          have hrecorded := (stored_or_recorded hcompletes h).resolve_left hbefore
          exact .inr ⟨q, by simp, hrecorded⟩
        | killed files lines => exact absurd hcompletes id
      · exact .inl (.inr ⟨events, e, [], rfl, hcompletes, hbefore, h⟩)

/-- A judge with one sense for every word, and dictionaries under which a gate fires. -/
def animalJudge : AskJudge := fun _ _ _ =>
  { reply := .ok fun _ => some (judgeJson ⟨"s1", "a small animal", [], "arbiter"⟩) }

def vetoContext : RowContext :=
  { nounContext with
    data := fun _ _ _ => .ok ⟨["noun"], [("gate_fires", .arr [.str "LowRankZeroOverlapVeto"]),
      ("example_fallback", .str "synthetic-needed"), ("sense_cefr_method", .str "unmapped")], rfl⟩ }

/-- A session over two words of which a gate fires, with a sink that takes or refuses
its lines. -/
def vetoed (refuses : Bool) : QueueSession where
  given := catAndDog 0 animalJudge
  ctx := vetoContext
  createdAt _ := "2026-09-20T00:00:00+00:00"
  sinkRefuses _ := refuses

def noQueue : QueueFiles := ⟨noFiles, []⟩

theorem exists_stored (f : QueueFiles) (key : String) (test : JsonValue → Bool)
    (h : (match f.files.dir.loadStates true with
      | .ok states => ((states .enrich).entry key).any test
      | .error _ => false) = true) : ∃ payload, Stored f key payload ∧ test payload = true := by
  split at h
  · rename_i states hload
    obtain ⟨entry, hentry, htest⟩ := (Option.any_eq_true _ _).mp h
    exact ⟨entry, ⟨states, entry, hload, hentry, List.mem_cons_self⟩, htest⟩
  · cases h

theorem stored_payloads_recorded_fresh :
    ∃ payload, StoredOutside [.session (vetoed false)] noQueue "w:cat" payload ∨
      ∃ q, QueueEvent.session q ∈ [QueueEvent.session (vetoed false)] ∧
        Recorded q "w:cat" payload (runEvents [.session (vetoed false)] noQueue) := by
  obtain ⟨payload, hstored, -⟩ : ∃ payload,
      Stored (runEvents [.session (vetoed false)] noQueue) "w:cat" payload ∧ true = true :=
    exists_stored _ _ (fun _ => true) (by decide +kernel)
  exact ⟨payload, stored_payloads_recorded [.session (vetoed false)] noQueue "w:cat" payload hstored⟩

/-- What escalates of the items has a line. -/
def FiresRecorded (s : PipelineSession) (f : QueueFiles) : Prop :=
  ∀ item ∈ s.processed, ∀ payload queueId reason, Stored f item.key payload →
    Escalates s.py item payload queueId reason → ∃ line ∈ f.queue, PendingLine queueId reason line

/-- A session whose sink refuses the lines returns, and the next one finds its
payloads stored. -/
theorem refused_fires_stay_unrecorded :
    (QueueEvent.session (vetoed false)).Completes (runEvents [.session (vetoed true)] noQueue) ∧
      ¬ FiresRecorded (vetoed false).session
        (runEvents [.session (vetoed true), .session (vetoed false)] noQueue) := by
  refine ⟨⟨by decide +kernel, fun _ => rfl⟩, fun hrecorded => ?_⟩
  have hqueue : (runEvents [.session (vetoed true), .session (vetoed false)] noQueue).queue.length =
      0 := by decide +kernel
  let cat : PipelineItem := ⟨⟨"word", "cat"⟩, [], .null, .null, ""⟩
  obtain ⟨payload, hstored, htest⟩ := exists_stored
    (runEvents [.session (vetoed true), .session (vetoed false)] noQueue) cat.key
    (fun payload => decide (isDict payload = true ∧
      gateFires .ascii payload = some ["LowRankZeroOverlapVeto"] ∧
      buildQueueId .ascii "cat" (escalationPos .ascii cat payload)
        (cleanText .ascii (field payload "sense_id")) = some "esc-cat-noun-s1"))
    (by decide +kernel)
  obtain ⟨hdict, hfires, hid⟩ := of_decide_eq_true htest
  have hescalates : Escalates .ascii cat payload "esc-cat-noun-s1" "LowRankZeroOverlapVeto" :=
    ⟨hdict, ⟨_, hfires, by decide, by decide +kernel⟩, hid⟩
  obtain ⟨line, hline, -⟩ := hrecorded cat List.mem_cons_self payload _ _ hstored hescalates
  rw [List.length_eq_zero_iff.mp hqueue] at hline
  cases hline

end HamZaboon
