import HamZaboon.Precard.Frames

/-! # What the stages add

No stage takes an entry away from its own state (`Grows`), and one that is selected
leaves an entry for each of its items (`Covers`).
-/

namespace HamZaboon
open Library

/-! ## Entries -/

namespace StageState
variable (st : StageState) (key k : String) (value : JsonValue)

theorem entry_put : (st.put key value).entry k = if k = key then some value else st.entry k :=
  Dict.lookup_set _ _ _ _

@[simp] theorem entry_note : (st.note key).entry k = st.entry k := by
  unfold note
  split <;> rfl

theorem isSome_entry_put (h : (st.entry k).isSome = true) :
    ((st.put key value).entry k).isSome = true := by
  rw [entry_put]
  split
  · rfl
  · exact h

theorem entry_evict {keys : List String} (h : key ∈ keys) : (st.evict keys).entry key = none := by
  refine List.lookup_eq_none_iff.mpr fun e he => ?_
  have hkept : e.1 ∉ keys := by simpa using (List.mem_filter.mp he).2
  exact bne_iff_ne.mpr fun heq => hkept (heq ▸ h)

theorem entry_evict_of_notMem {keys : List String} (h : key ∉ keys) :
    (st.evict keys).entry key = st.entry key := by
  change (st.done.filter fun e => e.1 ∉ keys).lookup key = st.done.lookup key
  induction st.done with
  | nil => rfl
  | cons e done ih =>
    by_cases hkept : e.1 ∉ keys
    · rw [List.filter_cons_of_pos (by simpa using hkept), List.lookup_cons, List.lookup_cons, ih]
    · have hne : key ≠ e.1 := fun heq => hkept (heq ▸ h)
      rw [List.filter_cons_of_neg (by simpa using hkept), ih, List.lookup_cons,
        beq_false_of_ne hne]

end StageState

/-- No entry of the stage is taken away. -/
def Grows (stage : Stage) (w w' : PipelineWorld) : Prop :=
  ∀ key, ((w.states stage).entry key).isSome = true → ((w'.states stage).entry key).isSome = true

section Grows
variable {stage t : Stage} {s : PipelineSession}

theorem Grows.refl (w : PipelineWorld) : Grows stage w w := fun _ h => h

theorem Grows.trans (a b c : PipelineWorld) (hab : Grows stage a b) (hbc : Grows stage b c) :
    Grows stage a c := fun key h => hbc key (hab key h)

theorem grows_of_keeps {α : Type} {m : Pipeline α}
    (h : Keeps (fun w : PipelineWorld => w.states stage) m) : Moves (Grows stage) m :=
  Moves.of_keeps (fun w w' hsame key hkey => by
    have heq : w'.states stage = w.states stage := hsame
    rwa [heq]) h

theorem grows_update {f : StageState → StageState}
    (hf : ∀ st key, (st.entry key).isSome = true → ((f st).entry key).isSome = true) :
    Moves (Grows stage) (updateState stage f) := by
  refine Moves.modify fun w key h => ?_
  simp only [Function.update_self]
  exact hf _ key h

theorem grows_bind {α β : Type} {m : Pipeline α} {k : α → Pipeline β} (hm : Moves (Grows stage) m)
    (hk : ∀ a, Moves (Grows stage) (k a)) : Moves (Grows stage) (m >>= k) :=
  Moves.bind Grows.trans hm hk

theorem grows_forM {α : Type} {g : α → Pipeline Unit} {l : List α}
    (h : ∀ a ∈ l, Moves (Grows stage) (g a)) : Moves (Grows stage) (l.forM g) :=
  Moves.forM Grows.refl Grows.trans h

theorem grows_pure {α : Type} (a : α) : Moves (Grows stage) (pure a : Pipeline α) :=
  Moves.pure Grows.refl a

theorem grows_get : Moves (Grows stage) (get : Pipeline PipelineWorld) := Moves.get Grows.refl

theorem grows_callLeg {α : Type} {tag : String} {batchNo : Nat} {call : LegCall α} :
    Moves (Grows stage) (callLeg s stage tag batchNo call) := by
  refine grows_bind (grows_update fun _ _ h => h) fun _ => ?_
  cases call.reply with
  | ok a => exact grows_pure a
  | error e =>
    cases e with
    | rateLimited text =>
      refine grows_bind (grows_of_keeps (keeps_flushNow fun _ => rfl)) fun _ => ?_
      exact Moves.throw _
    | auth text => exact Moves.throw _
    | other name => exact Moves.throw _
    | interrupted => exact Moves.throw _

theorem grows_overBatches {width : Nat} {items : List PipelineItem}
    {body : Nat → List PipelineItem → Pipeline Unit}
    (hbody : ∀ n batch, Moves (Grows stage) (body n batch)) :
    Moves (Grows stage) (overBatches s stage width items body) := by
  refine grows_forM ?_
  rintro ⟨batchNo, batch⟩ -
  exact grows_bind (hbody batchNo batch) fun _ => grows_of_keeps (keeps_flushNow fun _ => rfl)

theorem grows_requireDicts (t : Stage) : Moves (Grows stage) (requireDicts t) :=
  grows_of_keeps (keeps_requireDicts t)

theorem grows_updateOther (hne : t ≠ stage) (g : StageState → StageState) :
    Moves (Grows stage) (updateState t g) :=
  grows_of_keeps (Keeps.modify fun _ => Function.update_of_ne hne.symm _ _)

theorem grows_put (key : String) (value : JsonValue) :
    Moves (Grows stage) (updateState stage (·.put key value)) :=
  grows_update fun st _ h => st.isSome_entry_put _ _ _ h

/-! ### Stage by stage -/

theorem grows_preprocessItem (item : PipelineItem) :
    Moves (Grows .preprocess) (preprocessItem s item) := by
  refine grows_bind grows_get fun w => Moves.ite ?_ (grows_pure _)
  refine grows_bind (grows_of_keeps (keeps_runLeg _)) fun verdict => ?_
  refine grows_bind (grows_update fun st key h => st.isSome_entry_put _ _ _ h) fun _ => ?_
  refine Moves.ite (grows_pure _) (grows_update fun st key h => ?_)
  rwa [StageState.entry_note]

theorem grows_recordReview (verdicts : String → Option ReviewVerdict) (entry : ReviewEntry) :
    Moves (Grows .inflectionReview) (recordReview s verdicts entry) := by
  unfold recordReview
  refine grows_update fun st key h => ?_
  dsimp only
  split
  · exact st.isSome_entry_put _ _ _ h
  · rw [StageState.entry_note]
    exact st.isSome_entry_put _ _ _ h

theorem grows_inflectionBatch (batchNo : Nat) (batch : List PipelineItem) :
    Moves (Grows .inflectionReview) (inflectionBatch s batchNo batch) := by
  refine grows_bind grows_get fun w => ?_
  refine grows_bind (grows_forM fun item _ => grows_put _ _) fun _ => ?_
  refine Moves.ite (grows_pure _) ?_
  split
  · exact grows_bind grows_callLeg fun verdicts =>
      grows_forM fun entry _ => grows_recordReview verdicts entry
  · exact grows_forM fun entry _ => grows_put _ _

theorem grows_anchorItem (item : PipelineItem) : Moves (Grows .anchorRank) (anchorItem s item) := by
  refine grows_bind grows_get fun w => Moves.ite ?_ (grows_pure _)
  split
  · refine grows_update fun st key h => StageState.isSome_entry_put _ _ _ _ ?_
    split
    · rwa [StageState.entry_note]
    · exact h
  · exact Moves.throw _
  · refine grows_update fun st key h => ?_
    change (((st.put item.key anchorErrorEntry).note item.key).entry key).isSome = true
    rw [StageState.entry_note]
    exact st.isSome_entry_put _ _ _ h

theorem grows_backfillTags (item : PipelineItem) :
    Moves (Grows .senseJudge) (backfillTags s item) := by
  unfold backfillTags
  exact grows_updateOther (by decide) _

theorem grows_mergeMapping (mapping : Dict) : Moves (Grows .senseJudge) (mergeMapping mapping) := by
  refine grows_update fun st key h => ?_
  induction mapping generalizing st with
  | nil => exact h
  | cons e mapping ih => exact ih _ (st.isSome_entry_put _ _ _ h)

theorem grows_judgeAhead (items : List PipelineItem) :
    Moves (Grows .senseJudge) (judgeAhead s items) := by
  unfold judgeAhead
  split
  · exact grows_pure _
  · refine grows_bind grows_get fun w => ?_
    refine grows_bind (grows_forM fun u _ => grows_forM fun item _ => grows_backfillTags item)
      fun _ => ?_
    refine grows_bind grows_get fun w' => ?_
    refine grows_bind (grows_forM fun mapping _ => ?_) fun _ => ?_
    · exact grows_bind (grows_mergeMapping mapping) fun _ =>
        grows_of_keeps (keeps_flushNow fun _ => rfl)
    · refine grows_bind (grows_of_keeps (keeps_runLeg _)) fun answer => ?_
      obtain ⟨maps, terminal⟩ := answer
      exact grows_bind (grows_forM fun m _ => grows_mergeMapping m.2) fun _ => grows_pure _

theorem grows_recordVerdict (verdicts : String → Option JsonValue) (item : PipelineItem) :
    Moves (Grows .senseJudge) (recordVerdict verdicts item) := by
  refine grows_bind grows_get fun w => grows_update fun st key h => ?_
  dsimp only
  split
  · rw [StageState.entry_note]
    exact st.isSome_entry_put _ _ _ h
  · exact st.isSome_entry_put _ _ _ h

theorem grows_judgeOneBatch (ask : AskJudge) (batchNo : Nat) (batch : List PipelineItem) :
    Moves (Grows .senseJudge) (judgeOneBatch s ask batchNo batch) := by
  refine grows_bind grows_get fun w => Moves.ite (grows_pure _) ?_
  refine grows_bind (grows_forM fun item _ => grows_backfillTags item) fun _ => ?_
  refine grows_bind grows_get fun w' => ?_
  exact grows_bind grows_callLeg fun verdicts =>
    grows_forM fun item _ => grows_recordVerdict verdicts item

theorem grows_recordVector (vecs : String → Option JsonValue) (item : PipelineItem) :
    Moves (Grows .topicVectors) (recordVector s vecs item) := by
  refine grows_bind grows_get fun w => grows_update fun st key h => ?_
  split
  · exact st.isSome_entry_put _ _ _ h
  · refine StageState.isSome_entry_put _ _ _ _ ?_
    rwa [StageState.entry_note]

theorem grows_vectorsBatch (batchNo : Nat) (batch : List PipelineItem) :
    Moves (Grows .topicVectors) (vectorsBatch s batchNo batch) := by
  refine grows_bind grows_get fun w => Moves.ite (grows_pure _) ?_
  exact grows_bind grows_callLeg fun vecs => grows_forM fun item _ => grows_recordVector vecs item

theorem grows_vectorsStage (items : List PipelineItem) :
    Moves (Grows .topicVectors) (vectorsStage s items) :=
  grows_bind (grows_overBatches grows_vectorsBatch) fun _ => grows_requireDicts _

theorem grows_recordLabel (assigned : String → Option JsonValue) (item : PipelineItem) :
    Moves (Grows .topicLabel) (recordLabel assigned item) := by
  unfold recordLabel
  split
  · exact grows_put _ _
  · exact Moves.throw _

theorem grows_labelBatchOf (batchNo : Nat) (batch : List PipelineItem) :
    Moves (Grows .topicLabel) (labelBatchOf s batchNo batch) := by
  refine grows_bind grows_get fun w => Moves.ite (grows_pure _) ?_
  exact grows_bind grows_callLeg fun assigned =>
    grows_forM fun item _ => grows_recordLabel assigned item

theorem grows_labelStage (items : List PipelineItem) :
    Moves (Grows .topicLabel) (labelStage s items) :=
  grows_overBatches grows_labelBatchOf

theorem grows_enrichOne (item : PipelineItem) : Moves (Grows .enrich) (enrichOne s item) := by
  refine grows_bind grows_get fun w => Moves.ite ?_ (grows_pure _)
  refine grows_bind (grows_of_keeps (keeps_runLeg _)) fun primary => ?_
  refine grows_bind (grows_of_keeps (keeps_runLeg _)) fun extras => ?_
  exact grows_put _ _

theorem grows_enrichStage (items : List PipelineItem) :
    Moves (Grows .enrich) (enrichStage s items) :=
  grows_overBatches fun _ _ => grows_forM fun item _ => grows_enrichOne item

end Grows

def SameJudged (w w' : PipelineWorld) : Prop :=
  ∀ key, ((w'.states .senseJudge).entry key).isSome = ((w.states .senseJudge).entry key).isSome

section SameJudged
variable {s : PipelineSession}

theorem SameJudged.refl (w : PipelineWorld) : SameJudged w w := fun _ => rfl

theorem SameJudged.trans (a b c : PipelineWorld) (hab : SameJudged a b) (hbc : SameJudged b c) :
    SameJudged a c := fun key => (hbc key).trans (hab key)

theorem SameJudged.grows {w w' : PipelineWorld} (h : SameJudged w w') : Grows .senseJudge w w' :=
  fun key hkey => (h key).trans hkey

theorem sameJudged_of_keeps {α : Type} {m : Pipeline α}
    (h : Keeps (fun w : PipelineWorld => w.states .senseJudge) m) : Moves SameJudged m :=
  Moves.of_keeps (fun w w' hsame key => by
    have heq : w'.states .senseJudge = w.states .senseJudge := hsame
    rw [heq]) h

theorem sameJudged_properPass (items : List PipelineItem) :
    Moves SameJudged (properPass s items) := by
  refine Moves.bind SameJudged.trans (Moves.get SameJudged.refl) fun w => ?_
  refine Moves.bind SameJudged.trans (Moves.forM SameJudged.refl SameJudged.trans fun item _ => ?_)
    fun _ => ?_
  · intro w
    apply Ends.bind
    apply Ends.get
    by_cases hneeds : needsProper (w.states .senseJudge) item = true
    · simp only [if_pos hneeds]
      apply Ends.bind
      have hleg : Keeps id (runLeg (s.legs.properRoute item ((w.states .senseJudge).entryOr item.key)
          ((w.states .anchorRank).entry item.key))) := keeps_runLeg _
      refine (hleg w).mono (fun verdict w' hw => ?_) fun _ _ _ => trivial
      obtain rfl : w' = w := hw
      intro key
      simp only [Function.update_self]
      have hthere : ((w'.states .senseJudge).entry item.key).isSome = true := by
        unfold needsProper at hneeds
        split at hneeds
        · rename_i e he
          rw [he]
          rfl
        · cases hneeds
      have hput : ∀ st : StageState, (st.entry item.key).isSome = true → ∀ value,
          ((st.put item.key value).entry key).isSome = (st.entry key).isSome := by
        intro st hst value
        rw [StageState.entry_put]
        by_cases hkey : key = item.key
        · rw [if_pos hkey, hkey, hst]
          rfl
        · rw [if_neg hkey]
      split
      · exact hput _ hthere _
      · rw [StageState.entry_note]
        exact hput _ hthere _
    · simp only [if_neg hneeds]
      exact Ends.pure (SameJudged.refl w)
  · exact Moves.ite (sameJudged_of_keeps (keeps_flushNow fun _ => rfl))
      (Moves.pure SameJudged.refl _)

theorem grows_judgeStage (items : List PipelineItem) :
    Moves (Grows .senseJudge) (judgeStage s items) := by
  refine grows_bind (grows_judgeAhead items) fun ask => ?_
  refine grows_bind (grows_overBatches fun n batch => grows_judgeOneBatch ask n batch) fun _ => ?_
  refine grows_bind (grows_requireDicts _) fun _ => ?_
  exact fun w => (sameJudged_properPass items w).mono (fun _ _ h => h.grows) fun _ _ _ => trivial

end SameJudged

/-! ## A selected stage has an entry for each of its items -/

def Covers (stage : Stage) (items : List PipelineItem) (w : PipelineWorld) : Prop :=
  ∀ item ∈ items, ((w.states stage).entry item.key).isSome = true

section Covers
variable {s : PipelineSession} {stage : Stage} {w : PipelineWorld} {items : List PipelineItem}

theorem mem_stageBatches {width : Nat} (hwidth : 0 < width) {item : PipelineItem}
    (h : item ∈ items) : ∃ b ∈ stageBatches true items width, item ∈ b.2 := by
  obtain ⟨base, hrange, hitem⟩ := exists_stageRange hwidth h
  obtain ⟨⟨base, batchNo⟩, hbatch, rfl⟩ : ∃ p ∈ (stageRange true items.length width).zipIdx 1,
      p.1 = base := by
    rw [← List.zipIdx_map_fst 1 (stageRange true items.length width)] at hrange
    exact List.mem_map.mp hrange
  exact ⟨_, List.mem_map.mpr ⟨_, hbatch, rfl⟩, hitem⟩

theorem Covers.grows {w' : PipelineWorld} (h : Covers stage items w) (hgrows : Grows stage w w') :
    Covers stage items w' := fun item hitem => hgrows item.key (h item hitem)

theorem covers_of_todo {m : Pipeline Unit} (hmoves : Moves (Grows stage) m)
    (h : Ends m w (fun _ w' => Covers stage (todoOf w.states stage items) w') fun _ _ => True) :
    Ends m w (fun _ w' => Covers stage items w') fun _ _ => True := by
  refine (hmoves.and h).mono ?_ fun _ _ _ => trivial
  rintro _ w' ⟨htodo, hgrows⟩ item hitem
  by_cases hdone : ((w.states stage).entry item.key).isNone = true
  · exact htodo item (List.mem_filter.mpr ⟨hitem, hdone⟩)
  · exact hgrows item.key (Option.isNone_eq_false_iff.mp (eq_false_of_ne_true hdone))

theorem covers_forM {g : PipelineItem → Pipeline Unit}
    (hmoves : ∀ item ∈ items, Moves (Grows stage) (g item))
    (hitem : ∀ item ∈ items, ∀ w, Ends (g item) w
      (fun _ w' => ((w'.states stage).entry item.key).isSome = true) fun _ _ => True) :
    Ends (items.forM g) w (fun _ w' => Covers stage items w') fun _ _ => True :=
  Moves.forM_all Grows.refl (fun item _ _ h hgrows => hgrows item.key h) hmoves hitem Grows.trans w

theorem covers_overBatches {width : Nat} {body : Nat → List PipelineItem → Pipeline Unit}
    (hselected : s.selection.selected stage = true) (hwidth : 0 < width)
    (hmoves : ∀ n batch, Moves (Grows stage) (body n batch))
    (hbody : ∀ n batch w, Ends (body n batch) w (fun _ w' => Covers stage batch w')
      fun _ _ => True) :
    Ends (overBatches s stage width items body) w (fun _ w' => Covers stage items w')
      fun _ _ => True := by
  have hflush : Moves (Grows stage) flushNow := grows_of_keeps (keeps_flushNow fun _ => rfl)
  have hkeep : ∀ (b : Nat × List PipelineItem) w w', Covers stage b.2 w → Grows stage w w' →
      Covers stage b.2 w' := fun _ _ _ h hgrows => h.grows hgrows
  refine (Moves.forM_all Grows.refl hkeep
    (fun b _ => grows_bind (hmoves b.1 b.2) fun _ => hflush) (fun b _ w => ?_) Grows.trans w).mono (fun _ w' h item hitem => ?_) fun _ _ _ => trivial
  · apply Ends.bind
    refine (hbody b.1 b.2 w).mono (fun _ w₁ h₁ => ?_) fun _ _ _ => trivial
    exact (hflush w₁).mono (fun _ w₂ h₂ => h₁.grows h₂) fun _ _ _ => trivial
  · rw [hselected] at h
    obtain ⟨b, hb, hmem⟩ := mem_stageBatches hwidth hitem
    exact h b hb item hmem

/-! ### Stage by stage -/

theorem entry_put_self (st : StageState) (key : String) (value : JsonValue) :
    ((st.put key value).entry key).isSome = true := by
  rw [StageState.entry_put, if_pos rfl]
  rfl

theorem ends_updateState {key : String} {g : StageState → StageState}
    (h : ∀ st, ((g st).entry key).isSome = true) :
    Ends (updateState stage g) w (fun _ w' => ((w'.states stage).entry key).isSome = true)
      fun _ _ => True := by
  apply Ends.modify
  simp only [Function.update_self]
  exact h _

theorem covers_preprocessStage (hselected : s.selection.selected .preprocess = true) :
    Ends (preprocessStage s items) w (fun _ w' => Covers .preprocess items w') fun _ _ => True := by
  apply Ends.bind
  refine (covers_overBatches hselected (by decide)
    (fun _ batch => grows_forM fun item _ => grows_preprocessItem item) (fun _ batch w => ?_)).mono
      (fun _ w' h => (grows_requireDicts _ w').mono (fun _ _ h' => h.grows h') fun _ _ _ => trivial)
      fun _ _ _ => trivial
  refine covers_forM (fun item _ => grows_preprocessItem item) fun item _ w => ?_
  apply Ends.bind
  apply Ends.get
  by_cases hdone : ((w.states .preprocess).entry item.key).isNone = true
  · simp only [if_pos hdone]
    apply Ends.bind_any
    intro verdict w₁
    apply Ends.bind
    refine (ends_updateState fun st => entry_put_self st item.key verdict).mono (fun _ w₂ h₂ => ?_)
      fun _ _ _ => trivial
    have hnote : Moves (Grows .preprocess) (if (field verdict "kept").truthy then pure ()
        else updateState .preprocess (·.note item.key)) :=
      Moves.ite (grows_pure _) (grows_update fun st key h => by rwa [StageState.entry_note])
    exact (hnote w₂).mono (fun _ _ h₃ => h₃ item.key h₂) fun _ _ _ => trivial
  · simp only [if_neg hdone]
    exact Ends.pure (Option.isNone_eq_false_iff.mp (eq_false_of_ne_true hdone))

theorem isSome_entry_recordReview (verdicts : String → Option ReviewVerdict) (entry : ReviewEntry) :
    Ends (recordReview s verdicts entry) w
      (fun _ w' => ((w'.states .inflectionReview).entry entry.key).isSome = true)
      fun _ _ => True := by
  unfold recordReview
  refine ends_updateState fun st => ?_
  dsimp only
  split
  · exact entry_put_self _ _ _
  · rw [StageState.entry_note]
    exact entry_put_self _ _ _

theorem covers_of_reviewed {todo : List PipelineItem}
    (hplain : Covers .inflectionReview
      (todo.filter fun item => (s.legs.needsReview item).isNone) w)
    (hentries : ∀ entry ∈ reviewEntries s todo,
      ((w.states .inflectionReview).entry entry.key).isSome = true) :
    Covers .inflectionReview todo w := by
  intro item hitem
  cases hneeds : s.legs.needsReview item with
  | none =>
    refine hplain item (List.mem_filter.mpr ⟨hitem, ?_⟩)
    rw [hneeds]
    rfl
  | some gloss =>
    refine hentries ⟨item.key, item.text, gloss⟩ (List.mem_filterMap.mpr ⟨item, hitem, ?_⟩)
    rw [hneeds]
    rfl

theorem ends_reviewEntries {entries : List ReviewEntry} {g : ReviewEntry → Pipeline Unit}
    (hgrows : ∀ entry, Moves (Grows .inflectionReview) (g entry))
    (hentry : ∀ entry w, Ends (g entry) w
      (fun _ w' => ((w'.states .inflectionReview).entry entry.key).isSome = true)
      fun _ _ => True) :
    Ends (entries.forM g) w (fun _ w' => (∀ entry ∈ entries,
      ((w'.states .inflectionReview).entry entry.key).isSome = true) ∧
        Grows .inflectionReview w w') fun _ _ => True := by
  refine Moves.and (grows_forM fun entry _ => hgrows entry) ?_
  exact Moves.forM_all Grows.refl (fun entry _ _ h hmoved => hmoved entry.key h)
    (fun entry _ => hgrows entry) (fun entry _ w => hentry entry w) Grows.trans w

theorem covers_inflectionBatch (batchNo : Nat) (batch : List PipelineItem) :
    Ends (inflectionBatch s batchNo batch) w (fun _ w' => Covers .inflectionReview batch w')
      fun _ _ => True := by
  -- the batch only adds entries, so it is enough that it has those of the items to do
  refine covers_of_todo (grows_inflectionBatch batchNo batch) ?_
  apply Ends.bind
  apply Ends.get
  generalize todoOf w.states .inflectionReview batch = todo
  have hplain : ∀ item ∈ todo.filter fun item => (s.legs.needsReview item).isNone, ∀ w,
      Ends (updateState .inflectionReview (·.put item.key
        (.obj (reviewNote true "not-inflection" false)))) w
        (fun _ w' => ((w'.states .inflectionReview).entry item.key).isSome = true)
        fun _ _ => True := fun item _ w => ends_updateState fun st => entry_put_self _ _ _
  apply Ends.bind
  refine (covers_forM (fun item _ => grows_put _ _) hplain).mono (fun _ w₁ h₁ => ?_)
    fun _ _ _ => trivial
  by_cases hnone : reviewEntries s todo = []
  · simp only [if_pos hnone]
    exact Ends.pure (covers_of_reviewed h₁ (by rw [hnone]; exact nofun))
  · simp only [if_neg hnone]
    split
    · apply Ends.bind
      refine (grows_callLeg w₁).mono (fun verdicts w₂ h₂ => ?_) fun _ _ _ => trivial
      exact (ends_reviewEntries (grows_recordReview verdicts)
        fun entry _ => isSome_entry_recordReview verdicts entry).mono
          (fun _ w₃ h₃ => covers_of_reviewed ((h₁.grows h₂).grows h₃.2) h₃.1) fun _ _ _ => trivial
    · exact (ends_reviewEntries (fun entry => grows_put _ _)
        fun entry _ => ends_updateState fun st => entry_put_self _ _ _).mono
          (fun _ w₂ h₂ => covers_of_reviewed (h₁.grows h₂.2) h₂.1) fun _ _ _ => trivial

theorem covers_inflectionStage (hselected : s.selection.selected .inflectionReview = true) :
    Ends (inflectionStage s items) w (fun _ w' => Covers .inflectionReview items w')
      fun _ _ => True := by
  apply Ends.bind
  refine (covers_overBatches hselected (by decide) grows_inflectionBatch
    fun batchNo batch _ => covers_inflectionBatch batchNo batch).mono (fun _ w' h => ?_)
      fun _ _ _ => trivial
  exact (grows_requireDicts _ w').mono (fun _ _ h' => h.grows h') fun _ _ _ => trivial

theorem covers_anchorItem (item : PipelineItem) :
    Ends (anchorItem s item) w (fun _ w' => ((w'.states .anchorRank).entry item.key).isSome = true)
      fun _ _ => True := by
  apply Ends.bind
  apply Ends.get
  by_cases hrank : needsRank s ((w.states .anchorRank).entry item.key) = true
  · simp only [if_pos hrank]
    split
    · exact ends_updateState fun st => entry_put_self _ _ _
    · exact Ends.throw trivial
    · refine ends_updateState fun st => ?_
      change (((st.put item.key anchorErrorEntry).note item.key).entry item.key).isSome = true
      rw [StageState.entry_note]
      exact entry_put_self _ _ _
  · simp only [if_neg hrank]
    apply Ends.pure
    -- what is not ranked is there
    cases hentry : (w.states .anchorRank).entry item.key with
    | none =>
      rw [hentry] at hrank
      exact absurd rfl hrank
    | some entry => rfl

theorem covers_anchorStage (hselected : s.selection.selected .anchorRank = true) :
    Ends (anchorStage s items) w (fun _ w' => Covers .anchorRank items w') fun _ _ => True :=
  covers_overBatches hselected (by decide)
    (fun _ _ => grows_forM fun item _ => grows_anchorItem item)
    fun _ _ _ => covers_forM (fun item _ => grows_anchorItem item) fun item _ _ =>
      covers_anchorItem item

theorem covers_judgeOneBatch (ask : AskJudge) (batchNo : Nat) (batch : List PipelineItem) :
    Ends (judgeOneBatch s ask batchNo batch) w (fun _ w' => Covers .senseJudge batch w')
      fun _ _ => True := by
  refine covers_of_todo (grows_judgeOneBatch ask batchNo batch) ?_
  apply Ends.bind
  apply Ends.get
  generalize todoOf w.states .senseJudge batch = todo
  by_cases htodo : todo = []
  · simp only [if_pos htodo]
    refine Ends.pure ?_
    rw [htodo]
    exact nofun
  · simp only [if_neg htodo]
    iterate 3
      apply Ends.bind_any
      intro _ _
    refine covers_forM (fun item _ => grows_recordVerdict _ item) fun item _ w => ?_
    apply Ends.bind
    apply Ends.get
    refine ends_updateState fun st => ?_
    dsimp only
    split
    · rw [StageState.entry_note]
      exact entry_put_self _ _ _
    · exact entry_put_self _ _ _

theorem covers_judgeStage (hselected : s.selection.selected .senseJudge = true) :
    Ends (judgeStage s items) w (fun _ w' => Covers .senseJudge items w') fun _ _ => True := by
  apply Ends.bind_any
  intro ask w₁
  apply Ends.bind
  refine (covers_overBatches hselected (by decide) (grows_judgeOneBatch ask)
    fun n batch _ => covers_judgeOneBatch ask n batch).mono (fun _ w₂ h₂ => ?_) fun _ _ _ => trivial
  have hrest : Moves (Grows .senseJudge) (requireDicts .senseJudge >>= fun _ => properPass s items) :=
    grows_bind (grows_requireDicts _) fun _ w =>
      (sameJudged_properPass items w).mono (fun _ _ h => h.grows) fun _ _ _ => trivial
  exact (hrest w₂).mono (fun _ _ h₃ => h₂.grows h₃) fun _ _ _ => trivial

theorem covers_vectorsBatch (batchNo : Nat) (batch : List PipelineItem) :
    Ends (vectorsBatch s batchNo batch) w (fun _ w' => Covers .topicVectors batch w')
      fun _ _ => True := by
  refine covers_of_todo (grows_vectorsBatch batchNo batch) ?_
  apply Ends.bind
  apply Ends.get
  by_cases htodo : todoOf w.states .topicVectors batch = []
  · simp only [if_pos htodo]
    refine Ends.pure ?_
    rw [htodo]
    exact nofun
  · simp only [if_neg htodo]
    apply Ends.bind_any
    intro vecs _
    refine covers_forM (fun item _ => grows_recordVector vecs item) fun item _ w => ?_
    apply Ends.bind
    apply Ends.get
    refine ends_updateState fun st => ?_
    split
    · exact entry_put_self _ _ _
    · exact entry_put_self _ _ _

theorem covers_vectorsStage (hselected : s.selection.selected .topicVectors = true) :
    Ends (vectorsStage s items) w (fun _ w' => Covers .topicVectors items w') fun _ _ => True := by
  apply Ends.bind
  refine (covers_overBatches hselected (by decide) grows_vectorsBatch
    fun batchNo batch _ => covers_vectorsBatch batchNo batch).mono (fun _ w' h => ?_)
      fun _ _ _ => trivial
  exact (grows_requireDicts _ w').mono (fun _ _ h' => h.grows h') fun _ _ _ => trivial

theorem covers_labelBatchOf (batchNo : Nat) (batch : List PipelineItem) :
    Ends (labelBatchOf s batchNo batch) w (fun _ w' => Covers .topicLabel batch w')
      fun _ _ => True := by
  refine covers_of_todo (grows_labelBatchOf batchNo batch) ?_
  apply Ends.bind
  apply Ends.get
  -- the items without a label are among those that are labelled
  have hmem : ∀ item ∈ todoOf w.states .topicLabel batch, item ∈ labelTodo s w.states batch := by
    intro item hitem
    obtain ⟨hbatch, hnone⟩ := List.mem_filter.mp hitem
    exact List.mem_filter.mpr ⟨hbatch, by rw [hnone, Bool.true_or]⟩
  by_cases htodo : labelTodo s w.states batch = []
  · simp only [if_pos htodo]
    refine Ends.pure fun item hitem => ?_
    have hlabel := hmem item hitem
    rw [htodo] at hlabel
    cases hlabel
  · simp only [if_neg htodo]
    apply Ends.bind_any
    intro assigned _
    refine (covers_forM (fun item _ => grows_recordLabel assigned item) fun item _ w => ?_).mono
      (fun _ _ h item hitem => h item (hmem item hitem)) fun _ _ _ => trivial
    unfold recordLabel
    split
    · exact ends_updateState fun st => entry_put_self _ _ _
    · exact Ends.throw trivial

theorem covers_labelStage (hselected : s.selection.selected .topicLabel = true) :
    Ends (labelStage s items) w (fun _ w' => Covers .topicLabel items w') fun _ _ => True :=
  covers_overBatches hselected (by decide) grows_labelBatchOf fun batchNo batch _ =>
    covers_labelBatchOf batchNo batch

theorem covers_enrichStage (hselected : s.selection.selected .enrich = true) :
    Ends (enrichStage s items) w (fun _ w' => Covers .enrich items w') fun _ _ => True := by
  refine covers_overBatches hselected (by decide)
    (fun _ _ => grows_forM fun item _ => grows_enrichOne item) fun _ _ _ =>
      covers_forM (fun item _ => grows_enrichOne item) fun item _ w => ?_
  apply Ends.bind
  apply Ends.get
  by_cases hneeds : needsEnrich s ((w.states .enrich).entry item.key)
      ((w.states .senseJudge).entry item.key) = true
  · simp only [if_pos hneeds]
    apply Ends.bind_any
    intro primary _
    apply Ends.bind_any
    intro extras _
    exact ends_updateState fun st => entry_put_self _ _ _
  · simp only [if_neg hneeds]
    apply Ends.pure
    cases hentry : (w.states .enrich).entry item.key with
    | none =>
      rw [hentry] at hneeds
      exact absurd rfl hneeds
    | some entry => rfl

end Covers

end HamZaboon
