import HamZaboon.Precard.Judge
import Mathlib.Data.List.Nodup

/-! # The judge stage, one batch at a time and all at once

The `sense_judge` stage of the pipeline.  The synchronous path asks for the
verdicts of a batch when the loop comes to it; the asynchronous one asks for all
batches at once, merges what was accepted, and runs the same loop over the rest.

The two ends of the asynchronous path differ from the synchronous ones where
several batches hit a terminal error, where the one that does is not the first,
and where a rejected batch falls back to a pick the veto would change
(`judges_like_sync_iff`).
-/

namespace HamZaboon

/-- The errors that end the stage; all but `auth` are `RateLimited`. -/
inductive TerminalKind
  | auth
  | providerCooldown
  | locationBlocked
  | rateLimited
  deriving DecidableEq, Repr

structure TerminalError where
  kind : TerminalKind
  text : String
  deriving DecidableEq, Repr

/-- What becomes of a batch: the validated reply of a model, no reply that
validates, or a terminal error. -/
inductive BatchOutcome
  | accepted (model : String) (valid : String → JudgeEntry)
  | rejected
  | terminal (e : TerminalError)

/-- How the stage ends: at its last batch, with `STOP s2 at batch …`, with the
abort of a refused key, or with an exception that no handler has seen. -/
inductive StageEnd
  | finished
  | stopped (batchNo : Nat) (text : String)
  | aborted (e : TerminalError)
  | raised (e : TerminalError)
  deriving DecidableEq, Repr

/-- `states["sense_judge"]`. -/
structure JudgeState where
  done : String → Option JudgeEntry
  failed : List String := []

def judgeBatch : Nat := 12

def stageRange (selected : Bool) (n width : Nat) : List Nat :=
  if selected then (List.range ((n + width - 1) / width)).map (· * width) else []

theorem exists_stageRange {α : Type} {items : List α} {width : Nat} (hwidth : 0 < width) {x : α}
    (h : x ∈ items) : ∃ base ∈ stageRange true items.length width,
      x ∈ (items.drop base).take width := by
  obtain ⟨i, hi, hget⟩ := List.mem_iff_getElem.mp h
  refine ⟨i / width * width, List.mem_map.mpr ⟨i / width, List.mem_range.mpr ?_, rfl⟩, ?_⟩
  · have hceil : (items.length + width - 1) / width = (items.length - 1) / width + 1 := by
      rw [← Nat.add_div_right _ hwidth]
      congr 1
      omega
    rw [hceil, Nat.lt_succ_iff]
    exact Nat.div_le_div_right (by omega)
  · have hbase : i / width * width ≤ i := Nat.div_mul_le_self i width
    have hlast : i - i / width * width < width := by
      have hmod := Nat.mod_lt i hwidth
      have hdiv := Nat.div_add_mod' i width
      omega
    refine List.mem_of_getElem? (i := i - i / width * width) ?_
    rw [List.getElem?_take_of_lt hlast, List.getElem?_drop, Nat.add_sub_cancel' hbase,
      List.getElem?_eq_getElem hi, hget]

/-- The batches of keys, numbered from 1. -/
def judgeBatches (selected : Bool) (items : List SampleItem) : List (Nat × List String) :=
  ((stageRange selected items.length judgeBatch).zipIdx 1).map fun (base, batchNo) =>
    (batchNo, (((items.drop base).take judgeBatch).map sourceItemKey))

/-- The handlers of the loop. -/
def stageError (batchNo : Nat) (e : TerminalError) : StageEnd :=
  if e.kind = .auth then .aborted e else .stopped batchNo e.text

namespace JudgeState

/-- The items of a batch that are not done. -/
def todo (s : JudgeState) (batch : List String) : List String :=
  batch.filter fun key => (s.done key).isNone

/-- `states["sense_judge"]["done"][key] = verdict`. -/
def put (s : JudgeState) (key : String) (verdict : JudgeEntry) : JudgeState :=
  { s with done := Function.update s.done key (some verdict) }

/-- An item is recorded, and noted as failed where the verdict is a fallback. -/
def record (s : JudgeState) (key : String) (verdict : JudgeEntry) : JudgeState :=
  { s.put key verdict with
    failed := if verdict.model.startsWith "s1-" ∧ key ∉ s.failed then s.failed ++ [key]
      else s.failed }

end JudgeState

section Stage
variable (isStub : String → Bool) (anchor : String → List SensePick)

/-- The verdicts for the items of a batch, or none for a single one. -/
abbrev Verdicts := String → Option JudgeEntry

/-- The loop over the items of a batch. -/
def recordBatch (verdicts : Verdicts) (s : JudgeState) (todo : List String) : JudgeState :=
  todo.foldl (fun s key => s.record key ((verdicts key).getD (arbiterFallback (anchor key)))) s

def judgeLoop (verdictsOf : Nat → List String → Except TerminalError Verdicts) :
    List (Nat × List String) → JudgeState → JudgeState × StageEnd
  | [], s => (s, .finished)
  | (batchNo, batch) :: batches, s =>
    if s.todo batch = [] then judgeLoop verdictsOf batches s
    else
      match verdictsOf batchNo (s.todo batch) with
      | .error e => (s, stageError batchNo e)
      | .ok verdicts => judgeLoop verdictsOf batches (recordBatch anchor verdicts s (s.todo batch))

/-- A validated verdict with its model, vetoed. -/
def acceptedEntry (model : String) (valid : String → JudgeEntry) (key : String) : JudgeEntry :=
  applyInflectionVeto isStub (anchor key) { valid key with model := model }

def arbiterBatch (outcome : BatchOutcome) (todo : List String) : Except TerminalError Verdicts :=
  match outcome with
  | .accepted model valid => .ok fun key =>
    if key ∈ todo then some (acceptedEntry isStub anchor model valid key) else none
  | .rejected => .ok fun key =>
    if key ∈ todo then some (vetoedFallback isStub (anchor key)) else none
  | .terminal e => .error e

variable (outcome : Nat → BatchOutcome)

def judgeSync (batches : List (Nat × List String)) (s : JudgeState) : JudgeState × StageEnd :=
  judgeLoop anchor (fun batchNo todo => arbiterBatch isStub anchor (outcome batchNo) todo) batches s

/-! ## The asynchronous path -/

def judgeUnits (s : JudgeState) (batches : List (Nat × List String)) : List (Nat × List String) :=
  (batches.map fun b => (b.1, s.todo b.2)).filter fun u => u.2 ≠ []

/-- What `judge_batch_async` returns: the mapping of a reply that validates, and
an empty one for a rejected batch. -/
def judgeBatchAsync (u : Nat × List String) : Except TerminalError Verdicts :=
  match outcome u.1 with
  | .accepted model valid => .ok fun key =>
    if key ∈ u.2 then some (acceptedEntry isStub anchor model valid key) else none
  | .rejected => .ok fun _ => none
  | .terminal e => .error e

/-- What a mapping has for an item is written. -/
def mergeKey (mapping : Verdicts) (s : JudgeState) (key : String) : JudgeState :=
  match mapping key with
  | some verdict => s.put key verdict
  | none => s

def mergeUnit (s : JudgeState) (u : Nat × List String) : JudgeState :=
  match judgeBatchAsync isStub anchor outcome u with
  | .ok mapping => u.2.foldl (mergeKey mapping) s
  | .error _ => s

def unitErrors (units : List (Nat × List String)) : List TerminalError :=
  units.filterMap fun u =>
    match judgeBatchAsync isStub anchor outcome u with
    | .ok _ => none
    | .error e => some e

/-- `async_verdicts.get(batch_no, {})`. -/
def asyncVerdicts (units : List (Nat × List String)) (batchNo : Nat) : Verdicts :=
  match units.find? (·.1 = batchNo) with
  | none => fun _ => none
  | some u =>
    match judgeBatchAsync isStub anchor outcome u with
    | .ok mapping => mapping
    | .error _ => fun _ => none

structure SettleOrder (units : List (Nat × List String)) where
  order : List (Nat × List String)
  perm : order.Perm units

/-- The stage with an asynchronous judge: each unit is merged as it settles and
all again in their order; a second terminal error leaves `run_batches_async` as
it is, and the first is raised at the first batch that had something to do. -/
def judgeAsync (batches : List (Nat × List String)) (s : JudgeState)
    (settled : SettleOrder (judgeUnits s batches)) : JudgeState × StageEnd :=
  let units := judgeUnits s batches
  let sunk := settled.order.foldl (mergeUnit isStub anchor outcome) s
  match unitErrors isStub anchor outcome units with
  | _ :: second :: _ => (sunk, .raised second)
  | errors =>
    let merged := units.foldl (mergeUnit isStub anchor outcome) sunk
    judgeLoop anchor (fun batchNo _ =>
      match errors.head? with
      | some e =>
        if units.head?.map (·.1) = some batchNo then .error e
        else .ok (asyncVerdicts isStub anchor outcome units batchNo)
      | none => .ok (asyncVerdicts isStub anchor outcome units batchNo)) batches merged

/-! ## What the stage promises -/

/-- What is recorded for an item of a batch with this outcome. -/
def dueEntry (o : BatchOutcome) (key : String) : Option JudgeEntry :=
  match o with
  | .accepted model valid => some (acceptedEntry isStub anchor model valid key)
  | .rejected => some (vetoedFallback isStub (anchor key))
  | .terminal _ => none

/-- The asynchronous stage records what is due for every batch, and after a
terminal error it ends as the synchronous one. -/
def JudgesLikeSync (batches : List (Nat × List String)) (s : JudgeState)
    (settled : SettleOrder (judgeUnits s batches)) : Prop :=
  (∀ u ∈ judgeUnits s batches, ∀ key ∈ u.2,
    (judgeAsync isStub anchor outcome batches s settled).1.done key =
      dueEntry isStub anchor (outcome u.1) key) ∧
  ((∃ u ∈ judgeUnits s batches, ∃ e, outcome u.1 = .terminal e) →
    (judgeAsync isStub anchor outcome batches s settled).2 =
      (judgeSync isStub anchor outcome batches s).2)

/-- Some unit with the key is accepted. -/
def Covered (units : List (Nat × List String)) (key : String) : Prop :=
  ∃ u ∈ units, key ∈ u.2 ∧ ∃ model valid, outcome u.1 = .accepted model valid

/-- The units that share a key are due the same for it. -/
def UnitsAgree (units : List (Nat × List String)) : Prop :=
  ∀ u ∈ units, ∀ u' ∈ units, ∀ key ∈ u.2, key ∈ u'.2 →
    dueEntry isStub anchor (outcome u.1) key = dueEntry isStub anchor (outcome u'.1) key

/-- No unit has a terminal error, and the veto keeps the fallback of every
rejected item that no accepted unit has too. -/
def FallsBackUnvetoed (units : List (Nat × List String)) : Prop :=
  (∀ u ∈ units, ∀ e, outcome u.1 ≠ .terminal e) ∧
  ∀ u ∈ units, outcome u.1 = .rejected → ∀ key ∈ u.2, Covered outcome units key ∨
    vetoedFallback isStub (anchor key) = arbiterFallback (anchor key)

/-- The first unit alone has a terminal error, and every rejected item is in an
accepted unit too. -/
def StopsAtFirst (units : List (Nat × List String)) : Prop :=
  ∃ first rest e, units = first :: rest ∧ outcome first.1 = .terminal e ∧
    (∀ u ∈ rest, ∀ e', outcome u.1 ≠ .terminal e') ∧
    ∀ u ∈ rest, outcome u.1 = .rejected → ∀ key ∈ u.2, Covered outcome units key

/-! ## Merging -/

section Merge
variable {isStub anchor outcome}
variable {s : JudgeState} {units : List (Nat × List String)} {key : String}

theorem foldl_mergeKey_done (mapping : Verdicts) (keys : List String) (s : JudgeState)
    (key : String) : (keys.foldl (mergeKey mapping) s).done key =
      if key ∈ keys ∧ (mapping key).isSome = true then mapping key else s.done key := by
  induction keys generalizing s with
  | nil => simp
  | cons k keys ih =>
    rw [List.foldl_cons, ih, mergeKey]
    by_cases hk : key = k
    · subst hk
      cases hmapping : mapping key with
      | none => simp
      | some verdict => simp [JudgeState.put]
    · cases hmapping : mapping k with
      | none => simp [hk]
      | some verdict => simp [hk, JudgeState.put]

theorem mergeUnit_done (s : JudgeState) (u : Nat × List String) (key : String) :
    (mergeUnit isStub anchor outcome s u).done key =
      match outcome u.1 with
      | .accepted _ _ => if key ∈ u.2 then dueEntry isStub anchor (outcome u.1) key else s.done key
      | _ => s.done key := by
  unfold mergeUnit judgeBatchAsync
  cases houtcome : outcome u.1 with
  | accepted model valid =>
    simp only
    rw [foldl_mergeKey_done]
    by_cases hkey : key ∈ u.2
    · simp [hkey, dueEntry]
    · simp [hkey]
  | rejected =>
    simp only
    rw [foldl_mergeKey_done]
    simp
  | terminal e => rfl

variable (isStub anchor) in
theorem foldl_mergeUnit_done (units : List (Nat × List String)) (s : JudgeState) (key : String) :
    (Covered outcome units key → ∃ u ∈ units, key ∈ u.2 ∧
      (∃ model valid, outcome u.1 = .accepted model valid) ∧
      (units.foldl (mergeUnit isStub anchor outcome) s).done key =
        dueEntry isStub anchor (outcome u.1) key) ∧
    (¬ Covered outcome units key →
      (units.foldl (mergeUnit isStub anchor outcome) s).done key = s.done key) := by
  induction units generalizing s with
  | nil => exact ⟨fun ⟨_, h, _⟩ => absurd h List.not_mem_nil, fun _ => rfl⟩
  | cons u units ih =>
    rw [List.foldl_cons]
    obtain ⟨hcovered, huncovered⟩ := ih (mergeUnit isStub anchor outcome s u)
    by_cases hrest : Covered outcome units key
    · obtain ⟨u', hu', hrest'⟩ := hcovered hrest
      refine ⟨fun _ => ⟨u', List.mem_cons_of_mem u hu', hrest'⟩, fun h => ?_⟩
      obtain ⟨u'', hu'', h''⟩ := hrest
      exact absurd ⟨u'', List.mem_cons_of_mem u hu'', h''⟩ h
    · rw [huncovered hrest, mergeUnit_done]
      constructor
      · rintro ⟨u', hu', hkey, model, valid, haccepted⟩
        rcases List.mem_cons.mp hu' with rfl | hu'
        · refine ⟨u', List.mem_cons_self, hkey, ⟨model, valid, haccepted⟩, ?_⟩
          rw [haccepted]
          exact if_pos hkey
        · exact absurd ⟨u', hu', hkey, model, valid, haccepted⟩ hrest
      · intro h
        cases houtcome : outcome u.1 with
        | accepted model valid =>
          refine if_neg fun hkey => h ⟨u, List.mem_cons_self, hkey, model, valid, houtcome⟩
        | rejected => rfl
        | terminal e => rfl

end Merge

/-! ## The loop -/

section Loop
variable {anchor}
variable {verdictsOf : Nat → List String → Except TerminalError Verdicts}
variable {batches : List (Nat × List String)} {s : JudgeState} {key : String}

@[simp] theorem mem_todo {batch : List String} :
    key ∈ s.todo batch ↔ key ∈ batch ∧ s.done key = none := by
  rw [JudgeState.todo, List.mem_filter, Option.isNone_iff_eq_none]

theorem recordBatch_done (verdicts : Verdicts) (todo : List String) (s : JudgeState)
    (key : String) : (recordBatch anchor verdicts s todo).done key =
      if key ∈ todo then some ((verdicts key).getD (arbiterFallback (anchor key)))
      else s.done key := by
  induction todo generalizing s with
  | nil => simp [recordBatch]
  | cons k todo ih =>
    rw [recordBatch, List.foldl_cons, ← recordBatch, ih]
    by_cases hk : key = k
    · subst hk
      simp [JudgeState.record, JudgeState.put]
    · simp [JudgeState.record, JudgeState.put, hk]

theorem recordBatch_todo (verdicts : Verdicts) (batch : List String) (s : JudgeState) :
    (recordBatch anchor verdicts s (s.todo batch)).todo batch = [] := by
  rw [List.eq_nil_iff_forall_not_mem]
  intro key hkey
  rw [mem_todo, recordBatch_done] at hkey
  obtain ⟨hbatch, hdone⟩ := hkey
  split at hdone
  · cases hdone
  · rename_i hnot
    exact hnot (mem_todo.mpr ⟨hbatch, hdone⟩)

theorem judgeLoop_done_of_some {v : JudgeEntry} (h : s.done key = some v) :
    (judgeLoop anchor verdictsOf batches s).1.done key = some v := by
  induction batches generalizing s with
  | nil => exact h
  | cons b batches ih =>
    obtain ⟨batchNo, batch⟩ := b
    unfold judgeLoop
    split
    · exact ih h
    · split
      · exact h
      · refine ih ?_
        rw [recordBatch_done, if_neg fun hmem => ?_]
        · exact h
        · rw [mem_todo, h] at hmem
          cases hmem.2

theorem todo_eq_nil_of_judgeLoop {batch : List String} (h : s.todo batch = []) :
    (judgeLoop anchor verdictsOf batches s).1.todo batch = [] := by
  rw [List.eq_nil_iff_forall_not_mem] at h ⊢
  intro key hkey
  obtain ⟨hbatch, hnone⟩ := mem_todo.mp hkey
  cases hdone : s.done key with
  | none => exact h key (mem_todo.mpr ⟨hbatch, hdone⟩)
  | some v =>
    rw [judgeLoop_done_of_some hdone] at hnone
    cases hnone

theorem todo_of_finished (h : (judgeLoop anchor verdictsOf batches s).2 = .finished) :
    ∀ b ∈ batches, (judgeLoop anchor verdictsOf batches s).1.todo b.2 = [] := by
  induction batches generalizing s with
  | nil => exact nofun
  | cons b batches ih =>
    obtain ⟨batchNo, batch⟩ := b
    unfold judgeLoop at h ⊢
    intro b' hb'
    split
    · rename_i htodo
      rw [if_pos htodo] at h
      rcases List.mem_cons.mp hb' with rfl | hb'
      · exact todo_eq_nil_of_judgeLoop htodo
      · exact ih h b' hb'
    · rename_i htodo
      rw [if_neg htodo] at h
      cases hverdicts : verdictsOf batchNo (s.todo batch) with
      | error e =>
        rw [hverdicts] at h
        unfold stageError at h
        simp only at h
        split at h <;> cases h
      | ok verdicts =>
        rw [hverdicts] at h
        simp only at h ⊢
        rcases List.mem_cons.mp hb' with rfl | hb'
        · exact todo_eq_nil_of_judgeLoop (recordBatch_todo verdicts batch s)
        · exact ih h b' hb'

theorem judgeLoop_done (hopen : ∀ b ∈ batches, ∀ todo verdicts,
      verdictsOf b.1 todo = .ok verdicts → ∀ key, s.done key = none → key ∈ b.2 →
        verdicts key = none) (key : String) :
    (judgeLoop anchor verdictsOf batches s).1.done key = s.done key ∨
      (s.done key = none ∧ (judgeLoop anchor verdictsOf batches s).1.done key =
        some (arbiterFallback (anchor key))) := by
  induction batches generalizing s with
  | nil => exact Or.inl rfl
  | cons b batches ih =>
    obtain ⟨batchNo, batch⟩ := b
    unfold judgeLoop
    split
    · exact ih fun b hb => hopen b (List.mem_cons_of_mem _ hb)
    · cases hverdicts : verdictsOf batchNo (s.todo batch) with
      | error e => exact Or.inl rfl
      | ok verdicts =>
        simp only
        have hgrows : ∀ k, (recordBatch anchor verdicts s (s.todo batch)).done k = none →
            s.done k = none := by
          intro k hk
          rw [recordBatch_done] at hk
          split at hk
          · cases hk
          · exact hk
        rcases ih fun b hb todo v hv k hk => hopen b (List.mem_cons_of_mem _ hb) todo v hv k
          (hgrows k hk) with h | ⟨hnone, h⟩
        · rw [h, recordBatch_done]
          split
          · rename_i hmem
            obtain ⟨hbatch, hnone⟩ := mem_todo.mp hmem
            refine Or.inr ⟨hnone, ?_⟩
            rw [hopen _ List.mem_cons_self _ verdicts hverdicts key hnone hbatch]
            rfl
          · exact Or.inl rfl
        · exact Or.inr ⟨hgrows key hnone, h⟩

theorem judgeLoop_finished (h : ∀ b ∈ batches, s.todo b.2 = [] ∨
      ∀ todo, ∃ verdicts, verdictsOf b.1 todo = .ok verdicts) :
    (judgeLoop anchor verdictsOf batches s).2 = .finished := by
  induction batches generalizing s with
  | nil => rfl
  | cons b batches ih =>
    obtain ⟨batchNo, batch⟩ := b
    unfold judgeLoop
    split
    · exact ih fun b hb => h b (List.mem_cons_of_mem _ hb)
    · rename_i htodo
      obtain ⟨verdicts, hverdicts⟩ := (h _ List.mem_cons_self).resolve_left htodo (s.todo batch)
      rw [hverdicts]
      refine ih fun b hb => (h b (List.mem_cons_of_mem _ hb)).imp_left fun hnil => ?_
      rw [List.eq_nil_iff_forall_not_mem] at hnil ⊢
      intro key hkey
      obtain ⟨hbatch, hnone⟩ := mem_todo.mp hkey
      rw [recordBatch_done] at hnone
      split at hnone
      · cases hnone
      · exact hnil key (mem_todo.mpr ⟨hbatch, hnone⟩)

theorem judgeLoop_of_error {pre post : List (Nat × List String)} {b : Nat × List String}
    {e : TerminalError} (hbatches : batches = pre ++ b :: post)
    (hpre : ∀ x ∈ pre, s.todo x.2 = []) (hb : s.todo b.2 ≠ [])
    (he : verdictsOf b.1 (s.todo b.2) = .error e) :
    judgeLoop anchor verdictsOf batches s = (s, stageError b.1 e) := by
  subst hbatches
  induction pre with
  | nil =>
    obtain ⟨batchNo, batch⟩ := b
    rw [List.nil_append, judgeLoop, if_neg hb, he]
  | cons x pre ih =>
    obtain ⟨batchNo, batch⟩ := x
    rw [List.cons_append, judgeLoop, if_pos (hpre _ List.mem_cons_self)]
    exact ih fun x hx => hpre x (List.mem_cons_of_mem _ hx)

theorem judgeLoop_ne_raised (e : TerminalError) :
    (judgeLoop anchor verdictsOf batches s).2 ≠ .raised e := by
  induction batches generalizing s with
  | nil => exact nofun
  | cons b batches ih =>
    obtain ⟨batchNo, batch⟩ := b
    unfold judgeLoop
    split
    · exact ih
    · split
      · unfold stageError
        split <;> exact nofun
      · exact ih

end Loop

/-! ## The two ends compared -/

section Compare
variable {isStub anchor outcome}
variable {batches : List (Nat × List String)} {s : JudgeState} {key : String}
  {settled : SettleOrder (judgeUnits s batches)}

theorem mem_judgeUnits {u : Nat × List String} :
    u ∈ judgeUnits s batches ↔ ∃ b ∈ batches, s.todo b.2 ≠ [] ∧ u = (b.1, s.todo b.2) := by
  simp only [judgeUnits, List.mem_filter, List.mem_map, decide_eq_true_eq]
  constructor
  · rintro ⟨⟨b, hb, rfl⟩, hne⟩
    exact ⟨b, hb, hne, rfl⟩
  · rintro ⟨b, hb, hne, rfl⟩
    exact ⟨⟨b, hb, rfl⟩, hne⟩

theorem done_of_mem_unit {u : Nat × List String} (hu : u ∈ judgeUnits s batches)
    (hkey : key ∈ u.2) : s.done key = none := by
  obtain ⟨b, -, -, rfl⟩ := mem_judgeUnits.mp hu
  exact (mem_todo.mp hkey).2

theorem judgeUnits_eq_cons {first : Nat × List String} {rest : List (Nat × List String)}
    (h : judgeUnits s batches = first :: rest) :
    ∃ pre b post, batches = pre ++ b :: post ∧ (∀ x ∈ pre, s.todo x.2 = []) ∧
      s.todo b.2 ≠ [] ∧ first = (b.1, s.todo b.2) := by
  induction batches with
  | nil => cases h
  | cons b batches ih =>
    by_cases hb : s.todo b.2 = []
    · rw [judgeUnits, List.map_cons, List.filter_cons_of_neg (by simp [hb])] at h
      obtain ⟨pre, b', post, rfl, hpre, hb', hfirst⟩ := ih h
      refine ⟨b :: pre, b', post, rfl, fun x hx => ?_, hb', hfirst⟩
      rcases List.mem_cons.mp hx with rfl | hx
      · exact hb
      · exact hpre x hx
    · rw [judgeUnits, List.map_cons, List.filter_cons_of_pos (by simp [hb])] at h
      exact ⟨[], b, batches, rfl, nofun, hb, (List.cons.inj h).1.symm⟩

def mergedState (isStub : String → Bool) (anchor : String → List SensePick)
    (outcome : Nat → BatchOutcome) {batches : List (Nat × List String)} {s : JudgeState}
    (settled : SettleOrder (judgeUnits s batches)) : JudgeState :=
  (judgeUnits s batches).foldl (mergeUnit isStub anchor outcome)
    (settled.order.foldl (mergeUnit isStub anchor outcome) s)

variable (isStub anchor settled) in
theorem merged_done_of_covered (h : Covered outcome (judgeUnits s batches) key) :
    ∃ u ∈ judgeUnits s batches, key ∈ u.2 ∧
      (mergedState isStub anchor outcome settled).done key =
        dueEntry isStub anchor (outcome u.1) key := by
  obtain ⟨u, hu, hkey, -, hdone⟩ := (foldl_mergeUnit_done isStub anchor _
    (settled.order.foldl (mergeUnit isStub anchor outcome) s) key).1 h
  exact ⟨u, hu, hkey, hdone⟩

theorem merged_done_of_not_covered (h : ¬ Covered outcome (judgeUnits s batches) key) :
    (mergedState isStub anchor outcome settled).done key = s.done key := by
  have horder : ¬ Covered outcome settled.order key := by
    rintro ⟨u, hu, hcovered⟩
    exact h ⟨u, settled.perm.mem_iff.mp hu, hcovered⟩
  rw [mergedState, (foldl_mergeUnit_done isStub anchor _ _ key).2 h,
    (foldl_mergeUnit_done isStub anchor _ s key).2 horder]

theorem merged_grows (h : (mergedState isStub anchor outcome settled).done key = none) :
    s.done key = none := by
  by_cases hcovered : Covered outcome (judgeUnits s batches) key
  · obtain ⟨u, hu, hkey, -⟩ := hcovered
    exact done_of_mem_unit hu hkey
  · rwa [merged_done_of_not_covered hcovered] at h

theorem asyncVerdicts_of_none (batchNo : Nat)
    (h : (mergedState isStub anchor outcome settled).done key = none) :
    asyncVerdicts isStub anchor outcome (judgeUnits s batches) batchNo key = none := by
  unfold asyncVerdicts judgeBatchAsync
  cases hfind : (judgeUnits s batches).find? (·.1 = batchNo) with
  | none => rfl
  | some u =>
    cases houtcome : outcome u.1 with
    | rejected => simp only [houtcome]
    | terminal e => simp only [houtcome]
    | accepted model valid =>
      simp only [houtcome]
      refine if_neg fun hkey => ?_
      have hcovered : Covered outcome (judgeUnits s batches) key :=
        ⟨u, List.mem_of_find?_eq_some hfind, hkey, model, valid, houtcome⟩
      obtain ⟨u', -, hkey', haccepted, hdone⟩ := (foldl_mergeUnit_done isStub anchor
        _ (settled.order.foldl (mergeUnit isStub anchor outcome) s) key).1 hcovered
      obtain ⟨model', valid', haccepted⟩ := haccepted
      rw [mergedState, hdone, haccepted] at h
      cases h

theorem unitErrors_eq_nil {units : List (Nat × List String)} :
    unitErrors isStub anchor outcome units = [] ↔
      ∀ u ∈ units, ∀ e, outcome u.1 ≠ .terminal e := by
  simp only [unitErrors, List.filterMap_eq_nil_iff]
  refine forall₂_congr fun u _ => ?_
  unfold judgeBatchAsync
  cases outcome u.1 <;> simp

theorem unitErrors_cons {u : Nat × List String} {units : List (Nat × List String)} :
    unitErrors isStub anchor outcome (u :: units) =
      match outcome u.1 with
      | .terminal e => e :: unitErrors isStub anchor outcome units
      | _ => unitErrors isStub anchor outcome units := by
  unfold unitErrors judgeBatchAsync
  rw [List.filterMap_cons]
  cases outcome u.1 <;> rfl

def asyncLoop (isStub : String → Bool) (anchor : String → List SensePick)
    (outcome : Nat → BatchOutcome) {batches : List (Nat × List String)} {s : JudgeState}
    (settled : SettleOrder (judgeUnits s batches)) (terminal : Option TerminalError) :
    JudgeState × StageEnd :=
  judgeLoop anchor (fun batchNo _ =>
    match terminal with
    | some e =>
      if (judgeUnits s batches).head?.map (·.1) = some batchNo then .error e
      else .ok (asyncVerdicts isStub anchor outcome (judgeUnits s batches) batchNo)
    | none => .ok (asyncVerdicts isStub anchor outcome (judgeUnits s batches) batchNo))
    batches (mergedState isStub anchor outcome settled)

variable (isStub anchor outcome) in
theorem judgeAsync_cases (settled : SettleOrder (judgeUnits s batches)) :
    (∃ first second rest,
      unitErrors isStub anchor outcome (judgeUnits s batches) = first :: second :: rest ∧
      (judgeAsync isStub anchor outcome batches s settled).2 = .raised second) ∨
    ((unitErrors isStub anchor outcome (judgeUnits s batches)).length ≤ 1 ∧
      judgeAsync isStub anchor outcome batches s settled = asyncLoop isStub anchor outcome settled
        (unitErrors isStub anchor outcome (judgeUnits s batches)).head?) := by
  unfold judgeAsync
  match herrors : unitErrors isStub anchor outcome (judgeUnits s batches) with
  | first :: second :: rest =>
    simp only [herrors]
    exact Or.inl ⟨first, second, rest, rfl, rfl⟩
  | [e] =>
    simp only [herrors]
    exact Or.inr ⟨Nat.le_refl 1, rfl⟩
  | [] =>
    simp only [herrors]
    exact Or.inr ⟨Nat.zero_le 1, rfl⟩

variable (isStub anchor outcome settled) in
theorem asyncLoop_done (terminal : Option TerminalError) (key : String) :
    (asyncLoop isStub anchor outcome settled terminal).1.done key =
        (mergedState isStub anchor outcome settled).done key ∨
      ((mergedState isStub anchor outcome settled).done key = none ∧
        (asyncLoop isStub anchor outcome settled terminal).1.done key =
          some (arbiterFallback (anchor key))) := by
  refine judgeLoop_done (fun b _ todo verdicts hverdicts key hnone _ => ?_) key
  have hopen := asyncVerdicts_of_none b.1 hnone
  cases terminal with
  | none =>
    cases hverdicts
    exact hopen
  | some e =>
    simp only at hverdicts
    split at hverdicts
    · cases hverdicts
    · cases hverdicts
      exact hopen

theorem asyncLoop_none_finished :
    (asyncLoop isStub anchor outcome settled none).2 = .finished :=
  judgeLoop_finished fun _ _ => Or.inr fun _ => ⟨_, rfl⟩

theorem done_ne_none_of_finished {terminal : Option TerminalError}
    (h : (asyncLoop isStub anchor outcome settled terminal).2 = .finished)
    {u : Nat × List String} (hu : u ∈ judgeUnits s batches) (hkey : key ∈ u.2) :
    (asyncLoop isStub anchor outcome settled terminal).1.done key ≠ none := by
  obtain ⟨b, hb, -, rfl⟩ := mem_judgeUnits.mp hu
  have htodo := todo_of_finished h b hb
  rw [List.eq_nil_iff_forall_not_mem] at htodo
  exact fun hnone => htodo key (mem_todo.mpr ⟨(mem_todo.mp hkey).1, hnone⟩)

theorem asyncLoop_some_finished (hnumbers : (batches.map (·.1)).Nodup) {e : TerminalError}
    {first : Nat × List String} {rest : List (Nat × List String)}
    (hunits : judgeUnits s batches = first :: rest)
    (hfirst : ∀ key ∈ first.2, (mergedState isStub anchor outcome settled).done key ≠ none) :
    (asyncLoop isStub anchor outcome settled (some e)).2 = .finished := by
  obtain ⟨pre, b, post, hbatches, -, -, rfl⟩ := judgeUnits_eq_cons hunits
  refine judgeLoop_finished fun b' hb' => ?_
  by_cases hnumber : b'.1 = b.1
  · -- the batches have different numbers
    have hsame : b' = b := by
      have hb : b ∈ batches := by rw [hbatches]; simp
      exact List.inj_on_of_nodup_map hnumbers hb' hb hnumber
    subst hsame
    refine Or.inl (List.eq_nil_iff_forall_not_mem.mpr fun key hkey => ?_)
    obtain ⟨hbatch, hnone⟩ := mem_todo.mp hkey
    exact hfirst key (mem_todo.mpr ⟨hbatch, merged_grows hnone⟩) hnone
  · refine Or.inr fun todo => ⟨asyncVerdicts isStub anchor outcome (judgeUnits s batches) b'.1, ?_⟩
    rw [hunits]
    exact if_neg fun h => hnumber (Option.some.inj h).symm

theorem asyncLoop_some_stops {e : TerminalError} {first : Nat × List String}
    {rest : List (Nat × List String)} (hunits : judgeUnits s batches = first :: rest)
    (hfirst : ∃ key ∈ first.2, (mergedState isStub anchor outcome settled).done key = none) :
    asyncLoop isStub anchor outcome settled (some e) =
      (mergedState isStub anchor outcome settled, stageError first.1 e) := by
  obtain ⟨pre, b, post, hbatches, hpre, -, rfl⟩ := judgeUnits_eq_cons hunits
  obtain ⟨key, hkey, hnone⟩ := hfirst
  refine judgeLoop_of_error (b := b) hbatches (fun x hx => ?_) (fun hnil => ?_) ?_
  · refine List.eq_nil_iff_forall_not_mem.mpr fun k hk => ?_
    obtain ⟨hmem, hk⟩ := mem_todo.mp hk
    exact List.eq_nil_iff_forall_not_mem.mp (hpre x hx) k (mem_todo.mpr ⟨hmem, merged_grows hk⟩)
  · exact List.eq_nil_iff_forall_not_mem.mp hnil key (mem_todo.mpr ⟨(mem_todo.mp hkey).1, hnone⟩)
  · rw [hunits]
    exact if_pos rfl

variable (isStub anchor) in
theorem due_ne_none {o : BatchOutcome} (h : ∀ e, o ≠ .terminal e) (key : String) :
    dueEntry isStub anchor o key ≠ none := by
  cases o with
  | terminal e => exact absurd rfl (h e)
  | accepted model valid => exact nofun
  | rejected => exact nofun

theorem not_covered_of_terminal (hagree : UnitsAgree isStub anchor outcome (judgeUnits s batches))
    {u : Nat × List String} (hu : u ∈ judgeUnits s batches) {e : TerminalError}
    (he : outcome u.1 = .terminal e) (hkey : key ∈ u.2) :
    ¬ Covered outcome (judgeUnits s batches) key := by
  rintro ⟨u', hu', hkey', model, valid, haccepted⟩
  have h := hagree u hu u' hu' key hkey hkey'
  rw [he, haccepted] at h
  cases h

variable (settled) in
theorem merged_done_of_agree (hagree : UnitsAgree isStub anchor outcome (judgeUnits s batches))
    {u : Nat × List String} (hu : u ∈ judgeUnits s batches) (hkey : key ∈ u.2)
    (hcovered : Covered outcome (judgeUnits s batches) key) :
    (mergedState isStub anchor outcome settled).done key =
      dueEntry isStub anchor (outcome u.1) key := by
  obtain ⟨u', hu', hkey', hdone⟩ := merged_done_of_covered isStub anchor settled hcovered
  exact hdone.trans (hagree u' hu' u hu key hkey' hkey)

theorem records_iff_of_no_error
    (hnone : ∀ u ∈ judgeUnits s batches, ∀ e, outcome u.1 ≠ .terminal e) :
    (∀ u ∈ judgeUnits s batches, ∀ key ∈ u.2,
      (asyncLoop isStub anchor outcome settled none).1.done key =
        dueEntry isStub anchor (outcome u.1) key) ↔
    UnitsAgree isStub anchor outcome (judgeUnits s batches) ∧
      FallsBackUnvetoed isStub anchor outcome (judgeUnits s batches) := by
  have hfallback : ∀ u ∈ judgeUnits s batches, ∀ key ∈ u.2,
      ¬ Covered outcome (judgeUnits s batches) key →
      (asyncLoop isStub anchor outcome settled none).1.done key =
        some (arbiterFallback (anchor key)) := by
    intro u hu key hkey hcovered
    rcases asyncLoop_done isStub anchor outcome settled none key with h | ⟨-, h⟩
    · rw [merged_done_of_not_covered hcovered, done_of_mem_unit hu hkey] at h
      exact absurd h (done_ne_none_of_finished asyncLoop_none_finished hu hkey)
    · exact h
  constructor
  · intro h
    refine ⟨fun u hu u' hu' key hkey hkey' => ?_, hnone, fun u hu hrejected key hkey => ?_⟩
    · exact (h u hu key hkey).symm.trans (h u' hu' key hkey')
    · refine or_iff_not_imp_left.mpr fun hcovered => ?_
      have hdue := h u hu key hkey
      rw [hfallback u hu key hkey hcovered, hrejected] at hdue
      exact (Option.some.inj hdue).symm
  · rintro ⟨hagree, -, hveto⟩ u hu key hkey
    by_cases hcovered : Covered outcome (judgeUnits s batches) key
    · have hmerged := merged_done_of_agree settled hagree hu hkey hcovered
      rcases asyncLoop_done isStub anchor outcome settled none key with h | ⟨h, -⟩
      · exact h.trans hmerged
      · rw [hmerged] at h
        exact absurd h (due_ne_none isStub anchor (hnone u hu) key)
    · rw [hfallback u hu key hkey hcovered]
      cases houtcome : outcome u.1 with
      | terminal e => exact absurd houtcome (hnone u hu e)
      | accepted model valid => exact absurd ⟨u, hu, hkey, model, valid, houtcome⟩ hcovered
      | rejected =>
        rw [← (hveto u hu houtcome key hkey).resolve_left hcovered]
        rfl

theorem ne_finished_of_terminal {terminal : Option TerminalError}
    (hrecords : ∀ u ∈ judgeUnits s batches, ∀ key ∈ u.2,
      (asyncLoop isStub anchor outcome settled terminal).1.done key =
        dueEntry isStub anchor (outcome u.1) key)
    {u : Nat × List String} (hu : u ∈ judgeUnits s batches) {e : TerminalError}
    (he : outcome u.1 = .terminal e) :
    (asyncLoop isStub anchor outcome settled terminal).2 ≠ .finished := by
  intro hfinished
  obtain ⟨b, -, hne, rfl⟩ := mem_judgeUnits.mp hu
  obtain ⟨key, hkey⟩ := List.exists_mem_of_ne_nil _ hne
  refine done_ne_none_of_finished hfinished hu hkey ?_
  rw [hrecords _ hu key hkey, he]
  rfl

theorem exists_terminal {units : List (Nat × List String)} {e : TerminalError}
    {es : List TerminalError} (h : unitErrors isStub anchor outcome units = e :: es) :
    ∃ u ∈ units, ∃ e', outcome u.1 = .terminal e' := by
  by_contra hnone
  have hnil : unitErrors isStub anchor outcome units = [] :=
    unitErrors_eq_nil.mpr fun u hu e' he' => hnone ⟨u, hu, e', he'⟩
  rw [hnil] at h
  cases h

theorem stopsAtFirst_of_records (hnumbers : (batches.map (·.1)).Nodup) {e : TerminalError}
    (hone : unitErrors isStub anchor outcome (judgeUnits s batches) = [e])
    (hrecords : ∀ u ∈ judgeUnits s batches, ∀ key ∈ u.2,
      (asyncLoop isStub anchor outcome settled (some e)).1.done key =
        dueEntry isStub anchor (outcome u.1) key) :
    StopsAtFirst outcome (judgeUnits s batches) := by
  obtain ⟨first, rest, hunits⟩ : ∃ first rest, judgeUnits s batches = first :: rest := by
    cases hunits : judgeUnits s batches with
    | nil =>
      rw [hunits] at hone
      cases hone
    | cons first rest => exact ⟨first, rest, rfl⟩
  have hfirst : first ∈ judgeUnits s batches := by
    rw [hunits]
    exact List.mem_cons_self
  by_cases hmerged : ∃ key ∈ first.2, (mergedState isStub anchor outcome settled).done key = none
  · have hstops := asyncLoop_some_stops (e := e) hunits hmerged
    rw [hstops] at hrecords
    -- the item that is not merged is due nothing
    obtain ⟨key, hkey, hnone⟩ := hmerged
    obtain ⟨e', he'⟩ : ∃ e', outcome first.1 = .terminal e' := by
      by_contra hterminal
      refine due_ne_none isStub anchor (fun e' he' => hterminal ⟨e', he'⟩)
        key ?_
      rw [← hrecords first hfirst key hkey]
      exact hnone
    rw [hunits, unitErrors_cons, he'] at hone
    have hrest := unitErrors_eq_nil.mp (List.cons.inj hone).2
    refine ⟨first, rest, e', hunits, he', hrest, fun u hu hrejected k hk => ?_⟩
    by_contra hcovered
    have hu' : u ∈ judgeUnits s batches := by
      rw [hunits]
      exact List.mem_cons_of_mem first hu
    have hdue := hrecords u hu' k hk
    rw [merged_done_of_not_covered hcovered, done_of_mem_unit hu' hk, hrejected] at hdue
    cases hdue
  · -- nothing is raised, so the items of the terminal unit are recorded
    exfalso
    have hfinished : (asyncLoop isStub anchor outcome settled (some e)).2 = .finished :=
      asyncLoop_some_finished hnumbers hunits fun key hkey hnone => hmerged ⟨key, hkey, hnone⟩
    obtain ⟨u, hu, e', he'⟩ := exists_terminal hone
    exact ne_finished_of_terminal hrecords hu he' hfinished

theorem records_of_stopsAtFirst {e : TerminalError}
    (hone : unitErrors isStub anchor outcome (judgeUnits s batches) = [e])
    (hagree : UnitsAgree isStub anchor outcome (judgeUnits s batches))
    (hstops : StopsAtFirst outcome (judgeUnits s batches)) :
    (∀ u ∈ judgeUnits s batches, ∀ key ∈ u.2,
        (asyncLoop isStub anchor outcome settled (some e)).1.done key =
          dueEntry isStub anchor (outcome u.1) key) ∧
      (asyncLoop isStub anchor outcome settled (some e)).2 =
        (judgeSync isStub anchor outcome batches s).2 := by
  obtain ⟨first, rest, e', hunits, he', hrest, hrejected⟩ := hstops
  have hfirst : first ∈ judgeUnits s batches := by
    rw [hunits]
    exact List.mem_cons_self
  obtain rfl : e' = e := by
    rw [hunits, unitErrors_cons, he'] at hone
    exact (List.cons.inj hone).1
  have hnone : ∀ key ∈ first.2, (mergedState isStub anchor outcome settled).done key = none := by
    intro key hkey
    rw [merged_done_of_not_covered (not_covered_of_terminal hagree hfirst he' hkey)]
    exact done_of_mem_unit hfirst hkey
  obtain ⟨pre, b, post, hbatches, hpre, hb, hfirst'⟩ := judgeUnits_eq_cons hunits
  have hnumber : first.1 = b.1 := by rw [hfirst']
  obtain ⟨key, hkey⟩ := List.exists_mem_of_ne_nil _ hb
  have hkey' : key ∈ first.2 := by
    rw [hfirst']
    exact hkey
  rw [asyncLoop_some_stops hunits ⟨key, hkey', hnone key hkey'⟩]
  constructor
  · intro u hu key hkey
    rw [hunits] at hu
    rcases List.mem_cons.mp hu with rfl | hu
    · rw [he']
      exact hnone key hkey
    · have hu' : u ∈ judgeUnits s batches := by
        rw [hunits]
        exact List.mem_cons_of_mem first hu
      refine merged_done_of_agree settled hagree hu' hkey ?_
      cases houtcome : outcome u.1 with
      | terminal e'' => exact absurd houtcome (hrest u hu e'')
      | accepted model valid => exact ⟨u, hu', hkey, model, valid, houtcome⟩
      | rejected => exact hrejected u hu houtcome key hkey
  · have hsync : arbiterBatch isStub anchor (outcome b.1) (s.todo b.2) = .error e' := by
      rw [← hnumber, he']
      rfl
    rw [judgeSync, judgeLoop_of_error (b := b) hbatches hpre hb hsync, hnumber]

theorem second_raised_of_errors {units : List (Nat × List String)} {first second : TerminalError}
    {rest : List TerminalError}
    (herrors : unitErrors isStub anchor outcome units = first :: second :: rest) :
    ¬ StopsAtFirst outcome units ∧ ∃ u ∈ units, ∃ e, outcome u.1 = .terminal e := by
  constructor
  · rintro ⟨u, units, e, rfl, he, hrest, -⟩
    rw [unitErrors_cons, he, unitErrors_eq_nil.mpr hrest] at herrors
    cases herrors
  · exact exists_terminal herrors

end Compare

theorem nodup_judgeBatches (selected : Bool) (items : List SampleItem) :
    ((judgeBatches selected items).map (·.1)).Nodup := by
  have hnumbers : (judgeBatches selected items).map (·.1) =
      ((stageRange selected items.length judgeBatch).zipIdx 1).map (·.2) := by
    rw [judgeBatches, List.map_map]
    rfl
  rw [hnumbers, List.zipIdx_map_snd]
  exact List.nodup_range'

/-- **The asynchronous judge.**  The asynchronous stage records what is due for
every batch, and after a terminal error ends as the synchronous one, exactly when
the units that share an item agree on it and either no unit has a terminal error
and the fallbacks need no veto, or the first unit alone has one and no other unit
is rejected. -/
theorem judges_like_sync_iff (selected : Bool) (items : List SampleItem) (s : JudgeState)
    (settled : SettleOrder (judgeUnits s (judgeBatches selected items))) :
    JudgesLikeSync isStub anchor outcome (judgeBatches selected items) s settled ↔
      UnitsAgree isStub anchor outcome (judgeUnits s (judgeBatches selected items)) ∧
        (FallsBackUnvetoed isStub anchor outcome (judgeUnits s (judgeBatches selected items)) ∨
          StopsAtFirst outcome (judgeUnits s (judgeBatches selected items))) := by
  have hnumbers := nodup_judgeBatches selected items
  generalize judgeBatches selected items = batches at settled hnumbers
  unfold JudgesLikeSync
  rcases judgeAsync_cases isStub anchor outcome settled with
    ⟨e, second, es, herrors, hend⟩ | ⟨hlength, hasync⟩
  · -- the end is none of the loop's
    obtain ⟨hall, hsome⟩ := second_raised_of_errors herrors
    constructor
    · rintro ⟨-, hstop⟩
      rw [hend] at hstop
      exact absurd (hstop hsome).symm (judgeLoop_ne_raised second)
    · rintro ⟨-, ⟨hnone, -⟩ | hfirst⟩
      · obtain ⟨u, hu, e', he'⟩ := hsome
        exact absurd he' (hnone u hu e')
      · exact absurd hfirst hall
  · rw [hasync]
    match herrors : unitErrors isStub anchor outcome (judgeUnits s batches) with
    | [] =>
      have hnone := unitErrors_eq_nil.mp herrors
      rw [List.head?_nil]
      constructor
      · rintro ⟨hrecords, -⟩
        exact ((records_iff_of_no_error hnone).mp hrecords).imp_right Or.inl
      · rintro ⟨hagree, hkept | hfirst⟩
        · refine ⟨(records_iff_of_no_error hnone).mpr ⟨hagree, hkept⟩, ?_⟩
          rintro ⟨u, hu, e, he⟩
          exact absurd he (hnone u hu e)
        · obtain ⟨first, rest, e, hunits, he, -⟩ := hfirst
          refine absurd he (hnone first ?_ e)
          rw [hunits]
          exact List.mem_cons_self
    | [e] =>
      rw [List.head?_cons]
      constructor
      · rintro ⟨hrecords, -⟩
        refine ⟨fun u hu u' hu' key hkey hkey' => ?_,
          Or.inr (stopsAtFirst_of_records hnumbers herrors hrecords)⟩
        exact (hrecords u hu key hkey).symm.trans (hrecords u' hu' key hkey')
      · rintro ⟨hagree, ⟨hnone, -⟩ | hfirst⟩
        · rw [unitErrors_eq_nil.mpr hnone] at herrors
          cases herrors
        · obtain ⟨hrecords, hend⟩ := records_of_stopsAtFirst herrors hagree hfirst
          exact ⟨hrecords, fun _ => hend⟩
    | _ :: _ :: _ =>
      rw [herrors] at hlength
      simp at hlength

end Stage

/-- Twelve words make the first batch, one the second. -/
def thirteenWords : List SampleItem :=
  ["january", "february", "march", "april", "may", "june", "july", "august", "september",
    "october", "november", "december", "monday"].map (SampleItem.mk "word")

/-- The first batch is judged and the key is refused at the second. -/
def refusedAtSecond (batchNo : Nat) : BatchOutcome :=
  if batchNo = 1 then .accepted "gpt" fun _ => ⟨"s1", "a sense", [⟨"s1", "a sense"⟩], ""⟩
  else .terminal ⟨.auth, "401"⟩

theorem refused_key_not_raised :
    ¬ JudgesLikeSync (fun _ => false) (fun _ => [⟨"s1", "a sense"⟩]) refusedAtSecond
      (judgeBatches true thirteenWords) { done := fun _ => none } ⟨_, List.Perm.refl _⟩ := by
  rintro ⟨-, hstop⟩
  have hterminal := hstop ⟨(2, ["w:monday"]), by decide +kernel, _, rfl⟩
  revert hterminal
  decide +kernel

end HamZaboon
