import HamZaboon.Library.Ranking
import HamZaboon.Precard.Glosses
import HamZaboon.Precard.Pipeline
import Mathlib.Data.List.Dedup
import Mathlib.Data.String.Basic

/-! # The sample audit on stored states

`factory/precard/accounting.py` over decoded values: buckets under legacy or new ids, items and
rows of any shape.  Of the buckets that stand for one stage only the first is read, and a
bucket that cannot be read ends the reading of those after it.

So a drop verdict counts when its bucket is the first of its stage and nothing malformed is
read before it (`audit_exact_iff`).
-/

namespace HamZaboon
open Library

/-- `resolve_candidate_stage`, of a text. -/
def resolveCandidateStage (py : GlossText) (pick : String) : String :=
  let key := py.lower (py.strip pick)
  if key ∈ Stage.all.map Stage.id then key else ((Stage.legacy.lookup key).map Stage.id).getD key

namespace StageAudit

/-- `source_item_key`; `none` for an exception. -/
def sourceItemKey : JsonValue → Option String
  | .obj item =>
    match item.lookup "kind", item.lookup "text" with
    | some kind, some (.str text) => some ((if kind.pyEq (.str "word") then "w:" else "p:") ++ text)
    | _, _ => none
  | _ => none

def hasRow (precards : Dict) (key : String) : Bool :=
  match Dict.get precards key with
  | .obj _ => true
  | rows => rows.truthy

/-- `(bucket or {}).get("done", {})`; `none` for the exception of a malformed bucket. -/
def doneOf (bucket : JsonValue) : Option Dict :=
  match if bucket.truthy then bucket else .obj [] with
  | .obj entries =>
    match (entries.lookup "done").getD (.obj []) with
    | .obj done => some done
    | _ => none
  | _ => none

def isDrop (stage : Stage) : JsonValue → Bool
  | .obj verdict =>
    match stage with
    | .preprocess | .inflectionReview => !((verdict.lookup "kept").getD (.bool true)).truthy
    | .anchorRank => (Dict.get verdict "dropped").truthy
    | .senseJudge => (Dict.get verdict "proper_drop").truthy
    | _ => false
  | _ => false

/-- The stages with drop verdicts, in the order in which they are read. -/
def sources : List Stage := [.preprocess, .anchorRank, .inflectionReview, .senseJudge]

section Audit
variable (py : GlossText)

/-- The states under the new ids: the first bucket of a stage stays. -/
def normalized (states : Dict) : Dict :=
  states.foldl (fun acc e =>
    let key := resolveCandidateStage py e.1
    if (acc.lookup key).isSome then acc else acc ++ [(key, e.2)]) []

/-- The reads of these stages, up to an exception. -/
def accountedIn (states : Dict) (key : String) : List Stage → Bool
  | [] => false
  | stage :: rest =>
    match doneOf (Dict.get states stage.id) with
    | some done => isDrop stage (Dict.get done key) || accountedIn states key rest
    | none => false

def auditSampleAccounting (items precards states : JsonValue) : List String :=
  let rowsOf := match precards with
    | .obj rows => rows
    | _ => []
  let states := normalized py (match states with
    | .obj states => states
    | _ => [])
  match items.iterate with
  | some items => sortBy id ((items.filterMap sourceItemKey).filter fun key =>
      !hasRow rowsOf key && !accountedIn states key sources).dedup
  | none => []

end Audit

/-! ## What vanished -/

section Vanished
variable (py : GlossText) (states : Dict)

/-- The bucket has a drop verdict of the stage on the key. -/
def Drops (stage : Stage) (key : String) (bucket : JsonValue) : Prop :=
  ∃ done, doneOf bucket = some done ∧ isDrop stage (Dict.get done key) = true

/-- A bucket of a stage has a drop verdict on the key. -/
def Accounted (key : String) : Prop :=
  ∃ stage ∈ sources, ∃ e ∈ states, resolveCandidateStage py e.1 = stage.id ∧ Drops stage key e.2

def firstBucket (stage : Stage) : Option JsonValue :=
  (states.find? fun e => resolveCandidateStage py e.1 = stage.id).map Prod.snd

/-- The audit finds exactly the keys without a row and without a verdict, in order and once; a
malformed bucket does not touch the keys that another one accounts for. -/
structure AuditExact (items : List JsonValue) (precards : Dict) : Prop where
  sorted : (auditSampleAccounting py (.arr items) (.obj precards) (.obj states)).Pairwise (· < ·)
  exact : ∀ key, key ∈ auditSampleAccounting py (.arr items) (.obj precards) (.obj states) ↔
    key ∈ items.filterMap sourceItemKey ∧ hasRow precards key = false ∧ ¬ Accounted py states key
  elsewhere : ∀ before e after, states = before ++ e :: after → doneOf e.2 = none → ∀ key,
    Accounted py (before ++ after) key →
      key ∉ auditSampleAccounting py (.arr items) (.obj precards) (.obj states)

/-- The verdict stands in the first bucket of its stage, and no stage read before has a malformed
one first. -/
def InReach (key : String) : Prop :=
  ∃ before stage after, sources = before ++ stage :: after ∧
    (∀ s ∈ before, ∀ bucket, firstBucket py states s = some bucket → doneOf bucket ≠ none) ∧
      ∃ bucket, firstBucket py states stage = some bucket ∧ Drops stage key bucket

theorem lookup_normalized (stage : Stage) :
    (normalized py states).lookup stage.id = firstBucket py states stage := by
  have hfold : ∀ l acc : Dict, (l.foldl (fun acc e =>
      let key := resolveCandidateStage py e.1
      if (acc.lookup key).isSome then acc else acc ++ [(key, e.2)]) acc).lookup stage.id =
        (acc.lookup stage.id).or (firstBucket py l stage) := by
    intro l
    induction l with
    | nil =>
      intro acc
      simp [firstBucket]
    | cons e l ih =>
      intro acc
      rw [List.foldl_cons, ih]
      by_cases hkey : resolveCandidateStage py e.1 = stage.id
      · have hfirst : firstBucket py (e :: l) stage = some e.2 := by simp [firstBucket, hkey]
        rw [hfirst]
        dsimp only
        rw [hkey]
        cases hacc : acc.lookup stage.id with
        | some bucket => simp [hacc]
        | none => simp [hacc, List.lookup_append]
      · have hfirst : firstBucket py (e :: l) stage = firstBucket py l stage := by
          simp [firstBucket, hkey]
        rw [hfirst]
        dsimp only
        split
        · rfl
        · have hnone : [(resolveCandidateStage py e.1, e.2)].lookup stage.id = none := by
            simp [List.lookup_cons, beq_false_of_ne (Ne.symm hkey)]
          rw [List.lookup_append, hnone, Option.or_none]
  exact hfold states []

theorem doneOf_get_normalized (stage : Stage) : doneOf (Dict.get (normalized py states) stage.id) =
    (firstBucket py states stage).elim (some []) doneOf := by
  rw [Dict.get, lookup_normalized]
  cases firstBucket py states stage <;> rfl

theorem isDrop_null (stage : Stage) : isDrop stage .null = false := rfl

theorem accountedIn_iff {key : String} {stages : List Stage} :
    accountedIn (normalized py states) key stages = true ↔
      ∃ before stage after, stages = before ++ stage :: after ∧
        (∀ s ∈ before, ∀ bucket, firstBucket py states s = some bucket → doneOf bucket ≠ none) ∧
          ∃ bucket, firstBucket py states stage = some bucket ∧ Drops stage key bucket := by
  induction stages with
  | nil => simp [accountedIn]
  | cons stage stages ih =>
    have hstep : (∃ before s after, stage :: stages = before ++ s :: after ∧
        (∀ s ∈ before, ∀ bucket, firstBucket py states s = some bucket → doneOf bucket ≠ none) ∧
          ∃ bucket, firstBucket py states s = some bucket ∧ Drops s key bucket) ↔
        (∃ bucket, firstBucket py states stage = some bucket ∧ Drops stage key bucket) ∨
          (∀ bucket, firstBucket py states stage = some bucket → doneOf bucket ≠ none) ∧
            accountedIn (normalized py states) key stages = true := by
      rw [ih]
      constructor
      · rintro ⟨before, s, after, hsplit, hread, hdrop⟩
        cases before with
        | nil =>
          obtain ⟨rfl, rfl⟩ := List.cons.inj hsplit
          exact .inl hdrop
        | cons b before =>
          obtain ⟨rfl, rfl⟩ := List.cons.inj hsplit
          obtain ⟨hb, hbefore⟩ := List.forall_mem_cons.mp hread
          exact .inr ⟨hb, before, s, after, rfl, hbefore, hdrop⟩
      · rintro (hdrop | ⟨hb, before, s, after, rfl, hbefore, hdrop⟩)
        · exact ⟨[], stage, stages, rfl, nofun, hdrop⟩
        · exact ⟨stage :: before, s, after, rfl, List.forall_mem_cons.mpr ⟨hb, hbefore⟩, hdrop⟩
    rw [hstep, accountedIn, doneOf_get_normalized]
    cases firstBucket py states stage with
    | none => simp [Dict.get, isDrop_null]
    | some bucket =>
      simp only [Option.elim_some, Option.some.injEq, exists_eq_left', forall_eq', Drops]
      cases doneOf bucket <;> simp

theorem mem_audit {items : List JsonValue} {precards : Dict} {key : String} :
    key ∈ auditSampleAccounting py (.arr items) (.obj precards) (.obj states) ↔
      key ∈ items.filterMap sourceItemKey ∧ hasRow precards key = false ∧ ¬ InReach py states key := by
  have haudit : auditSampleAccounting py (.arr items) (.obj precards) (.obj states) =
      sortBy id ((items.filterMap sourceItemKey).filter fun key =>
        !hasRow precards key && !accountedIn (normalized py states) key sources).dedup := rfl
  rw [haudit, mem_sortBy, List.mem_dedup, List.mem_filter, InReach, ← accountedIn_iff]
  simp

theorem sorted_audit (items : List JsonValue) (precards : Dict) :
    (auditSampleAccounting py (.arr items) (.obj precards) (.obj states)).Pairwise (· < ·) :=
  pairwise_lt_sortBy id (by rw [List.map_id]; exact List.nodup_dedup _)

theorem InReach.accounted {key : String} (h : InReach py states key) : Accounted py states key := by
  obtain ⟨before, stage, after, hsplit, -, bucket, hbucket, hdrop⟩ := h
  obtain ⟨e, he, rfl⟩ := Option.map_eq_some_iff.mp hbucket
  have hstage : stage ∈ sources := by
    rw [hsplit]
    simp
  exact ⟨stage, hstage, e, List.mem_of_find?_eq_some he, by simpa using List.find?_some he, hdrop⟩

/-- **The audit finds exactly what vanished when every verdict it needs is within its reach.** -/
theorem audit_exact_iff (items : List JsonValue) (precards : Dict) :
    AuditExact py states items precards ↔
      ∀ key ∈ items.filterMap sourceItemKey, hasRow precards key = false →
        Accounted py states key → InReach py states key := by
  constructor
  · intro h key hkey hrow haccounted
    by_contra hreach
    exact ((h.exact key).mp ((mem_audit py states).mpr ⟨hkey, hrow, hreach⟩)).2.2 haccounted
  · intro h
    have hexact : ∀ key, key ∈ auditSampleAccounting py (.arr items) (.obj precards) (.obj states) ↔
        key ∈ items.filterMap sourceItemKey ∧ hasRow precards key = false ∧
          ¬ Accounted py states key := fun key => by
      rw [mem_audit]
      exact and_congr_right fun hkey => and_congr_right fun hrow =>
        not_congr ⟨InReach.accounted py states, h key hkey hrow⟩
    refine ⟨sorted_audit py states items precards, hexact, ?_⟩
    rintro before e after rfl - key ⟨stage, hstage, e', he', hid, hdrop⟩ hkey
    refine ((hexact key).mp hkey).2.2 ⟨stage, hstage, e', ?_, hid, hdrop⟩
    rcases List.mem_append.mp he' with he' | he'
    · exact List.mem_append_left _ he'
    · exact List.mem_append_right _ (List.mem_cons_of_mem _ he')

end Vanished

/-! ## A malformed bucket -/

/-- A word that the anchor dropped, behind this bucket of the first stage. -/
def droppedBehind (bucket : JsonValue) : Dict :=
  [("preprocess", bucket), ("s1", .obj [("done", .obj [("w:ears", .obj [("dropped", .str "stub")])])])]

def earsItem : JsonValue := .obj [("kind", .str "word"), ("text", .str "ears")]

/-- A list as the first bucket hides the verdict of the anchor. -/
theorem hidden_verdict :
    auditSampleAccounting .ascii (.arr [earsItem]) (.obj [])
        (.obj (droppedBehind (.arr [.str "done"]))) = ["w:ears"] ∧
      ¬ AuditExact .ascii (droppedBehind (.arr [.str "done"])) [earsItem] [] := by
  have hfound : auditSampleAccounting .ascii (.arr [earsItem]) (.obj [])
      (.obj (droppedBehind (.arr [.str "done"]))) = ["w:ears"] := by decide +kernel
  refine ⟨hfound, fun h => ?_⟩
  have hmem := (h.exact "w:ears").mp (by rw [hfound]; exact List.mem_cons_self)
  exact hmem.2.2 ⟨.anchorRank, by decide, _, List.mem_cons_of_mem _ List.mem_cons_self,
    by decide +kernel, _, rfl, by decide +kernel⟩

end StageAudit
end HamZaboon
