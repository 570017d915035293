import HamZaboon.Session.State
import Mathlib.Tactic.Common

/-! # The JSON codec of a session

`state_to_json` and `state_from_json` on JSON values, with the coercions Python
makes on the way in: `SessionNode(**node)`, `int`, `float`, truthiness and the
defaults of `dict.get`.  The attributes that no coercion touches hold whatever
the payload held.  `json.dumps` and `json.loads` are inverse to each other on
values, so the text itself is left out.
-/

namespace HamZaboon
open Library

/-! ## Values -/

/-- A value of `json.loads`; an object lists its entries in order. -/
inductive Json (K : Type)
  | null
  | bool (b : Bool)
  | int (n : Int)
  | float (x : K)
  | str (s : String)
  | arr (items : List (Json K))
  | obj (entries : List (String × Json K))

/-- What Python's standard library makes of texts, floats and dates; `K` is the
type of its floats. -/
structure PythonLib (K : Type) where
  /-- `int(s)`; `none` for a `ValueError`. -/
  intOfText : String → Option Int
  /-- `int(x)`; `some none` for the `ValueError` of a NaN, `none` for the
  `OverflowError` of an infinity, which `state_from_json` does not catch. -/
  intOfFloat : K → Option (Option Int)
  /-- `float(s)`. -/
  floatOfText : String → Option K
  /-- `float(n)`. -/
  floatOfInt : Int → Option K
  /-- `bool(x)`. -/
  truthyFloat : K → Bool
  /-- `day.isoformat()`. -/
  isoformat : Day → String
  intOfText_toString : ∀ n : Int, intOfText (toString n) = some n
  isoformat_ne_empty : ∀ d, isoformat d ≠ ""

variable {K : Type}

/-- `int(v)`, with `some none` for the errors that are caught. -/
def PythonLib.int (T : PythonLib K) : Json K → Option (Option Int)
  | .bool b => some (some (if b then 1 else 0))
  | .int n => some (some n)
  | .float x => T.intOfFloat x
  | .str s => some (T.intOfText s)
  | _ => some none

/-- `float(v)`. -/
def PythonLib.float (T : PythonLib K) : Json K → Option K
  | .bool b => T.floatOfInt (if b then 1 else 0)
  | .int n => T.floatOfInt n
  | .float x => some x
  | .str s => T.floatOfText s
  | _ => none

/-- `bool(v)`. -/
def PythonLib.truthy (T : PythonLib K) : Json K → Bool
  | .null => false
  | .bool b => b
  | .int n => n ≠ 0
  | .float x => T.truthyFloat x
  | .str s => s ≠ ""
  | .arr items => !items.isEmpty
  | .obj entries => !entries.isEmpty

/-- `v or default`, where `v` is read by `dict.get`. -/
def PythonLib.orDefault (T : PythonLib K) (v : Option (Json K)) (default : Json K) : Json K :=
  match v with
  | some v => if T.truthy v then v else default
  | none => default

@[simp] theorem truthy_orDefault_bool (T : PythonLib K) (b : Bool) :
    T.truthy (T.orDefault (some (.bool b)) (.bool false)) = b := by
  cases b <;> rfl

@[simp] theorem orDefault_orDefault (T : PythonLib K) (v : Option (Json K)) (default : Json K) :
    T.orDefault (some (T.orDefault v default)) default = T.orDefault v default := by
  unfold PythonLib.orDefault
  cases v with
  | none => simp
  | some v => by_cases h : T.truthy v = true <;> simp [h]

/-! ## The state as Python holds it -/

/-- A `SessionNode`. -/
structure PyNode (K : Type) where
  activityType : Json K
  sourceTier : Json K
  cardData : Json K
  sourceId : Json K
  activityMeta : Json K
  gradePolicyRef : Json K
  interactionSchema : Json K

/-- The dictionary `before_stability`. -/
abbrev Snapshots (K : Type) := KeyedTable Int (Int × K) Prod.fst

/-- A `SessionState`. -/
structure PyState (K : Type) where
  nodes : List (PyNode K)
  totalCards : Json K
  tier3Context : Json K
  studyMsgId : Json K
  plan : Json K
  gradedWordIds : Json K
  beforeStability : Snapshots K
  revealed : Bool
  activePromptType : Option PromptType
  activePromptWordId : Option Int
  sessionDate : Json K

/-- The texts of `SRS_PROMPT_TYPES`. -/
def PromptType.text : PromptType → String
  | .standard => "standard"
  | .fillBlank => "fill_blank"
  | .meaning => "meaning"
  | .synonym => "synonym"
  | .directTranslate => "direct_translate"

/-- The prompt type of a text in `SRS_PROMPT_TYPES`. -/
def PromptType.ofText (s : String) : Option PromptType :=
  [.standard, .fillBlank, .meaning, .synonym, .directTranslate].find? (fun t => t.text = s)

/-- A raw prompt type, where `is_valid_prompt_type` accepts it. -/
def promptTypeOf : Json K → Option PromptType
  | .str s => PromptType.ofText s
  | _ => none

/-! ## Encoding -/

/-- `asdict(node)`. -/
def PyNode.payload (n : PyNode K) : Json K :=
  .obj [("activity_type", n.activityType), ("source_tier", n.sourceTier),
    ("card_data", n.cardData), ("source_id", n.sourceId), ("activity_meta", n.activityMeta),
    ("grade_policy_ref", n.gradePolicyRef), ("interaction_schema", n.interactionSchema)]

/-- A dictionary with integer keys, which JSON writes as texts. -/
def snapshotEntry (e : Int × K) : String × Json K := (toString e.1, .float e.2)

/-- A value or `None`. -/
def Json.ofOption {α : Type} (f : α → Json K) : Option α → Json K
  | some a => f a
  | none => .null

/-- `state_to_json`. -/
def PyState.payload (s : PyState K) : Json K :=
  .obj [("nodes", .arr (s.nodes.map PyNode.payload)), ("total_cards", s.totalCards),
    ("tier3_context", s.tier3Context), ("study_msg_id", s.studyMsgId), ("plan", s.plan),
    ("graded_word_ids", s.gradedWordIds),
    ("before_stability", .obj (s.beforeStability.rows.map snapshotEntry)),
    ("revealed", .bool s.revealed),
    ("active_prompt_type", .ofOption (fun t => .str t.text) s.activePromptType),
    ("active_prompt_word_id", .ofOption .int s.activePromptWordId),
    ("session_date", s.sessionDate)]

/-! ## Decoding -/

/-- The fields of the dataclass `SessionNode`. -/
def nodeFields : List String :=
  ["activity_type", "source_tier", "card_data", "source_id", "activity_meta", "grade_policy_ref",
    "interaction_schema"]

/-- `SessionNode(**node)`: an unknown or a missing argument raises. -/
def nodeOfPayload : Json K → Option (PyNode K)
  | .obj fields =>
      if fields.all (fun f => f.1 ∈ nodeFields) then do
        let activityType ← fields.lookup "activity_type"
        let sourceTier ← fields.lookup "source_tier"
        let cardData ← fields.lookup "card_data"
        some
          { activityType := activityType
            sourceTier := sourceTier
            cardData := cardData
            sourceId := (fields.lookup "source_id").getD .null
            activityMeta := (fields.lookup "activity_meta").getD (.obj [])
            gradePolicyRef := (fields.lookup "grade_policy_ref").getD .null
            interactionSchema := (fields.lookup "interaction_schema").getD .null }
      else none
  | _ => none

/-- `[SessionNode(**node) for node in nodes]`: an empty object or text iterates to
nothing as well. -/
def nodesOfPayload : Json K → Option (List (PyNode K))
  | .arr items => items.mapM nodeOfPayload
  | .obj [] => some []
  | .str "" => some []
  | _ => none

theorem PromptType.ofText_text (t : PromptType) : PromptType.ofText t.text = some t := by
  cases t <;> decide

@[simp] theorem promptTypeOf_ofOption (t : Option PromptType) :
    promptTypeOf (Json.ofOption (fun t => .str t.text) t : Json K) = t := by
  cases t with
  | none => rfl
  | some t => exact PromptType.ofText_text t

@[simp] theorem int_ofOption (T : PythonLib K) (n : Option Int) :
    T.int (Json.ofOption .int n) = some n := by
  cases n <;> rfl

theorem nodeOfPayload_payload (n : PyNode K) : nodeOfPayload n.payload = some n := by
  have hfields : nodeFields.all (fun f => f ∈ nodeFields) = true := by decide
  simp only [nodeOfPayload, PyNode.payload, List.lookup_cons, String.reduceBEq,
    Option.bind_eq_bind, Option.bind_some, Option.getD_some]
  exact if_pos hfields

@[simp] theorem nodesOfPayload_payload (nodes : List (PyNode K)) :
    nodesOfPayload (.arr (nodes.map PyNode.payload)) = some nodes := by
  unfold nodesOfPayload
  induction nodes with
  | nil => rfl
  | cons n nodes ih => simp [nodeOfPayload_payload, ih]

/-- `snapshots[key] = value`. -/
def Snapshots.set (t : Snapshots K) (key : Int) (value : K) : Snapshots K :=
  t.upsert (key, value) (fun e => (e.1, value)) (fun _ => rfl)

/-- One entry of the comprehension `{int(k): float(v) for …}`. -/
def addSnapshot (T : PythonLib K) (t : Snapshots K) (e : String × Json K) :
    Option (Snapshots K) := do
  let key ← T.intOfText e.1
  let value ← T.float e.2
  some (t.set key value)

theorem foldlM_addSnapshot (T : PythonLib K) (entries : List (Int × K)) (t : Snapshots K)
    (hnew : ((t.rows ++ entries).map Prod.fst).Nodup) :
    (entries.map snapshotEntry).foldlM (addSnapshot T) t = some ⟨t.rows ++ entries, hnew⟩ := by
  induction entries generalizing t with
  | nil =>
    simp only [List.map_nil, List.foldlM_nil, List.append_nil]
    rfl
  | cons e entries ih =>
    have hkey : t.has e.1 = false := by
      rw [← Bool.not_eq_true, KeyedTable.has_iff]
      rintro ⟨r, hr, hre⟩
      rw [List.map_append, List.map_cons] at hnew
      exact (List.nodup_append'.mp hnew).2.2 (List.mem_map_of_mem hr)
        (hre ▸ List.mem_cons_self)
    have hrows : (t.set e.1 e.2).rows = t.rows ++ [e] := by
      simp [Snapshots.set, KeyedTable.rows_upsert, hkey]
    have hadd : addSnapshot T t (snapshotEntry e) = some (t.set e.1 e.2) := by
      unfold addSnapshot snapshotEntry
      rw [T.intOfText_toString]
      rfl
    have hcons : t.rows ++ e :: entries = (t.set e.1 e.2).rows ++ entries := by
      rw [hrows, List.append_assoc]
      rfl
    rw [List.map_cons, List.foldlM_cons, hadd]
    show (entries.map snapshotEntry).foldlM (addSnapshot T) (t.set e.1 e.2) = _
    rw [ih _ (hcons ▸ hnew)]
    simp only [hcons]

/-- `{int(k): float(v) for k, v in (raw or {}).items()}`. -/
def snapshotsOfPayload (T : PythonLib K) (raw : Option (Json K)) : Option (Snapshots K) :=
  match T.orDefault raw (.obj []) with
  | .obj entries => entries.foldlM (addSnapshot T) KeyedTable.empty
  | _ => none

/-- The state with the three prompt fields and the two defaulted fields as
`state_from_json` sets them. -/
def PyState.accept (T : PythonLib K) (s : PyState K) : PyState K :=
  let promptWordId := if s.activePromptType = none then none else s.activePromptWordId
  { s with
    gradedWordIds := T.orDefault (some s.gradedWordIds) (.arr [])
    revealed := s.revealed && s.activePromptType ≠ none && promptWordId ≠ none
    activePromptWordId := promptWordId
    sessionDate := T.orDefault (some s.sessionDate) (.str "") }

/-- `state_from_json`; `none` where it raises. -/
def stateOfPayload (T : PythonLib K) : Json K → Option (PyState K)
  | .obj data => do
      let nodes ← (data.lookup "nodes").bind nodesOfPayload
      let totalCards ← data.lookup "total_cards"
      let tier3Context ← data.lookup "tier3_context"
      let studyMsgId ← data.lookup "study_msg_id"
      let plan ← data.lookup "plan"
      let beforeStability ← snapshotsOfPayload T (data.lookup "before_stability")
      let promptType := (data.lookup "active_prompt_type").bind promptTypeOf
      let rawPromptWordId ← T.int ((data.lookup "active_prompt_word_id").getD .null)
      -- a word without a prompt is cleared, and so is a reveal without both
      let promptWordId := if promptType = none then none else rawPromptWordId
      some
        { nodes := nodes
          totalCards := totalCards
          tier3Context := tier3Context
          studyMsgId := studyMsgId
          plan := plan
          gradedWordIds := T.orDefault (data.lookup "graded_word_ids") (.arr [])
          beforeStability := beforeStability
          revealed :=
            T.truthy (T.orDefault (data.lookup "revealed") (.bool false)) && promptType ≠ none &&
              promptWordId ≠ none
          activePromptType := promptType
          activePromptWordId := promptWordId
          sessionDate := T.orDefault (data.lookup "session_date") (.str "") }
  | _ => none

/-! ## Decoding what was encoded -/

theorem snapshotsOfPayload_payload (T : PythonLib K) (t : Snapshots K) :
    snapshotsOfPayload T (some (.obj (t.rows.map snapshotEntry))) = some t := by
  have hraw : T.orDefault (some (Json.obj (t.rows.map snapshotEntry))) (.obj []) =
      .obj (t.rows.map snapshotEntry) := by
    unfold PythonLib.orDefault
    cases h : t.rows with
    | nil => rfl
    | cons e rows => rfl
  unfold snapshotsOfPayload
  rw [hraw]
  exact foldlM_addSnapshot T t.rows KeyedTable.empty t.pk

/-- **Decoding what was encoded** applies the decoder's rules to the state, and
nothing else. -/
theorem stateOfPayload_payload (T : PythonLib K) (s : PyState K) :
    stateOfPayload T s.payload = some (s.accept T) := by
  unfold stateOfPayload PyState.payload
  simp only [List.lookup_cons, String.reduceBEq, Option.bind_eq_bind, Option.bind_some,
    Option.getD_some, nodesOfPayload_payload, snapshotsOfPayload_payload, int_ofOption,
    promptTypeOf_ofOption, truthy_orDefault_bool]
  rfl

theorem accept_of_decoded {T : PythonLib K} {p : Json K} {s : PyState K}
    (h : stateOfPayload T p = some s) : s.accept T = s := by
  unfold stateOfPayload at h
  cases p with
  | obj data =>
    simp only [Option.bind_eq_bind, Option.bind_eq_some_iff, Option.some.injEq] at h
    obtain ⟨nodes, -, totalCards, -, tier3Context, -, studyMsgId, -, plan, -, before, -,
      word, -, rfl⟩ := h
    simp only [PyState.accept, orDefault_orDefault, PyState.mk.injEq, true_and, and_true]
    split <;> simp_all
  | null => cases h
  | bool b => cases h
  | int n => cases h
  | float x => cases h
  | str s => cases h
  | arr items => cases h

/-- **A decoded payload survives the codec.** -/
theorem stateOfPayload_idempotent {T : PythonLib K} {p : Json K} {s : PyState K}
    (h : stateOfPayload T p = some s) : stateOfPayload T s.payload = some s := by
  rw [stateOfPayload_payload, accept_of_decoded h]

/-! ## The states of the handlers -/

/-- The keys of `GRADE_POLICIES`. -/
def ActivityType.text : ActivityType → String
  | .srsReview => "srs_review"
  | .firstExposure => "first_exposure"
  | .newAiCard => "new_ai_card"
  | .aiQuiz => "ai_quiz"
  | .sentenceWrite => "sentence_write"

def Json.nat (n : Nat) : Json K := .int n

/-- The node of `make_tier_node` as Python holds it. -/
def SessionNode.asPython (n : SessionNode) : PyNode K where
  activityType := .str n.activityType.text
  sourceTier := .nat n.sourceTier
  cardData := .obj [("word", .str n.word)]
  sourceId := .ofOption .nat n.sourceId
  activityMeta := .obj [("user_id", .nat n.userId), ("target_lang", .ofOption .str n.targetLang)]
  gradePolicyRef := .str n.gradePolicyRef.text
  interactionSchema := .null

/-- `tier3_context`. -/
def Tier3Context.asPython (c : Tier3Context) : Json K :=
  .obj [("user_id", .nat c.userId), ("target_lang", .ofOption .str c.targetLang),
    ("goal", .ofOption .str c.goal), ("level", .ofOption .str c.level), ("plan", .str c.plan),
    ("remaining_slots", .nat c.remainingSlots)]

def snapshotsOf (entries : List (WordId × K)) : Snapshots K :=
  entries.foldl (fun t e => t.set e.1 e.2) KeyedTable.empty

/-- The session state as Python holds it. -/
def SessionState.asPython (T : PythonLib K) (st : SessionState K) : PyState K where
  nodes := st.nodes.map SessionNode.asPython
  totalCards := .int st.totalCards
  tier3Context := (st.tier3Context.map Tier3Context.asPython).getD (.obj [])
  studyMsgId := .ofOption .nat st.studyMsgId
  plan := .str st.plan
  gradedWordIds := .arr (st.gradedWordIds.map .nat)
  beforeStability := snapshotsOf st.beforeStability
  revealed := st.frozen.revealed
  activePromptType := st.frozen.promptType
  activePromptWordId := st.frozen.promptWordId.map Int.ofNat
  sessionDate := (st.sessionDate.map (fun d => .str (T.isoformat d))).getD (.str "")

/-- `state_from_json(state_to_json(st)) == st`. -/
def RoundTrips (T : PythonLib K) (st : SessionState K) : Prop :=
  stateOfPayload T (st.asPython T).payload = some (st.asPython T)

theorem stateOfPayload_asPython (T : PythonLib K) (st : SessionState K) :
    stateOfPayload T (st.asPython T).payload =
      some ((stateFromJson (stateToJson st)).asPython T) := by
  obtain ⟨nodes, total, context, message, plan, graded, before, frozen, date⟩ := st
  obtain ⟨revealed, promptType, promptWordId⟩ := frozen
  have hgraded : T.orDefault (some (.arr (graded.map .nat))) (.arr []) =
      (.arr (graded.map .nat) : Json K) := by
    cases graded with
    | nil => rfl
    | cons w graded => rfl
  have hdate : T.orDefault (some ((date.map (fun d => .str (T.isoformat d))).getD (.str ""))) (.str "") =
      ((date.map (fun d => .str (T.isoformat d))).getD (.str "") : Json K) := by
    cases date with
    | none => rfl
    | some d => simp [PythonLib.orDefault, PythonLib.truthy, T.isoformat_ne_empty]
  rw [stateOfPayload_payload]
  simp only [PyState.accept, SessionState.asPython, hgraded, hdate, stateFromJson, stateToJson,
    frozenFromJson]
  cases promptType <;> cases promptWordId <;> simp [Column.ofOption, Column.get?]

theorem roundTrips_iff (T : PythonLib K) (st : SessionState K) :
    RoundTrips T st ↔ st.frozen.Accepted := by
  obtain ⟨nodes, total, context, message, plan, graded, before, frozen, date⟩ := st
  obtain ⟨revealed, promptType, promptWordId⟩ := frozen
  unfold RoundTrips
  rw [stateOfPayload_asPython]
  simp only [SessionState.asPython, stateFromJson, stateToJson, frozenFromJson, Option.some.injEq,
    PyState.mk.injEq, true_and, and_true]
  -- eight cases: whether there is a type, a word, and a reveal
  constructor
  · rintro ⟨hrevealed, -, hword⟩
    constructor <;> cases promptType <;> cases promptWordId <;>
      simp_all [Column.ofOption, Column.get?]
  · rintro ⟨hword, hreveal⟩
    cases promptType <;> cases promptWordId <;> simp_all [Column.ofOption, Column.get?]

end HamZaboon
