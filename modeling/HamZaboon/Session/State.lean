import HamZaboon.Store.Schema

/-! # The state of a study session

`SessionNode`, `SessionState` and its JSON codec (`services/session/store.py`),
and the pure steps of an advance: popping the head node together with the frozen
prompt, and undoing that.
-/

namespace HamZaboon
open Library

abbrev MessageId := Nat

/-- A card of a study session.  `word`, `userId` and `targetLang` are the
entries of its `card_data` and `activity_meta` dictionaries. -/
structure SessionNode where
  activityType : ActivityType
  sourceTier : Nat
  word : String
  sourceId : Option WordId
  userId : UserId
  targetLang : Option String
  gradePolicyRef : ActivityType
  deriving DecidableEq, Repr

/-- The arguments kept for `generate_tier3_node`. -/
structure Tier3Context where
  userId : UserId
  targetLang : Option String
  goal : Option String
  level : Option String
  plan : String
  remainingSlots : Nat
  deriving DecidableEq, Repr

/-- The frozen prompt of the active card: `revealed`, `active_prompt_type`,
`active_prompt_word_id`. -/
structure Frozen where
  revealed : Bool := false
  promptType : Option PromptType := none
  promptWordId : Option WordId := none
  deriving DecidableEq, Repr

/-- `SessionState`.  An empty `tier3_context` or `session_date` is `none`. -/
structure SessionState (K : Type) where
  nodes : List SessionNode
  totalCards : Int
  tier3Context : Option Tier3Context
  studyMsgId : Option MessageId
  plan : String
  gradedWordIds : List WordId
  /-- Stability of each word when it was first rendered. -/
  beforeStability : List (WordId × K)
  frozen : Frozen
  sessionDate : Option Day
  deriving DecidableEq, Repr

variable {K : Type}

def SessionState.isStale (st : SessionState K) (today : Day) : Bool :=
  st.sessionDate ≠ some today

/-! ## Codec -/

/-- The decoded `state_json` of a `study_sessions` row. -/
structure SessionJson (K : Type) where
  nodes : List SessionNode
  totalCards : Int
  tier3Context : Option Tier3Context
  studyMsgId : Option MessageId
  plan : String
  gradedWordIds : List WordId
  beforeStability : List (WordId × K)
  revealed : Bool
  activePromptType : Column PromptType
  activePromptWordId : Column WordId
  sessionDate : Option Day
  deriving DecidableEq, Repr

/-- A value written to a nullable column. -/
def Column.ofOption {α : Type} : Option α → Column α
  | some a => .val a
  | none => .null

def stateToJson (st : SessionState K) : SessionJson K where
  nodes := st.nodes
  totalCards := st.totalCards
  tier3Context := st.tier3Context
  studyMsgId := st.studyMsgId
  plan := st.plan
  gradedWordIds := st.gradedWordIds
  beforeStability := st.beforeStability
  revealed := st.frozen.revealed
  activePromptType := .ofOption st.frozen.promptType
  activePromptWordId := .ofOption st.frozen.promptWordId
  sessionDate := st.sessionDate

/-- The frozen prompt `state_from_json` accepts: a prompt type outside
`SRS_PROMPT_TYPES` is dropped with its word, and a `revealed` without both. -/
def frozenFromJson (revealed : Bool) (promptType : Column PromptType)
    (promptWordId : Column WordId) : Frozen :=
  let pt := promptType.get?
  let wid := if pt.isSome then promptWordId.get? else none
  ⟨revealed && pt.isSome && wid.isSome, pt, wid⟩

/-- `state_from_json`, past `json.loads`. -/
def stateFromJson (data : SessionJson K) : SessionState K where
  nodes := data.nodes
  totalCards := data.totalCards
  tier3Context := data.tier3Context
  studyMsgId := data.studyMsgId
  plan := data.plan
  gradedWordIds := data.gradedWordIds
  beforeStability := data.beforeStability
  frozen := frozenFromJson data.revealed data.activePromptType data.activePromptWordId
  sessionDate := data.sessionDate

/-- A frozen prompt the decoder leaves as it is. -/
structure Frozen.Accepted (f : Frozen) : Prop where
  word : f.promptType = none → f.promptWordId = none
  reveal : f.revealed = true → f.promptType ≠ none ∧ f.promptWordId ≠ none

instance (f : Frozen) : Decidable f.Accepted :=
  decidable_of_iff ((f.promptType = none → f.promptWordId = none) ∧
    (f.revealed = true → f.promptType ≠ none ∧ f.promptWordId ≠ none))
    ⟨fun h => ⟨h.1, h.2⟩, fun h => ⟨h.word, h.reveal⟩⟩

theorem accepted_empty : Frozen.Accepted ⟨false, none, none⟩ := ⟨fun _ => rfl, fun h => nomatch h⟩

@[simp] theorem nodes_fromJson_toJson (st : SessionState K) :
    (stateFromJson (stateToJson st)).nodes = st.nodes := rfl

@[simp] theorem totalCards_fromJson_toJson (st : SessionState K) :
    (stateFromJson (stateToJson st)).totalCards = st.totalCards := rfl

@[simp] theorem gradedWordIds_fromJson_toJson (st : SessionState K) :
    (stateFromJson (stateToJson st)).gradedWordIds = st.gradedWordIds := rfl

@[simp] theorem sessionDate_fromJson_toJson (st : SessionState K) :
    (stateFromJson (stateToJson st)).sessionDate = st.sessionDate := rfl

/-! ## Advance steps -/

/-- `pop_next`: the state without its head node and its frozen prompt. -/
def SessionState.popNext (st : SessionState K) : SessionState K :=
  { st with nodes := st.nodes.tail, frozen := ⟨false, none, none⟩ }

/-- `rollback_pop`, with the node and the frozen prompt `pop_next` saved. -/
def SessionState.rollbackPop (st : SessionState K) (popped : Option SessionNode)
    (saved : Frozen) : SessionState K :=
  { st with nodes := popped.toList ++ st.nodes, frozen := saved }

def SessionState.pushTier3 (st : SessionState K) (node : SessionNode) : SessionState K :=
  { st with nodes := st.nodes ++ [node], totalCards := st.totalCards + 1 }

def SessionState.rollbackTier3Push (st : SessionState K) : SessionState K :=
  { st with nodes := st.nodes.dropLast, totalCards := st.totalCards - 1 }

end HamZaboon
