import HamZaboon.Session.Render
import Mathlib.Algebra.Ring.Nat

/-! # The frozen prompt of the active card

Selection and rendering are separated in time: the selector freezes a prompt
type the word's row supports, and every resume renders that type against the row
as it is then.  Only `fill_blank` needs something of the row that a later edit
can withdraw, and nothing replaces a frozen type the row no longer supports.
-/

namespace HamZaboon
open Library

variable {K : Type}

/-- The un-revealed frozen prompt of the word, if any, is one the card supports. -/
def Frozen.SupportedBy (f : Frozen) (α : Alphabet) (wordId : WordId) (card : CardData) : Prop :=
  ∀ promptType, f.forWord wordId = some (promptType, false) → Supports α card promptType

theorem frozen_snapshotStability (st : SessionState K) (wordId : WordId)
    (row : Option (SavedWord K)) : (st.snapshotStability wordId row).frozen = st.frozen := by
  unfold SessionState.snapshotStability
  split
  · split <;> rfl
  · rfl

theorem frontRendering_ok {front : Drawn String} (h : front.Total) (source : Source)
    (keyboard : Keyboard) : ∃ r, frontRendering front source keyboard = .ok r := by
  obtain ⟨text, rest, hok⟩ := h source
  exact ⟨(text, keyboard), by simp only [frontRendering, hok]⟩

theorem frontRendering_error {front : Drawn String} (h : front.Fails) (source : Source)
    (keyboard : Keyboard) : ∃ e, frontRendering front source keyboard = .error e := by
  obtain ⟨e, herr⟩ := h source
  exact ⟨.draw e, by simp only [frontRendering, herr]⟩

/-- A read the render cannot do without fails. -/
def CardFaults.anyRead (f : CardFaults) : Bool := f.row || f.sessionNumber || f.mode || f.toggles

theorem renderCard_ok_iff (w : CardInputs) {faults : CardFaults} (hmode : faults.mode = false)
    (htoggles : faults.toggles = false) (mode : CardMode) (userId : UserId) (wordId : WordId)
    (card : CardData) (footer frontBadge backBadge : String) (grid : Keyboard)
    (screen : Screen K) :
    (∃ r, (renderCard w faults mode userId wordId card footer frontBadge backBadge grid
        screen).2 = .ok r) ↔
      (mode = .staged → screen.state.frozen.SupportedBy w.alphabet wordId card) := by
  simp only [renderCard, hmode, htoggles, Bool.false_eq_true, if_false]
  cases mode with
  | immediate => simp
  | staged =>
    simp only [true_imp_iff, Frozen.SupportedBy]
    cases hf : screen.state.frozen.forWord wordId with
    | none =>
      -- nothing frozen: the selector draws a type the row supports now
      obtain ⟨promptType, rest, hsel⟩ := total_selectSrsPromptType w.alphabet card w.toggles w.random
      simp only [hsel, reduceCtorEq, false_imp_iff, implies_true, iff_true]
      exact frontRendering_ok
        (total_formatSrsFrontStage (supports_selectSrsPromptType hsel) _ _ _ _) _ _
    | some frozen =>
      obtain ⟨promptType, revealed⟩ := frozen
      cases revealed with
      | true => simp
      | false =>
        simp only [Bool.false_eq_true, if_false, Option.some.injEq, Prod.mk.injEq, and_true]
        constructor
        · rintro ⟨r, hr⟩ _ rfl
          by_contra hno
          obtain ⟨e, he⟩ := frontRendering_error (fails_formatSrsFrontStage hno _ _ _ _) w.random _
          rw [he] at hr
          cases hr
        · exact fun h => frontRendering_ok (total_formatSrsFrontStage (h _ rfl) _ _ _ _) _ _

/-- **When a card renders.**  With a database to read, the render of a session
card returns exactly when the card is not shown staged, or the frozen prompt of
its word is revealed, or its type is supported by the row as it is now; only a
frozen `fill_blank` of a card none of whose examples contains the word is not. -/
theorem buildCard_ok_iff (s : WordStore K) (w : CardInputs) {faults : CardFaults}
    (hfaults : faults.anyRead = false) (userId : UserId) (node : SessionNode)
    (screen : Screen K) :
    (∃ r, (buildCard s w faults userId node screen).2 = .ok r) ↔
      ¬ (w.modeOf node = .staged ∧
        screen.state.frozen = ⟨false, some .fillBlank, some node.wordId⟩ ∧
        ∀ e ∈ (cardOf (s.getSavedWord node.wordId userId) node).examples,
          w.alphabet.exampleHasWord e
            (cardOf (s.getSavedWord node.wordId userId) node).wordText = false) := by
  have hstranded : ∀ (f : Frozen) (card : CardData),
      f.SupportedBy w.alphabet node.wordId card ↔
        ¬ (f = ⟨false, some .fillBlank, some node.wordId⟩ ∧
          ∀ e ∈ card.examples, w.alphabet.exampleHasWord e card.wordText = false) := by
    intro f card
    have hmatch : matchingExamples w.alphabet card = [] ↔
        ∀ e ∈ card.examples, w.alphabet.exampleHasWord e card.wordText = false := by
      simp [matchingExamples]
    obtain ⟨revealed, promptType, promptWordId⟩ := f
    rw [← hmatch]
    constructor
    · rintro h ⟨hf, hnone⟩
      injection hf with hrev hpt hwid
      subst hrev hpt hwid
      exact h .fillBlank (by simp [Frozen.forWord]) rfl hnone
    · intro h pt hpt
      rintro rfl hnone
      unfold Frozen.forWord at hpt
      split at hpt
      · rename_i hwid
        obtain ⟨t, ht, heq⟩ := Option.map_eq_some_iff.mp hpt
        obtain ⟨rfl, hrev⟩ := Prod.mk.inj heq
        exact h ⟨by simp only [Frozen.mk.injEq]; exact ⟨hrev, ht, hwid⟩, hnone⟩
      · cases hpt
  have himp : ∀ {a b : Prop}, (a → ¬ b) ↔ ¬ (a ∧ b) := not_and.symm
  simp only [CardFaults.anyRead, Bool.or_eq_false_iff] at hfaults
  obtain ⟨⟨⟨hrow, hnumber⟩, hmode⟩, htoggles⟩ := hfaults
  unfold buildCard CardInputs.modeOf
  simp only [hrow, hnumber, Bool.false_eq_true, if_false]
  split
  · simp only [renderFirstExposure, renderCard_ok_iff w hmode htoggles, frozen_snapshotStability,
      hstranded, himp]
  · simp only [renderReview, renderCard_ok_iff w hmode htoggles, frozen_snapshotStability,
      hstranded, himp]

theorem buildCard_error {faults : CardFaults} (hfaults : faults.anyRead = true)
    (s : WordStore K) (w : CardInputs) (userId : UserId) (node : SessionNode)
    (screen : Screen K) : ∃ e, (buildCard s w faults userId node screen).2 = .error e := by
  have hrender : ∀ (mode : CardMode) (card : CardData) (footer front back : String)
      (grid : Keyboard) (screen : Screen K), faults.mode = true ∨ faults.toggles = true →
      (renderCard w faults mode userId node.wordId card footer front back grid screen).2 =
        .error .database := by
    intro mode card footer front back grid screen h
    simp only [renderCard]
    split
    · rfl
    · rename_i hmode
      have htoggles : faults.toggles = true := h.resolve_left hmode
      cases mode <;> simp [htoggles]
  simp only [buildCard]
  split
  · exact ⟨_, rfl⟩
  · rename_i hrow
    split
    · exact ⟨_, rfl⟩
    · rename_i hnumber
      have hrest : faults.mode = true ∨ faults.toggles = true := by
        simpa [CardFaults.anyRead, hrow, hnumber] using hfaults
      split
      · exact ⟨_, hrender _ _ _ _ _ _ _ hrest⟩
      · exact ⟨_, hrender _ _ _ _ _ _ _ hrest⟩

/-- **A frozen prompt on resume.**  A card is rendered (and its prompt frozen) at
one time, from one state of the tables and the settings, and rendered again at a
later time from any other, revealed in between or not.  The later render returns
unless it shows the front stage of a frozen `fill_blank` and no example of the
card contains the word any more. -/
theorem frozen_prompt_renders_iff (s₀ s₁ : WordStore K) (w₀ w₁ : CardInputs) (userId : UserId)
    (node : SessionNode) (screen : Screen K) (revealed : Bool) (telemetry : Telemetry) :
    let state := (buildCard s₀ w₀ {} userId node screen).1.state
    let card := cardOf (s₁.getSavedWord node.wordId userId) node
    (∃ r, (buildCard s₁ w₁ {} userId node
        ⟨{ state with frozen := { state.frozen with revealed := revealed } }, telemetry⟩).2 =
          .ok r) ↔
      ¬ (w₁.modeOf node = .staged ∧ revealed = false ∧
        state.frozen.promptType = some .fillBlank ∧
        state.frozen.promptWordId = some node.wordId ∧
        ∀ e ∈ card.examples, w₁.alphabet.exampleHasWord e card.wordText = false) := by
  intro state card
  rw [buildCard_ok_iff s₁ w₁ rfl]
  simp only [Frozen.mk.injEq, and_assoc]
  exact Iff.rfl

/-- A word saved with a card whose one example contains it, and then removed from
the list while the session shows it. -/
theorem frozen_fill_blank_not_rendered :
    let row : SavedWord Nat := newSavedWord 1 "run" "en" "run"
      (.val { word := some "run", synonyms := ["dash", "sprint"], examples := ["I run."] }) 0 true 0 1
    let node : SessionNode := ⟨.srsReview, 1, "run", some 1, 1, some "en", .srsReview⟩
    let state : SessionState Nat :=
      ⟨[node], 1, none, some 7, "free", [], [], ⟨false, none, none⟩, some 0⟩
    let w : CardInputs :=
      ⟨.ascii, fun _ => 1, 0, 1, .staged, .staged, ⟨true, true, true, true, true, true⟩⟩
    let table : SerialTable (SavedWord Nat) SavedWord.id :=
      SerialTable.empty.insert (fun id => { row with id := id }) (fun _ => rfl)
    let before : WordStore Nat := ⟨table, .empty⟩
    let after : WordStore Nat := ⟨table.deleteWhere (fun r => r.id = 1), .empty⟩
    let shown := buildCard before w {} 1 node ⟨state, {}⟩
    shown.1.state.frozen = ⟨false, some .fillBlank, some 1⟩ ∧
      (∃ r, shown.2 = .ok r) ∧
      (buildCard after w {} 1 node shown.1).2 = .error (.draw .emptyRange) := by
  refine ⟨by decide, ⟨_, rfl⟩, rfl⟩

end HamZaboon
