import HamZaboon.Presets.Registry

/-! # References to presets

`ai_primary_preset` and `ai_fallback_preset` name presets.  Deleting a preset
clears a setting that names it; renaming one does not touch the settings, and
the row under the new name starts with the defaults for what the caller leaves
out.  So references and places survive exactly the runs whose renames move a
preset no setting names, and give its place or find it at the defaults
(`references_and_places_kept_iff`).
-/

namespace HamZaboon
open Library

/-- An operation of the registry; `fernet` is the master key's cipher at the time. -/
inductive PresetOp
  | set (fernet : Option (String → String)) (call : SetPreset)
  | delete (name : String)
  | enable (name : String) (enabled : Bool)

namespace PresetStore

/-- The database after a transaction: one that raised is rolled back. -/
def committed (s : PresetStore) : Except PresetError PresetStore → PresetStore
  | .ok s' => s'
  | .error _ => s

def step (s : PresetStore) : PresetOp → PresetStore
  | .set fernet call => s.committed (s.setPreset fernet call)
  | .delete name => (s.deletePreset name).1
  | .enable name enabled => s.committed (s.setPresetEnabled name enabled)

/-- The setting is empty or names a preset. -/
def Refers (s : PresetStore) (setting : Option String) : Prop :=
  ∀ name, setting = some name → name ≠ "" → s.presets.has name = true

/-- No setting names a preset that is not there. -/
structure NonDangling (s : PresetStore) : Prop where
  primary : s.Refers s.aiPrimaryPreset
  fallback : s.Refers s.aiFallbackPreset

/-- The call renames the preset `old` from `previous`: the new name is free and
the key can be stored. -/
structure Renames (s : PresetStore) (fernet : Option (String → String)) (call : SetPreset)
    (previous : String) (old : PresetRow) : Prop where
  moves : call.movesFrom = some previous
  found : s.presets.lookup previous = some old
  free : s.presets.has call.name = false
  storable : ∃ key, encryptForStorage fernet call.apiKey = .ok key

/-- A rename without a priority and without an enabled value keeps both. -/
def KeepsPlace (s : PresetStore) : PresetOp → Prop
  | .set fernet call => ∀ previous old, s.Renames fernet call previous old →
      call.priority = none → call.enabled = none →
        ∃ new, (s.step (.set fernet call)).presets.lookup call.name = some new ∧
          new.priority = old.priority ∧ new.enabled = old.enabled
  | _ => True

/-- A rename moves a preset that no setting names. -/
def MovesUnnamed (s : PresetStore) : PresetOp → Prop
  | .set fernet call => ∀ previous old, s.Renames fernet call previous old →
      s.aiPrimaryPreset ≠ some previous ∧ s.aiFallbackPreset ≠ some previous
  | _ => True

/-- A rename that leaves out priority and enabled value finds them at the
defaults of a new row. -/
def MovesDefaults (s : PresetStore) : PresetOp → Prop
  | .set fernet call => ∀ previous old, s.Renames fernet call previous old →
      call.priority = none → call.enabled = none → old.priority = 0 ∧ old.enabled = true
  | _ => True

/-! ## What `set_preset` writes -/

theorem movesFrom_eq_some {call : SetPreset} {previous : String}
    (h : call.movesFrom = some previous) : previous ≠ "" ∧ previous ≠ call.name := by
  have := (Option.filter_eq_some_iff.mp h).2
  simpa using this

theorem lookup_writeRow (s : PresetStore) (call : SetPreset) (key : String) (name : String) :
    (s.writeRow call key).lookup name =
      if call.movesFrom = some name then none
      else if call.name = name then
        some ((s.presets.lookup name).elim (call.newRow key) (call.overwrite key))
      else s.presets.lookup name := by
  have hupsert := KeyedTable.lookup_upsert s.presets (call.newRow key) (call.overwrite key)
    (call.name_overwrite key) name
  rw [SetPreset.name_newRow] at hupsert
  unfold writeRow
  cases hm : call.movesFrom with
  | none => simpa using hupsert
  | some previous =>
    simp only
    rw [KeyedTable.lookup_deleteWhere_key, hupsert]
    simp only [Option.some.injEq, eq_comm]

theorem setPreset_eq_ok {fernet : Option (String → String)} {s s' : PresetStore}
    {call : SetPreset} (h : s.setPreset fernet call = .ok s') :
    ∃ key, encryptForStorage fernet call.apiKey = .ok key ∧
      (call.movesFrom ≠ none → s.presets.has call.name = false) ∧
      s'.presets = s.writeRow call key ∧ s'.aiPrimaryPreset = s.aiPrimaryPreset ∧
      s'.aiFallbackPreset = s.aiFallbackPreset := by
  unfold setPreset at h
  split at h
  · cases h
  · rename_i hfree
    cases hkey : encryptForStorage fernet call.apiKey with
    | error e => rw [hkey] at h; cases h
    | ok key =>
      rw [hkey] at h
      cases h
      refine ⟨key, rfl, fun hm => ?_, rfl, rfl, rfl⟩
      rw [← Option.isSome_iff_ne_none] at hm
      simpa [hm] using hfree

theorem Renames.setPreset {fernet : Option (String → String)} {s : PresetStore}
    {call : SetPreset} {previous : String} {old : PresetRow}
    (h : s.Renames fernet call previous old) :
    ∃ s' key, s.setPreset fernet call = .ok s' ∧ s'.presets = s.writeRow call key ∧
      s'.aiPrimaryPreset = s.aiPrimaryPreset ∧ s'.aiFallbackPreset = s.aiFallbackPreset := by
  obtain ⟨key, hkey⟩ := h.storable
  refine ⟨{ s with
    presets := s.writeRow call key
    presetGroups := s.keptGroups call (s.writeRow call key) }, key, ?_, rfl, rfl, rfl⟩
  simp only [PresetStore.setPreset, h.free, Bool.and_false, Bool.false_eq_true, if_false, hkey]

theorem Renames.previous_gone {fernet : Option (String → String)} {s : PresetStore}
    {call : SetPreset} {previous : String} {old : PresetRow}
    (h : s.Renames fernet call previous old) :
    (s.step (.set fernet call)).presets.has previous = false ∧
      (s.step (.set fernet call)).aiPrimaryPreset = s.aiPrimaryPreset ∧
      (s.step (.set fernet call)).aiFallbackPreset = s.aiFallbackPreset := by
  obtain ⟨s', key, hok, hrows, hprimary, hfallback⟩ := h.setPreset
  have hstep : s.step (.set fernet call) = s' := by simp only [step, hok, committed]
  rw [hstep, hrows]
  refine ⟨KeyedTable.lookup_eq_none.mp ?_, hprimary, hfallback⟩
  rw [lookup_writeRow, if_pos h.moves]

theorem Renames.lookup_new {fernet : Option (String → String)} {s : PresetStore}
    {call : SetPreset} {previous : String} {old : PresetRow}
    (h : s.Renames fernet call previous old) :
    ∃ key, (s.step (.set fernet call)).presets.lookup call.name = some (call.newRow key) := by
  obtain ⟨s', key, hok, hrows, -⟩ := h.setPreset
  have hstep : s.step (.set fernet call) = s' := by simp only [step, hok, committed]
  refine ⟨key, ?_⟩
  have hne : call.movesFrom ≠ some call.name := by
    rw [h.moves]
    exact fun heq => (movesFrom_eq_some h.moves).2 (Option.some.inj heq)
  rw [hstep, hrows, lookup_writeRow, if_neg hne, if_pos rfl,
    KeyedTable.lookup_eq_none.mpr h.free]
  rfl

/-! ## Places -/

theorem keepsPlace_iff (s : PresetStore) (op : PresetOp) : s.KeepsPlace op ↔ s.MovesDefaults op := by
  cases op with
  | delete name => exact Iff.rfl
  | enable name enabled => exact Iff.rfl
  | set fernet call =>
    have hnew : ∀ previous old, s.Renames fernet call previous old →
        call.priority = none → call.enabled = none →
        ((∃ new, (s.step (.set fernet call)).presets.lookup call.name = some new ∧
          new.priority = old.priority ∧ new.enabled = old.enabled) ↔
            old.priority = 0 ∧ old.enabled = true) := by
      intro previous old h hpriority henabled
      obtain ⟨key, hlookup⟩ := h.lookup_new
      rw [hlookup]
      simp only [Option.some.injEq, exists_eq_left', SetPreset.newRow, hpriority, henabled,
        Option.getD_none]
      rw [eq_comm, eq_comm (a := true)]
    constructor
    · intro hkeeps previous old h hp he
      exact (hnew previous old h hp he).mp (hkeeps previous old h hp he)
    · intro hmoves previous old h hp he
      exact (hnew previous old h hp he).mpr (hmoves previous old h hp he)

/-! ## References -/

theorem Refers.mono {s s' : PresetStore} {setting : Option String} (h : s.Refers setting)
    (hkeep : ∀ name, setting = some name → s.presets.has name = true →
      s'.presets.has name = true) : s'.Refers setting :=
  fun name hname hne => hkeep name hname (h name hname hne)

theorem refers_clearReference {s : PresetStore} {setting : Option String} {name : String}
    (h : s.Refers setting) : (s.deletePreset name).1.Refers (clearReference name setting) := by
  intro other hother hne
  unfold clearReference at hother
  split at hother
  · exact absurd (Option.some.inj hother).symm hne
  · rename_i hneq
    obtain ⟨row, hrow⟩ := KeyedTable.has_iff_lookup.mp (h other hother hne)
    refine KeyedTable.has_iff_lookup.mpr ⟨row, ?_⟩
    have hdiff : other ≠ name := fun heq => hneq (heq ▸ hother)
    show (s.presets.deleteWhere fun row => row.name = name).lookup other = some row
    rw [KeyedTable.lookup_deleteWhere_key, if_neg hdiff, hrow]

theorem has_writeEnabled (s : PresetStore) (name other : String) (enabled : Bool) :
    (s.writeEnabled name enabled).presets.has other = s.presets.has other := by
  rw [Bool.eq_iff_iff, KeyedTable.has_iff_lookup, KeyedTable.has_iff_lookup, writeEnabled,
    KeyedTable.lookup_updateWhere]
  cases s.presets.lookup other <;> simp

theorem has_writeRow {s : PresetStore} {call : SetPreset} {key name : String}
    (hmoves : call.movesFrom ≠ some name) (h : s.presets.has name = true) :
    (s.writeRow call key).has name = true := by
  obtain ⟨row, hrow⟩ := KeyedTable.has_iff_lookup.mp h
  rw [KeyedTable.has_iff_lookup, lookup_writeRow, if_neg hmoves, hrow]
  split <;> exact ⟨_, rfl⟩

theorem nonDangling_step {s : PresetStore} {op : PresetOp} (h : s.NonDangling)
    (hmoves : s.MovesUnnamed op) : (s.step op).NonDangling := by
  cases op with
  | delete name => exact ⟨refers_clearReference h.primary, refers_clearReference h.fallback⟩
  | enable name enabled =>
    simp only [step]
    cases hset : s.setPresetEnabled name enabled with
    | error e => exact h
    | ok s' =>
      have hs' : s' = s.writeEnabled name enabled := by
        unfold setPresetEnabled at hset
        split at hset <;> cases hset
        rfl
      subst hs'
      exact ⟨h.primary.mono fun other _ => (has_writeEnabled s name other enabled).symm ▸ id,
        h.fallback.mono fun other _ => (has_writeEnabled s name other enabled).symm ▸ id⟩
  | set fernet call =>
    simp only [step]
    cases hset : s.setPreset fernet call with
    | error e => exact h
    | ok s' =>
      obtain ⟨key, hkey, hfree, hrows, hprimary, hfallback⟩ := setPreset_eq_ok hset
      have hkept : ∀ name, s.presets.has name = true →
          (s.aiPrimaryPreset = some name ∨ s.aiFallbackPreset = some name) →
            s'.presets.has name = true := by
        intro name hname hsetting
        rw [hrows]
        refine has_writeRow (fun hm => ?_) hname
        obtain ⟨old, hold⟩ := KeyedTable.has_iff_lookup.mp hname
        have hne := hmoves name old ⟨hm, hold, hfree (hm ▸ Option.some_ne_none name), key, hkey⟩
        rcases hsetting with hp | hf
        · exact hne.1 hp
        · exact hne.2 hf
      refine ⟨?_, ?_⟩
      · show s'.Refers s'.aiPrimaryPreset
        rw [hprimary]
        exact h.primary.mono fun name hname hhas => hkept name hhas (Or.inl hname)
      · show s'.Refers s'.aiFallbackPreset
        rw [hfallback]
        exact h.fallback.mono fun name hname hhas => hkept name hhas (Or.inr hname)

theorem movesUnnamed_of_nonDangling {s : PresetStore} {op : PresetOp}
    (h : (s.step op).NonDangling) : s.MovesUnnamed op := by
  cases op with
  | delete name => trivial
  | enable name enabled => trivial
  | set fernet call =>
    intro previous old hrename
    obtain ⟨hgone, hprimary, hfallback⟩ := hrename.previous_gone
    have hne := (movesFrom_eq_some hrename.moves).1
    constructor
    · intro heq
      have := h.primary previous (hprimary.trans heq) hne
      rw [hgone] at this
      cases this
    · intro heq
      have := h.fallback previous (hfallback.trans heq) hne
      rw [hgone] at this
      cases this

/-- **References and places across renames.**  From a registry without dangling
references, every state of a run has none and every rename without explicit
values keeps the place of its preset, exactly when each rename moves a preset
that no setting names and, where it leaves out both values, one that has the
defaults of a new row. -/
theorem references_and_places_kept_iff {s : PresetStore} (h : s.NonDangling)
    (ops : List PresetOp) :
    (Always step NonDangling s ops ∧ Meets step KeepsPlace s ops) ↔
      Meets step (fun s op => s.MovesUnnamed op ∧ s.MovesDefaults op) s ops := by
  rw [meets_and, meets_congr step keepsPlace_iff,
    always_iff_meets step (I := NonDangling) (C := MovesUnnamed) (fun _ h => h)
      (fun _ _ => nonDangling_step) (fun _ _ _ => movesUnnamed_of_nonDangling) h]

/-- A registry with one preset, `a`, disabled and at priority 5. -/
def withDisabledPreset (aiPrimaryPreset : Option String) : PresetStore where
  presets := KeyedTable.empty.insertOrIgnore
    { name := "a", priority := 5, enabled := false
      inputCostPerMillion := none, outputCostPerMillion := none }
  presetGroups := KeyedTable.empty
  aiPrimaryPreset := aiPrimaryPreset
  aiFallbackPreset := some ""

theorem nonDangling_withDisabledPreset :
    (withDisabledPreset (some "")).NonDangling ∧ (withDisabledPreset (some "a")).NonDangling :=
  ⟨⟨fun _ h hne => absurd (Option.some.inj h).symm hne,
      fun _ h hne => absurd (Option.some.inj h).symm hne⟩,
    ⟨fun _ h _ => Option.some.inj h ▸ rfl, fun _ h hne => absurd (Option.some.inj h).symm hne⟩⟩

/-- A rename with explicit values, of a preset that no setting names, followed
by the deletion of the renamed preset. -/
theorem rename_then_delete_keeps_references :
    let ops : List PresetOp := [
      .set none { name := "b", previousName := some "a", priority := some 5, enabled := some false },
      .delete "b"]
    Always step NonDangling (withDisabledPreset (some "")) ops ∧
      Meets step KeepsPlace (withDisabledPreset (some "")) ops := by
  refine (references_and_places_kept_iff nonDangling_withDisabledPreset.1 _).mpr
    ⟨⟨fun previous old h => ?_, fun previous old _ h _ => (nomatch h)⟩, ⟨trivial, trivial⟩, trivial⟩
  have hprevious : previous ≠ "" := (movesFrom_eq_some h.moves).1
  have hprimary : (withDisabledPreset (some "")).aiPrimaryPreset ≠ some previous :=
    fun heq => hprevious (Option.some.inj heq).symm
  exact ⟨hprimary, hprimary⟩

/-- Renamed without explicit values, the preferred preset `a` leaves a dangling
reference behind, and comes out enabled and at priority 0. -/
theorem rename_leaves_reference :
    let s := withDisabledPreset (some "a")
    let op : PresetOp := .set none { name := "b", previousName := some "a" }
    s.NonDangling ∧ ¬ (s.step op).NonDangling ∧ ¬ s.KeepsPlace op := by
  refine ⟨nonDangling_withDisabledPreset.2, fun h => ?_, fun h => ?_⟩
  · have hgone := h.primary "a" rfl (by decide)
    revert hgone
    decide
  · obtain ⟨new, hnew, hpriority, -⟩ := h "a" _ ⟨rfl, rfl, rfl, "", rfl⟩ rfl rfl
    cases hnew
    revert hpriority
    decide

end PresetStore

end HamZaboon
