import HamZaboon.Presets.Placement
import HamZaboon.Presets.References
import HamZaboon.Texts.Unicode

/-! # The active preset

`get_active_preset` serves the preset that a setting prefers, the fallback
preset while the fallback is active and the primary one otherwise; where that
one is missing or disabled it serves `_first_enabled_name`, which skips the
emergency presets.  `set_preset_enabled` counts them when it keeps the last
enabled preset on.  So a registry may be left with an enabled emergency preset
that is never served (`always_servesEnabled_iff`).
-/

namespace HamZaboon
open Library

/-- What the settings take from Python's Unicode tables besides. -/
structure SettingText extends UnicodeLib where
  lower : String → String

def SettingText.ascii : SettingText where
  toUnicodeLib := .ascii
  lower s := String.ofList (s.toList.map Char.toLower)

/-- `get_bool_setting(key, False)`. -/
def SettingText.isTrue (lib : SettingText) (value : Option String) : Bool :=
  lib.lower (lib.strip (value.getD "false")) ∈ ["1", "true", "yes", "on"]

/-- The registry with the settings of the fallback state. -/
structure RoutingStore extends PresetStore where
  aiFallbackActive : Option String
  aiFallbackSince : Option String
  aiConsecutiveFailures : Option String

inductive NoActivePresetError
  | noEnabledPreset
  deriving DecidableEq, Repr

def NoActivePresetError.message : NoActivePresetError → String
  | .noEnabledPreset => "no enabled AI preset available"

/-! ## Reads -/

namespace PresetStore

def firstEnabledName (s : PresetStore) : Option String :=
  (sortBy PresetRow.groupRank
    (s.presets.rows.filter fun row => row.enabled && !row.isEmergency)).head?.map (·.name)

/-- `get_preset` of a name there may not be, unless the row is disabled. -/
def enabledPreset (s : PresetStore) (name : Option String) : Option PresetRow :=
  (name.bind s.presets.lookup).filter (·.enabled)

/-- The preset a setting prefers, else the first enabled one. -/
def preferredOrFirst (lib : SettingText) (s : PresetStore) (setting : Option String) : String :=
  let candidate := lib.strip (setting.getD "")
  if candidate ≠ "" && (s.enabledPreset (some candidate)).isSome then candidate
  else s.firstEnabledName.getD ""

/-- Some preset is enabled, emergency presets included. -/
def hasEnabled (s : PresetStore) : Bool := s.presets.rows.any (·.enabled)

end PresetStore

namespace RoutingStore

def preference (lib : SettingText) (s : RoutingStore) : Option String :=
  if lib.isTrue s.aiFallbackActive then s.aiFallbackPreset else s.aiPrimaryPreset

def getActivePresetName (lib : SettingText) (s : RoutingStore) : String :=
  if lib.isTrue s.aiFallbackActive then s.preferredOrFirst lib s.aiFallbackPreset
  else s.preferredOrFirst lib s.aiPrimaryPreset

def getActivePreset (lib : SettingText) (s : RoutingStore) :
    Except NoActivePresetError PresetRow :=
  match s.enabledPreset (some (s.getActivePresetName lib)) with
  | some preset => .ok preset
  | none =>
    match s.enabledPreset s.firstEnabledName with
    | some preset => .ok preset
    | none => .error .noEnabledPreset

end RoutingStore

/-! ## Edits -/

def PresetStore.setPresetEmergency (s : PresetStore) (name : String) (isEmergency : Bool) :
    PresetStore :=
  { s with
    presets := s.presets.updateWhere (fun row => row.name = name)
      (fun row => { row with isEmergency := isEmergency }) fun _ => rfl }

/-- `activate_preset`, with its result. -/
def PresetStore.activatePreset (s : PresetStore) (name : String) : PresetStore × Bool :=
  match s.presets.lookup name with
  | none => (s, false)
  | some preset =>
    if !preset.enabled then (s, false) else ({ s with aiPrimaryPreset := some name }, true)

/-- `set_fallback_active` at the instant `now`. -/
def RoutingStore.setFallbackActive (s : RoutingStore) (active : Bool)
    (fallbackPreset : Option String) (now : String) : RoutingStore :=
  if active then
    { s with
      aiFallbackActive := some "true"
      aiFallbackSince := some now
      aiFallbackPreset :=
        match fallbackPreset with
        | none => s.aiFallbackPreset
        | some name => if name = "" then s.aiFallbackPreset else some name }
  else
    { s with
      aiFallbackActive := some "false"
      aiFallbackSince := some ""
      aiConsecutiveFailures := some "0" }

/-- An edit of the registry or of the fallback state. -/
inductive RoutingOp
  | registry (op : PresetOp)
  | emergency (name : String) (isEmergency : Bool)
  | activate (name : String)
  | fallbackActive (active : Bool) (fallbackPreset : Option String) (now : String)

namespace RoutingStore

def step (s : RoutingStore) : RoutingOp → RoutingStore
  | .registry op => { s with toPresetStore := s.toPresetStore.step op }
  | .emergency name isEmergency =>
    { s with toPresetStore := s.setPresetEmergency name isEmergency }
  | .activate name => { s with toPresetStore := (s.activatePreset name).1 }
  | .fallbackActive active fallbackPreset now => s.setFallbackActive active fallbackPreset now

/-- An enabled preset is served, and nothing else; disabling one preset leaves
an enabled one. -/
structure ServesEnabled (lib : SettingText) (s : RoutingStore) : Prop where
  raises_only : ∀ e, s.getActivePreset lib = .error e → s.hasEnabled = false
  returns_enabled : ∀ row, s.getActivePreset lib = .ok row →
    row ∈ s.presets.rows ∧ row.enabled = true
  stays_enabled : ∀ name enabled s', s.setPresetEnabled name enabled = .ok s' →
    s.hasEnabled = true → s'.hasEnabled = true

/-- No preset is enabled, or one outside the emergency group is, or the
preference names an enabled one; a preset without a name is found by an empty
preference. -/
def CanServe (lib : SettingText) (s : RoutingStore) : Prop :=
  s.hasEnabled = false ∨
    (∃ row ∈ s.presets.rows, row.enabled = true ∧ row.isEmergency = false) ∨
    ((s.enabledPreset (some (lib.strip ((s.preference lib).getD "")))).isSome ∨
      (s.enabledPreset (some "")).isSome)

end RoutingStore

/-! ## What is served -/

namespace PresetStore
variable {s : PresetStore}

theorem enabledPreset_eq_some {name : Option String} {row : PresetRow}
    (h : s.enabledPreset name = some row) :
    row ∈ s.presets.rows ∧ row.enabled = true ∧ name = some row.name := by
  obtain ⟨hrow, henabled⟩ := Option.filter_eq_some_iff.mp h
  obtain ⟨n, hname, hlookup⟩ := Option.bind_eq_some_iff.mp hrow
  exact ⟨KeyedTable.mem_of_lookup hlookup, henabled,
    hname.trans (congrArg some (KeyedTable.key_of_lookup hlookup).symm)⟩

theorem enabledPreset_of_mem {row : PresetRow} (hrow : row ∈ s.presets.rows)
    (henabled : row.enabled = true) : s.enabledPreset (some row.name) = some row :=
  Option.filter_eq_some_iff.mpr ⟨KeyedTable.lookup_of_mem hrow, henabled⟩

theorem hasEnabled_eq_true : s.hasEnabled = true ↔ ∃ row ∈ s.presets.rows, row.enabled = true :=
  List.any_eq_true

/-- The first enabled name is that of an enabled preset outside the emergency
group, and there is one wherever there is such a preset. -/
theorem firstEnabledName_eq_some {name : String} (h : s.firstEnabledName = some name) :
    ∃ row ∈ s.presets.rows, row.enabled = true ∧ row.isEmergency = false ∧ row.name = name := by
  obtain ⟨row, hhead, hname⟩ := Option.map_eq_some_iff.mp h
  have hmem := (mem_sortBy _).mp (List.mem_of_head? hhead)
  obtain ⟨hrow, hflags⟩ := List.mem_filter.mp hmem
  have hflags' : row.enabled = true ∧ row.isEmergency = false := by simpa using hflags
  exact ⟨row, hrow, hflags'.1, hflags'.2, hname⟩

theorem firstEnabledName_eq_none :
    s.firstEnabledName = none ↔
      ¬ ∃ row ∈ s.presets.rows, row.enabled = true ∧ row.isEmergency = false := by
  rw [firstEnabledName, Option.map_eq_none_iff, List.head?_eq_none_iff]
  constructor
  · rintro h ⟨row, hrow, henabled, hnormal⟩
    have hmem : row ∈ sortBy PresetRow.groupRank
        (s.presets.rows.filter fun row => row.enabled && !row.isEmergency) :=
      (mem_sortBy _).mpr (List.mem_filter.mpr ⟨hrow, by simp [henabled, hnormal]⟩)
    rw [h] at hmem
    cases hmem
  · intro h
    refine List.eq_nil_iff_forall_not_mem.mpr fun row hmem => h ?_
    obtain ⟨hrow, hflags⟩ := List.mem_filter.mp ((mem_sortBy _).mp hmem)
    exact ⟨row, hrow, by simpa using hflags⟩

theorem enabledPreset_firstEnabledName {name : String} (h : s.firstEnabledName = some name) :
    (s.enabledPreset s.firstEnabledName).isSome := by
  obtain ⟨row, hrow, henabled, -, rfl⟩ := firstEnabledName_eq_some h
  rw [h, enabledPreset_of_mem hrow henabled]
  rfl

theorem hasEnabled_setPresetEnabled {name : String} {enabled : Bool} {s' : PresetStore}
    (h : s.setPresetEnabled name enabled = .ok s') (hs : s.hasEnabled = true) :
    s'.hasEnabled = true := by
  unfold setPresetEnabled at h
  split at h
  · cases h
  · rename_i hguard
    cases h
    rw [hasEnabled_eq_true] at hs ⊢
    rw [writeEnabled, KeyedTable.rows_updateWhere]
    cases enabled with
    | true =>
      obtain ⟨row, hrow, henabled⟩ := hs
      refine ⟨_, List.mem_map_of_mem hrow, ?_⟩
      split
      · rfl
      · exact henabled
    | false =>
      -- another preset is enabled, and the update leaves it alone
      simp only [Bool.not_false, Bool.true_and, Bool.not_eq_true', Bool.not_eq_false] at hguard
      obtain ⟨row, hrow, hflags⟩ := List.any_eq_true.mp hguard
      have hflags' : row.enabled = true ∧ row.name ≠ name := by simpa using hflags
      refine ⟨_, List.mem_map_of_mem hrow, ?_⟩
      rw [if_neg (by simpa using hflags'.2)]
      exact hflags'.1

end PresetStore

namespace RoutingStore
variable {lib : SettingText} {s : RoutingStore}

theorem getActivePresetName_eq :
    s.getActivePresetName lib = s.preferredOrFirst lib (s.preference lib) := by
  unfold getActivePresetName preference
  split <;> rfl

theorem getActivePreset_eq_ok {row : PresetRow} (h : s.getActivePreset lib = .ok row) :
    row ∈ s.presets.rows ∧ row.enabled = true := by
  unfold getActivePreset at h
  split at h
  · rename_i preset hpreset
    cases h
    have hfound := PresetStore.enabledPreset_eq_some hpreset
    exact ⟨hfound.1, hfound.2.1⟩
  · split at h
    · rename_i preset hpreset
      cases h
      have hfound := PresetStore.enabledPreset_eq_some hpreset
      exact ⟨hfound.1, hfound.2.1⟩
    · cases h

theorem getActivePreset_eq_error {e : NoActivePresetError} :
    s.getActivePreset lib = .error e ↔
      s.enabledPreset (some (s.getActivePresetName lib)) = none ∧ s.firstEnabledName = none := by
  unfold getActivePreset
  cases hname : s.enabledPreset (some (s.getActivePresetName lib)) with
  | some preset => simp
  | none =>
    cases hfirst : s.firstEnabledName with
    | none => cases e; simp [PresetStore.enabledPreset]
    | some name =>
      obtain ⟨preset, hpreset⟩ := Option.isSome_iff_exists.mp
        (PresetStore.enabledPreset_firstEnabledName hfirst)
      rw [hfirst] at hpreset
      simp [hpreset]

/-- Without a first enabled name the preference alone decides; a preference that
names no enabled preset is looked up as the empty name. -/
theorem enabledPreset_getActivePresetName (hfirst : s.firstEnabledName = none) :
    s.enabledPreset (some (s.getActivePresetName lib)) = none ↔
      ¬ ((s.enabledPreset (some (lib.strip ((s.preference lib).getD "")))).isSome ∨
        (s.enabledPreset (some "")).isSome) := by
  rw [getActivePresetName_eq, PresetStore.preferredOrFirst, hfirst, Option.getD_none]
  by_cases hempty : lib.strip ((s.preference lib).getD "") = ""
  · simp [hempty]
  · cases hpreset : s.enabledPreset (some (lib.strip ((s.preference lib).getD ""))) with
    | none => simp [hempty]
    | some preset => simp [hempty, hpreset]

/-- `get_active_preset` raises exactly where no enabled preset outside the
emergency group exists and the preference names no enabled one. -/
theorem raises_iff (e : NoActivePresetError) :
    s.getActivePreset lib = .error e ↔
      ¬ ((∃ row ∈ s.presets.rows, row.enabled = true ∧ row.isEmergency = false) ∨
        ((s.enabledPreset (some (lib.strip ((s.preference lib).getD "")))).isSome ∨
          (s.enabledPreset (some "")).isSome)) := by
  rw [getActivePreset_eq_error]
  constructor
  · rintro ⟨hname, hfirst⟩ (hnormal | hpreferred)
    · exact PresetStore.firstEnabledName_eq_none.mp hfirst hnormal
    · exact (enabledPreset_getActivePresetName hfirst).mp hname hpreferred
  · intro h
    have hfirst : s.firstEnabledName = none :=
      PresetStore.firstEnabledName_eq_none.mpr fun hnormal => h (Or.inl hnormal)
    exact ⟨(enabledPreset_getActivePresetName hfirst).mpr fun hpreferred =>
      h (Or.inr hpreferred), hfirst⟩

theorem servesEnabled_iff (s : RoutingStore) : s.ServesEnabled lib ↔ s.CanServe lib := by
  constructor
  · intro h
    by_cases hraises : s.getActivePreset lib = .error .noEnabledPreset
    · exact Or.inl (h.raises_only _ hraises)
    · exact Or.inr (not_not.mp fun hnot => hraises ((raises_iff _).mpr hnot))
  · intro h
    refine ⟨fun e hraises => ?_, fun row hrow => getActivePreset_eq_ok hrow,
      fun name enabled s' hset henabled => PresetStore.hasEnabled_setPresetEnabled hset henabled⟩
    exact h.resolve_right ((raises_iff e).mp hraises)

/-- **Enabled presets are served.**  In every state of a run of edits an enabled
preset is served whenever there is one, exactly when every state of the run has
no enabled preset at all, or one outside the emergency group, or a preference
that names an enabled one. -/
theorem always_servesEnabled_iff (lib : SettingText) (s : RoutingStore) (ops : List RoutingOp) :
    Always step (ServesEnabled lib) s ops ↔ Always step (CanServe lib) s ops :=
  always_congr step servesEnabled_iff

def empty : RoutingStore where
  presets := KeyedTable.empty
  presetGroups := KeyedTable.empty
  aiPrimaryPreset := some ""
  aiFallbackPreset := some ""
  aiFallbackActive := some "false"
  aiFallbackSince := some ""
  aiConsecutiveFailures := some "0"

/-- With the preferred preset `main` disabled, the emergency preset `spare`, the
only enabled one, is not served. -/
theorem emergency_preset_not_served :
    ¬ Always step (ServesEnabled .ascii) empty
      [.registry (.set none { name := "main" }),
        .registry (.set none { name := "spare", isEmergency := true }),
        .activate "main", .registry (.enable "main" false)] := by
  intro h
  have hlast := (Always.last _ h).raises_only .noEnabledPreset (by decide)
  revert hlast
  decide

end RoutingStore

end HamZaboon
