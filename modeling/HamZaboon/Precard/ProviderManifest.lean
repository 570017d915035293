import HamZaboon.Library.Fallback
import HamZaboon.Library.Runs
import HamZaboon.Precard.ManifestRows

/-! # The provider manifest

`ProviderManifestManager` of `factory/precard/provider_manifest.py`: `create`,
`delete`, `add_key` and `delete_key`, each with the load before it and the save behind
it.  A file is what `json.load` gives of it, or nothing where it gives no dictionary; a
call comes with the outcome of each write.  What a manager holds is what a fresh one
loads, exactly as long as no call changes the manager while its save misses the first
file that holds a document (`manifest_faithful_iff`).
-/

namespace HamZaboon
open Library

def seedProviders : List (String × ProviderRow) :=
  [("avalai",
      { protocol := "openai_compat"
        baseUrl := .json (.str "https://api.avalai.ir/v1/chat/completions")
        route := "direct"
        keyVars := ["AVALAI_API_KEY_G1", "AVALAI_API_KEY_G2", "AVALAI_API_KEY"]
        requestExtras := .json [("reasoning_effort", .str "low"),
          ("extra_body", .obj [("reasoning_effort", .str "low")])]
        kind := none
        trusted := true }),
    ("google",
      { protocol := "gemini_rest"
        baseUrl := .json .null
        route := "tunnel"
        keyVars := ["GOOGLE_API_KEY_G1", "GOOGLE_API_KEY_G2", "GOOGLE_AI_API_KEY"]
        requestExtras := .json []
        kind := none
        trusted := true }),
    ("openrouter",
      { protocol := "openai_compat"
        baseUrl := .json (.str "https://openrouter.ai/api/v1/chat/completions")
        route := "tunnel"
        keyVars := ["OPENROUTER_API_KEY_G1", "OPENROUTER_API_KEY_G2", "OPENROUTER_API_KEY",
          "OPENROUTER_API_KEY_2"]
        requestExtras := .json []
        kind := none
        trusted := true }),
    ("groq",
      { protocol := "openai_compat"
        baseUrl := .json (.str "https://api.groq.com/openai/v1/chat/completions")
        route := "direct"
        keyVars := ["GROQ_API_KEY_G1", "GROQ_API_KEY_G2", "GROQ_API_KEY"]
        requestExtras := .json []
        kind := none
        trusted := true })]

/-- The manifest of a first run. -/
def seedState : ManifestState := ⟨seedProviders, ∅⟩

/-- An index: none, one that `int` takes, or another. -/
inductive KeyIndex where
  | absent
  | int (value : Int)
  | unusable
  deriving DecidableEq, Repr

/-- A call; a row that is no dictionary is `none`. -/
inductive ManifestRequest where
  | create (name : String) (row : Option RowFields)
  | delete (name : String)
  | addKey (name : String) (index : KeyIndex) (keyVar : String)
  | deleteKey (name : String) (index : KeyIndex)

def ManifestRequest.name : ManifestRequest → String
  | .create name _ => name
  | .delete name => name
  | .addKey name _ _ => name
  | .deleteKey name _ => name

inductive ManifestError where
  | valueError (text : String)
  | keyError (text : String)
  /-- The `OSError` of `save`, or what `json.dump` raises. -/
  | notPersisted

inductive ManifestAnswer where
  | row (row : ProviderRow)
  | removed (any : Bool)
  | slots (slots : List String)
  | keyVar (var : String)

/-- What a call does in memory: it raises, or returns, or saves a manifest and returns. -/
inductive ManifestPlan where
  | raise (error : ManifestError)
  | answer (answer : ManifestAnswer)
  | save (st : ManifestState) (answer : ManifestAnswer)

/-- The files, first path first, and what the manager has loaded. -/
structure ManifestStore where
  files : List (Option Dict)
  held : Option ManifestState

/-- A call, and whether each path takes the seeds, and what the call saves. -/
structure ManifestCall where
  request : ManifestRequest
  seedWrites : Nat → Bool
  writes : Nat → Bool

/-- The manifest with other keys in a row. -/
def ManifestState.setKeys (st : ManifestState) (want : String) (row : ProviderRow)
    (slots : List String) : ManifestState :=
  ⟨setEntry st.providers want { row with keyVars := slots }, st.removed⟩

namespace ManifestLib
variable (lib : ManifestLib)

/-- `create`, up to the save. -/
def planCreate (st : ManifestState) (name : String) (row : Option RowFields) : ManifestPlan :=
  let want := lib.normName name
  match lib.validateRow want row with
  | .error text => .raise (.valueError text)
  | .ok () =>
      if want ∈ st.providers.map (·.1) then .raise (.valueError ("provider exists: " ++ want))
      else
        let clean := lib.cleanRow (row.getD {})
        let kept :=
          if clean.keyVars = [] then { clean with keyVars := [lib.indexedKeyVar want 1] } else clean
        .save ⟨setEntry st.providers want kept, st.removed.erase want⟩ (.row kept)

/-- `delete`, up to the save. -/
def planDelete (st : ManifestState) (name : String) : ManifestPlan :=
  let want := lib.normName name
  if want ∉ st.providers.map (·.1) ∧ want ∉ st.removed then .answer (.removed false)
  else .save ⟨st.providers.filter fun e => e.1 ≠ want, insert want st.removed⟩ (.removed true)

/-- The key variable `add_key` adds. -/
def addedVar (want : String) (row : ProviderRow) (index : KeyIndex) (keyVar : String) : String :=
  let given := lib.upper (lib.strip keyVar)
  if given ≠ "" then given
  else lib.indexedKeyVar want (match index with
    | .absent => row.keyVars.length + 1
    | .int value => value
    | .unusable => 1)

/-- `add_key`, up to the save. -/
def planAddKey (st : ManifestState) (name : String) (index : KeyIndex) (keyVar : String) :
    ManifestPlan :=
  let want := lib.normName name
  match st.providers.lookup want with
  | none => .raise (.keyError ("unknown provider: " ++ want))
  | some row =>
      let var := lib.addedVar want row index keyVar
      if keyVarRx var = false then .raise (.valueError "bad key var name")
      else if var ∈ row.keyVars then .answer (.slots row.keyVars)
      else
        match index with
        | .absent => .save (st.setKeys want row (row.keyVars ++ [var])) (.slots (row.keyVars ++ [var]))
        | .unusable => .raise (.valueError "index must be a 1-based integer")
        | .int idx =>
            if idx < 1 ∨ row.keyVars.length + 1 < idx then
              .raise (.valueError ("index out of range for " ++ want))
            else
              let slots := row.keyVars.insertIdx (idx - 1).toNat var
              .save (st.setKeys want row slots) (.slots slots)

/-- `delete_key`, up to the save. -/
def planDeleteKey (st : ManifestState) (name : String) (index : KeyIndex) : ManifestPlan :=
  let want := lib.normName name
  match st.providers.lookup want with
  | none => .raise (.keyError ("unknown provider: " ++ want))
  | some row =>
      match index with
      | .int idx =>
          match row.keyVars[(idx - 1).toNat]? with
          | some var =>
              if idx < 1 then .raise (.valueError ("index out of range for " ++ want))
              else .save (st.setKeys want row (row.keyVars.eraseIdx (idx - 1).toNat)) (.keyVar var)
          | none => .raise (.valueError ("index out of range for " ++ want))
      | _ => .raise (.valueError "index must be a 1-based integer")

def plan (st : ManifestState) : ManifestRequest → ManifestPlan
  | .create name row => lib.planCreate st name row
  | .delete name => lib.planDelete st name
  | .addKey name index keyVar => lib.planAddKey st name index keyVar
  | .deleteKey name index => lib.planDeleteKey st name index

/-- `save`; `none` where it raises. -/
def save (files : List (Option Dict)) (st : ManifestState) (writes : Nat → Bool) :
    Option (List (Option Dict)) :=
  st.encode.bind fun doc => writeFirst doc files writes

/-- What a fresh manager loads, or seeds. -/
def fresh (files : List (Option Dict)) : ManifestState :=
  match readFirst files with
  | some doc => lib.loadDoc doc
  | none => seedState

/-- `_ensure_loaded`, and whether it returns. -/
def ensureLoaded (s : ManifestStore) (seedWrites : Nat → Bool) : ManifestStore × Bool :=
  match s.held with
  | some _ => (s, true)
  | none =>
      match readFirst s.files with
      | some doc => (⟨s.files, some (lib.loadDoc doc)⟩, true)
      | none =>
          match save s.files seedState seedWrites with
          | some files => (⟨files, some seedState⟩, true)
          | none => (⟨s.files, some seedState⟩, false)

def callLoaded (files : List (Option Dict)) (st : ManifestState) (c : ManifestCall) :
    ManifestStore × Except ManifestError ManifestAnswer :=
  match lib.plan st c.request with
  | .raise error => (⟨files, some st⟩, .error error)
  | .answer answer => (⟨files, some st⟩, .ok answer)
  | .save st' answer =>
      match save files st' c.writes with
      | some files' => (⟨files', some st'⟩, .ok answer)
      -- the manager has been changed already
      | none => (⟨files, some st'⟩, .error .notPersisted)

/-- A call of `create`, `delete`, `add_key` or `delete_key`. -/
def call (s : ManifestStore) (c : ManifestCall) :
    ManifestStore × Except ManifestError ManifestAnswer :=
  let loaded := lib.ensureLoaded s c.seedWrites
  if loaded.2 then lib.callLoaded loaded.1.files (loaded.1.held.getD seedState) c
  else (loaded.1, .error .notPersisted)

def afterCall (s : ManifestStore) (c : ManifestCall) : ManifestStore := (lib.call s c).1

/-- What the manager holds; before its first load, what that will give. -/
def shown (s : ManifestStore) : ManifestState := s.held.getD (lib.fresh s.files)

/-! ## The claim -/

/-- After a call that returned, a fresh manager loads what this one holds; a call that
raised has changed neither. -/
def Faithful (s : ManifestStore) (c : ManifestCall) : Prop :=
  match (lib.call s c).2 with
  | .ok _ => lib.fresh (lib.afterCall s c).files = lib.shown (lib.afterCall s c)
  | .error _ => lib.shown (lib.afterCall s c) = lib.shown s ∧
      lib.fresh (lib.afterCall s c).files = lib.fresh s.files

/-- JSON holds what a created row keeps as given, and its first key, if it is given none,
has a valid name. -/
def LoadsBack : ManifestRequest → Prop
  | .create name row =>
      (∃ value, (lib.cleanRow (row.getD {})).baseUrl = .json value) ∧
      (∃ entries, (lib.cleanRow (row.getD {})).requestExtras = .json entries) ∧
      ((lib.cleanRow (row.getD {})).keyVars = [] →
        keyVarRx (lib.indexedKeyVar (lib.normName name) 1) = true)
  | _ => True

/-- The call adds or removes a provider or a key. -/
def Changes (st : ManifestState) : ManifestRequest → Prop
  | .create name row => lib.validateRow (lib.normName name) row = .ok () ∧
      lib.normName name ∉ st.providers.map (·.1)
  | .delete name => lib.normName name ∈ st.providers.map (·.1)
  | .addKey name index keyVar => ∃ row, st.providers.lookup (lib.normName name) = some row ∧
      keyVarRx (lib.addedVar (lib.normName name) row index keyVar) = true ∧
      lib.addedVar (lib.normName name) row index keyVar ∉ row.keyVars ∧
      (index = .absent ∨ ∃ idx, index = .int idx ∧ 1 ≤ idx ∧ idx ≤ row.keyVars.length + 1)
  | .deleteKey name index => ∃ row, st.providers.lookup (lib.normName name) = some row ∧
      ∃ idx, index = .int idx ∧ 1 ≤ idx ∧ idx ≤ row.keyVars.length

/-- Where a file holds a document, a call that changes the manifest saves it on that path
or before it, and what it saves is read back; where none does, nothing is changed, and
the seeds of a first load are not saved. -/
def Persisted (s : ManifestStore) (c : ManifestCall) : Prop :=
  match readFirst s.files, s.held with
  | some _, _ => lib.Changes (lib.shown s) c.request →
      WriteReaches s.files c.writes ∧ lib.LoadsBack c.request
  | none, none => ∀ i < s.files.length, c.seedWrites i = false
  | none, some st => ¬ lib.Changes st c.request

variable {lib : ManifestLib}

/-! ## What a call saves -/

inductive Changed (lib : ManifestLib) (st : ManifestState) : ManifestRequest → ManifestState → Prop
  | create {name : String} {fields : RowFields} {kept : ProviderRow}
      (valid : lib.validateRow (lib.normName name) (some fields) = .ok ())
      (new : lib.normName name ∉ st.providers.map (·.1))
      (hkept : kept = if (lib.cleanRow fields).keyVars = [] then
          { lib.cleanRow fields with keyVars := [lib.indexedKeyVar (lib.normName name) 1] }
        else lib.cleanRow fields) :
      Changed lib st (.create name (some fields))
        ⟨st.providers ++ [(lib.normName name, kept)], st.removed.erase (lib.normName name)⟩
  | delete {name : String} (held : lib.normName name ∈ st.providers.map (·.1)) :
      Changed lib st (.delete name)
        ⟨st.providers.filter fun e => e.1 ≠ lib.normName name, insert (lib.normName name) st.removed⟩
  | addKey {name keyVar : String} {index : KeyIndex} {row : ProviderRow} {slots : List String}
      (hrow : st.providers.lookup (lib.normName name) = some row)
      (longer : slots.length = row.keyVars.length + 1)
      (hslots : (∀ v ∈ row.keyVars, keyVarRx v = true) → ∀ v ∈ slots, keyVarRx v = true) :
      Changed lib st (.addKey name index keyVar) (st.setKeys (lib.normName name) row slots)
  | deleteKey {name : String} {index : KeyIndex} {row : ProviderRow} {slots : List String}
      (hrow : st.providers.lookup (lib.normName name) = some row)
      (shorter : slots.length + 1 = row.keyVars.length)
      (hslots : (∀ v ∈ row.keyVars, keyVarRx v = true) → ∀ v ∈ slots, keyVarRx v = true) :
      Changed lib st (.deleteKey name index) (st.setKeys (lib.normName name) row slots)

theorem plan_of_changes {st : ManifestState} {request : ManifestRequest}
    (h : lib.Changes st request) :
    ∃ st' answer, lib.plan st request = .save st' answer ∧ Changed lib st request st' := by
  cases request with
  | create name row =>
    obtain ⟨hvalid, hnew⟩ := h
    cases row with
    | none => exact absurd hvalid (validateRow_none _)
    | some fields =>
      obtain ⟨kept, hkept⟩ : ∃ kept, kept = if (lib.cleanRow fields).keyVars = [] then
          { lib.cleanRow fields with keyVars := [lib.indexedKeyVar (lib.normName name) 1] }
        else lib.cleanRow fields := ⟨_, rfl⟩
      refine ⟨_, .row kept, ?_, .create hvalid hnew hkept⟩
      simp only [plan, planCreate, hvalid, if_neg hnew, setEntry, Option.getD_some, hkept]
  | delete name =>
    have hthere : ¬ (lib.normName name ∉ st.providers.map (·.1) ∧ lib.normName name ∉ st.removed) :=
      fun hnot => hnot.1 h
    exact ⟨_, _, by rw [plan, planDelete, if_neg hthere], .delete h⟩
  | addKey name index keyVar =>
    obtain ⟨row, hrow, hrx, hnew, hindex⟩ := h
    have hone : keyVarRx (lib.addedVar (lib.normName name) row index keyVar) ≠ false := by
      rw [hrx]
      decide
    rcases hindex with rfl | ⟨idx, rfl, hlow, hhigh⟩
    · have hplan : lib.plan st (.addKey name .absent keyVar) =
          .save (st.setKeys (lib.normName name) row
            (row.keyVars ++ [lib.addedVar (lib.normName name) row .absent keyVar]))
            (.slots (row.keyVars ++ [lib.addedVar (lib.normName name) row .absent keyVar])) := by
        simp only [plan, planAddKey, hrow, if_neg hone, if_neg hnew]
      refine ⟨_, _, hplan, .addKey hrow List.length_append fun hall v hv => ?_⟩
      rcases List.mem_append.mp hv with hv | hv
      · exact hall v hv
      · exact List.mem_singleton.mp hv ▸ hrx
    · have hrange : ¬ (idx < 1 ∨ (row.keyVars.length : Int) + 1 < idx) := by omega
      have hle : (idx - 1).toNat ≤ row.keyVars.length := by omega
      have hplan : lib.plan st (.addKey name (.int idx) keyVar) =
          .save (st.setKeys (lib.normName name) row (row.keyVars.insertIdx (idx - 1).toNat
            (lib.addedVar (lib.normName name) row (.int idx) keyVar)))
            (.slots (row.keyVars.insertIdx (idx - 1).toNat
              (lib.addedVar (lib.normName name) row (.int idx) keyVar))) := by
        simp only [plan, planAddKey, hrow, if_neg hone, if_neg hnew, if_neg hrange]
      refine ⟨_, _, hplan, .addKey hrow (List.length_insertIdx_of_le_length hle _) fun hall v hv => ?_⟩
      rcases List.eq_or_mem_of_mem_insertIdx hv with rfl | hv
      · exact hrx
      · exact hall v hv
  | deleteKey name index =>
    obtain ⟨row, hrow, idx, rfl, hlow, hhigh⟩ := h
    have hlt : (idx - 1).toNat < row.keyVars.length := by omega
    have hplan : lib.plan st (.deleteKey name (.int idx)) =
        .save (st.setKeys (lib.normName name) row (row.keyVars.eraseIdx (idx - 1).toNat))
          (.keyVar (row.keyVars.get ⟨_, hlt⟩)) := by
      simp only [plan, planDeleteKey, hrow, List.getElem?_eq_getElem hlt, if_neg (not_lt.mpr hlow),
        List.get_eq_getElem]
    refine ⟨_, _, hplan, .deleteKey hrow ?_ fun hall v hv => hall v (List.mem_of_mem_eraseIdx hv)⟩
    rw [List.length_eraseIdx_of_lt hlt]
    omega

theorem plan_of_not_changes {st : ManifestState} {request : ManifestRequest}
    (h : ¬ lib.Changes st request) :
    (∃ error, lib.plan st request = .raise error) ∨
      (∃ answer, lib.plan st request = .answer answer) ∨
      (st.removed.Nonempty ∧ ∃ answer, lib.plan st request = .save st answer) := by
  cases request with
  | create name row =>
    refine Or.inl ?_
    simp only [plan, planCreate]
    cases hvalid : lib.validateRow (lib.normName name) row with
    | error text => exact ⟨_, rfl⟩
    | ok u =>
      have hthere : lib.normName name ∈ st.providers.map (·.1) := by
        by_contra hnew
        exact h ⟨hvalid, hnew⟩
      exact ⟨_, if_pos hthere⟩
  | delete name =>
    have hnot : lib.normName name ∉ st.providers.map (·.1) := h
    refine Or.inr ?_
    by_cases hremoved : lib.normName name ∈ st.removed
    · refine Or.inr ⟨⟨_, hremoved⟩, .removed true, ?_⟩
      have hfilter : (st.providers.filter fun e => e.1 ≠ lib.normName name) = st.providers :=
        List.filter_eq_self.mpr fun e he => decide_eq_true fun heq =>
          hnot (heq ▸ List.mem_map_of_mem he)
      rw [plan, planDelete, if_neg fun hout => hout.2 hremoved, hfilter,
        Finset.insert_eq_of_mem hremoved]
    · exact Or.inl ⟨_, by rw [plan, planDelete, if_pos ⟨hnot, hremoved⟩]⟩
  | addKey name index keyVar =>
    simp only [plan, planAddKey]
    cases hrow : st.providers.lookup (lib.normName name) with
    | none => exact Or.inl ⟨_, rfl⟩
    | some row =>
      dsimp only
      split
      · exact Or.inl ⟨_, rfl⟩
      · rename_i hrx
        split
        · exact Or.inr (Or.inl ⟨_, rfl⟩)
        · rename_i hnew
          have hchanges := fun hindex => h ⟨row, hrow, eq_true_of_ne_false hrx, hnew, hindex⟩
          cases index with
          | absent => exact absurd (Or.inl rfl) hchanges
          | unusable => exact Or.inl ⟨_, rfl⟩
          | int idx =>
            refine Or.inl ⟨_, if_pos ?_⟩
            by_contra hrange
            exact hchanges (Or.inr ⟨idx, rfl, by omega, by omega⟩)
  | deleteKey name index =>
    refine Or.inl ?_
    simp only [plan, planDeleteKey]
    cases hrow : st.providers.lookup (lib.normName name) with
    | none => exact ⟨_, rfl⟩
    | some row =>
      cases index with
      | absent => exact ⟨_, rfl⟩
      | unusable => exact ⟨_, rfl⟩
      | int idx =>
        dsimp only
        cases hget : row.keyVars[(idx - 1).toNat]? with
        | none => exact ⟨_, rfl⟩
        | some var =>
          obtain ⟨hlt, -⟩ := List.getElem?_eq_some_iff.mp hget
          refine ⟨_, if_pos ?_⟩
          by_contra hlow
          exact h ⟨row, hrow, idx, rfl, by omega, by omega⟩

/-! ## Changed manifests -/

theorem lookup_setKeys {st : ManifestState} (want : String) (row : ProviderRow)
    (slots : List String) (x : String) : (st.setKeys want row slots).providers.lookup x =
      if x = want then some { row with keyVars := slots } else st.providers.lookup x :=
  lookup_setEntry ..

theorem setKeys_ne {st : ManifestState} {want : String} {row : ProviderRow}
    (hrow : st.providers.lookup want = some row) {slots : List String}
    (hlen : slots.length ≠ row.keyVars.length) : st.setKeys want row slots ≠ st := by
  intro heq
  have hlookup : (st.setKeys want row slots).providers.lookup want = _ := lookup_setKeys _ _ _ _
  rw [heq, hrow, if_pos rfl] at hlookup
  have hslots : slots = row.keyVars :=
    (congrArg ProviderRow.keyVars (Option.some.inj hlookup)).symm
  exact hlen (congrArg List.length hslots)

theorem Changed.ne {st st' : ManifestState} {request : ManifestRequest}
    (h : Changed lib st request st') : st' ≠ st := by
  cases h with
  | create =>
    intro heq
    have hlen := congrArg (fun st => st.providers.length) heq
    simp at hlen
  | delete held =>
    intro heq
    have hfilter := congrArg ManifestState.providers heq
    obtain ⟨e, he, hkey⟩ := List.mem_map.mp held
    exact of_decide_eq_true (List.filter_eq_self.mp hfilter e he) hkey
  | addKey hrow longer => exact setKeys_ne hrow (by omega)
  | deleteKey hrow shorter => exact setKeys_ne hrow (by omega)

theorem Changed.lookup {st st' : ManifestState} {request : ManifestRequest}
    (h : Changed lib st request st') {x : String} (hx : x ≠ lib.normName request.name) :
    st'.providers.lookup x = st.providers.lookup x := by
  cases h with
  | create =>
    rw [List.lookup_append, lookup_cons_eq]
    exact (congrArg _ (if_neg hx)).trans Option.or_none
  | delete => exact (lookup_filter_ne ..).trans (if_neg hx)
  | addKey => exact (lookup_setKeys ..).trans (if_neg hx)
  | deleteKey => exact (lookup_setKeys ..).trans (if_neg hx)

theorem sound_setKeys {st : ManifestState} (h : ManifestSound lib st) {want : String}
    {row : ProviderRow} (hrow : st.providers.lookup want = some row) {slots : List String}
    (hslots : (∀ v ∈ row.keyVars, keyVarRx v = true) → ∀ v ∈ slots, keyVarRx v = true) :
    ManifestSound lib (st.setKeys want row slots) := by
  have hin := mem_of_lookup_eq_some hrow
  have hsound := (h.rows _ hin).2
  refine ⟨?_, fun e he => ?_, h.removed⟩
  · rw [ManifestState.setKeys, keys_setEntry, if_pos (List.mem_map_of_mem (f := (·.1)) hin)]
    exact h.nodup
  · rcases mem_setEntry he with he | rfl
    · exact h.rows e he
    · exact ⟨(h.rows _ hin).1, hsound.name, hsound.nameRx, hsound.base, hsound.extras, hsound.kind,
        hslots hsound.keyVars⟩

theorem normName_normName (name : String) : lib.normName (lib.normName name) = lib.normName name :=
  lib.lower_strip_idem name

theorem sound_created {name : String} {fields : RowFields}
    (hvalid : lib.validateRow (lib.normName name) (some fields) = .ok ())
    (hloads : lib.LoadsBack (.create name (some fields))) :
    RowSound lib (lib.normName name) (if (lib.cleanRow fields).keyVars = [] then
        { lib.cleanRow fields with keyVars := [lib.indexedKeyVar (lib.normName name) 1] }
      else lib.cleanRow fields) := by
  obtain ⟨hbase, hextras, hkey⟩ := hloads
  have hclean := rowSound_cleanRow (normName_normName name) hvalid hbase hextras
  split
  · rename_i hnone
    exact ⟨hclean.name, hclean.nameRx, hclean.base, hclean.extras, hclean.kind,
      fun v hv => List.mem_singleton.mp hv ▸ hkey hnone⟩
  · exact hclean

theorem Changed.sound {st st' : ManifestState} {request : ManifestRequest}
    (h : Changed lib st request st') (hst : ManifestSound lib st) (hloads : lib.LoadsBack request) :
    ManifestSound lib st' := by
  cases h with
  | @create name fields kept valid new hkept =>
    have hkept : RowSound lib (lib.normName name) kept := hkept ▸ sound_created valid hloads
    refine ⟨?_, fun e he => ?_, fun name hname => hst.removed name (Finset.mem_of_mem_erase hname)⟩
    · rw [List.map_append]
      refine List.nodup_append.mpr ⟨hst.nodup, List.nodup_singleton _, ?_⟩
      rintro x hx y hy rfl
      obtain rfl := List.mem_singleton.mp hy
      exact new hx
    · rcases List.mem_append.mp he with he | he
      · exact ⟨fun hin => (hst.rows e he).1 (Finset.mem_of_mem_erase hin), (hst.rows e he).2⟩
      · obtain rfl := List.mem_singleton.mp he
        exact ⟨Finset.notMem_erase _ _, hkept⟩
  | @delete name held =>
    obtain ⟨e, he, hkey⟩ := List.mem_map.mp held
    have hname := (hst.rows e he).2
    refine ⟨hst.nodup.sublist (List.filter_sublist.map _), fun e he => ?_, fun x hx => ?_⟩
    · obtain ⟨he, hne⟩ := List.mem_filter.mp he
      refine ⟨fun hin => ?_, (hst.rows e he).2⟩
      rcases Finset.mem_insert.mp hin with heq | hin
      · exact of_decide_eq_true hne heq
      · exact (hst.rows e he).1 hin
    · rcases Finset.mem_insert.mp hx with rfl | hx
      · refine ⟨normName_normName name, fun hempty => ?_⟩
        have hrx := hname.nameRx
        rw [hkey, hempty] at hrx
        exact absurd hrx (by decide)
      · exact hst.removed x hx
  | addKey hrow _ hslots => exact sound_setKeys hst hrow hslots
  | deleteKey hrow _ hslots => exact sound_setKeys hst hrow hslots

theorem Changed.loadsBack {st st' : ManifestState} {request : ManifestRequest}
    (h : Changed lib st request st') (hst : ManifestSound lib st') : lib.LoadsBack request := by
  cases h with
  | @create name fields kept valid new hkept =>
    have hsound := (hst.rows (lib.normName name, kept)
      (List.mem_append_right _ (List.mem_singleton_self _))).2
    subst hkept
    split at hsound
    · exact ⟨hsound.base, hsound.extras, fun _ => hsound.keyVars _ (List.mem_singleton_self _)⟩
    · rename_i hsome
      exact ⟨hsound.base, hsound.extras, fun hnone => absurd hnone hsome⟩
  | delete => trivial
  | addKey => trivial
  | deleteKey => trivial

theorem kind_of_sound {st : ManifestState} (h : ManifestSound lib st) {x : String}
    {row : ProviderRow} (hrow : st.providers.lookup x = some row) : row.kind ≠ none := by
  obtain ⟨kind, hkind, -⟩ := (h.rows _ (mem_of_lookup_eq_some hrow)).2.kind
  rw [hkind]
  exact Option.some_ne_none kind

theorem not_sound_seedState : ¬ ManifestSound lib seedState := fun h =>
  kind_of_sound h (x := "google") rfl rfl

theorem Changed.not_sound {st' : ManifestState} {request : ManifestRequest}
    (h : Changed lib seedState request st') : ¬ ManifestSound lib st' := by
  intro hst
  by_cases hname : "google" = lib.normName request.name
  · have hne : "groq" ≠ lib.normName request.name := by
      rw [← hname]
      decide
    exact kind_of_sound hst (h.lookup hne) rfl
  · exact kind_of_sound hst (h.lookup hname) rfl

/-! ## A call -/

theorem fresh_of_read {files : List (Option Dict)} {doc : Dict} (h : readFirst files = some doc) :
    lib.fresh files = lib.loadDoc doc := by
  rw [fresh, h]

theorem sound_fresh {files : List (Option Dict)} (h : readFirst files ≠ none) :
    ManifestSound lib (lib.fresh files) := by
  obtain ⟨doc, hdoc⟩ := Option.ne_none_iff_exists'.mp h
  rw [fresh_of_read hdoc]
  exact sound_loadDoc doc

theorem readFirst_save {files files' : List (Option Dict)} {st : ManifestState} {writes : Nat → Bool}
    (h : save files st writes = some files') : readFirst files' ≠ none := by
  obtain ⟨doc, -, hwrite⟩ := Option.bind_eq_some_iff.mp h
  rcases readFirst_write hwrite with hread | ⟨hread, hheld⟩
  · rw [hread]
    exact Option.some_ne_none doc
  · rwa [hread]

theorem save_reaches {files : List (Option Dict)} {st : ManifestState} {writes : Nat → Bool}
    (hst : ManifestSound lib st) (h : WriteReaches files writes) :
    ∃ files', save files st writes = some files' ∧ lib.fresh files' = st := by
  obtain ⟨doc, hdoc, hload⟩ := loadDoc_encode hst
  obtain ⟨files', hwrite, hread⟩ := h.readFirst_write (d := doc)
  refine ⟨files', ?_, (fresh_of_read hread).trans hload⟩
  rw [save, hdoc]
  exact hwrite

theorem save_not_reaches {files files' : List (Option Dict)} {st : ManifestState}
    {writes : Nat → Bool} (h : ¬ WriteReaches files writes) (hsave : save files st writes = some files') :
    lib.fresh files' = lib.fresh files := by
  obtain ⟨doc, -, hwrite⟩ := Option.bind_eq_some_iff.mp hsave
  rw [fresh, fresh, (readFirst_write_of_not_reaches h hwrite).1]

/-- What a call on a loaded manager is to keep. -/
def Keeps (lib : ManifestLib) (files : List (Option Dict)) (st : ManifestState)
    (after : ManifestStore × Except ManifestError ManifestAnswer) : Prop :=
  match after.2 with
  | .ok _ => lib.fresh after.1.files = lib.shown after.1
  | .error _ => lib.shown after.1 = st ∧ lib.fresh after.1.files = lib.fresh files

theorem keeps_of_same {files : List (Option Dict)} {st : ManifestState} (h : st = lib.fresh files)
    (result : Except ManifestError ManifestAnswer) :
    lib.Keeps files st (⟨files, some st⟩, result) := by
  cases result with
  | ok answer => exact h.symm
  | error error => exact ⟨rfl, rfl⟩

theorem keeps_changed_iff {files : List (Option Dict)} {st st' : ManifestState} {c : ManifestCall}
    {answer : ManifestAnswer} (hplan : lib.plan st c.request = .save st' answer) (hne : st' ≠ st) :
    lib.Keeps files st (lib.callLoaded files st c) ↔
      ∃ files', save files st' c.writes = some files' ∧ lib.fresh files' = st' := by
  unfold callLoaded
  rw [hplan]
  dsimp only
  cases hsave : save files st' c.writes with
  | none =>
    refine iff_of_false (fun hkeep => hne hkeep.1) ?_
    rintro ⟨files', hfiles', -⟩
    cases hfiles'
  | some files' =>
    constructor
    · exact fun hkeep => ⟨files', rfl, hkeep⟩
    · rintro ⟨files'', hfiles'', hfresh⟩
      obtain rfl := Option.some.inj hfiles''
      exact hfresh

theorem keeps_unchanged {files : List (Option Dict)} {st : ManifestState} {c : ManifestCall}
    (hst : st = lib.fresh files) (hread : readFirst files ≠ none ∨ st.removed = ∅)
    (h : ¬ lib.Changes st c.request) : lib.Keeps files st (lib.callLoaded files st c) := by
  unfold callLoaded
  rcases plan_of_not_changes h with ⟨error, hplan⟩ | ⟨answer, hplan⟩ | ⟨hremoved, answer, hplan⟩
  · rw [hplan]
    exact keeps_of_same hst _
  · rw [hplan]
    exact keeps_of_same hst _
  · rw [hplan]
    dsimp only
    cases hsave : save files st c.writes with
    | none => exact keeps_of_same hst _
    | some files' =>
      change lib.fresh files' = st
      by_cases hreaches : WriteReaches files c.writes
      · have hsound : ManifestSound lib st := hst ▸ sound_fresh (hread.resolve_right hremoved.ne_empty)
        obtain ⟨files'', hsave', hfresh⟩ := save_reaches hsound hreaches
        obtain rfl := Option.some.inj (hsave.symm.trans hsave')
        exact hfresh
      · exact (save_not_reaches hreaches hsave).trans hst.symm

theorem keeps_iff_of_document {files : List (Option Dict)} {st : ManifestState} {c : ManifestCall}
    (hst : st = lib.fresh files) (hread : readFirst files ≠ none) :
    lib.Keeps files st (lib.callLoaded files st c) ↔
      (lib.Changes st c.request → WriteReaches files c.writes ∧ lib.LoadsBack c.request) := by
  by_cases hchanges : lib.Changes st c.request
  · obtain ⟨st', answer, hplan, hchanged⟩ := plan_of_changes hchanges
    rw [keeps_changed_iff hplan hchanged.ne, forall_prop_of_true hchanges]
    constructor
    · rintro ⟨files', hsave, hfresh⟩
      refine ⟨?_, hchanged.loadsBack (hfresh ▸ sound_fresh (readFirst_save hsave))⟩
      by_contra hreaches
      exact hchanged.ne (hfresh.symm.trans ((save_not_reaches hreaches hsave).trans hst.symm))
    · rintro ⟨hreaches, hloads⟩
      exact save_reaches (hchanged.sound (hst ▸ sound_fresh hread) hloads) hreaches
  · exact iff_of_true (keeps_unchanged hst (Or.inl hread) hchanges) fun h => absurd h hchanges

theorem keeps_iff_of_seeds {files : List (Option Dict)} {c : ManifestCall}
    (hread : readFirst files = none) :
    lib.Keeps files seedState (lib.callLoaded files seedState c) ↔
      ¬ lib.Changes seedState c.request := by
  have hfresh : seedState = lib.fresh files := by rw [fresh, hread]
  constructor
  · intro hkeep hchanges
    obtain ⟨st', answer, hplan, hchanged⟩ := plan_of_changes hchanges
    obtain ⟨files', hsave, hst'⟩ := (keeps_changed_iff hplan hchanged.ne).mp hkeep
    exact hchanged.not_sound (hst' ▸ sound_fresh (readFirst_save hsave))
  · exact keeps_unchanged hfresh (Or.inr rfl)

theorem not_keeps_of_saved_seeds {files files' : List (Option Dict)} {c : ManifestCall}
    (hread : readFirst files = none) (hread' : readFirst files' ≠ none) :
    ¬ lib.Keeps files seedState (lib.callLoaded files' seedState c) := by
  have hfresh : lib.fresh files = seedState := by rw [fresh, hread]
  have hsame : ∀ result, ¬ lib.Keeps files seedState (⟨files', some seedState⟩, result) := by
    intro result hkeep
    cases result with
    | ok answer => exact not_sound_seedState (hkeep ▸ sound_fresh hread')
    | error error => exact not_sound_seedState (hfresh ▸ hkeep.2 ▸ sound_fresh hread')
  unfold callLoaded
  by_cases hchanges : lib.Changes seedState c.request
  · obtain ⟨st', answer, hplan, hchanged⟩ := plan_of_changes hchanges
    rw [hplan]
    dsimp only
    cases hsave : save files' st' c.writes with
    | none => exact fun hkeep => hchanged.ne hkeep.1
    | some saved =>
      intro hkeep
      have hst' : lib.fresh saved = st' := hkeep
      exact hchanged.not_sound (hst' ▸ sound_fresh (readFirst_save hsave))
  · rcases plan_of_not_changes hchanges with ⟨error, hplan⟩ | ⟨answer, hplan⟩ | ⟨hremoved, -⟩
    · rw [hplan]
      exact hsame _
    · rw [hplan]
      exact hsame _
    · exact absurd rfl hremoved.ne_empty

/-! ## Runs -/

theorem faithful_iff_keeps {s : ManifestStore} {c : ManifestCall}
    (h : s.held ≠ none ∨ readFirst s.files ≠ none) :
    lib.Faithful s c ↔ lib.Keeps s.files (lib.shown s) (lib.callLoaded s.files (lib.shown s) c) := by
  obtain ⟨files, held⟩ := s
  cases held with
  | some st => exact Iff.rfl
  | none =>
    obtain ⟨doc, hdoc⟩ := Option.ne_none_iff_exists'.mp (h.resolve_left fun hnone => hnone rfl)
    have hshown : lib.shown ⟨files, none⟩ = lib.loadDoc doc := fresh_of_read hdoc
    have hcall : lib.call ⟨files, none⟩ c = lib.callLoaded files (lib.loadDoc doc) c := by
      unfold call ensureLoaded
      simp only [hdoc]
      rfl
    change lib.Keeps files (lib.shown ⟨files, none⟩) (lib.call ⟨files, none⟩ c) ↔ _
    rw [hcall, hshown]

theorem save_seedState_eq_none {files : List (Option Dict)} {writes : Nat → Bool} :
    save files seedState writes = none ↔ ∀ i < files.length, writes i = false := by
  obtain ⟨doc, hdoc⟩ : ∃ doc, seedState.encode = some doc := ⟨_, rfl⟩
  rw [save, hdoc]
  exact writeFirst_eq_none

/-- **What a call needs to be faithful.** -/
theorem faithful_iff {s : ManifestStore} {c : ManifestCall} (h : lib.shown s = lib.fresh s.files) :
    lib.Faithful s c ↔ lib.Persisted s c := by
  unfold Persisted
  cases hread : readFirst s.files with
  | some doc =>
    have hsome : readFirst s.files ≠ none := by
      rw [hread]
      exact Option.some_ne_none doc
    exact (faithful_iff_keeps (Or.inr hsome)).trans (keeps_iff_of_document h hsome)
  | none =>
    have hfresh : lib.fresh s.files = seedState := by rw [fresh, hread]
    cases hheld : s.held with
    | some st =>
      have hst : st = seedState := by
        rw [← hfresh, ← h, shown, hheld]
        rfl
      have hloaded : s.held ≠ none := by
        rw [hheld]
        exact Option.some_ne_none st
      rw [faithful_iff_keeps (Or.inl hloaded), h, hfresh, hst]
      exact keeps_iff_of_seeds hread
    | none =>
      dsimp only
      rw [← save_seedState_eq_none]
      cases hsave : save s.files seedState c.seedWrites with
      | none =>
        refine iff_of_true ?_ rfl
        have hcall : lib.call s c = (⟨s.files, some seedState⟩, .error .notPersisted) := by
          unfold call ensureLoaded
          simp only [hheld, hread, hsave]
          rfl
        unfold Faithful afterCall
        rw [hcall]
        exact ⟨hfresh.symm.trans h.symm, rfl⟩
      | some files' =>
        refine iff_of_false (fun hfaithful => ?_) (Option.some_ne_none files')
        have hcall : lib.call s c = lib.callLoaded files' seedState c := by
          unfold call ensureLoaded
          simp only [hheld, hread, hsave]
          rfl
        have hkeeps : lib.Keeps s.files (lib.shown s) (lib.call s c) := hfaithful
        rw [hcall, h, hfresh] at hkeeps
        exact not_keeps_of_saved_seeds hread (readFirst_save hsave) hkeeps

theorem shown_of_faithful {s : ManifestStore} {c : ManifestCall}
    (h : lib.shown s = lib.fresh s.files) (hfaithful : lib.Faithful s c) :
    lib.shown (lib.afterCall s c) = lib.fresh (lib.afterCall s c).files := by
  unfold Faithful at hfaithful
  split at hfaithful
  · exact hfaithful.symm
  · exact hfaithful.1.trans (h.trans hfaithful.2.symm)

/-- **A manager stays what a fresh one loads, as long as its calls persist.** -/
theorem manifest_faithful_iff (lib : ManifestLib) (files : List (Option Dict))
    (calls : List ManifestCall) :
    Meets lib.afterCall lib.Faithful ⟨files, none⟩ calls ↔
      Meets lib.afterCall lib.Persisted ⟨files, none⟩ calls :=
  meets_iff_of_invariant lib.afterCall (I := fun s => lib.shown s = lib.fresh s.files)
    (fun _ _ h => faithful_iff h)
    (fun _ _ h hpersisted => shown_of_faithful h ((faithful_iff h).mpr hpersisted)) rfl calls

theorem isLower_eq (c : Char) : c.isLower = (c.val ≥ 'a'.val && c.val ≤ 'z'.val) := rfl

theorem isUpper_eq (c : Char) : c.isUpper = decide (c.val ≥ 'A'.val ∧ c.val ≤ 'Z'.val) := rfl

/-- The methods on ASCII texts, where no text is an address. -/
def ascii : ManifestLib where
  toStrLib := .ascii
  upper s := String.ofList (s.toList.map Char.toUpper)
  repr s := "'" ++ s ++ "'"
  display _ := "None"
  hostname _ := none
  ipAddress _ := none
  lower_strip_idem := StrLib.ascii_normalizes
  strip_word s h := by
    have hkept : ∀ c ∈ s.toList, c.isWhitespace = false := by
      intro c hc
      by_contra hspace
      have hspace : c.isWhitespace = true := eq_true_of_ne_false hspace
      simp only [Char.isWhitespace, Bool.or_eq_true, decide_eq_true_eq] at hspace
      rcases hspace with ((rfl | rfl) | rfl) | rfl
      all_goals exact absurd (h _ hc) (by decide)
    have htrim : trim Char.isWhitespace s.toList = s.toList := by
      cases hs : s.toList with
      | nil => rfl
      | cons c cs =>
        rw [hs] at hkept
        exact trim_eq_self (hkept c List.mem_cons_self) fun d hd =>
          hkept d (List.mem_of_mem_getLast? hd)
    exact (congrArg String.ofList htrim).trans String.ofList_toList
  lower_word s h := by
    have hmap : s.toList.map Char.toLower = s.toList := by
      refine (List.map_congr_left fun c hc => ?_).trans (List.map_id _)
      have hlower := h c hc
      simp only [isLower_eq, Bool.and_eq_true, decide_eq_true_eq] at hlower
      exact dif_neg fun hupper => absurd (UInt32.le_trans hlower.1 hupper.2) (by decide)
    exact (congrArg String.ofList hmap).trans String.ofList_toList
  upper_word s h := by
    have hmap : s.toList.map Char.toUpper = s.toList := by
      refine (List.map_congr_left fun c hc => ?_).trans (List.map_id _)
      refine dif_neg fun hlower => ?_
      rcases Bool.or_eq_true_iff.mp (h c hc) with hkey | hkey
      · simp only [isUpper_eq, Char.isDigit, Bool.or_eq_true, Bool.and_eq_true,
          decide_eq_true_eq] at hkey
        rcases hkey with hkey | hkey
        · exact absurd (UInt32.le_trans hlower.1 hkey.2) (by decide)
        · exact absurd (UInt32.le_trans hlower.1 hkey.2) (by decide)
      · obtain rfl := beq_iff_eq.mp hkey
        exact absurd hlower.1 (by decide)
    exact (congrArg String.ofList hmap).trans String.ofList_toList

/-- **A deleted provider comes back.**  The first path does not take the manifest, and keeps
the document that is loaded. -/
theorem deleted_provider_returns :
    let doc : Dict := [("providers", .obj [("kilo", .obj [("protocol", .str "gemini_rest"),
      ("route", .str "tunnel"), ("kind", .str "cloud")])])]
    let before : ManifestStore := ⟨[some doc, none], none⟩
    let c : ManifestCall := ⟨.delete "kilo", fun _ => true, fun path => path == 1⟩
    (ascii.call before c).2.isOk = true ∧
      "kilo" ∉ (ascii.shown (ascii.afterCall before c)).providers.map (·.1) ∧
      "kilo" ∈ (ascii.fresh (ascii.afterCall before c).files).providers.map (·.1) ∧
      ¬ Meets ascii.afterCall ascii.Faithful before [c] := by
  intro doc before c
  have hok : (ascii.call before c).2.isOk = true := by decide +kernel
  have hgone : "kilo" ∉ (ascii.shown (ascii.afterCall before c)).providers.map (·.1) := by
    decide +kernel
  have hback : "kilo" ∈ (ascii.fresh (ascii.afterCall before c).files).providers.map (·.1) := by
    decide +kernel
  refine ⟨hok, hgone, hback, fun h => ?_⟩
  have hfaithful : ascii.Faithful before c := h.1
  unfold Faithful at hfaithful
  cases hresult : (ascii.call before c).2 with
  | error error =>
    rw [hresult] at hok
    cases hok
  | ok answer =>
    rw [hresult] at hfaithful
    have hsame : ascii.fresh (ascii.afterCall before c).files = ascii.shown (ascii.afterCall before c) :=
      hfaithful
    exact hgone (hsame ▸ hback)

end ManifestLib

end HamZaboon
