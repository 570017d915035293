import HamZaboon.Egress.Leases
import HamZaboon.Library.Json
import HamZaboon.Library.JsonWrite
import HamZaboon.Library.Latest
import HamZaboon.Library.Results
import Mathlib.Data.Finset.Sort
import Mathlib.Data.String.Basic

/-! # Rows of the provider manifest

`validate_row`, `_coerce_doc` and the document that `save` writes, of
`factory/precard/provider_manifest.py`.  The loader checks and cleans every row again:
what it makes of a row is sound (`sound_loadDoc`), and a manifest of sound rows is read
back as it was written (`loadDoc_encode`).
-/

namespace HamZaboon
open Library

/-- What the manifest takes from Python's texts, from `urllib` and from `ipaddress`. -/
structure ManifestLib extends StrLib where
  upper : String → String
  /-- `repr` of a text. -/
  repr : String → String
  /-- `str` of a value that is no text. -/
  display : JsonValue → String
  /-- `urlsplit(text).hostname`; `none` where there is none, or for the `ValueError`. -/
  hostname : String → Option String
  /-- `is_loopback` and `is_global` of an address; `none` for the `ValueError`. -/
  ipAddress : String → Option (Bool × Bool)
  lower_strip_idem : ∀ s, lower (strip (lower (strip s))) = lower (strip s)
  strip_word : ∀ s, (∀ c ∈ s.toList, (c.isAlphanum || c == '_') = true) → strip s = s
  lower_word : ∀ s, (∀ c ∈ s.toList, c.isLower = true) → lower s = s
  upper_word : ∀ s, (∀ c ∈ s.toList, (c.isUpper || c.isDigit || c == '_') = true) → upper s = s

/-- A value that is kept as it is given: one that JSON holds, or another, with its `str`
and what `json.load` gives back of what `json.dump` writes; `none` where that raises. -/
inductive Held (α : Type) where
  | json (value : α)
  | foreign (text : String) (read : Option α)

/-- What is written of a value, and read back. -/
def Held.read {α : Type} : Held α → Option α
  | .json value => some value
  | .foreign _ read => read

/-- `request_extras` of a row: a dictionary, or no dictionary. -/
inductive RowExtras where
  | dict (entries : Held Dict)
  | other

/-- What the module reads of a row; `none` for a key that is not there. -/
structure RowFields where
  protocol : Option JsonValue := none
  baseUrl : Option (Held JsonValue) := none
  route : Option JsonValue := none
  keyVars : Option JsonValue := none
  requestExtras : Option RowExtras := none
  kind : Option JsonValue := none
  trusted : Option JsonValue := none

/-- A row of the manager; a seed has no kind. -/
structure ProviderRow where
  protocol : String
  baseUrl : Held JsonValue
  route : String
  keyVars : List String
  requestExtras : Held Dict
  kind : Option String
  trusted : Bool

/-- `_providers` and `_removed`. -/
structure ManifestState where
  providers : List (String × ProviderRow)
  removed : Finset String

/-! ## Names and texts -/

/-- `_NAME_RX`, of a stripped text. -/
def nameRx (s : String) : Bool :=
  match s.toList with
  | [] => false
  | c :: rest => (c.isLower || c.isDigit) &&
      rest.all fun c => c.isLower || c.isDigit || c == '_' || c == '-'

def keyChar (c : Char) : Bool := c.isUpper || c.isDigit || c == '_'

/-- `(_[A-Z0-9]+)?$`. -/
def keySuffix : List Char → Bool
  | [] => true
  | c :: rest => c == '_' && !rest.isEmpty && rest.all fun c => c.isUpper || c.isDigit

/-- `_KEY_VAR_RX`, of a stripped text. -/
def keyVarRx (s : String) : Bool :=
  match s.toList with
  | [] => false
  | c :: rest => c.isUpper && (List.range (rest.length + 1)).any fun i =>
      (rest.take i).all keyChar && "_API_KEY".toList.isPrefixOf (rest.drop i) &&
        keySuffix ((rest.drop i).drop "_API_KEY".length)

namespace ManifestLib
variable (lib : ManifestLib)

/-- `str(value)`. -/
def strOf : JsonValue → String
  | .str s => s
  | value => lib.display value

/-- `str(value or "")`. -/
def textOr (value : JsonValue) : String := if value.truthy then lib.strOf value else ""

def normName (name : String) : String := lib.lower (lib.strip name)

/-- `indexed_key_var`: the runs of letters and digits, joined. -/
def indexedKeyVar (provider : String) (index : Int) : String :=
  let runs := ((lib.upper (lib.strip provider)).toList.splitOnP
    fun c => !(c.isUpper || c.isDigit)).filter (· ≠ [])
  if runs = [] then ""
  else "_".intercalate (runs.map String.ofList) ++ "_API_KEY_" ++ toString (max index 1).toNat

/-- `str(base_url)`. -/
def heldStr : Held JsonValue → String
  | .json value => lib.strOf value
  | .foreign text _ => text

/-- `str(base_url or "")`. -/
def heldText : Held JsonValue → String
  | .json value => lib.textOr value
  | .foreign text _ => text

/-! ## Hosts -/

def baseHost (text : String) : String := lib.lower ((lib.hostname (lib.strip text)).getD "")

/-- `text == "localhost" or text.endswith(".localhost")`. -/
def isLocalhost (text : String) : Bool :=
  text = "localhost" || ".localhost".toList.isSuffixOf text.toList

def isLoopbackHost (host : String) : Bool :=
  let text := lib.normName host
  if text = "" then false
  else isLocalhost text || ((lib.ipAddress text).map (·.1)).getD false

def literalHostOk (host : String) : Bool :=
  let text := lib.normName host
  if text = "" then false
  else isLocalhost text || ((lib.ipAddress text).map fun ip => ip.1 || ip.2).getD true

def inferKind (base : Held JsonValue) : String :=
  let host := lib.baseHost (lib.heldText base)
  if host ≠ "" ∧ lib.isLoopbackHost host then "local" else "cloud"

/-- The stated kind, or that of the base. -/
def kindOf (row : RowFields) : String :=
  let kind := lib.normName (lib.textOr (row.kind.getD .null))
  if kind ≠ "" then kind else lib.inferKind (row.baseUrl.getD (.json .null))

/-! ## Validation -/

/-- `base_url is not None and str(base_url).strip()`. -/
def hasBase (base : Held JsonValue) : Bool :=
  match base with
  | .json .null => false
  | base => lib.strip (lib.heldStr base) ≠ ""

/-- `validate_row`, from the protocol to the kind. -/
def checkEndpoint (want protocol route : String) (base : Held JsonValue) (kind : String) :
    Except String Unit :=
  let text := lib.strip (lib.heldStr base)
  let host := lib.baseHost (lib.heldText base)
  let https := "https://".toList.isPrefixOf text.toList
  if protocol ∉ ["openai_compat", "gemini_rest"] then
    .error ("provider " ++ want ++ ": protocol must be one of openai_compat/gemini_rest")
  else if route ∉ ["direct", "tunnel"] then
    .error ("provider " ++ want ++ ": route must be direct|tunnel")
  else if lib.hasBase base ∧ ¬ (https ∨ "http://".toList.isPrefixOf text.toList) then
    .error ("provider " ++ want ++ ": base_url must be http(s) or empty")
  else if lib.hasBase base ∧ ¬ lib.literalHostOk (lib.baseHost text) then
    .error ("provider " ++ want ++ ": base_url host is not allowed (loopback, localhost, or " ++
      "public IP/hostname only)")
  else if kind ∉ ["local", "cloud"] then
    .error ("provider " ++ want ++ ": kind must be local|cloud")
  else if kind = "local" then
    if protocol ≠ "openai_compat" then
      .error ("provider " ++ want ++ ": local kind needs the openai_compat protocol")
    else if host = "" ∨ ¬ lib.isLoopbackHost host then
      .error ("provider " ++ want ++ ": local kind accepts loopback/ localhost endpoints only")
    else if route ≠ "direct" then
      .error ("provider " ++ want ++ ": local kind needs the direct route")
    else .ok ()
  else if protocol = "openai_compat" ∧ host ≠ "" ∧ ¬ https then
    .error ("provider " ++ want ++ ": cloud kind needs an https base_url")
  else if protocol = "openai_compat" ∧ host ≠ "" ∧ lib.isLoopbackHost host then
    .error ("provider " ++ want ++ ": cloud kind cannot point at loopback (use kind local)")
  else .ok ()

/-- A name of a key variable in a row. -/
def isKeyVar : JsonValue → Bool
  | .str s => keyVarRx (lib.upper (lib.strip s))
  | _ => false

/-- `validate_row`, of `key_vars`. -/
def checkKeyVars (want : String) : JsonValue → Except String Unit
  | .arr items =>
      if items.all lib.isKeyVar then .ok ()
      else .error ("provider " ++ want ++ ": bad key var name")
  | _ => .error ("provider " ++ want ++ ": key_vars must be a list")

/-- `validate_row`, of `request_extras`. -/
def checkExtras (want : String) : Option RowExtras → Except String Unit
  | some .other => .error ("provider " ++ want ++ ": request_extras must be an object")
  | _ => .ok ()

/-- `validate_row`, of `trusted`. -/
def checkTrusted (want : String) : Option JsonValue → Except String Unit
  | none => .ok ()
  | some (.bool _) => .ok ()
  | some _ => .error ("provider " ++ want ++ ": trusted must be true/false")

/-- `validate_row`; `none` for a row that is no dictionary. -/
def validateRow (name : String) (row : Option RowFields) : Except String Unit :=
  let want := lib.normName name
  if nameRx want = false then
    .error ("provider name must be [a-z0-9_-] (got " ++ lib.repr name ++ ")")
  else
    match row with
    | none => .error ("provider row for " ++ want ++ " must be an object")
    | some row => do
        lib.checkEndpoint want (lib.textOr (row.protocol.getD .null))
          (lib.textOr (row.route.getD .null)) (row.baseUrl.getD (.json .null)) (lib.kindOf row)
        lib.checkKeyVars want (row.keyVars.getD (.arr []))
        checkExtras want row.requestExtras
        checkTrusted want row.trusted

/-! ## Cleaning -/

/-- The names of `key_vars`, cleaned. -/
def cleanKeyVars : JsonValue → List String
  | .arr items => (items.filter fun v => lib.strip (lib.textOr v) ≠ "").map fun v =>
      lib.upper (lib.strip (lib.strOf v))
  | _ => []

def cleanRow (row : RowFields) : ProviderRow where
  protocol := lib.textOr (row.protocol.getD .null)
  baseUrl := row.baseUrl.getD (.json .null)
  route := if (row.route.getD .null).truthy then lib.strOf (row.route.getD .null) else "direct"
  keyVars := lib.cleanKeyVars (row.keyVars.getD .null)
  requestExtras :=
    match row.requestExtras with
    | some (.dict entries) => entries
    | _ => .json []
  kind := some (lib.kindOf row)
  trusted :=
    match row.trusted with
    | some (.bool true) => true
    | _ => false

end ManifestLib

/-! ## Documents -/

def fieldsOf (entries : Dict) : RowFields where
  protocol := entries.lookup "protocol"
  baseUrl := (entries.lookup "base_url").map .json
  route := entries.lookup "route"
  keyVars := entries.lookup "key_vars"
  requestExtras := (entries.lookup "request_extras").map fun value =>
    match value with
    | .obj extras => .dict (.json extras)
    | _ => .other
  kind := entries.lookup "kind"
  trusted := entries.lookup "trusted"

/-- A row as it is written, with what JSON holds of its values. -/
def ProviderRow.entries (r : ProviderRow) (base : JsonValue) (extras : Dict) : Dict :=
  [("protocol", .str r.protocol), ("base_url", base), ("route", .str r.route),
    ("key_vars", .arr (r.keyVars.map .str)), ("request_extras", .obj extras)] ++
    (r.kind.map fun kind => ("kind", JsonValue.str kind)).toList ++ [("trusted", .bool r.trusted)]

/-- `json.dump` of a row; `none` where it raises. -/
def ProviderRow.encode (r : ProviderRow) : Option JsonValue := do
  let base ← r.baseUrl.read
  let extras ← r.requestExtras.read
  return .obj (r.entries base extras)

/-- The document `save` writes; `none` where `json.dump` raises. -/
def ManifestState.encode (st : ManifestState) : Option Dict :=
  (st.providers.mapM fun (e : String × ProviderRow) => e.2.encode.map fun row => (e.1, row)).map
    fun rows => [("providers", .obj rows), ("removed", .arr ((st.removed.sort (· ≤ ·)).map .str))]

namespace ManifestLib
variable (lib : ManifestLib)

/-- An entry of `providers`, if `_coerce_doc` takes it. -/
def coerceEntry (e : String × JsonValue) : Option (String × ProviderRow) :=
  let want := lib.normName e.1
  if want = "" then none
  else
    match e.2 with
    | .obj entries =>
        match lib.validateRow want (some (fieldsOf entries)) with
        | .ok () => some (want, lib.cleanRow (fieldsOf entries))
        | .error _ => none
    | _ => none

def coerceProviders (doc : Dict) : List (String × ProviderRow) :=
  match Dict.get doc "providers" with
  | .obj rows => (rows.filterMap lib.coerceEntry).foldl (fun d e => setEntry d e.1 e.2) []
  | _ => []

/-- The removed names of a document. -/
def coerceRemoved (doc : Dict) : Finset String :=
  match Dict.get doc "removed" with
  | .arr names => ((names.map fun name => lib.normName (lib.textOr name)).filter (· ≠ "")).toFinset
  | _ => ∅

/-- `load`, of a document. -/
def loadDoc (doc : Dict) : ManifestState where
  providers := (lib.coerceProviders doc).filter fun e => e.1 ∉ lib.coerceRemoved doc
  removed := lib.coerceRemoved doc

end ManifestLib

/-! ## Key variables and kinds -/

theorem keyChar_of_keyVarRx {s : String} (h : keyVarRx s = true) : ∀ c ∈ s.toList, keyChar c = true := by
  unfold keyVarRx at h
  cases hs : s.toList with
  | nil => simp
  | cons c rest =>
    rw [hs] at h
    obtain ⟨hc, hsplit⟩ := Bool.and_eq_true_iff.mp h
    obtain ⟨i, -, hi⟩ := List.any_eq_true.mp hsplit
    simp only [Bool.and_eq_true] at hi
    obtain ⟨⟨hstem, hmid⟩, hsuffix⟩ := hi
    have hmark : ∀ c ∈ "_API_KEY".toList, keyChar c = true := List.all_eq_true.mp (by decide)
    obtain ⟨tail, htail⟩ := List.isPrefixOf_iff_prefix.mp hmid
    have hend : ∀ c ∈ tail, keyChar c = true := by
      have hdrop : (rest.drop i).drop "_API_KEY".length = tail := by
        rw [← htail]
        exact List.drop_left
      rw [hdrop] at hsuffix
      cases tail with
      | nil => simp
      | cons c' tail =>
        simp only [keySuffix, Bool.and_eq_true, beq_iff_eq, List.all_eq_true] at hsuffix
        rintro x hx
        rcases List.mem_cons.mp hx with rfl | hx
        · rw [hsuffix.1.1]
          decide
        · have hx' := hsuffix.2 x hx
          unfold keyChar
          rw [hx', Bool.true_or]
    intro x hx
    rcases List.mem_cons.mp hx with rfl | hx
    · unfold keyChar
      rw [hc, Bool.true_or, Bool.true_or]
    · rw [← List.take_append_drop i rest, ← htail] at hx
      rcases List.mem_append.mp hx with hx | hx
      · exact List.all_eq_true.mp hstem x hx
      · rcases List.mem_append.mp hx with hx | hx
        · exact hmark x hx
        · exact hend x hx

namespace ManifestLib
variable {lib : ManifestLib}

@[simp] theorem textOr_str (s : String) : lib.textOr (.str s) = s := by
  unfold textOr JsonValue.truthy strOf
  by_cases hs : s = ""
  · simp [hs]
  · simp [hs]

theorem isAlphanum_eq (c : Char) : c.isAlphanum = (c.isUpper || c.isLower || c.isDigit) := rfl

theorem strip_of_keyVarRx {s : String} (h : keyVarRx s = true) :
    lib.strip s = s ∧ lib.upper (lib.strip s) = s := by
  have hchars := keyChar_of_keyVarRx h
  have hstrip : lib.strip s = s := by
    refine lib.strip_word s fun c hc => ?_
    have hkey := hchars c hc
    simp only [keyChar, Bool.or_eq_true, beq_iff_eq] at hkey
    simp only [isAlphanum_eq, Bool.or_eq_true, beq_iff_eq]
    exact hkey.imp_left fun h => h.imp_left Or.inl
  exact ⟨hstrip, by rw [hstrip, lib.upper_word s hchars]⟩

theorem normName_of_kind (lib : ManifestLib) {kind : String} (h : kind ∈ ["local", "cloud"]) :
    lib.normName kind = kind ∧ kind ≠ "" := by
  have hword : ∀ word ∈ ["local", "cloud"], (∀ c ∈ word.toList, c.isLower = true) ∧ word ≠ "" := by
    intro word hword
    rcases List.mem_cons.mp hword with rfl | hword
    · exact ⟨List.all_eq_true.mp (by decide), by decide⟩
    · obtain rfl := List.mem_singleton.mp hword
      exact ⟨List.all_eq_true.mp (by decide), by decide⟩
  obtain ⟨hlower, hne⟩ := hword kind h
  have hstrip : lib.strip kind = kind := lib.strip_word kind fun c hc => by
    simp [isAlphanum_eq, hlower c hc]
  exact ⟨by rw [normName, hstrip, lib.lower_word kind hlower], hne⟩

end ManifestLib

/-! ## Sound rows -/

/-- A row that the loader takes as it is. -/
structure RowSound (lib : ManifestLib) (want : String) (r : ProviderRow) : Prop where
  name : lib.normName want = want
  nameRx : nameRx want = true
  base : ∃ value, r.baseUrl = .json value
  extras : ∃ entries, r.requestExtras = .json entries
  kind : ∃ kind, r.kind = some kind ∧ lib.normName kind = kind ∧ kind ≠ "" ∧
    lib.checkEndpoint want r.protocol r.route r.baseUrl kind = .ok ()
  keyVars : ∀ v ∈ r.keyVars, keyVarRx v = true

/-- A manifest that is read back as it was written. -/
structure ManifestSound (lib : ManifestLib) (st : ManifestState) : Prop where
  nodup : (st.providers.map (·.1)).Nodup
  rows : ∀ e ∈ st.providers, e.1 ∉ st.removed ∧ RowSound lib e.1 e.2
  removed : ∀ name ∈ st.removed, lib.normName name = name ∧ name ≠ ""

namespace ManifestLib
variable {lib : ManifestLib}

theorem checkEndpoint_ok {want protocol route kind : String} {base : Held JsonValue}
    (h : lib.checkEndpoint want protocol route base kind = .ok ()) :
    protocol ∈ ["openai_compat", "gemini_rest"] ∧ route ∈ ["direct", "tunnel"] ∧
      kind ∈ ["local", "cloud"] := by
  unfold checkEndpoint at h
  dsimp only at h
  by_cases hprotocol : protocol ∈ ["openai_compat", "gemini_rest"]
  · rw [if_neg (not_not.mpr hprotocol)] at h
    by_cases hroute : route ∈ ["direct", "tunnel"]
    · rw [if_neg (not_not.mpr hroute)] at h
      refine ⟨hprotocol, hroute, ?_⟩
      by_contra hkind
      rw [if_pos hkind] at h
      split at h
      · cases h
      · split at h <;> cases h
    · rw [if_pos hroute] at h
      cases h
  · rw [if_pos hprotocol] at h
    cases h

theorem validateRow_ok {name : String} {row : RowFields} :
    lib.validateRow name (some row) = .ok () ↔ nameRx (lib.normName name) = true ∧
      lib.checkEndpoint (lib.normName name) (lib.textOr (row.protocol.getD .null))
        (lib.textOr (row.route.getD .null)) (row.baseUrl.getD (.json .null)) (lib.kindOf row) = .ok () ∧
      lib.checkKeyVars (lib.normName name) (row.keyVars.getD (.arr [])) = .ok () ∧
      checkExtras (lib.normName name) row.requestExtras = .ok () ∧
      checkTrusted (lib.normName name) row.trusted = .ok () := by
  unfold validateRow
  dsimp only
  cases nameRx (lib.normName name) with
  | false => simp
  | true =>
    rw [if_neg (by decide), and_iff_right rfl, bind_eq_ok]
    constructor
    · rintro ⟨⟨⟩, hendpoint, h⟩
      obtain ⟨⟨⟩, hkeys, h⟩ := bind_eq_ok.mp h
      obtain ⟨⟨⟩, hextras, h⟩ := bind_eq_ok.mp h
      exact ⟨hendpoint, hkeys, hextras, h⟩
    · rintro ⟨hendpoint, hkeys, hextras, htrusted⟩
      exact ⟨(), hendpoint, bind_eq_ok.mpr ⟨(), hkeys, bind_eq_ok.mpr ⟨(), hextras, htrusted⟩⟩⟩

theorem validateRow_none (name : String) : lib.validateRow name none ≠ .ok () := by
  unfold validateRow
  dsimp only
  split <;> exact nofun

theorem checkKeyVars_ok {want : String} {value : JsonValue}
    (h : lib.checkKeyVars want value = .ok ()) :
    ∃ items, value = .arr items ∧ ∀ v ∈ items, lib.isKeyVar v = true := by
  unfold checkKeyVars at h
  split at h
  · rename_i items
    split at h
    · rename_i hall
      exact ⟨items, rfl, List.all_eq_true.mp hall⟩
    · cases h
  · cases h

theorem keyVarRx_of_cleanKeyVars {want : String} {row : RowFields}
    (h : lib.checkKeyVars want (row.keyVars.getD (.arr [])) = .ok ()) :
    ∀ v ∈ lib.cleanKeyVars (row.keyVars.getD .null), keyVarRx v = true := by
  intro v hv
  cases hkeys : row.keyVars with
  | none =>
    rw [hkeys] at hv
    cases hv
  | some value =>
    rw [hkeys] at h hv
    obtain ⟨items, heq, hall⟩ := checkKeyVars_ok h
    obtain rfl : value = .arr items := heq
    obtain ⟨item, hitem, rfl⟩ := List.mem_map.mp hv
    have hkey := hall item (List.mem_filter.mp hitem).1
    unfold isKeyVar at hkey
    split at hkey
    · exact hkey
    · cases hkey

theorem rowSound_cleanRow {want : String} {row : RowFields} (hname : lib.normName want = want)
    (h : lib.validateRow want (some row) = .ok ())
    (hbase : ∃ value, (lib.cleanRow row).baseUrl = .json value)
    (hextras : ∃ entries, (lib.cleanRow row).requestExtras = .json entries) :
    RowSound lib want (lib.cleanRow row) := by
  obtain ⟨hrx, hendpoint, hkeys, -, -⟩ := validateRow_ok.mp h
  rw [hname] at hrx hendpoint hkeys
  obtain ⟨-, hroute, hkind⟩ := checkEndpoint_ok hendpoint
  obtain ⟨hnorm, hne⟩ := normName_of_kind lib hkind
  have htruthy : (row.route.getD .null).truthy = true := by
    by_contra hfalsy
    rw [textOr, if_neg hfalsy] at hroute
    revert hroute
    decide
  have hsame : (lib.cleanRow row).route = lib.textOr (row.route.getD .null) := by
    rw [textOr, if_pos htruthy]
    exact if_pos htruthy
  refine ⟨hname, hrx, hbase, hextras, ⟨lib.kindOf row, rfl, hnorm, hne, ?_⟩,
    keyVarRx_of_cleanKeyVars hkeys⟩
  rw [hsame]
  exact hendpoint

theorem rowSound_coerceEntry {e : String × JsonValue} {want : String} {r : ProviderRow}
    (h : lib.coerceEntry e = some (want, r)) : RowSound lib want r := by
  unfold coerceEntry at h
  dsimp only at h
  split at h
  · cases h
  · split at h
    · rename_i entries _
      split at h
      · rename_i hvalid
        obtain ⟨rfl, rfl⟩ := Prod.mk.inj (Option.some.inj h)
        refine rowSound_cleanRow (lib.lower_strip_idem e.1) hvalid ?_ ?_
        · simp only [cleanRow, fieldsOf]
          cases List.lookup "base_url" entries with
          | none => exact ⟨_, rfl⟩
          | some value => exact ⟨value, rfl⟩
        · simp only [cleanRow, fieldsOf]
          cases List.lookup "request_extras" entries with
          | none => exact ⟨_, rfl⟩
          | some value => cases value <;> exact ⟨_, rfl⟩
      · cases h
    · cases h

/-! ## Reading back -/

@[simp] theorem fieldsOf_entries (r : ProviderRow) (base : JsonValue) (extras : Dict) :
    fieldsOf (r.entries base extras) =
      { protocol := some (.str r.protocol)
        baseUrl := some (.json base)
        route := some (.str r.route)
        keyVars := some (.arr (r.keyVars.map .str))
        requestExtras := some (.dict (.json extras))
        kind := r.kind.map .str
        trusted := some (.bool r.trusted) } := by
  obtain ⟨protocol, baseUrl, route, keyVars, requestExtras, kind, trusted⟩ := r
  cases kind <;> rfl

theorem cleanKeyVars_of_keyVarRx {keyVars : List String} (h : ∀ v ∈ keyVars, keyVarRx v = true) :
    lib.cleanKeyVars (.arr (keyVars.map .str)) = keyVars := by
  have hkept : ∀ v ∈ keyVars.map JsonValue.str,
      decide (lib.strip (lib.textOr v) ≠ "") = true := by
    intro v hv
    obtain ⟨s, hs, rfl⟩ := List.mem_map.mp hv
    rw [textOr_str, (strip_of_keyVarRx (h s hs)).1, decide_eq_true_eq]
    rintro rfl
    exact absurd (h "" hs) (by decide)
  rw [cleanKeyVars, List.filter_eq_self.mpr hkept, List.map_map]
  refine (List.map_congr_left fun s hs => ?_).trans (List.map_id _)
  exact (strip_of_keyVarRx (h s hs)).2

theorem coerceEntry_encode {want : String} {r : ProviderRow} (h : RowSound lib want r) :
    ∃ value, r.encode = some value ∧ lib.coerceEntry (want, value) = some (want, r) := by
  obtain ⟨base, hbase⟩ := h.base
  obtain ⟨extras, hextras⟩ := h.extras
  obtain ⟨kind, hkind, hnorm, hkne, hendpoint⟩ := h.kind
  have hencode : r.encode = some (.obj (r.entries base extras)) := by
    rw [ProviderRow.encode, hbase, hextras]
    rfl
  have hne : want ≠ "" := by
    rintro rfl
    exact absurd h.nameRx (by decide)
  have hkindOf : lib.kindOf (fieldsOf (r.entries base extras)) = kind := by
    simp only [kindOf, fieldsOf_entries, hkind, Option.map_some, Option.getD_some, textOr_str, hnorm,
      if_pos hkne]
  have hroute : r.route ≠ "" := by
    rintro hroute
    have hin := (checkEndpoint_ok hendpoint).2.1
    rw [hroute] at hin
    revert hin
    decide
  have hkeys : lib.checkKeyVars want (.arr (r.keyVars.map .str)) = .ok () := by
    refine if_pos (List.all_eq_true.mpr fun v hv => ?_)
    obtain ⟨s, hs, rfl⟩ := List.mem_map.mp hv
    rw [isKeyVar, (strip_of_keyVarRx (h.keyVars s hs)).2]
    exact h.keyVars s hs
  have hvalid : lib.validateRow want (some (fieldsOf (r.entries base extras))) = .ok () := by
    rw [validateRow_ok, h.name, hkindOf]
    simp only [fieldsOf_entries, Option.getD_some, textOr_str, ← hbase]
    exact ⟨h.nameRx, hendpoint, hkeys, rfl, rfl⟩
  have hclean : lib.cleanRow (fieldsOf (r.entries base extras)) = r := by
    unfold cleanRow
    rw [hkindOf]
    simp only [fieldsOf_entries, Option.getD_some, textOr_str, cleanKeyVars_of_keyVarRx h.keyVars]
    obtain ⟨protocol, baseUrl, route, keyVars, requestExtras, kind', trusted⟩ := r
    dsimp only at hbase hextras hkind hroute
    subst hbase hextras hkind
    have htruthy : (JsonValue.str route).truthy = true := by simp [JsonValue.truthy, hroute]
    cases trusted <;> simp [htruthy, strOf]
  refine ⟨_, hencode, ?_⟩
  unfold coerceEntry
  dsimp only
  rw [h.name, if_neg hne, hvalid, hclean]

theorem filterMap_coerceEntry {providers : List (String × ProviderRow)}
    {rows : List (String × JsonValue)}
    (h : List.Forall₂ (fun e row => lib.coerceEntry row = some e) providers rows) :
    rows.filterMap lib.coerceEntry = providers := by
  induction h with
  | nil => rfl
  | cons he _ ih => rw [List.filterMap_cons_some he, ih]

theorem coerceRemoved_sort {removed : Finset String} {doc : Dict}
    (hdoc : Dict.get doc "removed" = .arr ((removed.sort (· ≤ ·)).map .str))
    (h : ∀ name ∈ removed, lib.normName name = name ∧ name ≠ "") :
    lib.coerceRemoved doc = removed := by
  have hmem : ∀ name ∈ removed.sort (· ≤ ·), name ∈ removed := fun name hname =>
    (Finset.mem_sort _).mp hname
  have hnames : ((removed.sort (· ≤ ·)).map JsonValue.str).map
      (fun name => lib.normName (lib.textOr name)) = removed.sort (· ≤ ·) := by
    rw [List.map_map]
    refine (List.map_congr_left fun name hname => ?_).trans (List.map_id _)
    exact (congrArg lib.normName (textOr_str name)).trans (h name (hmem name hname)).1
  unfold coerceRemoved
  rw [hdoc]
  dsimp only
  rw [hnames, List.filter_eq_self.mpr fun name hname =>
    decide_eq_true (h name (hmem name hname)).2, Finset.sort_toFinset]

/-- **A sound manifest is read back as it was written.** -/
theorem loadDoc_encode {st : ManifestState} (h : ManifestSound lib st) :
    ∃ doc, st.encode = some doc ∧ lib.loadDoc doc = st := by
  obtain ⟨rows, hrows⟩ := exists_forall₂ (l := st.providers)
    (R := fun e row => (e.2.encode.map fun value => (e.1, value)) = some row ∧
      lib.coerceEntry row = some e) fun e he => by
    obtain ⟨value, hvalue, hread⟩ := coerceEntry_encode (h.rows e he).2
    exact ⟨(e.1, value), by rw [hvalue, Option.map_some], hread⟩
  have hencode : st.providers.mapM (fun (e : String × ProviderRow) =>
      e.2.encode.map fun value => (e.1, value)) = some rows :=
    mapM_of_forall₂ (hrows.imp fun _ _ hrow => hrow.1)
  have hread := filterMap_coerceEntry (hrows.imp fun _ _ hrow => hrow.2)
  refine ⟨_, by rw [ManifestState.encode, hencode, Option.map_some], ?_⟩
  obtain ⟨providers, removed⟩ := st
  have hremoved : ∀ doc : Dict, Dict.get doc "removed" = .arr ((removed.sort (· ≤ ·)).map .str) →
      lib.coerceRemoved doc = removed := fun doc hdoc => coerceRemoved_sort hdoc h.removed
  have hproviders : lib.coerceProviders
      [("providers", .obj rows), ("removed", .arr ((removed.sort (· ≤ ·)).map .str))] = providers := by
    have hget : Dict.get [("providers", JsonValue.obj rows),
        ("removed", .arr ((removed.sort (· ≤ ·)).map .str))] "providers" = .obj rows := rfl
    unfold coerceProviders
    rw [hget]
    dsimp only
    rw [hread, foldl_setEntry [] h.nodup, List.nil_append]
  unfold loadDoc
  rw [hremoved _ rfl, hproviders, List.filter_eq_self.mpr fun e he =>
    decide_eq_true (h.rows e he).1]

/-- **What is loaded is sound.** -/
theorem sound_loadDoc (doc : Dict) : ManifestSound lib (lib.loadDoc doc) := by
  have hproviders : ((lib.coerceProviders doc).map (·.1)).Nodup ∧
      ∀ e ∈ lib.coerceProviders doc, RowSound lib e.1 e.2 := by
    unfold coerceProviders
    split
    · rename_i rows _
      have hperm := perm_lastEntries (rows.filterMap lib.coerceEntry)
      refine ⟨(hperm.map _).nodup_iff.mpr (nodup_keys_lastEntries _), fun e he => ?_⟩
      have hlast := (lastEntries_sublist _).subset (hperm.mem_iff.mp he)
      obtain ⟨row, -, hrow⟩ := List.mem_filterMap.mp hlast
      exact rowSound_coerceEntry hrow
    · exact ⟨List.nodup_nil, fun e he => nomatch he⟩
  refine ⟨hproviders.1.sublist (List.filter_sublist.map _), fun e he => ?_, fun name hname => ?_⟩
  · obtain ⟨he, hnot⟩ := List.mem_filter.mp he
    exact ⟨of_decide_eq_true hnot, hproviders.2 e he⟩
  · have hin : name ∈ lib.coerceRemoved doc := hname
    unfold coerceRemoved at hin
    split at hin
    · obtain ⟨hin, hne⟩ := List.mem_filter.mp (List.mem_toFinset.mp hin)
      obtain ⟨value, -, rfl⟩ := List.mem_map.mp hin
      exact ⟨lib.lower_strip_idem _, of_decide_eq_true hne⟩
    · cases hin

end ManifestLib

end HamZaboon
