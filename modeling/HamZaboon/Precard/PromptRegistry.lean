import HamZaboon.Library.Results
import HamZaboon.Library.Runs
import HamZaboon.Texts.Unicode

/-! # The prompt registry

`factory/precard/prompt_registry.py`: variants of the prompts, the explicit picks, and the picks
of an environment variable.  `selected_variant` says which variant is picked, and the resolution
looks it up again with rules of its own: the variant `default` of the environment is looked
up like any other, and an empty variant counts as no pick.

So the two agree except on these (`prompts_consistent_iff`).
-/

namespace HamZaboon
open Library

/-- The names of `_TEXT_DEFAULTS`. -/
def textNames : List String :=
  ["topic_tiebreak", "inflection_review_sys", "v15_user_tmpl", "topup_user_tmpl", "v16b_defs"]

/-- The names of `_LINE_DEFAULTS`. -/
def lineNames : List String := ["judge_head", "inflection_review_head"]

/-- A wording that is registered: a text, lines, or neither. -/
inductive Wording
  | text (s : String)
  | lines (l : List String)
  | other
  deriving DecidableEq

/-- What the functions of the registry raise. -/
inductive PromptError
  | unknownPrompt (name : String)
  | unknownVariant (variant name : String)
  | reserved
  | notText (name : String)
  | notLines (name : String)
  | malformed (chunk : String)
  deriving DecidableEq

/-- `_VARIANTS` and `_ACTIVE`. -/
structure PromptRegistry where
  variants : String → String → Option Wording
  active : String → Option String

/-- What `select` is given. -/
inductive SelectSpec
  | none
  | text (spec : String)
  | list (specs : List String)

/-- The calls that change the registry. -/
inductive PromptCall
  | register (name variant : String) (wording : Wording)
  | select (spec : SelectSpec)
  | reset

/-- `picked[name] = variant`. -/
def setPick (picked : List (String × String)) (name variant : String) : List (String × String) :=
  if (picked.lookup name).isSome then picked.map fun e => if e.1 = name then (name, variant) else e
  else picked ++ [(name, variant)]

def pickChunks (lib : UnicodeLib) : List (List Char) → List (String × String) →
    Except PromptError (List (String × String))
  | [], picked => .ok picked
  | chunk :: chunks, picked =>
    let chunk := trim lib.isSpace chunk
    if chunk = [] then pickChunks lib chunks picked
    else match chunk.dropWhile (· ≠ '=') with
      | [] => .error (.malformed (String.ofList chunk))
      | _ :: variant => pickChunks lib chunks (setPick picked
          (lib.strip (String.ofList (chunk.takeWhile (· ≠ '=')))) (lib.strip (String.ofList variant)))

/-- The picks of `name=variant,…`. -/
def parsePicks (lib : UnicodeLib) (spec : String) : Except PromptError (List (String × String)) :=
  pickChunks lib (spec.toList.splitOnP (· = ',')) []

namespace PromptRegistry
variable (lib : UnicodeLib) (defaults : String → Wording)

/-- The registry when the program starts. -/
def initial : PromptRegistry where
  variants _ _ := none
  active _ := none

def coerceVariant (name : String) (wording : Wording) : Except PromptError Wording :=
  match wording with
  | .text s => if name ∈ textNames then .ok (.text s) else .error (.notLines name)
  | .lines l => if name ∈ textNames then .error (.notText name) else .ok (.lines l)
  | .other => .error (if name ∈ textNames then .notText name else .notLines name)

def registerVariant (r : PromptRegistry) (name variant : String) (wording : Wording) :
    PromptRegistry × Except PromptError Unit :=
  if name ∉ textNames ∧ name ∉ lineNames then (r, .error (.unknownPrompt name))
  else if variant = "default" then (r, .error .reserved)
  else match coerceVariant name wording with
    | .ok wording =>
      let named := Function.update (r.variants name) variant (some wording)
      ({ r with variants := Function.update r.variants name named }, .ok ())
    | .error e => (r, .error e)

def envSelection (env : String) : Except PromptError (List (String × String)) := parsePicks lib env

/-- The loop of `select` that checks the picks. -/
def checkPicks (r : PromptRegistry) : List (String × String) → Except PromptError Unit
  | [] => .ok ()
  | (name, variant) :: picked =>
    if name ∉ textNames ∧ name ∉ lineNames then .error (.unknownPrompt name)
    else if variant ≠ "default" ∧ r.variants name variant = none then
      .error (.unknownVariant variant name)
    else checkPicks r picked

/-- One round of the loop that applies them. -/
def applyPick (active : String → Option String) (pick : String × String) : String → Option String :=
  Function.update active pick.1 (if pick.2 = "default" then none else some pick.2)

def specText : SelectSpec → String
  | .none => ""
  | .text spec => spec
  | .list specs => ",".intercalate specs

def select (r : PromptRegistry) (spec : SelectSpec) : PromptRegistry × Except PromptError Unit :=
  let spec := lib.strip (specText spec)
  if spec = "" ∨ spec = "default" then ({ r with active := fun _ => none }, .ok ())
  else match parsePicks lib spec with
    | .error e => (r, .error e)
    | .ok picked => match checkPicks r picked with
      | .error e => (r, .error e)
      | .ok () => ({ r with active := picked.foldl applyPick r.active }, .ok ())

def reset (r : PromptRegistry) : PromptRegistry := { r with active := fun _ => none }

/-- The registry after a call, whether it raises or not. -/
def call (r : PromptRegistry) : PromptCall → PromptRegistry
  | .register name variant wording => (r.registerVariant name variant wording).1
  | .select spec => (r.select lib spec).1
  | .reset => r.reset

def selectedVariant (r : PromptRegistry) (env name : String) : Except PromptError String :=
  if name ∉ textNames ∧ name ∉ lineNames then .error (.unknownPrompt name)
  else match r.active name with
    | some variant => .ok variant
    | none => (envSelection lib env).map fun picked => (picked.lookup name).getD "default"

/-- `_VARIANTS[name][variant]`. -/
def registered (r : PromptRegistry) (name variant : String) : Except PromptError Wording :=
  match r.variants name variant with
  | some wording => .ok wording
  | none => .error (.unknownVariant variant name)

def resolve (r : PromptRegistry) (env name : String) : Except PromptError Wording := do
  let variant ← match r.active name with
    | some variant => .ok (some variant)
    | none => (envSelection lib env).map fun picked => picked.lookup name
  match variant with
  | some variant => if variant = "" then .ok (defaults name) else r.registered name variant
  | none => .ok (defaults name)

/-- `get_prompt` and `get_prompt_lines`, over the names of either. -/
def getFrom (names : List String) (r : PromptRegistry) (env name : String) (variant : Option String) :
    Except PromptError Wording :=
  if name ∉ names then .error (.unknownPrompt name)
  else match variant with
    | none => r.resolve lib defaults env name
    | some variant => if variant = "default" then .ok (defaults name) else r.registered name variant

def getPrompt : PromptRegistry → String → String → Option String → Except PromptError Wording :=
  getFrom lib defaults textNames

def getPromptLines : PromptRegistry → String → String → Option String → Except PromptError Wording :=
  getFrom lib defaults lineNames

/-! ## Consistency -/

section Consistency
variable (r : PromptRegistry) (env : String)

def prompt (name : String) (variant : Option String) : Except PromptError Wording :=
  if name ∈ textNames then getPrompt lib defaults r env name variant
  else getPromptLines lib defaults r env name variant

/-- The environment picks nothing for the name. -/
def EnvQuiet (name : String) : Prop :=
  ∃ picked, envSelection lib env = .ok picked ∧ picked.lookup name = none

/-- The selection picks `default` for the name, or clears every pick. -/
def PicksDefault (spec : SelectSpec) (name : String) : Prop :=
  lib.strip (specText spec) = "" ∨ lib.strip (specText spec) = "default" ∨
    ∃ picked, parsePicks lib (lib.strip (specText spec)) = .ok picked ∧
      picked.lookup name = some "default"

/-- The selected variant resolves to the same as the name alone, the variant `default` resolves
to the default, and a selection that raises changes nothing. -/
structure PromptsConsistent : Prop where
  agrees : ∀ name variant, selectedVariant lib r env name = .ok variant →
    prompt lib defaults r env name none = prompt lib defaults r env name (some variant)
  selected : ∀ spec name, name ∈ textNames ∨ name ∈ lineNames → (select lib r spec).2 = .ok () →
    PicksDefault lib spec name → EnvQuiet lib env name →
      prompt lib defaults (select lib r spec).1 env name none = .ok (defaults name)
  fromEnv : ∀ name, name ∈ textNames ∨ name ∈ lineNames → r.active name = none → ∀ picked,
    envSelection lib env = .ok picked → picked.lookup name = some "default" →
      prompt lib defaults r env name none = .ok (defaults name)
  raising : ∀ spec e, (select lib r spec).2 = .error e → (select lib r spec).1 = r

/-- No name is left to the environment that picks `default` for it, and no pick of a name is the
empty variant, unless the wording under it is the default. -/
structure PlainPicks : Prop where
  named : ∀ name, name ∈ textNames ∨ name ∈ lineNames → r.active name = none → ∀ picked,
    envSelection lib env = .ok picked → picked.lookup name ≠ some "default"
  nonempty : ∀ name, name ∈ textNames ∨ name ∈ lineNames →
    (r.active name = some "" ∨ r.active name = none ∧ ∃ picked, envSelection lib env = .ok picked ∧
      picked.lookup name = some "") → r.variants name "" = some (defaults name)

/-- `default` is neither registered nor picked explicitly. -/
structure DefaultReserved : Prop where
  variants : ∀ name, r.variants name "default" = none
  active : ∀ name, r.active name ≠ some "default"

end Consistency

theorem defaultReserved_initial : initial.DefaultReserved := ⟨fun _ => rfl, nofun⟩

theorem active_foldl_applyPick {active : String → Option String} (h : ∀ name, active name ≠ some "default")
    (picked : List (String × String)) (name : String) :
    picked.foldl applyPick active name ≠ some "default" := by
  induction picked generalizing active with
  | nil => exact h name
  | cons pick picked ih =>
    refine ih fun n => ?_
    unfold applyPick
    by_cases hn : n = pick.1
    · subst hn
      rw [Function.update_self]
      split
      · nofun
      · simpa using ‹_›
    · rw [Function.update_of_ne hn]
      exact h n

theorem select_cases (r : PromptRegistry) (spec : SelectSpec) :
    (∃ e, select lib r spec = (r, .error e)) ∨
      ((lib.strip (specText spec) = "" ∨ lib.strip (specText spec) = "default") ∧
        select lib r spec = ({ r with active := fun _ => none }, .ok ())) ∨
      ¬ (lib.strip (specText spec) = "" ∨ lib.strip (specText spec) = "default") ∧
        ∃ picked, parsePicks lib (lib.strip (specText spec)) = .ok picked ∧
          select lib r spec = ({ r with active := picked.foldl applyPick r.active }, .ok ()) := by
  unfold select
  dsimp only
  split
  · rename_i hclear
    exact .inr (.inl ⟨hclear, rfl⟩)
  · rename_i hclear
    cases hparse : parsePicks lib (lib.strip (specText spec)) with
    | error e => exact .inl ⟨e, rfl⟩
    | ok picked =>
      dsimp only
      cases hcheck : checkPicks r picked with
      | error e => exact .inl ⟨e, rfl⟩
      | ok _ => exact .inr (.inr ⟨hclear, picked, rfl, rfl⟩)

theorem DefaultReserved.registerVariant {r : PromptRegistry} (h : r.DefaultReserved)
    (name variant : String) (wording : Wording) :
    (r.registerVariant name variant wording).1.DefaultReserved := by
  unfold PromptRegistry.registerVariant
  split
  · exact h
  · split
    · exact h
    · rename_i hname hvariant
      cases coerceVariant name wording with
      | error e => exact h
      | ok wording =>
        refine ⟨fun n => ?_, h.active⟩
        dsimp only
        by_cases hn : n = name
        · subst hn
          rw [Function.update_self, Function.update_of_ne (Ne.symm hvariant)]
          exact h.variants n
        · rw [Function.update_of_ne hn]
          exact h.variants n

theorem DefaultReserved.select {r : PromptRegistry} (h : r.DefaultReserved) (spec : SelectSpec) :
    (r.select lib spec).1.DefaultReserved := by
  rcases select_cases lib r spec with ⟨e, hselect⟩ | ⟨-, hselect⟩ | ⟨-, picked, -, hselect⟩
  · rw [hselect]
    exact h
  · rw [hselect]
    exact ⟨h.variants, nofun⟩
  · rw [hselect]
    exact ⟨h.variants, active_foldl_applyPick h.active picked⟩

theorem DefaultReserved.call {r : PromptRegistry} (h : r.DefaultReserved) :
    ∀ c : PromptCall, (r.call lib c).DefaultReserved
  | .register name variant wording => h.registerVariant name variant wording
  | .select spec => h.select lib spec
  | .reset => ⟨h.variants, nofun⟩

theorem defaultReserved_run (calls : List PromptCall) : (run (call lib) initial calls).DefaultReserved :=
  run_invariant (call lib) (fun _ c h => h.call lib c) defaultReserved_initial calls

/-! ## The picks of a selection -/

theorem nodup_setPick {picked : List (String × String)} (h : (picked.map Prod.fst).Nodup)
    (name variant : String) : ((setPick picked name variant).map Prod.fst).Nodup := by
  unfold setPick
  split
  · have hkeys : (picked.map fun e => if e.1 = name then (name, variant) else e).map Prod.fst =
        picked.map Prod.fst := by
      rw [List.map_map]
      refine List.map_congr_left fun e _ => ?_
      by_cases he : e.1 = name
      · simp [he]
      · simp [he]
    rwa [hkeys]
  · rename_i hnone
    rw [List.map_append, List.nodup_append']
    refine ⟨h, List.nodup_singleton _, fun n hn hname => hnone ?_⟩
    obtain rfl : n = name := by simpa using hname
    rw [List.lookup_isSome_iff]
    obtain ⟨e, he, hfst⟩ := List.mem_map.mp hn
    exact ⟨e, he, by simpa using hfst.symm⟩

theorem nodup_parsePicks {spec : String} {picked : List (String × String)}
    (h : parsePicks lib spec = .ok picked) : (picked.map Prod.fst).Nodup := by
  have hchunks : ∀ (chunks : List (List Char)) (acc picked : List (String × String)),
      (acc.map Prod.fst).Nodup → pickChunks lib chunks acc = .ok picked →
        (picked.map Prod.fst).Nodup := by
    intro chunks
    induction chunks with
    | nil =>
      rintro acc _ hacc ⟨⟩
      exact hacc
    | cons chunk chunks ih =>
      intro acc picked hacc hpick
      unfold pickChunks at hpick
      dsimp only at hpick
      split at hpick
      · exact ih _ _ hacc hpick
      · split at hpick
        · cases hpick
        · exact ih _ _ (nodup_setPick hacc _ _) hpick
  exact hchunks _ [] picked List.nodup_nil h

theorem foldl_applyPick_of_lookup {picked : List (String × String)}
    (h : (picked.map Prod.fst).Nodup) {name : String} (active : String → Option String)
    (hpick : picked.lookup name = some "default") : picked.foldl applyPick active name = none := by
  have hrest : ∀ (l : List (String × String)) (active : String → Option String),
      name ∉ l.map Prod.fst → l.foldl applyPick active name = active name := by
    intro l
    induction l with
    | nil => exact fun _ _ => rfl
    | cons e l ih =>
      intro active hname
      rw [List.map_cons, List.mem_cons, not_or] at hname
      rw [List.foldl_cons, ih _ hname.2, applyPick, Function.update_of_ne hname.1]
  induction picked generalizing active with
  | nil => cases hpick
  | cons e picked ih =>
    obtain ⟨hnew, hnodup⟩ := List.nodup_cons.mp h
    rw [List.foldl_cons]
    by_cases hname : name = e.1
    · subst hname
      rw [List.lookup_cons_self, Option.some.injEq] at hpick
      rw [hrest picked _ hnew, applyPick, Function.update_self, if_pos hpick]
    · rw [List.lookup_cons, beq_false_of_ne hname] at hpick
      exact ih hnodup _ hpick

/-! ## The two resolutions -/

section Resolution
variable {r : PromptRegistry} {env name : String}

theorem prompt_none (hname : name ∈ textNames ∨ name ∈ lineNames) :
    prompt lib defaults r env name none = resolve lib defaults r env name := by
  unfold prompt getPrompt getPromptLines getFrom
  by_cases htext : name ∈ textNames
  · simp [htext]
  · simp [htext, hname.resolve_left htext]

theorem prompt_some (hname : name ∈ textNames ∨ name ∈ lineNames) (variant : String) :
    prompt lib defaults r env name (some variant) =
      if variant = "default" then .ok (defaults name) else r.registered name variant := by
  unfold prompt getPrompt getPromptLines getFrom
  by_cases htext : name ∈ textNames
  · simp [htext]
  · simp [htext, hname.resolve_left htext]

theorem resolve_active {variant : String} (h : r.active name = some variant) :
    resolve lib defaults r env name =
      if variant = "" then .ok (defaults name) else r.registered name variant := by
  rw [resolve, h]
  rfl

theorem resolve_env (h : r.active name = none) {picked : List (String × String)}
    (hpicked : envSelection lib env = .ok picked) : resolve lib defaults r env name =
      match picked.lookup name with
      | some variant => if variant = "" then .ok (defaults name) else r.registered name variant
      | none => .ok (defaults name) := by
  rw [resolve, h, hpicked]
  rfl

theorem selectedVariant_eq_ok {variant : String} : selectedVariant lib r env name = .ok variant ↔
    (name ∈ textNames ∨ name ∈ lineNames) ∧ (r.active name = some variant ∨ r.active name = none ∧
      ∃ picked, envSelection lib env = .ok picked ∧ (picked.lookup name).getD "default" = variant) := by
  unfold selectedVariant
  by_cases hname : name ∈ textNames ∨ name ∈ lineNames
  · rw [if_neg (by simpa [or_iff_not_imp_left] using hname), and_iff_right hname]
    cases r.active name with
    | some v => simp
    | none => simp [map_eq_ok]
  · rw [if_pos (not_or.mp hname)]
    simp [hname]

/-- A pick that is neither empty nor `default` resolves to what is registered, and the empty one
as well where this is the default. -/
theorem resolve_pick {variant : String} (hdefault : variant ≠ "default")
    (hempty : variant = "" → r.variants name "" = some (defaults name)) :
    (if variant = "" then .ok (defaults name) else r.registered name variant) =
      if variant = "default" then .ok (defaults name) else r.registered name variant := by
  rw [if_neg hdefault]
  split
  · rename_i hvariant
    rw [hvariant, registered, hempty hvariant]
  · rfl

theorem agrees_of_plainPicks (hreserved : r.DefaultReserved) (h : PlainPicks lib defaults r env)
    {variant : String} (hselected : selectedVariant lib r env name = .ok variant) :
    prompt lib defaults r env name none = prompt lib defaults r env name (some variant) := by
  obtain ⟨hname, hpick⟩ := (selectedVariant_eq_ok lib).mp hselected
  have hempty : variant = "" → r.variants name "" = some (defaults name) := by
    rintro rfl
    refine h.nonempty name hname (hpick.imp_right fun ⟨hactive, picked, hpicked, hlookup⟩ =>
      ⟨hactive, picked, hpicked, ?_⟩)
    cases hfound : picked.lookup name with
    | none =>
      rw [hfound] at hlookup
      exact absurd hlookup (by decide)
    | some v =>
      rw [hfound] at hlookup
      exact congrArg some hlookup
  rw [prompt_none lib defaults hname, prompt_some lib defaults hname]
  rcases hpick with hactive | ⟨hactive, picked, hpicked, hlookup⟩
  · rw [resolve_active lib defaults hactive]
    refine resolve_pick defaults ?_ hempty
    rintro rfl
    exact hreserved.active name hactive
  · rw [resolve_env lib defaults hactive hpicked]
    cases hfound : picked.lookup name with
    | none =>
      rw [hfound, Option.getD_none] at hlookup
      rw [if_pos hlookup.symm]
    | some v =>
      rw [hfound, Option.getD_some] at hlookup
      subst hlookup
      refine resolve_pick defaults ?_ hempty
      rintro rfl
      exact h.named name hname hactive picked hpicked hfound

theorem selected_default (hname : name ∈ textNames ∨ name ∈ lineNames) {spec : SelectSpec}
    (hok : (select lib r spec).2 = .ok ()) (hpick : PicksDefault lib spec name)
    (hquiet : EnvQuiet lib env name) :
    prompt lib defaults (select lib r spec).1 env name none = .ok (defaults name) := by
  obtain ⟨picked, hpicked, hnone⟩ := hquiet
  have hactive : (select lib r spec).1.active name = none := by
    rcases select_cases lib r spec with ⟨e, hselect⟩ | ⟨-, hselect⟩ | ⟨hclear, picks, hparse, hselect⟩
    · rw [hselect] at hok
      cases hok
    · rw [hselect]
    · rw [hselect]
      rcases hpick with hempty | hdefault | ⟨picks', hparse', hlookup⟩
      · exact absurd (.inl hempty) hclear
      · exact absurd (.inr hdefault) hclear
      · obtain rfl := Except.ok.inj (hparse.symm.trans hparse')
        exact foldl_applyPick_of_lookup (nodup_parsePicks lib hparse) r.active hlookup
  rw [prompt_none lib defaults hname, resolve_env lib defaults hactive hpicked, hnone]

end Resolution

/-- **Prompt selection is consistent in every state of a run exactly where no `default` comes
from the environment and no pick is empty.** -/
theorem prompts_consistent_iff (calls : List PromptCall) (env : String) :
    PromptsConsistent lib defaults (run (call lib) initial calls) env ↔
      PlainPicks lib defaults (run (call lib) initial calls) env := by
  have hreserved := defaultReserved_run lib calls
  set r := run (call lib) initial calls
  constructor
  · intro h
    refine ⟨fun name hname hactive picked hpicked hlookup => ?_, fun name hname hpick => ?_⟩
    · have hdefault := h.fromEnv name hname hactive picked hpicked hlookup
      rw [prompt_none lib defaults hname, resolve_env lib defaults hactive hpicked, hlookup] at hdefault
      simp [registered, hreserved.variants name] at hdefault
    · have hselected : selectedVariant lib r env name = .ok "" :=
        (selectedVariant_eq_ok lib).mpr ⟨hname, hpick.imp_right fun ⟨hactive, picked, hpicked, hlookup⟩ =>
          ⟨hactive, picked, hpicked, by rw [hlookup]; rfl⟩⟩
      have hagrees := h.agrees name "" hselected
      rw [prompt_none lib defaults hname, prompt_some lib defaults hname, if_neg (by decide)] at hagrees
      have hresolve : resolve lib defaults r env name = .ok (defaults name) := by
        rcases hpick with hactive | ⟨hactive, picked, hpicked, hlookup⟩
        · rw [resolve_active lib defaults hactive, if_pos rfl]
        · rw [resolve_env lib defaults hactive hpicked, hlookup]
          rfl
      rw [hresolve, registered] at hagrees
      split at hagrees
      · rename_i wording hwording
        rw [hwording, Except.ok.inj hagrees]
      · cases hagrees
  · intro h
    refine ⟨fun name variant => agrees_of_plainPicks lib defaults hreserved h,
      fun spec name hname hok => selected_default lib defaults hname hok, ?_, ?_⟩
    · intro name hname hactive picked hpicked hlookup
      exact absurd hlookup (h.named name hname hactive picked hpicked)
    · intro spec e herror
      rcases select_cases lib r spec with ⟨e', hselect⟩ | ⟨-, hselect⟩ | ⟨-, picked, -, hselect⟩
      · rw [hselect]
      · rw [hselect] at herror
        cases herror
      · rw [hselect] at herror
        cases herror

/-- `default` from the environment is looked up and not found. -/
theorem default_of_env :
    selectedVariant .ascii initial "judge_head=default" "judge_head" = .ok "default" ∧
      getPromptLines .ascii (fun _ => .lines []) initial "judge_head=default" "judge_head" none =
        .error (.unknownVariant "default" "judge_head") ∧
      ¬ PromptsConsistent .ascii (fun _ => .lines []) (run (call .ascii) initial [])
        "judge_head=default" := by
  have hpicked : envSelection .ascii "judge_head=default" = .ok [("judge_head", "default")] := by
    decide +kernel
  refine ⟨by decide +kernel, by decide +kernel, fun h => ?_⟩
  have hdefault := h.fromEnv "judge_head" (.inr (by decide)) rfl _ hpicked rfl
  revert hdefault
  decide +kernel

end PromptRegistry
end HamZaboon
