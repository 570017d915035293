import HamZaboon.Factory.Tickets
import HamZaboon.Library.Forwarding

/-! # Merge lineage

A superseded card points to the card it was merged into.  `mark_merged` checks
that the dropped card exists and is not its own survivor, and nothing else: a
survivor that is no card, or whose own lineage leads back to the dropped card,
leaves cards whose lineage ends nowhere.
-/

namespace HamZaboon
open Library StateTransition

namespace FactoryRegistry

/-- `precards.merged_into` of a card of the language. -/
def mergedInto (s : FactoryRegistry) (lang preCardId : String) : Option String :=
  (s.precards.lookup (lang, preCardId)).bind (·.mergedInto)

/-- `precards.status` of a card of the language. -/
def statusOf (s : FactoryRegistry) (lang preCardId : String) : Option Status :=
  (s.precards.lookup (lang, preCardId)).map (·.status)

/-- Following `merged_into` from the card reaches an active card of the language. -/
def EndsActive (s : FactoryRegistry) (lang preCardId : String) : Prop :=
  ∃ survivor, Reaches (s.mergedInto lang) preCardId survivor ∧
    s.statusOf lang survivor = some .active

/-- The lineage of every superseded card ends in an active card. -/
def LineageEnds (s : FactoryRegistry) : Prop :=
  ∀ lang preCardId, s.statusOf lang preCardId = some .superseded → s.EndsActive lang preCardId

/-- A merge that takes effect names a survivor that is a card of the language
and whose lineage does not lead to the dropped card. -/
def MergesAway (s : FactoryRegistry) : RegistryOp → Prop
  | .markMerged lang (some survivor) dropped =>
    survivor = "" ∨ survivor = dropped ∨ s.precards.has (lang, dropped) = false ∨
      (s.precards.has (lang, survivor) = true ∧ ¬ Reaches (s.mergedInto lang) survivor dropped)
  | _ => True

/-- Active cards point nowhere. -/
def ActiveEnds (s : FactoryRegistry) : Prop :=
  ∀ lang preCardId, s.statusOf lang preCardId = some .active → s.mergedInto lang preCardId = none

section Steps
variable {s s' : FactoryRegistry} {op : RegistryOp}

theorem statusOf_setMerged (lang survivor dropped l p : String) :
    (s.setMerged lang survivor dropped).statusOf l p =
      if l = lang ∧ p = dropped then (s.statusOf l p).map fun _ => .superseded
      else s.statusOf l p := by
  simp only [statusOf, setMerged, lookup_updatePrecard, Option.map_map]
  cases s.precards.lookup (l, p) with
  | none => simp
  | some row =>
    simp only [Option.map_some, Function.comp]
    split <;> rfl

theorem mergedInto_setMerged (lang survivor dropped l p : String) :
    (s.setMerged lang survivor dropped).mergedInto l p =
      if l = lang ∧ p = dropped then (s.statusOf l p).map fun _ => survivor
      else s.mergedInto l p := by
  simp only [mergedInto, statusOf, setMerged, lookup_updatePrecard]
  cases s.precards.lookup (l, p) with
  | none => simp
  | some row =>
    simp only [Option.map_some, Option.bind_some]
    split <;> rfl

theorem statusOf_isSome {lang preCardId : String} :
    (∃ status, s.statusOf lang preCardId = some status) ↔
      s.precards.has (lang, preCardId) = true := by
  rw [KeyedTable.has_iff_lookup, statusOf]
  simp

/-- Cards keep their status and their pointer; new cards are active and point nowhere. -/
structure SameLineage (s s' : FactoryRegistry) : Prop where
  merged : ∀ lang, s'.mergedInto lang = s.mergedInto lang
  status : ∀ lang preCardId status, s.statusOf lang preCardId = some status →
    s'.statusOf lang preCardId = some status
  new : ∀ lang preCardId, s'.statusOf lang preCardId = s.statusOf lang preCardId ∨
    s'.statusOf lang preCardId = some .active ∧ s.mergedInto lang preCardId = none

theorem SameLineage.of_precards (h : s'.precards = s.precards) : SameLineage s s' where
  merged lang := by
    funext p
    rw [mergedInto, mergedInto, h]
  status lang p status hs := by rwa [statusOf, h]
  new lang p := .inl (by rw [statusOf, statusOf, h])

theorem sameLineage_setConverted {lang preCardId : String} {finalId : Option String}
    (hp : s'.precards = (s.setConverted lang preCardId finalId).precards) : SameLineage s s' := by
  have hlookup : ∀ l p, s'.precards.lookup (l, p) = (s.precards.lookup (l, p)).map fun r =>
      if l = lang ∧ p = preCardId then { r with convertedFinalId := finalId } else r :=
    fun l p => by rw [hp, setConverted, lookup_updatePrecard]
  have hstatus : ∀ l p, s'.statusOf l p = s.statusOf l p := by
    intro l p
    rw [statusOf, hlookup, Option.map_map]
    refine congrArg (fun f => (s.precards.lookup (l, p)).map f) (funext fun r => ?_)
    simp only [Function.comp]
    split <;> rfl
  refine ⟨fun l => funext fun p => ?_, fun l p _ h => (hstatus l p).trans h,
    fun l p => .inl (hstatus l p)⟩
  rw [mergedInto, hlookup, Option.bind_map]
  refine congrArg (s.precards.lookup (l, p)).bind (funext fun r => ?_)
  simp only [Function.comp]
  split <;> rfl

theorem sameLineage_added {row : Precard} (hp : s'.precards = s.precards.insertOrIgnore row)
    (hactive : row.status = .active) (hpointer : row.mergedInto = none) : SameLineage s s' := by
  have hlookup : ∀ l p, s'.precards.lookup (l, p) =
      (s.precards.lookup (l, p)).or (if (row.lang, row.preCardId) = (l, p) then some row else none) :=
    fun l p => by rw [hp, KeyedTable.lookup_insertOrIgnore]
  refine ⟨fun l => funext fun p => ?_, fun l p status hs => ?_, fun l p => ?_⟩
  · rw [mergedInto, mergedInto, hlookup]
    cases s.precards.lookup (l, p) with
    | none =>
      rw [Option.none_or]
      split
      · exact hpointer
      · rfl
    | some old => rfl
  · obtain ⟨old, hold, hst⟩ := Option.map_eq_some_iff.mp hs
    rw [statusOf, hlookup, hold]
    exact congrArg some hst
  · rw [statusOf, statusOf, mergedInto, hlookup]
    cases s.precards.lookup (l, p) with
    | none =>
      rw [Option.none_or]
      split
      · exact .inr ⟨congrArg some hactive, rfl⟩
      · exact .inl rfl
    | some old => exact .inl rfl

theorem Stepped.lineage (h : Stepped s op s') : SameLineage s s' ∨
    ∃ lang survivor dropped, op = .markMerged lang (some survivor) dropped ∧ survivor ≠ "" ∧
      survivor ≠ dropped ∧ s.precards.has (lang, dropped) = true ∧
      s' = s.setMerged lang survivor dropped := by
  cases h with
  | kept hp => exact .inl (.of_precards hp)
  | added row hp _ _ hactive hpointer => exact .inl (sameLineage_added hp hactive hpointer)
  | merged lang survivor dropped hne hself hhas =>
    exact .inr ⟨lang, survivor, dropped, rfl, hne, hself, hhas, rfl⟩
  | converted => exact .inl (sameLineage_setConverted rfl)
  | claimed _ _ _ _ _ _ hp => exact .inl (.of_precards hp)
  | completed => exact .inl (sameLineage_setConverted (precards_applied _ _ _ _ _))
  | requeued => exact .inl (.of_precards rfl)

theorem SameLineage.endsActive (h : SameLineage s s') {lang preCardId : String}
    (hends : s.EndsActive lang preCardId) : s'.EndsActive lang preCardId := by
  obtain ⟨survivor, hreach, hactive⟩ := hends
  exact ⟨survivor, by rwa [h.merged], h.status _ _ _ hactive⟩

theorem ActiveEnds.step (lib : RegistryLib) (op : RegistryOp) (h : ActiveEnds s) :
    ActiveEnds (s.step lib op) := by
  intro l p hactive
  rcases (s.stepped lib op).lineage with hsame | ⟨lang, survivor, dropped, -, -, -, -, heq⟩
  · rw [hsame.merged]
    rcases hsame.new l p with hold | ⟨-, hpointer⟩
    · exact h l p (hold ▸ hactive)
    · exact hpointer
  · rw [heq, statusOf_setMerged] at hactive
    rw [heq, mergedInto_setMerged]
    split at hactive
    · rename_i hkey
      obtain ⟨status, -, hst⟩ := Option.map_eq_some_iff.mp hactive
      cases hst
    · rename_i hkey
      rw [if_neg hkey]
      exact h l p hactive

theorem lineageEnds_setMerged {lang survivor dropped : String} (h : LineageEnds s)
    (hdropped : s.precards.has (lang, dropped) = true)
    (hsurvivor : s.precards.has (lang, survivor) = true)
    (havoid : ¬ Reaches (s.mergedInto lang) survivor dropped) :
    LineageEnds (s.setMerged lang survivor dropped) := by
  obtain ⟨old, hold⟩ := statusOf_isSome.mpr hdropped
  have hv : s.EndsActive lang survivor := by
    obtain ⟨status, hstatus⟩ := statusOf_isSome.mpr hsurvivor
    cases status with
    | active => exact ⟨survivor, .refl, hstatus⟩
    | superseded => exact h lang survivor hstatus
  intro l p hsuper
  rw [statusOf_setMerged] at hsuper
  by_cases hlang : l = lang
  · subst hlang
    have hother : ∀ a, a ≠ dropped →
        (s.setMerged l survivor dropped).mergedInto l a = s.mergedInto l a := by
      intro a ha
      rw [mergedInto_setMerged, if_neg (fun hkey => ha hkey.2)]
    have hd : (s.setMerged l survivor dropped).mergedInto l dropped = some survivor := by
      rw [mergedInto_setMerged, if_pos ⟨rfl, rfl⟩, hold, Option.map_some]
    have hlive : ∀ e, e ≠ dropped → s.statusOf l e = some .active →
        (s.setMerged l survivor dropped).statusOf l e = some .active := by
      intro e he hactive
      rw [statusOf_setMerged, if_neg (fun hkey => he hkey.2)]
      exact hactive
    refine ends_of_redirect hother hd hlive hv havoid ?_
    by_cases hp : p = dropped
    · exact .inl hp
    · rw [if_neg (fun hkey => hp hkey.2)] at hsuper
      exact .inr (h l p hsuper)
  · rw [if_neg (fun hkey => hlang hkey.1)] at hsuper
    obtain ⟨e, hreach, hactive⟩ := h l p hsuper
    refine ⟨e, ?_, ?_⟩
    · have hsame : (s.setMerged lang survivor dropped).mergedInto l = s.mergedInto l := by
        funext a
        rw [mergedInto_setMerged, if_neg (fun hkey => hlang hkey.1)]
      rwa [hsame]
    · rwa [statusOf_setMerged, if_neg (fun hkey => hlang hkey.1)]

theorem LineageEnds.step (lib : RegistryLib) (op : RegistryOp) (h : LineageEnds s)
    (hop : s.MergesAway op) : LineageEnds (s.step lib op) := by
  rcases (s.stepped lib op).lineage with hsame | ⟨lang, survivor, dropped, rfl, hne, hself, hhas, heq⟩
  · intro l p hsuper
    refine hsame.endsActive (h l p ?_)
    rcases hsame.new l p with hold | ⟨hactive, -⟩
    · exact hold ▸ hsuper
    · rw [hactive] at hsuper
      cases hsuper
  · rw [heq]
    rcases hop with rfl | rfl | hnone | ⟨hsurvivor, havoid⟩
    · exact absurd rfl hne
    · exact absurd rfl hself
    · rw [hhas] at hnone
      cases hnone
    · exact lineageEnds_setMerged h hhas hsurvivor havoid

theorem mergesAway_of_lineageEnds (lib : RegistryLib) (op : RegistryOp) (hactive : ActiveEnds s)
    (h : LineageEnds (s.step lib op)) : s.MergesAway op := by
  match op with
  | .markMerged lang (some survivor) dropped =>
    by_cases hne : survivor = ""
    · exact .inl hne
    by_cases hself : survivor = dropped
    · exact .inr (.inl hself)
    cases hhas : s.precards.has (lang, dropped) with
    | false => exact .inr (.inr (.inl hhas))
    | true =>
      refine .inr (.inr (.inr ?_))
      obtain ⟨row, hrow⟩ := KeyedTable.has_iff_lookup.mp hhas
      have hstep : s.step lib (.markMerged lang (some survivor) dropped) =
          s.setMerged lang survivor dropped := by
        simp [step, markMerged, hne, hself, hrow]
      have hends := hactive.step lib (.markMerged lang (some survivor) dropped)
      rw [hstep] at h hends
      obtain ⟨old, hold⟩ := statusOf_isSome.mpr hhas
      -- the dropped card is superseded now, so its lineage ends
      obtain ⟨e, hreach, he⟩ := h lang dropped (by
        rw [statusOf_setMerged, if_pos ⟨rfl, rfl⟩, hold, Option.map_some])
      have hother : ∀ a, a ≠ dropped →
          (s.setMerged lang survivor dropped).mergedInto lang a = s.mergedInto lang a := by
        intro a ha
        rw [mergedInto_setMerged, if_neg (fun hkey => ha hkey.2)]
      have hd : (s.setMerged lang survivor dropped).mergedInto lang dropped = some survivor := by
        rw [mergedInto_setMerged, if_pos ⟨rfl, rfl⟩, hold, Option.map_some]
      obtain ⟨hve, havoid⟩ := avoids_of_redirect hother hd hreach (hends lang e he)
      refine ⟨statusOf_isSome.mp ?_, havoid⟩
      -- a survivor that is no card points nowhere, so it is the end itself
      rcases Relation.ReflTransGen.cases_head hve with rfl | ⟨y, hy, -⟩
      · rw [statusOf_setMerged, if_neg (fun hkey => hself hkey.2)] at he
        exact ⟨_, he⟩
      · obtain ⟨card, hcard, -⟩ := Option.bind_eq_some_iff.mp hy
        exact ⟨card.status, by rw [statusOf, hcard, Option.map_some]⟩
  | .markMerged _ none _ => trivial
  | .registerLanguage .. | .upsertLemma .. | .addPrecard .. | .markConverted .. | .claimBatch ..
  | .completeBatchItem .. | .requeueStale .. => trivial

end Steps

theorem activeEnds_empty : ActiveEnds empty := by
  intro lang preCardId h
  cases h

theorem lineageEnds_empty : LineageEnds empty := by
  intro lang preCardId h
  cases h

/-- **Lineage ends in a live card.**  In a run from the empty registry, the
lineage of every superseded card ends in an active card of its language in every
state, exactly when every merge that takes effect merges into a card whose
lineage does not come back. -/
theorem lineage_ends_iff (lib : RegistryLib) (ops : List RegistryOp) :
    Always (step lib) LineageEnds empty ops ↔ Meets (step lib) MergesAway empty ops :=
  always_iff_meets (step lib) (I := fun s => ActiveEnds s ∧ LineageEnds s) (fun _ hs => hs.2)
    (fun _ op hs hop => ⟨hs.1.step lib op, hs.2.step lib op hop⟩)
    (fun _ op hs h => mergesAway_of_lineageEnds lib op hs.1 h)
    ⟨activeEnds_empty, lineageEnds_empty⟩ ops

/-- Two cards merged into each other. -/
def crossedMerges : List RegistryOp :=
  [.addPrecard "en" "cat|noun" (some "a pet") none none none,
    .addPrecard "en" "cat|noun" (some "an animal") none none none,
    .markMerged "en" (some "cat|noun::a pet") "cat|noun::an animal",
    .markMerged "en" (some "cat|noun::an animal") "cat|noun::a pet"]

theorem merges_close_cycle : ¬ Always (step .ascii) LineageEnds empty crossedMerges := by
  intro h
  have hlast := Always.last (step .ascii) h
  generalize hs : run (step .ascii) empty crossedMerges = s at hlast
  have hpet : s.mergedInto "en" "cat|noun::a pet" = some "cat|noun::an animal" := by
    rw [← hs]
    decide
  have hanimal : s.mergedInto "en" "cat|noun::an animal" = some "cat|noun::a pet" := by
    rw [← hs]
    decide
  obtain ⟨e, hreach, he⟩ := hlast "en" "cat|noun::a pet" (by rw [← hs]; decide)
  have hstay : e = "cat|noun::a pet" ∨ e = "cat|noun::an animal" := by
    clear he
    induction hreach with
    | refl => exact .inl rfl
    | tail _ hstep ih =>
      rcases ih with rfl | rfl
      · exact .inr (Option.some.inj (hstep.symm.trans hpet))
      · exact .inl (Option.some.inj (hstep.symm.trans hanimal))
  rw [← hs] at he
  rcases hstay with rfl | rfl
  · exact absurd he (by decide)
  · exact absurd he (by decide)

end FactoryRegistry

end HamZaboon
