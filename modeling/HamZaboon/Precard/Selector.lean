import HamZaboon.Library.GroupSum
import HamZaboon.Library.Grouping
import HamZaboon.Library.Ranking
import HamZaboon.Library.Results
import HamZaboon.Linking.Gates
import Mathlib.Data.Prod.Lex
import Mathlib.Data.Rat.Floor
import Mathlib.Data.String.Basic

/-! # The budget selector

`factory/precard/selector.py`: rows without a dropped tag go to the stratum of their level,
and each stratum keeps its quota of the best of them.  Every row that is not selected is
counted in the ledger of the drops.

A row that cannot be read stops the selection: tags that are no text and no collection, an
integer frequency that no float holds, a value that cannot be written out.  So does a quota
beyond the floats.  In all other cases no row is lost (`sample_budgeted_iff`).
-/

namespace HamZaboon
open Library

/-- What the selector takes from Python. -/
structure SelectorText extends GateLib where
  upper : String → String
  casefold : String → String
  /-- The float nearest to a number within the range. -/
  nearest : ℚ → ℚ

abbrev SampleRow := List (PyValue × PyValue)

/-- `row.get(name)`. -/
def SampleRow.field (row : SampleRow) (name : String) : PyValue := (PyValue.dict row).get name

/-- The levels, and the place of the rows without one. -/
inductive Stratum
  | a1 | a2 | b1 | b2 | c1 | c2 | other
  deriving DecidableEq

namespace Stratum

def name : Stratum → String
  | a1 => "A1" | a2 => "A2" | b1 => "B1" | b2 => "B2" | c1 => "C1" | c2 => "C2"
  | other => "OTHER"

def levels : List Stratum := [a1, a2, b1, b2, c1, c2]

/-- `LEVELS + ("OTHER",)`. -/
def all : List Stratum := levels ++ [other]

theorem mem_all (level : Stratum) : level ∈ all := by
  cases level <;> simp [all, levels]

theorem nodup_all : all.Nodup := by decide

end Stratum

def quotaMix : List (String × Int) :=
  [("A1", 276), ("A2", 448), ("B1", 753), ("B2", 700), ("C1", 438), ("C2", 385)]

def methodScore : List (String × Int) := [("wn-single", 3), ("wn-evp-gloss", 2), ("pool-fallback", 1)]

def methodScale : Int := 100

def exampleBonus : Int := 10

abbrev Drops := List (String × Nat)

/-- What the summary says of a stratum. -/
structure LevelSummary where
  level : Stratum
  quota : Int
  candidates : Nat
  selected : Nat
  shortfall : Int
  reservoirNeed : Int

/-- What `sample` returns. -/
structure BudgetedSample where
  selected : List SampleRow
  perLevel : List LevelSummary
  drops : Drops

namespace SelectorText
variable (py : SelectorText)

/-! ## One row -/

/-- `str(t or "").strip().casefold()` of a tag. -/
def foldTag (tag : PyValue) : Option String :=
  (py.pyStr tag.orEmpty).map fun s => py.casefold (py.strip s)

/-- What the loop over the tags yields; `none` for the `TypeError`. -/
def tagItems : PyValue → Option (List PyValue)
  | .none => some []
  | .str s => some [.str s]
  | .list items => some items
  | .tuple items => some items
  | .dict entries => some (entries.map Prod.fst)
  | _ => none

/-- `tag_drop_reason`; outside, `none` for an exception. -/
def tagDropReason (tags : PyValue) (dropTags : List String) : Option (Option String) := do
  let items ← tagItems tags
  let folded ← items.mapM py.foldTag
  let drop := dropTags.map fun tag => py.casefold (py.strip tag)
  return (sortBy id (folded.filter (· ∈ drop))).head?

def levelOf (value : PyValue) : Option (Option Stratum) :=
  (py.pyStr value.orEmpty).map fun s =>
    Stratum.levels.find? fun level => level.name = py.upper (py.strip s)

def rowLevel (row : SampleRow) : Option Stratum := do
  match ← py.levelOf (row.field "sense_cefr") with
  | some level => return level
  | none => return (← py.levelOf (row.field "pool_level")).getD .other

/-- The frequency of a row between 0 and 8; `none` for the `OverflowError`.  Where `float`
rounds an integer, the bounds decide. -/
def cappedZipf (value : PyValue) : Option ℚ :=
  let zipf := match value with
    | .bool b => some (if b then 1 else 0)
    | .int n => if n.natAbs < GateLib.floatLimit then some (n : ℚ) else none
    | .float (.finite q) => some q
    | .str s => match if s = "" then none else py.floatOfStr s with
      | some (.finite q) => some q
      | _ => some 0
    | _ => some 0
  zipf.map fun q => max 0 (min 8 q)

def scoreRow (row : SampleRow) : Option ℚ := do
  let method ← py.pyStr (row.field "sense_cefr_method").orEmpty
  let score := (methodScore.lookup method).getD 0 * methodScale +
    if (row.field "dataset_examples").truthy then exampleBonus else 0
  return py.nearest (score + (← py.cappedZipf (row.field "zipf")))

/-- `str(row.get("key", ""))`. -/
def rowKey (row : SampleRow) : Option String :=
  py.pyStr (((PyValue.dict row).get? "key").getD (.str ""))

def sortKey (row : SampleRow) : Option (ℚ ×ₗ String) := do
  return toLex (-(← py.scoreRow row), ← py.rowKey row)

/-! ## The selection -/

/-- `reservoir_need`; `none` for the `OverflowError`. -/
def reservoirNeed (quota : Int) : Option ℚ → Option Int
  | none => some quota
  | some survival =>
    if survival ≤ 0 then some quota
    else if quota.natAbs < GateLib.floatLimit ∧
        |py.nearest quota / survival| < (GateLib.floatLimit : ℚ) then
      some ⌈py.nearest (py.nearest quota / survival)⌉
    else none

/-- The buckets and the drops of the loop over the rows. -/
structure Filling where
  buckets : Stratum → List SampleRow
  drops : Drops

def fill (dropTags : List String) : List SampleRow → Filling → Option Filling
  | [], acc => some acc
  | row :: rows, acc => do
    match ← py.tagDropReason (row.field "tags") dropTags with
    | some reason => fill dropTags rows { acc with drops := addTo ("tag:" ++ reason) 1 acc.drops }
    | none =>
      let level ← py.rowLevel row
      fill dropTags rows { acc with
        buckets := Function.update acc.buckets level (acc.buckets level ++ [row]) }

/-- `sorted(cands, key=…)`. -/
def ordered (cands : List SampleRow) : Option (List SampleRow) := do
  let keyed ← cands.mapM fun row => (py.sortKey row).map fun key => (key, row)
  return (sortBy Prod.fst keyed).map Prod.snd

def quotaAt (quotas : List (String × Int)) (otherQuota : Option Int) (level : Stratum) (cands : Nat) :
    Int :=
  match level with
  | .other => otherQuota.getD cands
  | level => (quotas.lookup level.name).getD 0

/-- `SURVIVAL`. -/
def survivalMix : List (String × Option ℚ) :=
  [("A1", 0.88), ("A2", 0.72), ("B1", 0.58), ("B2", 0.67), ("C1", 0.67), ("C2", 0.49)].map
    fun e => (e.1, some (py.nearest e.2))

def survivalAt (survival : List (String × Option ℚ)) : Stratum → Option ℚ
  | .other => some 1
  | level => (survival.lookup level.name).getD (some 1)

/-- One round of the loop over the strata. -/
def takeLevel (quotas : List (String × Int)) (survival : List (String × Option ℚ))
    (otherQuota : Option Int) (cands : List SampleRow) (level : Stratum) (acc : BudgetedSample) :
    Option BudgetedSample := do
  let quota := quotaAt quotas otherQuota level cands.length
  let kept := (← py.ordered cands).take (max 0 quota).toNat
  return {
    selected := acc.selected ++ kept
    perLevel := acc.perLevel ++ [{
      level, quota
      candidates := cands.length
      selected := kept.length
      shortfall := max 0 (quota - kept.length)
      reservoirNeed := ← py.reservoirNeed quota (survivalAt survival level) }]
    drops := if kept.length < cands.length then
        addTo ("over-quota:" ++ level.name) (cands.length - kept.length) acc.drops
      else acc.drops }

/-- `sample`; `none` for an exception. -/
def sample (rows : List SampleRow) (quotas : Option (List (String × Int)))
    (survival : Option (List (String × Option ℚ))) (dropTags : List String) (otherQuota : Option Int) :
    Option BudgetedSample := do
  let filling ← py.fill dropTags rows ⟨fun _ => [], []⟩
  Stratum.all.foldlM (fun acc level => py.takeLevel (quotas.getD quotaMix)
    (survival.getD py.survivalMix) otherQuota (filling.buckets level) level acc) ⟨[], [], filling.drops⟩

/-! ## What can be read -/

/-- The value can be written out. -/
def Printable (value : PyValue) : Prop := (py.pyStr value.orEmpty).isSome

/-- The tags are no value, a text or a collection, and each can be written out. -/
def TagsRead (row : SampleRow) : Prop :=
  ∃ items, tagItems (row.field "tags") = some items ∧ ∀ tag ∈ items, py.Printable tag

def Passes (dropTags : List String) (row : SampleRow) : Prop :=
  py.tagDropReason (row.field "tags") dropTags = some none

instance (dropTags : List String) (row : SampleRow) : Decidable (py.Passes dropTags row) :=
  inferInstanceAs (Decidable (_ = _))

/-- What is read of a row that passes can be read. -/
structure RowReads (row : SampleRow) : Prop where
  level : py.Printable (row.field "sense_cefr")
  pool : py.levelOf (row.field "sense_cefr") = some none → py.Printable (row.field "pool_level")
  method : py.Printable (row.field "sense_cefr_method")
  zipf : ∀ n, row.field "zipf" = .int n → n.natAbs < GateLib.floatLimit
  key : (py.rowKey row).isSome

/-- Every row can be read as far as it is read. -/
structure RowsRead (dropTags : List String) (rows : List SampleRow) : Prop where
  tags : ∀ row ∈ rows, py.TagsRead row
  passing : ∀ row ∈ rows, py.Passes dropTags row → py.RowReads row

theorem tagDropReason_isSome {row : SampleRow} (dropTags : List String) :
    (py.tagDropReason (row.field "tags") dropTags).isSome = true ↔ py.TagsRead row := by
  unfold tagDropReason TagsRead
  cases tagItems (row.field "tags") with
  | none => simp
  | some items =>
    have hitems : (items.mapM py.foldTag).isSome = true ↔ ∀ tag ∈ items, py.Printable tag := by
      rw [isSome_mapM]
      simp only [foldTag, Option.isSome_map, Printable]
    rw [Option.bind_eq_bind, Option.bind_some]
    simp only [Option.some.injEq, exists_eq_left', ← hitems]
    cases items.mapM py.foldTag <;> simp

theorem rowLevel_isSome {row : SampleRow} :
    (py.rowLevel row).isSome = true ↔ py.Printable (row.field "sense_cefr") ∧
      (py.levelOf (row.field "sense_cefr") = some none → py.Printable (row.field "pool_level")) := by
  have hprint : ∀ value, py.Printable value ↔ (py.levelOf value).isSome = true := fun value => by
    rw [levelOf, Option.isSome_map, Printable]
  rw [hprint, hprint, rowLevel]
  cases py.levelOf (row.field "sense_cefr") with
  | none => simp
  | some level =>
    cases level with
    | some level => simp
    | none => cases py.levelOf (row.field "pool_level") <;> simp

theorem cappedZipf_isSome {value : PyValue} : (py.cappedZipf value).isSome = true ↔
    ∀ n, value = .int n → n.natAbs < GateLib.floatLimit := by
  unfold cappedZipf
  rw [Option.isSome_map]
  cases value with
  | int n => simp
  | float x => cases x <;> simp
  | str s => simp only [reduceCtorEq, false_imp_iff, implies_true, iff_true]; split <;> rfl
  | _ => simp

theorem sortKey_isSome {row : SampleRow} : (py.sortKey row).isSome = true ↔
    py.Printable (row.field "sense_cefr_method") ∧
      (∀ n, row.field "zipf" = .int n → n.natAbs < GateLib.floatLimit) ∧
        (py.rowKey row).isSome = true := by
  rw [← py.cappedZipf_isSome, Printable, sortKey, scoreRow]
  cases py.pyStr (row.field "sense_cefr_method").orEmpty with
  | none => simp
  | some method =>
    cases py.cappedZipf (row.field "zipf") with
    | none => simp
    | some zipf => cases py.rowKey row <;> simp

theorem rowReads_iff {row : SampleRow} :
    py.RowReads row ↔ (py.rowLevel row).isSome = true ∧ (py.sortKey row).isSome = true := by
  rw [rowLevel_isSome, sortKey_isSome]
  exact ⟨fun h => ⟨⟨h.level, h.pool⟩, h.method, h.zipf, h.key⟩,
    fun h => ⟨h.1.1, h.1.2, h.2.1, h.2.2.1, h.2.2.2⟩⟩

/-! ## The loops -/

def candidates (dropTags : List String) (rows : List SampleRow) (level : Stratum) : List SampleRow :=
  rows.filter fun row => py.Passes dropTags row ∧ py.rowLevel row = some level

/-- What the rows with a dropped tag add to the drops. -/
def tagRows (dropTags : List String) (rows : List SampleRow) : Drops :=
  rows.filterMap fun row => match py.tagDropReason (row.field "tags") dropTags with
    | some (some reason) => some ("tag:" ++ reason, 1)
    | _ => none

def Placed (dropTags : List String) (row : SampleRow) : Prop :=
  py.TagsRead row ∧ (py.Passes dropTags row → (py.rowLevel row).isSome = true)

theorem fill_eq_some_iff {dropTags : List String} {rows : List SampleRow} {acc f : Filling} :
    py.fill dropTags rows acc = some f ↔ (∀ row ∈ rows, py.Placed dropTags row) ∧
      f = ⟨fun level => acc.buckets level ++ py.candidates dropTags rows level,
        groupAdd acc.drops (py.tagRows dropTags rows)⟩ := by
  induction rows generalizing acc with
  | nil => simp [fill, candidates, tagRows, groupAdd, eq_comm]
  | cons row rows ih =>
    rw [List.forall_mem_cons, fill]
    cases htags : py.tagDropReason (row.field "tags") dropTags with
    | none =>
      have hbad : ¬ py.Placed dropTags row := fun h => by
        have hread := (py.tagDropReason_isSome dropTags).mpr h.1
        rw [htags] at hread
        cases hread
      simp [hbad]
    | some reason =>
      have hread : py.TagsRead row := (py.tagDropReason_isSome dropTags).mp (by rw [htags]; rfl)
      cases reason with
      | some reason =>
        have hpass : ¬ py.Passes dropTags row := by simp [Passes, htags]
        have hplaced : py.Placed dropTags row := ⟨hread, fun h => absurd h hpass⟩
        have hcands : ∀ level, py.candidates dropTags (row :: rows) level =
            py.candidates dropTags rows level := fun level => by
          simp [candidates, hpass]
        have hdrops : py.tagRows dropTags (row :: rows) =
            ("tag:" ++ reason, 1) :: py.tagRows dropTags rows := by
          simp [tagRows, htags]
        simp only [Option.bind_eq_bind, Option.bind_some, ih, hplaced, true_and, hcands, hdrops]
        rfl
      | none =>
        have hpass : py.Passes dropTags row := htags
        have hdrops : py.tagRows dropTags (row :: rows) = py.tagRows dropTags rows := by
          simp [tagRows, htags]
        cases hlevel : py.rowLevel row with
        | none =>
          have hbad : ¬ py.Placed dropTags row := fun h => by
            have hsome := h.2 hpass
            rw [hlevel] at hsome
            cases hsome
          simp [hbad]
        | some level =>
          have hplaced : py.Placed dropTags row := ⟨hread, fun _ => by rw [hlevel]; rfl⟩
          have hcands : ∀ l, Function.update acc.buckets level (acc.buckets level ++ [row]) l ++
              py.candidates dropTags rows l =
                acc.buckets l ++ py.candidates dropTags (row :: rows) l := fun l => by
            by_cases hl : l = level
            · subst hl
              simp [candidates, hpass, hlevel]
            · simp [candidates, hlevel, hl, Ne.symm hl]
          simp only [Option.bind_eq_bind, Option.bind_some, ih, hplaced, true_and, hcands, hdrops]

/-- The key of a row that can be ordered. -/
def keyOf (row : SampleRow) : ℚ ×ₗ String := (py.sortKey row).getD (toLex (0, ""))

theorem ordered_eq_some_iff (cands : List SampleRow) {rows : List SampleRow} :
    py.ordered cands = some rows ↔
      (∀ row ∈ cands, (py.sortKey row).isSome = true) ∧ rows = sortBy py.keyOf cands := by
  have hsort : ((sortBy Prod.fst (cands.map fun row => (py.keyOf row, row))).map Prod.snd) =
      sortBy py.keyOf cands := by
    rw [sortBy_map, List.map_map]
    exact List.map_id' _
  have hkeyed : (∀ row ∈ cands, (py.sortKey row).isSome = true) →
      (cands.mapM fun row => (py.sortKey row).map fun key => (key, row)) =
        some (cands.map fun row => (py.keyOf row, row)) := fun h => by
    refine mapM_of_forall₂ (List.forall₂_map_right_iff.mpr (List.forall₂_same.mpr fun row hrow => ?_))
    obtain ⟨key, hkey⟩ := Option.isSome_iff_exists.mp (h row hrow)
    simp [keyOf, hkey]
  unfold ordered
  rw [Option.bind_eq_bind, Option.bind_eq_some_iff]
  constructor
  · rintro ⟨keyed, hmap, hordered⟩
    have hall : ∀ row ∈ cands, (py.sortKey row).isSome = true := fun row hrow => by
      have hrow := isSome_mapM.mp (by rw [hmap]; rfl) row hrow
      rwa [Option.isSome_map] at hrow
    rw [hkeyed hall, Option.some.injEq] at hmap
    subst hmap
    rw [hsort] at hordered
    exact ⟨hall, (Option.some.inj hordered).symm⟩
  · rintro ⟨hall, rfl⟩
    exact ⟨_, hkeyed hall, by rw [hsort]; rfl⟩

section Levels
variable (quotas : List (String × Int)) (survival : List (String × Option ℚ)) (otherQuota : Option Int)

def keptAt (cands : Stratum → List SampleRow) (level : Stratum) : List SampleRow :=
  (sortBy py.keyOf (cands level)).take (max 0 (quotaAt quotas otherQuota level (cands level).length)).toNat

def leftAt (cands : Stratum → List SampleRow) (level : Stratum) : List SampleRow :=
  (sortBy py.keyOf (cands level)).drop (max 0 (quotaAt quotas otherQuota level (cands level).length)).toNat

def leftRows (cands : Stratum → List SampleRow) (level : Stratum) : Drops :=
  let left := py.leftAt quotas otherQuota cands level
  if left = [] then [] else [("over-quota:" ++ level.name, left.length)]

/-- The quota of the stratum and what it needs of the reservoir are floats. -/
def QuotaFits (level : Stratum) (cands : Nat) : Prop :=
  ∀ share, survivalAt survival level = some share → 0 < share →
    (quotaAt quotas otherQuota level cands).natAbs < GateLib.floatLimit ∧
      |py.nearest (quotaAt quotas otherQuota level cands) / share| < (GateLib.floatLimit : ℚ)

theorem reservoirNeed_isSome {level : Stratum} {cands : Nat} :
    (py.reservoirNeed (quotaAt quotas otherQuota level cands) (survivalAt survival level)).isSome = true ↔
      py.QuotaFits quotas survival otherQuota level cands := by
  unfold QuotaFits reservoirNeed
  generalize GateLib.floatLimit = limit
  cases survivalAt survival level with
  | none => simp
  | some share =>
    by_cases hshare : share ≤ 0
    · simp [hshare, not_lt.mpr hshare]
    · simp only [hshare, if_false, Option.some.injEq, forall_eq', not_le.mp hshare, true_imp_iff]
      split <;> simp [*]

/-- The strata can be filled. -/
def LevelFits (cands : Stratum → List SampleRow) (level : Stratum) : Prop :=
  (∀ row ∈ cands level, (py.sortKey row).isSome = true) ∧
    py.QuotaFits quotas survival otherQuota level (cands level).length

/-- What the summary says of a stratum that can be filled. -/
def summaryAt (cands : Stratum → List SampleRow) (level : Stratum) : LevelSummary :=
  let quota := quotaAt quotas otherQuota level (cands level).length
  let kept := py.keptAt quotas otherQuota cands level
  { level, quota
    candidates := (cands level).length
    selected := kept.length
    shortfall := max 0 (quota - kept.length)
    reservoirNeed := (py.reservoirNeed quota (survivalAt survival level)).getD 0 }

def withLevel (cands : Stratum → List SampleRow) (acc : BudgetedSample) (level : Stratum) :
    BudgetedSample where
  selected := acc.selected ++ py.keptAt quotas otherQuota cands level
  perLevel := acc.perLevel ++ [py.summaryAt quotas survival otherQuota cands level]
  drops := groupAdd acc.drops (py.leftRows quotas otherQuota cands level)

theorem length_keptAt_add (cands : Stratum → List SampleRow) (level : Stratum) :
    (py.keptAt quotas otherQuota cands level).length + (py.leftAt quotas otherQuota cands level).length =
      (cands level).length := by
  rw [← List.length_append, keptAt, leftAt, List.take_append_drop, (sortBy_perm _ _).length_eq]

theorem takeLevel_eq_some_iff {cands : Stratum → List SampleRow} {level : Stratum}
    {acc acc' : BudgetedSample} :
    py.takeLevel quotas survival otherQuota (cands level) level acc = some acc' ↔
      py.LevelFits quotas survival otherQuota cands level ∧
        acc' = py.withLevel quotas survival otherQuota cands acc level := by
  rw [LevelFits, ← reservoirNeed_isSome]
  have hdrops : (if (py.keptAt quotas otherQuota cands level).length < (cands level).length then
      addTo ("over-quota:" ++ level.name) ((cands level).length -
        (py.keptAt quotas otherQuota cands level).length) acc.drops else acc.drops) =
      groupAdd acc.drops (py.leftRows quotas otherQuota cands level) := by
    have hlength := py.length_keptAt_add quotas otherQuota cands level
    unfold leftRows
    by_cases hleft : py.leftAt quotas otherQuota cands level = []
    · rw [hleft, List.length_nil, add_zero] at hlength
      rw [if_neg hlength.not_lt, hleft]
      rfl
    · have hpos := List.length_pos_iff.mpr hleft
      rw [if_pos (by omega), show (cands level).length -
        (py.keptAt quotas otherQuota cands level).length =
          (py.leftAt quotas otherQuota cands level).length by omega]
      simp only [hleft, if_false]
      rfl
  unfold takeLevel
  cases hordered : py.ordered (cands level) with
  | none =>
    have hbad : ¬ ∀ row ∈ cands level, (py.sortKey row).isSome = true := fun h => by
      have hsome := (py.ordered_eq_some_iff (cands level)).mpr ⟨h, rfl⟩
      rw [hordered] at hsome
      cases hsome
    simp [hbad]
  | some rows =>
    obtain ⟨hall, rfl⟩ := (py.ordered_eq_some_iff _).mp hordered
    cases hneed : py.reservoirNeed (quotaAt quotas otherQuota level (cands level).length)
        (survivalAt survival level) with
    | none => simp [hneed]
    | some need =>
      have hkept : ((sortBy py.keyOf (cands level)).take
          (max 0 (quotaAt quotas otherQuota level (cands level).length)).toNat) =
            py.keptAt quotas otherQuota cands level := rfl
      simp only [Option.bind_eq_bind, Option.bind_some, hkept, hdrops, Option.isSome_some, and_true]
      rw [iff_true_intro hall, true_and]
      simp [withLevel, summaryAt, hneed, eq_comm]

theorem foldl_withLevel (cands : Stratum → List SampleRow) (levels : List Stratum) (acc : BudgetedSample) :
    (levels.foldl (py.withLevel quotas survival otherQuota cands) acc).selected =
        acc.selected ++ levels.flatMap (py.keptAt quotas otherQuota cands) ∧
      (levels.foldl (py.withLevel quotas survival otherQuota cands) acc).drops =
        groupAdd acc.drops (levels.flatMap (py.leftRows quotas otherQuota cands)) := by
  induction levels generalizing acc with
  | nil => simp [groupAdd]
  | cons level levels ih =>
    rw [List.foldl_cons, (ih _).1, (ih _).2, List.flatMap_cons, List.flatMap_cons]
    refine ⟨List.append_assoc _ _ _, ?_⟩
    rw [groupAdd, groupAdd, List.foldl_append]
    rfl

end Levels

/-! ## The whole selection -/

section Sample
variable (quotas : Option (List (String × Int))) (survival : Option (List (String × Option ℚ)))
  (dropTags : List String) (otherQuota : Option Int) (rows : List SampleRow)

/-- Every stratum has a quota that fits. -/
def QuotasFit : Prop :=
  ∀ level, py.QuotaFits (quotas.getD quotaMix) (survival.getD py.survivalMix) otherQuota level
    (py.candidates dropTags rows level).length

theorem mem_candidates {row : SampleRow} {level : Stratum} :
    row ∈ py.candidates dropTags rows level ↔
      row ∈ rows ∧ py.Passes dropTags row ∧ py.rowLevel row = some level := by
  simp [candidates]

theorem rowsRead_iff : py.RowsRead dropTags rows ↔ (∀ row ∈ rows, py.Placed dropTags row) ∧
    ∀ level, ∀ row ∈ py.candidates dropTags rows level, (py.sortKey row).isSome = true := by
  constructor
  · intro h
    refine ⟨fun row hrow => ⟨h.tags row hrow, fun hpass => ?_⟩, fun level row hrow => ?_⟩
    · exact (py.rowReads_iff.mp (h.passing row hrow hpass)).1
    · obtain ⟨hmem, hpass, -⟩ := (py.mem_candidates dropTags rows).mp hrow
      exact (py.rowReads_iff.mp (h.passing row hmem hpass)).2
  · rintro ⟨hplaced, hkeys⟩
    refine ⟨fun row hrow => (hplaced row hrow).1, fun row hrow hpass => ?_⟩
    have hlevel := (hplaced row hrow).2 hpass
    obtain ⟨level, hlevel'⟩ := Option.isSome_iff_exists.mp hlevel
    exact py.rowReads_iff.mpr ⟨hlevel,
      hkeys level row ((py.mem_candidates dropTags rows).mpr ⟨hrow, hpass, hlevel'⟩)⟩

theorem sample_eq_some_iff {s : BudgetedSample} :
    py.sample rows quotas survival dropTags otherQuota = some s ↔
      (py.RowsRead dropTags rows ∧ py.QuotasFit quotas survival dropTags otherQuota rows) ∧
        s = Stratum.all.foldl (py.withLevel (quotas.getD quotaMix) (survival.getD py.survivalMix)
          otherQuota (py.candidates dropTags rows)) ⟨[], [], groupAdd [] (py.tagRows dropTags rows)⟩ := by
  have hfold : ∀ (cands : Stratum → List SampleRow) (acc : BudgetedSample), Stratum.all.foldlM
      (fun acc level => py.takeLevel (quotas.getD quotaMix) (survival.getD py.survivalMix) otherQuota
        (cands level) level acc) acc = some s ↔
      (∀ level ∈ Stratum.all, py.LevelFits (quotas.getD quotaMix) (survival.getD py.survivalMix)
        otherQuota cands level) ∧
        s = Stratum.all.foldl (py.withLevel (quotas.getD quotaMix) (survival.getD py.survivalMix)
          otherQuota cands) acc := fun cands acc =>
    foldlM_eq_some_iff (py.withLevel (quotas.getD quotaMix) (survival.getD py.survivalMix)
      otherQuota cands) fun _ _ _ => py.takeLevel_eq_some_iff _ _ _
  have hlevels : (∀ level ∈ Stratum.all, py.LevelFits (quotas.getD quotaMix)
      (survival.getD py.survivalMix) otherQuota (py.candidates dropTags rows) level) ↔
      (∀ level, ∀ row ∈ py.candidates dropTags rows level, (py.sortKey row).isSome = true) ∧
        py.QuotasFit quotas survival dropTags otherQuota rows := by
    simp only [Stratum.mem_all, true_imp_iff, LevelFits, QuotasFit, forall_and]
  rw [sample, Option.bind_eq_bind, Option.bind_eq_some_iff, rowsRead_iff]
  simp only [fill_eq_some_iff, List.nil_append, hfold]
  constructor
  · rintro ⟨_, ⟨hplaced, rfl⟩, hfits, rfl⟩
    exact ⟨⟨⟨hplaced, (hlevels.mp hfits).1⟩, (hlevels.mp hfits).2⟩, rfl⟩
  · rintro ⟨⟨⟨hplaced, hkeys⟩, hquotas⟩, rfl⟩
    exact ⟨_, ⟨hplaced, rfl⟩, hlevels.mpr ⟨hkeys, hquotas⟩, rfl⟩

/-- The rows are what is kept and what is left in each stratum, and what has a dropped tag; each
stratum keeps its quota, of its best rows, and the drops are counted. -/
structure RowsAccounted (s : BudgetedSample) (kept left : Stratum → List SampleRow) : Prop where
  selected : s.selected = Stratum.all.flatMap kept
  everyRow : (s.selected ++ Stratum.all.flatMap left ++
    rows.filter fun row => ¬ py.Passes dropTags row).Perm rows
  split : ∀ level, (kept level ++ left level).Perm (py.candidates dropTags rows level)
  size : ∀ level, ((kept level).length : Int) = min (max (quotaAt (quotas.getD quotaMix) otherQuota
    level (py.candidates dropTags rows level).length) 0) (py.candidates dropTags rows level).length
  best : ∀ level, ∀ a ∈ kept level, ∀ b ∈ left level, ∀ x y, py.scoreRow a = some x →
    py.scoreRow b = some y → y ≤ x
  others : otherQuota = none → left .other = []
  tagDrops : ∀ reason, groupAt s.drops ("tag:" ++ reason) =
    rows.countP fun row => py.tagDropReason (row.field "tags") dropTags = some (some reason)
  quotaDrops : ∀ level, groupAt s.drops ("over-quota:" ++ level.name) = (left level).length
  total : s.selected.length + (s.drops.map Prod.snd).sum = rows.length

/-- The sample of the rows accounts for them, and does not depend on their order when their keys
are distinct. -/
def ConservesRows : Prop :=
  ∃ s, py.sample rows quotas survival dropTags otherQuota = some s ∧
    (∃ kept left, py.RowsAccounted quotas dropTags otherQuota rows s kept left) ∧
      ∀ rows', rows'.Perm rows → (rows.map py.rowKey).Nodup →
        (py.sample rows' quotas survival dropTags otherQuota).map BudgetedSample.selected =
          some s.selected

variable {py dropTags otherQuota rows}

theorem candidates_perm (hread : py.RowsRead dropTags rows) :
    (Stratum.all.flatMap (py.candidates dropTags rows)).Perm
      (rows.filter fun row => py.Passes dropTags row) := by
  have hcands : py.candidates dropTags rows = fun level =>
      (rows.filter fun row => py.Passes dropTags row).filter fun row => py.rowLevel row = some level := by
    funext level
    rw [candidates, List.filter_filter]
    exact List.filter_congr fun row _ => by rw [Bool.decide_and, Bool.and_comm]
  rw [hcands]
  refine flatMap_filter_perm Stratum.nodup_all fun row hrow => ?_
  rw [List.mem_filter, decide_eq_true_eq] at hrow
  obtain ⟨level, hlevel⟩ := Option.isSome_iff_exists.mp
    (py.rowReads_iff.mp (hread.passing row hrow.1 hrow.2)).1
  exact ⟨level, level.mem_all, hlevel⟩

theorem scoreRow_le {a b : SampleRow} (ha : (py.sortKey a).isSome = true)
    (hb : (py.sortKey b).isSome = true) (hle : py.keyOf a ≤ py.keyOf b) {x y : ℚ}
    (hx : py.scoreRow a = some x) (hy : py.scoreRow b = some y) : y ≤ x := by
  obtain ⟨-, -, hkeya⟩ := py.sortKey_isSome.mp ha
  obtain ⟨-, -, hkeyb⟩ := py.sortKey_isSome.mp hb
  obtain ⟨k, hk⟩ := Option.isSome_iff_exists.mp hkeya
  obtain ⟨l, hl⟩ := Option.isSome_iff_exists.mp hkeyb
  have hkey : -x ≤ -y := by
    simp only [keyOf, sortKey, hx, hy, hk, hl, Option.bind_eq_bind, Option.bind_some, Option.pure_def,
      Option.getD_some, Prod.Lex.toLex_le_toLex] at hle
    exact hle.elim le_of_lt fun h => h.1.le
  exact neg_le_neg_iff.mp hkey

theorem tag_ne_overQuota (reason name : String) : "tag:" ++ reason ≠ "over-quota:" ++ name := by
  intro h
  have hlist := congrArg String.toList h
  simp at hlist

theorem groupAt_tagRows (reason : String) : groupAt (py.tagRows dropTags rows) ("tag:" ++ reason) =
    rows.countP fun row => py.tagDropReason (row.field "tags") dropTags = some (some reason) := by
  induction rows with
  | nil => rfl
  | cons row rows ih =>
    rw [List.countP_cons, ← ih]
    unfold tagRows groupAt
    cases htags : py.tagDropReason (row.field "tags") dropTags with
    | none => simp [htags]
    | some r =>
      cases r with
      | none => simp [htags]
      | some r =>
        rw [List.filterMap_cons_some (by rw [htags])]
        by_cases hr : r = reason
        · simp [hr, Nat.add_comm]
        · simp [hr]

theorem sum_tagRows (hread : py.RowsRead dropTags rows) : ((py.tagRows dropTags rows).map Prod.snd).sum =
    (rows.filter fun row => ¬ py.Passes dropTags row).length := by
  have htags := hread.tags
  clear hread
  induction rows with
  | nil => rfl
  | cons row rows ih =>
    obtain ⟨hrow, hrows⟩ := List.forall_mem_cons.mp htags
    obtain ⟨r, hr⟩ := Option.isSome_iff_exists.mp ((py.tagDropReason_isSome dropTags).mpr hrow)
    have hstep := ih hrows
    unfold tagRows at hstep ⊢
    cases r with
    | none =>
      rw [List.filterMap_cons_none (by rw [hr]), hstep, List.filter_cons_of_neg (by simp [Passes, hr])]
    | some r =>
      rw [List.filterMap_cons_some (by rw [hr]), List.filter_cons_of_pos (by simp [Passes, hr]),
        List.map_cons, List.sum_cons, hstep, List.length_cons, Nat.add_comm]

theorem groupAt_leftRows (quotas : List (String × Int)) (cands : Stratum → List SampleRow)
    (levels : List Stratum) (k : String) :
    groupAt (levels.flatMap (py.leftRows quotas otherQuota cands)) k =
      (levels.map fun level => if "over-quota:" ++ level.name = k then
        (py.leftAt quotas otherQuota cands level).length else 0).sum := by
  induction levels with
  | nil => rfl
  | cons level levels ih =>
    rw [List.map_cons, List.sum_cons, ← ih, List.flatMap_cons, groupAt, groupAt, List.filter_append,
      List.map_append, List.sum_append, leftRows]
    congr 1
    by_cases hleft : py.leftAt quotas otherQuota cands level = []
    · simp [hleft]
    · by_cases hk : "over-quota:" ++ level.name = k
      · simp [hleft, hk]
      · simp [hleft, hk]

theorem sum_leftRows (quotas : List (String × Int)) (cands : Stratum → List SampleRow)
    (levels : List Stratum) :
    ((levels.flatMap (py.leftRows quotas otherQuota cands)).map Prod.snd).sum =
      (levels.flatMap (py.leftAt quotas otherQuota cands)).length := by
  induction levels with
  | nil => rfl
  | cons level levels ih =>
    rw [List.flatMap_cons, List.flatMap_cons, List.map_append, List.sum_append, ih, List.length_append,
      leftRows]
    congr 1
    by_cases hleft : py.leftAt quotas otherQuota cands level = []
    · simp [hleft]
    · simp [hleft]

theorem name_injective : Function.Injective Stratum.name := by
  intro a b h
  cases a <;> cases b <;> first | rfl | exact absurd h (by decide)

theorem groupAt_tagRows_overQuota (name : String) :
    groupAt (py.tagRows dropTags rows) ("over-quota:" ++ name) = 0 := by
  have hnil : (py.tagRows dropTags rows).filter (fun r => r.1 = "over-quota:" ++ name) = [] := by
    refine List.filter_eq_nil_iff.mpr fun r hr => ?_
    obtain ⟨row, -, hrow⟩ := List.mem_filterMap.mp hr
    split at hrow
    · obtain rfl := Option.some.inj hrow
      simpa using tag_ne_overQuota _ name
    · cases hrow
  rw [groupAt, hnil]
  rfl

theorem groupAt_drops (quotas : List (String × Int)) (cands : Stratum → List SampleRow) :
    (∀ reason, groupAt (groupAdd (groupAdd [] (py.tagRows dropTags rows))
        (Stratum.all.flatMap (py.leftRows quotas otherQuota cands))) ("tag:" ++ reason) =
      rows.countP fun row => py.tagDropReason (row.field "tags") dropTags = some (some reason)) ∧
    ∀ level, groupAt (groupAdd (groupAdd [] (py.tagRows dropTags rows))
        (Stratum.all.flatMap (py.leftRows quotas otherQuota cands))) ("over-quota:" ++ level.name) =
      (py.leftAt quotas otherQuota cands level).length := by
  have hat : ∀ k, groupAt (groupAdd (groupAdd [] (py.tagRows dropTags rows))
      (Stratum.all.flatMap (py.leftRows quotas otherQuota cands))) k =
        groupAt (py.tagRows dropTags rows) k + (Stratum.all.map fun level =>
          if "over-quota:" ++ level.name = k then
            (py.leftAt quotas otherQuota cands level).length else 0).sum := fun k => by
    rw [groupAt_groupAdd, groupAt_groupAdd, groupAt_leftRows]
    exact congrArg (· + _) (Nat.zero_add _)
  refine ⟨fun reason => ?_, fun level => ?_⟩
  · rw [hat, groupAt_tagRows, sum_map_eq_zero, add_zero]
    exact fun level _ => if_neg (tag_ne_overQuota reason level.name).symm
  · have hsame : (fun l : Stratum => if "over-quota:" ++ l.name = "over-quota:" ++ level.name then
        (py.leftAt quotas otherQuota cands l).length else 0) = fun l => if level = l then
          (py.leftAt quotas otherQuota cands level).length else 0 := by
      funext l
      by_cases hl : level = l
      · simp [hl]
      · rw [if_neg hl, if_neg fun h => hl (name_injective ((String.append_right_inj _).mp h)).symm]
    rw [hat, groupAt_tagRows_overQuota, Nat.zero_add, hsame, sum_ite_eq Stratum.nodup_all level.mem_all]

theorem accounted (hread : py.RowsRead dropTags rows) :
    py.RowsAccounted quotas dropTags otherQuota rows
      (Stratum.all.foldl (py.withLevel (quotas.getD quotaMix) (survival.getD py.survivalMix) otherQuota
        (py.candidates dropTags rows)) ⟨[], [], groupAdd [] (py.tagRows dropTags rows)⟩)
      (py.keptAt (quotas.getD quotaMix) otherQuota (py.candidates dropTags rows))
      (py.leftAt (quotas.getD quotaMix) otherQuota (py.candidates dropTags rows)) := by
  set quotas := quotas.getD quotaMix
  set cands := py.candidates dropTags rows with hcands
  obtain ⟨hselected, hdrops⟩ := py.foldl_withLevel quotas (survival.getD py.survivalMix) otherQuota cands
    Stratum.all ⟨[], [], groupAdd [] (py.tagRows dropTags rows)⟩
  rw [List.nil_append] at hselected
  have hsplit : ∀ level, (py.keptAt quotas otherQuota cands level ++
      py.leftAt quotas otherQuota cands level).Perm (cands level) := fun level => by
    rw [keptAt, leftAt, List.take_append_drop]
    exact sortBy_perm _ _
  have hevery : (Stratum.all.flatMap (py.keptAt quotas otherQuota cands) ++
      Stratum.all.flatMap (py.leftAt quotas otherQuota cands) ++
        rows.filter fun row => ¬ py.Passes dropTags row).Perm rows := by
    have hpassing := (List.flatMap_append_perm Stratum.all (py.keptAt quotas otherQuota cands)
      (py.leftAt quotas otherQuota cands)).trans ((List.Perm.flatMap_left _ fun level _ =>
        hsplit level).trans (candidates_perm hread))
    refine (hpassing.append_right _).trans ?_
    have hfilter := List.filter_append_perm (fun row => decide (py.Passes dropTags row)) rows
    simpa only [decide_not] using hfilter
  refine {
    selected := hselected
    everyRow := by rw [hselected]; exact hevery
    split := hsplit
    size := fun level => ?_
    best := fun level a ha b hb x y hx hy => ?_
    others := ?_
    tagDrops := fun reason => by rw [hdrops, (groupAt_drops quotas cands).1]
    quotaDrops := fun level => by rw [hdrops, (groupAt_drops quotas cands).2]
    total := ?_ }
  · rw [keptAt, List.length_take, (sortBy_perm _ _).length_eq]
    push_cast
    rw [Int.toNat_of_nonneg (le_max_left _ _), max_comm]
  · have hsorted := pairwise_sortBy py.keyOf (cands level)
    rw [← List.take_append_drop (max 0 (quotaAt quotas otherQuota level (cands level).length)).toNat
      (sortBy py.keyOf (cands level)), List.pairwise_append] at hsorted
    have hkeys := ((py.rowsRead_iff dropTags rows).mp hread).2 level
    refine scoreRow_le (hkeys a ?_) (hkeys b ?_) (hsorted.2.2 a ha b hb) hx hy
    · exact (hsplit level).subset (List.mem_append_left _ ha)
    · exact (hsplit level).subset (List.mem_append_right _ hb)
  · rintro rfl
    refine List.drop_eq_nil_of_le ?_
    rw [(sortBy_perm _ _).length_eq]
    simp [quotaAt]
  · have hlength := hevery.length_eq
    rw [List.length_append, List.length_append] at hlength
    rw [hdrops, hselected, sum_groupAdd, sum_groupAdd, sum_leftRows, sum_tagRows hread]
    simp only [List.map_nil, List.sum_nil, Nat.zero_add]
    omega

theorem sortBy_keyOf_of_perm (hread : py.RowsRead dropTags rows) (hkeys : (rows.map py.rowKey).Nodup)
    {rows' : List SampleRow} (hperm : rows'.Perm rows) (level : Stratum) :
    sortBy py.keyOf (py.candidates dropTags rows' level) =
      sortBy py.keyOf (py.candidates dropTags rows level) := by
  have hcands : (py.candidates dropTags rows' level).Perm (py.candidates dropTags rows level) :=
    hperm.filter _
  refine sortBy_eq_of_perm py.keyOf ((sortBy_perm _ _).trans hcands.symm)
    (pairwise_lt_sortBy py.keyOf ?_)
  have hrowKey : ((py.candidates dropTags rows level).map py.keyOf).map (fun k => some (ofLex k).2) =
      (py.candidates dropTags rows level).map py.rowKey := by
    rw [List.map_map]
    refine List.map_congr_left fun row hrow => ?_
    have hsome := ((py.rowsRead_iff dropTags rows).mp hread).2 level row hrow
    obtain ⟨k, hk⟩ := Option.isSome_iff_exists.mp (py.sortKey_isSome.mp hsome).2.2
    obtain ⟨key, hkey⟩ := Option.isSome_iff_exists.mp hsome
    obtain ⟨x, hx⟩ : ∃ x, py.scoreRow row = some x := by
      cases hx : py.scoreRow row with
      | none => simp [sortKey, hx] at hkey
      | some x => exact ⟨x, rfl⟩
    simp [keyOf, sortKey, hx, hk]
  have hnodup : ((py.candidates dropTags rows level).map py.rowKey).Nodup :=
    hkeys.sublist (List.filter_sublist.map py.rowKey)
  exact List.Nodup.of_map _ (hrowKey ▸ hnodup)

theorem selected_of_perm (hread : py.RowsRead dropTags rows)
    (hfit : py.QuotasFit quotas survival dropTags otherQuota rows)
    (hkeys : (rows.map py.rowKey).Nodup) {rows' : List SampleRow} (hperm : rows'.Perm rows) :
    (py.sample rows' quotas survival dropTags otherQuota).map BudgetedSample.selected =
      some (Stratum.all.flatMap (py.keptAt (quotas.getD quotaMix) otherQuota
        (py.candidates dropTags rows))) := by
  have hread' : py.RowsRead dropTags rows' :=
    ⟨fun row hrow => hread.tags row (hperm.subset hrow),
      fun row hrow => hread.passing row (hperm.subset hrow)⟩
  have hlength : ∀ level, (py.candidates dropTags rows' level).length =
      (py.candidates dropTags rows level).length := fun level => (hperm.filter _).length_eq
  have hfit' : py.QuotasFit quotas survival dropTags otherQuota rows' := fun level => by
    rw [hlength]
    exact hfit level
  have hkept : py.keptAt (quotas.getD quotaMix) otherQuota (py.candidates dropTags rows') =
      py.keptAt (quotas.getD quotaMix) otherQuota (py.candidates dropTags rows) := by
    funext level
    rw [keptAt, keptAt, hlength, sortBy_keyOf_of_perm hread hkeys hperm]
  rw [(py.sample_eq_some_iff quotas survival dropTags otherQuota rows').mpr ⟨⟨hread', hfit'⟩, rfl⟩,
    Option.map_some, (py.foldl_withLevel _ _ _ _ _ _).1, hkept]
  rfl

variable (py dropTags otherQuota rows)

/-- **No row is lost exactly when every row can be read and every quota is within the floats.** -/
theorem sample_budgeted_iff : py.ConservesRows quotas survival dropTags otherQuota rows ↔
    py.RowsRead dropTags rows ∧ py.QuotasFit quotas survival dropTags otherQuota rows := by
  constructor
  · rintro ⟨s, hs, -⟩
    exact ((py.sample_eq_some_iff quotas survival dropTags otherQuota rows).mp hs).1
  · rintro ⟨hread, hfit⟩
    refine ⟨_, (py.sample_eq_some_iff quotas survival dropTags otherQuota rows).mpr
      ⟨⟨hread, hfit⟩, rfl⟩, ⟨_, _, accounted quotas survival hread⟩, fun rows' hperm hkeys => ?_⟩
    rw [selected_of_perm quotas survival hread hfit hkeys hperm, (py.foldl_withLevel _ _ _ _ _ _).1]
    rfl

end Sample

/-! ## A frequency beyond the floats -/

def plain : SelectorText where
  intOfStr _ := none
  floatOfStr _ := none
  display _ := some ""
  isSpace := Char.isWhitespace
  lower := id
  lower_empty := rfl
  upper s := String.ofList (s.toList.map Char.toUpper)
  casefold s := String.ofList (s.toList.map Char.toLower)
  nearest := id

def frequentWord (zipf : Int) : SampleRow :=
  [(.str "key", .str "w:the"), (.str "sense_cefr", .str "A1"), (.str "zipf", .int zipf)]

/-- A frequency of 400 digits stops the selection. -/
theorem sample_of_huge_zipf :
    plain.sample [frequentWord (10 ^ 400)] none none [] none = none ∧
      ¬ plain.ConservesRows none none [] none [frequentWord (10 ^ 400)] := by
  have hnone : plain.sample [frequentWord (10 ^ 400)] none none [] none = none := by decide +kernel
  refine ⟨hnone, fun ⟨s, hs, _⟩ => ?_⟩
  rw [hnone] at hs
  cases hs

end SelectorText
end HamZaboon
